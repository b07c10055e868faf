import NeroCD.Programs
import NeroCD.Proxy.Plan

-- What the proxy engine calls (`hostingproxy/storage.go`, `docker.go`, `observe.go`).  Nothing else writes the state
-- directory.  Names are clean paths below its root.

namespace NeroCD.Proxy

open NeroCD.Programs

inductive Failure where
  | notExist
  | exist
  | fault (text : String)
  | message (text : String)
  | joined (first second : Failure)
  deriving DecidableEq

-- `errors.Is(err, os.ErrNotExist)`.
def Failure.isNotExist : Failure → Bool
  | .notExist => true
  | .joined first second => first.isNotExist || second.isNotExist
  | _ => false

inductive FileKind where
  | regular
  | directory
  | other
  deriving DecidableEq

structure FileInfo where
  kind : FileKind
  mode : Nat
  owned : Bool
  deriving DecidableEq

structure Entry (Data : Type) where
  info : FileInfo
  data : Data
  deriving DecidableEq

inductive DockerCommand where
  | list (name : String)
  | inspect (name : String)
  | pull (image : String)
  | run (name : String)
  deriving DecidableEq

def DockerCommand.mutating : DockerCommand → Bool
  | .pull _ => true
  | .run _ => true
  | _ => false

structure DaemonInfo where
  id : String
  osType : String
  architecture : String

structure Certificate where
  issuer : String
  fingerprint : String
  expiresAt : Int
  deriving DecidableEq

structure Response where
  generation : String
  route : String
  status : Nat
  certificate : Option Certificate

section Calls

variable (Data : Type)

inductive Call where
  | openRoot
  | lstat (name : String)
  | mkdir (name : String)
  | readDir (name : String)
  | openLock
  | tryLock
  | wait
  | openFile (name : String)
  | fileSize (name : String)
  | readFile (name : String)
  | closeFile (name : String)
  | create (name : String)
  | write (name : String) (data : Data)
  | sync (name : String)
  | rename (old new : String)
  | remove (name : String)
  | openDir (name : String)
  | syncDir (name : String)
  | closeDir (name : String)
  | daemon
  | docker (command : DockerCommand)
  | listen (port : Nat)
  | rawData
  | generationMarker
  | response (route : Route) (secure : Bool)
  | contextErr
  | before

end Calls

variable {Data : Type}

def Call.Value : Call Data → Type
  | .lstat _ => FileInfo
  | .readDir _ => Nat
  | .tryLock => Bool
  | .fileSize _ => Nat
  | .readFile _ => Data
  | .daemon => DaemonInfo
  | .docker _ => String
  | .rawData => String
  | .generationMarker => String
  | .response _ _ => Response
  | _ => Unit

def Call.onFiles : Call Data → Bool
  | .lstat _ | .mkdir _ | .openLock | .openFile _ | .fileSize _ | .readFile _ | .closeFile _ | .create _
  | .write _ _ | .sync _ | .rename _ _ | .remove _ | .openDir _ | .syncDir _ | .closeDir _ => true
  | _ => false

abbrev calls (Data : Type) : Interface where
  Call := Call Data
  Reply c := Except Failure c.Value

abbrev Action (Data α : Type) := Fallible (calls Data) Failure α

def ask (c : Call Data) : Action Data c.Value := .call c fun reply => .done reply

structure World (Data : Type) where
  files : String → Option (Entry Data)
  issued : List DockerCommand

namespace World

def set (s : World Data) (name : String) (entry : Option (Entry Data)) : World Data :=
  { s with files := Function.update s.files name entry }

@[simp] theorem set_self (s : World Data) (name : String) (entry : Option (Entry Data)) :
    (s.set name entry).files name = entry := by simp [set]

theorem set_other (s : World Data) {name other : String} (entry : Option (Entry Data)) (h : other ≠ name) :
    (s.set name entry).files other = s.files other := by simp [set, h]

def data (s : World Data) (name : String) : Option Data := (s.files name).map (·.data)

def mutations (s : World Data) : List DockerCommand := s.issued.filter (·.mutating)

def hasDirectory (s : World Data) (name : String) : Bool :=
  name == "." || (s.files name).any (·.info.kind == .directory)

theorem hasDirectory_set (s : World Data) {name other : String} (entry : Option (Entry Data)) (h : other ≠ name) :
    (s.set name entry).hasDirectory other = s.hasDirectory other := by
  rw [hasDirectory, hasDirectory, s.set_other entry h]

end World

-- `filepath.Dir` of a clean relative name.
def directoryOf (name : String) : String :=
  match name.toList.reverse.dropWhile (· != '/') with
  | [] => "."
  | _ :: above => String.ofList above.reverse

def secureInfo : FileInfo := ⟨.regular, 0o600, true⟩

def stateFile (data : Data) : Entry Data := ⟨secureInfo, data⟩

structure Outside (Data : Type) where
  openRoot : Except Failure Unit
  readDir : String → Except Failure Nat
  tryLock : Except Failure Bool
  wait : Except Failure Unit
  size : Data → Nat
  daemon : Except Failure DaemonInfo
  docker : List DockerCommand → DockerCommand → Except Failure String
  listen : Nat → Except Failure Unit
  rawData : Except Failure String
  generationMarker : Except Failure String
  response : Route → Bool → Except Failure Response
  contextErr : Except Failure Unit
  before : Except Failure Unit

section Responses

variable [Inhabited Data]

-- The answer of a state directory on a healthy file system.  A new file is empty: `default`.
def respond (outside : Outside Data) : Responder (calls Data) (World Data)
  | .openRoot, s => (outside.openRoot, s)
  | .lstat name, s =>
    match s.files name with
    | none => (.error .notExist, s)
    | some entry => (.ok entry.info, s)
  | .mkdir name, s =>
    if (s.files name).isSome then (.error .exist, s)
    else (.ok (), s.set name (some ⟨⟨.directory, 0o700, true⟩, default⟩))
  | .readDir name, s => (outside.readDir name, s)
  | .openLock, s => (.ok (), if (s.files "lock").isSome then s else s.set "lock" (some (stateFile default)))
  | .tryLock, s => (outside.tryLock, s)
  | .wait, s => (outside.wait, s)
  | .openFile name, s => (if (s.files name).isSome then .ok () else .error .notExist, s)
  | .fileSize name, s => (.ok (((s.files name).map fun entry => outside.size entry.data).getD 0), s)
  | .readFile name, s =>
    match s.files name with
    | none => (.error .notExist, s)
    | some entry => (.ok entry.data, s)
  | .closeFile _, s => (.ok (), s)
  | .create name, s =>
    if (s.files name).isSome then (.error .exist, s) else (.ok (), s.set name (some (stateFile default)))
  | .write name data, s => (.ok (), s.set name ((s.files name).map fun entry => { entry with data := data }))
  | .sync _, s => (.ok (), s)
  | .rename old new, s =>
    if (s.files old).isNone || !s.hasDirectory (directoryOf new) then (.error .notExist, s)
    else if old = new then (.ok (), s)
    else if s.hasDirectory new then (.error .exist, s)
    else (.ok (), (s.set new (s.files old)).set old none)
  | .remove name, s => if (s.files name).isSome then (.ok (), s.set name none) else (.error .notExist, s)
  | .openDir name, s => (if s.hasDirectory name then .ok () else .error .notExist, s)
  | .syncDir _, s => (.ok (), s)
  | .closeDir _, s => (.ok (), s)
  | .daemon, s => (outside.daemon, s)
  | .docker command, s => (outside.docker s.issued command, { s with issued := s.issued ++ [command] })
  | .listen port, s => (outside.listen port, s)
  | .rawData, s => (outside.rawData, s)
  | .generationMarker, s => (outside.generationMarker, s)
  | .response route secure, s => (outside.response route secure, s)
  | .contextErr, s => (outside.contextErr, s)
  | .before, s => (outside.before, s)

-- A file call may fail without effect, a failed write may leave any part of the data, and a rename is atomic.
inductive Step : Steps (calls Data) (World Data) where
  | answered (outside : Outside Data) (c : Call Data) (s : World Data) :
      Step c s (respond outside c s).1 (respond outside c s).2
  | failed (c : Call Data) (s : World Data) (reason : String) (h : c.onFiles = true) :
      Step c s (.error (.fault reason)) s
  | torn (name : String) (data part : Data) (s : World Data) (reason : String) :
      Step (.write name data) s (.error (.fault reason))
        (s.set name ((s.files name).map fun entry => { entry with data := part }))

theorem respond_step (outside : Outside Data) (c : Call Data) (s : World Data) :
    Step c s (respond outside c s).1 (respond outside c s).2 := .answered outside c s

end Responses

end NeroCD.Proxy
