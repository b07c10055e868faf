import Mathlib.Algebra.Order.Ring.Int
import NeroCD.Proxy.World

-- The state directory: its lock, its receipt and the replacement of its files (`hostingproxy/storage.go`).

namespace NeroCD.Proxy

open NeroCD.Programs
open NeroCD.Programs.Fallible

variable {Data : Type}

-- `json.Marshal` and `json.Unmarshal` as far as the state directory depends on them.
structure Encoding (Data : Type) where
  receipt : Receipt → Data
  parseReceipt : Data → Option Receipt
  parse_receipt : ∀ r, parseReceipt (receipt r) = some r
  document : Json → Data

def receiptName : String := "receipt.json"

def previousName : String := "previous.json"

def routesName : String := "dynamic/routes.yml"

def acmeName : String := "certificates/acme.json"

def candidateName : String := "candidate"

def checkFile (name : String) : Action Data Unit := do
  let st ← ask (.lstat name)
  failIf (st.kind != .regular || st.mode != 0o600) (.message ("unsafe state file " ++ name))
  failIf (!st.owned) (.message "state must belong to effective user")

def ignoreExisting (made : Except Failure Unit) : Except Failure Unit :=
  match made with
  | .ok _ => .ok ()
  | .error reason => if reason = .exist then .ok () else .error reason

def checkSubdirectory (name : String) : Action Data Unit := do
  let made ← outcome (ask (.mkdir name))
  settle (ignoreExisting made)
  let st ← mapError (fun _ => Failure.message "unsafe state subdirectory") (ask (.lstat name))
  failIf (st.kind != .directory || st.mode != 0o700) (.message "unsafe state subdirectory")
  failIf (!st.owned) (.message "state must belong to effective user")

-- The lock is polled until the context ends; `polls` bounds the number of rounds before it does.
def takeLock : Nat → Action Data Unit
  | 0 => fail (.message "context deadline exceeded")
  | polls + 1 => do
    let taken : Bool ← ask .tryLock
    if taken then pure ()
    else do
      ask .wait
      takeLock polls

def openStorage (polls : Nat) : Action Data Unit := do
  ask .openRoot
  forEach checkSubdirectory ["dynamic", "docker-config", "certificates"]
  let entries : Nat ← mapError (fun _ => Failure.message "docker config must be empty")
    (ask (.readDir "docker-config"))
  failIf (entries != 0) (.message "docker config must be empty")
  ask .openLock
  checkFile "lock"
  takeLock polls

def joinErrors {α : Type} (first : Except Failure α) (second : Except Failure Unit) : Except Failure α :=
  match first, second with
  | r, .ok _ => r
  | .ok _, .error reason => .error reason
  | .error reason, .error other => .error (.joined reason other)

def readBody (name : String) : Action Data Data := do
  let size : Nat ← mapError (fun _ => Failure.message "oversized state") (ask (.fileSize name))
  failIf (size > 4 * 2 ^ 20) (.message "oversized state")
  ask (.readFile name)

def read (name : String) : Action Data Data := do
  checkFile name
  ask (.openFile name)
  let body ← outcome (readBody name)
  let closed ← outcome (ask (.closeFile name))
  settle (joinErrors body closed)

def parsed (encoding : Encoding Data) (data : Data) : Except Failure Receipt :=
  match encoding.parseReceipt data with
  | none => .error (.message "invalid receipt")
  | some r => if r.transportPolicy > 1 then .error (.message "unknown proxy transport policy") else .ok r

def load (encoding : Encoding Data) : Action Data Receipt := do
  let body ← outcome (read receiptName)
  match body with
  | .error reason => if reason.isNotExist then pure .zero else fail reason
  | .ok data => settle (parsed encoding data)

def checkReplaceable (name : String) : Action Data Unit := do
  let st ← outcome (ask (.lstat name))
  match st with
  | .ok _ => checkFile name
  | .error reason => failIf (!reason.isNotExist) reason

def publish (name : String) (data : Data) : Action Data Unit := do
  let written ← outcome (do
    ask (.write candidateName data)
    ask (.sync candidateName))
  let closed ← outcome (ask (.closeFile candidateName))
  settle written
  settle closed
  ask (.rename candidateName name)
  ask (.openDir (directoryOf name))
  let synced ← outcome (ask (.syncDir (directoryOf name)))
  let closedDir ← outcome (ask (.closeDir (directoryOf name)))
  settle (joinErrors synced closedDir)

def ignoreMissing (removed : Except Failure Unit) : Except Failure Unit :=
  match removed with
  | .ok _ => .ok ()
  | .error reason => if reason.isNotExist then .ok () else .error reason

def atomic (name : String) (data : Data) : Action Data Unit := do
  checkReplaceable name
  ask (.create candidateName)
  let published ← outcome (publish name data)
  let removed ← outcome (ask (.remove candidateName))
  settle (joinErrors published (ignoreMissing removed))

def save (encoding : Encoding Data) (r : Receipt) : Action Data Unit := do
  failIf (r.transportPolicy > 1) (.message "unknown proxy transport policy")
  atomic receiptName (encoding.receipt r)

end NeroCD.Proxy
