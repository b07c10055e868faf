import NeroCD.Proxy.Storage

-- The engine that installs and switches proxy generations (`hostingproxy/engine.go`, `docker.go`,
-- `observe.go`, `storage_switch.go`).

namespace NeroCD.Proxy

open NeroCD.Programs
open NeroCD.Programs.Fallible

variable {Data : Type}

structure Engine (Data : Type) where
  settings : Settings
  encoding : Encoding Data
  polls : Nat
  platform : Except Failure Unit
  ownedContainer : Plan → String → Except Failure String
  generationLoaded : Plan → String → Except Failure Unit
  routeLoaded : Plan → Route → String → Except Failure Unit

inductive Outcome where
  | applied
  | rolledBack
  | uncertain
  | refused
  deriving DecidableEq

structure RouteObservation where
  routeID : String
  httpReady : Bool
  httpsReady : Bool
  certificate : Option Certificate
  deriving DecidableEq

structure Result where
  outcome : Outcome
  desiredGeneration : Nat
  loadedGeneration : Nat
  hash : String
  containerID : String
  routes : List RouteObservation
  deriving DecidableEq

abbrev Attempt (Data α : Type) := Fallible (calls Data) (Result × Failure) α

def orReturn {α : Type} (result : Result) (x : Action Data α) : Attempt Data α :=
  mapError (fun reason => (result, reason)) x

def orReport {α : Type} (result : Result) (text : String) (x : Action Data α) : Attempt Data α :=
  mapError (fun _ => (result, .message text)) x

def returnIf (bad : Bool) (result : Result) (text : String) : Attempt Data Unit :=
  failIf bad (result, .message text)

def Plan.refused (p : Plan) (loadedGeneration : Nat) : Result :=
  ⟨.refused, p.generation, loadedGeneration, p.hash, "", []⟩

def Result.uncertain (r : Result) : Result := { r with outcome := .uncertain }

namespace Engine

variable (e : Engine Data)

def validate (p : Plan) : Except Failure Unit :=
  if p.transportPolicy > 1 || p.hash == "" || p.settings != e.settings then
    .error (.message "plan does not belong to engine settings")
  else e.platform

section Docker

def daemon (p : Plan) : Action Data Unit := do
  let v : DaemonInfo ← ask .daemon
  failIf (v.id != p.identity.daemonID || v.osType != "linux" ||
    !(["aarch64", "x86_64", "arm64", "amd64"].contains v.architecture))
    (.message "docker daemon identity or platform mismatch")

def command (p : Plan) (c : DockerCommand) : Action Data String := do
  daemon p
  ask (.docker c)

def containerName (p : Plan) : String := "nerocd-proxy-" ++ p.identity.proxyID

def find (p : Plan) : Action Data (Option String) := do
  let listed ← command p (.list (containerName p))
  if GoStrings.trimSpace listed = "" then pure none
  else do
    let inspected ← command p (.inspect (containerName p))
    let id ← settle (e.ownedContainer p inspected)
    pure (some id)

def launch (p : Plan) : Action Data Unit := do
  let _ ← command p (.run (containerName p))
  pure ()

def checkPorts (port : Nat) : Action Data Unit := forEach (fun p => ask (.listen p)) [80, 443, port]

end Docker

section Observation

def ready (p : Plan) (r : Route) (answer : Response) : Bool :=
  answer.generation == p.hash && answer.route == r.id && !(p.required r.id && answer.status ≥ 500)

def probe {ε : Type} (p : Plan) (r : Route) (secure : Bool) : Fallible (calls Data) ε RouteObservation := do
  let answer : Except Failure Response ← outcome (ask (.response r secure))
  match answer with
  | .error _ => pure ⟨r.id, false, false, none⟩
  | .ok answer =>
    if !ready p r answer then pure ⟨r.id, false, false, none⟩
    else if !secure then pure ⟨r.id, true, false, none⟩
    else pure ⟨r.id, false, answer.certificate.isSome, answer.certificate⟩

def interruptedStorageRouteMarker (p : Plan) (r : Route) : Action Data Unit := do
  let answer : Response ← mapError (fun _ => Failure.message "interrupted predecessor route marker unavailable")
    (ask (.response r false))
  failIf (answer.generation != p.hash || answer.route != r.id)
    (.message "interrupted predecessor route marker mismatch")
  ask .contextErr

-- The routes of an explicitly stopped backend are only asked for their markers.
def checkRouteLoaded (p : Plan) (interrupted : Option Plan) (data : String) (r : Route) : Action Data Unit := do
  settle (e.routeLoaded p r data)
  if interrupted.any (·.required r.id) then interruptedStorageRouteMarker p r
  else do
    let seen ← probe p r false
    failIf (!seen.httpReady) (.message "host/path generation probe failed")

def generationProbe (p : Plan) : Action Data Unit := do
  let marker : String ← ask .generationMarker
  failIf (marker != p.hash) (.message "loaded generation marker mismatch")

variable [DecidableEq Data]

def checkTransportFile (p : Plan) : Action Data Unit := do
  ask .openRoot
  let body ← mapError (fun _ => Failure.message "proxy transport configuration file differs") (read routesName)
  failIf (body ≠ e.encoding.document p.dynamic) (.message "proxy transport configuration file differs")

def loadedConfiguration (p : Plan) (interrupted : Option Plan) : Action Data Unit := do
  daemon p
  failIf (p.transportPolicy > 1) (.message "unknown proxy transport policy")
  onlyIf (p.transportPolicy = 1) (e.checkTransportFile p)
  let data : String ← ask .rawData
  settle (e.generationLoaded p data)
  generationProbe p
  forEach (e.checkRouteLoaded p interrupted data) p.routes

def loaded (p : Plan) : Action Data Unit := e.loadedConfiguration p none

def observeRoute {ε : Type} (p : Plan) (r : Route) : Fallible (calls Data) ε RouteObservation := do
  let http ← probe p r false
  let tls ← probe p r true
  pure { tls with httpReady := http.httpReady }

def observation {ε : Type} (p : Plan) (id : String) : Fallible (calls Data) ε Result := do
  let routes ← mapEach (observeRoute p) p.routes
  pure ⟨.applied, p.generation, p.generation, p.hash, id, routes⟩

def verifiedObservation (p : Plan) (id : String) : Attempt Data Result := do
  let result ← observation p id
  if p.verification.isNone then pure result
  else do
    returnIf (result.routes.any fun route => p.required route.routeID && !(route.httpReady && route.httpsReady))
      result.uncertain "selected route HTTP or trusted HTTPS verification failed; retain controller hold"
    orReturn result.uncertain (ask .contextErr)
    pure result

def waitLoaded (p : Plan) : Nat → Action Data Unit
  | 0 => fail (.message "context deadline exceeded")
  | polls + 1 => do
    let seen ← outcome (e.loaded p)
    match seen with
    | .ok _ => pure ()
    | .error _ => do
      ask .wait
      waitLoaded p polls

def tryVerified (p : Plan) (id : String) : Action Data Result := do
  e.loaded p
  mapError (fun failed => failed.2) (verifiedObservation p id)

def waitObserved (p : Plan) (id : String) : Nat → Action Data Result
  | 0 => fail (.message "context deadline exceeded")
  | polls + 1 => do
    let seen ← outcome (e.tryVerified p id)
    match seen with
    | .ok result => pure result
    | .error _ => do
      ask .wait
      waitObserved p id polls

-- A plan without verification has no result of its own: `none`.
def waitVerified (p : Plan) (id : String) : Action Data (Option Result) :=
  if p.verification.isNone then do
    e.waitLoaded p e.polls
    pure none
  else do
    let result ← e.waitObserved p id e.polls
    pure (some result)

end Observation

section Apply

variable [DecidableEq Data]

-- `previous` in the source: the plan of the receipt, in the place of the new one.
def predecessor (p : Plan) (old : Receipt) : Plan :=
  { p with
    generation := old.generation
    hash := old.hash
    transportPolicy := old.transportPolicy
    verification := old.verification
    routes := old.routes }

def replayed (p : Plan) (old : Receipt) (c : Option String) (result : Result) : Attempt Data Result := do
  returnIf (old.transportPolicy != p.transportPolicy || old.verification != p.verification) result.uncertain
    "generation verification policy mismatch"
  match c with
  | none => fail (result, .message "recorded proxy container missing; explicit recovery required")
  | some id => do
    orReturn result.uncertain (e.loaded p)
    returnIf (old.phase != .committed) result.uncertain "unfinished generation requires explicit recovery"
    verifiedObservation p id

def checkBaseline (p : Plan) (old : Receipt) (c : Option String) (result : Result) : Attempt Data Unit := do
  orReport result "verified switch predecessor is not loaded" (e.loaded (predecessor p old))
  let _ ← mapError (fun _ => (result, .message "verified switch predecessor HTTP or trusted HTTPS is not ready"))
    (verifiedObservation (predecessor p old) (c.getD ""))
  let body ← orReport result "verified switch predecessor file differs from loaded receipt" (read routesName)
  returnIf (body ≠ e.encoding.document (predecessor p old).dynamic) result
    "verified switch predecessor file differs from loaded receipt"

def checkInstallation (install : Bool) (old : Receipt) (c : Option String) (result : Result) :
    Attempt Data Unit :=
  match c with
  | none => do
    returnIf (!install || old.generation != 0) result "proxy is not installed"
    orReturn result (checkPorts e.settings.managementPort)
  | some _ => returnIf (old.generation == 0) result "owned container lacks generation receipt"

def createAcme : Action Data Unit := do
  ask (.create acmeName)
  let synced ← outcome (ask (.sync acmeName))
  let closed ← outcome (ask (.closeFile acmeName))
  settle synced
  settle closed

def prepareHost (p : Plan) : Action Data Unit := do
  let st ← outcome (ask (.lstat acmeName))
  onlyIf (match st with | .ok _ => false | .error reason => reason.isNotExist) createAcme
  checkFile acmeName
  let _ ← command p (.pull image)
  pure ()

def keepPrevious : Action Data Unit := do
  let body ← read routesName
  atomic previousName body

def launched (p : Plan) (result : Result) : Attempt Data String := do
  orReturn result (launch p)
  let c ← orReport result "proxy launch response uncertain" (e.find p)
  match c with
  | none => fail (result, .message "proxy launch response uncertain")
  | some id => pure id

def runningContainer (p : Plan) (c : Option String) (result : Result) : Attempt Data String :=
  match c with
  | none => e.launched p result
  | some id => pure id

def persistRollbackReceipt (strict : Bool) (old : Receipt) : Action Data Unit := do
  save e.encoding old
  onlyIf strict (ask .contextErr)

def restore (p : Plan) (old : Receipt) (id : String) (reason : Failure) (result : Result) : Attempt Data Result := do
  orReturn result (ask .contextErr)
  failIf (old.generation == 0) (result, reason)
  let body ← orReturn result (read previousName)
  orReturn result (ask .contextErr)
  orReturn result (atomic routesName body)
  let restored ← orReport result "rollback not verified; retain controller hold"
    (e.waitVerified (predecessor p old) id)
  orReturn result (ask .contextErr)
  orReturn result (e.persistRollbackReceipt p.verification.isSome old)
  let routes := if p.verification.isSome then (restored.map (·.routes)).getD [] else result.routes
  fail ({ result with outcome := .rolledBack, loadedGeneration := old.generation, routes := routes },
    .message "candidate rejected; previous generation restored")

def commit (p : Plan) (id : String) (verified : Option Result) (result : Result) : Attempt Data Result := do
  orReturn result (ask .contextErr)
  orReturn result (save e.encoding (p.receipt .committed))
  orReturn result (ask .contextErr)
  match p.verification, verified with
  | some _, some observed => pure observed
  | _, _ => observation p id

def switchGeneration (p : Plan) (old : Receipt) (c : Option String) (result : Result) : Attempt Data Result := do
  onlyIf c.isNone (orReturn result (prepareHost p))
  onlyIf (old.generation != 0) (orReturn result keepPrevious)
  orReturn result (ask .contextErr)
  orReturn result (atomic routesName (e.encoding.document p.dynamic))
  let id ← e.runningContainer p c result
  let verified ← outcome (e.waitVerified p id)
  match verified with
  | .error reason => e.restore p old id reason { result with containerID := id }
  | .ok verified => e.commit p id verified { result with containerID := id }

def admitted (p : Plan) (install : Bool) (old : Receipt) (c : Option String) (result : Result) :
    Attempt Data Result := do
  returnIf (old.generation != p.previous) result "stale previous generation"
  orReturn result (settle ((p.switchPredecessor old install).mapError .message))
  e.checkInstallation install old c result
  orReturn result (daemon p)
  onlyIf p.verification.isSome (e.checkBaseline p old c result)
  orReturn result (ask .contextErr)
  orReturn result.uncertain (save e.encoding (p.receipt .intent))
  e.switchGeneration p old c result.uncertain

def apply (p : Plan) (install : Bool) : Attempt Data Result := do
  let result := p.refused 0
  orReturn result (settle (e.validate p))
  returnIf (install && p.verification.isSome) result "verified switch cannot install a proxy"
  orReturn result (openStorage e.polls)
  let old ← orReturn result (load e.encoding)
  returnIf (old.generation != 0 && (old.identity != p.identity || old.staticHash != p.staticHash)) result
    "persistent identity or static settings mismatch"
  returnIf (old.phase != .none && old.phase != .committed) result.uncertain
    "unfinished prior operation; retain controller hold"
  onlyIf (old.generation != 0) (orReturn result.uncertain (checkFile acmeName))
  let c ← orReturn result (e.find p)
  let found := { result with containerID := c.getD "" }
  if old.hash = p.hash ∧ old.generation = p.generation then e.replayed p old c found
  else e.admitted p install old c found

def install (p : Plan) : Attempt Data Result := e.apply p true

def applyPlan (p : Plan) : Attempt Data Result := e.apply p false

end Apply

section StorageSwitch

variable [DecidableEq Data]

def recordsPlan (value : Receipt) (plan : Plan) : Bool :=
  value.identity == plan.identity && value.staticHash == plan.staticHash && value.generation == plan.generation &&
    value.hash == plan.hash && value.transportPolicy == plan.transportPolicy && value.routes == plan.routes &&
    value.verification == plan.verification

-- `matches` in the source.
def matchesPlan (value : Receipt) (plan : Plan) (committed : Bool) : Bool :=
  recordsPlan value plan &&
    ((!committed && (value.phase == .intent || value.phase == .committed)) || value.phase == .committed)

def accepts (p : Plan) : Bool := (e.validate p).isOk

def validFailed (p prior failed : Plan) : Bool :=
  e.accepts failed && failed.identity == p.identity && failed.staticHash == p.staticHash &&
    failed.previous == prior.generation && failed.generation < p.generation && failed.routes == p.routes &&
    failed.verification == p.verification

def checkSwitch (p prior : Plan) (failed : Option Plan) : Except String Unit := do
  Checks.refuse (!e.accepts p || !e.accepts prior || p.verification.isNone || p.previous != prior.generation ||
    p.identity != prior.identity || p.staticHash != prior.staticHash) "invalid interrupted storage switch"
  Checks.refuse (Checks.fails (p.switchPredecessor (prior.receipt .committed) false))
    "interrupted switch route scope changed"
  Checks.refuse (failed.any fun f => !e.validFailed p prior f) "invalid failed storage switch"

def loadedInterruptedStoragePredecessor (loaded next : Plan) : Action Data Unit := do
  failIf (next.verification.isNone || loaded.identity != next.identity || loaded.staticHash != next.staticHash ||
    loaded.routes.length != next.routes.length)
    (.message "interrupted predecessor configuration scope changed")
  failIf (!sameScope next loaded.routes) (.message "interrupted predecessor route scope changed")
  e.loadedConfiguration loaded (some next)

def switchReplayed (p : Plan) (result : Result) : Attempt Data Result := do
  orReturn result (daemon p)
  let c ← orReport result "recorded proxy missing" (e.find p)
  match c with
  | none => fail (result, .message "recorded proxy missing")
  | some id => do
    orReturn result (e.loaded p)
    verifiedObservation p id

def admittedFile (prior : Plan) (failed : Option Plan) (file : Data) : Option Plan :=
  if file = e.encoding.document prior.dynamic then some prior
  else failed.filter fun f => file = e.encoding.document f.dynamic

def switchInterrupted (p : Plan) (id : String) (result : Result) : Attempt Data Result := do
  orReturn result (save e.encoding (p.receipt .intent))
  orReturn result (ask .contextErr)
  orReturn result (atomic routesName (e.encoding.document p.dynamic))
  let verified ← orReturn result (e.waitVerified p id)
  orReturn result (ask .contextErr)
  orReturn result (save e.encoding (p.receipt .committed))
  -- The plan has a verification policy, so there is a result.
  pure (verified.getD result)

def switchFrom (p : Plan) (loaded : Plan) (result : Result) : Attempt Data Result := do
  orReturn result.uncertain (daemon p)
  let c ← orReport result.uncertain "storage switch proxy is not installed" (e.find p)
  match c with
  | none => fail (result.uncertain, .message "storage switch proxy is not installed")
  | some id => do
    let found := { result with containerID := id }
    orReport found "storage switch loaded state is outside admitted history"
      (e.loadedInterruptedStoragePredecessor loaded p)
    orReport found "storage switch current writer authority unavailable" (ask .before)
    orReport found "storage switch current writer authority unavailable" (ask .contextErr)
    e.switchInterrupted p id found.uncertain

def switchAdmitted (p prior : Plan) (failed : Option Plan) (result : Result) : Attempt Data Result := do
  orReturn result.uncertain (openStorage e.polls)
  let old ← orReturn result.uncertain (load e.encoding)
  if matchesPlan old p true then e.switchReplayed p result.uncertain
  else do
    returnIf (!matchesPlan old prior true && !failed.any (matchesPlan old · false)) result.uncertain
      "storage switch local receipt is outside admitted history"
    orReturn result.uncertain (checkFile acmeName)
    let file ← orReturn result.uncertain (read routesName)
    match e.admittedFile prior failed file with
    | none => fail (result.uncertain, .message "storage switch local file is outside admitted history")
    | some loaded => e.switchFrom p loaded result

def applyInterruptedStorageSwitch (p prior : Plan) (failed : Option Plan) : Attempt Data Result := do
  let result := p.refused prior.generation
  orReturn result (settle ((e.checkSwitch p prior failed).mapError .message))
  e.switchAdmitted p prior failed result

end StorageSwitch

end Engine

end NeroCD.Proxy
