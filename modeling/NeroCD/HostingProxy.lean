import NeroCD.Proxy.Plan
import NeroCD.Sorting

-- Desired route snapshots of the managed proxy, their compiler and the check of reports (`domain/hosting_proxy.go`,
-- `hosting_route_switch.go`, `hosting_proxy_storage_switch.go`).

namespace NeroCD.HostingProxy

open NeroCD.Checks NeroCD.GoStrings NeroCD.Sorting

def compilerVersion : String := "managed-traefik.file.v1"

def maxRoutes : Nat := 32

structure Configuration where
  email : String
  ca : String
  managementPort : Nat
  generatedDomain : String
  deriving DecidableEq

structure RouteTarget where
  routeID : String
  projectID : String
  resourceID : String
  bindingID : String
  releaseOperationID : String
  hostname : String
  pathPrefix : String
  hostPort : Nat
  deriving DecidableEq

structure VerifiedSwitchRoute where
  routeID : String
  priorVersion : Int
  priorTarget : RouteTarget
  deriving DecidableEq

structure VerifiedSwitch where
  version : Int
  expectedLoadedGeneration : Int
  priorAppliedProxyOperationID : String
  routes : List VerifiedSwitchRoute
  deriving DecidableEq

structure StorageRef where
  storageID : String
  generation : Int
  hash : String
  deriving DecidableEq

-- A slice that may be nil: the JSON text tells nil from empty, the loops do not.
abbrev Slice (α : Type) := Option (List α)

def Slice.entries {α : Type} (slice : Slice α) : List α := slice.getD []

structure StorageSwitch where
  version : String
  action : String
  operationID : String
  continuationHash : String
  storageRef : StorageRef
  storageOriginHash : String
  writerStateHash : String
  candidateHash : String
  routeScopeHash : String
  priorGeneration : Int
  priorPreviousGeneration : Int
  priorEngineHash : String
  priorRequiredRouteIDs : Slice String
  failedProxyOperationID : String
  failedGeneration : Int
  failedPlanHash : String
  failedEngineHash : String
  hash : String
  deriving DecidableEq

structure Snapshot where
  storageSwitch : Option StorageSwitch
  proxyID : String
  serverID : String
  destinationID : String
  runnerID : String
  generation : Int
  configuration : Configuration
  routes : Slice RouteTarget
  verifiedSwitch : Option VerifiedSwitch
  deriving DecidableEq

def Snapshot.targets (snapshot : Snapshot) : List RouteTarget := snapshot.routes.entries

structure Plan where
  snapshot : Snapshot
  previousGeneration : Int
  compilerVersion : String
  daemonID : String
  hash : String
  deriving DecidableEq

-- The IDNA lookup, the reading of an address, `HostingDocumentHash` and the length of a plan's JSON text.
structure Library where
  lookup : String → Option String
  email : Proxy.EmailCheck
  planHash : Plan → String
  routesHash : Slice RouteTarget → String
  storageSwitchHash : StorageSwitch → String
  encodedLength : Plan → Nat

section Patterns

open Proxy (alphanumeric cleanPath lowerHex)

-- `^[A-Za-z0-9][A-Za-z0-9_-]{0,127}$`.
def hostingProxyID (text : String) : Bool :=
  match text.toList with
  | [] => false
  | c :: rest => alphanumeric c && rest.length ≤ 127 && rest.all fun c => alphanumeric c || c == '_' || c == '-'

def proxyHostname (text : String) : Bool := Proxy.hostPattern text

def proxyLiteralPath (text : String) : Bool := Proxy.pathPattern text

-- `unicode.IsControl`.
def isControl (c : Char) : Bool := c.toNat < 0x20 || (0x7F ≤ c.toNat && c.toNat < 0xA0)

-- `^sha256:[a-f0-9]{64}$`.
def imageSHA256 (text : String) : Bool :=
  hasPrefix text "sha256:" && (text.toList.drop 7).length == 64 &&
    (text.toList.drop 7).all fun c => c.isDigit || ('a' ≤ c && c ≤ 'f')

-- Thirty-two bytes in lower-case hexadecimal.
def proxyStorageEngineHash (hash : String) : Bool := hash.toList.length == 64 && lowerHex hash

def validStorageRef (ref : StorageRef) : Bool :=
  hasPrefix ref.storageID "hsv_" && (ref.storageID.toList.drop 4).length == 32 &&
    ((ref.storageID.toList.drop 4).all fun c => c.isDigit || ('a' ≤ c && c ≤ 'f')) &&
    ref.generation == 1 && imageSHA256 ref.hash

def validateRoutePath (value : String) : Except String Unit := do
  refuse (value.utf8ByteSize > 256 || !proxyLiteralPath value || !cleanPath value ||
    "//".toList <:+: value.toList || (value != "/" && value.toList.getLast? == some '/'))
    "path must be a canonical literal origin path"
  forEach (fun start => refuse (hasPrefix value start) "reserved route path")
    ["/.well-known", "/dashboard", "/_nerocd"]

end Patterns

variable (lib : Library) (choices : Choices)

def normalizeHostname (value : String) : Except String String := do
  refuse (value != trimSpace value || value.toList.getLast? == some '.')
    "hostname must not contain whitespace or a trailing dot"
  match lib.lookup value with
  | none => .error "invalid route hostname"
  | some host =>
    refuse (host.utf8ByteSize > 253 || !proxyHostname host) "invalid route hostname"
    pure host

def canonicalHostname (value : String) : Bool :=
  match normalizeHostname lib value with
  | .ok host => host == value
  | .error _ => false

def validateConfiguration (c : Configuration) : Except String Unit := do
  refuse (!lib.email c.email || c.managementPort < 1024 || (c.ca != "letsencrypt" && c.ca != "letsencrypt-staging"))
    "invalid proxy ACME or management configuration"
  refuse (c.generatedDomain != "" && !canonicalHostname lib c.generatedDomain) "generated domain must be canonical"

def checkTarget (managementPort : Nat) (ids bindings : List String) (r : RouteTarget) : Except String Unit := do
  forEach (fun id => refuse (!hostingProxyID id) "invalid proxy route identity")
    [r.routeID, r.projectID, r.resourceID, r.bindingID, r.releaseOperationID]
  refuse (!canonicalHostname lib r.hostname || fails (validateRoutePath r.pathPrefix) || ids.contains r.routeID ||
    r.hostPort < 1024 || r.hostPort == managementPort || bindings.contains (r.hostname ++ " " ++ r.pathPrefix))
    "invalid proxy route target"

def checkTargets (managementPort : Nat) : List String → List String → List RouteTarget → Except String Unit
  | _, _, [] => .ok ()
  | ids, bindings, r :: rest => do
    checkTarget lib managementPort ids bindings r
    checkTargets managementPort (r.routeID :: ids) ((r.hostname ++ " " ++ r.pathPrefix) :: bindings) rest

-- The entry of a map that was filled from the list: the last one with the ID.
def lookupTarget (targets : List RouteTarget) (id : String) : Option RouteTarget :=
  targets.reverse.find? fun r => r.routeID == id

def RouteTarget.sameScope (first candidate : RouteTarget) : Bool :=
  candidate.resourceID == first.resourceID && candidate.projectID == first.projectID &&
    candidate.bindingID == first.bindingID && candidate.releaseOperationID == first.releaseOperationID

def RouteTarget.moved (r prior : RouteTarget) : RouteTarget :=
  { r with releaseOperationID := prior.releaseOperationID, hostPort := prior.hostPort }

def checkSelection (managementPort : Nat) (targets : List RouteTarget) :
    Option String → Option RouteTarget → List VerifiedSwitchRoute → Except String Unit
  | _, _, [] => .ok ()
  | before, first, r :: rest =>
    match lookupTarget targets r.routeID with
    | none => .error "invalid verified switch selected route"
    | some candidate => do
      let prior := r.priorTarget
      refuse (prior.routeID != r.routeID || r.priorVersion < 1 || before == some r.routeID ||
        !hostingProxyID prior.releaseOperationID || prior.hostPort < 1024 || prior.hostPort == managementPort)
        "invalid verified switch selected route"
      refuse (!(first.getD candidate).sameScope candidate)
        "verified switch must select one resource, binding, project and target release"
      refuse (candidate.moved prior != prior) "verified switch changes immutable route identity or scope"
      checkSelection managementPort targets (some r.routeID) (some (first.getD candidate)) rest

def canonicalVerifiedSwitch (snapshot : Snapshot) (previous : Int) : Except String (Option VerifiedSwitch) :=
  match snapshot.verifiedSwitch with
  | none => .ok none
  | some v => do
    refuse (v.version != 1 || previous < 1 || v.expectedLoadedGeneration != previous ||
      !hostingProxyID v.priorAppliedProxyOperationID || v.routes.length == 0 ||
      v.routes.length > snapshot.targets.length) "invalid verified switch predecessor"
    let routes := choices.sort (fun a b => a.routeID < b.routeID) v.routes
    checkSelection snapshot.configuration.managementPort snapshot.targets none none routes
    pure (some { v with routes := routes })

def checkRequired (routeIDs : List String) : Option String → List String → Except String Unit
  | _, [] => .ok ()
  | before, id :: rest => do
    refuse (!hostingProxyID id || !routeIDs.contains id || before == some id) "invalid hosting storage"
    checkRequired routeIDs (some id) rest

def StorageSwitch.validate (p : StorageSwitch) (snapshot : Snapshot) (previous : Int) : Except String Unit := do
  refuse (p.version != "application-database.storage-proxy.v1" || p.hash != lib.storageSwitchHash { p with hash := "" } ||
    !hostingProxyID p.operationID || !imageSHA256 p.continuationHash || !validStorageRef p.storageRef ||
    !imageSHA256 p.storageOriginHash || !imageSHA256 p.writerStateHash || !imageSHA256 p.candidateHash ||
    p.routeScopeHash != lib.routesHash snapshot.routes || p.priorGeneration != previous || p.priorGeneration < 1 ||
    p.priorPreviousGeneration < 0 || p.priorPreviousGeneration ≥ p.priorGeneration ||
    !proxyStorageEngineHash p.priorEngineHash || snapshot.verifiedSwitch.isNone) "invalid hosting storage"
  refuse (p.priorRequiredRouteIDs.entries.length > snapshot.targets.length ||
    !decide (p.priorRequiredRouteIDs.entries.Pairwise (· ≤ ·))) "invalid hosting storage"
  checkRequired (snapshot.targets.map (·.routeID)) none p.priorRequiredRouteIDs.entries
  if p.action = "switch" then
    refuse (p.failedProxyOperationID != "" || p.failedGeneration != 0 || p.failedPlanHash != "" ||
      p.failedEngineHash != "") "invalid hosting storage"
  else if p.action = "complete_replacement" then
    refuse (!hostingProxyID p.failedProxyOperationID || p.failedGeneration ≤ previous ||
      snapshot.generation ≤ p.failedGeneration || !imageSHA256 p.failedPlanHash ||
      !proxyStorageEngineHash p.failedEngineHash) "invalid hosting storage"
  else .error "invalid interrupted storage proxy action"

def checkHeader (snapshot : Snapshot) (previous : Int) (daemon : String) : Except String Unit := do
  refuse (snapshot.generation ≤ previous || previous < 0 || snapshot.targets.length > maxRoutes ||
    fails (validateConfiguration lib snapshot.configuration)) "invalid proxy generation"
  forEach (fun id => refuse (!hostingProxyID id) "invalid proxy placement identity")
    [snapshot.proxyID, snapshot.serverID, snapshot.destinationID, snapshot.runnerID]
  refuse (daemon.utf8ByteSize > 128 || daemon.toList.any fun c => isControl c || isSpace c)
    "invalid proxy daemon identity"

-- The document is hashed while its own hash field is empty.
def sealed (snapshot : Snapshot) (previous : Int) (daemon : String) : Plan :=
  let plan : Plan := ⟨snapshot, previous, compilerVersion, daemon, ""⟩
  { plan with hash := lib.planHash plan }

def compile (snapshot : Snapshot) (previous : Int) (daemon : String) : Except String Plan := do
  checkHeader lib snapshot previous daemon
  let snapshot :=
    { snapshot with routes := some (choices.sort (fun a b => a.routeID < b.routeID) snapshot.targets) }
  checkTargets lib snapshot.configuration.managementPort [] [] snapshot.targets
  let verification ← canonicalVerifiedSwitch choices snapshot previous
  let snapshot := { snapshot with verifiedSwitch := verification }
  refuse (snapshot.storageSwitch.any fun s => fails (s.validate lib snapshot previous)) "invalid hosting storage"
  let plan := sealed lib snapshot previous daemon
  refuse (lib.encodedLength plan > 48 * 1024) "proxy plan exceeds journal document limit"
  pure plan

def validate (plan : Plan) : Except String Unit := do
  let expected ← compile lib choices plan.snapshot plan.previousGeneration plan.daemonID
  refuse (plan.compilerVersion != expected.compilerVersion || plan.hash != expected.hash ||
    lib.planHash plan != lib.planHash expected) "proxy plan is not canonical or its hash does not match"

def VerifiedSwitch.routeIDs (v : VerifiedSwitch) : List String := v.routes.map (·.routeID)

-- The prior target of a selected route, from a map filled in order.
def priorTarget (v : VerifiedSwitch) (id : String) : Option RouteTarget :=
  (v.routes.reverse.find? fun r => r.routeID == id).map (·.priorTarget)

def priorRoutes (snapshot : Snapshot) : List RouteTarget :=
  match snapshot.verifiedSwitch with
  | none => snapshot.targets
  | some v => snapshot.targets.map fun r => (priorTarget v r.routeID).getD r

section Results

-- Times count from the zero time of Go, so that `IsZero` is equality with `0`.
structure Certificate where
  hostname : String
  issuer : String
  fingerprint : String
  expiresAt : Int
  status : String
  deriving DecidableEq

structure RouteObservation where
  routeID : String
  httpReady : Bool
  httpsReady : Bool
  certificate : Certificate
  deriving DecidableEq

inductive Outcome where
  | applied
  | rolledBack
  | refused
  | uncertain
  | other (text : String)
  deriving DecidableEq

structure Result where
  outcome : Outcome
  loadedGeneration : Int
  planHash : String
  engineHash : String
  daemonID : String
  containerID : String
  routes : List RouteObservation
  deriving DecidableEq

def RouteObservation.trusted (r : RouteObservation) (acceptedAt : Int) : Bool :=
  r.httpReady && r.httpsReady && r.certificate.status == "trusted" &&
    r.certificate.fingerprint.utf8ByteSize == 64 && Proxy.lowerHex r.certificate.fingerprint &&
    r.certificate.expiresAt != 0 && (acceptedAt == 0 || acceptedAt < r.certificate.expiresAt)

def checkObservations (targets : List RouteTarget) (selected : List String) (acceptedAt : Int) :
    List String → List RouteObservation → Except String Unit
  | _, [] => .ok ()
  | seen, r :: rest =>
    match lookupTarget targets r.routeID with
    | none => .error "verified switch result route scope differs"
    | some target => do
      refuse (seen.contains r.routeID || r.certificate.hostname != target.hostname)
        "verified switch result route scope differs"
      refuse (selected.contains r.routeID && !r.trusted acceptedAt)
        "verified switch selected route lacks trusted HTTPS evidence"
      checkObservations targets selected acceptedAt (r.routeID :: seen) rest

def checkCompleteRoutes (plan : Plan) (v : VerifiedSwitch) (result : Result) (acceptedAt : Int) :
    Except String Unit := do
  refuse (result.routes.length != plan.snapshot.targets.length)
    "verified switch result requires the complete route set"
  checkObservations plan.snapshot.targets v.routeIDs acceptedAt [] result.routes

def validateVerifiedSwitchResult (plan : Plan) (result : Result) (acceptedAt : Int) : Except String Unit :=
  match plan.snapshot.verifiedSwitch with
  | none => .ok ()
  | some v => do
    refuse (result.planHash != plan.hash) "verified switch result plan changed"
    match result.outcome with
    | .uncertain => .ok ()
    | .refused =>
      refuse (result.loadedGeneration != plan.previousGeneration || result.routes.length != 0)
        "verified switch refusal claims route effects"
    | .applied =>
      refuse (result.loadedGeneration != plan.snapshot.generation) "verified switch candidate generation differs"
      checkCompleteRoutes plan v result acceptedAt
    | .rolledBack =>
      refuse (result.loadedGeneration != plan.previousGeneration) "verified switch rollback generation differs"
      checkCompleteRoutes plan v result acceptedAt
    | .other _ => .error "invalid verified switch outcome"

end Results

def RouteTarget.engineRoute (r : RouteTarget) : Proxy.Route := ⟨r.routeID, r.hostname, r.pathPrefix, r.hostPort⟩

def Plan.engineIdentity (plan : Plan) : Proxy.Identity :=
  ⟨plan.snapshot.proxyID, plan.snapshot.serverID, plan.snapshot.destinationID, plan.snapshot.runnerID, plan.daemonID⟩

end NeroCD.HostingProxy
