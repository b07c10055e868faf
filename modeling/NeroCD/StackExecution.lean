import NeroCD.HostingProxy
import NeroCD.HostingStack

-- Managed stacks at run time: the plan the compiler freezes and the observed state that is checked against it
-- (`domain/hosting_stack_execution.go`).

namespace NeroCD.StackExecution

open NeroCD.Checks
open NeroCD.HostingStack (Condition Definition Service stackName stackVersion)
open NeroCD.HostingProxy (StorageRef hostingProxyID imageSHA256 isControl validStorageRef)
open NeroCD.GoStrings (isSpace trimSpace utf8)

section Data

-- References that are left zero where a snapshot has none of the kind.
structure StackRef where
  generation : Int := 0
  hash : String := ""
  deriving DecidableEq

structure StackReleaseRef where
  hash : String := ""
  deriving DecidableEq

structure GitComposeRef where
  buildID : String := ""
  sourceGeneration : Int := 0
  resultHash : String := ""
  deriving DecidableEq

structure RegistryCredentialRef where
  secretID : String := ""
  version : Int := 0
  deriving DecidableEq

structure DatabaseExecutionRef where
  engine : String := ""
  recipeVersion : String := ""
  configurationHash : String := ""
  deriving DecidableEq

structure RouteContinuityRef where
  hash : String := ""
  deriving DecidableEq

structure RuntimeConfigurationRef where
  generation : Int := 0
  hash : String := ""
  deriving DecidableEq

structure ApplicationDatabaseRef where
  bindingID : String := ""
  bindingHash : String := ""
  deriving DecidableEq

def noStorage : StorageRef := ⟨"", 0, ""⟩

structure BuildArtifact where
  origin : String := ""
  buildID : String := ""
  sourceID : String := ""
  inputID : String := ""
  sourceReceiptHash : String := ""
  contextDigest : String := ""
  requestDigest : String := ""
  daemonID : String := ""
  imageID : String := ""
  indexDigest : String := ""
  manifestDigest : String := ""
  configDigest : String := ""
  platform : String := ""
  contextPolicy : String := ""
  deriving DecidableEq

structure LocalBuildSource where
  sourceGeneration : Int := 0
  artifactHash : String := ""
  artifact : BuildArtifact := {}
  deriving DecidableEq

structure Readiness where
  path : String
  timeoutSeconds : Int
  deriving DecidableEq

structure Snapshot where
  gitCompose : GitComposeRef := {}
  registryCredential : RegistryCredentialRef := {}
  stackStoppedOperationID : String := ""
  stack : StackRef := {}
  database : DatabaseExecutionRef := {}
  storageRouteContinuity : RouteContinuityRef := {}
  storage : StorageRef := noStorage
  resourceID : String
  resourceGeneration : Int
  imageReference : String := ""
  bindingID : String
  destinationID : String
  serverID : String
  runnerID : String
  runtimeNamespace : String
  containerPort : Int
  hostPort : Int
  readiness : Readiness
  policyVersion : String
  localBuild : LocalBuildSource := {}
  runtimeConfiguration : RuntimeConfigurationRef := {}
  applicationDatabase : ApplicationDatabaseRef := {}
  deriving DecidableEq

structure Release where
  stack : StackReleaseRef := {}
  canonicalImage : String := ""
  imageID : String := ""
  os : String := ""
  architecture : String := ""
  variant : String := ""
  daemonID : String := ""
  hash : String := ""
  localBuild : BuildArtifact := {}
  deriving DecidableEq

structure StackImage where
  component : String
  release : Release
  deriving DecidableEq

structure Volume where
  name : String
  volumeName : String
  creationOperationID : String
  creationNonce : String
  createdAt : String
  deriving DecidableEq

structure StackPlan where
  definition : Definition
  images : List StackImage
  volumes : List Volume
  networkName : String
  deriving DecidableEq

inductive Health where
  | absent
  | starting
  | healthy
  | unhealthy
  | other (text : String)
  deriving DecidableEq

structure Component where
  component : String
  containerID : String
  imageID : String
  operationID : String
  running : Bool
  exitCode : Int
  health : Health
  deriving DecidableEq

structure State where
  observationComplete : Bool
  publicComponent : String
  networkID : String
  components : List Component
  volumes : List Volume
  deriving DecidableEq

-- The storage plan stands as its document.
structure HealthyStorage where
  plan : String
  creationPlanHash : String
  deriving DecidableEq

structure Healthy where
  stack : Option State
  storage : Option HealthyStorage
  snapshot : Snapshot
  operationID : String
  containerID : String
  release : Release
  planHash : String
  deriving DecidableEq

structure Stopped where
  stopOperationID : String
  target : Healthy
  deriving DecidableEq

-- The fields of an apply plan that the stack compiler sets.
structure ApplyPlan where
  previousStopped : Option Stopped := none
  stack : Option StackPlan
  snapshot : Snapshot
  release : Release
  previousHealthy : Option Healthy
  compilerVersion : String
  hash : String := ""
  deriving DecidableEq

-- A parsed image reference: its text, its repository and what follows the repository.
structure Named where
  text : String
  repository : String
  tagged : Bool
  digest : Option String

-- The reference grammar, and `HostingDocumentHash` at the types it is used at.
structure Evidence where
  parseNamed : String → Option Named
  imageRegistry : String → Except String String
  definitionHash : Definition → String
  imagesHash : List StackImage → String
  releaseHash : Release → String
  healthyHash : Healthy → String
  planHash : ApplyPlan → String

end Data

section Releases

variable (evidence : Evidence)

def validateStackRelease (release : Release) : Except String Unit := do
  refuse (!imageSHA256 release.stack.hash || release.canonicalImage != "" || release.imageID != "" ||
    release.os != "" || release.architecture != "" || release.variant != "" || release.localBuild != {} ||
    release.daemonID == "" || release.daemonID.utf8ByteSize > 128 || release.daemonID.toList.any isSpace)
    "invalid stack release"
  refuse (release.hash != evidence.releaseHash { release with hash := "" }) "stack release hash mismatch"

def validateLocalArtifact (a : BuildArtifact) : Except String Unit := do
  refuse (a.origin != "local_build" || a.buildID == "" || a.buildID.utf8ByteSize > 128 || a.sourceID == "" ||
    a.inputID == "" || a.daemonID.utf8ByteSize < 1 || a.daemonID.utf8ByteSize > 128 ||
    a.daemonID.toList.any (fun c => isSpace c || isControl c) ||
    (a.platform != "linux/amd64" && a.platform != "linux/arm64") ||
    (a.contextPolicy != "" && a.contextPolicy != "static-assets-v1")) "invalid local build artifact"
  forEach (fun digest => refuse (!imageSHA256 digest) "invalid local build digest")
    [a.sourceReceiptHash, a.contextDigest, a.requestDigest, a.imageID, a.indexDigest, a.manifestDigest, a.configDigest]
  refuse (a.imageID != a.indexDigest && a.imageID != a.manifestDigest && a.imageID != a.configDigest)
    "unrelated local image identity"

def newLocalBuildRelease (a : BuildArtifact) : Except String Release := do
  validateLocalArtifact a
  let platform := (a.platform.toList.splitOn '/').map String.ofList
  let release : Release :=
    { imageID := a.imageID, os := platform.getD 0 "", architecture := platform.getD 1 "", daemonID := a.daemonID,
      localBuild := a }
  pure { release with hash := evidence.releaseHash release }

def validateLocalBuildRelease (r : Release) : Except String Unit := do
  let expected ← newLocalBuildRelease evidence r.localBuild
  refuse (r != expected) "local release does not match admitted artifact"

def digestAlgorithm (digest : String) : String := String.ofList (digest.toList.takeWhile (· != ':'))

def validateRelease (release : Release) : Except String Unit :=
  if release.stack ≠ {} then validateStackRelease evidence release
  else if release.localBuild ≠ {} then validateLocalBuildRelease evidence release
  else
    match evidence.parseNamed release.canonicalImage with
    | none => .error "release requires canonical repository digest"
    | some named => do
      refuse (named.digest.map digestAlgorithm != some "sha256" || named.tagged ||
        named.text != release.canonicalImage || !imageSHA256 release.imageID || release.os != "linux" ||
        release.architecture == "" || release.architecture.utf8ByteSize > 32 || release.variant.utf8ByteSize > 32 ||
        release.daemonID.utf8ByteSize < 1 || release.daemonID.utf8ByteSize > 128 ||
        release.daemonID.toList.any isSpace) "invalid immutable image release evidence"
      refuse (release.hash != evidence.releaseHash { release with hash := "" }) "release hash mismatch"

end Releases

section Images

variable (evidence : Evidence)

def gitComposeVersion : String := "git-compose.v1"

-- A later service without a name would take the image over.
def addOwner (owners : List (String × String)) (service : Service) : Except String (List (String × String)) :=
  if service.build.isSome && service.image != "" then
    if (owners.lookup service.image).getD "" ≠ "" then .error "ambiguous Git Compose built image"
    else .ok ((service.image, service.name) :: owners)
  else .ok owners

def stackBuildOwner (definition : Definition) (component : String) : Except String String := do
  let owners ← definition.services.foldlM addOwner []
  match definition.services.find? (·.name == component) with
  | none => .error "unknown Git Compose component"
  | some service => if service.build.isSome then pure component else pure ((owners.lookup service.image).getD "")

-- An image that was built here belongs to a service that is built; any other comes from the service's repository.
def checkSource (definition : Definition) (service : Service) (image : StackImage) : Except String Unit :=
  if image.release.localBuild ≠ {} then
    match stackBuildOwner definition image.component with
    | .error _ => .error "unbound stack local artifact"
    | .ok owner =>
      refuse (definition.version != gitComposeVersion || owner == "" ||
        fails (validateLocalBuildRelease evidence image.release)) "unbound stack local artifact"
  else do
    if definition.version = gitComposeVersion then
      match stackBuildOwner definition image.component with
      | .error _ => .error "local stack artifact required"
      | .ok owner => refuse (owner != "") "local stack artifact required"
    match evidence.parseNamed service.image with
    | none => .error "invalid stack image source"
    | some source =>
      match evidence.parseNamed image.release.canonicalImage with
      | none => .error "stack image repository changed"
      | some resolved => do
        refuse (source.repository != resolved.repository) "stack image repository changed"
        refuse (source.digest.isSome && source.digest != resolved.digest) "stack image digest changed"

-- Images and services are walked in step; the last component is the one before.
def checkImages (definition : Definition) (daemon : String) :
    Option String → List StackImage → List Service → Except String Unit
  | last, image :: images, service :: services => do
    refuse (image.component != service.name || last.any (fun before => decide (image.component ≤ before)) ||
      image.release.stack != {} || image.release.daemonID != daemon ||
      fails (validateRelease evidence image.release)) "stack component release changed"
    checkSource evidence definition service image
    checkImages definition daemon (some image.component) images services
  | _, _, _ => .ok ()

def validateStackImages (definition : Definition) (daemon : String) (images : List StackImage) :
    Except String Unit := do
  refuse (images.length == 0 || images.length > 16 || images.length != definition.services.length)
    "stack image set is incomplete"
  checkImages evidence definition daemon none images definition.services

end Images

section Snapshots

variable (evidence : Evidence)

def stackPolicyVersion : String := "managed-compose.interrupting.v1"

def runtimePolicyVersion : String := "public-image.runtime-env.release-ports.v1"

def localBuildRuntimePolicyVersion : String := "local-build.runtime-env.release-ports.v1"

def applicationDatabasePolicyVersion : String := "public-image.runtime-env.database.release-ports.v1"

def applicationDatabaseStoragePolicyVersion : String := "public-image.application-database.owned-storage.v1"

def ownedStoragePolicyVersion : String := "public-image.owned-storage.release-ports.v1"

def ownedStorageRuntimePolicyVersion : String := "public-image.owned-storage.runtime-env.release-ports.v1"

def RegistryCredentialRef.validate (r : RegistryCredentialRef) : Except String Unit :=
  refuse (r.secretID == "" || r.secretID.utf8ByteSize > 128 || trimSpace r.secretID != r.secretID ||
    r.secretID.toList.any isControl || r.version < 1) "invalid registry credential"

def validateRegistrySnapshot (s : Snapshot) : Except String Unit :=
  if s.registryCredential = {} then .ok ()
  else do
    refuse (fails s.registryCredential.validate || s.localBuild != {} || s.database != {} ||
      s.applicationDatabase != {}) "invalid registry credential"
    if s.stack ≠ {} then
      refuse (s.stack.generation < 1 || !imageSHA256 s.stack.hash || s.imageReference != "")
        "invalid registry credential"
    else do
      let _ ← evidence.imageRegistry s.imageReference
      pure ()

def Snapshot.storageCombined (s : Snapshot) : Bool := s.policyVersion == applicationDatabaseStoragePolicyVersion

def Snapshot.combined (s : Snapshot) : Bool :=
  s.policyVersion == applicationDatabasePolicyVersion || s.storageCombined

def Snapshot.imageRuntime (s : Snapshot) : Bool :=
  s.policyVersion == runtimePolicyVersion || s.combined || s.policyVersion == ownedStorageRuntimePolicyVersion

def checkApplicationDatabase (s : Snapshot) : Except String Unit :=
  if s.combined then
    refuse (!hostingProxyID s.applicationDatabase.bindingID || !imageSHA256 s.applicationDatabase.bindingHash ||
      s.localBuild != {} || ((!s.storageCombined && s.storage != noStorage) ||
      (s.storageCombined && !validStorageRef s.storage)) || s.storageRouteContinuity != {} || s.database != {})
      "invalid application database plan"
  else refuse (s.applicationDatabase != {}) "invalid application database plan"

def checkRuntimeReference (s : Snapshot) : Except String Unit :=
  let runtimePolicy := s.imageRuntime || s.policyVersion == localBuildRuntimePolicyVersion
  if s.runtimeConfiguration = {} then refuse runtimePolicy "runtime policy requires configuration reference"
  else
    refuse (s.runtimeConfiguration.generation < 1 || !imageSHA256 s.runtimeConfiguration.hash || !runtimePolicy ||
      (s.localBuild == {}) != s.imageRuntime) "invalid runtime configuration reference policy"

def validateRuntimeConfigurationRef (s : Snapshot) : Except String Unit := do
  validateRegistrySnapshot evidence s
  if s.stack ≠ {} then
    refuse (s.policyVersion != stackPolicyVersion || (s.runtimeConfiguration != {} &&
      (s.runtimeConfiguration.generation < 1 || !imageSHA256 s.runtimeConfiguration.hash)) || s.localBuild != {} ||
      s.storage != noStorage || s.applicationDatabase != {} || s.database != {}) "invalid stack runtime configuration"
  else do
    checkApplicationDatabase s
    checkRuntimeReference s

def validateStorageRouteContinuitySnapshot (s : Snapshot) : Except String Unit :=
  if s.storageRouteContinuity = {} then .ok ()
  else if s.stack ≠ {} then
    refuse (!imageSHA256 s.storageRouteContinuity.hash || s.policyVersion != stackPolicyVersion ||
      s.storage != noStorage || fails (validateRuntimeConfigurationRef evidence s))
      "invalid stack route continuity snapshot"
  else
    refuse (!imageSHA256 s.storageRouteContinuity.hash || s.storage == noStorage ||
      (s.policyVersion != ownedStoragePolicyVersion && s.policyVersion != ownedStorageRuntimePolicyVersion) ||
      s.localBuild != {} || fails (validateRuntimeConfigurationRef evidence s))
      "invalid storage route continuity snapshot"

end Snapshots

section Predecessors

variable (evidence : Evidence)

def checkHealthyComponents (operation publicComponent : String) :
    Bool → List String → List Component → Except String Bool
  | isPublic, _, [] => .ok isPublic
  | isPublic, seen, c :: rest => do
    refuse (!stackName c.component || seen.contains c.component || c.operationID != operation ||
      !imageSHA256 ("sha256:" ++ c.containerID) || !imageSHA256 c.imageID) "invalid healthy stack component"
    checkHealthyComponents operation publicComponent (if c.component = publicComponent then c.running else isPublic)
      (c.component :: seen) rest

def validateStackHealthy (healthy : Healthy) : Except String Unit :=
  match healthy.stack with
  | none => .error "invalid healthy stack"
  | some state => do
    refuse (!state.observationComplete || healthy.snapshot.stack.generation < 1 ||
      healthy.snapshot.policyVersion != stackPolicyVersion || healthy.containerID != "" || healthy.storage.isSome ||
      healthy.operationID == "" || !imageSHA256 healthy.planHash ||
      fails (validateStackRelease evidence healthy.release) || !stackName state.publicComponent ||
      !imageSHA256 ("sha256:" ++ state.networkID) || state.components.length == 0 || state.components.length > 16 ||
      state.volumes.length > 32) "invalid healthy stack"
    let isPublic ← checkHealthyComponents healthy.operationID state.publicComponent false [] state.components
    refuse (!isPublic) "healthy stack lacks public component"

def Stopped.validate (s : Stopped) : Except String Unit :=
  refuse (!hostingProxyID s.stopOperationID || s.stopOperationID == s.target.operationID ||
    fails (validateStackHealthy evidence s.target)) "invalid confirmed stopped stack"

end Predecessors

section Compiler

variable (evidence : Evidence)

def stackCompilerVersion : String := "managed-compose.compiler.v1"

def stackObjectID (binding kind name : String) : String :=
  "ncd_" ++ Sha256.hex ((Sha256.sum256 (utf8 (binding ++ "\x00" ++ kind ++ "\x00" ++ name))).take 16)

-- `\A[0-9a-f]{32}\z`.
def storageRequest (text : String) : Bool :=
  text.toList.length == 32 && text.toList.all fun c => c.isDigit || ('a' ≤ c && c ≤ 'f')

def checkStackSnapshot (snapshot : Snapshot) (definition : Definition) : Except String Unit :=
  refuse (snapshot.policyVersion != stackPolicyVersion || snapshot.stack.generation != snapshot.resourceGeneration ||
    snapshot.stack.generation < 1 || snapshot.stack.hash != evidence.definitionHash definition ||
    snapshot.imageReference != "" || snapshot.localBuild != {} || snapshot.database != {} ||
    snapshot.storage != noStorage || snapshot.applicationDatabase != {} ||
    snapshot.containerPort != definition.containerPort || snapshot.hostPort < 1024 || snapshot.hostPort > 65535 ||
    fails (validateRuntimeConfigurationRef evidence snapshot) ||
    fails (validateStorageRouteContinuitySnapshot evidence snapshot)) "invalid stack snapshot"

def checkPlanVolumes (binding : String) : List Volume → List String → Except String Unit
  | volume :: volumes, name :: names => do
    refuse (volume.name != name || volume.volumeName != stackObjectID binding "volume" volume.name ||
      !hostingProxyID volume.creationOperationID || !storageRequest volume.creationNonce) "invalid stack volume"
    checkPlanVolumes binding volumes names
  | _, _ => .ok ()

def checkPrevious (snapshot : Snapshot) (release : Release) (volumes : List Volume) :
    Option Healthy → Except String Unit
  | none => .ok ()
  | some previous => do
    refuse (fails (validateStackHealthy evidence previous) ||
      previous.snapshot.bindingID != snapshot.bindingID ||
      previous.snapshot.destinationID != snapshot.destinationID ||
      previous.snapshot.hostPort != snapshot.hostPort || previous.release.daemonID != release.daemonID)
      "stack predecessor changed"
    let known := (previous.stack.map (·.volumes)).getD []
    refuse (known.any fun old => volumes.any fun volume => old.name == volume.name && old != volume)
      "stack volume origin changed"

def checkStopped (snapshot : Snapshot) (previous : Option Healthy) (stopped : List (Option Stopped)) :
    Except String (Option Stopped) := do
  refuse (stopped.length > 1) "invalid stopped predecessor"
  match stopped.head?.join with
  | some stop => do
    refuse (fails (stop.validate evidence) || previous.isNone ||
      snapshot.stackStoppedOperationID != stop.stopOperationID ||
      some (evidence.healthyHash stop.target) != previous.map evidence.healthyHash) "stopped predecessor changed"
    pure (some stop)
  | none => do
    refuse (snapshot.stackStoppedOperationID != "") "stopped predecessor proof missing"
    pure none

def compileStackPlan (snapshot : Snapshot) (release : Release) (previous : Option Healthy) (stack : StackPlan)
    (stopped : List (Option Stopped)) : Except String ApplyPlan := do
  checkStackSnapshot evidence snapshot stack.definition
  refuse ((stack.definition.version != stackVersion && stack.definition.version != gitComposeVersion) ||
    !imageSHA256 stack.definition.originalHash || release.stack.hash != evidence.imagesHash stack.images ||
    fails (validateStackRelease evidence release) ||
    fails (validateStackImages evidence stack.definition release.daemonID stack.images))
    "invalid stack image set"
  refuse ((stack.definition.version == gitComposeVersion) != (snapshot.gitCompose != {}))
    "git stack result reference required"
  refuse (stack.networkName != stackObjectID snapshot.bindingID "network" "private" ||
    stack.volumes.length != stack.definition.volumes.length || stack.volumes.length > 32) "stack ownership changed"
  checkPlanVolumes snapshot.bindingID stack.volumes stack.definition.volumes
  checkPrevious evidence snapshot release stack.volumes previous
  let previousStopped ← checkStopped evidence snapshot previous stopped
  let plan : ApplyPlan :=
    { previousStopped := previousStopped, stack := some stack, snapshot := snapshot, release := release,
      previousHealthy := previous, compilerVersion := stackCompilerVersion }
  pure { plan with hash := evidence.planHash plan }

end Compiler

section Observation

-- An observed creation time stands in for one the plan does not know yet.
def expectedVolume (planned observed : Volume) : Volume :=
  if planned.createdAt = "" then { planned with createdAt := observed.createdAt } else planned

def checkVolumes (healthy : Bool) : List Volume → List Volume → Except String Unit
  | volume :: volumes, planned :: rest => do
    refuse (volume != expectedVolume planned volume || (healthy && volume.createdAt == ""))
      "stack volume observation changed"
    checkVolumes healthy volumes rest
  | _, _ => .ok ()

def checkShape (c : Component) : Except String Unit :=
  refuse (!stackName c.component || !imageSHA256 ("sha256:" ++ c.containerID) || !imageSHA256 c.imageID ||
    (c.operationID != "" && !hostingProxyID c.operationID) ||
    !(c.health = .absent || c.health = .starting || c.health = .healthy || c.health = .unhealthy))
    "invalid component observation"

-- `sort.Search` over the planned images.
def imageIndex (images : List StackImage) (name : String) : Nat :=
  Sorting.search (fun i => !decide (((images[i]?).map (·.component)).getD "" < name)) images.length 0 images.length

def waitsFor (consumer : Service) (name : String) : Bool :=
  consumer.dependsOn.lookup name == some .serviceCompletedSuccessfully

def checkOutcome (definition : Definition) (service : Service) (c : Component) : Except String Unit :=
  if definition.services.any (waitsFor · c.component) then
    refuse (c.running || c.exitCode != 0) "stack init job did not complete"
  else refuse (!c.running || (service.healthcheck.isSome && c.health != .healthy)) "stack component is not healthy"

def checkComponent (stack : StackPlan) (operation : String) (seen : List String) (c : Component) :
    Except String Unit :=
  let index := imageIndex stack.images c.component
  match stack.images[index]? with
  | none => .error "stack component changed"
  | some image => do
    refuse (image.component != c.component || seen.contains c.component || c.operationID != operation ||
      c.imageID != image.release.imageID) "stack component changed"
    match stack.definition.services[index]? with
    -- the source stops with an index out of range
    | none => .error "index out of range"
    | some service => checkOutcome stack.definition service c

def checkComponents (stack : StackPlan) (operation : String) (healthy : Bool) :
    List String → List Component → Except String (List String)
  | seen, [] => .ok seen
  | seen, c :: rest => do
    checkShape c
    if healthy then do
      checkComponent stack operation seen c
      checkComponents stack operation healthy (c.component :: seen) rest
    else checkComponents stack operation healthy seen rest

def validateStackState (plan : ApplyPlan) (operation : String) (state : State) (healthy : Bool) :
    Except String Unit := do
  refuse ((state.networkID != "" && !imageSHA256 ("sha256:" ++ state.networkID)) ||
    (healthy && !state.observationComplete)) "stack observation is incomplete"
  match plan.stack with
  | none => .error "stack observation shape changed"
  | some stack => do
    refuse (state.publicComponent != stack.definition.publicComponent || state.components.length > 32 ||
      state.volumes.length != stack.volumes.length) "stack observation shape changed"
    checkVolumes healthy state.volumes stack.volumes
    let seen ← checkComponents stack operation healthy [] state.components
    refuse (healthy && seen.length != stack.definition.services.length) "stack observation is incomplete"

end Observation

end NeroCD.StackExecution
