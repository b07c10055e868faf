import NeroCD.DepthFirst
import NeroCD.Interpolation
import NeroCD.Paths
import NeroCD.Digests
import NeroCD.Sorting

-- Managed Compose stacks: the parser that admits a source (`domain/hosting_stack.go`).

namespace NeroCD.HostingStack

open NeroCD.Checks NeroCD.GoStrings NeroCD.Sorting

section Data

-- `depends_on` conditions; the parser lets the first three through.
inductive Condition where
  | serviceStarted
  | serviceHealthy
  | serviceCompletedSuccessfully
  | other (text : String)
  deriving DecidableEq

structure Build where
  args : List (String × String)
  context : String
  dockerfile : String
  target : String
  deriving DecidableEq

structure Mount where
  volume : String
  target : Bytes
  readOnly : Bool
  deriving DecidableEq

structure Healthcheck where
  test : List String
  interval : String
  timeout : String
  startPeriod : String
  retries : Int
  deriving DecidableEq

structure Service where
  name : String
  build : Option Build
  image : String
  command : Option (List String)
  environment : List (String × String)
  mounts : List Mount
  dependsOn : List (String × Condition)
  healthcheck : Option Healthcheck
  deriving DecidableEq

structure Definition where
  version : String
  originalHash : String
  publicComponent : String
  containerPort : Int
  services : List Service
  volumes : List String
  deriving DecidableEq

structure Source where
  original : String
  publicComponent : String
  containerPort : Int

structure Error where
  location : String
  reason : String
  deriving DecidableEq

def refuse (bad : Bool) (location reason : String) : Except Error Unit :=
  if bad then .error ⟨location, reason⟩ else .ok ()

end Data

section Documents

inductive Kind where
  | sequence
  | mapping
  | scalar
  | alias
  deriving DecidableEq

-- `yaml.Node`.  The content of a mapping alternates keys and values.
inductive Node where
  | mk (kind : Kind) (tag value anchor : String) (content : List Node)

def Node.kind : Node → Kind
  | .mk kind _ _ _ _ => kind

def Node.tag : Node → String
  | .mk _ tag _ _ _ => tag

def Node.value : Node → String
  | .mk _ _ value _ _ => value

def Node.anchor : Node → String
  | .mk _ _ _ anchor _ => anchor

def Node.content : Node → List Node
  | .mk _ _ _ _ content => content

inductive Decoded where
  | invalid
  | single (root : Node)
  | several

def pairs : List Node → List (Node × Node)
  | key :: value :: rest => (key, value) :: pairs rest
  | _ => []

def Node.entries (node : Node) : List (Node × Node) := pairs node.content

def checkKeys (location : String) : List String → List (Node × Node) → Except Error Unit
  | _, [] => .ok ()
  | seen, (key, _) :: rest => do
    refuse (key.kind != .scalar || key.tag != "!!str" || seen.contains key.value) location
      "duplicate or non-string mapping key"
    checkKeys location (key.value :: seen) rest

-- The number counts down the twenty-five levels that may be nested.
def stackYAML (location : String) : Nat → Node → Except Error Unit
  | 0, _ => .error ⟨location, "aliases, anchors, or excessive nesting are unsupported"⟩
  | depth + 1, node => do
    refuse (node.kind == .alias || node.anchor != "") location
      "aliases, anchors, or excessive nesting are unsupported"
    if node.kind = .mapping then checkKeys location [] node.entries
    node.content.forM (stackYAML location depth)

def stackFields (node : Node) (location : String) (allowed : List String) : Except Error (List (String × Node)) := do
  refuse (node.kind != .mapping) location "requires mapping"
  node.entries.forM fun (key, _) =>
    refuse (!allowed.contains key.value) (location ++ "." ++ key.value) "unsupported field in managed Compose v1"
  pure (node.entries.map fun (key, value) => (key.value, value))

def stackString (node : Option Node) : Option String :=
  node.bind fun node =>
    if node.kind != .scalar || node.tag != "!!str" || node.value.toList.contains '\x00' then none else some node.value

def stackStrings (node : Option Node) : Option (List String) :=
  node.bind fun node =>
    if node.kind != .sequence || node.content.length > 128 then none
    else node.content.mapM fun child => stackString (some child)

end Documents

section Services

-- `^[a-z][a-z0-9_-]{0,62}$`.
def stackName (text : String) : Bool :=
  match text.toList with
  | [] => false
  | c :: rest => c.isLower && rest.length ≤ 62 && rest.all fun c => c.isLower || c.isDigit || c == '_' || c == '-'

-- `\A[A-Za-z_][A-Za-z0-9_]{0,127}\z`.
def runtimeEnvironmentName (text : String) : Bool :=
  match text.toList with
  | [] => false
  | c :: rest => (c.isAlpha || c == '_') && rest.length ≤ 127 && rest.all fun c => c.isAlphanum || c == '_'

def expandable (text : String) : Bool := (Interpolation.expand (fun _ => none) false (utf8 text)).isOk

def validateStorageMountPath (path : Bytes) : Bool :=
  path.length ≤ 512 && path != utf8 "/" && path.head? == some Paths.slash && 2 ≤ path.length &&
    (path.all fun b => (65 ≤ b && b ≤ 90) || (97 ≤ b && b ≤ 122) || (48 ≤ b && b ≤ 57) ||
      (utf8 "_./-").contains b) &&
    Paths.clean path == path &&
    ["/proc", "/sys", "/dev"].all fun reserved =>
      path != utf8 reserved && !(utf8 reserved ++ [Paths.slash]).isPrefixOf path

-- What the parser takes from libraries, and the parser of a build section under the settings of a Git source.
structure Library where
  decode : String → Decoded
  normalizeImage : String → Option String
  parseDuration : String → Option Int
  decodeInt : Node → Option Int

variable (lib : Library) (settings : Option (Node → Except Error Build))

def afterLastIndex (text : String) (c : Char) : Nat :=
  text.toList.length - (text.toList.reverse.takeWhile (· != c)).length

def parseImage (location : String) (build : Option Build) (field : Option Node) : Except Error String :=
  match field with
  | none => do
    refuse build.isNone (location ++ ".image") "requires image or Git Compose build"
    pure ""
  | some node =>
    match stackString (some node) with
    | none => .error ⟨location ++ ".image", "requires literal image reference"⟩
    | some image => do
      refuse (image.toList.contains '$') (location ++ ".image") "requires literal image reference"
      let image :=
        if !image.toList.contains '@' && afterLastIndex image ':' ≤ afterLastIndex image '/' then image ++ ":latest"
        else image
      match lib.normalizeImage image with
      | none => .error ⟨location ++ ".image", "invalid image reference"⟩
      | some image => pure image

def parseCommand (location : String) (field : Option Node) : Except Error (Option (List String)) :=
  match field with
  | none => .ok none
  | some node =>
    match stackStrings (some node) with
    | none => .error ⟨location ++ ".command", "use exec-form string list"⟩
    | some command => do
      refuse (!command.all expandable) (location ++ ".command") "use exec-form string list"
      pure (some command)

def addEnvironment (location : String) (environment : List (String × String)) (key value : String) :
    Except Error (List (String × String)) := do
  refuse (!runtimeEnvironmentName key || hasPrefix key "NEROCD_") (location ++ ".environment")
    "invalid environment name"
  refuse (environment.any (·.1 == key)) (location ++ ".environment") "duplicate environment name"
  refuse (value.utf8ByteSize > 4096 || value.toList.any ['\x00', '\r', '\n'].contains) (location ++ ".environment")
    "invalid environment expression"
  refuse (!expandable value) (location ++ ".environment." ++ key) "unsupported interpolation"
  pure (environment ++ [(key, value)])

def requiredValue (key : String) : String := "$\x7b" ++ key ++ "?required\x7d"

def cutEquals (entry : String) : String × Option String :=
  let key := entry.toList.takeWhile (· != '=')
  match entry.toList.drop key.length with
  | [] => (entry, none)
  | _ :: value => (String.ofList key, some (String.ofList value))

def parseEnvironment (location : String) (field : Option Node) : Except Error (List (String × String)) :=
  match field with
  | none => .ok []
  | some node =>
    match node.kind with
    | .mapping =>
      node.entries.foldlM (fun environment (key, value) =>
        if value.tag = "!!null" then addEnvironment location environment key.value (requiredValue key.value)
        else do
          refuse (value.kind != .scalar || !(["!!str", "!!bool", "!!int", "!!float"].contains value.tag))
            (location ++ ".environment") "requires scalar values"
          addEnvironment location environment key.value value.value) []
    | .sequence =>
      match stackStrings (some node) with
      | none => .error ⟨location ++ ".environment", "requires strings"⟩
      | some entries =>
        entries.foldlM (fun environment entry =>
          addEnvironment location environment (cutEquals entry).1
            ((cutEquals entry).2.getD (requiredValue (cutEquals entry).1))) []
    | _ => .error ⟨location ++ ".environment", "requires mapping or list"⟩

def insertName (names : List String) (name : String) : List String := if names.contains name then names else names ++ [name]

def parseMount (location : String) (mounts : List Mount) (entry : String) : Except Error Mount := do
  let parts := (entry.toList.splitOn ':').map String.ofList
  let target := Paths.clean (utf8 (parts.getD 1 ""))
  refuse (parts.length < 2 || parts.length > 3 || !stackName (parts.getD 0 "") || !hasPrefix (parts.getD 1 "") "/" ||
    !validateStorageMountPath target || (parts.getD 1 "").toList.contains '$' || mounts.any (·.target == target) ||
    (parts.length == 3 && parts.getD 2 "" != "ro" && parts.getD 2 "" != "rw")) (location ++ ".volumes")
    "requires unique absolute targets and owned named volumes"
  pure ⟨parts.getD 0 "", target, parts.length == 3 && parts.getD 2 "" == "ro"⟩

def parseMounts (location : String) (field : Option Node) : Except Error (List Mount) :=
  match field with
  | none => .ok []
  | some node =>
    match stackStrings (some node) with
    | none => .error ⟨location ++ ".volumes", "use named-volume short syntax"⟩
    | some entries => entries.foldlM (fun mounts entry => do
        let mount ← parseMount location mounts entry
        pure (mounts ++ [mount])) []

def condition (text : String) : Option Condition :=
  if text = "service_started" then some .serviceStarted
  else if text = "service_healthy" then some .serviceHealthy
  else if text = "service_completed_successfully" then some .serviceCompletedSuccessfully
  else none

def parseDependency (location : String) (dependencies : List (String × Condition)) (key value : Node) :
    Except Error (List (String × Condition)) := do
  let fields ← stackFields value (location ++ ".depends_on." ++ key.value) ["condition"]
  match (stackString (fields.lookup "condition")).bind condition with
  | none => .error ⟨location ++ ".depends_on." ++ key.value, "unsupported condition"⟩
  | some c => pure (dependencies.filter (·.1 != key.value) ++ [(key.value, c)])

def parseDependencies (location : String) (field : Option Node) : Except Error (List (String × Condition)) :=
  match field with
  | none => .ok []
  | some node =>
    if node.kind = .sequence then
      match stackStrings (some node) with
      | none => .error ⟨location ++ ".depends_on", "requires names"⟩
      | some names => names.foldlM (fun dependencies name => do
          refuse (dependencies.any (·.1 == name)) (location ++ ".depends_on") "duplicate dependency"
          pure (dependencies ++ [(name, .serviceStarted)])) []
    else do
      refuse (node.kind != .mapping) (location ++ ".depends_on") "requires mapping or list"
      node.entries.foldlM (fun dependencies (key, value) => parseDependency location dependencies key value) []

-- Between one millisecond and ten minutes, in nanoseconds.
def parseHealthDuration (location key : String) (fields : List (String × Node)) : Except Error String :=
  match fields.lookup key with
  | none => .ok ""
  | some node =>
    match stackString (some node), (stackString (some node)).bind lib.parseDuration with
    | some raw, some d => do
      refuse (d < 1000000 || d > 600000000000) (location ++ ".healthcheck." ++ key)
        "requires duration between 1ms and 10m"
      pure raw
    | _, _ => .error ⟨location ++ ".healthcheck." ++ key, "requires duration between 1ms and 10m"⟩

def parseRetries (location : String) (fields : List (String × Node)) : Except Error Int :=
  match fields.lookup "retries" with
  | none => .ok 3
  | some node =>
    match lib.decodeInt node with
    | none => .error ⟨location ++ ".healthcheck.retries", "requires integer from 1 to 100"⟩
    | some retries => do
      refuse (node.tag != "!!int" || retries < 1 || retries > 100) (location ++ ".healthcheck.retries")
        "requires integer from 1 to 100"
      pure retries

def parseHealthcheck (location : String) (field : Option Node) : Except Error (Option Healthcheck) :=
  match field with
  | none => .ok none
  | some node => do
    let fields ← stackFields node (location ++ ".healthcheck") ["test", "interval", "timeout", "start_period", "retries"]
    match stackStrings (fields.lookup "test") with
    | none => .error ⟨location ++ ".healthcheck.test", "requires CMD or CMD-SHELL list"⟩
    | some test => do
      refuse (test.length < 2 || (test.getD 0 "" != "CMD" && test.getD 0 "" != "CMD-SHELL") ||
        (test.getD 0 "" == "CMD-SHELL" && test.length != 2)) (location ++ ".healthcheck.test")
        "requires CMD or CMD-SHELL list"
      refuse (!test.all expandable) (location ++ ".healthcheck.test") "unsupported interpolation"
      let interval ← parseHealthDuration lib location "interval" fields
      let timeout ← parseHealthDuration lib location "timeout" fields
      let startPeriod ← parseHealthDuration lib location "start_period" fields
      let retries ← parseRetries lib location fields
      pure (some ⟨test, interval, timeout, startPeriod, retries⟩)

def parseBuild (location : String) (field : Option Node) : Except Error (Option Build) :=
  match field, settings with
  | none, _ => .ok none
  | some _, none => .error ⟨location ++ ".build", "Git Compose required"⟩
  | some node, some parse => do
    let build ← parse node
    pure (some build)

def parseStackService (name : String) (node : Node) (volumes : List String) :
    Except Error (Service × List String) := do
  let location := "services." ++ name
  let fields ← stackFields node location (["image", "environment", "command", "depends_on", "volumes", "healthcheck"] ++
    if settings.isSome then ["build"] else [])
  let build ← parseBuild settings location (fields.lookup "build")
  let image ← parseImage lib location build (fields.lookup "image")
  let command ← parseCommand location (fields.lookup "command")
  let environment ← parseEnvironment location (fields.lookup "environment")
  let mounts ← parseMounts location (fields.lookup "volumes")
  let dependsOn ← parseDependencies location (fields.lookup "depends_on")
  let healthcheck ← parseHealthcheck lib location (fields.lookup "healthcheck")
  pure (⟨name, build, image, command, environment, mounts, dependsOn, healthcheck⟩,
    (mounts.map (·.volume)).foldl insertName volumes)

end Services

section Stacks

variable (lib : Library) (settings : Option (Node → Except Error Build))

def stackVersion : String := "managed-compose.v1"

def parseVolumes (field : Option Node) : Except Error (List String) :=
  match field with
  | none => .ok []
  | some node => do
    refuse (node.kind != .mapping) "volumes" "requires named volume mapping"
    node.entries.foldlM (fun volumes (key, value) => do
      refuse (!stackName key.value ||
        (value.tag != "!!null" && (value.kind != .mapping || value.content.length != 0))) ("volumes." ++ key.value)
        "only owned default-driver volumes are supported"
      pure (insertName volumes key.value)) []

def parseServices (services : Node) (volumes : List String) : Except Error (List Service × List String) :=
  services.entries.foldlM (fun (parsed, volumes) (key, node) => do
    refuse (!stackName key.value) "services" "invalid service name"
    let (service, volumes) ← parseStackService lib settings key.value node volumes
    pure (parsed ++ [service], volumes)) ([], volumes)

def parseDocument (source : Source) : Except Error (List Service × List String) := do
  refuse (source.original.utf8ByteSize == 0 || source.original.utf8ByteSize > 128 * 1024 ||
    source.containerPort < 1 || source.containerPort > 65535) "source"
    "requires bounded Compose text and a public container port"
  match lib.decode source.original with
  | .invalid => .error ⟨"source", "invalid YAML document"⟩
  | .several => .error ⟨"source", "requires exactly one document"⟩
  | .single root => do
    stackYAML "root" 25 root
    let top ← stackFields root "root" ["services", "volumes"]
    match top.lookup "services" with
    | none => .error ⟨"services", "requires 1 to 16 named services"⟩
    | some services => do
      refuse (services.kind != .mapping || services.content.length == 0 || services.content.length > 32) "services"
        "requires 1 to 16 named services"
      let volumes ← parseVolumes (top.lookup "volumes")
      parseServices lib settings services volumes

-- The entry of a map that was filled from the list.
def byName (services : List Service) (name : String) : Option Service :=
  services.reverse.find? fun service => service.name == name

def dependsOn (services : List Service) (name : String) : List (String × Condition) :=
  ((byName services name).map (·.dependsOn)).getD []

-- The order in which the map of a service's dependencies is walked.
structure Walks where
  walk : String → List (String × Condition) → List (String × Condition)
  perm : ∀ name l, (walk name l).Perm l

variable (walks : Walks) (choices : Choices)

def checkDependency (publicComponent : String) (services : List Service) (name : String)
    (edge : String × Condition) : Except Error Unit := do
  refuse (edge.1 == publicComponent && edge.2 == .serviceCompletedSuccessfully) "public_component"
    "cannot select a successful init job"
  match byName services edge.1 with
  | none => .error ⟨"services." ++ name ++ ".depends_on", "unknown dependency"⟩
  | some target =>
    refuse (edge.2 == .serviceHealthy && target.healthcheck.isNone) ("services." ++ name ++ ".depends_on")
      "healthy dependency requires a healthcheck"

def dependencyGraph (publicComponent : String) (services : List Service) :
    DepthFirst.Graph String (String × Condition) Error where
  edges name := walks.walk name (dependsOn services name)
  target := Prod.fst
  check := checkDependency publicComponent services
  cycle name := ⟨"services." ++ name ++ ".depends_on", "dependency cycle"⟩

def checkDependencies (publicComponent : String) (services : List Service) : Except Error Unit := do
  let _ ← DepthFirst.visitAll (dependencyGraph walks publicComponent services) (services.length + 1)
    (services.map (·.name))
  pure ()

def parseHostingStack (source : Source) : Except Error Definition := do
  let (services, volumes) ← parseDocument lib settings source
  refuse (volumes.length > 32) "volumes" "supports at most 32 owned named volumes"
  refuse (!services.any (·.name == source.publicComponent)) "public_component" "must select an existing service"
  let volumes := choices.sort (fun a b => decide (a < b)) (choices.walk volumes)
  let services := choices.sort (fun a b => decide (a.name < b.name)) services
  checkDependencies walks source.publicComponent services
  pure
    { version := stackVersion
      originalHash := "sha256:" ++ Sha256.hex (Sha256.sum256 (utf8 source.original))
      publicComponent := source.publicComponent
      containerPort := source.containerPort
      services := services
      volumes := volumes }

end Stacks

end NeroCD.HostingStack
