import Mathlib.Data.List.Infix
import Mathlib.Data.List.Sort
import NeroCD.Checks
import NeroCD.Paths
import NeroCD.Traefik

-- Proxy plans: the routes of one generation, the hash that names it and the Traefik configuration that
-- carries it out (`hostingproxy/plan.go`).

namespace NeroCD.Proxy

open NeroCD.Checks NeroCD.GoStrings

def image : String :=
  "docker.io/library/traefik@sha256:0f6150202bc1fed72a7bd2107460eaa510e5b8a905f3fdb5b84f2c8619c33368"

def loopbackIdleConnTimeout : String := "10s"

def loopbackMaxIdleConnsPerHost : Nat := 200

inductive CA where
  | letsEncrypt
  | letsEncryptStaging
  | other (text : String)
  deriving DecidableEq

structure Identity where
  proxyID : String
  serverID : String
  destinationID : String
  runnerID : String
  daemonID : String
  deriving DecidableEq

structure Settings where
  directory : String
  dockerBinary : String
  dockerSocket : String
  email : String
  ca : CA
  managementPort : Nat
  deriving DecidableEq

structure Route where
  id : String
  hostname : String
  pathPrefix : String
  hostPort : Nat
  deriving DecidableEq

structure VerificationPolicy where
  version : Nat
  requiredRouteIDs : List String
  deriving DecidableEq

structure Plan where
  identity : Identity
  settings : Settings
  generation : Nat
  previous : Nat
  routes : List Route
  hash : String
  staticHash : String
  transportPolicy : Nat
  verification : Option VerificationPolicy
  deriving DecidableEq

-- What the program hashes: each shape is a Go struct with names of its own, so no two shapes share a text.
inductive DigestInput where
  | static (identity : Identity) (settings : Settings) (image : String)
  | plan (static : String) (generation previous : Nat) (routes : List Route)
  | transport (plan : String) (version : Nat) (idleConnTimeout : String) (maxIdleConnsPerHost : Nat)
  | verification (plan : String) (policy : VerificationPolicy)

-- SHA-256 of the JSON text, in hexadecimal.
abbrev Digest := DigestInput → String

section Patterns

def alphanumeric (c : Char) : Bool := c.isAlpha || c.isDigit

-- `^[a-zA-Z0-9][a-zA-Z0-9_-]{0,79}$`.
def idPattern (text : String) : Bool :=
  match text.toList with
  | [] => false
  | c :: rest => alphanumeric c && rest.length ≤ 79 && rest.all fun c => alphanumeric c || c == '_' || c == '-'

def hostChar (c : Char) : Bool := c.isLower || c.isDigit

-- `[a-z0-9](?:[a-z0-9-]{0,61}[a-z0-9])?`.
def hostLabel (label : List Char) : Bool :=
  label.length ≤ 63 && (label.head?.any hostChar) && (label.getLast?.any hostChar) &&
    label.all fun c => hostChar c || c == '-'

def hostPattern (text : String) : Bool :=
  let labels := text.toList.splitOn '.'
  2 ≤ labels.length && labels.all hostLabel

-- `^/[a-zA-Z0-9/_~.-]*$`.
def pathPattern (text : String) : Bool :=
  match text.toList with
  | '/' :: rest => rest.all fun c => alphanumeric c || ['/', '_', '~', '.', '-'].contains c
  | _ => false

def cleanPath (text : String) : Bool := Paths.clean (utf8 text) = utf8 text

end Patterns

-- `mail.ParseAddress` accepts the text and reads the text itself as the address.
abbrev EmailCheck := String → Bool

def validateSettings (email : EmailCheck) (s : Settings) : Except String Unit := do
  forEach (fun p => refuse (!hasPrefix p "/" || !cleanPath p || containsAny p ['\x00', '\n', '\r', ','])
    "operator paths must be absolute canonical paths") [s.directory, s.dockerBinary, s.dockerSocket]
  refuse (s.managementPort < 1024) "management port must be unprivileged"
  refuse (s.ca != .letsEncrypt && s.ca != .letsEncryptStaging) "CA is not allowed"
  refuse (!email s.email) "invalid ACME email"

def checkRoute (s : Settings) (r : Route) : Except String Unit := do
  refuse (!idPattern r.id || !hostPattern r.hostname || r.hostname.utf8ByteSize > 253 || r.hostPort < 1024 ||
    r.hostPort == s.managementPort) "invalid route identity, hostname, or host port"
  refuse (r.pathPrefix.utf8ByteSize > 256 || !pathPattern r.pathPrefix || !cleanPath r.pathPrefix ||
    "//".toList <:+: r.pathPrefix.toList || (r.pathPrefix != "/" && r.pathPrefix.toList.getLast? == some '/'))
    "path must be a canonical literal origin path"
  refuse (hasPrefix r.pathPrefix "/.well-known" || hasPrefix r.pathPrefix "/dashboard" ||
    hasPrefix r.pathPrefix "/_nerocd") "reserved route path"

def checkRoutes (s : Settings) : List String → List String → List Route → Except String Unit
  | _, _, [] => .ok ()
  | ids, bindings, r :: rest => do
    checkRoute s r
    refuse (ids.contains r.id || bindings.contains (r.hostname ++ " " ++ r.pathPrefix)) "duplicate route"
    checkRoutes s (r.id :: ids) ((r.hostname ++ " " ++ r.pathPrefix) :: bindings) rest

section Hashes

variable (digest : Digest)

def planHash (p : Plan) : String := digest (.plan p.staticHash p.generation p.previous p.routes)

def transportHash (p : Plan) : String :=
  if p.transportPolicy = 1 then
    digest (.transport (planHash digest p) 1 loopbackIdleConnTimeout loopbackMaxIdleConnsPerHost)
  else planHash digest p

def rehashed (p : Plan) : String :=
  match p.verification with
  | none => transportHash digest p
  | some policy => digest (.verification (transportHash digest p) policy)

def rehash (p : Plan) : Plan := { p with hash := rehashed digest p }

def prepare (email : EmailCheck) (i : Identity) (s : Settings) (generation previous : Nat) (routes : List Route) :
    Except String Plan := do
  validateSettings email s
  forEach (fun v => refuse (!idPattern v) "invalid identity") [i.proxyID, i.serverID, i.destinationID, i.runnerID]
  refuse (i.daemonID == "" || i.daemonID.utf8ByteSize > 128 || containsAny i.daemonID ['\n', '\r', '\x00'])
    "invalid daemon identity"
  refuse (generation == 0 || generation ≤ previous || routes.length > 1000) "invalid generation or route count"
  checkRoutes s [] [] routes
  pure (rehash digest
    { identity := i
      settings := s
      generation := generation
      previous := previous
      routes := routes.insertionSort fun a b => a.id ≤ b.id
      hash := ""
      staticHash := digest (.static i s image)
      transportPolicy := 1
      verification := none })

def checkSelected (routeIDs : List String) : Option String → List String → Except String Unit
  | _, [] => .ok ()
  | before, id :: rest => do
    refuse (!routeIDs.contains id || before == some id) "verified switch route IDs must be present and unique"
    checkSelected routeIDs (some id) rest

def prepareVerifiedSwitch (email : EmailCheck) (i : Identity) (s : Settings) (generation previous : Nat)
    (routes : List Route) (requiredRouteIDs : List String) : Except String Plan := do
  let p ← prepare digest email i s generation previous routes
  refuse (previous == 0 || requiredRouteIDs.isEmpty || requiredRouteIDs.length > routes.length)
    "verified switch requires a predecessor and selected existing routes"
  let ids := requiredRouteIDs.insertionSort (· ≤ ·)
  checkSelected (p.routes.map (·.id)) none ids
  pure (rehash digest { p with verification := some ⟨1, ids⟩ })

-- The current or the legacy transport policy, whichever gives the recorded hash.
def matchRecordedHash (p : Plan) (expected : String) : Except String Plan := do
  refuse (p.transportPolicy > 1 || p.hash == "") "unknown proxy transport policy"
  if expected = p.hash then pure p
  else
    let legacy := rehash digest { p with transportPolicy := 0 }
    refuse (expected != legacy.hash) "recorded proxy configuration hash differs"
    pure legacy

-- The plans a caller can hold: the constructors of the package return no others.
inductive Prepared (email : EmailCheck) : Plan → Prop where
  | plain {i : Identity} {s : Settings} {generation previous : Nat} {routes : List Route} {p : Plan}
      (h : prepare digest email i s generation previous routes = .ok p) : Prepared email p
  | verified {i : Identity} {s : Settings} {generation previous : Nat} {routes : List Route} {ids : List String}
      {p : Plan} (h : prepareVerifiedSwitch digest email i s generation previous routes ids = .ok p) :
      Prepared email p
  | recorded {p q : Plan} {expected : String} (hPlan : Prepared email p)
      (h : matchRecordedHash digest p expected = .ok q) : Prepared email q

end Hashes

-- `sort.SearchStrings`: the binary search for the first entry that is not smaller.
def searchStrings (ids : List String) (id : String) : Nat → Nat → Nat → Nat
  | 0, low, _ => low
  | fuel + 1, low, high =>
    if low < high then
      if ids.getD ((low + high) / 2) "" < id then searchStrings ids id fuel ((low + high) / 2 + 1) high
      else searchStrings ids id fuel low ((low + high) / 2)
    else low

def Plan.required (p : Plan) (id : String) : Bool :=
  match p.verification with
  | none => false
  | some policy =>
    let ids := policy.requiredRouteIDs
    ids[searchStrings ids id ids.length 0 ids.length]? == some id

inductive Phase where
  | none
  | intent
  | committed
  | other (text : String)
  deriving DecidableEq

structure Receipt where
  identity : Identity
  staticHash : String
  hash : String
  generation : Nat
  routes : List Route
  phase : Phase
  verification : Option VerificationPolicy
  transportPolicy : Nat
  deriving DecidableEq

-- The zero value, for a directory without a receipt.
def Receipt.zero : Receipt where
  identity := ⟨"", "", "", "", ""⟩
  staticHash := ""
  hash := ""
  generation := 0
  routes := []
  phase := .none
  verification := none
  transportPolicy := 0

def Plan.receipt (p : Plan) (phase : Phase) : Receipt where
  identity := p.identity
  staticHash := p.staticHash
  hash := p.hash
  generation := p.generation
  routes := p.routes
  phase := phase
  verification := p.verification
  transportPolicy := p.transportPolicy

def lowerHex (text : String) : Bool :=
  text.toList.all fun c => c.isDigit || ('a' ≤ c && c ≤ 'f')

def sameScope (next : Plan) (routes : List Route) : Bool :=
  routes.length == next.routes.length && (next.routes.zip routes).all fun (r, prior) =>
    (if next.required r.id then { r with hostPort := prior.hostPort } else r) == prior

def Plan.switchPredecessor (p : Plan) (old : Receipt) (install : Bool) : Except String Unit :=
  if p.verification.isNone then .ok ()
  else do
    refuse (install || old.generation == 0 || old.generation != p.previous || old.phase != .committed ||
      old.routes.length != p.routes.length || old.hash.utf8ByteSize != 64)
      "verified switch requires an installed committed predecessor with identical route scope"
    refuse (!lowerHex old.hash) "verified switch predecessor hash is invalid"
    refuse (!sameScope p old.routes) "verified switch may only change selected existing routes' host ports"

section Configuration

def textObject (entries : List (String × String)) : Json :=
  .object (entries.map fun (name, value) => (name, .string value))

def textArray (entries : List String) : Json := .array (entries.map .string)

-- `g%d-%s` of the generation and the first sixteen characters of the hash.
def Plan.marker (p : Plan) : String := "g" ++ toString p.generation ++ "-" ++ String.ofList (p.hash.toList.take 16)

def Plan.transportName (p : Plan) : String := p.marker ++ "-loopback"

def Plan.routeName (p : Plan) (r : Route) : String := p.marker ++ "-" ++ r.id

def Route.rule (r : Route) : String :=
  "Host(`" ++ r.hostname ++ "`)" ++
    if r.pathPrefix = "/" then ""
    else " && (Path(`" ++ r.pathPrefix ++ "`) || PathPrefix(`" ++ r.pathPrefix ++ "/`))"

def markerHeaders (headers : List (String × String)) : Json :=
  .object [("headers", .object [("customResponseHeaders", textObject headers)])]

def Plan.router (p : Plan) (r : Route) (secure : Bool) : String × Json :=
  (p.routeName r ++ (if secure then "-https" else "-http"),
    .object ([("rule", .string r.rule), ("entryPoints", textArray [if secure then "websecure" else "web"]),
      ("service", .string (p.routeName r)), ("middlewares", textArray [p.routeName r]),
      ("priority", .number (100 + r.pathPrefix.length))] ++
      if secure then [("tls", textObject [("certResolver", "managed")])] else []))

def Plan.service (p : Plan) (r : Route) : String × Json :=
  (p.routeName r, .object [("loadBalancer",
    .object ([("servers", .array [textObject [("url", "http://127.0.0.1:" ++ toString r.hostPort)]])] ++
      if p.transportPolicy = 1 then [("serversTransport", .string p.transportName)] else []))])

def Plan.routers (p : Plan) : List (String × Json) :=
  (p.marker ++ "-generation",
    .object [("rule", .string "Path(`/_nerocd/proxy-generation`)"), ("entryPoints", textArray ["traefik"]),
      ("service", .string "noop@internal"), ("middlewares", textArray [p.marker])]) ::
    p.routes.flatMap fun r => [p.router r false, p.router r true]

def Plan.middlewares (p : Plan) : List (String × Json) :=
  (p.marker, markerHeaders [("X-NeroCD-Proxy-Generation", p.hash)]) ::
    p.routes.map fun r =>
      (p.routeName r, markerHeaders [("X-NeroCD-Proxy-Generation", p.hash), ("X-NeroCD-Proxy-Route", r.id)])

def Plan.serversTransports (p : Plan) : Json :=
  .object [(p.transportName, .object [("maxIdleConnsPerHost", .number loopbackMaxIdleConnsPerHost),
    ("forwardingTimeouts", textObject [("idleConnTimeout", loopbackIdleConnTimeout)])])]

-- Traefik rejects an empty services element, so a generation without routes has none.
def Plan.dynamic (p : Plan) : Json :=
  .object [("http", .object ([("routers", .object p.routers), ("middlewares", .object p.middlewares)] ++
    if p.routes.isEmpty then []
    else [("services", .object (p.routes.map p.service))] ++
      if p.transportPolicy = 1 then [("serversTransports", p.serversTransports)] else []))]

theorem dynamic_congr {p q : Plan} (hGeneration : p.generation = q.generation) (hHash : p.hash = q.hash)
    (hRoutes : p.routes = q.routes) (hTransport : p.transportPolicy = q.transportPolicy) :
    p.dynamic = q.dynamic := by
  cases p
  cases q
  simp only at hGeneration hHash hRoutes hTransport
  subst hGeneration hHash hRoutes hTransport
  rfl

end Configuration

section Facts

variable {digest : Digest} {email : EmailCheck}

structure WellFormed (digest : Digest) (p : Plan) : Prop where
  newer : p.previous < p.generation
  hashed : p.hash = rehashed digest p
  policy : p.transportPolicy ≤ 1

theorem rehash_hashed (p : Plan) : (rehash digest p).hash = rehashed digest (rehash digest p) := rfl

theorem prepare_wellFormed {i : Identity} {s : Settings} {generation previous : Nat} {routes : List Route}
    {p : Plan} (h : prepare digest email i s generation previous routes = .ok p) : WellFormed digest p := by
  simp only [prepare, bind_eq_ok, exists_unit, refuse_eq_ok, pure_eq_ok] at h
  obtain ⟨-, -, -, hGeneration, -, rfl⟩ := h
  simp only [Bool.or_eq_false_iff, decide_eq_false_iff_not, Nat.not_le] at hGeneration
  exact ⟨hGeneration.1.2, rehash_hashed _, Nat.le_refl 1⟩

theorem Prepared.wellFormed {p : Plan} (h : Prepared digest email p) : WellFormed digest p := by
  induction h with
  | plain h => exact prepare_wellFormed h
  | verified h =>
    simp only [prepareVerifiedSwitch, bind_eq_ok, exists_unit, refuse_eq_ok, pure_eq_ok] at h
    obtain ⟨q, hq, -, -, rfl⟩ := h
    exact ⟨(prepare_wellFormed hq).newer, rehash_hashed _, (prepare_wellFormed hq).policy⟩
  | @recorded _ _ _ _ h ih =>
    simp only [matchRecordedHash, bind_eq_ok, exists_unit, refuse_eq_ok] at h
    split at h
    · simp only [pure_eq_ok] at h
      exact h.2 ▸ ih
    · simp only [bind_eq_ok, exists_unit, refuse_eq_ok, pure_eq_ok] at h
      obtain ⟨-, -, rfl⟩ := h
      exact ⟨ih.newer, rehash_hashed _, Nat.zero_le 1⟩

theorem rehashed_inj (hDigest : Function.Injective digest) {p q : Plan} (hp : p.transportPolicy ≤ 1)
    (hq : q.transportPolicy ≤ 1) (h : rehashed digest p = rehashed digest q) :
    p.generation = q.generation ∧ p.routes = q.routes ∧ p.transportPolicy = q.transportPolicy ∧
      p.verification = q.verification := by
  have hTransport : transportHash digest p = transportHash digest q →
      p.generation = q.generation ∧ p.routes = q.routes ∧ p.transportPolicy = q.transportPolicy := by
    intro hEq
    unfold transportHash at hEq
    split at hEq <;> split at hEq
    · rename_i hp1 hq1
      have hPlan := hDigest hEq
      simp only [DigestInput.transport.injEq, and_true] at hPlan
      have hInputs := hDigest hPlan
      simp only [DigestInput.plan.injEq] at hInputs
      exact ⟨hInputs.2.1, hInputs.2.2.2, hp1.trans hq1.symm⟩
    · exact absurd (hDigest hEq) (by simp)
    · exact absurd (hDigest hEq) (by simp)
    · have hInputs := hDigest hEq
      simp only [DigestInput.plan.injEq] at hInputs
      exact ⟨hInputs.2.1, hInputs.2.2.2, by omega⟩
  have hPlain : ∀ (r : Plan) (h' : String) (policy : VerificationPolicy),
      transportHash digest r ≠ digest (.verification h' policy) := by
    intro r h' policy hEq
    unfold transportHash at hEq
    split at hEq
    · exact absurd (hDigest hEq) (by simp)
    · exact absurd (hDigest hEq) (by simp)
  unfold rehashed at h
  split at h <;> split at h
  · rename_i hpNone _ hqNone
    obtain ⟨hGeneration, hRoutes, hPolicy⟩ := hTransport h
    exact ⟨hGeneration, hRoutes, hPolicy, hpNone.trans hqNone.symm⟩
  · exact absurd h (hPlain _ _ _)
  · exact absurd h.symm (hPlain _ _ _)
  · rename_i hpSome _ _ hqSome
    have hInputs := hDigest h
    simp only [DigestInput.verification.injEq] at hInputs
    obtain ⟨hGeneration, hRoutes, hPolicy⟩ := hTransport hInputs.1
    exact ⟨hGeneration, hRoutes, hPolicy, by rw [hpSome, hqSome, hInputs.2]⟩

theorem WellFormed.dynamic_eq (hDigest : Function.Injective digest) {p q : Plan} (hp : WellFormed digest p)
    (hq : WellFormed digest q) (h : p.hash = q.hash) : p.dynamic = q.dynamic := by
  obtain ⟨hGeneration, hRoutes, hPolicy, -⟩ := rehashed_inj hDigest hp.policy hq.policy
    (hp.hashed ▸ hq.hashed ▸ h)
  exact dynamic_congr hGeneration h hRoutes hPolicy

end Facts

end NeroCD.Proxy
