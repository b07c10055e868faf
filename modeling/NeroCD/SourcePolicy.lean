import NeroCD.Checks
import NeroCD.GoStrings

-- Admission of repository URLs (`source/policy.go`). `url.Parse`, `netip.ParsePrefix` and `strings.ToLower` are
-- given functions.

namespace NeroCD.SourcePolicy

open NeroCD.Checks NeroCD.GoStrings

structure RepositoryPolicy where
  version : Int
  state : String
  mode : String
  allowedSchemes : List String
  allowedHosts : List String
  allowedCIDRs : List String := []
  redirectHosts : List String := []
  sshHostFingerprints : List String := []
  credentialReferenceID : String := ""
  allowInternal : Bool := false

-- A user without a password has `none` there.
structure UserInfo where
  username : String
  password : Option String
  deriving DecidableEq

structure URL where
  scheme : String
  opaqueText : String := ""
  user : Option UserInfo := none
  hostname : String
  rawQuery : String := ""
  forceQuery : Bool := false
  fragment : String := ""
  deriving DecidableEq

structure Library where
  parse : String → Option URL
  isCIDR : String → Bool
  toLower : String → String

variable (lib : Library) (p : RepositoryPolicy)

-- `strings.TrimSuffix(text, ".")`.
def trimDot (text : String) : String :=
  if text.toList.getLast? = some '.' then String.ofList text.toList.dropLast else text

def normalizedSchemes : List String :=
  (if p.allowedSchemes.isEmpty then ["https"] else p.allowedSchemes).map fun scheme => lib.toLower (trimSpace scheme)

def validatePolicy : Except String Unit := do
  refuse (p.version != 1 || p.state != "configured") "repository policy must be configured version 1"
  refuse (p.mode != "public" && p.mode != "internal") "repository policy mode must be public or internal"
  refuse (p.allowedSchemes.length == 0 || 2 < p.allowedSchemes.length || p.allowedHosts.length == 0 ||
    32 < p.allowedHosts.length || 32 < p.allowedCIDRs.length || 32 < p.redirectHosts.length ||
    32 < p.sshHostFingerprints.length) "repository policy bounds are invalid"
  refuse (p.mode == "public" && (p.allowInternal || 0 < p.allowedCIDRs.length))
    "public repository policy cannot allow internal addresses"
  forEach (fun scheme => refuse (scheme != "https" && scheme != "ssh" &&
    (scheme != "http" || p.mode != "internal" || !p.allowInternal)) "repository policy has unsupported scheme")
    (normalizedSchemes lib p)
  refuse ((normalizedSchemes lib p).contains "ssh" && p.sshHostFingerprints.length == 0)
    "repository SSH policy requires host fingerprints"
  forEach (fun host => refuse (trimSpace host == "" || containsAny host ['/', '\\', '@', ':', '\x00'])
    "repository policy host is invalid") (p.allowedHosts ++ p.redirectHosts)
  forEach (fun cidr => refuse (!lib.isCIDR (trimSpace cidr)) "repository policy CIDR is invalid") p.allowedCIDRs
  forEach (fun fingerprint => refuse (!hasPrefix fingerprint "SHA256:" || (trimSpace fingerprint).utf8ByteSize < 16)
    "repository SSH fingerprint is invalid") p.sshHostFingerprints
  refuse (containsAny p.credentialReferenceID ['\x00', '\r', '\n']) "repository credential reference is invalid"

def validSSHUser (value : String) : Bool :=
  value != "" && value.utf8ByteSize ≤ 64 && !hasPrefix value "-" &&
    value.toList.all fun c => c.isAlphanum || c == '_' || c == '-'

def normalHost (host : String) : String := lib.toLower (trimDot (trimSpace host))

def matchesHost (host : String) (allowed : List String) : Bool :=
  allowed.isEmpty || allowed.any fun entry =>
    let item := normalHost lib entry
    item != "" && (normalHost lib host == item || (hasPrefix item "." && hasSuffix (normalHost lib host) item))

def validateURL (raw : String) (redirect : Bool) : Except String URL := do
  validatePolicy lib p
  match lib.parse (trimSpace raw) with
  | none => .error "repository URL is invalid"
  | some u =>
    refuse (u.hostname == "") "repository URL is invalid"
    refuse (u.opaqueText != "" || u.rawQuery != "" || u.forceQuery || u.fragment != "")
      "repository URL contains unsupported components"
    let scheme := lib.toLower u.scheme
    refuse (u.user.any fun user => user.password.isSome || scheme != "ssh" || !validSSHUser user.username)
      "repository URL credentials are not permitted"
    refuse (scheme == "" || !(normalizedSchemes lib p).contains scheme ||
      (scheme != "https" && scheme != "ssh" && (scheme != "http" || !p.allowInternal)))
      "repository URL scheme is not permitted"
    refuse (redirect && !matchesHost lib u.hostname p.redirectHosts && !matchesHost lib u.hostname p.allowedHosts)
      "repository redirect host is not permitted"
    refuse (!redirect && !matchesHost lib u.hostname p.allowedHosts && 0 < p.allowedHosts.length)
      "repository host is not permitted"
    .ok u

def Matches (host : String) (entries : List String) : Prop :=
  ∃ entry ∈ entries, normalHost lib host = normalHost lib entry ∨
    (['.'] <+: (normalHost lib entry).toList ∧ (normalHost lib entry).toList <:+ (normalHost lib host).toList)

variable {lib} {p}

-- An empty list matches every host, so a list has to have entries before a match says anything.
theorem matchesHost_matches {host : String} {entries : List String} (hSome : entries ≠ [])
    (h : matchesHost lib host entries = true) : Matches lib host entries := by
  simp only [matchesHost, Bool.or_eq_true, List.isEmpty_iff, hSome, false_or, List.any_eq_true, Bool.and_eq_true,
    beq_iff_eq, hasPrefix, hasSuffix, List.isPrefixOf_iff_prefix, List.isSuffixOf_iff_suffix] at h
  obtain ⟨entry, hEntry, -, hMatch⟩ := h
  exact ⟨entry, hEntry, hMatch⟩

theorem allowedHosts_ne_nil (h : validatePolicy lib p = .ok ()) : p.allowedHosts ≠ [] := by
  simp only [validatePolicy, bind_eq_ok, exists_unit, refuse_eq_ok, Bool.or_eq_false_iff, beq_eq_false_iff_ne] at h
  obtain ⟨-, -, ⟨⟨⟨⟨⟨⟨-, -⟩, hHosts⟩, -⟩, -⟩, -⟩, -⟩, -⟩ := h
  exact fun hNil => hHosts (by simp [hNil])

theorem validateURL_host {raw : String} {redirect : Bool} {u : URL} (h : validateURL lib p raw redirect = .ok u) :
    validatePolicy lib p = .ok () ∧ (matchesHost lib u.hostname p.allowedHosts = true ∨
      redirect = true ∧ matchesHost lib u.hostname p.redirectHosts = true) := by
  simp only [validateURL, bind_eq_ok, exists_unit] at h
  obtain ⟨hPolicy, h⟩ := h
  have hLength : 0 < p.allowedHosts.length := List.length_pos_iff.mpr (allowedHosts_ne_nil hPolicy)
  refine ⟨hPolicy, ?_⟩
  split at h
  · cases h
  · simp only [bind_eq_ok, exists_unit, refuse_eq_ok, Except.ok.injEq] at h
    obtain ⟨-, -, -, -, hRedirect, hFirst, hURL⟩ := h
    rw [hURL] at hRedirect hFirst
    cases redirect with
    | false => exact .inl (by simpa [hLength] using hFirst)
    | true =>
      by_cases hListed : matchesHost lib u.hostname p.redirectHosts = true
      · exact .inr ⟨rfl, hListed⟩
      · exact .inl (by simpa [hListed] using hRedirect)

-- An accepted URL goes to a host that the policy names, unless it is a redirect, the policy lists no hosts for
-- redirects and the host is not an allowed one.
theorem accepted_host_listed (raw : String) (redirect : Bool) (u : URL) (h : validateURL lib p raw redirect = .ok u) :
    (Matches lib u.hostname p.allowedHosts ∨ redirect = true ∧ Matches lib u.hostname p.redirectHosts) ↔
      (redirect = true → p.redirectHosts = [] → Matches lib u.hostname p.allowedHosts) := by
  obtain ⟨hPolicy, hHost⟩ := validateURL_host h
  constructor
  · rintro (hAllowed | ⟨-, entry, hEntry, -⟩) _ hNil
    · exact hAllowed
    · exact absurd (hNil ▸ hEntry) List.not_mem_nil
  · intro hListed
    obtain hMatch | ⟨hRedirect, hMatch⟩ := hHost
    · exact .inl (matchesHost_matches (allowedHosts_ne_nil hPolicy) hMatch)
    · by_cases hNil : p.redirectHosts = []
      · exact .inl (hListed hRedirect hNil)
      · exact .inr ⟨hRedirect, matchesHost_matches hNil hMatch⟩

def sampleLibrary : Library where
  parse raw :=
    if raw = "https://git.example.com/app.git" then some { scheme := "https", hostname := "git.example.com" }
    else if raw = "https://elsewhere.test/app.git" then some { scheme := "https", hostname := "elsewhere.test" }
    else none
  isCIDR _ := false
  toLower text := text.map Char.toLower

def samplePolicy (redirectHosts : List String) : RepositoryPolicy where
  version := 1
  state := "configured"
  mode := "public"
  allowedSchemes := ["https"]
  allowedHosts := [".example.com"]
  redirectHosts := redirectHosts

theorem redirect_listed :
    validateURL sampleLibrary (samplePolicy ["cdn.example.net"]) "https://git.example.com/app.git" true =
      .ok { scheme := "https", hostname := "git.example.com" } ∧
    (Matches sampleLibrary "git.example.com" [".example.com"] ∨
      true = true ∧ Matches sampleLibrary "git.example.com" ["cdn.example.net"]) := by
  have h : validateURL sampleLibrary (samplePolicy ["cdn.example.net"]) "https://git.example.com/app.git" true =
      .ok { scheme := "https", hostname := "git.example.com" } := by decide +kernel
  exact ⟨h, (accepted_host_listed _ true _ h).mpr fun _ hNil => absurd hNil (List.cons_ne_nil _ _)⟩

-- Without hosts for redirects every host is accepted as one.
theorem redirect_anywhere :
    validateURL sampleLibrary (samplePolicy []) "https://elsewhere.test/app.git" true =
      .ok { scheme := "https", hostname := "elsewhere.test" } ∧
    ¬(Matches sampleLibrary "elsewhere.test" (samplePolicy []).allowedHosts ∨
      Matches sampleLibrary "elsewhere.test" (samplePolicy []).redirectHosts) := by
  refine ⟨by decide +kernel, ?_⟩
  simp only [Matches, samplePolicy, List.not_mem_nil, false_and, exists_false, or_false, List.mem_singleton]
  rintro ⟨-, rfl, h⟩
  revert h
  decide +kernel

end NeroCD.SourcePolicy
