import NeroCD.HostingProxy.Agreement
import NeroCD.Proxy.Routing

-- Delegated hostnames: which names a grant authorises, and when two grants overlap (`domain/hosting_proxy.go`).

namespace NeroCD.HostingProxy

open NeroCD.Checks NeroCD.GoStrings
open NeroCD.Proxy (hostChar hostLabel hostPattern mem_splitOn)

def hostnameGranted (grant : String) (wildcard : Bool) (hostname : String) : Bool :=
  if wildcard then hasSuffix hostname ("." ++ grant) else hostname == grant

def grantsOverlap (a : String) (aw : Bool) (b : String) (bw : Bool) : Bool :=
  a == b || (aw && hostnameGranted a true b) || (bw && hostnameGranted b true a)

structure CanonicalName (lib : Library) (host : String) : Prop where
  trimmed : trimSpace host = host
  undotted : host.toList.getLast? ≠ some '.'
  looked : lib.lookup host = some host
  form : proxyHostname host = true

variable {host a b : String} {aw bw : Bool}

theorem canonicalName {lib : Library} (h : canonicalHostname lib host = true) : CanonicalName lib host := by
  unfold canonicalHostname at h
  split at h
  · rename_i found hNormal
    obtain rfl : found = host := by simpa using h
    simp only [normalizeHostname, bind_eq_ok, exists_unit, refuse_eq_ok, Bool.or_eq_false_iff, bne_eq_false_iff_eq,
      beq_eq_false_iff_ne] at hNormal
    obtain ⟨⟨hTrim, hDot⟩, hLookup⟩ := hNormal
    split at hLookup
    · cases hLookup
    · rename_i host hFound
      simp only [bind_eq_ok, exists_unit, refuse_eq_ok, pure_eq_ok, Bool.or_eq_false_iff, Bool.not_eq_false']
        at hLookup
      obtain ⟨⟨-, hForm⟩, rfl⟩ := hLookup
      exact ⟨hTrim.symm, hDot, hFound, hForm⟩
  · cases h

theorem granted_wildcard {grant : String} :
    hostnameGranted grant true host = true ↔ '.' :: grant.toList <:+ host.toList := by
  simp only [hostnameGranted, if_true, hasSuffix, List.isSuffixOf_iff_suffix, String.toList_append]
  rfl

theorem granted_exact {grant : String} : hostnameGranted grant false host = true ↔ host = grant := by
  simp [hostnameGranted]

theorem grantsOverlap_iff :
    grantsOverlap a aw b bw = true ↔ a = b ∨ (aw = true ∧ '.' :: a.toList <:+ b.toList) ∨
      (bw = true ∧ '.' :: b.toList <:+ a.toList) := by
  simp only [grantsOverlap, Bool.or_eq_true, Bool.and_eq_true, beq_iff_eq, granted_wildcard, or_assoc]

theorem grantsOverlap_comm (a : String) (aw : Bool) (b : String) (bw : Bool) :
    grantsOverlap a aw b bw = grantsOverlap b bw a aw := by
  rw [Bool.eq_iff_iff, grantsOverlap_iff, grantsOverlap_iff, eq_comm, or_comm (b := bw = true ∧ _)]

theorem overlap_of_granted (ha : hostnameGranted a aw host = true) (hb : hostnameGranted b bw host = true) :
    grantsOverlap a aw b bw = true := by
  rw [grantsOverlap_iff]
  cases aw with
  | false =>
    obtain rfl := granted_exact.mp ha
    cases bw with
    | false => exact .inl (granted_exact.mp hb)
    | true => exact .inr (.inr ⟨rfl, granted_wildcard.mp hb⟩)
  | true =>
    cases bw with
    | false =>
      obtain rfl := granted_exact.mp hb
      exact .inr (.inl ⟨rfl, granted_wildcard.mp ha⟩)
    | true =>
      cases List.suffix_or_suffix_of_suffix (granted_wildcard.mp ha) (granted_wildcard.mp hb) with
      | inl hSuffix =>
        cases List.suffix_cons_iff.mp hSuffix with
        | inl hEq => exact .inl (String.toList_injective (List.cons.inj hEq).2)
        | inr hBelow => exact .inr (.inl ⟨rfl, hBelow⟩)
      | inr hSuffix =>
        cases List.suffix_cons_iff.mp hSuffix with
        | inl hEq => exact .inl (String.toList_injective (List.cons.inj hEq).2.symm)
        | inr hBelow => exact .inr (.inr ⟨rfl, hBelow⟩)

section Below

def below (host : String) : String := "x." ++ host

theorem below_toList (host : String) : (below host).toList = 'x' :: '.' :: host.toList := by
  simp [below]

theorem granted_below {grant host : String} (h : grant = host ∨ '.' :: grant.toList <:+ host.toList) :
    hostnameGranted grant true (below host) = true := by
  rw [granted_wildcard, below_toList]
  refine .trans ?_ (List.suffix_cons 'x' _)
  cases h with
  | inl hEq => exact hEq ▸ List.suffix_rfl
  | inr hSuffix => exact hSuffix.trans (List.suffix_cons '.' _)

theorem trimSpace_eq_self {s : String} (h : ∀ c ∈ s.toList, isSpace c = false) : trimSpace s = s := by
  have hFront : s.toList.dropWhile isSpace = s.toList :=
    List.dropWhile_eq_self_iff.mpr fun hl => by simp [h _ (List.getElem_mem hl)]
  have hBack : s.toList.reverse.dropWhile isSpace = s.toList.reverse :=
    List.dropWhile_eq_self_iff.mpr fun hl => by
      rw [h _ (List.mem_reverse.mp (List.getElem_mem hl))]
      exact Bool.false_ne_true
  rw [trimSpace, hFront, hBack, List.reverse_reverse, String.ofList_toList]

theorem hostPattern_no_space {host : String} (h : hostPattern host = true) :
    ∀ c ∈ host.toList, isSpace c = false := by
  intro c hc
  by_cases hDot : c = '.'
  · subst hDot
    decide
  · simp only [hostPattern, Bool.and_eq_true, List.all_eq_true] at h
    obtain ⟨label, hLabel, hChar⟩ := mem_splitOn hc hDot
    have hLabel := h.2 label hLabel
    simp only [hostLabel, Bool.and_eq_true, List.all_eq_true] at hLabel
    have hPlain := hLabel.2 c hChar
    have hLower : c.isLower = (c.val ≥ 'a'.val && c.val ≤ 'z'.val) := rfl
    simp only [hostChar, hLower, Char.isDigit, Bool.or_eq_true, Bool.and_eq_true, decide_eq_true_iff,
      beq_iff_eq, ge_iff_le, UInt32.le_iff_toNat_le] at hPlain
    rcases hPlain with (⟨hLow, hHigh⟩ | ⟨hLow, hHigh⟩) | rfl
    · simp [isSpace] at hLow hHigh ⊢
      omega
    · simp [isSpace] at hLow hHigh ⊢
      omega
    · decide

theorem hostPattern_below {host : String} (h : hostPattern host = true) : hostPattern (below host) = true := by
  simp only [hostPattern, below_toList, List.splitOn, List.splitOnP_cons_eq_if_modifyHead] at h ⊢
  rw [Bool.and_eq_true] at h
  have hLabels := of_decide_eq_true h.1
  simp [h.2, hostLabel, hostChar]
  omega

theorem canonicalName_below {lib : Library}
    (hLabels : ∀ host, CanonicalName lib host → lib.lookup (below host) = some (below host)) {host : String}
    (h : CanonicalName lib host) : CanonicalName lib (below host) := by
  have hForm : hostPattern (below host) = true := hostPattern_below h.form
  refine ⟨trimSpace_eq_self (hostPattern_no_space hForm), ?_, hLabels host h, hForm⟩
  have hSome : host.toList ≠ [] := by
    intro hNil
    have hLong := h.form
    simp [proxyHostname, hostPattern, hNil, List.splitOn] at hLong
  rw [below_toList, List.getLast?_cons_cons, List.getLast?_cons_of_ne_nil hSome]
  exact h.undotted

end Below

theorem granted_of_overlap {lib : Library}
    (hLabels : ∀ host, CanonicalName lib host → lib.lookup (below host) = some (below host))
    (ha : CanonicalName lib a) (hb : CanonicalName lib b) (h : grantsOverlap a aw b bw = true) :
    (∃ host, CanonicalName lib host ∧ hostnameGranted a aw host = true ∧ hostnameGranted b bw host = true) ∨
      (a = b ∧ aw ≠ bw) := by
  rcases grantsOverlap_iff.mp h with rfl | ⟨rfl, hBelow⟩ | ⟨rfl, hBelow⟩
  · cases aw <;> cases bw
    · exact .inl ⟨a, ha, granted_exact.mpr rfl, granted_exact.mpr rfl⟩
    · exact .inr ⟨rfl, nofun⟩
    · exact .inr ⟨rfl, nofun⟩
    · exact .inl ⟨below a, canonicalName_below hLabels ha, granted_below (.inl rfl), granted_below (.inl rfl)⟩
  · cases bw with
    | false => exact .inl ⟨b, hb, granted_wildcard.mpr hBelow, granted_exact.mpr rfl⟩
    | true =>
      have hName := canonicalName_below hLabels hb
      exact .inl ⟨below b, hName, granted_below (.inr hBelow), granted_below (.inl rfl)⟩
  · cases aw with
    | false => exact .inl ⟨a, ha, granted_exact.mpr rfl, granted_wildcard.mpr hBelow⟩
    | true =>
      have hName := canonicalName_below hLabels ha
      exact .inl ⟨below a, hName, granted_below (.inl rfl), granted_below (.inr hBelow)⟩

theorem not_granted_both (hExact : hostnameGranted a false host = true) : hostnameGranted a true host = false := by
  rw [granted_exact.mp hExact, Bool.eq_false_iff, ne_eq, granted_wildcard]
  intro hSuffix
  have hLength := hSuffix.length_le
  rw [List.length_cons] at hLength
  omega

-- Grants that authorise one name overlap; and grants that overlap authorise one name, unless one is the wildcard of
-- the other's name.
theorem hostname_delegation (lib : Library)
    (hLabels : ∀ host, CanonicalName lib host → lib.lookup (below host) = some (below host)) (a b : String)
    (aw bw : Bool) (ha : canonicalHostname lib a = true) (hb : canonicalHostname lib b = true) :
    (∀ host, hostnameGranted a aw host = true → hostnameGranted b bw host = true →
      grantsOverlap a aw b bw = true ∧ grantsOverlap b bw a aw = true) ∧
    (grantsOverlap a aw b bw = true → ¬(a = b ∧ aw ≠ bw) →
      ∃ host, CanonicalName lib host ∧ hostnameGranted a aw host = true ∧ hostnameGranted b bw host = true) ∧
    (a = b ∧ aw ≠ bw → grantsOverlap a aw b bw = true ∧
      ¬∃ host, hostnameGranted a aw host = true ∧ hostnameGranted b bw host = true) := by
  refine ⟨fun host hga hgb => ?_, fun hOverlap hNot => ?_, ?_⟩
  · have hOverlap := overlap_of_granted hga hgb
    exact ⟨hOverlap, grantsOverlap_comm a aw b bw ▸ hOverlap⟩
  · exact (granted_of_overlap hLabels (canonicalName ha) (canonicalName hb) hOverlap).resolve_right hNot
  · rintro ⟨rfl, hKinds⟩
    refine ⟨grantsOverlap_iff.mpr (.inl rfl), ?_⟩
    rintro ⟨host, hga, hgb⟩
    cases aw <;> cases bw
    · exact hKinds rfl
    · exact Bool.false_ne_true (not_granted_both hga ▸ hgb)
    · exact Bool.false_ne_true (not_granted_both hgb ▸ hga)
    · exact hKinds rfl

-- Two wildcards, one below the other.
theorem nested_wildcards :
    ∃ host, CanonicalName constantLibrary host ∧ hostnameGranted "example.com" true host = true ∧
      hostnameGranted "apps.example.com" true host = true :=
  (hostname_delegation constantLibrary (fun _ _ => rfl) "example.com" "apps.example.com" true true (by decide +kernel)
    (by decide +kernel)).2.1 (by decide +kernel) (by decide)

end NeroCD.HostingProxy
