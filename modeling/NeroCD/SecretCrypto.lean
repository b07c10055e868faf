import Mathlib.Tactic.Linarith
import NeroCD.GoStrings

-- Secret envelopes (`secretcrypto/secretcrypto.go`). AES-256-GCM is a parameter.

namespace NeroCD.SecretCrypto

section BigEndian

def bigEndian : Nat → Nat → Bytes
  | 0, _ => []
  | width + 1, n => bigEndian width (n / 256) ++ [UInt8.ofNat n]

theorem bigEndian_length (width n : Nat) : (bigEndian width n).length = width := by
  induction width generalizing n with
  | zero => rfl
  | succ _ ih => rw [bigEndian, List.length_append, ih, List.length_singleton]

theorem bigEndian_inj {width m n : Nat} (hm : m < 256 ^ width) (hn : n < 256 ^ width)
    (h : bigEndian width m = bigEndian width n) : m = n := by
  induction width generalizing m n with
  | zero => omega
  | succ _ ih =>
    rw [Nat.pow_succ] at hm hn
    obtain ⟨hHigh, hLow⟩ := List.append_inj' h rfl
    have hQuotient : m / 256 = n / 256 := ih (by omega) (by omega) hHigh
    have hRemainder : m % 256 = n % 256 := by
      simpa using congrArg UInt8.toNat (List.cons.inj hLow).1
    omega

-- `binary.BigEndian.AppendUint32` of the length, then the bytes.
def lengthPrefixed (value : Bytes) : Bytes := bigEndian 4 (value.length % 2 ^ 32) ++ value

theorem lengthPrefixed_inj {v w rest rest' : Bytes} (hv : v.length < 2 ^ 32) (hw : w.length < 2 ^ 32)
    (h : lengthPrefixed v ++ rest = lengthPrefixed w ++ rest') : v = w ∧ rest = rest' := by
  simp only [lengthPrefixed, List.append_assoc, Nat.mod_eq_of_lt hv, Nat.mod_eq_of_lt hw] at h
  obtain ⟨hLength, hRest⟩ := List.append_inj h (by rw [bigEndian_length, bigEndian_length])
  exact List.append_inj hRest (bigEndian_inj (by omega) (by omega) hLength)

end BigEndian

@[ext]
structure Binding where
  projectID : Bytes
  secretID : Bytes
  version : Int64
deriving DecidableEq

structure Envelope where
  version : Int
  keyID : Bytes
  data : Bytes

inductive CryptoError where
  | invalidInput
  | decrypt
deriving DecidableEq

def associatedDataDomain : Bytes := "nerocd/secretcrypto/aes-256-gcm".toUTF8.toList
def envelopeVersion : Int := 1
def maxKeyCount : Nat := 32
def maxKeyIDBytes : Nat := 128
def maxBindingIDBytes : Nat := 256
def maxPlaintextBytes : Nat := 65536
def randomNonceOverhead : Nat := 12 + 16

def validBindingID (value : Bytes) : Bool := 0 < value.length && value.length ≤ maxBindingIDBytes

def validBinding (binding : Binding) : Bool :=
  validBindingID binding.projectID && validBindingID binding.secretID && decide (0 < binding.version)

def keyIDByte (b : UInt8) : Bool :=
  (97 ≤ b && b ≤ 122) || (65 ≤ b && b ≤ 90) || (48 ≤ b && b ≤ 57) || b == 46 || b == 95 || b == 45

def validKeyID (value : Bytes) : Bool :=
  0 < value.length && value.length ≤ maxKeyIDBytes && value.all keyIDByte

def associatedData (version : Int) (keyID : Bytes) (binding : Binding) : Bytes :=
  associatedDataDomain ++ 0 :: bigEndian 4 (version % 2 ^ 32).toNat ++ lengthPrefixed keyID ++
    lengthPrefixed binding.projectID ++ lengthPrefixed binding.secretID ++ bigEndian 8 binding.version.toUInt64.toNat

-- `cipher.NewGCMWithRandomNonce`: `seals key nonce plaintext associated` with the nonce that was drawn, and
-- `opens key data associated`.
structure Gcm where
  seals : Bytes → Bytes → Bytes → Bytes → Bytes
  opens : Bytes → Bytes → Bytes → Option Bytes

-- One sealed text: its overhead, that it opens, and that it opens only under its own key and associated data.
structure Gcm.Binds (gcm : Gcm) (key nonce plaintext associated : Bytes) : Prop where
  overhead : (gcm.seals key nonce plaintext associated).length = plaintext.length + randomNonceOverhead
  opened : gcm.opens key (gcm.seals key nonce plaintext associated) associated = some plaintext
  only : ∀ key' associated' text, gcm.opens key' (gcm.seals key nonce plaintext associated) associated' = some text →
    key' = key ∧ associated' = associated

-- What `New` accepts: the map of keys by their ID.
structure Keyring where
  activeKeyID : Bytes
  keys : List (Bytes × Bytes)
  active : validKeyID activeKeyID = true
  count : 0 < keys.length ∧ keys.length ≤ maxKeyCount
  each : ∀ entry ∈ keys, validKeyID entry.1 = true ∧ entry.2.length = 32
  held : (keys.lookup activeKeyID).isSome = true

def new (activeKeyID : Bytes) (keys : List (Bytes × Bytes)) : Except CryptoError Keyring :=
  if h : validKeyID activeKeyID = true ∧ (0 < keys.length ∧ keys.length ≤ maxKeyCount) ∧
      (∀ entry ∈ keys, validKeyID entry.1 = true ∧ entry.2.length = 32) ∧
      (keys.lookup activeKeyID).isSome = true then
    .ok ⟨activeKeyID, keys, h.1, h.2.1, h.2.2.1, h.2.2.2⟩
  else .error .invalidInput

section Envelopes

variable (gcm : Gcm)

-- A ring of `none` is the nil receiver.
def sealSecret (ring : Option Keyring) (nonce : Bytes) (binding : Binding) (plaintext : Bytes) :
    Except CryptoError Envelope :=
  match ring with
  | none => .error .invalidInput
  | some ring =>
    if !validBinding binding || plaintext.length == 0 || plaintext.length > maxPlaintextBytes then
      .error .invalidInput
    else
      match ring.keys.lookup ring.activeKeyID with
      | none => .error .invalidInput
      | some key =>
        .ok ⟨envelopeVersion, ring.activeKeyID,
          gcm.seals key nonce plaintext (associatedData envelopeVersion ring.activeKeyID binding)⟩

def openSecret (ring : Option Keyring) (binding : Binding) (envelope : Envelope) : Except CryptoError Bytes :=
  match ring with
  | none => .error .invalidInput
  | some ring =>
    if !validBinding binding || envelope.version != envelopeVersion || !validKeyID envelope.keyID ||
        envelope.data.length < randomNonceOverhead + 1 ||
        envelope.data.length > maxPlaintextBytes + randomNonceOverhead then
      .error .invalidInput
    else
      match ring.keys.lookup envelope.keyID with
      | none => .error .decrypt
      | some key =>
        match gcm.opens key envelope.data (associatedData envelope.version envelope.keyID binding) with
        | none => .error .decrypt
        | some plaintext =>
          if plaintext.length == 0 || plaintext.length > maxPlaintextBytes then .error .decrypt
          else .ok plaintext

theorem associatedData_inj {version : Int} {keyID keyID' : Bytes} {b c : Binding} (hk : validKeyID keyID = true)
    (hk' : validKeyID keyID' = true) (hb : validBinding b = true) (hc : validBinding c = true)
    (h : associatedData version keyID b = associatedData version keyID' c) : keyID = keyID' ∧ b = c := by
  have hKeyBound : maxKeyIDBytes < 2 ^ 32 := by decide
  have hBindingBound : maxBindingIDBytes < 2 ^ 32 := by decide
  simp only [validKeyID, validBinding, validBindingID, Bool.and_eq_true, decide_eq_true_eq] at hk hk' hb hc
  simp only [associatedData, List.append_assoc, List.cons_append, List.append_cancel_left_eq, List.cons.injEq,
    true_and] at h
  obtain ⟨hKey, hBinding⟩ := lengthPrefixed_inj (by omega) (by omega) h
  obtain ⟨hProject, hRest⟩ := lengthPrefixed_inj (by omega) (by omega) hBinding
  obtain ⟨hSecret, hLast⟩ := lengthPrefixed_inj (by omega) (by omega) hRest
  have hVersion := bigEndian_inj b.version.toUInt64.toNat_lt c.version.toUInt64.toNat_lt hLast
  exact ⟨hKey, Binding.ext hProject hSecret (congrArg UInt64.toInt64 (UInt64.toNat_inj.mp hVersion))⟩

variable {gcm}

theorem sealSecret_eq_ok {ring : Option Keyring} {nonce plaintext : Bytes} {b : Binding} {envelope : Envelope}
    (h : sealSecret gcm ring nonce b plaintext = .ok envelope) :
    ∃ held key, ring = some held ∧ held.keys.lookup held.activeKeyID = some key ∧ validBinding b = true ∧
      0 < plaintext.length ∧ plaintext.length ≤ maxPlaintextBytes ∧
      envelope = ⟨envelopeVersion, held.activeKeyID,
        gcm.seals key nonce plaintext (associatedData envelopeVersion held.activeKeyID b)⟩ := by
  unfold sealSecret at h
  split at h
  · cases h
  · rename_i held
    split at h
    · cases h
    · rename_i hInput
      simp only [Bool.or_eq_true, Bool.not_eq_true', beq_iff_eq, decide_eq_true_iff, not_or, Bool.not_eq_false]
        at hInput
      split at h
      · cases h
      · rename_i key hKey
        exact ⟨held, key, rfl, hKey, hInput.1.1, Nat.pos_of_ne_zero hInput.1.2, Nat.le_of_not_lt hInput.2,
          (Except.ok.inj h).symm⟩

theorem openSecret_eq_ok {held : Keyring} {c : Binding} {envelope : Envelope} {text : Bytes}
    (h : openSecret gcm (some held) c envelope = .ok text) :
    ∃ key, held.keys.lookup envelope.keyID = some key ∧ validBinding c = true ∧
      gcm.opens key envelope.data (associatedData envelope.version envelope.keyID c) = some text := by
  simp only [openSecret] at h
  split at h
  · cases h
  · rename_i hInput
    simp only [Bool.or_eq_true, Bool.not_eq_true', not_or, Bool.not_eq_false] at hInput
    split at h
    · cases h
    · rename_i key hKey
      split at h
      · cases h
      · rename_i plaintext hOpen
        split at h
        · cases h
        · exact ⟨key, hKey, hInput.1.1.1.1, Except.ok.inj h ▸ hOpen⟩

theorem openSecret_envelope {held ring : Keyring} {key nonce plaintext : Bytes} {b : Binding}
    (hb : validBinding b = true) (hSome : 0 < plaintext.length) (hMost : plaintext.length ≤ maxPlaintextBytes)
    (hBinds : gcm.Binds key nonce plaintext (associatedData envelopeVersion held.activeKeyID b)) :
    openSecret gcm (some ring) b ⟨envelopeVersion, held.activeKeyID,
      gcm.seals key nonce plaintext (associatedData envelopeVersion held.activeKeyID b)⟩ =
      if ring.keys.lookup held.activeKeyID = some key then .ok plaintext else .error .decrypt := by
  have hLow : ¬plaintext.length + randomNonceOverhead < randomNonceOverhead + 1 := by omega
  have hHigh : ¬maxPlaintextBytes + randomNonceOverhead < plaintext.length + randomNonceOverhead := by omega
  have hLong : ¬maxPlaintextBytes < plaintext.length := by omega
  have hNil : plaintext ≠ [] := List.ne_nil_of_length_pos hSome
  cases hFound : ring.keys.lookup held.activeKeyID with
  | none => simp [openSecret, hb, held.active, hBinds.overhead, hLow, hHigh, hFound]
  | some found =>
    by_cases hSame : found = key
    · simp [openSecret, hb, held.active, hBinds.overhead, hBinds.opened, hLow, hHigh, hLong, hNil, hFound, hSame]
    · -- under another key the text does not authenticate
      have hRefused : gcm.opens found (gcm.seals key nonce plaintext (associatedData envelopeVersion held.activeKeyID b))
          (associatedData envelopeVersion held.activeKeyID b) = none :=
        Option.eq_none_iff_forall_ne_some.mpr fun text hText => hSame (hBinds.only _ _ _ hText).1
      simp [openSecret, hb, held.active, hBinds.overhead, hLow, hHigh, hFound, hSame, hRefused]

theorem openSecret_sealed {held : Keyring} {key nonce plaintext : Bytes} {b : Binding}
    (hKey : held.keys.lookup held.activeKeyID = some key) (hb : validBinding b = true) (hSome : 0 < plaintext.length)
    (hMost : plaintext.length ≤ maxPlaintextBytes)
    (hBinds : gcm.Binds key nonce plaintext (associatedData envelopeVersion held.activeKeyID b)) :
    openSecret gcm (some held) b ⟨envelopeVersion, held.activeKeyID,
      gcm.seals key nonce plaintext (associatedData envelopeVersion held.activeKeyID b)⟩ = .ok plaintext := by
  rw [openSecret_envelope hb hSome hMost hBinds, if_pos hKey]

end Envelopes

-- The associated data tells key IDs and bindings apart, and so an envelope opens under its own binding only, where it
-- gives back the text that was sealed.
theorem envelope_bound_to_owner (gcm : Gcm) :
    (∀ version keyID keyID' b c, validKeyID keyID = true → validKeyID keyID' = true → validBinding b = true →
      validBinding c = true → associatedData version keyID b = associatedData version keyID' c →
      keyID = keyID' ∧ b = c) ∧
    ∀ (ring : Option Keyring) (nonce : Bytes) (b c : Binding) (plaintext : Bytes) (envelope : Envelope),
      (∀ held key, ring = some held → held.keys.lookup held.activeKeyID = some key →
        gcm.Binds key nonce plaintext (associatedData envelopeVersion held.activeKeyID b)) →
      sealSecret gcm ring nonce b plaintext = .ok envelope →
      (∀ text, openSecret gcm ring c envelope = .ok text → c = b ∧ text = plaintext) ∧
      openSecret gcm ring b envelope = .ok plaintext := by
  refine ⟨fun version keyID keyID' b c => associatedData_inj, ?_⟩
  intro ring nonce b c plaintext envelope hGcm hSeal
  obtain ⟨held, key, rfl, hKey, hb, hSome, hMost, rfl⟩ := sealSecret_eq_ok hSeal
  have hBinds := hGcm held key rfl hKey
  refine ⟨fun text hOpen => ?_, openSecret_sealed hKey hb hSome hMost hBinds⟩
  obtain ⟨found, hFound, hc, hText⟩ := openSecret_eq_ok hOpen
  obtain rfl : key = found := Option.some.inj (hKey.symm.trans hFound)
  have hSame := (hBinds.only _ _ _ hText).2
  refine ⟨(associatedData_inj held.active held.active hc hb hSame).2, ?_⟩
  exact Option.some.inj (hText.symm.trans (hSame ▸ hBinds.opened))

-- Whatever became of the ring, an envelope opens exactly if the key that sealed it is still held under its ID.
theorem rotated_open (gcm : Gcm) (held ring : Keyring) (nonce : Bytes) (b : Binding) (plaintext : Bytes)
    (envelope : Envelope) (hGcm : ∀ key, held.keys.lookup held.activeKeyID = some key →
      gcm.Binds key nonce plaintext (associatedData envelopeVersion held.activeKeyID b))
    (hSeal : sealSecret gcm (some held) nonce b plaintext = .ok envelope) :
    openSecret gcm (some ring) b envelope =
      if ring.keys.lookup held.activeKeyID = held.keys.lookup held.activeKeyID then .ok plaintext
      else .error .decrypt := by
  obtain ⟨_, key, ⟨rfl⟩, hKey, hb, hSome, hMost, rfl⟩ := sealSecret_eq_ok hSeal
  rw [openSecret_envelope hb hSome hMost (hGcm key hKey), hKey]

section Sample

def sampleKey : Bytes := List.replicate 32 7
def sampleNonce : Bytes := List.replicate 12 3
def sampleBinding : Binding := ⟨[112], [115], 1⟩

-- What AES-256-GCM makes of the byte `v` under the sample's key, nonce and associated data.
def sampleData : Bytes :=
  sampleNonce ++ [83, 91, 199, 197, 192, 202, 96, 92, 84, 158, 68, 241, 183, 60, 89, 48, 229]

def sampleGcm : Gcm where
  seals _ _ _ _ := sampleData
  opens key data associated :=
    if key = sampleKey ∧ data = sampleData ∧ associated = associatedData envelopeVersion [107] sampleBinding then
      some [118]
    else none

def sampleRing : Keyring where
  activeKeyID := [107]
  keys := [([107], sampleKey)]
  active := by decide
  count := by decide
  each := by decide
  held := by decide

theorem sample_envelope :
    openSecret sampleGcm (some sampleRing) sampleBinding ⟨1, [107], sampleData⟩ = .ok [118] := by
  refine ((envelope_bound_to_owner sampleGcm).2 (some sampleRing) sampleNonce sampleBinding sampleBinding [118]
    ⟨1, [107], sampleData⟩ ?_ rfl).2
  rintro held key ⟨rfl⟩ ⟨rfl⟩
  refine ⟨rfl, by decide +kernel, fun key' associated' text hOpen => ?_⟩
  simp only [sampleGcm] at hOpen
  split at hOpen
  · rename_i hSame
    exact ⟨hSame.1, hSame.2.2⟩
  · cases hOpen

def rotatedRing : Keyring where
  activeKeyID := [108]
  keys := [([108], List.replicate 32 9), ([107], sampleKey)]
  active := by decide
  count := by decide
  each := by decide
  held := by decide

theorem sample_rotated :
    openSecret sampleGcm (some rotatedRing) sampleBinding ⟨1, [107], sampleData⟩ = .ok [118] := by
  refine (rotated_open sampleGcm sampleRing rotatedRing sampleNonce sampleBinding [118] ⟨1, [107], sampleData⟩ ?_
    rfl).trans (if_pos rfl)
  rintro key ⟨rfl⟩
  refine ⟨rfl, by decide +kernel, fun key' associated' text hOpen => ?_⟩
  simp only [sampleGcm, Option.ite_none_right_eq_some] at hOpen
  exact ⟨hOpen.1.1, hOpen.1.2.2⟩

end Sample

end NeroCD.SecretCrypto
