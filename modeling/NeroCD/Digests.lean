import Mathlib.Logic.Equiv.List
import Mathlib.Tactic.DeriveCountable

-- Digests: the hash function of `crypto/sha256` on lists of bytes, and functions to texts without collisions, over any
-- countable type and with values of choice at some points.

namespace NeroCD

namespace Sha256

-- First 32 bits of the fractional parts of the square roots of the first 8 primes.
def initialHash : List UInt32 :=
  [0x6a09e667, 0xbb67ae85, 0x3c6ef372, 0xa54ff53a, 0x510e527f, 0x9b05688c, 0x1f83d9ab, 0x5be0cd19]

-- First 32 bits of the fractional parts of the cube roots of the first 64 primes.
def roundConstants : List UInt32 :=
  [0x428a2f98, 0x71374491, 0xb5c0fbcf, 0xe9b5dba5, 0x3956c25b, 0x59f111f1, 0x923f82a4, 0xab1c5ed5,
   0xd807aa98, 0x12835b01, 0x243185be, 0x550c7dc3, 0x72be5d74, 0x80deb1fe, 0x9bdc06a7, 0xc19bf174,
   0xe49b69c1, 0xefbe4786, 0x0fc19dc6, 0x240ca1cc, 0x2de92c6f, 0x4a7484aa, 0x5cb0a9dc, 0x76f988da,
   0x983e5152, 0xa831c66d, 0xb00327c8, 0xbf597fc7, 0xc6e00bf3, 0xd5a79147, 0x06ca6351, 0x14292967,
   0x27b70a85, 0x2e1b2138, 0x4d2c6dfc, 0x53380d13, 0x650a7354, 0x766a0abb, 0x81c2c92e, 0x92722c85,
   0xa2bfe8a1, 0xa81a664b, 0xc24b8b70, 0xc76c51a3, 0xd192e819, 0xd6990624, 0xf40e3585, 0x106aa070,
   0x19a4c116, 0x1e376c08, 0x2748774c, 0x34b0bcb5, 0x391c0cb3, 0x4ed8aa4a, 0x5b9cca4f, 0x682e6ff3,
   0x748f82ee, 0x78a5636f, 0x84c87814, 0x8cc70208, 0x90befffa, 0xa4506ceb, 0xbef9a3f7, 0xc67178f2]

def rotateRight (x : UInt32) (n : UInt32) : UInt32 := (x >>> n) ||| (x <<< (32 - n))

-- The message, one bit `1`, zeros, and the length in bits in the last eight bytes of a block.
def pad (message : List UInt8) : List UInt8 :=
  let zeros := (119 - message.length % 64) % 64
  let bits := 8 * message.length
  message ++ (0x80 : UInt8) :: List.replicate zeros (0 : UInt8) ++
    (List.range 8).map (fun i => UInt8.ofNat (bits >>> (8 * (7 - i))))

def words : List UInt8 → List UInt32
  | a :: b :: c :: d :: rest =>
    ((a.toUInt32 <<< 24) ||| (b.toUInt32 <<< 16) ||| (c.toUInt32 <<< 8) ||| d.toUInt32) :: words rest
  | _ => []

def extend : Nat → List UInt32 → List UInt32
  | 0, schedule => schedule
  | n + 1, schedule =>
    let w (i : Nat) := schedule.getD (i - 1) 0
    let s0 := rotateRight (w 15) 7 ^^^ rotateRight (w 15) 18 ^^^ (w 15 >>> 3)
    let s1 := rotateRight (w 2) 17 ^^^ rotateRight (w 2) 19 ^^^ (w 2 >>> 10)
    extend n ((w 16 + s0 + w 7 + s1) :: schedule)

def rounds : List (UInt32 × UInt32) → List UInt32 → List UInt32
  | (k, w) :: rest, [a, b, c, d, e, f, g, h] =>
    let s1 := rotateRight e 6 ^^^ rotateRight e 11 ^^^ rotateRight e 25
    let choice := (e &&& f) ^^^ (~~~ e &&& g)
    let t1 := h + s1 + choice + k + w
    let s0 := rotateRight a 2 ^^^ rotateRight a 13 ^^^ rotateRight a 22
    let majority := (a &&& b) ^^^ (a &&& c) ^^^ (b &&& c)
    rounds rest [t1 + (s0 + majority), a, b, c, d + t1, e, f, g]
  | _, state => state

def compress (hash block : List UInt32) : List UInt32 :=
  let schedule := (extend 48 block.reverse).reverse
  (hash.zip (rounds (roundConstants.zip schedule) hash)).map (fun p => p.1 + p.2)

def blocks : Nat → List UInt32 → List UInt32 → List UInt32
  | 0, _, hash => hash
  | n + 1, message, hash => blocks n (message.drop 16) (compress hash (message.take 16))

def bytes (w : UInt32) : List UInt8 :=
  [(w >>> 24).toUInt8, (w >>> 16).toUInt8, (w >>> 8).toUInt8, w.toUInt8]

-- `sha256.Sum256`.
def sum256 (message : List UInt8) : List UInt8 :=
  let message := words (pad message)
  (blocks (message.length / 16) message initialHash).flatMap bytes

-- `hex.EncodeToString` and the verb `%x`.
def hexDigit (n : Nat) : Char := "0123456789abcdef".toList.getD n '0'

def hex (data : List UInt8) : String :=
  String.ofList (data.flatMap (fun b => [hexDigit (b.toNat / 16), hexDigit (b.toNat % 16)]))

-- The hash of the three bytes `abc`, from the standard.
example : hex (sum256 [97, 98, 99]) =
    "ba7816bf8f01cfea414140de5dae2223b00361a396177a9cb410ff61f20015ad" := by
  decide +kernel

end Sha256

namespace Injections

instance countableChar : Countable Char :=
  (show Function.Injective Char.toNat from fun _ _ h => Char.toNat_inj.mp h).countable

instance countableString : Countable String :=
  (show Function.Injective String.toList from fun _ _ => String.toList_injective).countable

variable {α : Type}

-- A text of `x`s, a different number for each value.
noncomputable def distinctText [Countable α] (a : α) : String :=
  String.ofList ('x' :: List.replicate ((exists_injective_nat α).choose a) 'x')

theorem distinctText_injective [Countable α] : Function.Injective fun a : α => distinctText a := by
  intro a b h
  have hLength := congrArg List.length (String.ofList_injective h)
  simp only [List.length_cons, List.length_replicate, Nat.add_right_cancel_iff] at hLength
  exact (exists_injective_nat α).choose_spec hLength

theorem distinctText_head [Countable α] (a : α) : (distinctText a).toList.head? = some 'x' := by
  simp [distinctText]

theorem update_injective [DecidableEq α] {f : α → String} (hf : Function.Injective f) (a : α) {text : String}
    (hText : ∀ b, f b ≠ text) : Function.Injective (Function.update f a text) := by
  intro b c h
  by_cases hb : b = a
  · by_cases hc : c = a
    · exact hb.trans hc.symm
    · rw [hb, Function.update_self, Function.update_of_ne hc] at h
      exact absurd h.symm (hText c)
  · by_cases hc : c = a
    · rw [hc, Function.update_self, Function.update_of_ne hb] at h
      exact absurd h (hText b)
    · rw [Function.update_of_ne hb, Function.update_of_ne hc] at h
      exact hf h

theorem update_ne [DecidableEq α] {f : α → String} {a : α} {text other : String} (hText : ∀ b, f b ≠ other)
    (h : text ≠ other) (b : α) : Function.update f a text b ≠ other := by
  by_cases hb : b = a
  · rw [hb, Function.update_self]
    exact h
  · rw [Function.update_of_ne hb]
    exact hText b

theorem distinctText_ne [Countable α] {text : String} (h : text.toList.head? ≠ some 'x') (a : α) :
    distinctText a ≠ text := fun hEq => h (hEq ▸ distinctText_head a)

end Injections

end NeroCD
