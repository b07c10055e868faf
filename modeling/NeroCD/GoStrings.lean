import Mathlib.Data.List.DropRight

-- The string functions of Go's standard library that the modelled code calls.

namespace NeroCD

abbrev Bytes := List UInt8

namespace GoStrings

-- The bytes that Go holds for a text.
def utf8 (text : String) : Bytes := text.toList.flatMap String.utf8EncodeChar

def hasPrefix (text start : String) : Bool := start.toList.isPrefixOf text.toList

def hasSuffix (text ending : String) : Bool := ending.toList.isSuffixOf text.toList

def containsAny (text : String) (chars : List Char) : Bool := text.toList.any chars.contains

def trimPrefix (text start : Bytes) : Bytes := if start.isPrefixOf text then text.drop start.length else text

theorem trimPrefix_append (start text : Bytes) : trimPrefix (start ++ text) start = text := by
  rw [trimPrefix, if_pos (List.isPrefixOf_iff_prefix.mpr (List.prefix_append _ _)), List.drop_left]

-- `unicode.IsSpace`.
def isSpace (c : Char) : Bool :=
  let v := c.toNat
  (9 ≤ v && v ≤ 13) || v == 0x20 || v == 0x85 || v == 0xA0 || v == 0x1680 ||
    (0x2000 ≤ v && v ≤ 0x200A) || v == 0x2028 || v == 0x2029 || v == 0x202F || v == 0x205F ||
    v == 0x3000

-- `strings.TrimSpace`.
def trimSpace (s : String) : String :=
  String.ofList ((s.toList.dropWhile isSpace).reverse.dropWhile isSpace).reverse

-- `strings.Fields`.
def fields (s : String) : List String :=
  ((s.toList.splitOnP isSpace).filter fun part => !part.isEmpty).map String.ofList

theorem dropWhile_rdropWhile (p : Char → Bool) (l : List Char) (h : l.dropWhile p = l) :
    (l.rdropWhile p).dropWhile p = l.rdropWhile p := by
  induction l using List.reverseRecOn with
  | nil => rfl
  | append_singleton l a ih =>
    rw [List.rdropWhile_concat]
    split
    · apply ih
      rw [List.dropWhile_eq_self_iff] at h ⊢
      intro hl
      have hFirst := h (by simp)
      rwa [List.getElem_append_left hl] at hFirst
    · exact h

theorem trimSpace_trimSpace (s : String) : trimSpace (trimSpace s) = trimSpace s := by
  unfold trimSpace
  rw [String.toList_ofList]
  show String.ofList (List.rdropWhile isSpace (List.dropWhile isSpace (List.rdropWhile isSpace _))) = _
  rw [dropWhile_rdropWhile _ _ (List.dropWhile_idempotent ..), List.rdropWhile_idempotent]
  rfl

end GoStrings

end NeroCD
