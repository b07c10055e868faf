import NeroCD.GoStrings

-- Slash-separated paths as byte strings, after Go's package `path`.

namespace NeroCD.Paths

def slash : UInt8 := 47

def here : Bytes := [46]

def up : Bytes := [46, 46]

-- `strings.Split(name, "/")`.
def split (name : Bytes) : List Bytes := name.splitOn slash

-- `strings.Join(parts, "/")`.
def join (parts : List Bytes) : Bytes := [slash].intercalate parts

-- Empty parts and `.` go, `..` takes the part before it away.  The parts kept so far are held in reverse.
def cleanParts (rooted : Bool) : List Bytes → List Bytes → List Bytes
  | kept, [] => kept.reverse
  | kept, part :: rest =>
    if part = [] ∨ part = here then cleanParts rooted kept rest
    else if part = up then
      match kept with
      | [] => cleanParts rooted (if rooted then [] else [up]) rest
      | last :: below => cleanParts rooted (if last = up then up :: last :: below else below) rest
    else cleanParts rooted (part :: kept) rest

-- `path.Clean`.
def clean (name : Bytes) : Bytes :=
  if name.head? = some slash then slash :: join (cleanParts true [] (split name))
  else if cleanParts false [] (split name) = [] then here
  else join (cleanParts false [] (split name))

-- `path.Base`.
def base (name : Bytes) : Bytes :=
  let last := ((name.reverse.dropWhile (· == slash)).takeWhile (· != slash)).reverse
  if name = [] then here else if last = [] then [slash] else last

theorem base_append {part : Bytes} (hPart : slash ∉ part) (hNe : part ≠ []) (name : Bytes) :
    base (name ++ slash :: part) = part := by
  have hAll : ∀ b ∈ part.reverse, (b != slash) = true := by
    intro b hb
    exact bne_iff_ne.mpr fun hEq => hPart (hEq ▸ List.mem_reverse.mp hb)
  have hDrop : (part.reverse ++ slash :: name.reverse).dropWhile (· == slash) =
      part.reverse ++ slash :: name.reverse := by
    cases hRev : part.reverse with
    | nil => exact absurd (List.reverse_eq_nil_iff.mp hRev) hNe
    | cons b _ =>
      have hb := hAll b (hRev ▸ List.mem_cons_self)
      simp only [List.cons_append, List.dropWhile_cons]
      rw [if_neg (by simpa using hb)]
  have hTake : (part.reverse ++ slash :: name.reverse).takeWhile (· != slash) = part.reverse := by
    rw [List.takeWhile_append_of_pos hAll]
    simp
  simp [base, hDrop, hTake, hNe]

def beforeLast (name : Bytes) : Bytes := (name.reverse.dropWhile (· != slash)).reverse

-- `path.Dir`.
def dir (name : Bytes) : Bytes := clean (beforeLast name)

def Plain (parts : List Bytes) : Prop := ∀ part ∈ parts, part ≠ [] ∧ part ≠ here ∧ part ≠ up

theorem cleanParts_plain {parts : List Bytes} (h : Plain parts) (kept : List Bytes) :
    cleanParts false kept parts = kept.reverse ++ parts := by
  induction parts generalizing kept with
  | nil => simp [cleanParts]
  | cons _ _ ih =>
    obtain ⟨⟨hNil, hHere, hUp⟩, hRest⟩ := List.forall_mem_cons.mp h
    simp only [cleanParts, hNil, hHere, hUp, or_self, if_false, ih hRest, List.reverse_cons, List.append_assoc,
      List.singleton_append]

theorem clean_plain_slash {name : Bytes} (hPlain : Plain (split name)) (hHead : name.head? ≠ some slash)
    (hName : name ≠ []) : clean (name ++ [slash]) = name := by
  have hSplit : split (name ++ [slash]) = split name ++ [[]] := by
    rw [split, List.splitOn, List.splitOnP_append_cons name [] (by simp)]
    rfl
  have hHead' : (name ++ [slash]).head? ≠ some slash := by
    cases name with
    | nil => exact absurd rfl hName
    | cons _ _ => exact hHead
  have hDrop : ∀ kept, cleanParts false kept (split name ++ [[]]) = cleanParts false kept (split name) := by
    induction split name with
    | nil => simp [cleanParts]
    | cons _ _ ih => simp only [List.cons_append, cleanParts, ih, implies_true]
  have hParts : cleanParts false [] (split (name ++ [slash])) = split name := by
    rw [hSplit, hDrop, cleanParts_plain hPlain, List.reverse_nil, List.nil_append]
  have hNe : split name ≠ [] := List.splitOnP_ne_nil _ _
  rw [clean, if_neg hHead', hParts, if_neg hNe]
  exact List.intercalate_splitOn slash

theorem dir_cases {name : Bytes} (hPlain : Plain (split name)) (hHead : name.head? ≠ some slash) :
    (slash ∉ name ∧ dir name = here) ∨ ∃ last, slash ∉ last ∧ name = dir name ++ slash :: last := by
  by_cases hMem : slash ∈ name
  · obtain ⟨last, before, hRev, hLast⟩ := List.eq_append_cons_of_mem (List.mem_reverse.mpr hMem)
    have hName : name = before.reverse ++ slash :: last.reverse := by
      rw [← List.reverse_reverse name, hRev]
      simp
    have hSplit : split name = split before.reverse ++ split last.reverse := by
      rw [hName, split, List.splitOn, List.splitOnP_append_cons _ _ (by simp)]
      rfl
    have hAll : ∀ b ∈ last, (b != slash) = true := fun b hb => bne_iff_ne.mpr fun hEq => hLast (hEq ▸ hb)
    have hBefore : beforeLast name = before.reverse ++ [slash] := by
      rw [beforeLast, hRev, List.dropWhile_append_of_pos hAll]
      simp
    have hNe : before.reverse ≠ [] := by
      intro hNil
      rw [hName, hNil] at hHead
      exact hHead rfl
    have hHead' : before.reverse.head? ≠ some slash := by
      obtain ⟨b, rest, hCons⟩ := List.exists_cons_of_ne_nil hNe
      rw [hName, hCons] at hHead
      rwa [hCons]
    have hDir : dir name = before.reverse := by
      rw [dir, hBefore]
      refine clean_plain_slash (fun part hPart => hPlain part ?_) hHead' hNe
      exact hSplit ▸ List.mem_append_left _ hPart
    exact .inr ⟨last.reverse, by simpa using hLast, by rw [hDir]; exact hName⟩
  · refine .inl ⟨hMem, ?_⟩
    have hAll : ∀ b ∈ name.reverse, (b != slash) = true := by
      intro b hb
      exact bne_iff_ne.mpr fun hEq => hMem (hEq ▸ List.mem_reverse.mp hb)
    rw [dir, beforeLast, List.dropWhile_eq_nil_iff.mpr hAll]
    rfl

theorem prefix_dir {name above last : Bytes} (hLast : slash ∉ last)
    (h : (above ++ [slash]) <+: name ++ slash :: last) : above = name ∨ (above ++ [slash]) <+: name := by
  obtain ⟨rest, hRest⟩ := h
  rcases List.append_eq_append_iff.mp hRest with ⟨more, hName, -⟩ | ⟨more, hAbove, hMore⟩
  · exact .inr ⟨more, hName.symm⟩
  · cases more with
    | nil => exact .inr ⟨[], by simpa using hAbove⟩
    | cons b more =>
      obtain rfl : slash = b := List.head_eq_of_cons_eq hMore
      rcases List.eq_nil_or_concat more with rfl | ⟨init, c, rfl⟩
      · exact .inl (List.append_inj_left' hAbove rfl)
      · rw [List.concat_eq_append, ← List.cons_append, ← List.append_assoc] at hAbove
        have hc : slash = c := List.singleton_inj.mp (List.append_inj_right' hAbove rfl)
        have hTail : last = init ++ c :: rest := by simpa using hMore
        exact absurd (by simp [hTail, hc]) hLast

end NeroCD.Paths
