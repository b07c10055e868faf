import NeroCD.Proxy.Storage

-- What the file calls can do, and what the replacement of a state file leaves behind, crashes included.

namespace NeroCD.Proxy

open NeroCD.Programs
open NeroCD.Programs.Fallible

variable {Data : Type} [Inhabited Data] {s t : World Data} {name : String}

def Call.readOnly : Call Data → Bool
  | .mkdir _ | .openLock | .create _ | .write _ _ | .rename _ _ | .remove _ | .docker _ => false
  | _ => true

section Steps

theorem step_readOnly {c : Call Data} {reply : Except Failure c.Value} (h : Step c s reply t)
    (hc : c.readOnly = true) : t = s := by
  cases h with
  | answered _ =>
    cases c with
    | lstat name | readFile name => simp only [respond]; split <;> rfl
    | mkdir | openLock | create | write | rename | remove | docker => cases hc
    | _ => rfl
  | failed => rfl
  | torn => cases hc

theorem step_lstat {reply : Except Failure FileInfo} (h : Step (.lstat name) s reply t) :
    t = s ∧ settled (fun info _ => ∃ entry, s.files name = some entry ∧ entry.info = info)
      (fun reason _ => reason.isNotExist = true → s.files name = none) reply t := by
  refine ⟨step_readOnly h rfl, ?_⟩
  cases h with
  | answered _ =>
    simp only [respond]
    split
    · rename_i hNone
      exact fun _ => hNone
    · rename_i entry hSome
      exact ⟨entry, hSome, rfl⟩
  | failed _ => exact fun h => nomatch h

variable {reply : Except Failure Unit}

theorem step_create (h : Step (.create name) s reply t) :
    settled (fun _ t => s.files name = none ∧ t = s.set name (some (stateFile default))) (fun _ t => t = s)
      reply t := by
  cases h with
  | answered _ =>
    simp only [respond]
    split
    · rfl
    · rename_i hNone
      exact ⟨Option.not_isSome_iff_eq_none.mp hNone, rfl⟩
  | failed _ => rfl

structure Only (name : String) (s t : World Data) : Prop where
  others : ∀ other, other ≠ name → t.files other = s.files other
  issued : t.issued = s.issued

omit [Inhabited Data] in
theorem Only.rfl : Only name s s := ⟨fun _ _ => Eq.refl _, Eq.refl _⟩

omit [Inhabited Data] in
theorem Only.trans {u : World Data} (hst : Only name s t) (htu : Only name t u) : Only name s u :=
  ⟨fun other h => (htu.others other h).trans (hst.others other h), htu.issued.trans hst.issued⟩

omit [Inhabited Data] in
theorem Only.set (s : World Data) (entry : Option (Entry Data)) : Only name s (s.set name entry) :=
  ⟨fun _ h => s.set_other entry h, Eq.refl _⟩

theorem step_write {data : Data} (h : Step (.write name data) s reply t) :
    Only name s t ∧ (t.files name).isSome = (s.files name).isSome ∧
      settled (fun _ t => t.files name = (s.files name).map fun entry => { entry with data := data })
        (fun _ _ => True) reply t := by
  cases h with
  | answered _ => exact ⟨.set s _, by simp [respond], s.set_self name _⟩
  | failed => exact ⟨.rfl, rfl, trivial⟩
  | torn => exact ⟨.set s _, by simp, trivial⟩

theorem step_rename {old new : String} (h : Step (.rename old new) s reply t) :
    settled (fun _ t => (s.files old).isSome = true ∧
        t = if old = new then s else (s.set new (s.files old)).set old none)
      (fun _ t => t = s) reply t := by
  cases h with
  | answered _ =>
    simp only [respond]
    by_cases hEq : old = new
    · rw [if_pos hEq, if_pos hEq]
      split
      · rfl
      · rename_i hOld
        simp only [Bool.not_eq_true, Bool.or_eq_false_iff, Option.isNone_eq_false_iff] at hOld
        exact ⟨hOld.1, rfl⟩
    · rw [if_neg hEq, if_neg hEq]
      split
      · rfl
      · rename_i hOld
        simp only [Bool.not_eq_true, Bool.or_eq_false_iff, Option.isNone_eq_false_iff] at hOld
        split
        · rfl
        · exact ⟨hOld.1, rfl⟩
  | failed => rfl

theorem step_remove (h : Step (.remove name) s reply t) :
    settled (fun _ t => t = s.set name none) (fun _ t => t = s) reply t := by
  cases h with
  | answered _ =>
    simp only [respond]
    split
    · rfl
    · rfl
  | failed => rfl

theorem step_remove_only (h : Step (.remove name) s reply t) : Only name s t := by
  have hReply := step_remove h
  cases reply with
  | ok _ => exact (show t = _ from hReply) ▸ .set s none
  | error _ => exact (show t = s from hReply) ▸ .rfl

theorem step_readFile {reply : Except Failure Data} (h : Step (.readFile name) s reply t) :
    t = s ∧ settled (fun data _ => ∃ entry, s.files name = some entry ∧ entry.data = data)
      (fun reason _ => reason.isNotExist = true → s.files name = none) reply t := by
  refine ⟨step_readOnly h rfl, ?_⟩
  cases h with
  | answered _ =>
    simp only [respond]
    split
    · rename_i hNone
      exact fun _ => hNone
    · rename_i entry hSome
      exact ⟨entry, hSome, rfl⟩
  | failed _ => exact fun h => nomatch h

end Steps

section Asking

variable {crash : World Data → Prop}

theorem ask_holds {c : Call Data} {good : c.Value → World Data → Prop} {bad : Failure → World Data → Prop}
    (hCrash : crash s) (h : ∀ reply t, Step c s reply t → crash t ∧ settled good bad reply t) :
    Holds Step crash good bad (ask c) s := ⟨hCrash, h⟩

theorem ask_unchanged {c : Call Data} (hc : c.readOnly = true) : Keeps Step Eq (ask c) := by
  refine fun s => ask_holds rfl fun reply t hStep => ?_
  obtain rfl := step_readOnly hStep hc
  exact ⟨rfl, settled_of (fun _ => rfl) (fun _ => rfl) reply⟩

theorem checkFile_unchanged (name : String) : Keeps Step Eq (checkFile name : Action Data Unit) :=
  .bind (ask_unchanged rfl) fun _ => .bind (.failIf _ _) fun _ => .failIf _ _

theorem checkReplaceable_unchanged (name : String) : Keeps Step Eq (checkReplaceable name : Action Data Unit) := by
  refine .bind (.outcome (ask_unchanged rfl)) fun st => ?_
  cases st with
  | ok _ => exact checkFile_unchanged name
  | error _ => exact .failIf _ _

end Asking

structure Replacing (name : String) (data : Data) (s t : World Data) : Prop where
  others : ∀ other, other ≠ name → other ≠ candidateName → t.files other = s.files other
  issued : t.issued = s.issued
  file : t.files name = s.files name ∨ t.files name = some (stateFile data)

structure Replaced (name : String) (data : Data) (s t : World Data) : Prop extends Replacing name data s t where
  new : t.files name = some (stateFile data)

section Replacements

variable {data : Data}

omit [Inhabited Data]

theorem Replacing.of_only (hName : name ≠ candidateName) (h : Only candidateName s t) : Replacing name data s t :=
  ⟨fun other _ hOther => h.others other hOther, h.issued, .inl (h.others name hName)⟩

theorem Replacing.after_only {u : World Data} (hName : name ≠ candidateName) (h : Replacing name data s t)
    (hu : Only candidateName t u) : Replacing name data s u :=
  ⟨fun other hOther hCandidate => (hu.others other hCandidate).trans (h.others other hOther hCandidate),
    hu.issued.trans h.issued, hu.others name hName ▸ h.file⟩

theorem Replaced.of_only {u : World Data} (hName : name ≠ candidateName) (h : Replaced name data s t)
    (hu : Only candidateName t u) : Replaced name data s u :=
  ⟨h.toReplacing.after_only hName hu, (hu.others name hName).trans h.new⟩

theorem Replaced.of_rename (hName : name ≠ candidateName) (h : Only candidateName s t)
    (hCandidate : t.files candidateName = some (stateFile data)) :
    Replaced name data s ((t.set name (t.files candidateName)).set candidateName none) := by
  have hNew : ((t.set name (t.files candidateName)).set candidateName none).files name =
      some (stateFile data) := by
    rw [World.set_other _ _ hName, World.set_self, hCandidate]
  refine ⟨⟨fun other hOther hOtherCandidate => ?_, h.issued, .inr hNew⟩, hNew⟩
  rw [World.set_other _ _ hOtherCandidate, World.set_other _ _ hOther]
  exact h.others other hOtherCandidate

end Replacements

theorem joinErrors_error {α : Type} (reason : Failure) (second : Except Failure Unit) :
    ∃ other, joinErrors (.error reason : Except Failure α) second = .error other := by
  cases second with
  | ok _ => exact ⟨_, rfl⟩
  | error _ => exact ⟨_, rfl⟩

section Atomic

variable {data : Data}

def Written (data : Data) (s : World Data) : Except Failure Unit → World Data → Prop :=
  settled (fun _ u => Only candidateName s u ∧ u.files candidateName = some (stateFile data))
    (fun _ u => Only candidateName s u)

def Published (name : String) (data : Data) (s : World Data) : Except Failure Unit → World Data → Prop :=
  settled (fun _ => Replaced name data s) (fun _ => Replacing name data s)

variable {r : Except Failure Unit}

omit [Inhabited Data] in
theorem Published.of_only {u : World Data} (hName : name ≠ candidateName) (h : Published name data s r t)
    (hu : Only candidateName t u) : Published name data s r u := by
  cases r with
  | ok _ => exact Replaced.of_only hName h hu
  | error _ => exact Replacing.after_only hName h hu

omit [Inhabited Data] in
theorem Published.replacing (h : Published name data s r t) : Replacing name data s t := by
  cases r with
  | ok _ => exact Replaced.toReplacing h
  | error _ => exact h

theorem writeCandidate_holds (hName : name ≠ candidateName) (h : Only candidateName s t)
    (hCandidate : t.files candidateName = some (stateFile default)) :
    Holds Step (Replacing name data s)
      (fun _ u => Only candidateName s u ∧ u.files candidateName = some (stateFile data))
      (fun _ u => Only candidateName s u)
      (do ask (.write candidateName data); ask (.sync candidateName)) t := by
  have hWrite : Holds Step (Replacing name data s)
      (fun _ u => Only candidateName s u ∧ u.files candidateName = some (stateFile data))
      (fun _ u => Only candidateName s u) (ask (.write candidateName data)) t := by
    refine ask_holds (.of_only hName h) fun reply u hStep => ?_
    obtain ⟨hOnly, -, hReply⟩ := step_write hStep
    refine ⟨.of_only hName (h.trans hOnly), ?_⟩
    cases reply with
    | ok _ =>
      have hFile : u.files candidateName = _ := hReply
      exact ⟨h.trans hOnly, by rw [hFile, hCandidate]; rfl⟩
    | error _ => exact h.trans hOnly
  refine .bind hWrite fun _ u hCrash hu => ?_
  exact (ask_unchanged rfl u).mono (fun _ h => h ▸ hCrash) (fun _ _ h => h ▸ hu) fun _ _ h => h ▸ hu.1

theorem renameCandidate_holds (hName : name ≠ candidateName) (h : Only candidateName s t)
    (hCandidate : t.files candidateName = some (stateFile data)) :
    Holds Step (Replacing name data s) (fun _ => Replaced name data s) (fun _ => Replacing name data s)
      (ask (.rename candidateName name)) t := by
  refine ask_holds (.of_only hName h) fun reply u hStep => ?_
  have hReply := step_rename hStep
  rw [if_neg hName.symm] at hReply
  cases reply with
  | ok _ =>
    obtain rfl : u = _ := hReply.2
    have hNew := Replaced.of_rename hName h hCandidate
    exact ⟨hNew.toReplacing, hNew⟩
  | error _ =>
    obtain rfl : u = t := hReply
    exact ⟨.of_only hName h, .of_only hName h⟩

theorem publish_holds (hName : name ≠ candidateName) (h : Only candidateName s t)
    (hCandidate : t.files candidateName = some (stateFile default)) :
    Holds Step (Replacing name data s) (fun _ => Replaced name data s) (fun _ => Replacing name data s)
      (publish name data) t := by
  have hWrite : Holds Step (Replacing name data s) (Written data s) (fun _ : Failure => Replacing name data s)
      (outcome (do ask (.write candidateName data); ask (.sync candidateName))) t :=
    .outcome (writeCandidate_holds hName h hCandidate)
  refine .bind hWrite fun written u hu hWritten => ?_
  refine Keeps.skip (.outcome (ask_unchanged rfl)) hu (fun _ => hu) fun closed => ?_
  cases written with
  | error _ => exact ⟨hu, hu⟩
  | ok _ =>
    refine Keeps.skip (.settle _) hu (fun _ => hu) fun _ => ?_
    refine Keeps.skip (.settle closed) hu (fun _ => hu) fun _ => ?_
    refine .bind (renameCandidate_holds hName hWritten.1 hWritten.2) fun _ v hv hNew => ?_
    refine Keeps.skip (ask_unchanged rfl) hv (fun _ => hv) fun _ => ?_
    refine Keeps.skip (.outcome (ask_unchanged rfl)) hv (fun _ => hv) fun synced => ?_
    refine Keeps.skip (.outcome (ask_unchanged rfl)) hv (fun _ => hv) fun closedDir => ?_
    exact .settle hv (settled_of (fun _ => hNew) (fun _ => hv) _)

theorem createCandidate_holds (hName : name ≠ candidateName) (s : World Data) :
    Holds Step (Replacing name data s)
      (fun _ u => Only candidateName s u ∧ u.files candidateName = some (stateFile default))
      (fun _ => Replacing name data s) (ask (.create candidateName)) s := by
  refine ask_holds (.of_only hName .rfl) fun reply u hStep => ?_
  have hReply := step_create hStep
  cases reply with
  | ok _ =>
    obtain rfl : u = _ := hReply.2
    exact ⟨.of_only hName (.set s _), .set s _, s.set_self _ _⟩
  | error _ =>
    obtain rfl : u = s := hReply
    exact ⟨.of_only hName .rfl, .of_only hName .rfl⟩

theorem removeCandidate_holds (hName : name ≠ candidateName) (h : Published name data s r t) :
    Holds Step (Replacing name data s) (fun _ => Published name data s r)
      (fun _ : Failure => Replacing name data s) (outcome (ask (.remove candidateName))) t := by
  refine .outcome (ask_holds h.replacing fun reply u hStep => ?_)
  have hu := h.of_only hName (step_remove_only hStep)
  exact ⟨hu.replacing, settled_of (fun _ => hu) (fun _ => hu) reply⟩

theorem atomic_holds (hName : name ≠ candidateName) (s : World Data) :
    Holds Step (Replacing name data s) (fun _ => Replaced name data s) (fun _ => Replacing name data s)
      (atomic name data) s := by
  have hStart : Replacing name data s s := .of_only hName .rfl
  refine Keeps.skip (checkReplaceable_unchanged name) hStart (fun _ => hStart) fun _ => ?_
  refine .bind (createCandidate_holds hName s) fun _ t _ ht => ?_
  have hPublish : Holds Step (Replacing name data s) (Published name data s)
      (fun _ : Failure => Replacing name data s) (outcome (publish name data)) t :=
    .outcome (publish_holds hName ht.1 ht.2)
  refine .bind hPublish fun published u _ hPublished => ?_
  refine .bind (removeCandidate_holds hName hPublished) fun removed v hv hPublished => .settle hv ?_
  cases published with
  | ok _ => exact settled_of (fun _ => hPublished) (fun _ => hv) _
  | error reason =>
    obtain ⟨other, hOther⟩ := joinErrors_error reason (ignoreMissing removed)
    rw [hOther]
    exact hv

end Atomic

-- Whether a file named `candidate` is there after a call, from the reply alone.
def candidateAfter (present : Bool) : Event (calls Data) → Bool
  | ⟨.mkdir name, .ok _⟩ => present || name == candidateName
  | ⟨.create name, .ok _⟩ => present || name == candidateName
  | ⟨.rename old new, .ok _⟩ =>
    if old = new then present else if old = candidateName then false else present || new == candidateName
  | ⟨.remove name, .ok _⟩ => present && name != candidateName
  | _ => present

def candidateLeft (trace : List (Event (calls Data))) : Bool := trace.foldl candidateAfter false

section Candidate

theorem step_mkdir {reply : Except Failure Unit} (h : Step (.mkdir name) s reply t) :
    settled (fun _ t => ∃ entry, t = s.set name (some entry)) (fun _ t => t = s) reply t := by
  cases h with
  | answered _ =>
    simp only [respond]
    split
    · rfl
    · exact ⟨_, rfl⟩
  | failed => rfl

theorem step_openLock {reply : Except Failure Unit} (h : Step .openLock s reply t) : Only "lock" s t := by
  cases h with
  | answered _ =>
    simp only [respond]
    split
    · exact .rfl
    · exact .set s _
  | failed => exact .rfl

omit [Inhabited Data] in
theorem isSome_set_some (entry : Entry Data) (other : String) :
    ((s.set name (some entry)).files other).isSome = ((s.files other).isSome || name == other) := by
  by_cases h : other = name
  · subst h
    simp
  · rw [s.set_other _ h, beq_eq_false_iff_ne.mpr (Ne.symm h), Bool.or_false]

omit [Inhabited Data] in
theorem isSome_set_none (other : String) :
    ((s.set name none).files other).isSome = ((s.files other).isSome && name != other) := by
  by_cases h : other = name
  · subst h
    simp
  · rw [s.set_other _ h, bne_iff_ne.mpr (Ne.symm h), Bool.and_true]

omit [Inhabited Data] in
theorem isSome_rename {old new : String} (h : (s.files old).isSome = true) :
    ((if old = new then s else (s.set new (s.files old)).set old none).files candidateName).isSome =
      if old = new then (s.files candidateName).isSome
      else if old = candidateName then false else (s.files candidateName).isSome || new == candidateName := by
  by_cases hSame : old = new
  · rw [if_pos hSame, if_pos hSame]
  · obtain ⟨entry, hEntry⟩ := Option.isSome_iff_exists.mp h
    rw [if_neg hSame, if_neg hSame, hEntry, isSome_set_none, isSome_set_some]
    by_cases hOld : old = candidateName
    · simp [hOld]
    · simp [hOld]

theorem step_candidate {c : Call Data} {reply : Except Failure c.Value} (h : Step c s reply t) :
    (t.files candidateName).isSome = candidateAfter (s.files candidateName).isSome ⟨c, reply⟩ := by
  by_cases hc : c.readOnly = true
  · obtain rfl := step_readOnly h hc
    cases c with
    | mkdir | openLock | create | write | rename | remove | docker => cases hc
    | _ => rfl
  · cases c with
    | mkdir _ =>
      have hReply := step_mkdir h
      cases reply with
      | ok _ =>
        obtain ⟨entry, rfl⟩ := hReply
        exact isSome_set_some entry candidateName
      | error _ => exact (show t = s from hReply) ▸ rfl
    | openLock => exact congrArg Option.isSome ((step_openLock h).others candidateName (by decide))
    | create _ =>
      have hReply := step_create h
      cases reply with
      | ok _ => exact (show t = _ from hReply.2) ▸ isSome_set_some _ candidateName
      | error _ => exact (show t = s from hReply) ▸ rfl
    | write name _ =>
      obtain ⟨hOnly, hSome, -⟩ := step_write h
      show _ = (s.files candidateName).isSome
      by_cases hName : candidateName = name
      · rw [hName, hSome]
      · rw [hOnly.others candidateName hName]
    | rename _ _ =>
      have hReply := step_rename h
      cases reply with
      | ok _ => exact hReply.2 ▸ isSome_rename hReply.1
      | error _ => exact (show t = s from hReply) ▸ rfl
    | remove _ =>
      have hReply := step_remove h
      cases reply with
      | ok _ => exact (show t = _ from hReply) ▸ isSome_set_none candidateName
      | error _ => exact (show t = s from hReply) ▸ rfl
    | docker _ =>
      cases h with
      | answered _ => rfl
      | failed => rfl
    | _ => exact absurd rfl hc

theorem runs_candidate {α : Type} {p q : Program (calls Data) α} {trace : List (Event (calls Data))}
    (h : Runs Step p s trace q t) :
    (t.files candidateName).isSome = trace.foldl candidateAfter (s.files candidateName).isSome := by
  induction h with
  | stop => rfl
  | next hStep _ ih => rw [ih, step_candidate hStep, List.foldl_cons]

end Candidate

section Later

variable {data : Data} {outside : Outside Data}

theorem atomic_blocked (hCandidate : (s.files candidateName).isSome = true) :
    Holds Step (Eq s) (fun _ _ => False) (fun _ => Eq s) (atomic name data) s := by
  refine Keeps.skip (checkReplaceable_unchanged name) rfl (fun _ => rfl) fun _ => ?_
  have hCreate : Holds Step (Eq s) (fun _ _ => False) (fun _ => Eq s) (ask (.create candidateName)) s := by
    refine ask_holds rfl fun reply t hStep => ?_
    have hReply := step_create hStep
    cases reply with
    | ok _ => exact absurd hReply.1 (Option.isSome_iff_ne_none.mp hCandidate)
    | error _ => exact ⟨Eq.symm hReply, Eq.symm hReply⟩
  exact .bind hCreate fun _ _ _ h => h.elim

structure Healthy (s : World Data) (name : String) : Prop where
  parent : s.hasDirectory (directoryOf name) = true
  plain : s.hasDirectory name = false
  secure : ∀ entry, s.files name = some entry → entry.info = secureInfo

theorem ask_eval (c : Call Data) : (ask c).eval (respond outside) s = respond outside c s := rfl

theorem checkFile_eval {entry : Entry Data} (h : s.files name = some entry) (hSecure : entry.info = secureInfo) :
    (checkFile name).eval (respond outside) s = (.ok (), s) := by
  have hStat : (ask (.lstat name)).eval (respond outside) s = (.ok entry.info, s) := by
    rw [ask_eval, respond, h]
  rw [checkFile, eval_seq_ok hStat, hSecure]
  rfl

theorem checkReplaceable_eval (h : Healthy s name) :
    (checkReplaceable name).eval (respond outside) s = (.ok (), s) := by
  cases hFile : s.files name with
  | none =>
    have hStat : (ask (.lstat name)).eval (respond outside) s = (.error .notExist, s) := by
      rw [ask_eval, respond, hFile]
    rw [checkReplaceable, eval_seq_ok (eval_outcome hStat)]
    rfl
  | some entry =>
    have hStat : (ask (.lstat name)).eval (respond outside) s = (.ok entry.info, s) := by
      rw [ask_eval, respond, hFile]
    rw [checkReplaceable, eval_seq_ok (eval_outcome hStat)]
    exact checkFile_eval hFile (h.secure entry hFile)

omit [Inhabited Data] in
theorem hasDirectory_candidate (h : s.files candidateName = none) : s.hasDirectory candidateName = false := by
  rw [World.hasDirectory, h]
  rfl

theorem rename_eval (outside : Outside Data) (h : Healthy s name) (hNone : s.files candidateName = none)
    (entry : Entry Data) :
    ∃ t, (ask (.rename candidateName name)).eval (respond outside) (s.set candidateName (some entry)) =
        (.ok (), t) ∧ t.hasDirectory (directoryOf name) = true := by
  have hParent : directoryOf name ≠ candidateName := fun hEq =>
    Bool.false_ne_true ((hasDirectory_candidate hNone).symm.trans (hEq ▸ h.parent))
  have hSelf : directoryOf name ≠ name := fun hEq => Bool.false_ne_true (h.plain.symm.trans (hEq ▸ h.parent))
  have hDirectory := (s.hasDirectory_set (some entry) hParent).trans h.parent
  rw [ask_eval, respond, if_neg (by simp [hDirectory])]
  by_cases hName : candidateName = name
  · rw [if_pos hName]
    exact ⟨_, rfl, hDirectory⟩
  · have hPlain := (s.hasDirectory_set (some entry) (Ne.symm hName)).trans h.plain
    rw [if_neg hName, if_neg (by simp [hPlain])]
    refine ⟨_, rfl, ?_⟩
    rw [World.hasDirectory_set _ _ hParent, World.hasDirectory_set _ _ hSelf]
    exact hDirectory

theorem publish_eval (outside : Outside Data) (data : Data) (h : Healthy s name)
    (hNone : s.files candidateName = none) :
    ∃ t, (publish name data).eval (respond outside) (s.set candidateName (some (stateFile default))) =
      (.ok (), t) := by
  obtain ⟨t, hRename, hDirectory⟩ := rename_eval outside h hNone (stateFile data)
  have hWrite : (ask (.write candidateName data)).eval (respond outside)
      (s.set candidateName (some (stateFile default))) = (.ok (), s.set candidateName (some (stateFile data))) := by
    rw [ask_eval, respond, World.set_self]
    simp [World.set, stateFile]
  have hOpen : (ask (.openDir (directoryOf name))).eval (respond outside) t = (.ok (), t) := by
    rw [ask_eval, respond, if_pos hDirectory]
  refine ⟨t, ?_⟩
  refine (eval_seq_ok (eval_outcome ((eval_seq_ok hWrite).trans (ask_eval _)))).trans ?_
  refine (eval_seq_ok (eval_outcome (ask_eval _))).trans ?_
  exact (eval_seq_ok hRename).trans ((eval_seq_ok hOpen).trans rfl)

theorem remove_ignored (outside : Outside Data) (s : World Data) :
    ignoreMissing (respond outside (.remove name) s).1 = .ok () := by
  simp only [respond]
  split
  · rfl
  · rfl

theorem atomic_eval (outside : Outside Data) (data : Data) (h : Healthy s name)
    (hNone : s.files candidateName = none) : ((atomic name data).eval (respond outside) s).1 = .ok () := by
  have hCreate : (ask (.create candidateName)).eval (respond outside) s =
      (.ok (), s.set candidateName (some (stateFile default))) := by
    rw [ask_eval, respond, hNone]
    rfl
  obtain ⟨t, hPublish⟩ := publish_eval outside data h hNone
  have hEval : (atomic name data).eval (respond outside) s =
      (joinErrors (.ok ()) (ignoreMissing (respond outside (.remove candidateName) t).1),
        (respond outside (.remove candidateName) t).2) := by
    refine (eval_seq_ok (checkReplaceable_eval h)).trans ((eval_seq_ok hCreate).trans ?_)
    refine (eval_seq_ok (eval_outcome hPublish)).trans ?_
    exact eval_seq_ok (eval_outcome (ask_eval _))
  rw [hEval, remove_ignored]
  rfl

theorem atomic_eval_iff (outside : Outside Data) (data : Data) (h : Healthy s name) :
    ((atomic name data).eval (respond outside) s).1 = .ok () ↔ s.files candidateName = none := by
  refine ⟨fun hOk => ?_, atomic_eval outside data h⟩
  cases hCandidate : s.files candidateName with
  | none => rfl
  | some entry =>
    obtain ⟨trace, hRun⟩ := eval_runs (respond_step outside) (atomic name data) s
    have hPost := Safe.returned (atomic_blocked (Option.isSome_iff_exists.mpr ⟨entry, hCandidate⟩)) hRun
    rw [show (Programs.eval (respond outside) (atomic name data) s).1 = .ok () from hOk] at hPost
    exact hPost.elim

end Later

def OldOrNew (name : String) (data : Data) (s t : World Data) : Prop :=
  t.files name = s.files name ∨ t.files name = some (stateFile data)

-- A crash anywhere inside a replacement, at the end of any part of its calls.
theorem replacement_crash (name : String) (data : Data) (trace : List (Event (calls Data)))
    (rest : Program (calls Data) (Except Failure Unit)) (hRun : Runs Step (atomic name data) s trace rest t)
    (laterName : String) (laterData : Data) (outside : Outside Data) (hHealthy : Healthy t laterName) :
    (name ≠ candidateName → OldOrNew name data s t) ∧
      (OldOrNew name data s t ∧ ((atomic laterName laterData).eval (respond outside) t).1 = .ok () ↔
        s.files candidateName = none ∧ candidateLeft trace = false) := by
  have hNamed : name ≠ candidateName → OldOrNew name data s t :=
    fun hName => (Safe.crashed (atomic_holds hName s) hRun).file
  refine ⟨hNamed, ?_⟩
  rw [atomic_eval_iff outside laterData hHealthy]
  cases hCandidate : s.files candidateName with
  | none =>
    have hLeft : (t.files candidateName).isSome = candidateLeft trace := by
      rw [runs_candidate hRun, hCandidate]
      rfl
    have hNone : t.files candidateName = none ↔ candidateLeft trace = false := by
      rw [← hLeft, Option.isSome_eq_false_iff, Option.isNone_iff_eq_none]
    rw [← hNone]
    refine ⟨fun h => ⟨rfl, h.2⟩, fun h => ⟨?_, h.2⟩⟩
    by_cases hName : name = candidateName
    · subst hName
      exact .inl (h.2.trans hCandidate.symm)
    · exact hNamed hName
  | some entry =>
    -- The candidate was there before, so nothing has changed.
    have hSame : s = t := Safe.crashed (atomic_blocked (Option.isSome_iff_exists.mpr ⟨entry, hCandidate⟩)) hRun
    subst hSame
    rw [hCandidate]
    exact ⟨fun h => (nomatch h.2), fun h => (nomatch h.1)⟩

section Samples

def sampleOutside : Outside Nat where
  openRoot := .ok ()
  readDir _ := .ok 0
  tryLock := .ok true
  wait := .ok ()
  size _ := 0
  daemon := .error (.fault "no daemon")
  docker _ _ := .error (.fault "no daemon")
  listen _ := .ok ()
  rawData := .error (.fault "no proxy")
  generationMarker := .error (.fault "no proxy")
  response _ _ := .error (.fault "no proxy")
  contextErr := .ok ()
  before := .ok ()

def sampleDirectory : World Nat where
  files name :=
    if name = receiptName then some (stateFile 1)
    else if name = "dynamic" then some ⟨⟨.directory, 0o700, true⟩, 0⟩
    else none
  issued := []

def sampleReplacement (n : Nat) :
    List (Event (calls Nat)) × Program (calls Nat) (Except Failure Unit) × World Nat :=
  advance (respond sampleOutside) n (atomic receiptName 2) sampleDirectory

theorem sampleReplacement_runs (n : Nat) :
    Runs Step (atomic receiptName 2) sampleDirectory (sampleReplacement n).1 (sampleReplacement n).2.1
      (sampleReplacement n).2.2 :=
  advance_runs (respond_step sampleOutside) n _ _

end Samples

-- The process dies after the rename: the new receipt is there, and the routes can be replaced.
theorem renamed_receipt_survives :
    OldOrNew receiptName 2 sampleDirectory (sampleReplacement 7).2.2 ∧
      ((atomic routesName 3).eval (respond sampleOutside) (sampleReplacement 7).2.2).1 = .ok () :=
  ((replacement_crash receiptName 2 _ _ (sampleReplacement_runs 7) routesName 3 sampleOutside
    ⟨by decide +kernel, by decide +kernel, by decide +kernel⟩).2).mpr ⟨by decide +kernel, by decide +kernel⟩

-- The process dies after the candidate was created: no file can be replaced from then on.
theorem candidate_left_behind :
    Runs Step (atomic receiptName 2) sampleDirectory (sampleReplacement 3).1 (sampleReplacement 3).2.1
        (sampleReplacement 3).2.2 ∧
      Healthy (sampleReplacement 3).2.2 receiptName ∧ Healthy (sampleReplacement 3).2.2 routesName ∧
      ((atomic receiptName 2).eval (respond sampleOutside) (sampleReplacement 3).2.2).1 = .error .exist ∧
      ((atomic routesName 3).eval (respond sampleOutside) (sampleReplacement 3).2.2).1 = .error .exist :=
  ⟨sampleReplacement_runs 3, ⟨by decide +kernel, by decide +kernel, by decide +kernel⟩,
    ⟨by decide +kernel, by decide +kernel, by decide +kernel⟩, by decide +kernel, by decide +kernel⟩

end NeroCD.Proxy
