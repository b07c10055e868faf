import NeroCD.Checks
import NeroCD.Paths
import NeroCD.Utf8

-- The staged build context and the bytes that its digest reads (`hostingbuild/context.go`).

namespace NeroCD.BuildContext

open NeroCD.Checks NeroCD.GoStrings

-- The entries of a directory in the order of their names.
inductive Forest where
  | nil
  | file (name : Bytes) (mode size : Nat) (content : Bytes) (rest : Forest)
  | dir (name : Bytes) (mode size : Nat) (entries rest : Forest)
  | linkOrSpecial (name : Bytes) (rest : Forest)

inductive Staged where
  | file (path : Bytes) (perm : Nat) (content : Bytes)
  | dir (path : Bytes) (perm : Nat)
deriving DecidableEq

def Staged.path : Staged → Bytes
  | .file path _ _ => path
  | .dir path _ => path

def Staged.isDir : Staged → Bool
  | .file .. => false
  | .dir .. => true

structure Limits where
  contextFiles : Nat
  contextBytes : Nat

structure Progress where
  count : Nat := 0
  total : Nat := 0
  transcript : Bytes := []
  staged : List Staged := []
deriving DecidableEq

def numeralLoop (base : Nat) : Nat → Nat → Bytes
  | 0, _ => []
  | fuel + 1, n =>
    if n < base then [UInt8.ofNat (48 + n)]
    else numeralLoop base fuel (n / base) ++ [UInt8.ofNat (48 + n % base)]

-- `%o` and `%d`.
def numeral (base n : Nat) : Bytes := numeralLoop base (n + 1) n

-- `fs.ValidPath` for a path other than the root's.
def validPath (path : Bytes) : Bool :=
  Utf8.toValidUTF8 path == path &&
    (Paths.split path).all fun element => !element.isEmpty && element != Paths.here && element != Paths.up

def joined (path name : Bytes) : Bytes := if path = [] then name else path ++ Paths.slash :: name

def header (path : Bytes) (mode size : Nat) : Bytes :=
  path ++ 0 :: (numeral 8 (mode &&& 0o755) ++ 0 :: (numeral 10 size ++ [0]))

section Stage

-- `strings.ToLower` and the process's umask; the walk's flag and limits; whether the system's calls for a path
-- succeed.
variable (toLower : Bytes → Bytes) (umask : Nat) (assets : Bool) (limits : Limits) (works : Bytes → Bool)

def excluded (name : Bytes) : Bool :=
  let n := toLower name
  ([".git-credentials", ".config", ".kube", ".azure", ".gnupg", ".terraform", "auth.json", ".yarnrc", ".yarnrc.yml",
    ".git", ".ssh", ".aws", ".docker", ".npmrc", ".netrc", ".pypirc", "credentials", "credentials.json", "id_rsa",
    "id_ed25519", ".env"].any fun known => n == utf8 known) ||
    (utf8 ".env.").isPrefixOf n || (utf8 ".pem").isSuffixOf n || (utf8 ".key").isSuffixOf n

def staticInstruction (name : Bytes) : Bool :=
  let n := toLower name
  n == utf8 "dockerfile" || (utf8 "dockerfile.").isPrefixOf n || (utf8 ".dockerfile").isSuffixOf n ||
    n == utf8 ".dockerignore" || (utf8 ".conf").isSuffixOf n || n == utf8 "compose.yaml" || n == utf8 "compose.yml" ||
    n == utf8 "docker-compose.yaml" || n == utf8 "docker-compose.yml"

def reserved (name : Bytes) : Bool := assets && (utf8 ".nerocd-static.").isPrefixOf (toLower name)

def skipped (name : Bytes) : Bool := (assets && staticInstruction toLower name) || excluded toLower name

-- What `Mkdir` and `OpenFile` leave of the bits they are given.
def permission (mode : Nat) : Nat := (mode &&& 0o755) &&& (0o777 ^^^ (umask &&& 0o777))

def enter (path : Bytes) (linkOrSpecial : Bool) (p : Progress) : Except String Progress := do
  refuse (p.count + 1 > limits.contextFiles) "context file count exceeded"
  refuse (!works path) "system call failed"
  refuse linkOrSpecial "context links/special files denied"
  refuse (path.contains 0 || path.contains 10 || path.contains 13 || !validPath path) "invalid context path"
  pure { p with count := p.count + 1 }

def stageDir (path : Bytes) (mode size : Nat) (p : Progress) : Except String Progress := do
  refuse (p.staged.any (·.path == path)) "file exists"
  pure { p with
    transcript := p.transcript ++ header path mode (if assets then 0 else size)
    staged := p.staged ++ [.dir path (permission umask mode)] }

def stageFile (path : Bytes) (mode size : Nat) (content : Bytes) (p : Progress) : Except String Progress := do
  refuse (size > limits.contextBytes - p.total) "context byte budget exceeded"
  refuse (p.staged.any (·.path == path)) "file exists"
  -- The limited reader.
  let read := content.take (limits.contextBytes - p.total + 1)
  refuse (read.length != size || p.total + read.length > limits.contextBytes)
    "source changed or context byte budget exceeded"
  pure { p with
    total := p.total + read.length
    transcript := p.transcript ++ (header path mode size ++ read)
    staged := p.staged ++ [.file path (permission umask mode) read] }

def stage (path : Bytes) : Forest → Progress → Except String Progress
  | .nil, p => pure p
  | .linkOrSpecial name rest, p => do
      refuse (reserved toLower assets name) "reserved static generated filename"
      if skipped toLower assets name then stage path rest p
      else
        let p ← enter limits works (joined path name) true p
        stage path rest p
  | .file name mode size content rest, p => do
      refuse (reserved toLower assets name) "reserved static generated filename"
      if skipped toLower assets name then stage path rest p
      else
        let p ← enter limits works (joined path name) false p
        let p ← stageFile umask limits (joined path name) mode size content p
        stage path rest p
  | .dir name mode size entries rest, p => do
      refuse (reserved toLower assets name) "reserved static generated filename"
      if skipped toLower assets name then stage path rest p
      else
        let p ← enter limits works (joined path name) false p
        let p ← stageDir umask assets (joined path name) mode size p
        let p ← stage (joined path name) entries p
        stage path rest p

def stageRoot (source : Forest) : Except String Progress :=
  stage toLower umask assets limits works [] source {}

def listing (path : Bytes) : Forest → List (Bytes × Bool)
  | .nil => []
  | .linkOrSpecial _ rest => listing path rest
  | .file name _ _ _ rest =>
    if skipped toLower assets name then listing path rest else (joined path name, false) :: listing path rest
  | .dir name _ _ entries rest =>
    if skipped toLower assets name then listing path rest
    else (joined path name, true) :: (listing (joined path name) entries ++ listing path rest)

def SameKinds (source source' : Forest) : Prop :=
  ∀ path kind kind', (path, kind) ∈ listing toLower assets [] source →
    (path, kind') ∈ listing toLower assets [] source' → kind = kind'

end Stage

section Fields

theorem digit_ne_zero {d : Nat} (h : d < 10) : UInt8.ofNat (48 + d) ≠ 0 := by
  intro hEq
  have hNat := congrArg UInt8.toNat hEq
  rw [UInt8.toNat_ofNat', UInt8.toNat_zero] at hNat
  omega

theorem digit_inj {d d' : Nat} (h : d < 10) (h' : d' < 10) (hEq : UInt8.ofNat (48 + d) = UInt8.ofNat (48 + d')) :
    d = d' := by
  have hNat := congrArg UInt8.toNat hEq
  rw [UInt8.toNat_ofNat', UInt8.toNat_ofNat'] at hNat
  omega

variable {base : Nat}

theorem nul_notMem_numeralLoop (hTwo : 2 ≤ base) (hBase : base ≤ 10) (fuel n : Nat) :
    0 ∉ numeralLoop base fuel n := by
  induction fuel generalizing n with
  | zero => exact List.not_mem_nil
  | succ _ ih =>
    unfold numeralLoop
    split
    next hSmall =>
      rw [List.mem_singleton]
      exact fun h => digit_ne_zero (by omega) h.symm
    next hLarge =>
      rw [List.mem_append, List.mem_singleton]
      rintro (h | h)
      · exact ih _ h
      · exact digit_ne_zero (by have := Nat.mod_lt n (show 0 < base by omega); omega) h.symm

theorem numeralLoop_ne_nil {fuel n : Nat} (hFuel : 0 < fuel) : numeralLoop base fuel n ≠ [] := by
  obtain ⟨fuel, rfl⟩ := Nat.exists_eq_add_of_lt hFuel
  unfold numeralLoop
  split <;> simp

theorem numeralLoop_inj (hTwo : 2 ≤ base) (hBase : base ≤ 10) {fuel fuel' n n' : Nat} (hFuel : n < fuel)
    (hFuel' : n' < fuel') (h : numeralLoop base fuel n = numeralLoop base fuel' n') : n = n' := by
  induction fuel generalizing fuel' n n' with
  | zero => omega
  | succ _ ih =>
    cases fuel' with
    | zero => omega
    | succ _ =>
      have hDiv : base ≤ n → n / base < n := fun hLe => Nat.div_lt_self (by omega) hTwo
      have hDiv' : base ≤ n' → n' / base < n' := fun hLe => Nat.div_lt_self (by omega) hTwo
      unfold numeralLoop at h
      split at h
      next hSmall =>
        split at h
        next hSmall' => exact digit_inj (by omega) (by omega) (List.singleton_inj.mp h)
        next hLarge' =>
          have hNil := (List.append_eq_singleton_iff.mp h.symm).resolve_right
            (fun hSingle => by simp at hSingle)
          exact absurd hNil.1 (numeralLoop_ne_nil (by have := hDiv' (by omega); omega))
      next hLarge =>
        split at h
        next hSmall' =>
          have hNil := (List.append_eq_singleton_iff.mp h).resolve_right (fun hSingle => by simp at hSingle)
          exact absurd hNil.1 (numeralLoop_ne_nil (by have := hDiv (by omega); omega))
        next hLarge' =>
          obtain ⟨hInit, hLast⟩ := List.append_inj' h rfl
          have hQuot := ih (by have := hDiv (by omega); omega) (by have := hDiv' (by omega); omega) hInit
          have hRem := digit_inj (by have := Nat.mod_lt n (show 0 < base by omega); omega)
            (by have := Nat.mod_lt n' (show 0 < base by omega); omega) (List.singleton_inj.mp hLast)
          rw [← Nat.div_add_mod n base, ← Nat.div_add_mod n' base, hQuot, hRem]

theorem field_inj {a a' rest rest' : Bytes} (ha : 0 ∉ a) (ha' : 0 ∉ a') (h : a ++ 0 :: rest = a' ++ 0 :: rest') :
    a = a' ∧ rest = rest' := by
  induction a generalizing a' with
  | nil =>
    cases a' with
    | nil => exact ⟨rfl, List.tail_eq_of_cons_eq h⟩
    | cons _ _ => exact absurd (List.head_eq_of_cons_eq h) fun hb => ha' (hb ▸ List.mem_cons_self)
  | cons b a ih =>
    cases a' with
    | nil => exact absurd (List.head_eq_of_cons_eq h) fun hb => ha (hb ▸ List.mem_cons_self)
    | cons _ _ =>
      obtain ⟨hb, hRest⟩ := List.cons_eq_cons.mp h
      obtain ⟨hEq, hTail⟩ := ih (fun hIn => ha (List.mem_cons_of_mem _ hIn))
        (fun hIn => ha' (List.mem_cons_of_mem _ hIn)) hRest
      exact ⟨by rw [hb, hEq], hTail⟩

theorem header_inj {path path' rest rest' : Bytes} {mode mode' size size' : Nat} (hPath : 0 ∉ path)
    (hPath' : 0 ∉ path') (h : header path mode size ++ rest = header path' mode' size' ++ rest') :
    path = path' ∧ mode &&& 0o755 = mode' &&& 0o755 ∧ size = size' ∧ rest = rest' := by
  simp only [header, List.append_assoc, List.cons_append, List.nil_append] at h
  obtain ⟨hPathEq, h⟩ := field_inj hPath hPath' h
  have hOct : ∀ n, 0 ∉ numeral 8 n := fun n => nul_notMem_numeralLoop (by omega) (by omega) _ n
  have hDec : ∀ n, 0 ∉ numeral 10 n := fun n => nul_notMem_numeralLoop (by omega) (by omega) _ n
  obtain ⟨hMode, h⟩ := field_inj (hOct _) (hOct _) h
  obtain ⟨hSize, hRest⟩ := field_inj (hDec _) (hDec _) h
  exact ⟨hPathEq, numeralLoop_inj (by omega) (by omega) (Nat.lt_succ_self _) (Nat.lt_succ_self _) hMode,
    numeralLoop_inj (by omega) (by omega) (Nat.lt_succ_self _) (Nat.lt_succ_self _) hSize, hRest⟩

end Fields

structure Entry where
  path : Bytes
  isDir : Bool
  mode : Nat
  size : Nat
  content : Bytes

namespace Entry

def bytes (e : Entry) : Bytes := header e.path e.mode e.size ++ e.content

def staged (umask : Nat) (e : Entry) : Staged :=
  if e.isDir then .dir e.path (permission umask e.mode) else .file e.path (permission umask e.mode) e.content

def kind (e : Entry) : Bytes × Bool := (e.path, e.isDir)

def Formed (e : Entry) : Prop := 0 ∉ e.path ∧ e.content.length = if e.isDir then 0 else e.size

theorem staged_kind (umask : Nat) (e : Entry) : ((e.staged umask).path, (e.staged umask).isDir) = e.kind := by
  unfold staged kind
  cases e.isDir <;> rfl

end Entry

section Walk

variable {toLower : Bytes → Bytes} {umask : Nat} {assets : Bool} {limits : Limits} {works : Bytes → Bool}

def Adds (umask : Nat) (listed : List (Bytes × Bool)) (p q : Progress) : Prop :=
  ∃ entries : List Entry, (∀ e ∈ entries, e.Formed) ∧ entries.map Entry.kind = listed ∧
    q.transcript = p.transcript ++ entries.flatMap Entry.bytes ∧
    q.staged = p.staged ++ entries.map (Entry.staged umask) ∧
    ((p.staged.map Staged.path).Nodup → (q.staged.map Staged.path).Nodup)

theorem adds_nil (p : Progress) : Adds umask [] p p := ⟨[], by simp, rfl, by simp, by simp, id⟩

variable {listed : List (Bytes × Bool)} {p q r : Progress} {path : Bytes}

theorem Adds.append {listed' : List (Bytes × Bool)} (h : Adds umask listed p q) (h' : Adds umask listed' q r) :
    Adds umask (listed ++ listed') p r := by
  obtain ⟨entries, hFormed, hKinds, hTranscript, hStaged, hNodup⟩ := h
  obtain ⟨entries', hFormed', hKinds', hTranscript', hStaged', hNodup'⟩ := h'
  refine ⟨entries ++ entries', ?_, ?_, ?_, ?_, hNodup' ∘ hNodup⟩
  · exact fun e he => (List.mem_append.mp he).elim (hFormed e) (hFormed' e)
  · rw [List.map_append, hKinds, hKinds']
  · rw [hTranscript', hTranscript, List.flatMap_append, List.append_assoc]
  · rw [hStaged', hStaged, List.map_append, List.append_assoc]

theorem enter_ok {linkOrSpecial : Bool} (h : enter limits works path linkOrSpecial p = .ok q) :
    linkOrSpecial = false ∧ 0 ∉ path ∧ q = { p with count := p.count + 1 } := by
  simp only [enter, bind_eq_ok, refuse_eq_ok, exists_unit, pure_eq_ok, Bool.or_eq_false_iff, List.contains_eq_mem,
    decide_eq_false_iff_not] at h
  exact ⟨h.2.2.1, h.2.2.2.1.1.1.1, h.2.2.2.2.symm⟩

theorem adds_entry {e : Entry} (hFormed : e.Formed) (hNew : (p.staged.any (·.path == e.path)) = false)
    (hTranscript : q.transcript = p.transcript ++ e.bytes) (hStaged : q.staged = p.staged ++ [e.staged umask]) :
    Adds umask [e.kind] p q := by
  refine ⟨[e], by simpa using hFormed, rfl, by simpa using hTranscript, by simpa using hStaged, ?_⟩
  intro hNodup
  have hPath : (e.staged umask).path = e.path := congrArg Prod.fst (e.staged_kind umask)
  rw [hStaged, List.map_append, List.map_singleton, hPath]
  refine hNodup.append (List.nodup_singleton _) (List.disjoint_singleton.mpr ?_)
  intro hMem
  obtain ⟨s, hs, hsPath⟩ := List.mem_map.mp hMem
  exact absurd (beq_iff_eq.mpr hsPath) (List.any_eq_false.mp hNew s hs)

theorem adds_dir {mode size : Nat} (hEnter : enter limits works path false p = .ok q)
    (h : stageDir umask assets path mode size q = .ok r) : Adds umask [(path, true)] p r := by
  obtain ⟨-, hNul, rfl⟩ := enter_ok hEnter
  simp only [stageDir, bind_eq_ok, refuse_eq_ok, exists_unit, pure_eq_ok] at h
  obtain ⟨hNew, rfl⟩ := h
  let e : Entry := { path, isDir := true, mode, size := if assets then 0 else size, content := [] }
  have hFormed : e.Formed := ⟨hNul, rfl⟩
  exact adds_entry hFormed hNew (by simp [e, Entry.bytes]) (by simp [e, Entry.staged])

theorem adds_file {content : Bytes} {mode size : Nat} (hEnter : enter limits works path false p = .ok q)
    (h : stageFile umask limits path mode size content q = .ok r) : Adds umask [(path, false)] p r := by
  obtain ⟨-, hNul, rfl⟩ := enter_ok hEnter
  simp only [stageFile, bind_eq_ok, refuse_eq_ok, exists_unit, pure_eq_ok, Bool.or_eq_false_iff,
    bne_eq_false_iff_eq] at h
  obtain ⟨-, hNew, ⟨hSize, -⟩, rfl⟩ := h
  let e : Entry := { path, isDir := false, mode, size, content := content.take (limits.contextBytes - p.total + 1) }
  have hFormed : e.Formed := ⟨hNul, hSize⟩
  exact adds_entry hFormed hNew rfl rfl

theorem stage_adds {source : Forest} (h : stage toLower umask assets limits works path source p = .ok q) :
    Adds umask (listing toLower assets path source) p q := by
  induction source generalizing path p q with
  | nil =>
    obtain rfl := (pure_eq_ok _ _).mp h
    exact adds_nil p
  | linkOrSpecial _ _ ih =>
    simp only [stage, bind_eq_ok, exists_unit] at h
    split at h
    next hSkip => exact ih h.2
    next hKeep =>
      obtain ⟨r, hEnter, -⟩ := (bind_eq_ok _ _ _).mp h.2
      cases (enter_ok hEnter).1
  | file _ _ _ _ _ ih =>
    simp only [stage, bind_eq_ok, exists_unit] at h
    simp only [listing]
    split at h
    next hSkip =>
      rw [if_pos hSkip]
      exact ih h.2
    next hKeep =>
      obtain ⟨-, r, hEnter, s, hFile, hRest⟩ := by simpa only [bind_eq_ok] using h
      rw [if_neg hKeep]
      exact (adds_file hEnter hFile).append (ih hRest)
  | dir _ _ _ _ _ ihEntries ihRest =>
    simp only [stage, bind_eq_ok, exists_unit] at h
    simp only [listing]
    split at h
    next hSkip =>
      rw [if_pos hSkip]
      exact ihRest h.2
    next hKeep =>
      obtain ⟨-, r, hEnter, s, hDir, t, hEntries, hRest⟩ := by simpa only [bind_eq_ok] using h
      rw [if_neg hKeep]
      exact (adds_dir hEnter hDir).append ((ihEntries hEntries).append (ihRest hRest))

-- Transcripts are read line by line. Only the kind of an entry says how much content follows its line.
theorem staged_eq_of_bytes {entries entries' : List Entry} (hFormed : ∀ e ∈ entries, e.Formed)
    (hFormed' : ∀ e ∈ entries', e.Formed)
    (hKinds : ∀ e ∈ entries, ∀ e' ∈ entries', e.path = e'.path → e.isDir = e'.isDir)
    (h : entries.flatMap Entry.bytes = entries'.flatMap Entry.bytes) :
    entries.map (Entry.staged umask) = entries'.map (Entry.staged umask) := by
  have hLine : ∀ e : Entry, e.bytes ≠ [] := by simp [Entry.bytes, header]
  induction entries generalizing entries' with
  | nil =>
    cases entries' with
    | nil => rfl
    | cons e' _ =>
      rw [List.flatMap_cons] at h
      exact absurd (List.append_eq_nil_iff.mp h.symm).1 (hLine e')
  | cons e _ ih =>
    cases entries' with
    | nil =>
      rw [List.flatMap_cons] at h
      exact absurd (List.append_eq_nil_iff.mp h).1 (hLine e)
    | cons e' _ =>
      rw [List.forall_mem_cons] at hFormed hFormed'
      simp only [List.flatMap_cons, Entry.bytes, List.append_assoc] at h
      obtain ⟨hPath, hMode, hSize, hRest⟩ := header_inj hFormed.1.1 hFormed'.1.1 h
      have hKind : e.isDir = e'.isDir := hKinds e List.mem_cons_self e' List.mem_cons_self hPath
      have hLength : e.content.length = e'.content.length := by
        rw [hFormed.1.2, hFormed'.1.2, hKind, hSize]
      obtain ⟨hContent, hMore⟩ := List.append_inj hRest hLength
      have hTail := ih hFormed.2 hFormed'.2
        (fun d hd d' hd' => hKinds d (List.mem_cons_of_mem _ hd) d' (List.mem_cons_of_mem _ hd')) hMore
      simp only [List.map_cons, hTail, Entry.staged, permission, hPath, hMode, hKind, hContent]

theorem Adds.mem_listed (h : Adds umask listed {} q) (path : Bytes) (kind : Bool) :
    (path, kind) ∈ listed ↔ ∃ s ∈ q.staged, s.path = path ∧ s.isDir = kind := by
  obtain ⟨entries, -, rfl, -, hStaged, -⟩ := h
  simp only [hStaged, List.nil_append, List.mem_map, exists_exists_and_eq_and, ← Prod.mk.injEq, Entry.staged_kind]

theorem Adds.nodup (h : Adds umask listed {} q) :
    (q.staged.map Staged.path).Nodup := h.choose_spec.2.2.2.2 List.nodup_nil

-- Two walks with one transcript staged the same tree exactly if the sources give every path one kind.
theorem transcript_identifies_staged {limits' : Limits} {works' : Bytes → Bool} {source source' : Forest}
    {p p' : Progress} (h : stageRoot toLower umask assets limits works source = .ok p)
    (h' : stageRoot toLower umask assets limits' works' source' = .ok p')
    (hTranscript : p.transcript = p'.transcript) :
    (∀ e, e ∈ p.staged ↔ e ∈ p'.staged) ↔ SameKinds toLower assets source source' := by
  have hAdds := stage_adds h
  have hAdds' := stage_adds h'
  constructor
  · intro hSame path kind kind' hMem hMem'
    obtain ⟨s, hs, hPath, rfl⟩ := (hAdds.mem_listed path kind).mp hMem
    obtain ⟨s', hs', hPath', rfl⟩ := (hAdds'.mem_listed path kind').mp hMem'
    rw [List.inj_on_of_nodup_map hAdds.nodup hs ((hSame s').mpr hs') (hPath.trans hPath'.symm)]
  · intro hKinds
    obtain ⟨entries, hFormed, hListed, hBytes, hStaged, -⟩ := hAdds
    obtain ⟨entries', hFormed', hListed', hBytes', hStaged', -⟩ := hAdds'
    have hEqual : p.staged = p'.staged := by
      rw [hStaged, hStaged']
      refine congrArg _ (staged_eq_of_bytes hFormed hFormed' ?_ ?_)
      · intro e he e' he' hPath
        have hMem : e.kind ∈ listing toLower assets [] source := hListed ▸ List.mem_map_of_mem he
        have hMem' : e'.kind ∈ listing toLower assets [] source' := hListed' ▸ List.mem_map_of_mem he'
        exact hKinds e.path e.isDir e'.isDir hMem (hPath ▸ hMem')
      · rw [hBytes, hBytes'] at hTranscript
        exact List.append_cancel_left hTranscript
    exact fun e => by rw [hEqual]

end Walk

section Samples

def lowerByte (b : UInt8) : UInt8 := if 65 ≤ b ∧ b ≤ 90 then b + 32 else b

def smallLimits : Limits := { contextFiles := 10, contextBytes := 100 }

def sampleStage (source : Forest) : Except String Progress :=
  stageRoot (List.map lowerByte) 0o022 true smallLimits (fun _ => true) source

def page (mode : Nat) (rest : Forest) : Forest := .file (utf8 "page") mode 2 (utf8 "hi") rest

def emptyDirectory : Forest := .dir (utf8 "a") 0o755 4096 .nil .nil
def emptyFile : Forest := .file (utf8 "a") 0o755 0 [] .nil

def pageProgress : Progress :=
  { count := 1, total := 2, transcript := header (utf8 "page") 0o755 2 ++ utf8 "hi",
    staged := [.file (utf8 "page") 0o755 (utf8 "hi")] }

-- A bit that is masked and a file that is skipped make no difference.
theorem pages_staged_alike :
    sampleStage (page 0o777 .nil) = .ok pageProgress ∧
      sampleStage (.file (utf8 ".ENV") 0o644 1 (utf8 "x") (page 0o755 .nil)) = .ok pageProgress ∧
      SameKinds (List.map lowerByte) true (page 0o777 .nil)
        (.file (utf8 ".ENV") 0o644 1 (utf8 "x") (page 0o755 .nil)) :=
  have h : sampleStage (page 0o777 .nil) = .ok pageProgress := by decide +kernel
  have h' : sampleStage (.file (utf8 ".ENV") 0o644 1 (utf8 "x") (page 0o755 .nil)) = .ok pageProgress := by
    decide +kernel
  ⟨h, h', (transcript_identifies_staged h h' rfl).mp fun _ => Iff.rfl⟩

-- The line of an empty directory is that of an empty file.
theorem directory_staged_as_file :
    ∃ p p', sampleStage emptyDirectory = .ok p ∧ sampleStage emptyFile = .ok p' ∧ p.transcript = p'.transcript ∧
      p.staged = [.dir (utf8 "a") 0o755] ∧ p'.staged = [.file (utf8 "a") 0o755 []] := by
  refine ⟨⟨1, 0, header (utf8 "a") 0o755 0, [.dir (utf8 "a") 0o755]⟩,
    ⟨1, 0, header (utf8 "a") 0o755 0, [.file (utf8 "a") 0o755 []]⟩, ?_, ?_, rfl, rfl, rfl⟩ <;> decide +kernel

end Samples

end NeroCD.BuildContext
