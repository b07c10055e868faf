import Mathlib.Algebra.Order.Ring.Int
import NeroCD.Checks
import NeroCD.Paths
import NeroCD.Digests

-- The upload archive, version 1 (`storagearchive/archive.go`), scanned block by block. The decoder of a header block
-- is a given function.

namespace NeroCD.StorageArchive

open NeroCD.Checks NeroCD.GoStrings NeroCD.Paths

inductive Format where
  | ustar
  | other
deriving DecidableEq

def typeReg : UInt8 := 48
def typeDir : UInt8 := 53

-- `tar.Header`. The modification time is in seconds since the epoch; the other two times may be absent.
structure Header where
  typeflag : UInt8
  name : Bytes
  linkname : Bytes := []
  size : Int
  mode : Int
  uid : Int
  gid : Int
  uname : Bytes := []
  gname : Bytes := []
  modTime : Int := 0
  accessTime : Option Int := none
  changeTime : Option Int := none
  devmajor : Int := 0
  devminor : Int := 0
  paxRecords : List (Bytes × Bytes) := []
  format : Format := .ustar
deriving DecidableEq

def blockSize : Nat := 512

def zeros (n : Nat) : Bytes := List.replicate n 0

def blockPadding (size : Nat) : Nat := (blockSize - size % blockSize) % blockSize

def slice (block : Bytes) (start stop : Nat) : Bytes := (block.drop start).take (stop - start)

-- After its first zero byte a text field holds only zero bytes.
def zeroFilled (field : Bytes) : Bool := (field.dropWhile (· != 0)).all (· == 0)

def formatName : String := "nerocd-storage-v1"

def incompleteMarker : Bytes := utf8 ".nerocd-restore-incomplete"

inductive ArchiveError where
  | invalidArchive
  | limit
  | unexpectedEOF
  | visit (text : String)
deriving DecidableEq

def failIf (bad : Bool) (error : ArchiveError) : Except ArchiveError Unit :=
  if bad then .error error else .ok ()

@[simp] theorem failIf_eq_ok (bad : Bool) (error : ArchiveError) (u : Unit) :
    failIf bad error = .ok u ↔ bad = false := by
  cases bad <;> simp [failIf]

structure Limits where
  archiveBytes : Int
  dataBytes : Int
  fileBytes : Int
  members : Int
  depth : Int
  pathBytes : Int

def Limits.valid (l : Limits) : Bool :=
  l.archiveBytes ≥ 1536 && l.archiveBytes ≤ 2 ^ 40 && l.dataBytes > 0 && l.dataBytes ≤ l.archiveBytes &&
    l.fileBytes > 0 && l.fileBytes ≤ l.dataBytes && l.members > 0 && l.members ≤ 1000000 && l.depth > 0 &&
    l.depth ≤ 256 && l.pathBytes > 0 && l.pathBytes ≤ 255

structure Summary where
  format : String
  digest : String
  archiveBytes : Int
  dataBytes : Int
  members : Int
deriving DecidableEq

-- `unicode.IsSpace` of an ASCII byte; what `strings.TrimSpace` would take away at one end of a part.
def asciiSpace (b : UInt8) : Bool := (9 ≤ b && b ≤ 13) || b == 32

def validPart (part : Bytes) : Bool :=
  !(part = [] || part = here || part = up || part.head?.any asciiSpace || part.getLast?.any asciiSpace ||
    part.getLast? = some 46) && part.all fun c => !(c < 0x21 || c > 0x7e)

def validName (name : Bytes) (l : Limits) : Bool :=
  !(name = [] || (name.length : Int) > l.pathBytes || name = here || clean name != name ||
    name.head? = some slash || name.any fun c => c = 92 || c = 58) &&
  !(((split name).length : Int) > l.depth || (split name).head? = some incompleteMarker) &&
  (split name).all validPart

section Scan

-- `tar.NewReader(block).Next()`.
variable (next : Bytes → Option Header) (l : Limits)

def headerFromBlock (block : Bytes) : Except ArchiveError Header := do
  failIf (slice block 257 265 != utf8 "ustar" ++ [0] ++ utf8 "00" ||
    (block.getD 156 0 != typeReg && block.getD 156 0 != typeDir)) .invalidArchive
  failIf ([(0, 100), (157, 257), (265, 297), (297, 329), (345, 500)].any fun bounds =>
    !zeroFilled (slice block bounds.1 bounds.2)) .invalidArchive
  failIf (slice block 500 512 != zeros 12) .invalidArchive
  -- No GNU binary numeric fields.
  failIf ([100, 108, 116, 124, 136, 329, 337].any fun offset => block.getD offset 0 &&& 0x80 != 0) .invalidArchive
  let h ← (next block).elim (.error .invalidArchive) .ok
  failIf (h.format != .ustar || h.mode < 0 || h.mode > 0o777 || h.uid < 0 || h.uid > 2097151 || h.gid < 0 ||
    h.gid > 2097151 || h.size < 0 || h.linkname != [] || h.gname != [] || h.devmajor != 0 || h.devminor != 0 ||
    h.paxRecords.length != 0 || h.modTime != 0 || h.accessTime.isSome || h.changeTime.isSome) .invalidArchive
  return h

-- A reader that passes what was read on to a hash.
structure Reader where
  rest : Bytes
  hashed : Bytes
deriving DecidableEq

def Reader.advance (r : Reader) (n : Nat) : Reader where
  rest := r.rest.drop n
  hashed := r.hashed ++ r.rest.take n

-- `io.ReadFull`.
def readFull (n : Nat) (r : Reader) : Except ArchiveError (Bytes × Reader) :=
  if r.rest.length < n then .error .unexpectedEOF else .ok (r.rest.take n, r.advance n)

structure Scanned where
  seen : List (Bytes × UInt8) := []
  members : Int := 0
  dataBytes : Int := 0
deriving DecidableEq

def admitHeader (s : Scanned) (h : Header) : Except ArchiveError Scanned := do
  failIf (if s.members = 0 then
      h.name != here || h.typeflag != typeDir || h.size != 0 || h.uname != utf8 formatName
    else !validName h.name l || h.uname != [] || s.seen.lookup (dir h.name) != some typeDir) .invalidArchive
  failIf (s.seen.lookup h.name).isSome .invalidArchive
  failIf (h.typeflag = typeDir && h.size != 0) .invalidArchive
  failIf (s.members ≥ l.members || h.size > l.fileBytes || h.size > l.dataBytes - s.dataBytes) .limit
  return { seen := (h.name, h.typeflag) :: s.seen, members := s.members + 1, dataBytes := s.dataBytes + h.size }

-- It gets a header, the bytes its body can be read from and its own state, and returns how many bytes it has asked
-- for.
abbrev Visitor (σ : Type) := Header → Bytes → σ → Except ArchiveError (σ × Nat)

def discard : Visitor Unit := fun _ body _ => .ok ((), body.length)

variable {σ : Type} (visit : Visitor σ)

def visitBody (h : Header) (r : Reader) (state : σ) : Except ArchiveError (σ × Reader) := do
  let body := r.rest.take h.size.toNat
  let (state, n) ← visit h body state
  failIf (min n body.length != h.size.toNat) .unexpectedEOF
  return (state, r.advance h.size.toNat)

def readPadding (size : Int) (r : Reader) : Except ArchiveError Reader := do
  let (padding, r) ← readFull (blockPadding size.toNat) r
  failIf (padding != zeros (blockPadding size.toNat)) .invalidArchive
  return r

-- After a zero block: one more, and nothing behind it.
def readTrailer (s : Scanned) (r : Reader) : Except ArchiveError Reader := do
  failIf (r.rest.take blockSize != zeros blockSize || s.members = 0) .invalidArchive
  failIf ((r.advance blockSize).rest != []) .invalidArchive
  return r.advance blockSize

-- The loop of `scan`. Every round reads a block, so that the number of blocks bounds the rounds.
def scanLoop : Nat → Reader → Scanned → σ → Except ArchiveError (Reader × Scanned × σ)
  | 0, _, _, _ => .error .unexpectedEOF
  | rounds + 1, r, s, state => do
      let (block, r) ← readFull blockSize r
      if block = zeros blockSize then do
        let r ← readTrailer s r
        return (r, s, state)
      else do
        let h ← headerFromBlock next block
        let s ← admitHeader l s h
        let (state, r) ← visitBody visit h r state
        let r ← readPadding h.size r
        scanLoop rounds r s state

def summary (bytes hashed : Bytes) (dataBytes members : Int) : Summary where
  format := formatName
  digest := "sha256:" ++ Sha256.hex (Sha256.sum256 hashed)
  archiveBytes := bytes.length
  dataBytes := dataBytes
  members := members

def scan (archive : Bytes) (state : σ) : Except ArchiveError (Summary × σ) := do
  failIf (!l.valid) .limit
  failIf (archive.length < 1536 || (archive.length : Int) > l.archiveBytes || archive.length % 512 != 0)
    .invalidArchive
  let (r, s, state) ← scanLoop next l visit (archive.length / 512 + 1) { rest := archive, hashed := [] } {} state
  return (summary archive r.hashed s.dataBytes s.members, state)

end Scan

structure Record where
  block : Bytes
  header : Header
  body : Bytes

def Record.bytes (r : Record) : Bytes := r.block ++ r.body ++ zeros (blockPadding r.body.length)

def Record.name (r : Record) : Bytes := r.header.name

structure Record.Reads (next : Bytes → Option Header) (r : Record) : Prop where
  length : r.block.length = blockSize
  nonzero : r.block ≠ zeros blockSize
  header : headerFromBlock next r.block = .ok r.header
  body : (r.body.length : Int) = r.header.size

structure IsArchive (next : Bytes → Option Header) (l : Limits) (archive : Bytes) (records : List Record) : Prop where
  bytes : archive = records.flatMap Record.bytes ++ (zeros blockSize ++ zeros blockSize)
  reads : ∀ r ∈ records, r.Reads next
  distinct : (records.map Record.name).Nodup
  root : ∃ r, records[0]? = some r ∧ r.name = here ∧ r.header.typeflag = typeDir ∧ r.header.size = 0
  relative : ∀ r ∈ records.tail, r.name.head? ≠ some slash ∧ Plain (split r.name)
  parent : ∀ i r, 0 < i → records[i]? = some r →
    ∃ p ∈ records.take i, p.name = dir r.name ∧ p.header.typeflag = typeDir
  below : ∀ f ∈ records, f.header.typeflag ≠ typeDir → ∀ r ∈ records, ¬(f.name ++ [slash]) <+: r.name
  members : (records.length : Int) ≤ l.members
  fileBytes : ∀ r ∈ records, r.header.size ≤ l.fileBytes
  dataBytes : (records.map fun r => r.header.size).sum ≤ l.dataBytes
  depth : ∀ r ∈ records, ((split r.name).length : Int) ≤ l.depth
  pathBytes : ∀ r ∈ records, (r.name.length : Int) ≤ l.pathBytes

section Tree

variable {l : Limits}

def Placed (l : Limits) (before : List Header) (h : Header) : Prop :=
  if before = [] then h.name = here ∧ h.typeflag = typeDir ∧ h.size = 0
  else validName h.name l = true ∧ ∃ p ∈ before, p.name = dir h.name ∧ p.typeflag = typeDir

structure Tracks (l : Limits) (done : List Header) (s : Scanned) : Prop where
  seen : ∀ name flag, s.seen.lookup name = some flag → ∃ h ∈ done, h.name = name ∧ h.typeflag = flag
  fresh : ∀ name, s.seen.lookup name = none → name ∉ done.map Header.name
  members : s.members = done.length
  data : s.dataBytes = (done.map Header.size).sum
  distinct : (done.map Header.name).Nodup
  count : s.members ≤ l.members
  total : s.dataBytes ≤ l.dataBytes
  files : ∀ h ∈ done, h.size ≤ l.fileBytes
  placed : ∀ i h, done[i]? = some h → Placed l (done.take i) h

theorem tracks_nil (hValid : l.valid = true) : Tracks l [] {} := by
  simp only [Limits.valid, Bool.and_eq_true, decide_eq_true_eq] at hValid
  exact ⟨by simp, by simp, rfl, rfl, List.nodup_nil, by show (0 : Int) ≤ _; omega, by show (0 : Int) ≤ _; omega,
    by simp, by simp⟩

variable {s : Scanned} {h : Header} {headers : List Header}

theorem admitHeader_tracks {done : List Header} {s' : Scanned} (hTracks : Tracks l done s)
    (hAdmit : admitHeader l s h = .ok s') : Tracks l (done ++ [h]) s' := by
  simp only [admitHeader, bind_eq_ok, failIf_eq_ok, exists_unit, pure_eq_ok, Bool.or_eq_false_iff,
    decide_eq_false_iff_not, Option.isSome_eq_false_iff, Option.isNone_iff_eq_none] at hAdmit
  obtain ⟨hPlace, hFresh, -, ⟨⟨hCount, hFile⟩, hTotal⟩, rfl⟩ := hAdmit
  have hPlaced : Placed l done h := by
    unfold Placed
    split
    next hNil =>
      rw [if_pos (by rw [hTracks.members, hNil]; rfl)] at hPlace
      simp only [Bool.or_eq_false_iff, bne_eq_false_iff_eq] at hPlace
      exact ⟨hPlace.1.1.1, hPlace.1.1.2, hPlace.1.2⟩
    next hSome =>
      have hMembers : s.members ≠ 0 := by
        rw [hTracks.members]
        exact_mod_cast fun hZero => hSome (List.length_eq_zero_iff.mp hZero)
      rw [if_neg hMembers] at hPlace
      simp only [Bool.or_eq_false_iff, bne_eq_false_iff_eq, Bool.not_eq_false'] at hPlace
      exact ⟨hPlace.1.1, hTracks.seen _ _ hPlace.2⟩
  refine ⟨?_, ?_, ?_, ?_, ?_, by dsimp only; omega, by dsimp only; omega, ?_, ?_⟩
  · intro name flag hLookup
    rw [List.lookup_cons] at hLookup
    split at hLookup
    next hEq =>
      obtain rfl := Option.some.inj hLookup
      exact ⟨h, by simp, (beq_iff_eq.mp hEq).symm, rfl⟩
    next =>
      obtain ⟨g, hg, hMatch⟩ := hTracks.seen name flag hLookup
      exact ⟨g, List.mem_append_left _ hg, hMatch⟩
  · intro name hLookup
    rw [List.lookup_cons] at hLookup
    split at hLookup
    next => cases hLookup
    next hNe =>
      have hOther : name ≠ h.name := fun hEq => by simp [hEq] at hNe
      simpa [hOther] using hTracks.fresh name hLookup
  · simp [hTracks.members]
  · simp [hTracks.data]
  · rw [List.map_append]
    exact hTracks.distinct.append (List.nodup_singleton _) (List.disjoint_singleton.mpr (hTracks.fresh _ hFresh))
  · intro g hg
    rcases List.mem_append.mp hg with hg | hg
    · exact hTracks.files g hg
    · obtain rfl := List.mem_singleton.mp hg
      omega
  · intro i g hg
    by_cases hi : i < done.length
    · rw [List.getElem?_append_left hi] at hg
      rw [List.take_append_of_le_length hi.le]
      exact hTracks.placed i g hg
    · have hLast : i = done.length := by
        have := (List.getElem?_eq_some_iff.mp hg).1
        rw [List.length_append, List.length_singleton] at this
        omega
      subst hLast
      simp only [List.getElem?_concat_length, Option.some.injEq] at hg
      rw [List.take_left, ← hg]
      exact hPlaced

theorem foldlM_tracks {done : List Header} {s' : Scanned} (hTracks : Tracks l done s)
    (h : headers.foldlM (admitHeader l) s = .ok s') : Tracks l (done ++ headers) s' := by
  induction headers generalizing done s with
  | nil =>
    obtain rfl := (pure_eq_ok _ _).mp h
    simpa using hTracks
  | cons _ _ ih =>
    rw [List.foldlM_cons] at h
    obtain ⟨s₁, hAdmit, hRest⟩ := (bind_eq_ok _ _ _).mp h
    have hAll := ih (admitHeader_tracks hTracks hAdmit) hRest
    rwa [List.append_assoc, List.singleton_append] at hAll

theorem validName_spec {name : Bytes} (h : validName name l = true) :
    name.head? ≠ some slash ∧ Plain (split name) ∧ (name.length : Int) ≤ l.pathBytes ∧
      ((split name).length : Int) ≤ l.depth := by
  simp only [validName, Bool.and_eq_true, Bool.not_eq_true', Bool.or_eq_false_iff, decide_eq_false_iff_not,
    List.all_eq_true] at h
  obtain ⟨⟨⟨⟨⟨⟨⟨-, hLength⟩, -⟩, -⟩, hHead⟩, -⟩, hDepth, -⟩, hParts⟩ := h
  refine ⟨hHead, ?_, by omega, by omega⟩
  intro part hPart
  have hValid := hParts part hPart
  simp only [validPart, Bool.and_eq_true, Bool.not_eq_true', Bool.or_eq_false_iff, decide_eq_false_iff_not] at hValid
  exact ⟨hValid.1.1.1.1.1.1, hValid.1.1.1.1.1.2, hValid.1.1.1.1.2⟩

theorem Tracks.not_first (hTracks : Tracks l headers s) {i : Nat} (hi : 0 < i) (hGet : headers[i]? = some h) :
    validName h.name l = true ∧ ∃ p ∈ headers.take i, p.name = dir h.name ∧ p.typeflag = typeDir := by
  have hPlaced := hTracks.placed i h hGet
  have hNe : headers.take i ≠ [] := by
    have hLength := (List.getElem?_eq_some_iff.mp hGet).1
    rw [ne_eq, List.take_eq_nil_iff]
    rintro (rfl | rfl)
    · omega
    · cases hLength
  rwa [Placed, if_neg hNe] at hPlaced

-- No name lies below a file's: a name's directories are all earlier members, and directories.
theorem Tracks.not_below (hTracks : Tracks l headers s) {f : Header} (hf : f ∈ headers)
    (hFile : f.typeflag ≠ typeDir) {i : Nat} (hGet : headers[i]? = some h) : ¬(f.name ++ [slash]) <+: h.name := by
  induction i using Nat.strong_induction_on generalizing h with
  | _ i ih =>
    intro hPrefix
    have hSlash : slash ∈ h.name := hPrefix.subset (by simp)
    rcases Nat.eq_zero_or_pos i with rfl | hi
    · have hRoot := hTracks.placed 0 h hGet
      rw [Placed, if_pos List.take_zero] at hRoot
      rw [hRoot.1] at hSlash
      exact absurd hSlash (by decide)
    · obtain ⟨hValid, p, hp, hDir, hType⟩ := hTracks.not_first hi hGet
      obtain ⟨hHead, hPlain, -, -⟩ := validName_spec hValid
      rcases dir_cases hPlain hHead with ⟨hNone, -⟩ | ⟨last, hLast, hName⟩
      · exact hNone hSlash
      · rw [hName, ← hDir] at hPrefix
        obtain ⟨j, hj⟩ := List.mem_iff_getElem?.mp hp
        rw [List.getElem?_take] at hj
        obtain ⟨hji, hj⟩ := Option.ite_none_right_eq_some.mp hj
        rcases prefix_dir hLast hPrefix with hEq | hAbove
        · have hp : p ∈ headers := List.mem_of_getElem? hj
          rw [List.inj_on_of_nodup_map hTracks.distinct hf hp hEq] at hFile
          exact hFile hType
        · exact ih j hji hj hAbove

end Tree

section Scanning

variable {next : Bytes → Option Header} {l : Limits} {σ : Type} {visit : Visitor σ}

def Read (r : Reader) (bytes : Bytes) (r' : Reader) : Prop :=
  r.rest = bytes ++ r'.rest ∧ r'.hashed = r.hashed ++ bytes

variable {r r' : Reader}

theorem Read.append {r₁ r₂ : Reader} {a b : Bytes} (h : Read r a r₁) (h' : Read r₁ b r₂) : Read r (a ++ b) r₂ :=
  ⟨by rw [h.1, h'.1, List.append_assoc], by rw [h'.2, h.2, List.append_assoc]⟩

theorem read_advance (r : Reader) (n : Nat) : Read r (r.rest.take n) (r.advance n) :=
  ⟨(List.take_append_drop n r.rest).symm, rfl⟩

theorem readFull_ok {n : Nat} {bytes : Bytes} (h : readFull n r = .ok (bytes, r')) :
    Read r bytes r' ∧ bytes.length = n := by
  unfold readFull at h
  split at h
  next => cases h
  next hLength =>
    obtain ⟨rfl, rfl⟩ := Prod.mk.inj (Except.ok.inj h)
    exact ⟨read_advance r n, List.length_take_of_le (Nat.not_lt.mp hLength)⟩

theorem visitBody_ok {h : Header} {state state' : σ} (hOk : visitBody visit h r state = .ok (state', r')) :
    ∃ body, Read r body r' ∧ body.length = h.size.toNat := by
  simp only [visitBody, bind_eq_ok, failIf_eq_ok, exists_unit, pure_eq_ok, Prod.exists, Prod.mk.injEq,
    bne_eq_false_iff_eq] at hOk
  obtain ⟨-, n, -, hAll, -, rfl⟩ := hOk
  refine ⟨_, read_advance r h.size.toNat, ?_⟩
  have hLe := List.length_take_le h.size.toNat r.rest
  omega

theorem readPadding_ok {size : Int} (h : readPadding size r = .ok r') :
    Read r (zeros (blockPadding size.toNat)) r' := by
  simp only [readPadding, bind_eq_ok, failIf_eq_ok, exists_unit, pure_eq_ok, Prod.exists, bne_eq_false_iff_eq] at h
  obtain ⟨_, _, hFull, rfl, rfl⟩ := h
  exact (readFull_ok hFull).1

theorem readTrailer_ok {s : Scanned} (h : readTrailer s r = .ok r') :
    Read r (zeros blockSize) r' ∧ r'.rest = [] ∧ s.members ≠ 0 := by
  simp only [readTrailer, bind_eq_ok, failIf_eq_ok, exists_unit, pure_eq_ok, Bool.or_eq_false_iff,
    bne_eq_false_iff_eq, decide_eq_false_iff_not] at h
  obtain ⟨⟨hZeros, hSome⟩, hEnd, rfl⟩ := h
  exact ⟨hZeros ▸ read_advance r blockSize, hEnd, hSome⟩

theorem headerFromBlock_size {block : Bytes} {h : Header} (hOk : headerFromBlock next block = .ok h) :
    0 ≤ h.size := by
  simp only [headerFromBlock, bind_eq_ok, failIf_eq_ok, exists_unit, pure_eq_ok, Bool.or_eq_false_iff,
    decide_eq_false_iff_not] at hOk
  obtain ⟨-, -, -, -, g, -, hChecks, rfl⟩ := hOk
  omega

theorem scanLoop_ok {rounds : Nat} {s s' : Scanned} {state state' : σ}
    (h : scanLoop next l visit rounds r s state = .ok (r', s', state')) :
    ∃ records : List Record, Read r (records.flatMap Record.bytes ++ (zeros blockSize ++ zeros blockSize)) r' ∧
      r'.rest = [] ∧ (∀ x ∈ records, x.Reads next) ∧
      (records.map Record.header).foldlM (admitHeader l) s = .ok s' ∧ s'.members ≠ 0 := by
  induction rounds generalizing r s state with
  | zero => cases h
  | succ _ ih =>
    simp only [scanLoop, bind_eq_ok, Prod.exists] at h
    obtain ⟨block, r₁, hBlock, h⟩ := h
    obtain ⟨hRead, hLength⟩ := readFull_ok hBlock
    split at h
    next hZeros =>
      simp only [bind_eq_ok, pure_eq_ok, Prod.mk.injEq] at h
      obtain ⟨r₂, hTrailer, rfl, rfl, rfl⟩ := h
      obtain ⟨hRead', hEnd, hSome⟩ := readTrailer_ok hTrailer
      exact ⟨[], by simpa using (hZeros ▸ hRead).append hRead', hEnd, by simp, rfl, hSome⟩
    next hNonzero =>
      simp only [bind_eq_ok, Prod.exists] at h
      obtain ⟨g, hHeader, s₁, hAdmit, state₁, r₂, hVisit, r₃, hPadding, hRest⟩ := h
      obtain ⟨body, hBody, hSize⟩ := visitBody_ok hVisit
      have hPad := readPadding_ok hPadding
      rw [← hSize] at hPad
      obtain ⟨records, hRecords, hEnd, hReads, hFold, hSome⟩ := ih hRest
      have hNonneg := headerFromBlock_size hHeader
      refine ⟨⟨block, g, body⟩ :: records, ?_, hEnd, ?_, ?_, hSome⟩
      · simpa [Record.bytes] using ((hRead.append hBody).append hPad).append hRecords
      · exact List.forall_mem_cons.mpr ⟨⟨hLength, hNonzero, hHeader, by dsimp only; omega⟩, hReads⟩
      · rw [List.map_cons, List.foldlM_cons]
        exact (bind_eq_ok _ _ _).mpr ⟨s₁, hAdmit, hFold⟩

-- What is accepted is an archive, and the summary is its own.
theorem archive_admission {archive : Bytes} {state state' : σ} {result : Summary}
    (h : scan next l visit archive state = .ok (result, state')) :
    ∃ records, IsArchive next l archive records ∧ result =
      { format := formatName
        digest := "sha256:" ++ Sha256.hex (Sha256.sum256 archive)
        archiveBytes := archive.length
        dataBytes := (records.map fun r => r.header.size).sum
        members := records.length } := by
  simp only [scan, bind_eq_ok, failIf_eq_ok, exists_unit, pure_eq_ok, Prod.exists, Prod.mk.injEq, Bool.not_eq_false']
    at h
  obtain ⟨hValid, -, r, s, state₁, hLoop, rfl, rfl⟩ := h
  obtain ⟨records, hRead, hEnd, hReads, hFold, hSome⟩ := scanLoop_ok hLoop
  have hTracks := foldlM_tracks (tracks_nil hValid) hFold
  rw [List.nil_append] at hTracks
  have hBytes : archive = records.flatMap Record.bytes ++ (zeros blockSize ++ zeros blockSize) := by
    simpa [hEnd] using hRead.1
  have hHashed : r.hashed = archive := by
    rw [hRead.2, ← hBytes]
    rfl
  have hAt : ∀ {i : Nat} {r : Record}, records[i]? = some r → (records.map Record.header)[i]? = some r.header := by
    intro i r hGet
    rw [List.getElem?_map, hGet]
    rfl
  have hCount : s.members = records.length := by rw [hTracks.members, List.length_map]
  have hData : s.dataBytes = (records.map fun r => r.header.size).sum := by rw [hTracks.data, List.map_map]; rfl
  have hLater : ∀ r ∈ records.tail, validName r.name l = true := by
    intro r hr
    obtain ⟨i, hi⟩ := List.mem_iff_getElem?.mp hr
    rw [List.getElem?_tail] at hi
    exact (hTracks.not_first (Nat.succ_pos i) (hAt hi)).1
  obtain ⟨root, rest, rfl⟩ : ∃ root rest, records = root :: rest := by
    refine List.exists_cons_of_ne_nil ?_
    rintro rfl
    exact hSome hCount
  have hRoot := hTracks.placed 0 root.header rfl
  rw [Placed, if_pos List.take_zero] at hRoot
  have hNames : ∀ r ∈ root :: rest,
      (r.name.length : Int) ≤ l.pathBytes ∧ ((split r.name).length : Int) ≤ l.depth := by
    refine List.forall_mem_cons.mpr ⟨?_, fun r hr => (validName_spec (hLater r hr)).2.2⟩
    have hRootName : root.name = here := hRoot.1
    simp only [Limits.valid, Bool.and_eq_true, decide_eq_true_eq] at hValid
    rw [hRootName]
    exact ⟨by show (1 : Int) ≤ _; omega, by show (1 : Int) ≤ _; omega⟩
  refine ⟨root :: rest, ?_, ?_⟩
  · exact {
      bytes := hBytes
      reads := hReads
      distinct := by
        have hDistinct := hTracks.distinct
        rwa [List.map_map] at hDistinct
      root := ⟨root, rfl, hRoot⟩
      relative := fun r hr => ⟨(validName_spec (hLater r hr)).1, (validName_spec (hLater r hr)).2.1⟩
      parent := by
        intro i r hi hGet
        obtain ⟨-, p, hp, hParent⟩ := hTracks.not_first hi (hAt hGet)
        rw [← List.map_take] at hp
        obtain ⟨q, hq, rfl⟩ := List.mem_map.mp hp
        exact ⟨q, hq, hParent⟩
      below := by
        intro f hf hFile r hr
        obtain ⟨i, hi⟩ := List.mem_iff_getElem?.mp hr
        exact hTracks.not_below (List.mem_map_of_mem hf) hFile (hAt hi)
      members := hCount ▸ hTracks.count
      fileBytes := fun r hr => hTracks.files _ (List.mem_map_of_mem hr)
      dataBytes := hData ▸ hTracks.total
      depth := fun r hr => (hNames r hr).2
      pathBytes := fun r hr => (hNames r hr).1 }
  · rw [summary, hHashed, hCount, hData]

end Scanning

section Samples

def smallLimits : Limits where
  archiveBytes := 4096
  dataBytes := 1024
  fileBytes := 512
  members := 10
  depth := 4
  pathBytes := 100

def filled (n : Nat) (text : Bytes) : Bytes := text ++ zeros (n - text.length)

-- A header block in the USTAR layout.
def headerBlock (name mode size checksum : String) (typeflag : UInt8) (uname : String) : Bytes :=
  filled 100 (utf8 name) ++ filled 8 (utf8 mode) ++ filled 8 (utf8 "0000000") ++ filled 8 (utf8 "0000000") ++
    filled 12 (utf8 size) ++ filled 12 (utf8 "00000000000") ++ filled 7 (utf8 checksum) ++ [32, typeflag] ++
    zeros 100 ++ filled 6 (utf8 "ustar") ++ utf8 "00" ++ filled 64 (utf8 uname) ++ filled 8 (utf8 "0000000") ++
    filled 175 (utf8 "0000000")

def rootBlock : Bytes := headerBlock "." "0000755" "00000000000" "012444" typeDir formatName
def fileBlock : Bytes := headerBlock "a" "0000644" "00000000002" "007340" typeReg ""

def sampleNext (block : Bytes) : Option Header :=
  if block = rootBlock then
    some { typeflag := typeDir, name := here, size := 0, mode := 0o755, uid := 0, gid := 0,
           uname := utf8 formatName }
  else if block = fileBlock then
    some { typeflag := typeReg, name := utf8 "a", size := 2, mode := 0o644, uid := 0, gid := 0 }
  else none

def sampleArchive : Bytes := rootBlock ++ fileBlock ++ filled 512 (utf8 "hi") ++ zeros 1024

-- The digest of the summary is not evaluated.
theorem sample_archive_admitted :
    scan sampleNext smallLimits discard sampleArchive () = .ok (summary sampleArchive sampleArchive 2 2, ()) ∧
      ∃ records, IsArchive sampleNext smallLimits sampleArchive records ∧ records.length = 2 := by
  have hLength : sampleArchive.length = 2560 := by decide +kernel
  have hLoop : scanLoop sampleNext smallLimits discard (2560 / 512 + 1) ⟨sampleArchive, []⟩ {} () =
      .ok (⟨[], sampleArchive⟩, ⟨[(utf8 "a", typeReg), (here, typeDir)], 2, 2⟩, ()) := by decide +kernel
  have h : scan sampleNext smallLimits discard sampleArchive () =
      .ok (summary sampleArchive sampleArchive 2 2, ()) := by
    rw [scan, hLength, hLoop]
    rfl
  obtain ⟨records, hArchive, hSummary⟩ := archive_admission h
  have hMembers : (2 : Int) = records.length := congrArg Summary.members hSummary
  exact ⟨h, records, hArchive, by omega⟩

end Samples

end NeroCD.StorageArchive
