import Mathlib.Algebra.Order.Ring.Int
import NeroCD.Checks
import NeroCD.Paths

-- The check of an exported image archive (`hostingbuild/archive.go`). The hash and the decoders are given functions.

namespace NeroCD.ImageExport

open NeroCD.Checks NeroCD.GoStrings NeroCD.Paths

inductive Typeflag where
  | reg
  | dir
  | link
  | other
deriving DecidableEq

-- The header, what a read of the body gives and whether it fails, and how much of the stream was read before.
structure Member where
  typeflag : Typeflag
  name : Bytes
  linkname : Bytes := []
  size : Int
  body : Bytes
  broken : Bool := false
  position : Nat := 0

structure Descriptor where
  mediaType : Bytes
  digest : Bytes
  size : Int
  os : Bytes := []
  architecture : Bytes := []

structure Index where
  schemaVersion : Int
  mediaType : Bytes
  manifests : List Descriptor

structure Manifest where
  schemaVersion : Int
  mediaType : Bytes
  config : Descriptor
  layers : List Descriptor

structure Config where
  os : Bytes
  architecture : Bytes
  rootType : Bytes
  diffIDs : List Bytes

structure Identity where
  index : Bytes
  manifest : Bytes
  config : Bytes
  platform : Bytes
deriving DecidableEq

inductive Token where
  | delim (c : UInt8)
  | text (value : Bytes)
  | other
deriving DecidableEq

-- The given functions. A reader's flag tells whether its stream ends well, and `σ` is the state of a JSON decoder.
structure Library (σ : Type) where
  hex : Bytes → Bytes
  tar : Bytes → List Member × Bool
  gunzip : Bytes → Option (Bytes × Bool)
  layoutVersion : Bytes → Option Bytes
  index : Bytes → Option Index
  manifest : Bytes → Option Manifest
  config : Bytes → Option Config
  newDecoder : Bytes → σ
  token : σ → Option (Token × σ)
  more : σ → Bool
  decodeText : σ → Option (Bytes × σ)
  decodeTexts : σ → Option (List Bytes × σ)
  atEnd : σ → Bool

-- The validation of a request keeps the budgets below this bound, so that no sum here overflows.
structure Limits where
  exportBytes : Nat
  unpackedBytes : Nat
  bounded : exportBytes ≤ 2 ^ 50 ∧ unpackedBytes ≤ 2 ^ 50

structure File where
  name : Bytes
  content : Bytes
deriving DecidableEq

def mediaManifest : Bytes := utf8 "application/vnd.oci.image.manifest.v1+json"
def mediaIndex : Bytes := utf8 "application/vnd.oci.image.index.v1+json"
def mediaConfig : Bytes := utf8 "application/vnd.oci.image.config.v1+json"
def mediaLayer : Bytes := utf8 "application/vnd.oci.image.layer.v1.tar+gzip"

def layoutName : Bytes := utf8 "oci-layout"
def indexName : Bytes := utf8 "index.json"
def mappingName : Bytes := utf8 "manifest.json"
def blobs : Bytes := utf8 "blobs/"
def blobDir : Bytes := utf8 "blobs/sha256/"
def sha256 : Bytes := utf8 "sha256:"

def hexDigit (b : UInt8) : Bool := (97 ≤ b && b ≤ 102) || (48 ≤ b && b ≤ 57)

-- `digestPattern`.
def isDigest (text : Bytes) : Bool :=
  sha256.isPrefixOf text && (text.drop sha256.length).length == 64 && (text.drop sha256.length).all hexDigit

def need {α : Type} (x : Option α) (message : String) : Except String α :=
  match x with
  | some a => .ok a
  | none => .error message

@[simp] theorem need_eq_ok {α : Type} (x : Option α) (message : String) (a : α) :
    need x message = .ok a ↔ x = some a := by
  cases x <;> simp [need]

section Validate

-- `works` tells whether the system's calls for a member succeed.
variable {σ : Type} (lib : Library σ) (l : Limits) (works : Bytes → Bool)

def validMember (name : Bytes) : Bool :=
  name == indexName || name == layoutName || name == mappingName ||
    (blobDir.isPrefixOf name && isDigest (sha256 ++ trimPrefix name blobDir))

structure Scanned where
  seen : List File := []
  total : Nat := 0

def addMember (m : Member) (s : Scanned) : Except String Scanned :=
  if m.typeflag = .dir ∧ (m.name = blobs ∨ m.name = blobDir) then pure s
  else do
    refuse (!validMember m.name || m.typeflag != .reg || m.size < 0 || m.size > l.exportBytes - s.total)
      "invalid OCI archive member or size"
    refuse (s.seen.any (·.name == m.name)) "duplicate OCI archive member"
    refuse (s.seen.length ≥ 100000) "OCI archive member count exceeded"
    refuse (!works m.name || m.broken) "copy failed"
    refuse ((m.body.length : Int) != m.size) "unexpected EOF"
    refuse (blobs.isPrefixOf m.name && lib.hex m.body != base m.name) "OCI blob digest mismatch"
    pure { seen := s.seen ++ [⟨m.name, m.body⟩], total := s.total + m.body.length }

def addMembers : List Member → Scanned → Except String Scanned
  | [], s => pure s
  | m :: rest, s => do
      let s ← addMember lib l works m s
      addMembers rest s

def find (files : List File) (name : Bytes) : Option File := files.find? (·.name == name)

def read (files : List File) (name : Bytes) : Except String Bytes := do
  let file ← need (find files name) "no such file"
  refuse (file.content.length > 4 * 2 ^ 20) "OCI metadata exceeds 4MiB"
  pure file.content

def blobName (d : Descriptor) : Bytes := blobDir ++ trimPrefix d.digest sha256

def resolve (files : List File) (d : Descriptor) (media : Bytes) : Except String File := do
  refuse (d.mediaType != media || !isDigest d.digest || d.size < 0) "unsupported OCI descriptor"
  let file ← need (find files (blobName d)) "OCI descriptor size mismatch"
  refuse ((file.content.length : Int) != d.size) "OCI descriptor size mismatch"
  pure file

def platformOf (os architecture : Bytes) : Bytes := os ++ slash :: architecture

def readIndex (files : List File) (platform : Bytes) : Except String (Bytes × Descriptor) := do
  let layout ← read files layoutName
  refuse (lib.layoutVersion layout != some (utf8 "1.0.0")) "invalid OCI layout"
  let indexBytes ← read files indexName
  let index ← need (lib.index indexBytes) "single OCI manifest required"
  refuse (index.schemaVersion != 2 || (index.mediaType != [] && index.mediaType != mediaIndex))
    "single OCI manifest required"
  match index.manifests with
  | [d] => do
      let _ ← resolve files d mediaManifest
      refuse (d.os != [] && platformOf d.os d.architecture != platform) "OCI manifest platform mismatch"
      pure (indexBytes, d)
  | _ => .error "single OCI manifest required"

def readManifest (files : List File) (d : Descriptor) : Except String Manifest := do
  let raw ← read files (blobName d)
  let m ← need (lib.manifest raw) "invalid OCI image manifest"
  refuse (m.schemaVersion != 2 || m.mediaType != mediaManifest || m.layers.length > 10000)
    "invalid OCI image manifest"
  pure m

def readConfig (files : List File) (m : Manifest) (platform : Bytes) : Except String Config := do
  let file ← resolve files m.config mediaConfig
  let raw ← read files file.name
  let c ← need (lib.config raw) "OCI image config/platform mismatch"
  refuse (platformOf c.os c.architecture != platform || c.rootType != utf8 "layers" ||
    c.diffIDs.length != m.layers.length) "OCI image config/platform mismatch"
  pure c

def leaves (name : Bytes) : Bool := clean name == up || (up ++ [slash]).isPrefixOf (clean name)

-- The members of a layer, after so many others; the reader had `limit` bytes to give.
def checkEntries (limit : Nat) : Nat → List Member → Except String Unit
  | _, [] => pure ()
  | entries, m :: rest => do
      refuse (entries + 1 > 1000000 || m.name.head? == some slash || leaves m.name || m.size < 0 ||
        m.size > limit - m.position) "invalid or oversized image layer member"
      refuse (m.typeflag == .link && (m.linkname.head? == some slash || leaves m.linkname))
        "invalid image hardlink target"
      checkEntries limit (entries + 1) rest

def checkLayer (files : List File) (d : Descriptor) (diffID : Bytes) (expanded : Nat) : Except String Nat := do
  let file ← resolve files d mediaLayer
  let (data, ended) ← need (lib.gunzip file.content) "gzip"
  -- The limited reader: what lies behind its limit is neither read nor hashed.
  let limit := l.unpackedBytes - expanded + 1
  let text := data.take limit
  checkEntries limit 0 (lib.tar text).1
  refuse (!(lib.tar text).2 || (data.length < limit && !ended)) "layer read failed"
  refuse (expanded + text.length > l.unpackedBytes) "unpacked image byte budget exceeded"
  refuse (sha256 ++ lib.hex text != diffID) "OCI layer diffID mismatch"
  pure (expanded + text.length)

def checkLayers (files : List File) : List (Descriptor × Bytes) → Nat → Except String Nat
  | [], expanded => pure expanded
  | (d, diffID) :: rest, expanded => do
      let expanded ← checkLayer lib l files d diffID expanded
      checkLayers files rest expanded

structure Mapping where
  config : Option Bytes := none
  layers : Option (List Bytes) := none
  tags : Option (List Bytes) := none

def delim (c : UInt8) (d : σ) : Option σ :=
  match lib.token d with
  | some (.delim c', d) => if c' = c then some d else none
  | _ => none

def decodeField (key : Bytes) (d : σ) (m : Mapping) : Option (Mapping × σ) :=
  if key = utf8 "Config" then
    if m.config.isSome then none else (lib.decodeText d).map fun r => ({ m with config := some r.1 }, r.2)
  else if key = utf8 "Layers" then
    if m.layers.isSome then none else (lib.decodeTexts d).map fun r => ({ m with layers := some r.1 }, r.2)
  else if key = utf8 "RepoTags" then
    if m.tags.isSome then none else (lib.decodeTexts d).map fun r => ({ m with tags := some r.1 }, r.2)
  else none

-- A fourth key is one of the three again or unknown, so that four rounds are all.
def decodeFields : Nat → σ → Mapping → Option (Mapping × σ)
  | 0, _, _ => none
  | rounds + 1, d, m =>
    if lib.more d then
      match lib.token d with
      | some (.text key, d) => (decodeField lib key d m).bind fun r => decodeFields rounds r.2 r.1
      | _ => none
    else some (m, d)

def decodeMapping (raw : Bytes) : Option Mapping := do
  let d ← delim lib 91 (lib.newDecoder raw)
  let d ← delim lib 123 d
  let (m, d) ← decodeFields lib 4 d {}
  let d ← delim lib 125 d
  let d ← delim lib 93 d
  if lib.atEnd d then some m else none

def validateDockerImportManifest (raw config : Bytes) (layers : List Descriptor) : Except String Unit := do
  let m ← need (decodeMapping lib raw) "docker import mapping does not match validated OCI image"
  refuse (m.config != some config || (m.tags.getD []).length != 0 || m.layers != some (layers.map blobName))
    "docker import mapping does not match validated OCI image"

def checkMapping (files : List File) (m : Manifest) : Except String Unit :=
  match find files mappingName with
  | none => .ok ()
  | some _ => do
      let raw ← read files mappingName
      validateDockerImportManifest lib raw (blobName m.config) m.layers

-- The names in `used` at the end.
def usedNames (files : List File) (d : Descriptor) (m : Manifest) : List Bytes :=
  [blobName m.config, blobName d, layoutName, indexName] ++ m.layers.map blobName ++
    (if (find files mappingName).isSome then [mappingName] else [])

-- `validateExport` from its first read on.
def validateStream (stream : List Member × Bool) (platform : Bytes) : Except String Identity := do
  let s ← addMembers lib l works stream.1 {}
  refuse (!stream.2) "archive read failed"
  let (indexBytes, d) ← readIndex lib s.seen platform
  let m ← readManifest lib s.seen d
  let c ← readConfig lib s.seen m platform
  let _ ← checkLayers lib l s.seen (m.layers.zip c.diffIDs) 0
  checkMapping lib s.seen m
  forEach (fun file : File => refuse (!(usedNames s.seen d m).contains file.name) "unreferenced OCI member") s.seen
  pure ⟨sha256 ++ lib.hex indexBytes, d.digest, m.config.digest, platform⟩

def validateExport (archive platform : Bytes) : Except String Identity := do
  refuse (archive.length > l.exportBytes) "export byte budget exceeded"
  validateStream lib l works (lib.tar (archive.take (l.exportBytes + 1))) platform

end Validate

section Graph

variable {σ : Type} (lib : Library σ) (l : Limits)

def regular (members : List Member) : List Member := members.filter (·.typeflag = .reg)

def Member.file (m : Member) : File := ⟨m.name, m.body⟩

inductive Field where
  | config (value : Bytes)
  | layers (value : List Bytes)
  | tags (value : List Bytes)

def ReadsValue (key : Bytes) (d : σ) : Field → σ → Prop
  | .config value, d' => key = utf8 "Config" ∧ lib.decodeText d = some (value, d')
  | .layers value, d' => key = utf8 "Layers" ∧ lib.decodeTexts d = some (value, d')
  | .tags value, d' => key = utf8 "RepoTags" ∧ lib.decodeTexts d = some (value, d')

inductive ReadsFields : σ → List Field → σ → Prop
  | done (d : σ) (h : lib.more d = false) : ReadsFields d [] d
  | field (d d₁ d₂ d₃ : σ) (key : Bytes) (field : Field) (fields : List Field) (hMore : lib.more d = true)
      (hKey : lib.token d = some (.text key, d₁)) (hValue : ReadsValue lib key d₁ field d₂)
      (hRest : ReadsFields d₂ fields d₃) : ReadsFields d (field :: fields) d₃

-- One object in an array and nothing else, with the given config and layers and no tags.
def Maps (raw config : Bytes) (layers : List Bytes) : Prop :=
  ∃ fields d₁ d₂ d₃ d₄ d₅, delim lib 91 (lib.newDecoder raw) = some d₁ ∧ delim lib 123 d₁ = some d₂ ∧
    ReadsFields lib d₂ fields d₃ ∧ delim lib 125 d₃ = some d₄ ∧ delim lib 93 d₄ = some d₅ ∧ lib.atEnd d₅ = true ∧
    (∀ value, .config value ∈ fields ↔ value = config) ∧ (∀ value, .layers value ∈ fields ↔ value = layers) ∧
    ∀ value, .tags value ∈ fields → value = []

-- The graph of one image, of which `data` are the decompressed layers, and nothing else.
structure IsImage (files : List File) (platform : Bytes) (d : Descriptor) (m : Manifest) (c : Config)
    (data : List Bytes) : Prop where
  distinct : (files.map File.name).Nodup
  layout : ∃ f ∈ files, f.name = layoutName ∧ lib.layoutVersion f.content = some (utf8 "1.0.0")
  index : ∃ f ∈ files, f.name = indexName ∧ ∃ index, lib.index f.content = some index ∧ index.manifests = [d]
  manifest : ∃ f ∈ files, f.name = blobName d ∧ lib.manifest f.content = some m
  config : ∃ f ∈ files, f.name = blobName m.config ∧ lib.config f.content = some c
  exact : ∀ name ≠ mappingName, name ∈ files.map File.name ↔
    name ∈ [blobName m.config, blobName d, layoutName, indexName] ++ m.layers.map blobName
  mapping : ∀ f ∈ files, f.name = mappingName → Maps lib f.content (blobName m.config) (m.layers.map blobName)
  blobs : ∀ f ∈ files, f.name ∈ [layoutName, indexName, mappingName] ∨ f.name = blobDir ++ lib.hex f.content
  descriptors : ∀ e ∈ d :: m.config :: m.layers, ∃ f ∈ files, f.name = blobName e ∧
    (f.content.length : Int) = e.size ∧ e.digest = sha256 ++ lib.hex f.content
  platform : platformOf c.os c.architecture = platform
  layers : List.Forall₂ (fun e text => ∃ f ∈ files, f.name = blobName e ∧ lib.gunzip f.content = some (text, true))
    m.layers data
  diffIDs : c.diffIDs = data.map fun text => sha256 ++ lib.hex text
  unpacked : (data.map List.length).sum ≤ l.unpackedBytes

end Graph

section Members

variable {σ : Type} {lib : Library σ} {l : Limits} {works : Bytes → Bool}

theorem hexDigit_slash : hexDigit slash = false := by decide

theorem isDigest_eq {text : Bytes} (h : isDigest text = true) :
    ∃ digits, text = sha256 ++ digits ∧ digits ≠ [] ∧ slash ∉ digits := by
  simp only [isDigest, Bool.and_eq_true, List.isPrefixOf_iff_prefix, beq_iff_eq, List.all_eq_true] at h
  obtain ⟨⟨⟨digits, rfl⟩, hLength⟩, hAll⟩ := h
  rw [List.drop_left] at hLength hAll
  refine ⟨digits, rfl, ?_, ?_⟩
  · rintro rfl
    cases hLength
  · exact fun hMem => absurd (hAll _ hMem) (by rw [hexDigit_slash]; decide)

def Named (lib : Library σ) (f : File) : Prop :=
  f.name ∈ [layoutName, indexName, mappingName] ∨ f.name = blobDir ++ lib.hex f.content

theorem named_of_valid {f : File} (hValid : validMember f.name = true)
    (hDigest : (blobs.isPrefixOf f.name && lib.hex f.content != base f.name) = false) : Named lib f := by
  simp only [validMember, Bool.or_eq_true, beq_iff_eq, Bool.and_eq_true, List.isPrefixOf_iff_prefix] at hValid
  rcases hValid with ((hName | hName) | hName) | ⟨⟨rest, hName⟩, hRest⟩
  · exact .inl (by simp [hName])
  · exact .inl (by simp [hName])
  · exact .inl (by simp [hName])
  · rw [← hName, trimPrefix_append] at hRest
    obtain ⟨digits, hDigits, hNe, hSlash⟩ := isDigest_eq hRest
    obtain rfl := List.append_cancel_left hDigits
    have hBlobs : blobs.isPrefixOf f.name = true := by
      rw [← hName, List.isPrefixOf_iff_prefix]
      exact List.IsPrefix.trans (by decide) (List.prefix_append _ _)
    have hBase : base f.name = rest := by
      rw [← hName]
      exact base_append hSlash hNe (utf8 "blobs/sha256")
    rw [hBlobs, Bool.true_and, bne_eq_false_iff_eq, hBase] at hDigest
    exact .inr (by rw [hDigest, hName])

theorem addMember_ok {m : Member} {s s' : Scanned} (h : addMember lib l works m s = .ok s') :
    (m.typeflag ≠ .reg ∧ s' = s) ∨
      (m.typeflag = .reg ∧ (m.body.length : Int) = m.size ∧ s.total + m.body.length ≤ l.exportBytes ∧
        m.name ∉ s.seen.map File.name ∧ Named lib m.file ∧
        s' = { seen := s.seen ++ [m.file], total := s.total + m.body.length }) := by
  unfold addMember at h
  split at h
  next hDir => exact .inl ⟨by simp [hDir.1], ((pure_eq_ok _ _).mp h).symm⟩
  next =>
    simp only [bind_eq_ok, refuse_eq_ok, exists_unit, pure_eq_ok, Bool.or_eq_false_iff, Bool.not_eq_false',
      bne_eq_false_iff_eq, decide_eq_false_iff_not, List.any_eq_false, beq_iff_eq] at h
    obtain ⟨⟨⟨⟨hValid, hReg⟩, -⟩, hRoom⟩, hNew, -, -, hSize, hDigest, rfl⟩ := h
    refine .inr ⟨hReg, hSize, by omega, ?_, named_of_valid hValid hDigest, rfl⟩
    rintro hMem
    obtain ⟨f, hf, hName⟩ := List.mem_map.mp hMem
    exact hNew f hf hName

structure Copied (lib : Library σ) (l : Limits) (members : List Member) (s s' : Scanned) : Prop where
  seen : s'.seen = s.seen ++ (regular members).map Member.file
  total : (s'.total : Int) = s.total + ((regular members).map Member.size).sum
  sizes : ∀ m ∈ regular members, (m.body.length : Int) = m.size
  named : ∀ m ∈ regular members, Named lib m.file
  distinct : (s.seen.map File.name).Nodup → (s'.seen.map File.name).Nodup
  budget : s.total ≤ l.exportBytes → s'.total ≤ l.exportBytes

theorem addMembers_ok {members : List Member} {s s' : Scanned} (h : addMembers lib l works members s = .ok s') :
    Copied lib l members s s' := by
  induction members generalizing s with
  | nil =>
    obtain rfl := (pure_eq_ok _ _).mp h
    exact ⟨by simp [regular], by simp [regular], by simp [regular], by simp [regular], id, id⟩
  | cons m rest ih =>
    obtain ⟨s₁, hMember, hRest⟩ := (bind_eq_ok _ _ _).mp h
    have hCopied := ih hRest
    rcases addMember_ok hMember with ⟨hOther, rfl⟩ | ⟨hReg, hSize, hRoom, hNew, hNamed, rfl⟩
    · have hRegular : regular (m :: rest) = regular rest := by simp [regular, hOther]
      exact ⟨hRegular ▸ hCopied.seen, hRegular ▸ hCopied.total, hRegular ▸ hCopied.sizes, hRegular ▸ hCopied.named,
        hCopied.distinct, hCopied.budget⟩
    · have hRegular : regular (m :: rest) = m :: regular rest := by simp [regular, hReg]
      refine ⟨?_, ?_, ?_, ?_, ?_, fun _ => hCopied.budget hRoom⟩
      · rw [hRegular, hCopied.seen, List.append_assoc, List.map_cons, List.singleton_append]
      · rw [hRegular, hCopied.total, List.map_cons, List.sum_cons, ← hSize, Int.natCast_add, Int.add_assoc]
      · rw [hRegular, List.forall_mem_cons]
        exact ⟨hSize, hCopied.sizes⟩
      · rw [hRegular, List.forall_mem_cons]
        exact ⟨hNamed, hCopied.named⟩
      · intro hNodup
        refine hCopied.distinct ?_
        rw [List.map_append, List.map_singleton]
        exact hNodup.append (List.nodup_singleton _) (List.disjoint_singleton.mpr hNew)

end Members

section Metadata

variable {σ : Type} {lib : Library σ} {l : Limits} {files : List File} {platform : Bytes}

theorem find_some {name : Bytes} {f : File} (h : find files name = some f) : f ∈ files ∧ f.name = name :=
  ⟨List.mem_of_find?_eq_some h, by simpa using List.find?_some h⟩

theorem read_ok {name content : Bytes} (h : read files name = .ok content) :
    ∃ f ∈ files, f.name = name ∧ f.content = content := by
  simp only [read, bind_eq_ok, need_eq_ok, exists_unit, pure_eq_ok] at h
  obtain ⟨f, hFind, -, hContent⟩ := h
  exact ⟨f, (find_some hFind).1, (find_some hFind).2, hContent⟩

def Described (lib : Library σ) (files : List File) (d : Descriptor) (f : File) : Prop :=
  f ∈ files ∧ f.name = blobName d ∧ (f.content.length : Int) = d.size ∧ d.digest = sha256 ++ lib.hex f.content

variable {d : Descriptor}

theorem resolve_ok {media : Bytes} {f : File} (hNamed : ∀ f ∈ files, Named lib f)
    (h : resolve files d media = .ok f) : Described lib files d f := by
  simp only [resolve, bind_eq_ok, need_eq_ok, refuse_eq_ok, exists_unit, pure_eq_ok, Bool.or_eq_false_iff,
    Bool.not_eq_false', bne_eq_false_iff_eq] at h
  obtain ⟨⟨⟨-, hDigest⟩, -⟩, f', hFind, hSize, rfl⟩ := h
  obtain ⟨hMem, hName⟩ := find_some hFind
  obtain ⟨digits, hText, -, -⟩ := isDigest_eq hDigest
  have hBlob : f'.name = blobDir ++ digits := by rw [hName, blobName, hText, trimPrefix_append]
  refine ⟨hMem, hName, hSize, ?_⟩
  rcases hNamed f' hMem with hMeta | hHex
  · -- None of the three other names lies in the directory of the blobs.
    have hHead : ∀ name ∈ [layoutName, indexName, mappingName], name.head? ≠ some 98 := by decide
    exact absurd (by rw [hBlob]; rfl) (hHead _ hMeta)
  · rw [hText, List.append_cancel_left (hBlob.symm.trans hHex)]

theorem readIndex_ok {indexBytes : Bytes} (hNamed : ∀ f ∈ files, Named lib f)
    (h : readIndex lib files platform = .ok (indexBytes, d)) :
    (∃ f ∈ files, f.name = layoutName ∧ lib.layoutVersion f.content = some (utf8 "1.0.0")) ∧
      (∃ f ∈ files, f.name = indexName ∧ ∃ index, lib.index f.content = some index ∧ index.manifests = [d]) ∧
      ∃ f, Described lib files d f := by
  simp only [readIndex, bind_eq_ok, need_eq_ok, refuse_eq_ok, exists_unit, bne_eq_false_iff_eq] at h
  obtain ⟨layout, hLayout, hVersion, raw, hRaw, index, hIndex, -, h⟩ := h
  obtain ⟨f, hf, hName, rfl⟩ := read_ok hLayout
  obtain ⟨g, hg, hIndexName, rfl⟩ := read_ok hRaw
  split at h
  next d' hManifests =>
    simp only [bind_eq_ok, refuse_eq_ok, exists_unit, pure_eq_ok, Prod.mk.injEq] at h
    obtain ⟨blob, hResolve, -, -, rfl⟩ := h
    exact ⟨⟨f, hf, hName, hVersion⟩, ⟨g, hg, hIndexName, index, hIndex, hManifests⟩, blob, resolve_ok hNamed hResolve⟩
  next => cases h

theorem readManifest_ok {m : Manifest} (h : readManifest lib files d = .ok m) :
    ∃ f ∈ files, f.name = blobName d ∧ lib.manifest f.content = some m := by
  simp only [readManifest, bind_eq_ok, need_eq_ok, refuse_eq_ok, exists_unit, pure_eq_ok] at h
  obtain ⟨raw, hRaw, m', hManifest, -, rfl⟩ := h
  obtain ⟨f, hf, hName, rfl⟩ := read_ok hRaw
  exact ⟨f, hf, hName, hManifest⟩

theorem readConfig_ok {m : Manifest} {c : Config} (hNamed : ∀ f ∈ files, Named lib f)
    (h : readConfig lib files m platform = .ok c) :
    (∃ f ∈ files, f.name = blobName m.config ∧ lib.config f.content = some c) ∧
      (∃ f, Described lib files m.config f) ∧ platformOf c.os c.architecture = platform ∧
      c.diffIDs.length = m.layers.length := by
  simp only [readConfig, bind_eq_ok, need_eq_ok, refuse_eq_ok, exists_unit, pure_eq_ok, Bool.or_eq_false_iff,
    bne_eq_false_iff_eq] at h
  obtain ⟨blob, hResolve, raw, hRaw, c', hConfig, ⟨⟨hPlatform, -⟩, hLength⟩, rfl⟩ := h
  have hBlob := resolve_ok hNamed hResolve
  obtain ⟨f, hf, hName, rfl⟩ := read_ok hRaw
  exact ⟨⟨f, hf, hName.trans hBlob.2.1, hConfig⟩, ⟨blob, hBlob⟩, hPlatform, hLength⟩

-- A layer that passes was read to its end: the limit is one byte more than what may be left.
theorem checkLayer_ok {diffID : Bytes} {expanded expanded' : Nat} (hNamed : ∀ f ∈ files, Named lib f)
    (h : checkLayer lib l files d diffID expanded = .ok expanded') :
    ∃ f data, Described lib files d f ∧ lib.gunzip f.content = some (data, true) ∧
      diffID = sha256 ++ lib.hex data ∧ expanded' = expanded + data.length ∧ expanded' ≤ l.unpackedBytes := by
  simp only [checkLayer, bind_eq_ok, need_eq_ok, refuse_eq_ok, exists_unit, pure_eq_ok, Prod.exists,
    Bool.or_eq_false_iff, Bool.and_eq_false_iff, Bool.not_eq_false', bne_eq_false_iff_eq,
    decide_eq_false_iff_not] at h
  obtain ⟨f, hResolve, data, ended, hGunzip, -, ⟨-, hEnded⟩, hBudget, hDiff, rfl⟩ := h
  have hShort : data.length < l.unpackedBytes - expanded + 1 := by
    rw [List.length_take] at hBudget
    omega
  have hTake : data.take (l.unpackedBytes - expanded + 1) = data := List.take_of_length_le hShort.le
  rw [hTake] at hDiff hBudget ⊢
  have hTrue : ended = true := hEnded.resolve_left fun hLong => hLong hShort
  exact ⟨f, data, resolve_ok hNamed hResolve, hTrue ▸ hGunzip, hDiff.symm, rfl, by omega⟩

theorem checkLayers_ok {layers : List Descriptor} {diffIDs : List Bytes} {expanded expanded' : Nat}
    (hNamed : ∀ f ∈ files, Named lib f) (hLength : diffIDs.length = layers.length)
    (hStart : expanded ≤ l.unpackedBytes)
    (h : checkLayers lib l files (layers.zip diffIDs) expanded = .ok expanded') :
    ∃ data : List Bytes,
      (∀ d ∈ layers, ∃ f, Described lib files d f) ∧
      List.Forall₂ (fun d text => ∃ f ∈ files, f.name = blobName d ∧ lib.gunzip f.content = some (text, true))
        layers data ∧
      diffIDs = data.map (fun text => sha256 ++ lib.hex text) ∧
      expanded + (data.map List.length).sum ≤ l.unpackedBytes := by
  induction layers generalizing diffIDs expanded with
  | nil => exact ⟨[], by simp, .nil, List.length_eq_zero_iff.mp hLength, hStart⟩
  | cons _ _ ih =>
    cases diffIDs with
    | nil => cases hLength
    | cons _ _ =>
      obtain ⟨between, hLayer, hRest⟩ := (bind_eq_ok _ _ _).mp h
      obtain ⟨f, text, hDescribed, hGunzip, rfl, rfl, hBudget⟩ := checkLayer_ok hNamed hLayer
      obtain ⟨data, hFiles, hAll, rfl, hSum⟩ := ih (Nat.succ.inj hLength) hBudget hRest
      refine ⟨text :: data, List.forall_mem_cons.mpr ⟨⟨f, hDescribed⟩, hFiles⟩,
        .cons ⟨f, hDescribed.1, hDescribed.2.1, hGunzip⟩ hAll, rfl, ?_⟩
      rw [List.map_cons, List.sum_cons]
      omega

end Metadata

section Mappings

variable {σ : Type} {lib : Library σ}

def Mapping.Holds (m : Mapping) : Field → Prop
  | .config value => m.config = some value
  | .layers value => m.layers = some value
  | .tags value => m.tags = some value

theorem decodeField_some {key : Bytes} {d d' : σ} {m m' : Mapping} (h : decodeField lib key d m = some (m', d')) :
    ∃ field, ReadsValue lib key d field d' ∧ ∀ f, m'.Holds f ↔ m.Holds f ∨ f = field := by
  unfold decodeField at h
  split at h
  next hKey =>
    split at h
    next => cases h
    next hNew =>
      obtain ⟨⟨value, d₁⟩, hDecode, hEq⟩ := Option.map_eq_some_iff.mp h
      obtain ⟨rfl, rfl⟩ := Prod.mk.inj hEq
      refine ⟨.config value, ⟨hKey, hDecode⟩, ?_⟩
      have hNone : m.config = none := Option.not_isSome_iff_eq_none.mp hNew
      rintro (v | v | v) <;> simp [Mapping.Holds, hNone, eq_comm]
  next =>
    split at h
    next hKey =>
      split at h
      next => cases h
      next hNew =>
        obtain ⟨⟨value, d₁⟩, hDecode, hEq⟩ := Option.map_eq_some_iff.mp h
        obtain ⟨rfl, rfl⟩ := Prod.mk.inj hEq
        refine ⟨.layers value, ⟨hKey, hDecode⟩, ?_⟩
        have hNone : m.layers = none := Option.not_isSome_iff_eq_none.mp hNew
        rintro (v | v | v) <;> simp [Mapping.Holds, hNone, eq_comm]
    next =>
      split at h
      next hKey =>
        split at h
        next => cases h
        next hNew =>
          obtain ⟨⟨value, d₁⟩, hDecode, hEq⟩ := Option.map_eq_some_iff.mp h
          obtain ⟨rfl, rfl⟩ := Prod.mk.inj hEq
          refine ⟨.tags value, ⟨hKey, hDecode⟩, ?_⟩
          have hNone : m.tags = none := Option.not_isSome_iff_eq_none.mp hNew
          rintro (v | v | v) <;> simp [Mapping.Holds, hNone, eq_comm]
      next => cases h

theorem decodeFields_some {rounds : Nat} {d d' : σ} {m m' : Mapping}
    (h : decodeFields lib rounds d m = some (m', d')) :
    ∃ fields, ReadsFields lib d fields d' ∧ ∀ f, m'.Holds f ↔ m.Holds f ∨ f ∈ fields := by
  induction rounds generalizing d m with
  | zero => cases h
  | succ _ ih =>
    unfold decodeFields at h
    split at h
    next hMore =>
      split at h
      next key d₁ hKey =>
        obtain ⟨⟨m₁, d₂⟩, hField, hRest⟩ := Option.bind_eq_some_iff.mp h
        obtain ⟨field, hValue, hHolds⟩ := decodeField_some hField
        obtain ⟨fields, hFields, hAll⟩ := ih hRest
        refine ⟨field :: fields, .field d d₁ d₂ d' key field fields hMore hKey hValue hFields, ?_⟩
        intro f
        rw [hAll, hHolds, List.mem_cons, or_assoc]
      next => cases h
    next hDone =>
      obtain ⟨rfl, rfl⟩ := Prod.mk.inj (Option.some.inj h)
      exact ⟨[], .done d (Bool.eq_false_iff.mpr hDone), by simp⟩

theorem validateDockerImportManifest_ok {raw config : Bytes} {layers : List Descriptor}
    (h : validateDockerImportManifest lib raw config layers = .ok ()) :
    Maps lib raw config (layers.map blobName) := by
  simp only [validateDockerImportManifest, bind_eq_ok, need_eq_ok, refuse_eq_ok, Bool.or_eq_false_iff,
    bne_eq_false_iff_eq, List.length_eq_zero_iff] at h
  obtain ⟨m, hDecode, ⟨hConfig, hTags⟩, hLayers⟩ := h
  simp only [decodeMapping, Option.bind_eq_bind, Option.bind_eq_some_iff, Prod.exists] at hDecode
  obtain ⟨d₁, h₁, d₂, h₂, m', d₃, hLoop, d₄, h₄, d₅, h₅, hEnd⟩ := hDecode
  obtain ⟨hAtEnd, hSome⟩ := Option.ite_none_right_eq_some.mp hEnd
  obtain rfl := Option.some.inj hSome
  obtain ⟨fields, hFields, hHolds⟩ := decodeFields_some hLoop
  have hMem : ∀ f, f ∈ fields ↔ m'.Holds f := by
    intro f
    rw [hHolds f]
    cases f <;> simp [Mapping.Holds]
  refine ⟨fields, d₁, d₂, d₃, d₄, d₅, h₁, h₂, hFields, h₄, h₅, hAtEnd, ?_, ?_, ?_⟩
  · intro value
    rw [hMem, Mapping.Holds, hConfig, Option.some.injEq, eq_comm]
  · intro value
    rw [hMem, Mapping.Holds, hLayers, Option.some.injEq, eq_comm]
  · intro value hIn
    have hValue : m'.tags = some value := (hMem _).mp hIn
    rwa [hValue] at hTags

theorem checkMapping_ok {files : List File} {m : Manifest} (hNodup : (files.map File.name).Nodup)
    (h : checkMapping lib files m = .ok ()) {f : File} (hf : f ∈ files) (hName : f.name = mappingName) :
    Maps lib f.content (blobName m.config) (m.layers.map blobName) := by
  unfold checkMapping at h
  split at h
  next hNone =>
    have hOther := List.find?_eq_none.mp hNone f hf
    exact absurd (beq_iff_eq.mpr hName) hOther
  next =>
    obtain ⟨raw, hRaw, hValid⟩ := (bind_eq_ok _ _ _).mp h
    obtain ⟨g, hg, hgName, rfl⟩ := read_ok hRaw
    rw [List.inj_on_of_nodup_map hNodup hf hg (hName.trans hgName.symm)]
    exact validateDockerImportManifest_ok hValid

end Mappings

section Export

variable {σ : Type} {lib : Library σ} {l : Limits} {works : Bytes → Bool}

theorem exact_names {files : List File} {d : Descriptor} {m : Manifest}
    (hLayout : layoutName ∈ files.map File.name) (hIndex : indexName ∈ files.map File.name)
    (hBlobs : ∀ e ∈ d :: m.config :: m.layers, ∃ f, Described lib files e f)
    (hUsed : ∀ f ∈ files, f.name ∈ usedNames files d m) {name : Bytes} (hName : name ≠ mappingName) :
    name ∈ files.map File.name ↔
      name ∈ [blobName m.config, blobName d, layoutName, indexName] ++ m.layers.map blobName := by
  have hBlob : ∀ e ∈ d :: m.config :: m.layers, blobName e ∈ files.map File.name := by
    intro e he
    obtain ⟨f, hf, hfName, -⟩ := hBlobs e he
    exact List.mem_map.mpr ⟨f, hf, hfName⟩
  constructor
  · intro hMem
    obtain ⟨f, hf, rfl⟩ := List.mem_map.mp hMem
    have hIn := hUsed f hf
    have hLast : f.name ∉ if (find files mappingName).isSome then [mappingName] else [] := by
      split <;> simp [hName]
    rwa [usedNames, List.mem_append, or_iff_left hLast] at hIn
  · intro hMem
    simp only [List.mem_append, List.mem_cons, List.not_mem_nil, or_false] at hMem
    rcases hMem with (rfl | rfl | rfl | rfl) | hLayer
    · exact hBlob _ (List.mem_cons_of_mem _ List.mem_cons_self)
    · exact hBlob _ List.mem_cons_self
    · exact hLayout
    · exact hIndex
    · obtain ⟨e, he, rfl⟩ := List.mem_map.mp hLayer
      exact hBlob e (List.mem_cons_of_mem _ (List.mem_cons_of_mem _ he))

-- An archive that is accepted holds one image, within the budgets, and nothing else.
theorem export_admission {archive platform : Bytes} {id : Identity}
    (h : validateExport lib l works archive platform = .ok id) :
    (∀ m ∈ regular (lib.tar archive).1, m.size = m.body.length) ∧
      ((regular (lib.tar archive).1).map Member.size).sum ≤ l.exportBytes ∧
      ∃ d m c data, IsImage lib l ((regular (lib.tar archive).1).map Member.file) platform d m c data := by
  simp only [validateExport, validateStream, bind_eq_ok, refuse_eq_ok, exists_unit, Prod.exists,
    decide_eq_false_iff_not, not_lt, forEach_eq_ok, Bool.not_eq_false', List.contains_iff_mem] at h
  obtain ⟨hSize, s, hMembers, -, indexBytes, d, hIndex, m, hManifest, c, hConfig, expanded, hLayers, hMapping, hUsed,
    -⟩ := h
  rw [List.take_of_length_le (Nat.le_succ_of_le hSize)] at hMembers
  have hCopied := addMembers_ok hMembers
  have hSeen : s.seen = (regular (lib.tar archive).1).map Member.file := hCopied.seen
  have hDistinct : (s.seen.map File.name).Nodup := hCopied.distinct List.nodup_nil
  have hNamed : ∀ f ∈ s.seen, Named lib f := by
    rw [hSeen, List.forall_mem_map]
    exact hCopied.named
  obtain ⟨hLayoutFile, hIndexFile, hManifestFile⟩ := readIndex_ok hNamed hIndex
  obtain ⟨hConfigRead, hConfigFile, hPlatform, hLength⟩ := readConfig_ok hNamed hConfig
  obtain ⟨data, hLayerFiles, hData, hDiffs, hUnpacked⟩ := checkLayers_ok hNamed hLength (Nat.zero_le _) hLayers
  have hBlobs : ∀ e ∈ d :: m.config :: m.layers, ∃ f, Described lib s.seen e f :=
    List.forall_mem_cons.mpr ⟨hManifestFile, List.forall_mem_cons.mpr ⟨hConfigFile, hLayerFiles⟩⟩
  refine ⟨fun m hm => (hCopied.sizes m hm).symm, ?_, d, m, c, data, ?_⟩
  · have hTotal := hCopied.total
    have hBudget := hCopied.budget (Nat.zero_le _)
    simp only [Int.natCast_zero, Int.zero_add] at hTotal
    omega
  · rw [← hSeen]
    obtain ⟨f, hf, hfName, hVersion⟩ := hLayoutFile
    obtain ⟨g, hg, hgName, hFound⟩ := hIndexFile
    exact {
      distinct := hDistinct
      layout := ⟨f, hf, hfName, hVersion⟩
      index := ⟨g, hg, hgName, hFound⟩
      manifest := readManifest_ok hManifest
      config := hConfigRead
      exact := fun name hName =>
        exact_names (List.mem_map.mpr ⟨f, hf, hfName⟩) (List.mem_map.mpr ⟨g, hg, hgName⟩) hBlobs hUsed hName
      mapping := fun f hf hName => checkMapping_ok hDistinct hMapping hf hName
      blobs := hNamed
      descriptors := hBlobs
      platform := hPlatform
      layers := hData
      diffIDs := hDiffs
      unpacked := by simpa using hUnpacked }

end Export

section Samples

-- So many bytes, as the digits of a number.
def spelled (length n : Nat) : Bytes := (List.range length).reverse.map fun i => UInt8.ofNat (n / 256 ^ i % 256)

def layerData : Bytes := List.replicate 1024 0

def layerGzip : Bytes :=
  [31, 139, 8, 0, 0, 0, 0, 0, 2, 3, 99, 96, 24, 5, 163, 96, 20, 140, 84, 0, 0, 46, 175, 181, 239, 0, 4, 0, 0]

def layoutText : Bytes :=
  spelled 30 0x7b22696d6167654c61796f757456657273696f6e223a22312e302e30227d

def configText : Bytes :=
  spelled 46 0x7b226f73223a226c696e7578222c22617263686974656374757265223a2261726d3634222c22726f6f746673223a ++
    spelled 46 0x7b2274797065223a226c6179657273222c22646966665f696473223a5b227368613235363a356637306266313861 ++
    spelled 46 0x30383630303730313665393438623034616564336238323130336133366265613431373535623663646466616631 ++
    spelled 13 0x306163653363366566225d7d7d

def manifestText : Bytes :=
  spelled 46 0x7b22736368656d6156657273696f6e223a322c226d6564696154797065223a226170706c69636174696f6e2f766e ++
    spelled 46 0x642e6f63692e696d6167652e6d616e69666573742e76312b6a736f6e222c22636f6e666967223a7b226d65646961 ++
    spelled 46 0x54797065223a226170706c69636174696f6e2f766e642e6f63692e696d6167652e636f6e6669672e76312b6a736f ++
    spelled 46 0x6e222c22646967657374223a227368613235363a6637323330356337643133373135356331303665646338333938 ++
    spelled 46 0x3333623366633137313864313432393430653531353739386363376262323736356233333262222c2273697a6522 ++
    spelled 46 0x3a3135317d2c226c6179657273223a5b7b226d6564696154797065223a226170706c69636174696f6e2f766e642e ++
    spelled 46 0x6f63692e696d6167652e6c617965722e76312e7461722b677a6970222c22646967657374223a227368613235363a ++
    spelled 46 0x64656232333062323165306437656636613061326436356131393539396434323531623566303838383861353135 ++
    spelled 32 0x353838326662656632656637316531653131222c2273697a65223a32397d5d7d

def indexText : Bytes :=
  spelled 46 0x7b22736368656d6156657273696f6e223a322c226d616e696665737473223a5b7b226d6564696154797065223a22 ++
    spelled 46 0x6170706c69636174696f6e2f766e642e6f63692e696d6167652e6d616e69666573742e76312b6a736f6e222c2264 ++
    spelled 46 0x6967657374223a227368613235363a38623137343763336164353266656436393433633361333831626634373639 ++
    spelled 46 0x666561646635646336306231386464646135383761393337303862633730313065222c2273697a65223a3430307d ++
    spelled 2 0x5d7d

def hexText (n : Nat) : Bytes :=
  (List.range 64).reverse.map fun i =>
    let digit := n / 16 ^ i % 16
    UInt8.ofNat (if digit < 10 then 48 + digit else 87 + digit)

def hashes : List (Bytes × Nat) :=
  [(layerData, 0x5f70bf18a086007016e948b04aed3b82103a36bea41755b6cddfaf10ace3c6ef),
   (layerGzip, 0xdeb230b21e0d7ef6a0a2d65a19599d4251b5f08888a5155882fbef2ef71e1e11),
   (configText, 0xf72305c7d137155c106edc839833b3fc1718d142940e515798cc7bb2765b332b),
   (manifestText, 0x8b1747c3ad52fed6943c3a381bf4769feadf5dc60b18ddda587a93708bc7010e),
   (indexText, 0xb59e6bf84b5eecf1d5e0a14248f6c858879730247a6db0d8d6b035cfbf6f6ce5)]

def sampleHex (text : Bytes) : Bytes := hexText ((hashes.lookup text).getD 0)

def described (media content : Bytes) : Descriptor where
  mediaType := media
  digest := sha256 ++ sampleHex content
  size := content.length

def filled (n : Nat) (text : Bytes) : Bytes := text ++ List.replicate (n - text.length) 0

def memberBlocks (name content : Bytes) (size checksum : String) : Bytes :=
  filled 100 name ++ filled 8 (utf8 "0000644") ++ filled 8 (utf8 "0000000") ++ filled 8 (utf8 "0000000") ++
    filled 12 (utf8 size) ++ filled 12 (utf8 "00000000000") ++ utf8 checksum ++ [0, 32, 48] ++ filled 100 [] ++
    filled 6 (utf8 "ustar") ++ utf8 "00" ++ filled 64 [] ++ filled 8 (utf8 "0000000") ++
    filled 175 (utf8 "0000000") ++ filled 512 content

def sampleFiles : List (Bytes × Bytes × String × String) :=
  [(layoutName, layoutText, "00000000036", "011214"),
   (indexName, indexText, "00000000272", "011210"),
   (blobDir ++ sampleHex manifestText, manifestText, "00000000620", "022351"),
   (blobDir ++ sampleHex configText, configText, "00000000227", "021464"),
   (blobDir ++ sampleHex layerGzip, layerGzip, "00000000035", "022116")]

def sampleArchive : Bytes :=
  (sampleFiles.flatMap fun f => memberBlocks f.1 f.2.1 f.2.2.1 f.2.2.2) ++ List.replicate 1024 0

def sampleMembers : List Member :=
  sampleFiles.map fun f => { typeflag := .reg, name := f.1, size := f.2.1.length, body := f.2.1 }

def sampleTar (bytes : Bytes) : List Member × Bool :=
  if bytes = layerData then ([], true) else if bytes = sampleArchive then (sampleMembers, true) else ([], false)

def sampleLibrary : Library Unit where
  hex := sampleHex
  tar := sampleTar
  gunzip := fun bytes => if bytes = layerGzip then some (layerData, true) else none
  layoutVersion := fun text => if text = layoutText then some (utf8 "1.0.0") else none
  index := fun text => if text = indexText then some ⟨2, [], [described mediaManifest manifestText]⟩ else none
  manifest := fun text =>
    if text = manifestText then
      some ⟨2, mediaManifest, described mediaConfig configText, [described mediaLayer layerGzip]⟩
    else none
  config := fun text =>
    if text = configText then
      some ⟨utf8 "linux", utf8 "arm64", utf8 "layers", [sha256 ++ sampleHex layerData]⟩
    else none
  newDecoder := fun _ => ()
  token := fun _ => none
  more := fun _ => false
  decodeText := fun _ => none
  decodeTexts := fun _ => none
  atEnd := fun _ => false

def sampleLimits : Limits where
  exportBytes := 8192
  unpackedBytes := 1024
  bounded := by decide

def sampleIdentity : Identity :=
  ⟨sha256 ++ sampleHex indexText, sha256 ++ sampleHex manifestText, sha256 ++ sampleHex configText,
    utf8 "linux/arm64"⟩

theorem sampleLibrary_tar : sampleLibrary.tar = sampleTar := rfl

theorem sampleArchive_length : sampleArchive.length = 6144 := by
  have hBlocks : ∀ f ∈ sampleFiles, (memberBlocks f.1 f.2.1 f.2.2.1 f.2.2.2).length = 1024 := by decide +kernel
  rw [sampleArchive, List.length_append, List.length_flatMap, List.map_congr_left hBlocks, List.length_replicate]
  rfl

theorem sampleArchive_tar : sampleTar sampleArchive = (sampleMembers, true) := by
  have hOther : sampleArchive ≠ layerData := by
    intro hEq
    have hLength := sampleArchive_length
    rw [hEq, layerData, List.length_replicate] at hLength
    omega
  rw [sampleTar, if_neg hOther, if_pos rfl]

theorem sample_image_admitted :
    validateExport sampleLibrary sampleLimits (fun _ => true) sampleArchive (utf8 "linux/arm64") =
        .ok sampleIdentity ∧
      ∃ d m c data, IsImage sampleLibrary sampleLimits (sampleMembers.map Member.file) (utf8 "linux/arm64") d m c
        data := by
  have hStream : validateStream sampleLibrary sampleLimits (fun _ => true) (sampleMembers, true)
      (utf8 "linux/arm64") = .ok sampleIdentity := by decide +kernel
  have hTake : sampleArchive.take (sampleLimits.exportBytes + 1) = sampleArchive :=
    List.take_of_length_le (by rw [sampleArchive_length]; decide)
  have h : validateExport sampleLibrary sampleLimits (fun _ => true) sampleArchive (utf8 "linux/arm64") =
      .ok sampleIdentity := by
    rw [validateExport, hTake, sampleLibrary_tar, sampleArchive_tar, hStream, sampleArchive_length]
    rfl
  obtain ⟨d, m, c, data, hImage⟩ := (export_admission h).2.2
  rw [sampleLibrary_tar, sampleArchive_tar] at hImage
  exact ⟨h, d, m, c, data, hImage⟩

end Samples

end NeroCD.ImageExport
