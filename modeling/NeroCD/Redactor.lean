import Mathlib.Data.List.AList
import Mathlib.Data.List.Dedup
import Mathlib.Data.List.Sort
import NeroCD.GoStrings
import NeroCD.Matching.Spans

-- The streaming redactor of `internal/runner/redactor.go`.  Counters are natural numbers, and index 0 of the node
-- list is the root.  `grow` is the capacity that `append` reallocates to, which only the compaction in `protect`
-- looks at.

namespace NeroCD.Redaction

open NeroCD.GoStrings NeroCD.Matching

def redactionMarker : Bytes := utf8 "[REDACTED]"

structure SecretMaterial where
  value : Bytes
  encodings : List String

structure RedactionNode where
  child : Nat := 0
  sibling : Nat := 0
  failure : Nat := 0
  matchSize : Nat := 0
  lookahead : Nat := 0
  label : UInt8 := 0
deriving DecidableEq, Repr

abbrev RedactionInterval := Span

structure RedactionStream where
  state : Nat := 0
  position : Nat := 0
  emitted : Nat := 0
  ring : Bytes
  spans : List RedactionInterval := []
  head : Nat := 0
  capacity : Nat := 0
deriving DecidableEq, Repr

structure Redactor where
  nodes : List RedactionNode
  longest : Nat
  pending : AList fun _ : String => RedactionStream := ∅
  order : List String := []

structure ProcessEvent where
  stream : String
  message : Bytes
deriving DecidableEq, Repr

-- The encodings of a secret.

def base64Digit (plus slash : UInt8) (n : Nat) : UInt8 :=
  if n < 26 then (65 + n).toUInt8
  else if n < 52 then (97 + (n - 26)).toUInt8
  else if n < 62 then (48 + (n - 52)).toUInt8
  else if n = 62 then plus
  else slash

-- Three bytes give four digits; a rest of one or two bytes gives two or three digits and the padding.
def base64Encode (digit : Nat → UInt8) (padded : Bool) : Bytes → Bytes
  | [] => []
  | [a] =>
    let n := a.toNat * 65536
    [digit (n / 262144), digit (n / 4096 % 64)] ++ if padded then [61, 61] else []
  | [a, b] =>
    let n := a.toNat * 65536 + b.toNat * 256
    [digit (n / 262144), digit (n / 4096 % 64), digit (n / 64 % 64)] ++ if padded then [61] else []
  | a :: b :: c :: rest =>
    let n := a.toNat * 65536 + b.toNat * 256 + c.toNat
    [digit (n / 262144), digit (n / 4096 % 64), digit (n / 64 % 64), digit (n % 64)] ++
      base64Encode digit padded rest

def stdEncoding : Bytes → Bytes := base64Encode (base64Digit 43 47) true

def urlEncoding : Bytes → Bytes := base64Encode (base64Digit 45 95) true

def rawURLEncoding : Bytes → Bytes := base64Encode (base64Digit 45 95) false

def hexDigit (n : Nat) : UInt8 :=
  if n < 10 then (48 + n).toUInt8 else (97 + (n - 10)).toUInt8

def hexEncode (value : Bytes) : Bytes :=
  value.flatMap fun b => [hexDigit (b.toNat / 16), hexDigit (b.toNat % 16)]

-- `strings.ToUpper` on the ASCII bytes of a hex encoding.
def toUpper (encoded : Bytes) : Bytes :=
  encoded.map fun b => if 97 ≤ b ∧ b ≤ 122 then b - 32 else b

example : stdEncoding (utf8 "foob") = utf8 "Zm9vYg==" ∧ rawURLEncoding [251, 255] = utf8 "-_8" ∧
    toUpper (hexEncode [10, 255]) = utf8 "0AFF" := by decide

-- `String.toLower` lowers ASCII only.  No letter outside ASCII lowers to one of the letters of the
-- three names, so `strings.ToLower` selects the same case.
def encodedForms (value : Bytes) (configured : String) : List Bytes :=
  match (trimSpace configured).toLower with
  | "base64" => [stdEncoding value]
  | "base64url" => [urlEncoding value, rawURLEncoding value]
  | "hex" => [hexEncode value, toUpper (hexEncode value)]
  | _ => []

def materialPatterns (material : SecretMaterial) : List Bytes :=
  if material.value = [] then []
  else material.value :: material.encodings.flatMap (encodedForms material.value)

-- The keys of `unique` in the order of `sort.Strings`, which compares bytewise.
def patterns (materials : List SecretMaterial) : List Bytes :=
  ((materials.flatMap materialPatterns).dedup.filter (· ≠ [])).insertionSort (· ≤ ·)

def commonRedactionPrefix : Bytes → Bytes → Nat
  | a :: as, b :: bs => if a = b then commonRedactionPrefix as bs + 1 else 0
  | _, _ => 0

def measurePatterns (patterns : List Bytes) : Nat × Nat :=
  let measured := patterns.foldl
    (fun (m : Nat × Nat × Bytes) pattern =>
      (max m.1 pattern.length, m.2.1 + (pattern.length - commonRedactionPrefix m.2.2 pattern), pattern))
    (0, 1, [])
  (measured.1, measured.2.1)

-- The tree under construction; `path` holds the nodes of the prefixes of `previous`.
structure TrieBuild where
  nodes : List RedactionNode
  path : List Nat
  previous : Bytes := []
  next : Nat := 1

def nodeAt (nodes : List RedactionNode) (i : Nat) : RedactionNode := nodes.getD i {}

def insertByte (pattern : Bytes) (b : TrieBuild) (depth : Nat) : TrieBuild :=
  let parent := b.path.getD depth 0
  let nodes := b.nodes.set b.next
    { label := pattern.getD depth 0, sibling := (nodeAt b.nodes parent).child, lookahead := depth + 1 }
  { b with
    nodes := nodes.modify parent fun n => { n with child := b.next }
    path := b.path.set (depth + 1) b.next
    next := b.next + 1 }

def insertPattern (b : TrieBuild) (pattern : Bytes) : TrieBuild :=
  let common := commonRedactionPrefix b.previous pattern
  let b := (List.range' common (pattern.length - common)).foldl (insertByte pattern) b
  { b with
    nodes := b.nodes.modify (b.path.getD pattern.length 0) fun n => { n with matchSize := pattern.length }
    previous := pattern }

-- The nodes a loop `for child := start; child != 0; child = nodes[child].sibling` visits.  The loop
-- bodies below never write `child` or `sibling`, so the chain can be read off before they run.
def siblings (nodes : List RedactionNode) : Nat → Nat → List Nat
  | 0, _ => []
  | fuel + 1, child =>
    if child = 0 then [] else child :: siblings nodes fuel (nodeAt nodes child).sibling

def children (nodes : List RedactionNode) (state : Nat) : List Nat :=
  siblings nodes nodes.length (nodeAt nodes state).child

def childOf (nodes : List RedactionNode) (state : Nat) (label : UInt8) : Nat :=
  ((children nodes state).find? fun child => (nodeAt nodes child).label == label).getD 0

-- Failure links shorten the word of the state, so the number of nodes bounds the iterations.
def advanceLoop (nodes : List RedactionNode) (label : UInt8) : Nat → Nat → Nat
  | 0, _ => 0
  | fuel + 1, state =>
    let child := childOf nodes state label
    if child ≠ 0 then child
    else if state = 0 then 0
    else advanceLoop nodes label fuel (nodeAt nodes state).failure

def advance (nodes : List RedactionNode) (state : Nat) (label : UInt8) : Nat :=
  advanceLoop nodes label nodes.length state

def linkRootChild (nodes : List RedactionNode) (child : Nat) : List RedactionNode :=
  nodes.modify child fun n => { n with lookahead := if n.child = 0 then 0 else n.lookahead }

def linkChild (parent : Nat) (nodes : List RedactionNode) (child : Nat) : List RedactionNode :=
  let failure := advance nodes (nodeAt nodes parent).failure (nodeAt nodes child).label
  nodes.modify child fun n => { n with
    failure := failure
    matchSize := max n.matchSize (nodeAt nodes failure).matchSize
    lookahead := if n.child = 0 then (nodeAt nodes failure).lookahead else n.lookahead }

def linkParent (nodes : List RedactionNode) (parent : Nat) : List RedactionNode :=
  (children nodes parent).foldl (linkChild parent) nodes

-- The next frontier is again read off before the pass writes.
def linkLevel (nodes : List RedactionNode) (current : List Nat) : List RedactionNode × List Nat :=
  (current.foldl linkParent nodes, current.flatMap (children nodes))

def linkLevels : Nat → List RedactionNode → List Nat → List RedactionNode
  | 0, nodes, _ => nodes
  | fuel + 1, nodes, current =>
    if current = [] then nodes
    else
      let (nodes, next) := linkLevel nodes current
      linkLevels fuel nodes next

def linkFailures (nodes : List RedactionNode) : List RedactionNode :=
  let current := children nodes 0
  linkLevels nodes.length (current.foldl linkRootChild nodes) current

def buildNodes (patterns : List Bytes) : List RedactionNode :=
  let (longest, count) := measurePatterns patterns
  (patterns.foldl insertPattern
    { nodes := List.replicate count {}, path := List.replicate (longest + 1) 0 }).nodes

def newRedactor (materials : List SecretMaterial) : Redactor :=
  let patterns := patterns materials
  { nodes := linkFailures (buildNodes patterns), longest := (measurePatterns patterns).1 }

-- The stream operations.

def popOverlapping : List RedactionInterval → RedactionInterval → List RedactionInterval × RedactionInterval
  | [], span => ([], span)
  | last :: rest, span =>
    if span.start < last.stop then popOverlapping rest { span with start := min span.start last.start }
    else (last :: rest, span)

section Grow

variable (grow : Nat → Nat)

def protect (s : RedactionStream) (span : RedactionInterval) : RedactionStream :=
  let (live, span) := popOverlapping (s.spans.drop s.head).reverse span
  let spans := s.spans.take s.head ++ live.reverse
  -- compaction, when the next append would reallocate
  let (spans, head) :=
    if 0 < s.head ∧ spans.length = s.capacity then (spans.drop s.head, 0) else (spans, s.head)
  { s with
    spans := spans ++ [span]
    head := head
    capacity := if spans.length = s.capacity then grow s.capacity else s.capacity }

-- The inner loop of `emit`.
def skipEmitted (spans : List RedactionInterval) (emitted : Nat) : Nat → Nat → Nat
  | 0, head => head
  | fuel + 1, head =>
    match spans[head]? with
    | some d => if d.stop ≤ emitted then skipEmitted spans emitted fuel (head + 1) else head
    | none => head

def emitByte (s : RedactionStream) : RedactionStream × Bytes :=
  let head := skipEmitted s.spans s.emitted s.spans.length s.head
  let written :=
    match s.spans[head]? with
    | some d =>
      if d.start ≤ s.emitted then (if d.start = s.emitted then redactionMarker else [])
      else [s.ring.getD (s.emitted % s.ring.length) 0]
    | none => [s.ring.getD (s.emitted % s.ring.length) 0]
  ({ s with head := head, emitted := s.emitted + 1 }, written)

def emitLoop : Nat → RedactionStream → RedactionStream × Bytes
  | 0, s => (s, [])
  | n + 1, s =>
    let (s, written) := emitByte s
    let (s, rest) := emitLoop n s
    (s, written ++ rest)

-- `until_` may lie before `emitted`; the loop then does not run.
def emit (s : RedactionStream) (until_ : Nat) : RedactionStream × Bytes :=
  let (s, written) := emitLoop (until_ - s.emitted) s
  (if s.head = s.spans.length then { s with spans := [], head := 0 } else s, written)

def writeByte (nodes : List RedactionNode) (s : RedactionStream) (b : UInt8) : RedactionStream × Bytes :=
  let s := { s with
    ring := s.ring.set (s.position % s.ring.length) b
    position := s.position + 1
    state := advance nodes s.state b }
  let size := (nodeAt nodes s.state).matchSize
  let s := if 0 < size then protect grow s ⟨s.position - size, s.position⟩ else s
  emit s (s.position - (nodeAt nodes s.state).lookahead)

def writeChunk (nodes : List RedactionNode) : RedactionStream → Bytes → RedactionStream × Bytes
  | s, [] => (s, [])
  | s, b :: chunk =>
    let (s, written) := writeByte grow nodes s b
    let (s, rest) := writeChunk nodes s chunk
    (s, written ++ rest)

def newStream (r : Redactor) : RedactionStream := { ring := List.replicate r.longest 0 }

def redact (r : Redactor) (text : Bytes) : Bytes :=
  if r.longest = 0 then text
  else
    let (stream, safe) := writeChunk grow r.nodes (newStream r) text
    safe ++ (emit stream stream.position).2

def redactChunk (r : Redactor) (name : String) (chunk : Bytes) : Redactor × Bytes :=
  if r.longest = 0 then (r, chunk)
  else
    match r.pending.lookup name with
    | none =>
      let (stream, safe) := writeChunk grow r.nodes (newStream r) chunk
      ({ r with pending := r.pending.insert name stream, order := r.order ++ [name] }, safe)
    | some stream =>
      let (stream, safe) := writeChunk grow r.nodes stream chunk
      ({ r with pending := r.pending.insert name stream }, safe)

end Grow

-- A stream with nothing left has no event.
def flushEvents (pending : AList fun _ : String => RedactionStream) (order : List String) :
    List ProcessEvent :=
  order.filterMap fun name =>
    match pending.lookup name with
    | none => none
    | some stream =>
      let message := (emit stream stream.position).2
      if message = [] then none else some { stream := name, message := message }

def flush (r : Redactor) : Redactor × List ProcessEvent :=
  ({ r with
    pending := r.order.foldl (fun pending name => pending.erase name) r.pending
    order := [] }, flushEvents r.pending r.order)

end NeroCD.Redaction
