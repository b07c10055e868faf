import NeroCD.Redactor.Stream

-- However a text is cut into chunks and interleaved, in the redacted text every merged occurrence is one marker.

namespace NeroCD.Redaction

open NeroCD.Matching

-- The texts that must not come out: the value of a secret, and its forms in the encodings it is configured with.

def SecretMaterial.Configured (material : SecretMaterial) (encoding : String) : Prop :=
  ∃ configured ∈ material.encodings, (GoStrings.trimSpace configured).toLower = encoding

inductive SecretForm (material : SecretMaterial) : Bytes → Prop
  | value : SecretForm material material.value
  | base64 (h : material.Configured "base64") : SecretForm material (stdEncoding material.value)
  | base64url (h : material.Configured "base64url") : SecretForm material (urlEncoding material.value)
  | rawBase64url (h : material.Configured "base64url") : SecretForm material (rawURLEncoding material.value)
  | hex (h : material.Configured "hex") : SecretForm material (hexEncode material.value)
  | upperHex (h : material.Configured "hex") : SecretForm material (toUpper (hexEncode material.value))

def IsSecret (materials : List SecretMaterial) (p : Bytes) : Prop :=
  p ≠ [] ∧ ∃ material ∈ materials, material.value ≠ [] ∧ SecretForm material p

theorem secretForm_of_mem {material : SecretMaterial} {configured : String} (h : configured ∈ material.encodings)
    {p : Bytes} (hp : p ∈ encodedForms material.value configured) : SecretForm material p := by
  unfold encodedForms at hp
  split at hp
  · rename_i heq
    obtain rfl := List.mem_singleton.mp hp
    exact .base64 ⟨configured, h, heq⟩
  · rename_i heq
    obtain rfl | rfl := List.mem_pair.mp hp
    · exact .base64url ⟨configured, h, heq⟩
    · exact .rawBase64url ⟨configured, h, heq⟩
  · rename_i heq
    obtain rfl | rfl := List.mem_pair.mp hp
    · exact .hex ⟨configured, h, heq⟩
    · exact .upperHex ⟨configured, h, heq⟩
  · exact absurd hp List.not_mem_nil

theorem mem_materialPatterns (material : SecretMaterial) (p : Bytes) :
    p ∈ materialPatterns material ↔ material.value ≠ [] ∧ SecretForm material p := by
  unfold materialPatterns
  by_cases hvalue : material.value = []
  · simp [hvalue]
  rw [if_neg hvalue, List.mem_cons, List.mem_flatMap]
  constructor
  · rintro (rfl | ⟨configured, hmem, hp⟩)
    · exact ⟨hvalue, .value⟩
    · exact ⟨hvalue, secretForm_of_mem hmem hp⟩
  · rintro ⟨-, hform⟩
    cases hform with
    | value => exact .inl rfl
    | base64 h | base64url h | rawBase64url h | hex h | upperHex h =>
      obtain ⟨configured, hmem, heq⟩ := h
      exact .inr ⟨configured, hmem, by simp [encodedForms, heq]⟩

theorem mem_patterns (materials : List SecretMaterial) (p : Bytes) :
    p ∈ patterns materials ↔ IsSecret materials p := by
  simp only [patterns, List.mem_insertionSort, List.mem_filter, List.mem_dedup, List.mem_flatMap,
    mem_materialPatterns, decide_eq_true_eq]
  exact and_comm

-- The reference, after the oracle of `redactor_test.go`.

def occurrences (text : Bytes) (patterns : List Bytes) : List Span :=
  patterns.flatMap fun pattern =>
    (List.range (text.length + 1 - pattern.length)).filterMap fun start =>
      if (text.drop start).take pattern.length = pattern then some ⟨start, start + pattern.length⟩
      else none

def SpanOrder (a b : Span) : Prop :=
  a.start < b.start ∨ (a.start = b.start ∧ b.stop ≤ a.stop)

instance : DecidableRel SpanOrder := fun a b =>
  inferInstanceAs (Decidable (a.start < b.start ∨ (a.start = b.start ∧ b.stop ≤ a.stop)))

instance : Std.Total SpanOrder where
  total a b := by
    simp only [SpanOrder]
    omega

instance : IsTrans Span SpanOrder where
  trans a b c hab hbc := by
    simp only [SpanOrder] at *
    omega

def redactionOracle (text : Bytes) (patterns : List Bytes) : Bytes :=
  render redactionMarker text 0 (mergeSpans ((occurrences text patterns).insertionSort SpanOrder))

theorem mem_occurrences {text : Bytes} {patterns : List Bytes} (hnonempty : [] ∉ patterns) (d : Span) :
    d ∈ occurrences text patterns ↔ Occurs (IsPattern patterns) text d := by
  simp only [occurrences, List.mem_flatMap, List.mem_filterMap, List.mem_range]
  constructor
  · rintro ⟨p, hp, start, hstart, hd⟩
    have hpos : 0 < p.length := List.length_pos_iff.mpr fun hnil => hnonempty (hnil ▸ hp)
    split_ifs at hd with htake
    obtain rfl := Option.some.inj hd
    refine ⟨show start < start + p.length by omega, show start + p.length ≤ text.length by omega, ?_⟩
    simpa [IsPattern, htake] using hp
  · rintro ⟨hlt, hle, hmem⟩
    have hlen : ((text.drop d.start).take (d.stop - d.start)).length = d.stop - d.start := by
      rw [List.length_take, List.length_drop]
      omega
    refine ⟨_, hmem, d.start, by omega, ?_⟩
    have hstop : d.start + (d.stop - d.start) = d.stop := by omega
    rw [hlen, if_pos rfl, hstop]

theorem merged_occurrences {patterns : List Bytes} (hnonempty : [] ∉ patterns) (text : Bytes) :
    Separated (mergeSpans ((occurrences text patterns).insertionSort SpanOrder)) ∧
    (∀ x, CoveredBy (mergeSpans ((occurrences text patterns).insertionSort SpanOrder)) x ↔
      Covered (IsPattern patterns) text x) ∧
    (∀ x, InsideOf (mergeSpans ((occurrences text patterns).insertionSort SpanOrder)) x ↔
      Straddled (IsPattern patterns) text x) := by
  have hmem : ∀ d, d ∈ (occurrences text patterns).insertionSort SpanOrder ↔
      Occurs (IsPattern patterns) text d := by
    intro d
    rw [List.mem_insertionSort, mem_occurrences hnonempty]
  have hsorted : ((occurrences text patterns).insertionSort SpanOrder).Pairwise
      fun a b => a.start ≤ b.start := by
    refine (List.pairwise_insertionSort SpanOrder _).imp ?_
    intro a b hab
    simp only [SpanOrder] at hab
    omega
  obtain ⟨hsep, hcov, hin⟩ := mergeSpans_spec (fun d hd => ((hmem d).mp hd).1) hsorted
  refine ⟨hsep, ?_, ?_⟩
  · intro x
    rw [hcov]
    simp only [CoveredBy, Covered, hmem]
  · intro x
    rw [hin]
    simp only [InsideOf, Straddled, hmem]

theorem redactionOracle_eq {patterns : List Bytes} (hnonempty : [] ∉ patterns) (text : Bytes) :
    redactionOracle text patterns = segment redactionMarker text (Covered (IsPattern patterns) text)
      (Straddled (IsPattern patterns) text) 0 text.length := by
  obtain ⟨hsep, hcov, hin⟩ := merged_occurrences hnonempty text
  -- a merged span ends where some occurrence ends
  have hstop : ∀ d ∈ mergeSpans ((occurrences text patterns).insertionSort SpanOrder),
      d.stop ≤ text.length := by
    intro d hd
    have hproper := hsep.proper d hd
    obtain ⟨e, he, hcovers⟩ := (hcov (d.stop - 1)).mp ⟨d, hd, by omega, by omega⟩
    have := he.2.1
    simp only [Span.Covers] at hcovers
    omega
  rw [redactionOracle, render_eq_segment hsep (fun d _ => Nat.zero_le d.start) hstop (Nat.zero_le _)]
  exact segment_congr (fun x _ _ => hcov x) (fun x _ _ => hin x) (fun _ _ _ => rfl)

-- What `NewRedactor` builds.

theorem nil_notMem_patterns (materials : List SecretMaterial) : [] ∉ patterns materials := by
  simp [patterns]

theorem patterns_sorted (materials : List SecretMaterial) : (patterns materials).Pairwise (· ≤ ·) :=
  List.pairwise_insertionSort _ _

theorem newRedactor_automaton (materials : List SecretMaterial) :
    ∃ word, Automaton (patterns materials) (newRedactor materials).longest (newRedactor materials).nodes
      word := by
  obtain ⟨word, htree⟩ := buildNodes_spec (patterns_sorted materials)
  have hlinked := linkFailures_spec htree (nil_notMem_patterns materials)
  refine ⟨word, ?_, (measurePatterns_longest (patterns materials)).1⟩
  rw [← hlinked.len] at hlinked
  exact hlinked

theorem patterns_eq_nil (materials : List SecretMaterial) (h : (newRedactor materials).longest = 0) :
    patterns materials = [] := by
  rw [List.eq_nil_iff_forall_not_mem]
  intro p hp
  have hle : p.length ≤ (newRedactor materials).longest := (measurePatterns_longest (patterns materials)).1 p hp
  have hnil : p = [] := List.length_eq_zero_iff.mp (by omega)
  exact nil_notMem_patterns materials (hnil ▸ hp)

theorem redactionOracle_nil (text : Bytes) : redactionOracle text [] = text := by
  simp [redactionOracle, occurrences, mergeSpans, render]

-- Sessions: any sequence of chunks of any streams, and then a flush.

def runChunks (grow : Nat → Nat) : Redactor → List (String × Bytes) → Redactor × List (String × Bytes)
  | r, [] => (r, [])
  | r, (name, chunk) :: calls =>
    let (r, safe) := redactChunk grow r name chunk
    let (r, outputs) := runChunks grow r calls
    (r, (name, safe) :: outputs)

def textOf (name : String) (chunks : List (String × Bytes)) : Bytes :=
  (chunks.filter (·.1 = name)).flatMap (·.2)

def messageOf (name : String) (events : List ProcessEvent) : Bytes :=
  (events.filter (·.stream = name)).flatMap (·.message)

-- What a reader of stream `name` gets: the outputs of its chunks and then its flush message.
def streamed (grow : Nat → Nat) (r : Redactor) (calls : List (String × Bytes)) (name : String) : Bytes :=
  let (r, outputs) := runChunks grow r calls
  textOf name outputs ++ messageOf name (flush r).2

structure SessionInv (patterns : List Bytes) (longest : Nat) (nodes : List RedactionNode)
    (word : Nat → Bytes) (r : Redactor) (text out : String → Bytes) : Prop where
  same_nodes : r.nodes = nodes
  same_longest : r.longest = longest
  nodup : r.order.Nodup
  order : ∀ name, name ∈ r.order ↔ (r.pending.lookup name).isSome
  streams : ∀ name stream, r.pending.lookup name = some stream →
    StreamInv patterns longest nodes word stream (text name) (out name)
  absent : ∀ name, r.pending.lookup name = none → text name = [] ∧ out name = []

section Session

variable {patterns : List Bytes} {longest : Nat} {nodes : List RedactionNode} {word : Nat → Bytes}
  {r : Redactor} {text out : String → Bytes}

theorem redactChunk_inv (grow : Nat → Nat) (hauto : Automaton patterns longest nodes word)
    (hlong : 0 < longest) (h : SessionInv patterns longest nodes word r text out) (name : String)
    (chunk : Bytes) :
    SessionInv patterns longest nodes word (redactChunk grow r name chunk).1
      (Function.update text name (text name ++ chunk))
      (Function.update out name (out name ++ (redactChunk grow r name chunk).2)) := by
  have hnz : r.longest ≠ 0 := by
    rw [h.same_longest]
    omega
  -- the stream before the chunk: the stored one, or a new one
  obtain ⟨stream, order', hstream, hcall, hnodup, horder⟩ :
      ∃ stream order', StreamInv patterns longest nodes word stream (text name) (out name) ∧
        redactChunk grow r name chunk =
          ({ r with
            pending := r.pending.insert name (writeChunk grow r.nodes stream chunk).1
            order := order' }, (writeChunk grow r.nodes stream chunk).2) ∧
        order'.Nodup ∧ (∀ n, n ∈ order' ↔ n = name ∨ n ∈ r.order) := by
    cases hlook : r.pending.lookup name with
    | none =>
      obtain ⟨htext, hout⟩ := h.absent name hlook
      have hnew : name ∉ r.order := by simp [h.order, hlook]
      refine ⟨newStream r, r.order ++ [name], ?_, by simp [redactChunk, hnz, hlook], ?_, ?_⟩
      · rw [htext, hout, newStream, h.same_longest]
        exact newStream_inv hauto
      · rw [List.nodup_append]
        refine ⟨h.nodup, by simp, ?_⟩
        rintro a ha b hb rfl
        exact hnew (List.mem_singleton.mp hb ▸ ha)
      · intro n
        rw [List.mem_append, List.mem_singleton, or_comm]
    | some stream =>
      refine ⟨stream, r.order, h.streams name stream hlook, by simp [redactChunk, hnz, hlook], h.nodup, ?_⟩
      intro n
      have hmem : name ∈ r.order := by simp [h.order, hlook]
      constructor
      · exact .inr
      · rintro (rfl | hn)
        · exact hmem
        · exact hn
  rw [hcall]
  have hwritten := writeChunk_inv grow hauto hlong chunk hstream
  rw [← h.same_nodes] at hwritten
  refine ⟨h.same_nodes, h.same_longest, hnodup, ?_, ?_, ?_⟩
  · intro n
    rw [horder n]
    by_cases hn : n = name
    · subst hn
      simp [AList.lookup_insert]
    · simp [AList.lookup_insert_ne hn, hn, h.order]
  · intro n stream' hlook
    by_cases hn : n = name
    · subst hn
      rw [AList.lookup_insert] at hlook
      obtain rfl := Option.some.inj hlook
      simpa only [Function.update_self, h.same_nodes] using hwritten
    · rw [AList.lookup_insert_ne hn] at hlook
      rw [Function.update_of_ne hn, Function.update_of_ne hn]
      exact h.streams n stream' hlook
  · intro n hlook
    by_cases hn : n = name
    · subst hn
      simp [AList.lookup_insert] at hlook
    · rw [AList.lookup_insert_ne hn] at hlook
      rw [Function.update_of_ne hn, Function.update_of_ne hn]
      exact h.absent n hlook

theorem textOf_cons (name other : String) (chunk : Bytes) (calls : List (String × Bytes)) :
    textOf name ((other, chunk) :: calls) = (if other = name then chunk else []) ++ textOf name calls := by
  by_cases hn : other = name <;> simp [textOf, hn]

theorem runChunks_inv (grow : Nat → Nat) (hauto : Automaton patterns longest nodes word)
    (hlong : 0 < longest) (calls : List (String × Bytes))
    (h : SessionInv patterns longest nodes word r text out) :
    SessionInv patterns longest nodes word (runChunks grow r calls).1
      (fun name => text name ++ textOf name calls)
      (fun name => out name ++ textOf name (runChunks grow r calls).2) := by
  induction calls generalizing r text out with
  | nil => simpa [runChunks, textOf] using h
  | cons call _ ih =>
    obtain ⟨name, chunk⟩ := call
    have hrest := ih (redactChunk_inv grow hauto hlong h name chunk)
    simp only [runChunks]
    convert hrest using 2 with n n
    · rw [textOf_cons]
      by_cases hn : name = n
      · subst hn
        simp
      · simp [hn, Function.update_of_ne (Ne.symm hn)]
    · rw [textOf_cons]
      by_cases hn : name = n
      · subst hn
        simp
      · simp [hn, Function.update_of_ne (Ne.symm hn)]

theorem messageOf_flushEvents (pending : AList fun _ : String => RedactionStream) (order : List String)
    (hnodup : order.Nodup) (name : String) :
    messageOf name (flushEvents pending order) =
      if name ∈ order then
        match pending.lookup name with
        | none => []
        | some stream => (emit stream stream.position).2
      else [] := by
  induction order with
  | nil => simp [messageOf, flushEvents]
  | cons first order ih =>
    obtain ⟨hfirst, hnodup⟩ := List.nodup_cons.mp hnodup
    have hcons : messageOf name (flushEvents pending (first :: order)) =
        (if first = name then
          match pending.lookup name with
          | none => []
          | some stream => (emit stream stream.position).2
        else []) ++ messageOf name (flushEvents pending order) := by
      simp only [flushEvents, List.filterMap_cons]
      cases hlook : pending.lookup first with
      | none =>
        by_cases hn : first = name
        · subst hn
          simp [hlook]
        · simp [hn]
      | some stream =>
        by_cases hempty : (emit stream stream.position).2 = []
        · by_cases hn : first = name
          · subst hn
            simp [hlook, hempty]
          · simp [hn, hempty]
        · by_cases hn : first = name
          · subst hn
            simp [hlook, hempty, messageOf]
          · simp [hn, hempty, messageOf]
    rw [hcons, ih hnodup]
    by_cases hn : first = name
    · subst hn
      simp [hfirst]
    · simp [hn, Ne.symm hn]

theorem streamed_eq (grow : Nat → Nat) (hauto : Automaton patterns longest nodes word)
    (hlong : 0 < longest) (calls : List (String × Bytes)) (name : String)
    (h : SessionInv patterns longest nodes word r (fun _ => []) (fun _ => [])) :
    streamed grow r calls name =
      segment redactionMarker (textOf name calls) (Covered (IsPattern patterns) (textOf name calls))
        (Straddled (IsPattern patterns) (textOf name calls)) 0 (textOf name calls).length := by
  have hrun := runChunks_inv grow hauto hlong calls h
  simp only [List.nil_append] at hrun
  simp only [streamed, flush, messageOf_flushEvents _ _ hrun.nodup]
  cases hlook : (runChunks grow r calls).1.pending.lookup name with
  | none =>
    obtain ⟨htext, hout⟩ := hrun.absent name hlook
    have hnot : name ∉ (runChunks grow r calls).1.order := by simp [hrun.order, hlook]
    simp only [hnot, if_false, htext, hout, List.length_nil, segment_self, List.append_nil]
  | some stream =>
    have hmem : name ∈ (runChunks grow r calls).1.order := by simp [hrun.order, hlook]
    simp only [hmem, if_true]
    exact emit_rest (hrun.streams name stream hlook)

end Session

theorem newRedactor_session {patterns : List Bytes} {word : Nat → Bytes} (materials : List SecretMaterial) :
    SessionInv patterns (newRedactor materials).longest (newRedactor materials).nodes word
      (newRedactor materials) (fun _ => []) (fun _ => []) where
  same_nodes := rfl
  same_longest := rfl
  nodup := List.nodup_nil
  order := by
    intro name
    simp [newRedactor]
  streams := by
    intro name stream hlook
    simp [newRedactor] at hlook
  absent := fun _ _ => ⟨rfl, rfl⟩

theorem runChunks_passthrough (grow : Nat → Nat) {r : Redactor} (hzero : r.longest = 0)
    (calls : List (String × Bytes)) : runChunks grow r calls = (r, calls) := by
  induction calls with
  | nil => rfl
  | cons _ _ ih => simp [runChunks, redactChunk, hzero, ih]

theorem streamed_passthrough (grow : Nat → Nat) (materials : List SecretMaterial)
    (hzero : (newRedactor materials).longest = 0) (calls : List (String × Bytes)) (name : String) :
    streamed grow (newRedactor materials) calls name = textOf name calls := by
  have hflush : (flush (newRedactor materials)).2 = [] := by simp [flush, flushEvents, newRedactor]
  simp [streamed, runChunks_passthrough grow hzero, hflush, messageOf]

theorem streamed_eq_redact (grow : Nat → Nat) (materials : List SecretMaterial) (calls : List (String × Bytes))
    (name : String) :
    streamed grow (newRedactor materials) calls name = redact grow (newRedactor materials) (textOf name calls) := by
  by_cases hzero : (newRedactor materials).longest = 0
  · rw [streamed_passthrough grow materials hzero]
    simp [redact, hzero]
  · obtain ⟨word, hauto⟩ := newRedactor_automaton materials
    have hlong : 0 < (newRedactor materials).longest := Nat.pos_of_ne_zero hzero
    have hwritten := writeChunk_inv grow hauto hlong (textOf name calls) (newStream_inv hauto)
    rw [List.nil_append, List.nil_append] at hwritten
    rw [streamed_eq grow hauto hlong calls name (newRedactor_session materials), ← emit_rest hwritten]
    simp only [redact, hzero, if_false]
    rfl

theorem streamed_eq_oracle (grow : Nat → Nat) (materials : List SecretMaterial) (calls : List (String × Bytes))
    (name : String) :
    streamed grow (newRedactor materials) calls name = redactionOracle (textOf name calls) (patterns materials) := by
  by_cases hzero : (newRedactor materials).longest = 0
  · rw [streamed_passthrough grow materials hzero, patterns_eq_nil materials hzero, redactionOracle_nil]
  · obtain ⟨word, hauto⟩ := newRedactor_automaton materials
    rw [streamed_eq grow hauto (Nat.pos_of_ne_zero hzero) calls name (newRedactor_session materials),
      redactionOracle_eq (nil_notMem_patterns materials)]

-- For any secrets, any chunks of any streams and any growth of the span slices: what stream `name`
-- receives is `Redact` of its whole text, and that is the reference rendering of the secrets' forms.
theorem streamed_eq_redact_eq_oracle (grow : Nat → Nat) (materials : List SecretMaterial)
    (calls : List (String × Bytes)) (name : String) :
    (∀ p, p ∈ patterns materials ↔ IsSecret materials p) ∧
    streamed grow (newRedactor materials) calls name =
        redact grow (newRedactor materials) (textOf name calls) ∧
    redact grow (newRedactor materials) (textOf name calls) =
        redactionOracle (textOf name calls) (patterns materials) := by
  refine ⟨mem_patterns materials, streamed_eq_redact grow materials calls name, ?_⟩
  rw [← streamed_eq_redact grow materials calls name]
  exact streamed_eq_oracle grow materials calls name

-- Of a stream's text only parts without a secret, in any of its encodings, come out, with markers between them; a text
-- without secrets comes out as it is.
theorem streamed_without_secrets (grow : Nat → Nat) (materials : List SecretMaterial)
    (calls : List (String × Bytes)) (name : String) :
    (∃ parts, streamed grow (newRedactor materials) calls name = redactionMarker.intercalate parts ∧
      ∀ part ∈ parts, part <:+: textOf name calls ∧ ∀ secret, IsSecret materials secret → ¬ secret <:+: part) ∧
    ((∀ secret, IsSecret materials secret → ¬ secret <:+: textOf name calls) →
      streamed grow (newRedactor materials) calls name = textOf name calls) := by
  have hnonempty := nil_notMem_patterns materials
  have hwithin : ∀ a n, ((textOf name calls).drop a).take n <:+: textOf name calls := fun _ _ =>
    (List.take_prefix _ _).isInfix.trans (List.drop_suffix _ _).isInfix
  rw [streamed_eq_oracle]
  constructor
  · obtain ⟨hsep, hcov, -⟩ := merged_occurrences hnonempty (textOf name calls)
    obtain ⟨first, rest, heq, hparts⟩ := render_parts redactionMarker (textOf name calls) hsep
      fun d _ => Nat.zero_le d.start
    refine ⟨first :: rest, heq, ?_⟩
    intro part hpart
    obtain ⟨a, n, -, rfl, hfree⟩ := hparts part hpart
    refine ⟨hwithin a n, ?_⟩
    intro pattern hsecret hin
    have hpattern := (mem_patterns materials pattern).mpr hsecret
    obtain ⟨x, hx, hlt, hcovered⟩ := covered_of_word (IsPattern (patterns materials)) hpattern
      (fun hnil => hnonempty (hnil ▸ hpattern)) hin
    exact hfree x hx hlt ((hcov x).mpr hcovered)
  · intro hclean
    have hnone : occurrences (textOf name calls) (patterns materials) = [] := by
      rw [List.eq_nil_iff_forall_not_mem]
      intro d hd
      exact hclean _ ((mem_patterns materials _).mp ((mem_occurrences hnonempty d).mp hd).2.2) (hwithin _ _)
    simp [redactionOracle, hnone, mergeSpans, render]

end NeroCD.Redaction
