import NeroCD.Proxy.Outcomes

-- The switch from an interrupted predecessor, and what whole histories of calls and crashes leave behind.

namespace NeroCD.Proxy

open NeroCD.Programs
open NeroCD.Programs.Fallible

variable {Data : Type} [Inhabited Data] {s t : World Data}

def RefusedFrom (encoding : Encoding Data) (prior : Plan) (failed : Option Plan) (s : World Data) (result : Result)
    (t : World Data) : Prop :=
  result.outcome = .refused → Same s t ∧ result.loadedGeneration = prior.generation ∧
    ∃ plan, (plan = prior ∨ failed = some plan) ∧
      t.files routesName = some (stateFile (encoding.document plan.dynamic))

namespace Engine

variable [DecidableEq Data] {e : Engine Data} {p prior : Plan} {failed : Option Plan} {result : Result}
variable {f : String → Option (Entry Data)}

abbrev Switched (e : Engine Data) (p prior : Plan) (failed : Option Plan) (s : World Data)
    (x : Attempt Data Result) (t : World Data) : Prop :=
  Holds Step (Moved e.encoding p s) (fun result => RefusedFrom e.encoding prior failed s result)
    (fun stopped => RefusedFrom e.encoding prior failed s stopped.1) x t

omit [Inhabited Data] [DecidableEq Data] in
theorem refusedFrom_uncertain (h : result.outcome = .uncertain) (reason : Failure) (u : World Data) :
    RefusedFrom e.encoding prior failed s (result, reason).1 u :=
  fun hRefused => absurd (h.symm.trans hRefused) (by decide)

theorem switchInterrupted_switched {id : String} (hResult : result.outcome = .uncertain)
    (hNewer : Newer e.encoding p s) (hst : Same s t) :
    Switched e p prior failed s (e.switchInterrupted p id result) t := by
  have hBad : ∀ (reason : Failure) u, RefusedFrom e.encoding prior failed s (result, reason).1 u :=
    refusedFrom_uncertain hResult
  have hStart : ∀ u, Holding s.files u → Moved e.encoding p s u := fun u hu =>
    .kept (recorded_congr hu.receipt) hu.routes
  have hMoved : ∀ u, u.files receiptName = some (stateFile (e.encoding.receipt (p.receipt .intent))) →
      Moved e.encoding p s u := fun u hu => .announced (recorded_of_file hu) hNewer
  have hIntent : ∀ u, Holding (Function.update s.files receiptName
      (some (stateFile (e.encoding.receipt (p.receipt .intent))))) u → Moved e.encoding p s u := fun u hu =>
    hMoved u (hu.receipt.trans (Function.update_self ..))
  refine .bind (.mapError (save_from hst.files hStart hIntent hBad)) fun _ u _ hu => ?_
  refine .bind (.mapError (quiet_from ctx_files hu hIntent hBad)) fun _ u _ hu => ?_
  have hPlaced : ∀ u, Holding (Function.update (Function.update s.files receiptName
      (some (stateFile (e.encoding.receipt (p.receipt .intent))))) routesName
      (some (stateFile (e.encoding.document p.dynamic)))) u → Moved e.encoding p s u := fun u hu =>
    hMoved u (hu.receipt.trans ((update_other (by decide) _).trans (Function.update_self ..)))
  refine .bind (.mapError (atomic_from (by decide) hu hIntent hPlaced hBad)) fun _ u _ hu => ?_
  have hWait := (waitVerified_holds (e := e) p id u).mono (fun v hv => hPlaced v (hu.same hv.files))
    (fun _ v hv => And.intro (hu.same hv.1.files) hv.2) fun reason v _ => hBad reason v
  refine .bind (.mapError hWait) fun verified u _ hu => ?_
  obtain ⟨hu, hVerified⟩ := hu
  refine .bind (.mapError (quiet_from ctx_files hu hPlaced hBad)) fun _ u _ hu => ?_
  have hCommitted : ∀ u, Holding (Function.update (Function.update (Function.update s.files receiptName
      (some (stateFile (e.encoding.receipt (p.receipt .intent))))) routesName
      (some (stateFile (e.encoding.document p.dynamic)))) receiptName
      (some (stateFile (e.encoding.receipt (p.receipt .committed))))) u → Moved e.encoding p s u := fun u hu =>
    .committed (recorded_of_file (hu.receipt.trans (Function.update_self ..)))
      (hu.routes.trans ((update_other (by decide) _).trans (Function.update_self ..))) hNewer
  refine .bind (.mapError (save_from hu hPlaced hCommitted hBad)) fun _ u _ hu => ?_
  refine .pure (hCommitted u hu) fun hRefused => ?_
  cases verified with
  | none => exact absurd (hResult.symm.trans hRefused) (by decide)
  | some observed => exact absurd ((hVerified observed rfl).symm.trans hRefused) (by decide)

-- The file has been read: from here to the intent a refusal is reported with the prior generation.
theorem switchFrom_switched {loaded : Plan} (hLoaded : result.loadedGeneration = prior.generation)
    (hNewer : Newer e.encoding p s)
    (hPlan : loaded = prior ∨ failed = some loaded)
    (hFile : s.files routesName = some (stateFile (e.encoding.document loaded.dynamic))) (hst : Same s t) :
    Switched e p prior failed s (e.switchFrom p loaded result) t := by
  have hBad : ∀ (reason : Failure) u, RefusedFrom e.encoding prior failed s (result.uncertain, reason).1 u :=
    refusedFrom_uncertain rfl
  have hSame : ∀ u, Same s u → Moved e.encoding p s u := fun _ => .same
  refine .bind (.mapError (same_from (daemon_quiet p) hst hSame fun reason u _ => hBad reason u)) fun _ t _ hst => ?_
  refine .bind (.mapError (same_from (find_quiet p) hst hSame fun _ u _ => hBad _ u)) fun c t _ hst => ?_
  cases c with
  | none => exact .fail (.same hst) (hBad _ t)
  | some id =>
    have hRefused : ∀ (reason : Failure) u, Same s u →
        RefusedFrom e.encoding prior failed s ({ result with containerID := id }, reason).1 u := fun _ u hu _ =>
      ⟨hu, hLoaded, loaded, hPlan, hu.routes.trans hFile⟩
    refine .bind (.mapError (same_from (loadedPredecessor_quiet loaded p) hst hSame fun _ u hu => hRefused _ u hu))
      fun _ t _ hst => ?_
    refine .bind (.mapError (same_from (ask_quiet rfl) hst hSame fun _ u hu => hRefused _ u hu)) fun _ t _ hst => ?_
    refine .bind (.mapError (same_from (ask_quiet rfl) hst hSame fun _ u hu => hRefused _ u hu)) fun _ t _ hst => ?_
    exact switchInterrupted_switched rfl hNewer hst

omit [Inhabited Data] in
theorem admittedFile_some {file : Data} {loaded : Plan} (h : e.admittedFile prior failed file = some loaded) :
    (loaded = prior ∨ failed = some loaded) ∧ file = e.encoding.document loaded.dynamic := by
  unfold admittedFile at h
  split at h
  · rename_i hFile
    obtain rfl := Option.some.inj h
    exact ⟨.inl rfl, hFile⟩
  · obtain ⟨hFailed, hFile⟩ := Option.filter_eq_some_iff.mp h
    exact ⟨.inr hFailed, by simpa using hFile⟩

theorem matchesPlan_generation {old : Receipt} {plan : Plan} {committed : Bool}
    (h : matchesPlan old plan committed = true) : old.generation = plan.generation := by
  simp only [matchesPlan, recordsPlan, Bool.and_eq_true, beq_iff_eq] at h
  exact h.1.1.1.1.1.2

structure Admits (p prior : Plan) (failed : Option Plan) : Prop where
  hash : p.hash ≠ ""
  previous : p.previous = prior.generation
  failed : ∀ f ∈ failed, f.hash ≠ "" ∧ f.previous = prior.generation ∧ f.generation < p.generation

omit [Inhabited Data] [DecidableEq Data] in
theorem accepts_hash (h : e.accepts p = true) : p.hash ≠ "" := by
  intro hHash
  simp [accepts, validate, hHash, Except.isOk, Except.toBool] at h

omit [Inhabited Data] [DecidableEq Data] in
theorem checkSwitch_admits (h : e.checkSwitch p prior failed = .ok ()) : Admits p prior failed := by
  simp only [checkSwitch, Checks.bind_eq_ok, Checks.exists_unit, Checks.refuse_eq_ok, Bool.or_eq_false_iff,
    Bool.not_eq_false', bne_eq_false_iff_eq] at h
  obtain ⟨⟨⟨⟨⟨⟨hAccepts, -⟩, -⟩, hPrevious⟩, -⟩, -⟩, -, hFailed⟩ := h
  refine ⟨accepts_hash hAccepts, hPrevious, fun f hf => ?_⟩
  obtain rfl : failed = some f := hf
  have hValid : e.validFailed p prior f = true := by simpa using hFailed
  simp only [validFailed, Bool.and_eq_true, beq_iff_eq, decide_eq_true_eq] at hValid
  exact ⟨accepts_hash hValid.1.1.1.1.1.1, hValid.1.1.1.2, hValid.1.1.2⟩

omit [Inhabited Data] [DecidableEq Data] in
theorem Admits.newer {old : Receipt} (h : Admits p prior failed) (hPlan : p.previous < p.generation)
    (hOld : Loaded e.encoding s old)
    (hAdmitted : (!matchesPlan old prior true && !failed.any (matchesPlan old · false)) = false) :
    Newer e.encoding p s := by
  refine Newer.of_loaded hOld ?_
  simp only [Bool.and_eq_false_iff, Bool.not_eq_false'] at hAdmitted
  obtain hPrior | hFailed := hAdmitted
  · rw [matchesPlan_generation hPrior, ← h.previous]
    exact hPlan
  · obtain ⟨f, hf, hMatches⟩ := Option.any_eq_true _ _ |>.mp hFailed
    rw [matchesPlan_generation hMatches]
    exact (h.failed f hf).2.2

theorem switchAdmitted_switched (hAdmits : Engine.Admits p prior failed) (hPlan : p.previous < p.generation)
    (s : World Data) : Switched e p prior failed s (e.switchAdmitted p prior failed (p.refused prior.generation)) s := by
  have hBad : ∀ (reason : Failure) u,
      RefusedFrom e.encoding prior failed s ((p.refused prior.generation).uncertain, reason).1 u :=
    refusedFrom_uncertain rfl
  have hSame : ∀ u, Same s u → Moved e.encoding p s u := fun _ => .same
  refine .bind (.mapError (same_from (openStorage_quiet e.polls) .rfl hSame fun reason u _ => hBad reason u))
    fun _ t _ hst => ?_
  have hLoad := (load_holds e.encoding t).mono (fun u hu => hu ▸ hSame t hst)
    (fun old u hu => And.intro (hu.1 ▸ hst) (Loaded.of_same hst hu.2)) fun reason u _ => hBad reason u
  refine .bind (.mapError hLoad) fun old t _ ht => ?_
  obtain ⟨hst, hOld⟩ := ht
  split
  · -- The plan is recorded already: it is only looked at, and the answer is no refusal.
    refine (switchReplayed_holds p rfl t).mono (fun u hu => .same (hst.trans hu)) (fun observed u hu hRefused => ?_)
      fun stopped u hu hRefused => ?_
    · exact absurd (hu.1.symm.trans hRefused) (by decide)
    · exact absurd (hu.1.symm.trans hRefused) (by decide)
  · refine .guard (.same hst) (fun _ => hBad _ t) fun hAdmitted => ?_
    have hNewer := hAdmits.newer hPlan hOld hAdmitted
    refine .bind (.mapError (same_from (checkFile_quiet acmeName) hst hSame fun reason u _ => hBad reason u))
      fun _ t _ hst => ?_
    have hRead := (read_holds routesName t).mono (fun u hu => hu ▸ hSame t hst)
      (fun file u hu => And.intro (hu.1 ▸ hst) (hst.routes.symm.trans hu.2)) fun reason u _ => hBad reason u
    refine .bind (.mapError hRead) fun file t _ ht => ?_
    obtain ⟨hst, hFile⟩ := ht
    split
    · exact .fail (.same hst) (hBad _ t)
    · rename_i loaded hLoaded
      obtain ⟨hPlan, rfl⟩ := admittedFile_some hLoaded
      exact switchFrom_switched rfl hNewer hPlan hFile hst

end Engine

def IsPlan (digest : Digest) (email : EmailCheck) (p : Plan) : Prop := p.hash = "" ∨ Prepared digest email p

section Refusals

variable [DecidableEq Data] {digest : Digest} {email : EmailCheck} {e : Engine Data} {p prior : Plan}
variable {failed : Option Plan}

omit [Inhabited Data] in
theorem switch_ok (h : e.checkSwitch p prior failed = .ok ()) :
    e.applyInterruptedStorageSwitch p prior failed =
      e.switchAdmitted p prior failed (p.refused prior.generation) := by
  unfold Engine.applyInterruptedStorageSwitch
  rw [h]
  rfl

omit [Inhabited Data] in
theorem switch_error {text : String} (h : e.checkSwitch p prior failed = .error text) :
    e.applyInterruptedStorageSwitch p prior failed =
      Fallible.fail (p.refused prior.generation, .message text) := by
  unfold Engine.applyInterruptedStorageSwitch
  rw [h]
  rfl

omit [DecidableEq Data] in
theorem runs_fail {failure : Result × Failure} {trace : List (Event (calls Data))}
    {q : Program (calls Data) (Except (Result × Failure) Result)}
    (h : Runs Step (Fallible.fail failure) s trace q t) : trace = [] ∧ t = s := by
  cases h with
  | stop => exact ⟨rfl, rfl⟩

def ReportsLoaded (e : Engine Data) (prior : Plan) (failed : Option Plan) (result : Result) (t : World Data) : Prop :=
  ∃ plan, (plan = prior ∨ failed = some plan) ∧
    t.data routesName = some (e.encoding.document plan.dynamic) ∧ result.loadedGeneration = plan.generation

theorem refused_from {trace : List (Event (calls Data))} {answer : Except (Result × Failure) Result}
    (hPlan : IsPlan digest email p) (hAdmits : Engine.Admits p prior failed)
    (hRun : Runs Step (e.switchAdmitted p prior failed (p.refused prior.generation)) s trace (.done answer) t) :
    RefusedFrom e.encoding prior failed s (returned answer) t := by
  have hNewer := (hPlan.resolve_left hAdmits.hash).wellFormed.newer
  have hPost := Safe.returned (Engine.switchAdmitted_switched hAdmits hNewer s) hRun
  cases answer with
  | ok _ => exact hPost
  | error _ => exact hPost

end Refusals

-- A switch that refuses after its reads reports what is loaded exactly when the prior configuration is in place.
theorem interrupted_refusal [DecidableEq Data] (digest : Digest) (email : EmailCheck) (e : Engine Data)
    (p prior : Plan) (failed : Option Plan) (hPlan : IsPlan digest email p)
    (hFailed : ∀ f ∈ failed, IsPlan digest email f) (s t : World Data) (trace : List (Event (calls Data)))
    (answer : Except (Result × Failure) Result)
    (hRun : Runs Step (e.applyInterruptedStorageSwitch p prior failed) s trace (.done answer) t)
    (hRead : ∃ file, ⟨.readFile routesName, .ok file⟩ ∈ trace) (hRefused : (returned answer).outcome = .refused) :
    ReportsLoaded e prior failed (returned answer) t ↔
      s.data routesName = some (e.encoding.document prior.dynamic) := by
  cases hCheck : e.checkSwitch p prior failed with
  | error _ =>
    rw [switch_error hCheck] at hRun
    obtain ⟨file, hFile⟩ := hRead
    rw [(runs_fail hRun).1] at hFile
    exact nomatch hFile
  | ok _ =>
    have hAdmits := Engine.checkSwitch_admits hCheck
    rw [switch_ok hCheck] at hRun
    obtain ⟨hSame, hLoaded, -⟩ := refused_from hPlan hAdmits hRun hRefused
    have hData : t.data routesName = s.data routesName := congrArg (Option.map Entry.data) hSame.routes
    constructor
    · rintro ⟨plan, rfl | hPlanFailed, hFile, hGeneration⟩
      · exact hData ▸ hFile
      · -- A failed plan is newer than the prior one, so the report is about another plan.
        obtain ⟨hHash, hPrevious, -⟩ := hAdmits.failed plan hPlanFailed
        have hNewer := ((hFailed plan hPlanFailed).resolve_left hHash).wellFormed.newer
        omega
    · exact fun hFile => ⟨prior, .inl rfl, hData.trans hFile, hLoaded⟩

section Samples

def hexDigest : Digest
  | .static _ _ _ => String.ofList (List.replicate 64 'a')
  | .plan _ generation _ _ => String.ofList (List.replicate 63 '0' ++ (Nat.toDigits 16 generation).take 1)
  | .transport plan _ _ _ => String.ofList ('b' :: plan.toList.drop 1)
  | .verification plan _ => String.ofList ('c' :: plan.toList.drop 1)

def priorPlan : Plan :=
  (prepare hexDigest sampleEmail sampleIdentity sampleSettings 1 0 (sampleRoutes 9000)).toOption.getD zeroPlan

def verifiedPlan (generation : Nat) : Plan :=
  (prepareVerifiedSwitch hexDigest sampleEmail sampleIdentity sampleSettings generation 1 (sampleRoutes 9001)
    ["web"]).toOption.getD zeroPlan

theorem verifiedPlan_isPlan {generation : Nat} (h : (prepareVerifiedSwitch hexDigest sampleEmail sampleIdentity
    sampleSettings generation 1 (sampleRoutes 9001) ["web"]).isOk = true) :
    IsPlan hexDigest sampleEmail (verifiedPlan generation) :=
  .inr (.verified (getD_prepared h))

def holdingPlan (plan : Plan) (phase : Phase) : World Content where
  files name :=
    if name = receiptName then some (stateFile (.receipt (plan.receipt phase)))
    else if name = routesName then some (stateFile (sampleEncoding.document plan.dynamic))
    else if name = acmeName then some (stateFile .empty)
    else if name = "dynamic" ∨ name = "certificates" then some ⟨⟨.directory, 0o700, true⟩, .empty⟩
    else none
  issued := []

def staleHost (plan : Plan) : Outside Content :=
  { workingHost plan with docker := fun _ _ => .ok "container", before := .error (.message "stale") }

abbrev sampleSwitch : Attempt Content Result :=
  sampleEngine.applyInterruptedStorageSwitch (verifiedPlan 3) priorPlan (some (verifiedPlan 2))

def readsRoutes : Event (calls Content) → Bool
  | ⟨.readFile name, .ok _⟩ => name == routesName
  | _ => false

theorem readsRoutes_mem {trace : List (Event (calls Content))} (h : trace.any readsRoutes = true) :
    ∃ file, ⟨.readFile routesName, .ok file⟩ ∈ trace := by
  obtain ⟨event, hMem, hReads⟩ := List.any_eq_true.mp h
  unfold readsRoutes at hReads
  split at hReads
  · rename_i name file
    obtain rfl : name = routesName := by simpa using hReads
    exact ⟨file, hMem⟩
  · cases hReads

def reported (outside : Outside Content) (n : Nat) (x : Attempt Content Result) (s : World Content) :
    Option (Bool × Outcome × Nat × Option Content) :=
  match advance (respond outside) n x s with
  | (trace, rest, t) => rest.result.map fun answer =>
    (trace.any readsRoutes, (returned answer).outcome, (returned answer).loadedGeneration, t.data routesName)

theorem reported_runs {outside : Outside Content} {n : Nat} {x : Attempt Content Result} {s : World Content}
    {outcome : Outcome} {generation : Nat} {file : Option Content}
    (h : reported outside n x s = some (true, outcome, generation, file)) :
    ∃ trace answer t, Runs Step x s trace (.done answer) t ∧ (∃ data, ⟨.readFile routesName, .ok data⟩ ∈ trace) ∧
      (returned answer).outcome = outcome ∧ (returned answer).loadedGeneration = generation ∧
      t.data routesName = file := by
  obtain ⟨answer, hResult, hFacts⟩ := Option.map_eq_some_iff.mp h
  simp only [Prod.mk.injEq] at hFacts
  obtain ⟨hRead, hOutcome, hGeneration, hFile⟩ := hFacts
  exact ⟨_, answer, _, advance_returns (respond_step outside) hResult, readsRoutes_mem hRead, hOutcome, hGeneration,
    hFile⟩

theorem holdingPlan_routes (plan : Plan) (phase : Phase) :
    (holdingPlan plan phase).data routesName = some (sampleEncoding.document plan.dynamic) := rfl

end Samples

-- The failed plan has announced its generation and replaced the configuration.
theorem failed_plan_unreported :
    ∃ (trace : List (Event (calls Content))) (answer : Except (Result × Failure) Result) (t : World Content),
      Runs Step sampleSwitch (holdingPlan (verifiedPlan 2) .intent) trace (.done answer) t ∧
      (∃ file, ⟨.readFile routesName, .ok file⟩ ∈ trace) ∧ (returned answer).outcome = .refused ∧
      t.data routesName = some (sampleEncoding.document (verifiedPlan 2).dynamic) ∧
      (verifiedPlan 2).generation = 2 ∧ (returned answer).loadedGeneration = 1 ∧
      ¬ReportsLoaded sampleEngine priorPlan (some (verifiedPlan 2)) (returned answer) t := by
  have hReported : reported (staleHost (verifiedPlan 2)) 60 sampleSwitch (holdingPlan (verifiedPlan 2) .intent) =
      some (true, .refused, 1, some (sampleEncoding.document (verifiedPlan 2).dynamic)) := by decide +kernel
  have hDistinct : sampleEncoding.document (verifiedPlan 2).dynamic ≠ sampleEncoding.document priorPlan.dynamic := by
    decide +kernel
  have hSecond : (verifiedPlan 2).generation = 2 := by decide +kernel
  obtain ⟨trace, answer, t, hRun, hRead, hOutcome, hGeneration, hFile⟩ := reported_runs hReported
  refine ⟨trace, answer, t, hRun, hRead, hOutcome, hFile, hSecond, hGeneration, ?_⟩
  rintro ⟨plan, rfl | hFailed, hPlan, hLoaded⟩
  · exact hDistinct (Option.some.inj (hFile.symm.trans hPlan))
  · obtain rfl := Option.some.inj hFailed
    rw [hGeneration, hSecond] at hLoaded
    cases hLoaded

-- With the prior configuration in place the same refusal tells the truth.
theorem prior_plan_reported :
    ∃ (answer : Except (Result × Failure) Result) (t : World Content),
      ReportsLoaded sampleEngine priorPlan (some (verifiedPlan 2)) (returned answer) t := by
  have hReported : reported (staleHost priorPlan) 60 sampleSwitch (holdingPlan priorPlan .committed) =
      some (true, .refused, 1, some (sampleEncoding.document priorPlan.dynamic)) := by decide +kernel
  obtain ⟨trace, answer, t, hRun, hRead, hOutcome, -⟩ := reported_runs hReported
  refine ⟨answer, t, (interrupted_refusal hexDigest sampleEmail sampleEngine (verifiedPlan 3) priorPlan
    (some (verifiedPlan 2)) (verifiedPlan_isPlan (by decide +kernel)) ?_ _ t trace answer hRun hRead
    hOutcome).mpr (holdingPlan_routes _ _)⟩
  intro f hf
  obtain rfl := Option.some.inj hf
  exact verifiedPlan_isPlan (by decide +kernel)

-- Histories: calls on one directory, one after the other, each of which may stop at any point.
section Histories

variable [DecidableEq Data] {digest : Digest} {email : EmailCheck} {encoding : Encoding Data} {p : Plan}

inductive Operation where
  | install (p : Plan)
  | apply (p : Plan)
  | switch (p prior : Plan) (failed : Option Plan)

def Operation.plan : Operation → Plan
  | .install p => p
  | .apply p => p
  | .switch p _ _ => p

def Engine.perform (e : Engine Data) : Operation → Attempt Data Result
  | .install p => e.install p
  | .apply p => e.applyPlan p
  | .switch p prior failed => e.applyInterruptedStorageSwitch p prior failed

-- A call that returns and a call that is cut off both end somewhere in a run of it.
inductive Later (digest : Digest) (email : EmailCheck) (encoding : Encoding Data) (s : World Data) :
    World Data → Prop where
  | now : Later digest email encoding s s
  | call {t u : World Data} {e : Engine Data} {r : Operation} {trace : List (Event (calls Data))}
      {q : Program (calls Data) (Except (Result × Failure) Result)} (hBefore : Later digest email encoding s t)
      (hEncoding : e.encoding = encoding) (hPlan : Prepared digest email r.plan)
      (hRun : Runs Step (e.perform r) t trace q u) : Later digest email encoding s u

theorem perform_moved {e : Engine Data} {r : Operation} {trace : List (Event (calls Data))}
    {q : Program (calls Data) (Except (Result × Failure) Result)} (hPlan : Prepared digest email r.plan)
    (hRun : Runs Step (e.perform r) s trace q t) : Moved e.encoding r.plan s t := by
  have hNewer := hPlan.wellFormed.newer
  cases r with
  | install p => exact Safe.crashed (Engine.apply_kept true (fun _ => hNewer) s) hRun
  | apply p => exact Safe.crashed (Engine.apply_kept false (fun _ => hNewer) s) hRun
  | switch p prior failed =>
    simp only [Engine.perform] at hRun
    cases hCheck : e.checkSwitch p prior failed with
    | error _ =>
      rw [switch_error hCheck] at hRun
      rw [(runs_fail hRun).2]
      exact .same .rfl
    | ok _ =>
      rw [switch_ok hCheck] at hRun
      exact Safe.crashed (Engine.switchAdmitted_switched (Engine.checkSwitch_admits hCheck) hNewer s) hRun

omit [Inhabited Data] [DecidableEq Data] in
theorem Moved.committedRoutes (h : Moved encoding p s t) (hPlan : Prepared digest email p)
    (hs : CommittedRoutes digest email encoding s) : CommittedRoutes digest email encoding t := by
  intro r hr hPhase hGeneration
  cases h with
  | kept hReceipt hRoutes =>
    rw [World.data, hRoutes]
    exact hs r (hReceipt ▸ hr) hPhase hGeneration
  | announced hReceipt _ =>
    obtain rfl := Option.some.inj (hReceipt.symm.trans hr)
    cases hPhase
  | committed hReceipt hRoutes _ =>
    obtain rfl := Option.some.inj (hReceipt.symm.trans hr)
    exact ⟨p, hPlan, rfl, congrArg (Option.map Entry.data) hRoutes⟩

def Follows (encoding : Encoding Data) (r : Receipt) (s : World Data) : Prop :=
  ∃ r', recorded encoding s = some r' ∧ (r' = r ∨ r.generation < r'.generation)

omit [Inhabited Data] [DecidableEq Data] in
theorem Newer.follows {r : Receipt} {phase : Phase} (h : Newer encoding p s) (hs : Follows encoding r s)
    (hReceipt : recorded encoding t = some (p.receipt phase)) : Follows encoding r t := by
  obtain ⟨r', hr', hFollows⟩ := hs
  have hLess : r'.generation < p.generation := h r' hr'
  refine ⟨_, hReceipt, .inr ?_⟩
  show r.generation < p.generation
  obtain rfl | hLater := hFollows
  · exact hLess
  · omega

omit [Inhabited Data] [DecidableEq Data] in
theorem Moved.follows {r : Receipt} (h : Moved encoding p s t) (hs : Follows encoding r s) :
    Follows encoding r t := by
  cases h with
  | kept hReceipt _ =>
    obtain ⟨r', hr', hFollows⟩ := hs
    exact ⟨r', hReceipt.trans hr', hFollows⟩
  | announced hReceipt hNewer => exact hNewer.follows hs hReceipt
  | committed hReceipt _ hNewer => exact hNewer.follows hs hReceipt

theorem Later.committedRoutes (h : Later digest email encoding s t)
    (hs : CommittedRoutes digest email encoding s) : CommittedRoutes digest email encoding t := by
  induction h with
  | now => exact hs
  | call _ hEncoding hPlan hRun ih => exact (hEncoding ▸ perform_moved hPlan hRun).committedRoutes hPlan ih

theorem Later.follows {r : Receipt} (h : Later digest email encoding s t) (hs : Follows encoding r s) :
    Follows encoding r t := by
  induction h with
  | now => exact hs
  | call _ hEncoding hPlan hRun ih => exact (hEncoding ▸ perform_moved hPlan hRun).follows ih

end Histories

-- Whatever calls were made on a directory without a receipt, and wherever they were cut off.
theorem crash_consistency [DecidableEq Data] (digest : Digest) (email : EmailCheck) (encoding : Encoding Data)
    (start s t : World Data) (hStart : start.files receiptName = none) (hs : Later digest email encoding start s)
    (ht : Later digest email encoding s t) :
    (∀ r, recorded encoding s = some r → r.phase = .committed → r.generation ≠ 0 →
      ∃ q, Prepared digest email q ∧ r = q.receipt .committed ∧
        s.data routesName = some (encoding.document q.dynamic)) ∧
    (∀ r r', recorded encoding s = some r → recorded encoding t = some r' → r.phase = .committed →
      r'.phase = .committed →
      r.generation ≤ r'.generation ∧ (r.generation = r'.generation → r.hash = r'.hash)) := by
  have hEmpty : recorded encoding start = none := by simp [recorded, World.data, hStart]
  have hNone : CommittedRoutes digest email encoding start := fun r hr => by
    rw [hEmpty] at hr
    cases hr
  refine ⟨hs.committedRoutes hNone, fun r r' hr hr' _ _ => ?_⟩
  obtain ⟨last, hLast, hFollows⟩ := ht.follows ⟨r, hr, .inl rfl⟩
  obtain rfl := Option.some.inj (hLast.symm.trans hr')
  obtain rfl | hLater := hFollows
  · exact ⟨Nat.le_refl _, fun _ => rfl⟩
  · exact ⟨Nat.le_of_lt hLater, fun hEqual => absurd hEqual (Nat.ne_of_lt hLater)⟩

noncomputable def sampleReplayed : World Content :=
  ((sampleEngine.applyPlan samplePlan).eval (respond (workingHost samplePlan)) sampleInstalled.2).2

theorem sample_history_consistent :
    sampleInstalled.2.data routesName = some (sampleEncoding.document samplePlan.dynamic) ∧
      ∀ r, recorded sampleEncoding sampleReplayed = some r → r.phase = .committed →
        samplePlan.generation ≤ r.generation := by
  obtain ⟨_, hInstall⟩ := eval_runs (respond_step (workingHost samplePlan)) (sampleEngine.install samplePlan)
    emptyDirectory
  obtain ⟨_, hApply⟩ := eval_runs (respond_step (workingHost samplePlan)) (sampleEngine.applyPlan samplePlan)
    sampleInstalled.2
  have hFirst : Later sampleDigest sampleEmail sampleEncoding emptyDirectory sampleInstalled.2 :=
    .call (e := sampleEngine) (r := .install samplePlan) .now rfl samplePlan_prepared hInstall
  have hSecond : Later sampleDigest sampleEmail sampleEncoding sampleInstalled.2 sampleReplayed :=
    .call (e := sampleEngine) (r := .apply samplePlan) .now rfl samplePlan_prepared hApply
  have hRecorded : recorded sampleEncoding sampleInstalled.2 = some (samplePlan.receipt .committed) := by
    decide +kernel
  obtain ⟨hRoutes, hMonotone⟩ := crash_consistency sampleDigest sampleEmail sampleEncoding emptyDirectory _ _ rfl
    hFirst hSecond
  have hPositive : samplePlan.generation ≠ 0 := Nat.ne_of_gt (Nat.zero_lt_of_lt samplePlan_prepared.wellFormed.newer)
  obtain ⟨q, -, hReceipt, hFile⟩ := hRoutes _ hRecorded rfl hPositive
  refine ⟨?_, fun r hr hPhase => (hMonotone _ r hRecorded hr rfl hPhase).1⟩
  simp only [Plan.receipt, Receipt.mk.injEq] at hReceipt
  obtain ⟨-, -, hHash, hGeneration, hSame, -, -, hTransport⟩ := hReceipt
  rw [hFile, dynamic_congr hGeneration hHash hSame hTransport]

end NeroCD.Proxy
