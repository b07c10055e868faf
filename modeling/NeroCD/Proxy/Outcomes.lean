import NeroCD.Digests
import NeroCD.Proxy.Quiet

-- What an install or apply leaves in the state directory, for each outcome and at each point on the way.

namespace NeroCD.Proxy

open NeroCD.Programs
open NeroCD.Programs.Fallible
open NeroCD.Injections

variable {Data : Type} {s t : World Data}

def recorded (encoding : Encoding Data) (s : World Data) : Option Receipt :=
  (s.data receiptName).bind encoding.parseReceipt

def Holding (f : String → Option (Entry Data)) (t : World Data) : Prop := ∀ name ∈ stateNames, t.files name = f name

theorem Holding.receipt {f : String → Option (Entry Data)} (h : Holding f t) :
    t.files receiptName = f receiptName := h _ (by decide)

theorem Holding.routes {f : String → Option (Entry Data)} (h : Holding f t) :
    t.files routesName = f routesName := h _ (by decide)

theorem Holding.same {f : String → Option (Entry Data)} {u : World Data} (htu : SameFiles t u)
    (h : Holding f t) : Holding f u := fun name hName => (htu name hName).trans (h name hName)

-- The files of a call about `p` are as they were in `s`, or announce the plan, or commit it with its routes in place.
def Newer (encoding : Encoding Data) (p : Plan) (s : World Data) : Prop :=
  ∀ r, recorded encoding s = some r → r.generation < p.generation

inductive Moved (encoding : Encoding Data) (p : Plan) (s t : World Data) : Prop where
  | kept (hReceipt : recorded encoding t = recorded encoding s)
      (hRoutes : t.files routesName = s.files routesName) : Moved encoding p s t
  | announced (hReceipt : recorded encoding t = some (p.receipt .intent)) (hNewer : Newer encoding p s) :
      Moved encoding p s t
  | committed (hReceipt : recorded encoding t = some (p.receipt .committed))
      (hRoutes : t.files routesName = some (stateFile (encoding.document p.dynamic)))
      (hNewer : Newer encoding p s) : Moved encoding p s t

def Replayed (encoding : Encoding Data) (p : Plan) (s t : World Data) : Prop :=
  Same s t ∧ p.hash ≠ "" ∧ ∃ old, recorded encoding s = some old ∧ old.phase = .committed ∧
    old.generation = p.generation ∧ old.hash = p.hash

def Contract (encoding : Encoding Data) (p : Plan) (s : World Data) (result : Result) (t : World Data) : Prop :=
  match result.outcome with
  | .refused => Same s t
  | .rolledBack => recorded encoding t = recorded encoding s ∧ t.files routesName = s.files routesName
  | .applied => Replayed encoding p s t ∨ (recorded encoding t = some (p.receipt .committed) ∧
      t.files routesName = some (stateFile (encoding.document p.dynamic)))
  | .uncertain => True

section Records

variable {encoding : Encoding Data} {p : Plan}

theorem recorded_of_file {r : Receipt} (h : s.files receiptName = some (stateFile (encoding.receipt r))) :
    recorded encoding s = some r := by
  simp [recorded, World.data, h, stateFile, encoding.parse_receipt]

theorem recorded_congr (h : t.files receiptName = s.files receiptName) :
    recorded encoding t = recorded encoding s := by
  rw [recorded, recorded, World.data, World.data, h]

theorem Loaded.recorded {old : Receipt} (h : Loaded encoding s old) (hOld : old ≠ .zero) :
    recorded encoding s = some old := by
  obtain ⟨-, hZero⟩ | ⟨data, hFile, hParse⟩ := h
  · exact absurd hZero hOld
  · simp [Proxy.recorded, World.data, hFile, stateFile, hParse]

theorem Loaded.eq_of_recorded {old r : Receipt} (h : Loaded encoding s old)
    (hr : Proxy.recorded encoding s = some r) : r = old := by
  obtain ⟨hNone, -⟩ | ⟨data, hFile, hParse⟩ := h
  · simp [Proxy.recorded, World.data, hNone] at hr
  · simp [Proxy.recorded, World.data, hFile, stateFile, hParse] at hr
    exact hr.symm

theorem Moved.same (h : Same s t) : Moved encoding p s t := .kept (recorded_congr h.receipt) h.routes

theorem Contract.uncertain {result : Result} (h : result.outcome = .uncertain) : Contract encoding p s result t := by
  simp [Contract, h]

theorem Contract.refused {result : Result} (h : result.outcome = .refused) (hSame : Same s t) :
    Contract encoding p s result t := by
  simpa [Contract, h] using hSame

end Records

variable [Inhabited Data]

-- Steps whose errors say nothing, from a state that holds the files `f`.
section Rules

variable {α : Type} {crash : World Data → Prop} {bad : Failure → World Data → Prop}
variable {f : String → Option (Entry Data)} {name : String} {data : Data}

omit [Inhabited Data] in
theorem update_other {other : String} (h : other ≠ name) (entry : Option (Entry Data)) :
    Function.update f name entry other = f other := Function.update_of_ne h entry f

omit [Inhabited Data] in
theorem Replacing.holding (h : Replacing name data s t) (hf : Holding f s) :
    Holding f t ∨ Holding (Function.update f name (some (stateFile data))) t := by
  have hOthers : ∀ other ∈ stateNames, other ≠ name → t.files other = f other := fun other hOther hNe =>
    (h.others other hNe (ne_of_mem_of_not_mem hOther (by decide))).trans (hf other hOther)
  obtain hFile | hFile := h.file
  · refine .inl fun other hOther => ?_
    by_cases hEq : other = name
    · subst hEq
      exact hFile.trans (hf other hOther)
    · exact hOthers other hOther hEq
  · refine .inr fun other hOther => ?_
    by_cases hEq : other = name
    · subst hEq
      rw [hFile, Function.update_self]
    · rw [hOthers other hOther hEq, Function.update_of_ne hEq]

omit [Inhabited Data] in
theorem Replaced.holding (h : Replaced name data s t) (hf : Holding f s) :
    Holding (Function.update f name (some (stateFile data))) t := by
  intro other hOther
  by_cases hEq : other = name
  · subst hEq
    rw [h.new, Function.update_self]
  · rw [Function.update_of_ne hEq]
    exact (h.others other hEq (ne_of_mem_of_not_mem hOther (by decide))).trans (hf other hOther)

theorem quiet_from {x : Action Data α} (hx : Keeps Step SameFiles x) (ht : Holding f t)
    (hCrash : ∀ u, Holding f u → crash u) (hBad : ∀ reason u, bad reason u) :
    Holds Step crash (fun _ => Holding f) bad x t :=
  (hx t).mono (fun u hu => hCrash u (ht.same hu)) (fun _ _ hu => ht.same hu) fun reason u _ => hBad reason u

theorem same_from {ε : Type} {x : Fallible (calls Data) ε α} {bad : ε → World Data → Prop}
    (hx : Keeps Step Same x) (hst : Same s t) (hCrash : ∀ u, Same s u → crash u)
    (hBad : ∀ reason u, Same s u → bad reason u) : Holds Step crash (fun _ => Same s) bad x t :=
  (hx.after hst).mono hCrash (fun _ _ hu => hu) hBad

theorem atomic_from (hName : name ∈ stateNames) (ht : Holding f t) (hOld : ∀ u, Holding f u → crash u)
    (hNew : ∀ u, Holding (Function.update f name (some (stateFile data))) u → crash u)
    (hBad : ∀ reason u, bad reason u) :
    Holds Step crash (fun _ => Holding (Function.update f name (some (stateFile data)))) bad
      (atomic name data) t := by
  have hCandidate : name ≠ candidateName := ne_of_mem_of_not_mem hName (by decide)
  refine (atomic_holds hCandidate t).mono (fun u hu => ?_) (fun _ _ hu => hu.holding ht) fun reason u _ => hBad reason u
  obtain hu | hu := hu.holding ht
  · exact hOld u hu
  · exact hNew u hu

theorem save_from {encoding : Encoding Data} {r : Receipt} (ht : Holding f t) (hOld : ∀ u, Holding f u → crash u)
    (hNew : ∀ u, Holding (Function.update f receiptName (some (stateFile (encoding.receipt r)))) u → crash u)
    (hBad : ∀ reason u, bad reason u) :
    Holds Step crash (fun _ => Holding (Function.update f receiptName (some (stateFile (encoding.receipt r))))) bad
      (save encoding r) t :=
  .guard (hOld t ht) (fun _ => hBad _ t) fun _ => atomic_from (by decide) ht hOld hNew hBad

theorem read_from (hName : name ∈ stateNames) (ht : Holding f t) (hCrash : ∀ u, Holding f u → crash u)
    (hBad : ∀ reason u, bad reason u) :
    Holds Step crash (fun data u => Holding f u ∧ f name = some (stateFile data)) bad (read name) t := by
  refine (read_holds name t).mono (fun u hu => hu ▸ hCrash t ht) (fun data u hu => ?_) fun reason u _ => hBad reason u
  obtain ⟨rfl, hFile⟩ := hu
  exact ⟨ht, (ht name hName).symm.trans hFile⟩

end Rules

namespace Engine

variable [DecidableEq Data] {e : Engine Data} {p : Plan} {old : Receipt} {result : Result}
variable {f : String → Option (Entry Data)}

abbrev Kept (e : Engine Data) (p : Plan) (s : World Data) (x : Attempt Data Result) (t : World Data) : Prop :=
  Holds Step (Moved e.encoding p s) (fun result => Contract e.encoding p s result)
    (fun failed => Contract e.encoding p s failed.1) x t

section Switching

omit [DecidableEq Data]

theorem quiet_files {α : Type} {x : Action Data α} (h : Keeps Step Same x) : Keeps Step SameFiles x :=
  h.weaken fun _ _ hst => hst.files

theorem docker_sameFiles (p : Plan) (c : DockerCommand) : Keeps Step SameFiles (command p c : Action Data String) := by
  refine .bind (quiet_files (daemon_quiet p)) fun _ s => ask_holds (refl_of SameFiles s) fun reply t hStep => ?_
  have hSame : SameFiles s t := by
    cases hStep with
    | answered _ => exact fun _ _ => rfl
    | failed => exact refl_of SameFiles s
  exact ⟨hSame, settled_of (fun _ => hSame) (fun _ => hSame) reply⟩

theorem createAcme_quiet : Keeps Step Same (createAcme : Action Data Unit) := by
  refine .bind (ask_quiet rfl) fun _ => .bind (.outcome (ask_quiet rfl)) fun synced => ?_
  exact .bind (.outcome (ask_quiet rfl)) fun closed => .bind (.settle synced) fun _ => .settle closed

theorem prepareHost_sameFiles (p : Plan) : Keeps Step SameFiles (prepareHost p : Action Data Unit) := by
  refine .bind (.outcome (quiet_files (ask_quiet rfl))) fun st => ?_
  refine .bind (.onlyIf _ (quiet_files createAcme_quiet)) fun _ => ?_
  refine .bind (quiet_files (checkFile_quiet acmeName)) fun _ => ?_
  exact .bind (docker_sameFiles p _) fun _ => .pure ()

theorem launch_sameFiles (p : Plan) : Keeps Step SameFiles (launch p : Action Data Unit) :=
  .bind (docker_sameFiles p _) fun _ => .pure ()

end Switching

omit [Inhabited Data] [DecidableEq Data] in
theorem uncertain_contract (h : result.outcome = .uncertain) (reason : Failure) (u : World Data) :
    Contract e.encoding p s (result, reason).1 u := .uncertain h

omit [DecidableEq Data] in
theorem ctx_files : Keeps Step SameFiles (ask .contextErr : Action Data Unit) := quiet_files (ask_quiet rfl)

omit [DecidableEq Data] in
theorem commit_kept {id : String} {verified : Option Result} (hResult : result.outcome = .uncertain)
    (hVerified : ∀ observed ∈ verified, observed.outcome = .applied) (hNewer : Newer e.encoding p s)
    (hReceipt : f receiptName = some (stateFile (e.encoding.receipt (p.receipt .intent))))
    (hRoutes : f routesName = some (stateFile (e.encoding.document p.dynamic))) (ht : Holding f t) :
    Kept e p s (e.commit p id verified result) t := by
  have hIntent : ∀ u, Holding f u → Moved e.encoding p s u := fun u hu =>
    .announced (recorded_of_file (hu.receipt.trans hReceipt)) hNewer
  have hCommitted : ∀ u,
      Holding (Function.update f receiptName (some (stateFile (e.encoding.receipt (p.receipt .committed))))) u →
      recorded e.encoding u = some (p.receipt .committed) ∧
        u.files routesName = some (stateFile (e.encoding.document p.dynamic)) := fun u hu =>
    ⟨recorded_of_file (hu.receipt.trans (Function.update_self ..)),
      hu.routes.trans ((update_other (by decide) _).trans hRoutes)⟩
  have hMoved : ∀ u,
      Holding (Function.update f receiptName (some (stateFile (e.encoding.receipt (p.receipt .committed))))) u →
      Moved e.encoding p s u := fun u hu => .committed (hCommitted u hu).1 (hCommitted u hu).2 hNewer
  refine .bind (.mapError (quiet_from ctx_files ht hIntent (uncertain_contract hResult))) fun _ u _ hu => ?_
  refine .bind (.mapError (save_from hu hIntent hMoved (uncertain_contract hResult))) fun _ u _ hu => ?_
  refine .bind (.mapError (quiet_from ctx_files hu hMoved (uncertain_contract hResult))) fun _ u _ hu => ?_
  -- The answer is an observation of the plan, made before or after the commit.
  have hContract : ∀ (observed : Result) v, observed.outcome = .applied → Same u v →
      Contract e.encoding p s observed v := by
    intro observed v hObserved huv
    simp only [Contract, hObserved]
    exact .inr (hCommitted v (hu.same huv.files))
  split
  · rename_i observed hSome
    exact .pure (hMoved u hu) (hContract observed u (hVerified observed rfl) .rfl)
  · exact (observation_holds p id u).mono (fun v hv => hMoved v (hu.same hv.files))
      (fun observed v hv => hContract observed v hv.2 hv.1) fun _ _ h => h.elim

-- The previous routes go back first, so the old receipt is never there with other routes.
theorem restore_kept {id : String} {reason : Failure} (hResult : result.outcome = .uncertain)
    (hOld : Loaded e.encoding s old) (hNewer : Newer e.encoding p s)
    (hReceipt : f receiptName = some (stateFile (e.encoding.receipt (p.receipt .intent))))
    (hPrevious : old.generation ≠ 0 → f previousName = s.files routesName) (ht : Holding f t) :
    Kept e p s (e.restore p old id reason result) t := by
  have hIntent : ∀ u, Holding f u → Moved e.encoding p s u := fun u hu =>
    .announced (recorded_of_file (hu.receipt.trans hReceipt)) hNewer
  have hBad := fun reason => uncertain_contract (e := e) (p := p) (s := s) hResult reason
  refine .bind (.mapError (quiet_from ctx_files ht hIntent hBad)) fun _ u _ hu => ?_
  refine .guard (hIntent u hu) (fun _ => hBad reason u) fun hGeneration => ?_
  have hGeneration : old.generation ≠ 0 := by simpa using hGeneration
  have hRecorded : recorded e.encoding s = some old := hOld.recorded fun hZero => hGeneration (hZero ▸ rfl)
  refine .bind (.mapError (read_from (by decide) hu hIntent hBad)) fun body u _ hu => ?_
  obtain ⟨hu, hBody⟩ := hu
  have hRoutes : s.files routesName = some (stateFile body) := (hPrevious hGeneration).symm.trans hBody
  refine .bind (.mapError (quiet_from ctx_files hu hIntent hBad)) fun _ u _ hu => ?_
  have hRestored : ∀ u, Holding (Function.update f routesName (some (stateFile body))) u →
      Moved e.encoding p s u := fun u hu =>
    .announced (recorded_of_file (hu.receipt.trans ((update_other (by decide) _).trans hReceipt))) hNewer
  refine .bind (.mapError (atomic_from (by decide) hu hIntent hRestored hBad)) fun _ u _ hu => ?_
  refine .bind (.mapError (quiet_from (quiet_files (waitVerified_quiet _ id)) hu hRestored
    fun reason => hBad _)) fun restored u _ hu => ?_
  refine .bind (.mapError (quiet_from ctx_files hu hRestored hBad)) fun _ u _ hu => ?_
  have hBack : ∀ u, Holding (Function.update (Function.update f routesName (some (stateFile body))) receiptName
      (some (stateFile (e.encoding.receipt old)))) u →
      recorded e.encoding u = recorded e.encoding s ∧ u.files routesName = s.files routesName := by
    intro u hu
    refine ⟨(recorded_of_file (hu.receipt.trans (Function.update_self ..))).trans hRecorded.symm, ?_⟩
    rw [hu.routes, update_other (by decide), Function.update_self, hRoutes]
  have hKept := fun u hu => Moved.kept (p := p) (hBack u hu).1 (hBack u hu).2
  refine .bind (.mapError (.bind (save_from hu hRestored hKept hBad) fun _ u _ hu =>
    .onlyIf (hKept u hu) (fun _ => quiet_from ctx_files hu hKept hBad) fun _ => hu)) fun _ u _ hu => ?_
  exact .fail (hKept u hu) (hBack u hu)

omit [DecidableEq Data] in
theorem keepPrevious_from {crash : World Data → Prop} {bad : Failure → World Data → Prop} (ht : Holding f t)
    (hCrash : ∀ u, u.files receiptName = f receiptName → crash u) (hBad : ∀ reason u, bad reason u) :
    Holds Step crash (fun _ u => ∃ g, Holding g u ∧ g receiptName = f receiptName ∧ g previousName = f routesName)
      bad keepPrevious t := by
  refine .bind (read_from (by decide) ht (fun u hu => hCrash u hu.receipt) hBad) fun body u _ hu => ?_
  obtain ⟨hu, hBody⟩ := hu
  have hOther := fun entry => update_other (f := f) (show receiptName ≠ previousName by decide) entry
  refine (atomic_from (by decide) hu (fun v hv => hCrash v hv.receipt)
    (fun v hv => hCrash v (hv.receipt.trans (hOther _))) hBad).mono (fun _ h => h) (fun _ v hv => ?_) fun _ _ h => h
  exact ⟨_, hv, hOther _, (Function.update_self ..).trans hBody.symm⟩

omit [DecidableEq Data] in
theorem launched_from {crash : World Data → Prop} {bad : Result × Failure → World Data → Prop} (ht : Holding f t)
    (hCrash : ∀ u, Holding f u → crash u) (hBad : ∀ reason u, bad (result, reason) u) :
    Holds Step crash (fun _ => Holding f) bad (e.launched p result) t := by
  refine .bind (.mapError (quiet_from (launch_sameFiles p) ht hCrash hBad)) fun _ u _ hu => ?_
  refine .bind (.mapError (quiet_from (quiet_files (find_quiet p)) hu hCrash fun _ => hBad _)) fun c u _ hu => ?_
  cases c with
  | none => exact .fail (hCrash u hu) (hBad _ u)
  | some _ => exact .pure (hCrash u hu) hu

-- The new routes are in place: the plan is committed if it is verified and taken back if not.
theorem verify_kept {id : String} (hResult : result.outcome = .uncertain) (hOld : Loaded e.encoding s old)
    (hNewer : Newer e.encoding p s)
    (hReceipt : f receiptName = some (stateFile (e.encoding.receipt (p.receipt .intent))))
    (hPrevious : old.generation ≠ 0 → f previousName = s.files routesName)
    (hRoutes : f routesName = some (stateFile (e.encoding.document p.dynamic))) (ht : Holding f t) :
    Kept e p s (do
      let verified ← outcome (e.waitVerified p id)
      match verified with
      | .error reason => e.restore p old id reason { result with containerID := id }
      | .ok verified => e.commit p id verified { result with containerID := id }) t := by
  have hIntent : ∀ u, Holding f u → Moved e.encoding p s u := fun u hu =>
    .announced (recorded_of_file (hu.receipt.trans hReceipt)) hNewer
  have hWait : Holds Step (Moved e.encoding p s)
      (settled (fun verified u => Holding f u ∧ ∀ observed ∈ verified, observed.outcome = .applied)
        (fun _ => Holding f)) (fun failed : Result × Failure => Contract e.encoding p s failed.1)
      (outcome (e.waitVerified p id)) t :=
    .outcome ((waitVerified_holds p id t).mono (fun u hu => hIntent u (ht.same hu.files))
      (fun _ u hu => ⟨ht.same hu.1.files, hu.2⟩) fun _ u hu => ht.same hu.files)
  refine .bind hWait fun verified u _ hVerified => ?_
  cases verified with
  | error _ => exact restore_kept hResult hOld hNewer hReceipt hPrevious hVerified
  | ok _ => exact commit_kept hResult hVerified.2 hNewer hReceipt hRoutes hVerified.1

-- After the intent: the previous routes are kept, the new ones put in place and verified.
theorem switchGeneration_kept {c : Option String} (hResult : result.outcome = .uncertain)
    (hOld : Loaded e.encoding s old) (hNewer : Newer e.encoding p s)
    (hReceipt : f receiptName = some (stateFile (e.encoding.receipt (p.receipt .intent))))
    (hRoutes : f routesName = s.files routesName) (ht : Holding f t) :
    Kept e p s (e.switchGeneration p old c result) t := by
  have hMoved : ∀ u, u.files receiptName = f receiptName → Moved e.encoding p s u := fun u hu =>
    .announced (recorded_of_file (hu.trans hReceipt)) hNewer
  have hIntent : ∀ u, Holding f u → Moved e.encoding p s u := fun u hu => hMoved u hu.receipt
  have hBad := fun reason => uncertain_contract (e := e) (p := p) (s := s) hResult reason
  refine .bind (.onlyIf (hIntent t ht) (fun _ => .mapError (quiet_from (prepareHost_sameFiles p) ht hIntent hBad))
    fun _ => ht) fun _ u _ hu => ?_
  have hKeep : Holds Step (Moved e.encoding p s)
      (fun _ u => ∃ g, Holding g u ∧ g receiptName = f receiptName ∧
        (old.generation ≠ 0 → g previousName = s.files routesName))
      (fun failed => Contract e.encoding p s failed.1)
      (onlyIf (old.generation != 0) (orReturn result keepPrevious)) u := by
    refine .onlyIf (hIntent u hu) (fun _ => .mapError ?_) fun hZero => ⟨f, hu, rfl, fun hGeneration => ?_⟩
    · refine (keepPrevious_from hu hMoved hBad).mono (fun _ h => h) (fun _ v hv => ?_) fun _ _ h => h
      obtain ⟨g, hg, hgReceipt, hgPrevious⟩ := hv
      exact ⟨g, hg, hgReceipt, fun _ => hgPrevious.trans hRoutes⟩
    · exact absurd (by simpa using hZero) hGeneration
  refine .bind hKeep fun _ u _ hu => ?_
  obtain ⟨g, hu, hgReceipt, hgPrevious⟩ := hu
  have hgMoved : ∀ u, Holding g u → Moved e.encoding p s u := fun u hu => hMoved u (hu.receipt.trans hgReceipt)
  refine .bind (.mapError (quiet_from ctx_files hu hgMoved hBad)) fun _ u _ hu => ?_
  have hNewMoved : ∀ u, Holding (Function.update g routesName
      (some (stateFile (e.encoding.document p.dynamic)))) u → Moved e.encoding p s u := fun u hu =>
    hMoved u (hu.receipt.trans ((update_other (by decide) _).trans hgReceipt))
  refine .bind (.mapError (atomic_from (by decide) hu hgMoved hNewMoved hBad)) fun _ u _ hu => ?_
  have hLaunch : Holds Step (Moved e.encoding p s) (fun _ => Holding (Function.update g routesName
      (some (stateFile (e.encoding.document p.dynamic))))) (fun failed => Contract e.encoding p s failed.1)
      (e.runningContainer p c result) u := by
    cases c with
    | none => exact launched_from hu hNewMoved hBad
    | some _ => exact .pure (hNewMoved u hu) hu
  refine .bind hLaunch fun id u _ hu => ?_
  refine verify_kept hResult hOld hNewer ?_ (fun hGeneration => ?_) (Function.update_self ..) hu
  · exact (update_other (by decide) _).trans (hgReceipt.trans hReceipt)
  · exact (update_other (by decide) _).trans (hgPrevious hGeneration)

omit [Inhabited Data] [DecidableEq Data] in
theorem refused_contract (h : result.outcome = .refused) (reason : Failure) (u : World Data) (hu : Same s u) :
    Contract e.encoding p s (result, reason).1 u := .refused h hu

theorem replayed_kept {c : Option String} (hResult : result.outcome = .refused) (hOld : Loaded e.encoding s old)
    (hNonempty : p.hash ≠ "") (hHash : old.hash = p.hash) (hGeneration : old.generation = p.generation) (hst : Same s t) :
    Kept e p s (e.replayed p old c result) t := by
  have hUncertain : ∀ reason u, Contract e.encoding p s (result.uncertain, reason).1 u := uncertain_contract rfl
  refine .guard (.same hst) (fun _ => hUncertain _ t) fun _ => ?_
  cases c with
  | none => exact .fail (.same hst) (refused_contract hResult _ t hst)
  | some id =>
    refine .bind (.mapError (same_from (loaded_quiet p) hst (fun _ => .same) fun reason u _ => hUncertain reason u))
      fun _ u _ hu => ?_
    refine .guard (.same hu) (fun _ => hUncertain _ u) fun hPhase => ?_
    have hPhase : old.phase = .committed := by simpa using hPhase
    have hRecorded : recorded e.encoding s = some old := hOld.recorded fun hZero =>
      absurd (hZero ▸ hPhase) (by decide)
    refine (verifiedObservation_holds p id u).mono (fun v hv => .same (hu.trans hv)) (fun observed v hv => ?_)
      fun failed v hv => .uncertain hv.2
    simp only [Contract, hv.2]
    exact .inl ⟨hu.trans hv.1, hNonempty, old, hRecorded, hPhase, hGeneration, hHash⟩

omit [Inhabited Data] [DecidableEq Data] in
theorem Newer.of_loaded (hOld : Loaded e.encoding s old) (hPrevious : old.generation < p.generation) :
    Newer e.encoding p s := fun _ hr => hOld.eq_of_recorded hr ▸ hPrevious

-- Every check comes before the intent, so a refusal has changed nothing.
theorem admitted_kept {c : Option String} {install : Bool} (hResult : result.outcome = .refused)
    (hOld : Loaded e.encoding s old) (hPlan : p.previous < p.generation) (hst : Same s t) :
    Kept e p s (e.admitted p install old c result) t := by
  have hBad := fun reason u hu => refused_contract (e := e) (p := p) (s := s) hResult reason u hu
  have hSame : ∀ u, Same s u → Moved e.encoding p s u := fun _ => .same
  refine .guard (.same hst) (fun _ => hBad _ t hst) fun hPrevious => ?_
  have hPrevious : old.generation = p.previous := by simpa using hPrevious
  have hNewer : Newer e.encoding p s := Newer.of_loaded hOld (hPrevious ▸ hPlan)
  refine .bind (.mapError (same_from (.settle _) hst hSame hBad)) fun _ t _ hst => ?_
  refine .bind ((checkInstallation_holds install old c result hst).mono hSame (fun _ _ h => h)
    fun failed u hu => .refused (hu.1 ▸ hResult) hu.2) fun _ t _ hst => ?_
  refine .bind (.mapError (same_from (daemon_quiet p) hst hSame hBad)) fun _ t _ hst => ?_
  refine .bind (.onlyIf (.same hst) (fun _ => (checkBaseline_holds p old c result hst).mono hSame (fun _ _ h => h)
    fun failed u hu => .refused (hu.1 ▸ hResult) hu.2) fun _ => hst) fun _ t _ hst => ?_
  refine .bind (.mapError (same_from (ask_quiet rfl) hst hSame hBad)) fun _ t _ hst => ?_
  have hUncertain : ∀ reason u, Contract e.encoding p s (result.uncertain, reason).1 u := uncertain_contract rfl
  have hStart : ∀ u, Holding s.files u → Moved e.encoding p s u := fun u hu =>
    .kept (recorded_congr hu.receipt) hu.routes
  have hIntent : ∀ u, Holding (Function.update s.files receiptName
      (some (stateFile (e.encoding.receipt (p.receipt .intent))))) u → Moved e.encoding p s u := fun u hu =>
    .announced (recorded_of_file (hu.receipt.trans (Function.update_self ..))) hNewer
  refine .bind (.mapError (save_from hst.files hStart hIntent hUncertain)) fun _ u _ hu => ?_
  exact switchGeneration_kept rfl hOld hNewer (Function.update_self ..) (update_other (by decide) _) hu

omit [Inhabited Data] [DecidableEq Data] in
theorem Loaded.of_same (hst : Same s t) (h : Loaded e.encoding t old) : Loaded e.encoding s old := by
  simpa only [Loaded, hst.receipt] using h

omit [DecidableEq Data] in
theorem validate_holds (s : World Data) :
    Holds Step (Moved e.encoding p s) (fun _ u => Same s u ∧ p.hash ≠ "")
      (fun failed => Contract e.encoding p s failed.1)
      (orReturn (p.refused 0) (settle (e.validate p))) s := by
  have hRefused : (p.refused 0).outcome = .refused := rfl
  have hBad := fun reason => refused_contract (e := e) (p := p) hRefused reason s .rfl
  refine .mapError (.settle (.same .rfl) ?_)
  unfold validate
  split
  · exact hBad (.message "plan does not belong to engine settings")
  · rename_i hValid
    simp only [Bool.or_eq_true, decide_eq_true_eq, beq_iff_eq, bne_iff_ne, not_or] at hValid
    exact settled_of (fun _ => ⟨.rfl, hValid.1.2⟩) hBad _

theorem apply_kept (install : Bool) (hPlan : p.hash ≠ "" → p.previous < p.generation) (s : World Data) :
    Kept e p s (e.apply p install) s := by
  have hRefused : (p.refused 0).outcome = .refused := rfl
  have hBad := fun reason u hu => refused_contract (e := e) (p := p) (s := s) hRefused reason u hu
  have hSame : ∀ u, Same s u → Moved e.encoding p s u := fun _ => .same
  refine .bind (validate_holds s) fun _ t _ ht => ?_
  obtain ⟨hst, hHash⟩ := ht
  refine .guard (.same hst) (fun _ => hBad _ t hst) fun _ => ?_
  refine .bind (.mapError (same_from (openStorage_quiet e.polls) hst hSame hBad)) fun _ t _ hst => ?_
  have hLoad : Holds Step (Moved e.encoding p s) (fun old u => Same s u ∧ Loaded e.encoding s old)
      (fun failed => Contract e.encoding p s failed.1) (orReturn (p.refused 0) (load e.encoding)) t :=
    .mapError ((load_holds e.encoding t).mono (fun u hu => hu ▸ .same hst)
      (fun old u hu => hu.1 ▸ ⟨hst, Loaded.of_same hst hu.2⟩) fun reason u hu => hu ▸ hBad reason t hst)
  refine .bind hLoad fun old t _ ht => ?_
  obtain ⟨hst, hOld⟩ := ht
  refine .guard (.same hst) (fun _ => hBad _ t hst) fun _ => ?_
  refine .guard (.same hst) (fun _ => uncertain_contract rfl _ t) fun _ => ?_
  refine .bind (.onlyIf (.same hst) (fun _ => .mapError (same_from (checkFile_quiet acmeName) hst hSame
    fun reason u _ => uncertain_contract rfl reason u)) fun _ => hst) fun _ t _ hst => ?_
  refine .bind (.mapError (same_from (find_quiet p) hst hSame hBad)) fun c t _ hst => ?_
  split
  · rename_i hReplay
    exact replayed_kept rfl hOld hHash hReplay.1 hReplay.2 hst
  · exact admitted_kept rfl hOld (hPlan hHash) hst

end Engine

def returned (answer : Except (Result × Failure) Result) : Result :=
  match answer with
  | .ok result => result
  | .error failed => failed.1

def CommittedRoutes (digest : Digest) (email : EmailCheck) (encoding : Encoding Data) (s : World Data) : Prop :=
  ∀ r, recorded encoding s = some r → r.phase = .committed → r.generation ≠ 0 →
    ∃ q, Prepared digest email q ∧ r = q.receipt .committed ∧
      s.data routesName = some (encoding.document q.dynamic)

section Contracts

variable {digest : Digest} {email : EmailCheck} {encoding : Encoding Data} {p : Plan}

omit [Inhabited Data] in
theorem Replayed.routes (hDigest : Function.Injective digest) (hPlan : Prepared digest email p)
    (hRoutes : CommittedRoutes digest email encoding s) (h : Replayed encoding p s t) :
    ∃ r, recorded encoding t = some r ∧ r.phase = .committed ∧ r.generation = p.generation ∧ r.hash = p.hash ∧
      t.data routesName = some (encoding.document p.dynamic) := by
  obtain ⟨hSame, -, old, hOld, hPhase, hGeneration, hHash⟩ := h
  have hPositive : old.generation ≠ 0 := by
    have := hPlan.wellFormed.newer
    omega
  obtain ⟨q, hq, rfl, hData⟩ := hRoutes old hOld hPhase hPositive
  refine ⟨_, (recorded_congr hSame.receipt).trans hOld, hPhase, hGeneration, hHash, ?_⟩
  rw [World.data, hSame.routes, ← World.data, hData, hq.wellFormed.dynamic_eq hDigest hPlan.wellFormed hHash]

end Contracts

-- What an install or apply has done, by the outcome it reports.
theorem outcome_contract [DecidableEq Data] (digest : Digest) (hDigest : Function.Injective digest)
    (email : EmailCheck) (e : Engine Data) (p : Plan) (hPlan : p.hash = "" ∨ Prepared digest email p)
    (install : Bool) (s t : World Data) (hRoutes : CommittedRoutes digest email e.encoding s)
    (trace : List (Event (calls Data))) (answer : Except (Result × Failure) Result)
    (hRun : Runs Step (e.apply p install) s trace (.done answer) t) :
    ((returned answer).outcome = .refused → t.files receiptName = s.files receiptName ∧
      t.files routesName = s.files routesName ∧ t.mutations = s.mutations) ∧
    ((returned answer).outcome = .rolledBack → recorded e.encoding t = recorded e.encoding s ∧
      t.data routesName = s.data routesName) ∧
    ((returned answer).outcome = .applied → ∃ r, recorded e.encoding t = some r ∧ r.phase = .committed ∧
      r.generation = p.generation ∧ r.hash = p.hash ∧
      t.data routesName = some (e.encoding.document p.dynamic)) := by
  have hNewer : p.hash ≠ "" → p.previous < p.generation := fun hHash =>
    (hPlan.resolve_left hHash).wellFormed.newer
  have hContract : Contract e.encoding p s (returned answer) t := by
    have hPost := Safe.returned (Engine.apply_kept install hNewer s) hRun
    cases answer with
    | ok _ => exact hPost
    | error _ => exact hPost
  refine ⟨fun hOutcome => ?_, fun hOutcome => ?_, fun hOutcome => ?_⟩
  · simp only [Contract, hOutcome] at hContract
    exact ⟨hContract.receipt, hContract.routes, hContract.mutations⟩
  · simp only [Contract, hOutcome] at hContract
    exact ⟨hContract.1, congrArg (Option.map Entry.data) hContract.2⟩
  · simp only [Contract, hOutcome] at hContract
    obtain hReplayed | ⟨hRecorded, hFile⟩ := hContract
    · exact hReplayed.routes hDigest (hPlan.resolve_left hReplayed.2.1) hRoutes
    · exact ⟨_, hRecorded, rfl, rfl, rfl, congrArg (Option.map Entry.data) hFile⟩

section Samples

deriving instance Countable for CA

deriving instance Countable for Identity

deriving instance Countable for Settings

deriving instance Countable for Route

deriving instance Countable for VerificationPolicy

deriving instance Countable for DigestInput

deriving instance DecidableEq for DigestInput

inductive Content where
  | empty
  | receipt (r : Receipt)
  | texts (l : List String)
  deriving DecidableEq

instance : Inhabited Content := ⟨.empty⟩

mutual

def leaves : Json → List String
  | .string text => [text]
  | .number n => [toString n]
  | .array items => itemLeaves items
  | .object members => memberLeaves members
  | _ => []

def itemLeaves : List Json → List String
  | [] => []
  | item :: rest => leaves item ++ itemLeaves rest

def memberLeaves : List (String × Json) → List String
  | [] => []
  | (name, value) :: rest => name :: leaves value ++ memberLeaves rest

end

def sampleEncoding : Encoding Content where
  receipt := .receipt
  parseReceipt
    | .receipt r => some r
    | _ => none
  parse_receipt _ := rfl
  document doc := .texts (leaves doc)

def sampleIdentity : Identity := ⟨"proxy", "server", "destination", "runner", "daemon"⟩

def sampleSettings : Settings := ⟨"/state", "/bin/docker", "/run/docker", "admin@example.com", .letsEncrypt, 8080⟩

def sampleEmail : EmailCheck := fun _ => true

def sampleRoutes (port : Nat) : List Route := [⟨"web", "example.com", "/", port⟩]

def zeroPlan : Plan := ⟨⟨"", "", "", "", ""⟩, ⟨"", "", "", "", .other "", 0⟩, 0, 0, [], "", "", 0, none⟩

def staticInput : DigestInput := .static sampleIdentity sampleSettings image

def planInput : DigestInput := .plan "1" 1 0 (sampleRoutes 9000)

def transportInput : DigestInput := .transport "2" 1 loopbackIdleConnTimeout loopbackMaxIdleConnsPerHost

noncomputable def sampleDigest : Digest :=
  Function.update (Function.update (Function.update distinctText staticInput "1") planInput "2") transportInput "3"

theorem sampleDigest_injective : Function.Injective sampleDigest := by
  have hFirst : ∀ text : String, text.toList.head? ≠ some 'x' → ∀ b : DigestInput, distinctText b ≠ text :=
    fun _ h b => distinctText_ne h b
  refine update_injective (update_injective (update_injective distinctText_injective _ ?_) _ ?_) _ ?_
  · exact hFirst "1" (by decide)
  · exact update_ne (hFirst "2" (by decide)) (by decide)
  · exact update_ne (update_ne (hFirst "3" (by decide)) (by decide)) (by decide)

noncomputable def samplePlan : Plan :=
  (prepare sampleDigest sampleEmail sampleIdentity sampleSettings 1 0 (sampleRoutes 9000)).toOption.getD zeroPlan

theorem getD_prepared {x : Except String Plan} (h : x.isOk = true) : x = .ok (x.toOption.getD zeroPlan) := by
  obtain ⟨p, rfl⟩ := Checks.ok_of_isOk h
  rfl

theorem samplePlan_prepared : Prepared sampleDigest sampleEmail samplePlan :=
  .plain (getD_prepared (by decide +kernel))

def sampleEngine : Engine Content where
  settings := sampleSettings
  encoding := sampleEncoding
  polls := 1
  platform := .ok ()
  ownedContainer _ text := .ok text
  generationLoaded _ _ := .ok ()
  routeLoaded _ _ _ := .ok ()

def workingHost (p : Plan) : Outside Content where
  openRoot := .ok ()
  readDir _ := .ok 0
  tryLock := .ok true
  wait := .ok ()
  size _ := 0
  daemon := .ok ⟨"daemon", "linux", "amd64"⟩
  docker issued _ := .ok (if issued.any (·.mutating) then "container" else "")
  listen _ := .ok ()
  rawData := .ok ""
  generationMarker := .ok p.hash
  response r _ := .ok ⟨p.hash, r.id, 200, some ⟨"issuer", "fingerprint", 0⟩⟩
  contextErr := .ok ()
  before := .ok ()

def emptyDirectory : World Content := ⟨fun _ => none, []⟩

noncomputable def sampleInstalled : Except (Result × Failure) Result × World Content :=
  (sampleEngine.apply samplePlan true).eval (respond (workingHost samplePlan)) emptyDirectory

end Samples

-- The first installation on a working host.
theorem first_install_applied :
    ∃ r, recorded sampleEncoding sampleInstalled.2 = some r ∧ r.phase = .committed ∧
      r.generation = samplePlan.generation ∧ r.hash = samplePlan.hash ∧
      sampleInstalled.2.data routesName = some (sampleEncoding.document samplePlan.dynamic) := by
  obtain ⟨trace, hRun⟩ := eval_runs (respond_step (workingHost samplePlan)) (sampleEngine.apply samplePlan true)
    emptyDirectory
  have hEmpty : CommittedRoutes sampleDigest sampleEmail sampleEngine.encoding emptyDirectory :=
    fun _ h => (nomatch h)
  exact (outcome_contract sampleDigest sampleDigest_injective sampleEmail sampleEngine samplePlan
    (.inr samplePlan_prepared) true emptyDirectory _ hEmpty trace _ hRun).2.2 (by decide +kernel)

end NeroCD.Proxy
