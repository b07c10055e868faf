import NeroCD.Proxy.Engine
import NeroCD.Proxy.Replacement

-- The parts of the engine that change neither the state files nor what Docker holds, and what the reads of
-- the state directory return.

namespace NeroCD.Proxy

open NeroCD.Programs
open NeroCD.Programs.Fallible

variable {Data : Type} {s t : World Data}

def stateNames : List String := [receiptName, previousName, routesName]

def SameFiles (s t : World Data) : Prop := ∀ name ∈ stateNames, t.files name = s.files name

structure Same (s t : World Data) : Prop where
  files : SameFiles s t
  mutations : t.mutations = s.mutations

instance : IsPreorder (World Data) SameFiles where
  refl _ _ _ := rfl
  trans _ _ _ hst htu name hName := (htu name hName).trans (hst name hName)

instance : IsPreorder (World Data) Same where
  refl s := ⟨refl_of SameFiles s, rfl⟩
  trans _ _ _ hst htu := ⟨trans_of SameFiles hst.files htu.files, htu.mutations.trans hst.mutations⟩

theorem Same.rfl : Same s s := refl_of Same s

theorem Same.trans {u : World Data} (hst : Same s t) (htu : Same t u) : Same s u := trans_of Same hst htu

theorem Same.receipt (h : Same s t) : t.files receiptName = s.files receiptName := h.files _ (by decide)

theorem Same.routes (h : Same s t) : t.files routesName = s.files routesName := h.files _ (by decide)

theorem Same.of_only {name : String} (hName : name ∉ stateNames) (h : Only name s t) : Same s t where
  files other hOther := h.others other fun hEq => hName (hEq ▸ hOther)
  mutations := congrArg (List.filter _) h.issued

def Call.quiet : Call Data → Bool
  | .mkdir name | .create name => !stateNames.contains name
  | .write _ _ | .rename _ _ | .remove _ => false
  | .docker command => !command.mutating
  | _ => true

variable [Inhabited Data]

theorem step_quiet {c : Call Data} {reply : Except Failure c.Value} (h : Step c s reply t)
    (hc : c.quiet = true) : Same s t := by
  by_cases hRead : c.readOnly = true
  · exact step_readOnly h hRead ▸ .rfl
  · cases c with
    | mkdir _ =>
      have hReply := step_mkdir h
      cases reply with
      | ok _ =>
        obtain ⟨entry, rfl⟩ := hReply
        exact .of_only (by simpa [Call.quiet] using hc) (.set s _)
      | error _ => exact (show t = s from hReply) ▸ .rfl
    | openLock => exact .of_only (by decide) (step_openLock h)
    | create _ =>
      have hReply := step_create h
      cases reply with
      | ok _ => exact (show t = _ from hReply.2) ▸ .of_only (by simpa [Call.quiet] using hc) (.set s _)
      | error _ => exact (show t = s from hReply) ▸ .rfl
    | docker _ =>
      cases h with
      | answered _ =>
        exact ⟨fun _ _ => rfl, by simpa [respond, World.mutations, Call.quiet] using hc⟩
      | failed => exact .rfl
    | write | rename | remove => cases hc
    | _ => exact absurd rfl hRead

theorem ask_quiet {c : Call Data} (hc : c.quiet = true) : Keeps Step Same (ask c) := by
  refine fun s => ask_holds .rfl fun reply t hStep => ?_
  have hSame := step_quiet hStep hc
  exact ⟨hSame, settled_of (fun _ => hSame) (fun _ => hSame) reply⟩

section Storage

theorem checkFile_quiet (name : String) : Keeps Step Same (checkFile name : Action Data Unit) :=
  .of_eq (checkFile_unchanged name)

variable {name : String}

theorem checkSubdirectory_quiet (hName : name ∉ stateNames) :
    Keeps Step Same (checkSubdirectory name : Action Data Unit) := by
  refine .bind (.outcome (ask_quiet (by simpa [Call.quiet] using hName))) fun made => ?_
  refine .bind (.settle _) fun _ => .bind (.mapError _ (ask_quiet rfl)) fun st => ?_
  exact .bind (.failIf _ _) fun _ => .failIf _ _

theorem takeLock_quiet (polls : Nat) : Keeps Step Same (takeLock polls : Action Data Unit) := by
  induction polls with
  | zero => exact .fail _
  | succ _ ih =>
    refine .bind (ask_quiet rfl) fun taken => ?_
    cases taken with
    | true => exact .pure ()
    | false => exact .bind (ask_quiet rfl) fun _ => ih

theorem openStorage_quiet (polls : Nat) : Keeps Step Same (openStorage polls : Action Data Unit) := by
  refine .bind (ask_quiet rfl) fun _ => .bind ?_ fun _ => ?_
  · exact .bind (checkSubdirectory_quiet (by decide)) fun _ => .bind (checkSubdirectory_quiet (by decide)) fun _ =>
      .bind (checkSubdirectory_quiet (by decide)) fun _ => .pure ()
  · refine .bind (.mapError _ (ask_quiet rfl)) fun entries => .bind (.failIf _ _) fun _ => ?_
    exact .bind (ask_quiet rfl) fun _ => .bind (checkFile_quiet "lock") fun _ => takeLock_quiet polls

def Missing (name : String) (s : World Data) (reason : Failure) (t : World Data) : Prop :=
  s = t ∧ (reason.isNotExist = true → s.files name = none)

def Other (s : World Data) (reason : Failure) (t : World Data) : Prop := s = t ∧ reason.isNotExist = false

omit [Inhabited Data] in
theorem Other.missing {reason : Failure} (h : Other s reason t) : Missing name s reason t :=
  ⟨h.1, fun hReason => absurd (h.2.symm.trans hReason) (by decide)⟩

theorem checkFile_holds (name : String) (s : World Data) :
    Holds Step (Eq s) (fun _ t => s = t ∧ ∃ data, s.files name = some (stateFile data)) (Missing name s)
      (checkFile name) s := by
  have hStat : Holds Step (Eq s)
      (fun info t => s = t ∧ ∃ entry, s.files name = some entry ∧ entry.info = info) (Missing name s)
      (ask (.lstat name)) s := by
    refine ask_holds rfl fun reply t hStep => ?_
    obtain ⟨rfl, hReply⟩ := step_lstat hStep
    cases reply with
    | ok _ => exact ⟨rfl, rfl, hReply⟩
    | error _ => exact ⟨rfl, rfl, hReply⟩
  refine .bind hStat fun info t _ ht => ?_
  obtain ⟨rfl, entry, hEntry, rfl⟩ := ht
  refine .guard rfl (fun _ => ⟨rfl, fun h => (nomatch h)⟩) fun hKind => ?_
  refine .failIf rfl (fun _ => ⟨rfl, fun h => (nomatch h)⟩) fun hOwned => ⟨rfl, entry.data, ?_⟩
  obtain ⟨⟨kind, mode, owned⟩, data⟩ := entry
  simp only [Bool.or_eq_false_iff, bne_eq_false_iff_eq, Bool.not_eq_false'] at hKind hOwned
  obtain ⟨rfl, rfl⟩ := hKind
  subst hOwned
  exact hEntry

omit [Inhabited Data] in
theorem joinErrors_settled {α : Type} {good : α → World Data → Prop} {bad : Failure → World Data → Prop}
    {first : Except Failure α} {second : Except Failure Unit} (hFirst : settled good bad first s)
    (hSecond : settled (fun _ _ => True) bad second s)
    (hJoin : ∀ a b, bad a s → bad b s → bad (.joined a b) s) :
    settled good bad (joinErrors first second) s := by
  cases first with
  | ok a =>
    cases second with
    | ok _ => exact hFirst
    | error b => exact hSecond
  | error a =>
    cases second with
    | ok _ => exact hFirst
    | error b => exact hJoin a b hFirst hSecond

theorem openFile_holds (h : (s.files name).isSome = true) :
    Holds Step (Eq s) (fun _ => Eq s) (Other s) (ask (.openFile name)) s := by
  refine ask_holds rfl fun reply t hStep => ?_
  obtain rfl := step_readOnly hStep rfl
  refine ⟨rfl, ?_⟩
  cases hStep with
  | answered _ =>
    simp only [respond, h]
    rfl
  | failed => exact ⟨rfl, rfl⟩

theorem closeFile_holds (name : String) (s : World Data) :
    Holds Step (Eq s) (fun _ => Eq s) (Other s) (ask (.closeFile name)) s := by
  refine ask_holds rfl fun reply t hStep => ?_
  obtain rfl := step_readOnly hStep rfl
  refine ⟨rfl, ?_⟩
  cases hStep with
  | answered _ => rfl
  | failed => exact ⟨rfl, rfl⟩

theorem readBody_holds {data : Data} (h : s.files name = some (stateFile data)) :
    Holds Step (Eq s) (fun body t => s = t ∧ body = data) (Other s) (readBody name) s := by
  have hSize : Holds Step (Eq s) (fun _ => Eq s) (Other s)
      (mapError (fun _ => Failure.message "oversized state") (ask (.fileSize name))) s :=
    .mapError ((ask_unchanged rfl s).mono (fun _ h => h) (fun _ _ h => h) fun _ _ h => ⟨h, rfl⟩)
  refine .bind hSize fun size t _ ht => ?_
  subst t
  refine .guard rfl (fun _ => ⟨rfl, rfl⟩) fun _ => ask_holds rfl fun reply t hStep => ?_
  obtain ⟨rfl, hReply⟩ := step_readFile hStep
  refine ⟨rfl, ?_⟩
  cases reply with
  | ok _ =>
    obtain ⟨entry, hEntry, rfl⟩ := hReply
    exact ⟨rfl, congrArg Entry.data (Option.some.inj (hEntry.symm.trans h))⟩
  | error _ =>
    refine ⟨rfl, Bool.eq_false_iff.mpr fun hNotExist => ?_⟩
    exact nomatch h.symm.trans (hReply hNotExist)

theorem closed_holds {data : Data} {body : Except Failure Data}
    (h : settled (fun body t => s = t ∧ body = data) (Other s) body s) :
    Holds Step (Eq s) (fun body t => s = t ∧ body = data) (Other s)
      (do let closed ← outcome (ask (.closeFile name)); settle (joinErrors body closed)) s := by
  have hClose : Holds Step (Eq s) (settled (fun _ => Eq s) (Other s)) (Other s)
      (outcome (ask (.closeFile name))) s := .outcome (closeFile_holds name s)
  refine .bind hClose fun closed t hst hClosed => ?_
  subst t
  refine .settle rfl (joinErrors_settled h ?_ ?_)
  · cases closed with
    | ok _ => trivial
    | error _ => exact hClosed
  · exact fun a b ha hb => ⟨rfl, Bool.or_eq_false_iff.mpr ⟨ha.2, hb.2⟩⟩

theorem read_holds (name : String) (s : World Data) :
    Holds Step (Eq s) (fun data t => s = t ∧ s.files name = some (stateFile data)) (Missing name s)
      (read name) s := by
  refine .bind (checkFile_holds name s) fun _ t _ ht => ?_
  obtain ⟨rfl, data, hData⟩ := ht
  have hOpened : Holds Step (Eq s) (fun body t => s = t ∧ body = data) (Other s)
      (do
        ask (.openFile name)
        let body ← outcome (readBody name)
        let closed ← outcome (ask (.closeFile name))
        settle (joinErrors body closed)) s := by
    refine .bind (openFile_holds (Option.isSome_iff_exists.mpr ⟨_, hData⟩)) fun _ t _ ht => ?_
    subst t
    have hBody : Holds Step (Eq s) (settled (fun body t => s = t ∧ body = data) (Other s)) (Other s)
        (outcome (readBody name)) s := .outcome (readBody_holds hData)
    refine .bind hBody fun body t hst hBody => ?_
    subst t
    exact closed_holds hBody
  exact hOpened.mono (fun _ h => h) (fun body t h => ⟨h.1, h.2 ▸ hData⟩) fun _ _ h => h.missing

def Loaded (encoding : Encoding Data) (s : World Data) (r : Receipt) : Prop :=
  (s.files receiptName = none ∧ r = .zero) ∨
    ∃ data, s.files receiptName = some (stateFile data) ∧ encoding.parseReceipt data = some r

theorem load_holds (encoding : Encoding Data) (s : World Data) :
    Holds Step (Eq s) (fun r t => s = t ∧ Loaded encoding s r) (fun _ => Eq s) (load encoding) s := by
  have hRead : Holds Step (Eq s)
      (settled (fun data t => s = t ∧ s.files receiptName = some (stateFile data)) (Missing receiptName s))
      (fun _ : Failure => Eq s) (outcome (read receiptName)) s := .outcome (read_holds receiptName s)
  refine .bind hRead fun body t hst hBody => ?_
  subst t
  cases body with
  | error reason =>
    cases hReason : reason.isNotExist with
    | true => simpa only [hReason] using .pure rfl ⟨rfl, .inl ⟨hBody.2 hReason, rfl⟩⟩
    | false => simpa only [hReason] using .fail rfl rfl
  | ok data =>
    refine .settle rfl ?_
    unfold parsed
    cases hParse : encoding.parseReceipt data with
    | none => rfl
    | some r =>
      simp only
      split
      · rfl
      · exact ⟨rfl, .inr ⟨data, hBody.2, hParse⟩⟩

end Storage

theorem read_quiet (name : String) : Keeps Step Same (read name : Action Data Data) := .of_eq fun s =>
  (read_holds name s).mono (fun _ h => h) (fun _ _ h => h.1) fun _ _ h => h.1

namespace Engine

variable {e : Engine Data}

section Docker

theorem daemon_quiet (p : Plan) : Keeps Step Same (daemon p : Action Data Unit) :=
  .bind (ask_quiet rfl) fun _ => .failIf _ _

theorem command_quiet (p : Plan) {c : DockerCommand} (hc : c.mutating = false) :
    Keeps Step Same (command p c : Action Data String) :=
  .bind (daemon_quiet p) fun _ => ask_quiet (by simp [Call.quiet, hc])

theorem find_quiet (p : Plan) : Keeps Step Same (e.find p) := by
  refine .bind (command_quiet p rfl) fun listed => ?_
  split
  · exact .pure none
  · exact .bind (command_quiet p rfl) fun _ => .bind (.settle _) fun id => .pure (some id)

theorem checkPorts_quiet (port : Nat) : Keeps Step Same (checkPorts port : Action Data Unit) :=
  .forEach (fun _ => ask_quiet rfl) _

end Docker

section Observation

theorem probe_total {ε : Type} (p : Plan) (r : Route) (secure : Bool) :
    Total Step Same (probe p r secure : Fallible (calls Data) ε RouteObservation) := by
  refine .bind (.outcome (ask_quiet rfl)) fun answer => ?_
  cases answer with
  | error _ => exact .pure _
  | ok _ =>
    dsimp only
    split
    · exact .pure _
    · split
      · exact .pure _
      · exact .pure _

theorem routeMarker_quiet (p : Plan) (r : Route) :
    Keeps Step Same (interruptedStorageRouteMarker p r : Action Data Unit) :=
  .bind (.mapError _ (ask_quiet rfl)) fun _ => .bind (.failIf _ _) fun _ => ask_quiet rfl

theorem checkRouteLoaded_quiet (p : Plan) (interrupted : Option Plan) (data : String) (r : Route) :
    Keeps Step Same (e.checkRouteLoaded p interrupted data r) := by
  refine .bind (.settle _) fun _ => ?_
  split
  · exact routeMarker_quiet p r
  · exact .bind (probe_total p r false).keeps fun _ => .failIf _ _

theorem generationProbe_quiet (p : Plan) : Keeps Step Same (generationProbe p : Action Data Unit) :=
  .bind (ask_quiet rfl) fun _ => .failIf _ _

theorem observeRoutes_total {ε : Type} (p : Plan) :
    Total Step Same (mapEach (observeRoute p) p.routes : Fallible (calls Data) ε (List RouteObservation)) :=
  .mapEach (fun r => .bind (probe_total p r false) fun _ => .bind (probe_total p r true) fun _ => .pure _) _

-- An observation reports the plan as applied; only its verification may take that back.
theorem observation_holds {ε : Type} (p : Plan) (id : String) (s : World Data) :
    Holds Step (Same s) (fun result t => Same s t ∧ result.outcome = .applied) (fun (_ : ε) _ => False)
      (observation p id) s :=
  .bind (observeRoutes_total p s) fun _ _ ht hRoutes => .pure ht ⟨hRoutes, rfl⟩

theorem verifiedObservation_holds (p : Plan) (id : String) (s : World Data) :
    Holds Step (Same s) (fun result t => Same s t ∧ result.outcome = .applied)
      (fun failed t => Same s t ∧ failed.1.outcome = .uncertain) (verifiedObservation p id) s := by
  refine .bind ((observation_holds p id s).mono (fun _ h => h) (fun _ _ h => h) fun _ _ h => h.elim) ?_
  intro result t ht hResult
  split
  · exact .pure ht hResult
  · refine .guard ht (fun _ => ⟨ht, rfl⟩) fun _ => ?_
    refine .bind (.mapError (((ask_quiet rfl).after ht).mono (fun _ h => h) (fun _ _ h => h) fun _ _ h => ⟨h, rfl⟩)) ?_
    exact fun _ u hu hSame => .pure hu ⟨hSame, hResult.2⟩

theorem verifiedObservation_quiet (p : Plan) (id : String) :
    Keeps Step Same (verifiedObservation p id : Attempt Data Result) := fun s =>
  (verifiedObservation_holds p id s).mono (fun _ h => h) (fun _ _ h => h.1) fun _ _ h => h.1

variable [DecidableEq Data]

theorem checkTransportFile_quiet (p : Plan) : Keeps Step Same (e.checkTransportFile p) :=
  .bind (ask_quiet rfl) fun _ => .bind (.mapError _ (read_quiet routesName)) fun _ => .failIf _ _

theorem loadedConfiguration_quiet (p : Plan) (interrupted : Option Plan) :
    Keeps Step Same (e.loadedConfiguration p interrupted) := by
  refine .bind (daemon_quiet p) fun _ => .bind (.failIf _ _) fun _ => ?_
  refine .bind (.onlyIf _ (checkTransportFile_quiet p)) fun _ => .bind (ask_quiet rfl) fun data => ?_
  refine .bind (.settle _) fun _ => .bind (generationProbe_quiet p) fun _ => ?_
  exact .forEach (fun r => checkRouteLoaded_quiet p interrupted data r) _

theorem loaded_quiet (p : Plan) : Keeps Step Same (e.loaded p) := loadedConfiguration_quiet p none

theorem waitLoaded_quiet (p : Plan) (polls : Nat) : Keeps Step Same (e.waitLoaded p polls) := by
  induction polls with
  | zero => exact .fail _
  | succ _ ih =>
    refine .bind (.outcome (loaded_quiet p)) fun seen => ?_
    cases seen with
    | ok _ => exact .pure ()
    | error _ => exact .bind (ask_quiet rfl) fun _ => ih

theorem tryVerified_holds (p : Plan) (id : String) (s : World Data) :
    Holds Step (Same s) (fun result t => Same s t ∧ result.outcome = .applied) (fun _ => Same s)
      (e.tryVerified p id) s := by
  refine .bind (loaded_quiet p s) fun _ t _ ht => .mapError ?_
  exact (verifiedObservation_holds p id t).mono (fun _ h => ht.trans h) (fun _ _ h => ⟨ht.trans h.1, h.2⟩)
    fun _ _ h => ht.trans h.1

theorem waitObserved_holds (p : Plan) (id : String) (polls : Nat) (s : World Data) :
    Holds Step (Same s) (fun result t => Same s t ∧ result.outcome = .applied) (fun _ => Same s)
      (e.waitObserved p id polls) s := by
  induction polls generalizing s with
  | zero => exact .fail .rfl .rfl
  | succ _ ih =>
    have hTry : Holds Step (Same s)
        (settled (fun result t => Same s t ∧ result.outcome = .applied) (fun _ => Same s))
        (fun _ : Failure => Same s) (outcome (e.tryVerified p id)) s := .outcome (tryVerified_holds p id s)
    refine .bind hTry fun seen t ht hSeen => ?_
    cases seen with
    | ok _ => exact .pure ht hSeen
    | error _ =>
      refine .bind ((ask_quiet rfl).after ht) fun _ u _ hu => ?_
      exact (ih u).mono (fun _ h => hu.trans h) (fun _ _ h => ⟨hu.trans h.1, h.2⟩) fun _ _ h => hu.trans h

theorem waitVerified_holds (p : Plan) (id : String) (s : World Data) :
    Holds Step (Same s) (fun verified t => Same s t ∧ ∀ result ∈ verified, result.outcome = .applied)
      (fun _ => Same s) (e.waitVerified p id) s := by
  unfold waitVerified
  split
  · refine .bind (waitLoaded_quiet p _ s) fun _ t _ ht => .pure ht ⟨ht, fun _ h => (nomatch h)⟩
  · refine .bind (waitObserved_holds p id _ s) fun result t ht hResult => .pure ht ⟨ht, fun _ h => ?_⟩
    exact Option.some.inj h ▸ hResult.2

theorem waitVerified_quiet (p : Plan) (id : String) : Keeps Step Same (e.waitVerified p id) := fun s =>
  (waitVerified_holds p id s).mono (fun _ h => h) (fun _ _ h => h.1) fun _ _ h => h

end Observation

section Admission

variable [DecidableEq Data]

omit [DecidableEq Data] in
theorem report_holds {α : Type} {x : Action Data α} {h : Failure → Result × Failure} (P : Result → Prop)
    (hx : Keeps Step Same x) (hResult : ∀ reason, P (h reason).1) (hst : Same s t) :
    Holds Step (Same s) (fun _ => Same s) (fun failed u => P failed.1 ∧ Same s u) (mapError h x) t :=
  .mapError ((hx.after hst).mono (fun _ hu => hu) (fun _ _ hu => hu) fun reason _ hu => ⟨hResult reason, hu⟩)

theorem checkBaseline_holds (p : Plan) (old : Receipt) (c : Option String) (result : Result) (hst : Same s t) :
    Holds Step (Same s) (fun _ => Same s) (fun failed u => failed.1 = result ∧ Same s u)
      (e.checkBaseline p old c result) t := by
  refine .bind (report_holds (· = result) (loaded_quiet _) (fun _ => rfl) hst) fun _ u _ hu => ?_
  have hObserved := (verifiedObservation_quiet (predecessor p old) (c.getD "")).after hu
  refine .bind (.mapError (hObserved.mono (fun _ h => h) (fun _ _ h => h) fun _ _ h => ⟨rfl, h⟩)) fun _ u _ hu => ?_
  refine .bind (report_holds (· = result) (read_quiet routesName) (fun _ => rfl) hu) fun _ u hu hSame => ?_
  exact .failIf hu (fun _ => ⟨rfl, hSame⟩) fun _ => hSame

omit [DecidableEq Data] in
theorem checkInstallation_holds (install : Bool) (old : Receipt) (c : Option String) (result : Result)
    (hst : Same s t) :
    Holds Step (Same s) (fun _ => Same s) (fun failed u => failed.1 = result ∧ Same s u)
      (e.checkInstallation install old c result) t := by
  cases c with
  | none => exact .guard hst (fun _ => ⟨rfl, hst⟩) fun _ => report_holds (· = result) (checkPorts_quiet _) (fun _ => rfl) hst
  | some _ => exact .failIf hst (fun _ => ⟨rfl, hst⟩) fun _ => hst

theorem loadedPredecessor_quiet (loaded next : Plan) :
    Keeps Step Same (e.loadedInterruptedStoragePredecessor loaded next) :=
  .bind (.failIf _ _) fun _ => .bind (.failIf _ _) fun _ => loadedConfiguration_quiet loaded (some next)

theorem switchReplayed_holds (p : Plan) {result : Result} (hResult : result.outcome = .uncertain) (s : World Data) :
    Holds Step (Same s) (fun observed t => observed.outcome = .applied ∧ Same s t)
      (fun failed t => failed.1.outcome = .uncertain ∧ Same s t) (e.switchReplayed p result) s := by
  refine .bind (report_holds (·.outcome = .uncertain) (daemon_quiet p) (fun _ => hResult) .rfl) fun _ t _ hst => ?_
  refine .bind (report_holds (·.outcome = .uncertain) (find_quiet p) (fun _ => hResult) hst) fun c t _ hst => ?_
  cases c with
  | none => exact .fail hst ⟨hResult, hst⟩
  | some id =>
    refine .bind (report_holds (·.outcome = .uncertain) (loaded_quiet p) (fun _ => hResult) hst) fun _ t _ hst => ?_
    exact (verifiedObservation_holds p id t).mono (fun _ h => hst.trans h) (fun _ _ h => ⟨h.2, hst.trans h.1⟩)
      fun _ _ h => ⟨h.2, hst.trans h.1⟩

end Admission

end Engine

end NeroCD.Proxy
