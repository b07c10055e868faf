import NeroCD.Journal.Persist

-- The public operations of `AttemptJournal` that succeed, with the journal after them.

namespace NeroCD.Journal

open NeroCD.Checks

inductive Family where
  | databaseImport | storageRetention | databaseRetention | storageTransfer | databaseTransfer
  | databaseBackup | capture | archive | buildLog | build | proxy | hosting | event | completion
  | provenance
deriving DecidableEq, Repr

def idsOf (s : JournalState) : Family → List String
  | .databaseImport => s.databaseImports.map (·.id)
  | .storageRetention => s.storageBackupRetentions.map (·.id)
  | .databaseRetention => s.databaseBackupRetentions.map (·.id)
  | .storageTransfer => s.storageBackupTransfers.map (·.id)
  | .databaseTransfer => s.databaseBackupTransfers.map (·.id)
  | .databaseBackup => s.databaseBackup.map (·.id)
  | .capture => s.databaseNetworkCapture.map (·.id)
  | .archive => s.storageArchive.map (·.id)
  | .buildLog => s.buildLogs.map (·.id)
  | .build => s.build.map (·.id)
  | .proxy => s.proxy.map (·.id)
  | .hosting => s.hosting.map (·.id)
  | .event => s.events.map (·.id)
  | .completion => s.completions.map (·.id)
  | .provenance => s.provenance.map (·.id)

structure Entries (α : Type) where
  family : Family
  id : α → String
  get : JournalState → List α
  set : List α → JournalState → JournalState
  ids_get : ∀ s, idsOf s family = (get s).map id := by
    intro s
    rfl
  get_set : ∀ s l v, get ((set l s).withVersion v) = l := by
    intro s l v
    rfl
  ids_other : ∀ s l v g, g ≠ family → idsOf ((set l s).withVersion v) g = idsOf s g := by
    intro s l v g hg
    cases g <;> first | rfl | exact absurd rfl hg
  count : ∀ s e v, entryCount ((set (get s ++ [e]) s).withVersion v) = entryCount s + 1 := by
    intro s e v
    simp only [entryCount, JournalState.withVersion, List.length_append, List.length_singleton]
    omega
  stackBase : ∀ s l v, ((set l s).withVersion v).stackBaseVersion = s.stackBaseVersion := by
    intro s l v
    rfl
  importBase : ∀ s l v,
      ((set l s).withVersion v).externalImportBaseVersion = s.externalImportBaseVersion := by
    intro s l v
    rfl

def importEntries : Entries JournalDatabaseImport where
  family := .databaseImport
  id := (·.id)
  get := (·.databaseImports)
  set l s := { s with databaseImports := l }

def storageRetentionEntries : Entries JournalBackupRetention where
  family := .storageRetention
  id := (·.id)
  get := (·.storageBackupRetentions)
  set l s := { s with storageBackupRetentions := l }

def databaseRetentionEntries : Entries JournalBackupRetention where
  family := .databaseRetention
  id := (·.id)
  get := (·.databaseBackupRetentions)
  set l s := { s with databaseBackupRetentions := l }

def storageTransferEntries : Entries JournalStorageBackupTransfer where
  family := .storageTransfer
  id := (·.id)
  get := (·.storageBackupTransfers)
  set l s := { s with storageBackupTransfers := l }

def databaseTransferEntries : Entries JournalDatabaseBackupTransfer where
  family := .databaseTransfer
  id := (·.id)
  get := (·.databaseBackupTransfers)
  set l s := { s with databaseBackupTransfers := l }

def databaseBackupEntries : Entries JournalDatabaseBackup where
  family := .databaseBackup
  id := (·.id)
  get := (·.databaseBackup)
  set l s := { s with databaseBackup := l }

def captureEntries : Entries JournalDatabaseNetworkCapture where
  family := .capture
  id := (·.id)
  get := (·.databaseNetworkCapture)
  set l s := { s with databaseNetworkCapture := l }

def archiveEntries : Entries JournalStorageArchive where
  family := .archive
  id := (·.id)
  get := (·.storageArchive)
  set l s := { s with storageArchive := l }

def buildEntries : Entries JournalBuild where
  family := .build
  id := (·.id)
  get := (·.build)
  set l s := { s with build := l }

def proxyEntries : Entries JournalProxy where
  family := .proxy
  id := (·.id)
  get := (·.proxy)
  set l s := { s with proxy := l }

def hostingEntries : Entries JournalHosting where
  family := .hosting
  id := (·.id)
  get := (·.hosting)
  set l s := { s with hosting := l }

def eventEntries : Entries JournalEvent where
  family := .event
  id := (·.id)
  get := (·.events)
  set l s := { s with events := l }

def completionEntries : Entries JournalCompletion where
  family := .completion
  id := (·.id)
  get := (·.completions)
  set l s := { s with completions := l }

def provenanceEntries : Entries JournalProvenance where
  family := .provenance
  id := (·.id)
  get := (·.provenance)
  set l s := { s with provenance := l }

-- `if Version < k { Version = k }` under a condition.
def raiseTo (k : Nat) (condition : Bool) (version : Nat) : Nat :=
  if condition && version < k then k else version

-- What a call is to persist: nothing, or a new state.
abbrev Update := JournalState → Except String (Option JournalState)

section

variable (d : Documents)

-- An entry of the same ID is a repetition or a conflict.  `precheck` is what is checked between search and write.
def append {α : Type} (family : Entries α) (valid : α → Except String Unit) (same : α → α → Bool)
    (raise : Nat → Nat) (precheck : JournalState → JournalState → Except String Unit) (entry : α) : Update :=
  fun s => do
    valid entry
    match (family.get s).find? fun old => family.id old == family.id entry with
    | some old => if same old entry then .ok none else .error errJournalConflict
    | none =>
      let next := (family.set (family.get s ++ [entry]) s).withVersion (raise s.version)
      precheck s next
      return some next

def entryLimit (s : JournalState) : Except String Unit :=
  refuse (journalMaxEntries ≤ entryCount s) "runner journal entry limit reached"

def limited (s _ : JournalState) : Except String Unit := entryLimit s

def limitedAndValid (s next : JournalState) : Except String Unit := do
  entryLimit s
  validateJournalState d next

def appendEvent (event : JournalEvent) : Update :=
  append eventEntries validateJournalEvent (· == ·) id limited event

def appendCompletion (completion : JournalCompletion) : Update :=
  append completionEntries validateJournalCompletion (· == ·) id limited completion

def appendProvenance (provenance : JournalProvenance) : Update :=
  append provenanceEntries validateJournalProvenance (· == ·) id limited provenance

def appendDatabaseImport (e : JournalDatabaseImport) : Update :=
  append importEntries d.validateJournalDatabaseImport
    (fun old new => d.importHash old == d.importHash new) id limited e

def appendDatabaseBackup (e : JournalDatabaseBackup) : Update :=
  append databaseBackupEntries d.validateJournalDatabaseBackup
    (fun old new => d.databaseBackupHash old == d.databaseBackupHash new) (fun _ => 18) limited e

def appendDatabaseBackupTransfer (e : JournalDatabaseBackupTransfer) : Update :=
  append databaseTransferEntries d.validateJournalDatabaseBackupTransfer
    (fun old new => d.databaseTransferHash old == d.databaseTransferHash new) (fun _ => 19) limited e

def appendDatabaseBackupRetention (e : JournalBackupRetention) : Update :=
  append databaseRetentionEntries d.validateJournalDatabaseBackupRetention
    (fun old new => d.retentionHash old == d.retentionHash new) (fun _ => 20) limited e

-- The version set here is 19; `persistLocked` raises it to 21.
def appendStorageBackupTransfer (e : JournalStorageBackupTransfer) : Update :=
  append storageTransferEntries d.validateJournalStorageBackupTransfer
    (fun old new => d.storageTransferHash old == d.storageTransferHash new) (fun _ => 19) limited e

def appendStorageBackupRetention (e : JournalBackupRetention) : Update :=
  append storageRetentionEntries d.validateJournalStorageBackupRetention
    (fun old new => d.retentionHash old == d.retentionHash new) (fun _ => 22) limited e

def appendBuild (entry : JournalBuild) : Update :=
  append buildEntries d.validateJournalBuild (· == ·) (raiseTo 5 true) (limitedAndValid d) entry

def appendStorageArchive (entry : JournalStorageArchive) : Update :=
  append archiveEntries d.validateJournalStorageArchive (· == ·) (raiseTo 12 true) (limitedAndValid d) entry

def appendDatabaseNetworkCapture (e : JournalDatabaseNetworkCapture) : Update :=
  append captureEntries
    (fun e => refuse (fails (d.validateJournalDatabaseNetworkCapture e)) errJournalDatabaseNetworkCapture)
    (· == ·) (raiseTo 13 true) (limitedAndValid d) e

-- No entry limit of its own: `validateJournalState` counts the entries.
def appendProxy (entry : JournalProxy) : Update :=
  append proxyEntries d.validateJournalProxy (· == ·)
    (fun v => raiseTo 9 (usesVerifiedSwitch entry) (raiseTo 4 true v))
    (fun _ next => validateJournalState d next) entry

-- The versions a hosting entry needs, in the order in which the source raises to them.
def hostingRequirements (entry : JournalHosting) : List (Nat × Bool) :=
  [(2, true), (3, hostingJournalNeedsV3 entry), (6, hostingJournalUsesLocalBuild entry),
   (8, hostingJournalUsesRuntimeEnvironment entry), (10, hostingJournalUsesStorage entry),
   (11, hostingJournalUsesDatabase entry), (14, entry.databaseUpgrade.isSome),
   (16, hostingJournalUsesRouteContinuity entry), (17, entry.applicationStorage.isSome),
   (15, hostingJournalUsesConnection entry)]

def hostingVersion (entry : JournalHosting) (version : Nat) : Nat :=
  (hostingRequirements entry).foldl (fun v r => raiseTo r.1 r.2 v) version

def markLocalBuild (entry : JournalHosting) : JournalHosting :=
  if hostingJournalHasLocalArtifact entry then { entry with localBuild := true } else entry

def appendHosting (entry : JournalHosting) : Update :=
  append hostingEntries d.validateJournalHosting (· == ·) (hostingVersion (markLocalBuild entry))
    (fun s next => do
      entryLimit s
      validateDatabaseUpgradeJournalChain d next.hosting
      validateApplicationDatabaseJournalChain d next.hosting)
    (markLocalBuild entry)

-- The cursor of a build authority: the last one in the list counts, as in the source's loop.
def cursorSequence (cursors : List JournalBuildLogCursor) (a : HostingBuildAuthority) : Option Int :=
  (cursors.filter (·.authority == a)).getLast?.map (·.lastSequence)

def setCursor (a : HostingBuildAuthority) (sequence : Int) :
    List JournalBuildLogCursor → List JournalBuildLogCursor
  | [] => []
  | c :: rest =>
    if c.authority == a && !rest.any (·.authority == a) then { c with lastSequence := sequence } :: rest
    else c :: setCursor a sequence rest

-- `id` and `now` are the generated journal ID and the clock.
def appendBuildLog (at_ : AttemptIdentity) (buildID component stream message id : String) (now : Int) : Update :=
  fun s => do
    let a : HostingBuildAuthority :=
      { buildID := buildID, runID := at_.runID, leaseID := at_.leaseID, attempt := at_.attempt,
        fence := at_.fence }
    let previous := cursorSequence s.buildLogCursors a
    let sequence := (previous.map (· + 1)).getD 1
    refuse (2147483647 < sequence) "build log sequence exhausted"
    let event : HostingBuildLogEvent :=
      { eventKey := id, sequence := sequence, component := component, stream := stream, message := message,
        sourceTimestamp := none }
    let batch ← d.canonicalHostingBuildLogs { authority := a, events := [event] }
    let entry : JournalBuildLog := { id := id, attempt := at_, batch := batch, createdAt := now }
    let cursors := match previous with
      | none => s.buildLogCursors ++ [{ authority := a, lastSequence := sequence }]
      | some _ => setCursor a sequence s.buildLogCursors
    let next := { s with
      buildLogs := s.buildLogs ++ [entry]
      buildLogCursors := cursors
      version := raiseTo 7 true s.version }
    validateJournalState d next
    return some next

def acknowledge {α : Type} (family : Entries α) (settled : α → Bool) : Update :=
  fun s => .ok (some (family.set ((family.get s).filter fun e => !settled e) s))

def acknowledgeAny {α : Type} (family : Entries α) (settled : α → Bool) : Update :=
  fun s => if (family.get s).any settled then acknowledge family settled s else .ok none

def ackEvents (ids : List String) : Update :=
  acknowledgeAny eventEntries fun e => ids.contains e.id

def ackCompletion (id : String) : Update :=
  acknowledgeAny completionEntries (·.id == id)

def ackProvenance (id : String) : Update :=
  acknowledgeAny provenanceEntries (·.id == id)

def ackStorageArchive (id : String) : Update :=
  acknowledgeAny archiveEntries (·.id == id)

def ackDatabaseImport (id : String) : Update :=
  acknowledge importEntries (·.id == id)

def ackDatabaseBackup (id : String) : Update :=
  acknowledge databaseBackupEntries (·.id == id)

def ackDatabaseBackupTransfer (id : String) : Update :=
  acknowledge databaseTransferEntries (·.id == id)

def ackDatabaseBackupRetention (id : String) : Update :=
  acknowledge databaseRetentionEntries (·.id == id)

def ackStorageBackupTransfer (id : String) : Update :=
  acknowledge storageTransferEntries (·.id == id)

def ackStorageBackupRetention (id : String) : Update :=
  acknowledge storageRetentionEntries (·.id == id)

def ackProxy (id : String) : Update :=
  acknowledge proxyEntries (·.id == id)

def ackHosting (id : String) : Update :=
  acknowledge hostingEntries (·.id == id)

def ackHostingConnection (a : HostingAuthority) : Update :=
  acknowledge hostingEntries (·.authority == a)

def ackBuild (id : String) : Update := fun s => do
  refuse (s.build.any fun e => e.id == id && (e.phase == "result" || e.phase == "attempt_intent") &&
    s.buildLogCursors.any (·.authority == buildJournalAuthority e))
    "build logs require exact completion acknowledgment"
  acknowledgeAny buildEntries (·.id == id) s

-- A later event of the same key replaces an earlier one.
def wantedEvent (batch : HostingBuildLogBatch) (id : String) : Option HostingBuildLogEvent :=
  batch.events.reverse.find? (·.eventKey == id)

def ackBuildLogs (batch : HostingBuildLogBatch) (ack : Document) : Update := fun s => do
  d.validateLogAcknowledgment batch ack
  let logs := s.buildLogs
  refuse (logs.any fun e => (wantedEvent batch e.id).any fun event =>
    e.batch.authority != batch.authority || e.batch.events.head? != some event) errJournalConflict
  refuse ((logs.filter fun e => (wantedEvent batch e.id).isSome).length != batch.events.length)
    errJournalConflict
  return some { s with buildLogs := logs.filter fun e => (wantedEvent batch e.id).isNone }

def ackBuildCompletion (id : String) (ack : Document) : Update := fun s =>
  match (s.build.find? (·.id == id)).bind (·.result) with
  | none => .error errJournalConflict
  | some r => do
    d.validateCompletionAcknowledgment r ack
    refuse (s.buildLogs.any (·.batch.authority == r.authority)) "build completion has pending logs"
    return some { s with
      build := s.build.filter fun e =>
        e.id != id && (e.phase != "attempt_intent" || buildJournalAuthority e != r.authority)
      buildLogCursors := s.buildLogCursors.filter (·.authority != r.authority) }

-- The families of an attempt that are not discarded with it.
def refuseTyped (authority : AttemptIdentity) (s : JournalState) : Except String Unit := do
  let mine (attempt : AttemptIdentity) : Bool := sameAttemptAuthority attempt authority
  refuse (s.storageBackupRetentions.any fun e => mine e.attempt)
    "storage retention requires explicit acknowledgment"
  refuse (s.databaseBackupRetentions.any fun e => mine e.attempt)
    "retention evidence requires explicit acknowledgment"
  refuse (s.storageBackupTransfers.any fun e => mine e.attempt)
    "storage transfer evidence requires explicit acknowledgment"
  refuse (s.databaseImports.any fun e => mine e.attempt)
    "external import requires explicit receipt acknowledgment"
  refuse (s.databaseBackupTransfers.any fun e => mine e.attempt)
    "remote transfer evidence requires explicit acknowledgment"
  refuse (s.databaseBackup.any fun e => mine e.attempt)
    "database backup evidence requires explicit receipt acknowledgment"
  refuse (s.databaseNetworkCapture.any fun e => mine e.attempt)
    "capture evidence requires acknowledged retirement"
  refuse (s.storageArchive.any fun e => mine e.attempt)
    "archive mutation evidence requires explicit reconciliation"
  refuse (s.buildLogCursors.any fun c => c.authority.runID == authority.runID &&
    c.authority.leaseID == authority.leaseID && c.authority.attempt == authority.attempt &&
    c.authority.fence == authority.fence) "build log evidence requires explicit reconciliation"
  refuse (s.build.any fun e => mine e.attempt) "build mutation evidence requires explicit reconciliation"
  refuse (s.proxy.any fun e => mine e.attempt) "proxy mutation evidence requires explicit reconciliation"
  refuse (s.hosting.any fun e => mine e.attempt)
    "hosting mutation evidence requires explicit reconciliation"

def withoutAttempt (authority : AttemptIdentity) (s : JournalState) : JournalState :=
  { s with
    events := s.events.filter fun e => !sameAttemptAuthority e.attempt authority
    completions := s.completions.filter fun e => !sameAttemptAuthority e.attempt authority
    provenance := s.provenance.filter fun e => !sameAttemptAuthority e.attempt authority }

def discardAttempt (authority : AttemptIdentity) : Update := fun s => do
  refuseTyped authority s
  if s.events.any (fun e => sameAttemptAuthority e.attempt authority) ||
      s.completions.any (fun e => sameAttemptAuthority e.attempt authority) ||
      s.provenance.any (fun e => sameAttemptAuthority e.attempt authority) then
    return some (withoutAttempt authority s)
  else return none

-- Only a whole exchange of four phases is retired.
def retireDatabaseNetworkCapture (at_ : AttemptIdentity) : Update := fun s => do
  refuse (fails (validateAttemptIdentity at_) || fails (validateJournalState d s))
    errJournalDatabaseNetworkCapture
  let count := (s.databaseNetworkCapture.filter (·.attempt == at_)).length
  if count == 0 then return none
  else do
    refuse (count != 4) errJournalDatabaseNetworkCapture
    acknowledge captureEntries (·.attempt == at_) s

end

inductive Operation where
  | appendEvent (event : JournalEvent)
  | appendCompletion (completion : JournalCompletion)
  | appendProvenance (provenance : JournalProvenance)
  | appendDatabaseImport (e : JournalDatabaseImport)
  | appendDatabaseBackup (e : JournalDatabaseBackup)
  | appendDatabaseBackupTransfer (e : JournalDatabaseBackupTransfer)
  | appendDatabaseBackupRetention (e : JournalBackupRetention)
  | appendStorageBackupTransfer (e : JournalStorageBackupTransfer)
  | appendStorageBackupRetention (e : JournalBackupRetention)
  | appendBuild (entry : JournalBuild)
  | appendStorageArchive (entry : JournalStorageArchive)
  | appendDatabaseNetworkCapture (e : JournalDatabaseNetworkCapture)
  | appendProxy (entry : JournalProxy)
  | appendHosting (entry : JournalHosting)
  | appendBuildLog (at_ : AttemptIdentity) (buildID component stream message id : String) (now : Int)
  | ackEvents (ids : List String)
  | ackCompletion (id : String)
  | ackProvenance (id : String)
  | ackStorageArchive (id : String)
  | ackDatabaseImport (id : String)
  | ackDatabaseBackup (id : String)
  | ackDatabaseBackupTransfer (id : String)
  | ackDatabaseBackupRetention (id : String)
  | ackStorageBackupTransfer (id : String)
  | ackStorageBackupRetention (id : String)
  | ackProxy (id : String)
  | ackHosting (id : String)
  | ackHostingConnection (a : HostingAuthority)
  | ackBuild (id : String)
  | ackBuildLogs (batch : HostingBuildLogBatch) (ack : Document)
  | ackBuildCompletion (id : String) (ack : Document)
  | discardAttempt (authority : AttemptIdentity)
  | retireDatabaseNetworkCapture (at_ : AttemptIdentity)
deriving Repr

def Operation.target (d : Documents) : Operation → Update
  | .appendEvent e => Journal.appendEvent e
  | .appendCompletion e => Journal.appendCompletion e
  | .appendProvenance e => Journal.appendProvenance e
  | .appendDatabaseImport e => Journal.appendDatabaseImport d e
  | .appendDatabaseBackup e => Journal.appendDatabaseBackup d e
  | .appendDatabaseBackupTransfer e => Journal.appendDatabaseBackupTransfer d e
  | .appendDatabaseBackupRetention e => Journal.appendDatabaseBackupRetention d e
  | .appendStorageBackupTransfer e => Journal.appendStorageBackupTransfer d e
  | .appendStorageBackupRetention e => Journal.appendStorageBackupRetention d e
  | .appendBuild e => Journal.appendBuild d e
  | .appendStorageArchive e => Journal.appendStorageArchive d e
  | .appendDatabaseNetworkCapture e => Journal.appendDatabaseNetworkCapture d e
  | .appendProxy e => Journal.appendProxy d e
  | .appendHosting e => Journal.appendHosting d e
  | .appendBuildLog at_ buildID component stream message id now =>
    Journal.appendBuildLog d at_ buildID component stream message id now
  | .ackEvents ids => Journal.ackEvents ids
  | .ackCompletion id => Journal.ackCompletion id
  | .ackProvenance id => Journal.ackProvenance id
  | .ackStorageArchive id => Journal.ackStorageArchive id
  | .ackDatabaseImport id => Journal.ackDatabaseImport id
  | .ackDatabaseBackup id => Journal.ackDatabaseBackup id
  | .ackDatabaseBackupTransfer id => Journal.ackDatabaseBackupTransfer id
  | .ackDatabaseBackupRetention id => Journal.ackDatabaseBackupRetention id
  | .ackStorageBackupTransfer id => Journal.ackStorageBackupTransfer id
  | .ackStorageBackupRetention id => Journal.ackStorageBackupRetention id
  | .ackProxy id => Journal.ackProxy id
  | .ackHosting id => Journal.ackHosting id
  | .ackHostingConnection a => Journal.ackHostingConnection a
  | .ackBuild id => Journal.ackBuild id
  | .ackBuildLogs batch ack => Journal.ackBuildLogs d batch ack
  | .ackBuildCompletion id ack => Journal.ackBuildCompletion d id ack
  | .discardAttempt authority => Journal.discardAttempt authority
  | .retireDatabaseNetworkCapture at_ => Journal.retireDatabaseNetworkCapture d at_

def settle (d : Documents) (j : AttemptJournal) : Option JournalState → Except String AttemptJournal
  | none => .ok j
  | some t => persistLocked d t

def commit (d : Documents) (update : Update) (j : AttemptJournal) : Except String AttemptJournal :=
  update j.state >>= settle d j

def perform (d : Documents) (op : Operation) : AttemptJournal → Except String AttemptJournal := commit d (op.target d)

def performAll (d : Documents) : List Operation → AttemptJournal → Except String AttemptJournal
  | [], j => .ok j
  | op :: ops, j => do
    let j ← perform d op j
    performAll d ops j

def Operation.appended : Operation → Option (String × Family)
  | .appendEvent e => some (e.id, .event)
  | .appendCompletion e => some (e.id, .completion)
  | .appendProvenance e => some (e.id, .provenance)
  | .appendDatabaseImport e => some (e.id, .databaseImport)
  | .appendDatabaseBackup e => some (e.id, .databaseBackup)
  | .appendDatabaseBackupTransfer e => some (e.id, .databaseTransfer)
  | .appendDatabaseBackupRetention e => some (e.id, .databaseRetention)
  | .appendStorageBackupTransfer e => some (e.id, .storageTransfer)
  | .appendStorageBackupRetention e => some (e.id, .storageRetention)
  | .appendBuild e => some (e.id, .build)
  | .appendStorageArchive e => some (e.id, .archive)
  | .appendDatabaseNetworkCapture e => some (e.id, .capture)
  | .appendProxy e => some (e.id, .proxy)
  | .appendHosting e => some (e.id, .hosting)
  | .appendBuildLog _ _ _ _ _ id _ => some (id, .buildLog)
  | _ => none

def DistinctAcrossFamilies (ops : List Operation) : Prop :=
  ∀ x ∈ ops.filterMap Operation.appended, ∀ y ∈ ops.filterMap Operation.appended, x.1 = y.1 → x.2 = y.2

end NeroCD.Journal
