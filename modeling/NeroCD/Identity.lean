import NeroCD.Store

-- The identities of the memory store. Every operation holds the lock, so an interleaving of calls is a sequence.

namespace NeroCD.Identity

open NeroCD.Domain NeroCD.Records
open NeroCD.Store (GoMap auditMetadata)

inductive UserStatus
  | active
  | disabled
  | other (name : String)
  deriving DecidableEq

def roleSystemAdmin : String := "system_admin"

structure User where
  id : String
  email : String := ""
  name : String := ""
  status : UserStatus
  globalRole : String := ""
  passwordHash : String := ""
  createdAt : Time := 0
  updatedAt : Time := 0
  archivedAt : Option Time := none
  deriving DecidableEq

structure Session where
  id : String
  userID : String
  expiresAt : Time
  createdAt : Time := 0
  lastSeenAt : Option Time := none
  sourceIP : String := ""
  userAgent : String := ""
  revokedAt : Option Time := none
  deriving DecidableEq

inductive TokenStatus
  | active
  | revoked
  | other (name : String)
  deriving DecidableEq

def tokenKindServiceAccount : String := "service_account"

structure APIToken where
  id : String
  name : String := ""
  kind : String := ""
  tokenHash : String
  roles : List String := []
  status : TokenStatus := .active
  createdBy : String
  serviceAccountID : Option String := none
  createdAt : Time := 0
  expiresAt : Option Time := none
  lastUsedAt : Option Time := none
  revokedAt : Option Time := none
  deriving DecidableEq

inductive ServiceAccountStatus
  | active
  | revoked
  | other (name : String)
  deriving DecidableEq

structure ServiceAccount where
  id : String
  projectID : String
  ownerUserID : String
  name : String := ""
  role : String := ""
  status : ServiceAccountStatus := .active
  createdAt : Time := 0
  updatedAt : Time := 0
  revokedAt : Option Time := none
  deriving DecidableEq

structure ManagedServiceAccountCredential where
  serviceAccount : ServiceAccount
  apiToken : APIToken
  deriving DecidableEq

structure OIDCExternalIdentity where
  issuer : String
  subject : String
  userID : String
  createdAt : Time := 0
  deriving DecidableEq

structure Project where
  id : String
  archivedAt : Option Time := none

structure IdentityStore where
  users : List User := []
  sessions : List Session := []
  tokenHashBySessionID : GoMap String := ∅
  apiTokens : List APIToken := []
  serviceAccounts : List ServiceAccount := []
  oidcIdentities : List OIDCExternalIdentity := []
  projects : List Project := []
  auditEvents : List AuditEvent := []

inductive IdentityError
  | notFound
  | conflict
  | lastAdministrator
  deriving DecidableEq

abbrev Outcome (α : Type) := Except IdentityError α × IdentityStore

namespace IdentityStore

def auditIDAvailableLocked (s : IdentityStore) (id : String) : Bool :=
  id == "" || !s.auditEvents.any (fun event => event.id == id)

def auditTaken (s : IdentityStore) (audit : Option AuditEvent) : Bool :=
  match audit with
  | none => false
  | some audit => !s.auditIDAvailableLocked audit.id

def pushAudit (s : IdentityStore) (audit : Option AuditEvent) : IdentityStore :=
  { s with auditEvents := audit.toList ++ s.auditEvents }

def activeUserLocked (s : IdentityStore) (userID : String) : Bool :=
  s.users.any (fun user => user.id == userID && user.status == .active)

def projectExistsLocked (s : IdentityStore) (projectID : String) : Bool :=
  s.projects.any (fun project => project.id == projectID && project.archivedAt.isNone)

def hostingPrincipalExistsLocked (s : IdentityStore) (id : String) : Bool :=
  s.users.any (fun user => user.id == id) || s.serviceAccounts.any (fun account => account.id == id) ||
    s.apiTokens.any (fun token => token.id == id && token.serviceAccountID.isNone)

def activeServiceAccountLocked (s : IdentityStore) (accountID : String) : Option ServiceAccount :=
  s.serviceAccounts.find? (fun account =>
    account.id == accountID && account.status == .active && s.activeUserLocked account.ownerUserID)

def serviceAccountOrTokenExistsLocked (s : IdentityStore) (accountID tokenID tokenHash : String) : Bool :=
  (accountID != "" && s.hostingPrincipalExistsLocked accountID) ||
    s.serviceAccounts.any (fun account => accountID != "" && account.id == accountID) ||
    s.apiTokens.any (fun token => token.id == tokenID || token.tokenHash == tokenHash)

def sessionHash (s : IdentityStore) (session : Session) : String :=
  (s.tokenHashBySessionID.lookup session.id).getD ""

def sessionTaken (s : IdentityStore) (id tokenHash : String) : Bool :=
  s.sessions.any (fun existing => existing.id == id || s.sessionHash existing == tokenHash)

def addSession (s : IdentityStore) (session : Session) (tokenHash : String) : IdentityStore :=
  { s with
    sessions := s.sessions ++ [session]
    tokenHashBySessionID := s.tokenHashBySessionID.insert session.id tokenHash }

end IdentityStore

def updatePasswordHash (userID previousHash passwordHash : String) (s : IdentityStore) : Outcome Unit :=
  let named (user : User) : Bool := user.id == userID && user.passwordHash == previousHash
  match s.users.find? named with
  | none => (.error .conflict, s)
  | some _ =>
    (.ok (), { s with users := updateFirst named (fun user => { user with passwordHash := passwordHash }) s.users })

def deniedBootstrap (audit : AuditEvent) : AuditEvent where
  id := audit.id ++ "-denied"
  actorID := "system"
  action := "identity.bootstrap_admin.denied"
  targetID := "bootstrap-admin"
  metadata := auditMetadata none [("reason", .text "already_completed")]
  createdAt := audit.createdAt

def bootstrapAdmin (user : User) (audit : AuditEvent) (s : IdentityStore) : Outcome Unit :=
  if s.users.length != 0 || s.hostingPrincipalExistsLocked user.id then
    (.error .conflict, s.pushAudit (some (deniedBootstrap audit)))
  else (.ok (), { s with users := s.users ++ [user] }.pushAudit (some audit))

def createSession (session : Session) (tokenHash : String) (audit : Option AuditEvent) (s : IdentityStore) :
    Outcome Unit :=
  if !s.activeUserLocked session.userID then (.error .notFound, s)
  else if s.auditTaken audit then (.error .conflict, s)
  else if s.sessionTaken session.id tokenHash then (.error .conflict, s)
  else (.ok (), (s.addSession session tokenHash).pushAudit audit)

-- `SessionLastSeenUpdateInterval`, five minutes in nanoseconds.
def sessionLastSeenUpdateInterval : Time := 300000000000

def recordSeen (named : Session → Bool) (session : Session) (now : Time) (s : IdentityStore) : IdentityStore :=
  if session.lastSeenAt.all (fun seen => !decide (now - sessionLastSeenUpdateInterval < seen)) then
    { s with sessions := updateFirst named (fun session => { session with lastSeenAt := some now }) s.sessions }
  else s

def getPrincipalBySessionTokenHash (tokenHash : String) (now : Time) (s : IdentityStore) : Outcome User :=
  let named (session : Session) : Bool := s.sessionHash session == tokenHash
  match s.sessions.find? named with
  | none => (.error .notFound, s)
  | some session =>
    if session.revokedAt.isSome || !decide (now < session.expiresAt) then (.error .notFound, s)
    else
      match s.users.find? (fun user => user.id == session.userID && user.status == .active) with
      | some user => (.ok user, recordSeen named session now s)
      | none => (.error .notFound, recordSeen named session now s)

def revokeSession (named : Session → Bool) (revokedAt : Time) (audit : Option AuditEvent) (s : IdentityStore) :
    Outcome Session :=
  match s.sessions.find? (fun session => named session && session.revokedAt.isNone) with
  | none => (.error .notFound, s)
  | some session =>
    let session := { session with revokedAt := some revokedAt }
    (.ok session, { s with
      sessions := updateFirst (fun session => named session && session.revokedAt.isNone) (fun _ => session)
        s.sessions }.pushAudit audit)

def revokeSessionByTokenHash (tokenHash : String) (revokedAt : Time) (audit : Option AuditEvent)
    (s : IdentityStore) : Outcome Unit :=
  let (result, s) := revokeSession (fun session => s.sessionHash session == tokenHash) revokedAt audit s
  (result.map (fun _ => ()), s)

def revokeSessionByID (id : String) (revokedAt : Time) (audit : Option AuditEvent) (s : IdentityStore) :
    Outcome Session :=
  revokeSession (fun session => session.id == id) revokedAt audit s

def createAPIToken (token : APIToken) (audit : Option AuditEvent) (s : IdentityStore) : Outcome APIToken :=
  if !s.activeUserLocked token.createdBy then (.error .notFound, s)
  else if s.auditTaken audit then (.error .conflict, s)
  else if token.serviceAccountID.isNone && s.hostingPrincipalExistsLocked token.id then (.error .conflict, s)
  else if s.apiTokens.any (fun existing => existing.id == token.id || existing.tokenHash == token.tokenHash) then
    (.error .conflict, s)
  else (.ok token, { s with apiTokens := s.apiTokens ++ [token] }.pushAudit audit)

def APIToken.live (token : APIToken) : Bool := token.status == .active && token.revokedAt.isNone

def getAPITokenByHash (tokenHash : String) (now : Time) (s : IdentityStore) : Outcome APIToken :=
  let named (token : APIToken) : Bool :=
    token.tokenHash == tokenHash && token.serviceAccountID.isNone && token.live
  match s.apiTokens.find? named with
  | none => (.error .notFound, s)
  | some token =>
    if token.expiresAt.any (fun expiresAt => !decide (now < expiresAt)) then (.error .notFound, s)
    else
      let token := { token with lastUsedAt := some now }
      (.ok token, { s with apiTokens := updateFirst named (fun _ => token) s.apiTokens })

def revokedToken (revokedAt : Time) (token : APIToken) : APIToken :=
  { token with status := .revoked, revokedAt := some revokedAt }

def revokeAPIToken (tokenID : String) (revokedAt : Time) (audit : Option AuditEvent) (s : IdentityStore) :
    Outcome APIToken :=
  let named (token : APIToken) : Bool := token.id == tokenID && token.revokedAt.isNone
  match s.apiTokens.find? named with
  | none => (.error .notFound, s)
  | some token =>
    (.ok (revokedToken revokedAt token),
      { s with apiTokens := updateFirst named (revokedToken revokedAt) s.apiTokens }.pushAudit audit)

def getManagedServiceAccountCredentialByHash (tokenHash : String) (now : Time) (s : IdentityStore) :
    Outcome ManagedServiceAccountCredential :=
  let named (token : APIToken) : Bool :=
    token.tokenHash == tokenHash && token.serviceAccountID.isSome && token.live &&
      token.expiresAt.any (fun expiresAt => decide (now < expiresAt))
  match s.apiTokens.find? named with
  | none => (.error .notFound, s)
  | some token =>
    match s.serviceAccounts.find? (fun account =>
        some account.id == token.serviceAccountID && account.status == .active) with
    | none => (.error .notFound, s)
    | some account =>
      if !s.activeUserLocked account.ownerUserID then (.error .notFound, s)
      else
        let token := { token with lastUsedAt := some now }
        (.ok { serviceAccount := account, apiToken := token },
          { s with apiTokens := updateFirst named (fun _ => token) s.apiTokens })

def accountToken (account : ServiceAccount) (token : APIToken) : APIToken :=
  { token with
    name := account.name
    kind := tokenKindServiceAccount
    roles := []
    status := .active
    createdBy := account.ownerUserID
    serviceAccountID := some account.id }

def createServiceAccount (account : ServiceAccount) (token : APIToken) (audit : AuditEvent) (s : IdentityStore) :
    Outcome ServiceAccount :=
  if !s.activeUserLocked account.ownerUserID || !s.projectExistsLocked account.projectID then (.error .notFound, s)
  else if !s.auditIDAvailableLocked audit.id ||
      s.serviceAccountOrTokenExistsLocked account.id token.id token.tokenHash then (.error .conflict, s)
  else
    let account := { account with status := .active, revokedAt := none }
    (.ok account, { s with
      serviceAccounts := s.serviceAccounts ++ [account]
      apiTokens := s.apiTokens ++ [accountToken account token] }.pushAudit (some audit))

def changeable (s : IdentityStore) (accountID : String) (account : ServiceAccount) : Bool :=
  account.id == accountID && account.status == .active && s.activeUserLocked account.ownerUserID

def updateServiceAccount (accountID name role : String) (audit : AuditEvent) (s : IdentityStore) :
    Outcome ServiceAccount :=
  if !s.auditIDAvailableLocked audit.id then (.error .conflict, s)
  else
    match s.serviceAccounts.find? (changeable s accountID) with
    | none => (.error .notFound, s)
    | some account =>
      let account := { account with
        name := if name != "" then name else account.name
        role := if role != "" then role else account.role
        updatedAt := audit.createdAt }
      (.ok account, { s with
        serviceAccounts := updateFirst (changeable s accountID) (fun _ => account) s.serviceAccounts }.pushAudit
          (some audit))

def revokeCredentials (accountID : String) (revokedAt : Time) (tokens : List APIToken) : List APIToken :=
  updateAll (fun token => token.serviceAccountID == some accountID && token.live) (revokedToken revokedAt) tokens

def rotateServiceAccountCredential (accountID : String) (token : APIToken) (revokedAt : Time) (audit : AuditEvent)
    (s : IdentityStore) : Outcome APIToken :=
  match s.activeServiceAccountLocked accountID with
  | none => (.error .notFound, s)
  | some account =>
    if !s.auditIDAvailableLocked audit.id || s.serviceAccountOrTokenExistsLocked "" token.id token.tokenHash then
      (.error .conflict, s)
    else
      (.ok (accountToken account token), { s with
        apiTokens := revokeCredentials accountID revokedAt s.apiTokens ++ [accountToken account token] }.pushAudit
          (some audit))

def revokeServiceAccount (accountID : String) (revokedAt : Time) (audit : AuditEvent) (s : IdentityStore) :
    Outcome ServiceAccount :=
  if !s.auditIDAvailableLocked audit.id then (.error .conflict, s)
  else
    match s.serviceAccounts.find? (changeable s accountID) with
    | none => (.error .notFound, s)
    | some account =>
      let account := { account with status := .revoked, updatedAt := revokedAt, revokedAt := some revokedAt }
      (.ok account, { s with
        apiTokens := revokeCredentials accountID revokedAt s.apiTokens
        serviceAccounts := updateFirst (changeable s accountID) (fun _ => account) s.serviceAccounts }.pushAudit
          (some audit))

def oidcIdentityConflictLocked (identity : OIDCExternalIdentity) (s : IdentityStore) : Bool :=
  s.oidcIdentities.any (fun existing =>
    existing.issuer == identity.issuer &&
      (existing.subject == identity.subject || existing.userID == identity.userID))

def provisionOIDCUser (user : User) (identity : OIDCExternalIdentity) (audit : AuditEvent) (s : IdentityStore) :
    Outcome Unit :=
  if !s.auditIDAvailableLocked audit.id || s.hostingPrincipalExistsLocked user.id then (.error .conflict, s)
  else if s.users.any (fun existing => existing.id == user.id || existing.email == user.email) then
    (.error .conflict, s)
  else if oidcIdentityConflictLocked identity s then (.error .conflict, s)
  else
    (.ok (), { s with
      users := s.users ++ [user]
      oidcIdentities := s.oidcIdentities ++ [identity] }.pushAudit (some audit))

def bindOIDCIdentity (identity : OIDCExternalIdentity) (audit : AuditEvent) (s : IdentityStore) : Outcome Unit :=
  if !s.auditIDAvailableLocked audit.id || oidcIdentityConflictLocked identity s then (.error .conflict, s)
  else if !s.users.any (fun user => user.id == identity.userID) then (.error .notFound, s)
  else (.ok (), { s with oidcIdentities := s.oidcIdentities ++ [identity] }.pushAudit (some audit))

def createOIDCSession (issuer subject : String) (session : Session) (tokenHash : String) (audit : AuditEvent)
    (s : IdentityStore) : Outcome User :=
  let userID := ((s.oidcIdentities.find? (fun identity =>
    identity.issuer == issuer && identity.subject == subject)).map (fun identity => identity.userID)).getD ""
  if userID == "" then (.error .notFound, s)
  else
    match s.users.find? (fun user => user.id == userID) with
    | none => (.error .notFound, s)
    | some matched =>
      if matched.id == "" || matched.status != .active then (.error .notFound, s)
      else if !s.auditIDAvailableLocked audit.id then (.error .conflict, s)
      else if s.sessionTaken session.id tokenHash then (.error .conflict, s)
      else
        (.ok matched, (s.addSession { session with userID := matched.id } tokenHash).pushAudit
          (some { audit with actorID := matched.id }))

structure UserOffboardingRequest where
  userID : String
  revokedAt : Time
  audit : AuditEvent
  deniedAudit : AuditEvent

structure UserOffboardingResult where
  user : User
  revokedSessions : Nat := 0
  revokedAPITokens : Nat := 0
  revokedServiceAccounts : Nat := 0

def activeAdmin (user : User) : Bool := user.status == .active && user.globalRole == roleSystemAdmin

def disabledUser (revokedAt : Time) (user : User) : User :=
  { user with status := .disabled, updatedAt := revokedAt, archivedAt := some revokedAt }

-- The writes of `OffboardUser`, for the first user with the ID.
def disableUser (request : UserOffboardingRequest) (user : User) (s : IdentityStore) :
    Outcome UserOffboardingResult :=
  let openSession (session : Session) : Bool := session.userID == user.id && session.revokedAt.isNone
  let openToken (token : APIToken) : Bool := token.createdBy == user.id && token.live
  let openAccount (account : ServiceAccount) : Bool := account.ownerUserID == user.id && account.status == .active
  let sessions := s.sessions.countP openSession
  let tokens := s.apiTokens.countP openToken
  let accounts := s.serviceAccounts.countP openAccount
  let result : UserOffboardingResult :=
    { user := disabledUser request.revokedAt user, revokedSessions := sessions, revokedAPITokens := tokens
      revokedServiceAccounts := accounts }
  (.ok result, { s with
    users := updateFirst (fun user => user.id == request.userID) (disabledUser request.revokedAt) s.users
    sessions := updateAll openSession (fun session => { session with revokedAt := some request.revokedAt }) s.sessions
    apiTokens := updateAll openToken (revokedToken request.revokedAt) s.apiTokens
    serviceAccounts := updateAll openAccount
      (fun account => { account with
        status := .revoked, updatedAt := request.revokedAt, revokedAt := some request.revokedAt })
      s.serviceAccounts }.pushAudit
        (some { request.audit with
          metadata := auditMetadata request.audit.metadata
            [("revoked_sessions", .other (toString sessions)), ("revoked_api_tokens", .other (toString tokens)),
             ("revoked_service_accounts", .other (toString accounts))] }))

def offboardUser (request : UserOffboardingRequest) (s : IdentityStore) : Outcome UserOffboardingResult :=
  match s.users.find? (fun user => user.id == request.userID) with
  | none => (.error .notFound, s)
  | some user =>
    if user.status == .disabled then (.ok { user := user }, s)
    else if user.status != .active then (.error .conflict, s)
    else if user.globalRole == roleSystemAdmin && decide (s.users.countP activeAdmin ≤ 1) then
      if !s.auditIDAvailableLocked request.deniedAudit.id then (.error .conflict, s)
      else
        (.error .lastAdministrator, s.pushAudit (some { request.deniedAudit with
          metadata := auditMetadata request.deniedAudit.metadata
            [("reason", .text "last_active_system_administrator")] }))
    else if !s.auditIDAvailableLocked request.audit.id then (.error .conflict, s)
    else disableUser request user s

inductive Operation
  | updatePasswordHash (userID previousHash passwordHash : String)
  | bootstrapAdmin (user : User) (audit : AuditEvent)
  | createSession (session : Session) (tokenHash : String) (audit : Option AuditEvent)
  | getPrincipalBySessionTokenHash (tokenHash : String) (now : Time)
  | revokeSessionByTokenHash (tokenHash : String) (revokedAt : Time) (audit : Option AuditEvent)
  | revokeSessionByID (id : String) (revokedAt : Time) (audit : Option AuditEvent)
  | createAPIToken (token : APIToken) (audit : Option AuditEvent)
  | getAPITokenByHash (tokenHash : String) (now : Time)
  | revokeAPIToken (tokenID : String) (revokedAt : Time) (audit : Option AuditEvent)
  | getManagedServiceAccountCredentialByHash (tokenHash : String) (now : Time)
  | createServiceAccount (account : ServiceAccount) (token : APIToken) (audit : AuditEvent)
  | updateServiceAccount (accountID name role : String) (audit : AuditEvent)
  | rotateServiceAccountCredential (accountID : String) (token : APIToken) (revokedAt : Time) (audit : AuditEvent)
  | revokeServiceAccount (accountID : String) (revokedAt : Time) (audit : AuditEvent)
  | provisionOIDCUser (user : User) (identity : OIDCExternalIdentity) (audit : AuditEvent)
  | bindOIDCIdentity (identity : OIDCExternalIdentity) (audit : AuditEvent)
  | createOIDCSession (issuer subject : String) (session : Session) (tokenHash : String) (audit : AuditEvent)
  | offboardUser (request : UserOffboardingRequest)

def perform : Operation → IdentityStore → IdentityStore
  | .updatePasswordHash userID previousHash passwordHash, s =>
    (updatePasswordHash userID previousHash passwordHash s).2
  | .bootstrapAdmin user audit, s => (bootstrapAdmin user audit s).2
  | .createSession session tokenHash audit, s => (createSession session tokenHash audit s).2
  | .getPrincipalBySessionTokenHash tokenHash now, s => (getPrincipalBySessionTokenHash tokenHash now s).2
  | .revokeSessionByTokenHash tokenHash revokedAt audit, s => (revokeSessionByTokenHash tokenHash revokedAt audit s).2
  | .revokeSessionByID id revokedAt audit, s => (revokeSessionByID id revokedAt audit s).2
  | .createAPIToken token audit, s => (createAPIToken token audit s).2
  | .getAPITokenByHash tokenHash now, s => (getAPITokenByHash tokenHash now s).2
  | .revokeAPIToken tokenID revokedAt audit, s => (revokeAPIToken tokenID revokedAt audit s).2
  | .getManagedServiceAccountCredentialByHash tokenHash now, s =>
    (getManagedServiceAccountCredentialByHash tokenHash now s).2
  | .createServiceAccount account token audit, s => (createServiceAccount account token audit s).2
  | .updateServiceAccount accountID name role audit, s => (updateServiceAccount accountID name role audit s).2
  | .rotateServiceAccountCredential accountID token revokedAt audit, s =>
    (rotateServiceAccountCredential accountID token revokedAt audit s).2
  | .revokeServiceAccount accountID revokedAt audit, s => (revokeServiceAccount accountID revokedAt audit s).2
  | .provisionOIDCUser user identity audit, s => (provisionOIDCUser user identity audit s).2
  | .bindOIDCIdentity identity audit, s => (bindOIDCIdentity identity audit s).2
  | .createOIDCSession issuer subject session tokenHash audit, s =>
    (createOIDCSession issuer subject session tokenHash audit s).2
  | .offboardUser request, s => (offboardUser request s).2

def performAll (ops : List Operation) (s : IdentityStore) : IdentityStore := ops.foldl (fun s op => perform op s) s

end NeroCD.Identity
