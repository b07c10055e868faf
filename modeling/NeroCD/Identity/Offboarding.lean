import NeroCD.Identity

-- Offboarding: a user who was disabled stays so, and nothing issued to or by them is accepted again.

namespace NeroCD.Identity

open NeroCD.Domain NeroCD.Records
open NeroCD.Store (GoMap auditMetadata)

def TokenAfter (token token' : APIToken) : Prop :=
  token'.createdBy = token.createdBy ∧ (token'.live = true → token.live = true)

def UserAfter (user user' : User) : Prop :=
  user'.id = user.id ∧ (user'.status = .active → user.status = .active)

-- An operation may add a user with a new ID and tokens of active users; tokens go together with being active.
structure Advances (s t : IdentityStore) : Prop where
  users : ∃ kept added, t.users = kept ++ added ∧ List.Forall₂ UserAfter s.users kept ∧
    (added = [] ∨ ∃ user, added = [user] ∧ ∀ old ∈ s.users, old.id ≠ user.id)
  tokens : ∀ token' ∈ t.apiTokens, (∃ token ∈ s.apiTokens, TokenAfter token token') ∨
    s.activeUserLocked token'.createdBy = true
  active : ∀ userID, s.activeUserLocked userID = true → t.activeUserLocked userID = true ∨
    ∀ token ∈ t.apiTokens, token.createdBy = userID → token.live = false

theorem userAfter_refl (user : User) : UserAfter user user := ⟨rfl, id⟩

theorem tokenAfter_refl (token : APIToken) : TokenAfter token token := ⟨rfl, id⟩

theorem tokenAfter_revoked (revokedAt : Time) (token : APIToken) : TokenAfter token (revokedToken revokedAt token) :=
  ⟨rfl, fun hLive => by simp [revokedToken, APIToken.live] at hLive⟩

theorem activeUserLocked_iff (s : IdentityStore) (userID : String) :
    s.activeUserLocked userID = true ↔ ∃ user ∈ s.users, user.id = userID ∧ user.status = .active := by
  simp [IdentityStore.activeUserLocked]

section

variable {s t : IdentityStore}

theorem Advances.of_tokens (hUsers : t.users = s.users)
    (hTokens : ∀ token' ∈ t.apiTokens, (∃ token ∈ s.apiTokens, TokenAfter token token') ∨
      s.activeUserLocked token'.createdBy = true) : Advances s t where
  users := ⟨s.users, [], by rw [hUsers, List.append_nil], List.forall₂_same.mpr fun _ _ => userAfter_refl _, .inl rfl⟩
  tokens := hTokens
  active := fun userID hActive => .inl (by rwa [activeUserLocked_iff, hUsers, ← activeUserLocked_iff])

theorem Advances.of_forall₂ (hUsers : t.users = s.users) (hTokens : List.Forall₂ TokenAfter s.apiTokens t.apiTokens) :
    Advances s t :=
  .of_tokens hUsers fun token' hToken => .inl (exists_of_forall₂_right hTokens token' hToken)

theorem tokens_refl (tokens : List APIToken) : List.Forall₂ TokenAfter tokens tokens :=
  List.forall₂_same.mpr fun _ _ => tokenAfter_refl _

theorem Advances.of_eq (hUsers : t.users = s.users) (hTokens : t.apiTokens = s.apiTokens) : Advances s t :=
  .of_forall₂ hUsers (hTokens ▸ tokens_refl _)

theorem Advances.refl (s : IdentityStore) : Advances s s := .of_eq rfl rfl

theorem Advances.of_added (hUsers : t.users = s.users) {tokens : List APIToken} {token : APIToken}
    (hTokens : t.apiTokens = tokens ++ [token]) (hKept : List.Forall₂ TokenAfter s.apiTokens tokens)
    (hActive : s.activeUserLocked token.createdBy = true) : Advances s t := by
  refine .of_tokens hUsers ?_
  rw [hTokens]
  intro token' hMem
  cases List.mem_append.mp hMem with
  | inl hOld => exact .inl (exists_of_forall₂_right hKept token' hOld)
  | inr hNew => exact .inr (List.mem_singleton.mp hNew ▸ hActive)

theorem Advances.of_user {user : User} (hUsers : t.users = s.users ++ [user]) (hTokens : t.apiTokens = s.apiTokens)
    (hFresh : ∀ old ∈ s.users, old.id ≠ user.id) : Advances s t where
  users := ⟨s.users, [user], hUsers, List.forall₂_same.mpr fun _ _ => userAfter_refl _, .inr ⟨user, rfl, hFresh⟩⟩
  tokens := fun token' hMem => .inl ⟨token', hTokens ▸ hMem, tokenAfter_refl _⟩
  active := by
    intro userID hActive
    rw [activeUserLocked_iff] at hActive ⊢
    obtain ⟨old, hOld, hIs⟩ := hActive
    exact .inl ⟨old, by rw [hUsers]; exact List.mem_append_left _ hOld, hIs⟩

theorem tokens_revokeCredentials (accountID : String) (revokedAt : Time) (tokens : List APIToken) :
    List.Forall₂ TokenAfter tokens (revokeCredentials accountID revokedAt tokens) :=
  forall₂_updateAll _ _ _ _ tokenAfter_refl fun token _ => tokenAfter_revoked revokedAt token

theorem tokens_used {named : APIToken → Bool} {token : APIToken} {tokens : List APIToken} (now : Time)
    (hFind : tokens.find? named = some token) :
    List.Forall₂ TokenAfter tokens (updateFirst named (fun _ => { token with lastUsedAt := some now }) tokens) :=
  (replaces_updateFirst named (fun _ => { token with lastUsedAt := some now }) _ _ hFind).forall₂ _ tokenAfter_refl
    ⟨rfl, id⟩

theorem activeServiceAccountLocked_some {accountID : String} {account : ServiceAccount}
    (h : s.activeServiceAccountLocked accountID = some account) : s.activeUserLocked account.ownerUserID = true := by
  have hFound := List.find?_some h
  simp only [Bool.and_eq_true] at hFound
  exact hFound.2

theorem fresh_of_any_eq_false {p : User → Bool} {user : User} (hp : ∀ old : User, old.id = user.id → p old = true)
    (h : s.users.any p = false) : ∀ old ∈ s.users, old.id ≠ user.id := by
  intro old hOld hEq
  exact List.any_eq_false.mp h old hOld (hp old hEq)

theorem offboardUser_advances (request : UserOffboardingRequest) : Advances s (offboardUser request s).2 := by
  unfold offboardUser
  split
  · exact .refl s
  rename_i user hUser
  split
  · exact .refl s
  split
  · exact .refl s
  split
  · split
    · exact .refl s
    · exact .of_eq rfl rfl
  split
  · exact .refl s
  have hID : user.id = request.userID := by simpa using List.find?_some hUser
  have hTokens : List.Forall₂ TokenAfter s.apiTokens (disableUser request user s).2.apiTokens :=
    forall₂_updateAll _ _ _ _ tokenAfter_refl fun token _ => tokenAfter_revoked request.revokedAt token
  have hReplaces := replaces_updateFirst (fun user => user.id == request.userID) (disabledUser request.revokedAt) _ _
    hUser
  refine ⟨⟨_, [], (List.append_nil _).symm, ?_, .inl rfl⟩,
    fun token' hMem => .inl (exists_of_forall₂_right hTokens token' hMem), ?_⟩
  · exact hReplaces.forall₂ _ userAfter_refl ⟨rfl, fun hActive => by cases hActive⟩
  · intro userID hActive
    by_cases hSame : userID = user.id
    · right
      intro token hMem hBy
      cases mem_updateAll _ _ _ token hMem with
      | inl hOld =>
        have hNot := hOld.2
        rwa [beq_iff_eq.mpr (hBy.trans hSame), Bool.true_and] at hNot
      | inr hNew =>
        obtain ⟨old, -, -, rfl⟩ := hNew
        rfl
    · left
      rw [activeUserLocked_iff] at hActive ⊢
      obtain ⟨other, hOther, hOtherID, hOtherActive⟩ := hActive
      refine ⟨other, hReplaces.mem_of_ne other hOther ?_, hOtherID, hOtherActive⟩
      rintro rfl
      exact hSame hOtherID.symm

theorem revokeSession_advances (named : Session → Bool) (revokedAt : Time) (audit : Option AuditEvent) :
    Advances s (revokeSession named revokedAt audit s).2 := by
  unfold revokeSession
  split
  · exact .refl s
  · exact .of_eq rfl rfl

theorem recordSeen_advances (named : Session → Bool) (session : Session) (now : Time) :
    Advances s (recordSeen named session now s) := by
  unfold recordSeen
  split <;> exact .of_eq rfl rfl

theorem perform_advances (op : Operation) : Advances s (perform op s) := by
  cases op with
  | updatePasswordHash userID previousHash passwordHash =>
    show Advances s (updatePasswordHash userID previousHash passwordHash s).2
    unfold updatePasswordHash
    simp only
    split
    · exact .refl s
    rename_i user hUser
    have hReplaces := replaces_updateFirst _ (fun user => { user with passwordHash := passwordHash }) _ _ hUser
    refine ⟨⟨_, [], (List.append_nil _).symm, hReplaces.forall₂ _ userAfter_refl ⟨rfl, id⟩, .inl rfl⟩,
      fun token' hMem => .inl ⟨token', hMem, tokenAfter_refl _⟩, ?_⟩
    intro id hActive
    rw [activeUserLocked_iff] at hActive ⊢
    obtain ⟨other, hOther, hID, hStatus⟩ := hActive
    left
    by_cases hSame : other = user
    · exact ⟨_, hReplaces.mem_new, hSame ▸ hID, hSame ▸ hStatus⟩
    · exact ⟨other, hReplaces.mem_of_ne other hOther hSame, hID, hStatus⟩
  | bootstrapAdmin user audit =>
    show Advances s (bootstrapAdmin user audit s).2
    unfold bootstrapAdmin
    split
    · exact .of_eq rfl rfl
    rename_i hEmpty
    rw [Bool.or_eq_true, not_or, bne_iff_ne, not_not, List.length_eq_zero_iff] at hEmpty
    exact .of_user rfl rfl (by simp [hEmpty.1])
  | createSession session tokenHash audit =>
    show Advances s (createSession session tokenHash audit s).2
    unfold createSession
    split
    · exact .refl s
    split
    · exact .refl s
    split
    · exact .refl s
    · exact .of_eq rfl rfl
  | getPrincipalBySessionTokenHash tokenHash now =>
    show Advances s (getPrincipalBySessionTokenHash tokenHash now s).2
    unfold getPrincipalBySessionTokenHash
    simp only
    split
    · exact .refl s
    split
    · exact .refl s
    split <;> exact recordSeen_advances _ _ now
  | revokeSessionByTokenHash => exact revokeSession_advances ..
  | revokeSessionByID => exact revokeSession_advances ..
  | createAPIToken token audit =>
    show Advances s (createAPIToken token audit s).2
    unfold createAPIToken
    split
    · exact .refl s
    rename_i hActive
    split
    · exact .refl s
    split
    · exact .refl s
    split
    · exact .refl s
    · exact .of_added rfl rfl (tokens_refl _) (by simpa using hActive)
  | getAPITokenByHash tokenHash now =>
    show Advances s (getAPITokenByHash tokenHash now s).2
    unfold getAPITokenByHash
    simp only
    split
    · exact .refl s
    rename_i token hToken
    split
    · exact .refl s
    · exact .of_forall₂ rfl (tokens_used now hToken)
  | revokeAPIToken tokenID revokedAt audit =>
    show Advances s (revokeAPIToken tokenID revokedAt audit s).2
    unfold revokeAPIToken
    simp only
    split
    · exact .refl s
    · exact .of_forall₂ rfl (forall₂_updateFirst _ _ _ _ tokenAfter_refl fun token _ => tokenAfter_revoked _ token)
  | getManagedServiceAccountCredentialByHash tokenHash now =>
    show Advances s (getManagedServiceAccountCredentialByHash tokenHash now s).2
    unfold getManagedServiceAccountCredentialByHash
    simp only
    split
    · exact .refl s
    rename_i token hToken
    split
    · exact .refl s
    split
    · exact .refl s
    · exact .of_forall₂ rfl (tokens_used now hToken)
  | createServiceAccount account token audit =>
    show Advances s (createServiceAccount account token audit s).2
    unfold createServiceAccount
    split
    · exact .refl s
    rename_i hActive
    rw [Bool.or_eq_true, not_or, Bool.not_eq_true', Bool.not_eq_false] at hActive
    split
    · exact .refl s
    · exact .of_added rfl rfl (tokens_refl _) hActive.1
  | updateServiceAccount accountID name role audit =>
    show Advances s (updateServiceAccount accountID name role audit s).2
    unfold updateServiceAccount
    split
    · exact .refl s
    split
    · exact .refl s
    · exact .of_eq rfl rfl
  | rotateServiceAccountCredential accountID token revokedAt audit =>
    show Advances s (rotateServiceAccountCredential accountID token revokedAt audit s).2
    unfold rotateServiceAccountCredential
    split
    · exact .refl s
    rename_i account hAccount
    split
    · exact .refl s
    · exact .of_added rfl rfl (tokens_revokeCredentials _ _ _) (activeServiceAccountLocked_some hAccount)
  | revokeServiceAccount accountID revokedAt audit =>
    show Advances s (revokeServiceAccount accountID revokedAt audit s).2
    unfold revokeServiceAccount
    split
    · exact .refl s
    split
    · exact .refl s
    · exact .of_forall₂ rfl (tokens_revokeCredentials _ _ _)
  | provisionOIDCUser user identity audit =>
    show Advances s (provisionOIDCUser user identity audit s).2
    unfold provisionOIDCUser
    split
    · exact .refl s
    split
    · exact .refl s
    rename_i hNew
    split
    · exact .refl s
    · refine .of_user rfl rfl (fresh_of_any_eq_false ?_ (Bool.eq_false_iff.mpr hNew))
      exact fun old hEq => by rw [beq_iff_eq.mpr hEq, Bool.true_or]
  | bindOIDCIdentity identity audit =>
    show Advances s (bindOIDCIdentity identity audit s).2
    unfold bindOIDCIdentity
    split
    · exact .refl s
    split
    · exact .refl s
    · exact .of_eq rfl rfl
  | createOIDCSession issuer subject session tokenHash audit =>
    show Advances s (createOIDCSession issuer subject session tokenHash audit s).2
    unfold createOIDCSession
    simp only
    split
    · exact .refl s
    split
    · exact .refl s
    split
    · exact .refl s
    split
    · exact .refl s
    split
    · exact .refl s
    · exact .of_eq rfl rfl
  | offboardUser => exact offboardUser_advances ..

structure Gone (userID : String) (s : IdentityStore) : Prop where
  known : ∃ user ∈ s.users, user.id = userID
  inactive : s.activeUserLocked userID = false
  tokens : ∀ token ∈ s.apiTokens, token.createdBy = userID → token.live = false

theorem Gone.advances {userID : String} (hGone : Gone userID s) (hAdvances : Advances s t) : Gone userID t := by
  obtain ⟨kept, added, hUsers, hKept, hAdded⟩ := hAdvances.users
  obtain ⟨known, hKnown, hKnownID⟩ := hGone.known
  refine ⟨?_, ?_, ?_⟩
  · obtain ⟨user, hUser, hAfter⟩ := exists_of_forall₂_left hKept known hKnown
    exact ⟨user, by rw [hUsers]; exact List.mem_append_left _ hUser, hAfter.1.trans hKnownID⟩
  · rw [Bool.eq_false_iff, ne_eq, activeUserLocked_iff]
    rintro ⟨user, hUser, hID, hActive⟩
    rw [hUsers] at hUser
    cases List.mem_append.mp hUser with
    | inl hOld =>
      obtain ⟨old, hMem, hAfter⟩ := exists_of_forall₂_right hKept user hOld
      refine Bool.eq_false_iff.mp hGone.inactive ((activeUserLocked_iff s userID).mpr ?_)
      exact ⟨old, hMem, hAfter.1.symm.trans hID, hAfter.2 hActive⟩
    | inr hNew =>
      -- the ID of a new user was not taken
      obtain rfl | ⟨fresh, rfl, hFresh⟩ := hAdded
      · cases hNew
      · rw [List.mem_singleton] at hNew
        exact hFresh known hKnown (hKnownID.trans (hNew ▸ hID.symm))
  · intro token' hMem hBy
    obtain ⟨token, hToken, hAfter⟩ | hActive := hAdvances.tokens token' hMem
    · have hDead := hGone.tokens token hToken (hAfter.1.symm.trans hBy)
      exact Bool.eq_false_iff.mpr fun hLive => Bool.eq_false_iff.mp hDead (hAfter.2 hLive)
    · rw [hBy, hGone.inactive] at hActive
      cases hActive

theorem Gone.performAll {userID : String} (hGone : Gone userID s) (ops : List Operation) :
    Gone userID (performAll ops s) := by
  induction ops generalizing s with
  | nil => exact hGone
  | cons op _ ih => exact ih (hGone.advances (perform_advances op))

structure Consistent (s : IdentityStore) : Prop where
  keyed : Keyed (fun user : User => user.id) s.users
  tokens : ∀ token ∈ s.apiTokens, token.live = true → s.activeUserLocked token.createdBy = true

theorem Consistent.advances (hConsistent : Consistent s) (hAdvances : Advances s t) : Consistent t := by
  obtain ⟨kept, added, hUsers, hKept, hAdded⟩ := hAdvances.users
  refine ⟨?_, ?_⟩
  · have hIDs : kept.map (fun user => user.id) = s.users.map (fun user => user.id) :=
      map_eq_of_forall₂ hKept _ fun _ _ hAfter => hAfter.1
    rw [keyed_iff_nodup, hUsers, List.map_append, hIDs]
    have hNodup := (keyed_iff_nodup _ _).mp hConsistent.keyed
    obtain rfl | ⟨user, rfl, hFresh⟩ := hAdded
    · rwa [List.map_nil, List.append_nil]
    · refine List.nodup_append.mpr ⟨hNodup, List.nodup_singleton _, ?_⟩
      intro id hID other hOther
      obtain ⟨old, hOld, rfl⟩ := List.mem_map.mp hID
      rw [List.map_singleton, List.mem_singleton] at hOther
      exact hOther ▸ hFresh old hOld
  · intro token' hMem hLive
    have hActive : s.activeUserLocked token'.createdBy = true := by
      obtain ⟨token, hToken, hAfter⟩ | hActive := hAdvances.tokens token' hMem
      · exact hAfter.1 ▸ hConsistent.tokens token hToken (hAfter.2 hLive)
      · exact hActive
    refine (hAdvances.active _ hActive).resolve_right fun hDead => ?_
    exact Bool.eq_false_iff.mp (hDead token' hMem rfl) hLive

theorem consistent_performAll (ops : List Operation) (hConsistent : Consistent s) :
    Consistent (performAll ops s) := by
  induction ops generalizing s with
  | nil => exact hConsistent
  | cons op _ ih => exact ih (hConsistent.advances (perform_advances op))

structure Offboardable (userID : String) (s : IdentityStore) : Prop where
  once : s.users.countP (fun user => user.id == userID) ≤ 1
  tokens : s.activeUserLocked userID = false → ∀ token ∈ s.apiTokens, token.createdBy = userID → token.live = false

theorem Consistent.offboardable (hConsistent : Consistent s) (userID : String) : Offboardable userID s where
  once := by
    have hNodup := (keyed_iff_nodup _ _).mp hConsistent.keyed
    have hCount := List.nodup_iff_count_le_one.mp hNodup userID
    rwa [List.count, List.countP_map] at hCount
  tokens := by
    intro hInactive token hToken hBy
    refine Bool.eq_false_iff.mpr fun hLive => ?_
    have hActive := hConsistent.tokens token hToken hLive
    rw [hBy, hInactive] at hActive
    cases hActive

theorem Offboardable.gone {request : UserOffboardingRequest} (hOnce : Offboardable request.userID s)
    (hOk : (offboardUser request s).1.isOk = true) : Gone request.userID (offboardUser request s).2 := by
  revert hOk
  unfold offboardUser
  split
  · exact fun hOk => by cases hOk
  rename_i user hUser
  have hID : user.id = request.userID := by simpa using List.find?_some hUser
  have hMem := List.mem_of_find?_eq_some hUser
  split
  · -- the user is disabled already
    rename_i hDisabled
    rw [beq_iff_eq] at hDisabled
    intro _
    have hInactive : s.activeUserLocked request.userID = false := by
      rw [Bool.eq_false_iff, ne_eq, activeUserLocked_iff]
      rintro ⟨other, hOther, hOtherID, hActive⟩
      obtain rfl | ⟨-, hNot⟩ := (Replaces.self hMem).mem_of_countP _ (List.find?_some hUser) hOnce.once other hOther
      · rw [hDisabled] at hActive
        cases hActive
      · exact Bool.eq_false_iff.mp hNot (beq_iff_eq.mpr hOtherID)
    exact ⟨⟨user, hMem, hID⟩, hInactive, hOnce.tokens hInactive⟩
  split
  · exact fun hOk => by cases hOk
  split
  · split <;> exact fun hOk => by cases hOk
  split
  · exact fun hOk => by cases hOk
  intro _
  have hReplaces := replaces_updateFirst (fun user => user.id == request.userID) (disabledUser request.revokedAt) _ _
    hUser
  refine ⟨⟨_, hReplaces.mem_new, hID⟩, ?_, ?_⟩
  · rw [Bool.eq_false_iff, ne_eq, activeUserLocked_iff]
    rintro ⟨other, hOther, hOtherID, hActive⟩
    obtain rfl | ⟨-, hNot⟩ := hReplaces.mem_of_countP _ (List.find?_some hUser) hOnce.once other hOther
    · cases hActive
    · exact Bool.eq_false_iff.mp hNot (beq_iff_eq.mpr hOtherID)
  · intro token hToken hBy
    cases mem_updateAll _ _ _ token hToken with
    | inl hOld =>
      have hNot := hOld.2
      rwa [beq_iff_eq.mpr (hBy.trans hID.symm), Bool.true_and] at hNot
    | inr hNew =>
      obtain ⟨old, -, -, rfl⟩ := hNew
      rfl

structure ShutOut (userID : String) (s : IdentityStore) : Prop where
  session : ∀ tokenHash now user, (getPrincipalBySessionTokenHash tokenHash now s).1 = .ok user → user.id ≠ userID
  apiToken : ∀ tokenHash now token, (getAPITokenByHash tokenHash now s).1 = .ok token → token.createdBy ≠ userID
  credential : ∀ tokenHash now c, (getManagedServiceAccountCredentialByHash tokenHash now s).1 = .ok c →
    c.serviceAccount.ownerUserID ≠ userID ∧ c.apiToken.createdBy ≠ userID
  newSession : ∀ session tokenHash audit, session.userID = userID →
    (createSession session tokenHash audit s).1.isOk = false
  newOIDCSession : ∀ issuer subject session tokenHash audit user,
    (createOIDCSession issuer subject session tokenHash audit s).1 = .ok user → user.id ≠ userID
  newAPIToken : ∀ token audit, token.createdBy = userID → (createAPIToken token audit s).1.isOk = false
  newServiceAccount : ∀ account token audit, account.ownerUserID = userID →
    (createServiceAccount account token audit s).1.isOk = false
  newCredential : ∀ accountID token revokedAt audit token',
    (rotateServiceAccountCredential accountID token revokedAt audit s).1 = .ok token' →
      ∃ account ∈ s.serviceAccounts, account.id = accountID ∧ token'.createdBy = account.ownerUserID ∧
        account.ownerUserID ≠ userID

theorem Gone.shutOut {userID : String} (hGone : Gone userID s) : ShutOut userID s where
  session := by
    intro tokenHash now user hOk
    unfold getPrincipalBySessionTokenHash at hOk
    simp only at hOk
    split at hOk
    · cases hOk
    rename_i session hSession
    split at hOk
    · cases hOk
    split at hOk
    · rename_i found hFound
      cases hOk
      rintro rfl
      have hIs := List.find?_some hFound
      simp only [Bool.and_eq_true, beq_iff_eq] at hIs
      refine Bool.eq_false_iff.mp hGone.inactive ((activeUserLocked_iff _ _).mpr ?_)
      exact ⟨user, List.mem_of_find?_eq_some hFound, rfl, hIs.2⟩
    · cases hOk
  apiToken := by
    intro tokenHash now token hOk hBy
    unfold getAPITokenByHash at hOk
    simp only at hOk
    split at hOk
    · cases hOk
    rename_i found hFound
    split at hOk
    · cases hOk
    cases hOk
    have hLive := List.find?_some hFound
    simp only [Bool.and_eq_true] at hLive
    have hDead := hGone.tokens found (List.mem_of_find?_eq_some hFound) hBy
    rw [hLive.2] at hDead
    cases hDead
  credential := by
    intro tokenHash now c hOk
    unfold getManagedServiceAccountCredentialByHash at hOk
    simp only at hOk
    split at hOk
    · cases hOk
    rename_i found hFound
    split at hOk
    · cases hOk
    rename_i account hAccount
    split at hOk
    · cases hOk
    rename_i hActive
    cases hOk
    refine ⟨?_, ?_⟩
    · rintro rfl
      rw [hGone.inactive] at hActive
      exact hActive rfl
    · intro hBy
      have hLive := List.find?_some hFound
      simp only [Bool.and_eq_true] at hLive
      have hDead := hGone.tokens found (List.mem_of_find?_eq_some hFound) hBy
      rw [hLive.1.2] at hDead
      cases hDead
  newSession := by
    rintro session tokenHash audit rfl
    unfold createSession
    rw [hGone.inactive]
    rfl
  newOIDCSession := by
    intro issuer subject session tokenHash audit user hOk hID
    unfold createOIDCSession at hOk
    simp only at hOk
    split at hOk
    · cases hOk
    split at hOk
    · cases hOk
    rename_i matched hMatched
    split at hOk
    · cases hOk
    rename_i hActive
    split at hOk
    · cases hOk
    split at hOk
    · cases hOk
    cases hOk
    simp only [Bool.or_eq_true, not_or, bne_iff_ne, ne_eq, not_not] at hActive
    refine Bool.eq_false_iff.mp hGone.inactive ((activeUserLocked_iff _ _).mpr ?_)
    exact ⟨_, List.mem_of_find?_eq_some hMatched, hID, hActive.2⟩
  newAPIToken := by
    rintro token audit rfl
    unfold createAPIToken
    rw [hGone.inactive]
    rfl
  newServiceAccount := by
    rintro account token audit rfl
    unfold createServiceAccount
    rw [hGone.inactive]
    rfl
  newCredential := by
    intro accountID token revokedAt audit token' hOk
    unfold rotateServiceAccountCredential at hOk
    split at hOk
    · cases hOk
    rename_i account hAccount
    split at hOk
    · cases hOk
    cases hOk
    have hFound := List.find?_some hAccount
    simp only [Bool.and_eq_true, beq_iff_eq] at hFound
    refine ⟨account, List.mem_of_find?_eq_some hAccount, hFound.1.1, rfl, ?_⟩
    rintro rfl
    rw [hGone.inactive] at hFound
    cases hFound.2

theorem offboardUser_admins (request : UserOffboardingRequest) (hAdmins : 0 < s.users.countP activeAdmin) :
    0 < (offboardUser request s).2.users.countP activeAdmin := by
  unfold offboardUser
  split
  · exact hAdmins
  rename_i user hUser
  split
  · exact hAdmins
  split
  · exact hAdmins
  rename_i hActive
  rw [bne_iff_ne, ne_eq, not_not] at hActive
  split
  · split <;> exact hAdmins
  rename_i hLast
  split
  · exact hAdmins
  have hReplaces := replaces_updateFirst (fun user => user.id == request.userID) (disabledUser request.revokedAt) _ _
    hUser
  have hCount := hReplaces.countP_eq activeAdmin
  rw [show activeAdmin (disabledUser request.revokedAt user) = false from rfl] at hCount
  show 0 < (updateFirst _ (disabledUser request.revokedAt) s.users).countP activeAdmin
  cases hRole : activeAdmin user with
  | false =>
    rw [hRole] at hCount
    simp only [Bool.false_eq_true, if_false] at hCount
    omega
  | true =>
    -- the count was more than one
    rw [hRole] at hCount
    simp only [activeAdmin, Bool.and_eq_true] at hRole
    rw [hRole.2, Bool.true_and, decide_eq_true_eq] at hLast
    simp only [Bool.false_eq_true, if_false, if_true] at hCount
    omega

theorem offboardings_admins (requests : List UserOffboardingRequest) (hAdmins : 0 < s.users.countP activeAdmin) :
    0 < (performAll (requests.map .offboardUser) s).users.countP activeAdmin := by
  induction requests generalizing s with
  | nil => exact hAdmins
  | cons request _ ih => exact ih (offboardUser_admins request hAdmins)

end

-- Offboarding is complete and permanent for a user who occurs once and, if disabled already, has no live token,
-- as is the case in every state that the operations reach; and it leaves an administrator.
theorem offboarding_permanent :
    (∀ projects ops userID, Offboardable userID (performAll ops { projects := projects })) ∧
    (∀ s request, Offboardable request.userID s → (offboardUser request s).1.isOk = true →
      ∀ later, ShutOut request.userID (performAll later (offboardUser request s).2)) ∧
    ∀ (s : IdentityStore) (requests : List UserOffboardingRequest), 0 < s.users.countP activeAdmin →
      0 < (performAll (requests.map .offboardUser) s).users.countP activeAdmin := by
  refine ⟨?_, ?_, ?_⟩
  · intro projects ops userID
    have hStart : Consistent { projects := projects } := ⟨List.Pairwise.nil, fun token hToken => nomatch hToken⟩
    exact (consistent_performAll ops hStart).offboardable userID
  · intro s request hOnce hOk later
    exact ((hOnce.gone hOk).performAll later).shutOut
  · exact fun s requests hAdmins => offboardings_admins requests hAdmins

def sampleAudit (id : String) : AuditEvent :=
  { id := id, actorID := "admin", action := "", targetID := "", createdAt := 0 }

def sampleOffboarding (userID : String) : UserOffboardingRequest :=
  { userID := userID, revokedAt := 5, audit := sampleAudit "offboarded", deniedAudit := sampleAudit "denied" }

def sampleIdentities : IdentityStore :=
  performAll
    [.bootstrapAdmin { id := "admin", status := .active, globalRole := roleSystemAdmin } (sampleAudit "bootstrap"),
     .provisionOIDCUser { id := "user", email := "user", status := .active }
       { issuer := "issuer", subject := "user", userID := "user" } (sampleAudit "provisioned"),
     .createAPIToken { id := "token", tokenHash := "hash", createdBy := "user" } none,
     .createServiceAccount { id := "account", projectID := "project", ownerUserID := "user" }
       { id := "credential", tokenHash := "secret", createdBy := "", expiresAt := some 100 } (sampleAudit "account")]
    { projects := [{ id := "project" }] }

theorem sampleIdentities_offboarding :
    (offboardUser (sampleOffboarding "user") sampleIdentities).1.isOk = true ∧
    (getAPITokenByHash "hash" 1 sampleIdentities).1.isOk = true ∧
    (∀ later, ShutOut "user" (performAll later (offboardUser (sampleOffboarding "user") sampleIdentities).2)) ∧
    0 < (performAll [.offboardUser (sampleOffboarding "user"), .offboardUser (sampleOffboarding "admin")]
      sampleIdentities).users.countP activeAdmin := by
  have hOk : (offboardUser (sampleOffboarding "user") sampleIdentities).1.isOk = true := by decide +kernel
  obtain ⟨hReached, hPermanent, hAdmins⟩ := offboarding_permanent
  exact ⟨hOk, by decide +kernel, hPermanent sampleIdentities (sampleOffboarding "user") (hReached _ _ _) hOk,
    hAdmins sampleIdentities [sampleOffboarding "user", sampleOffboarding "admin"] (by decide +kernel)⟩

-- A user who is disabled, with a token that is live all the same: offboarding them changes nothing.
def sampleDisabled : IdentityStore :=
  { users := [{ id := "user", status := .disabled }]
    apiTokens := [{ id := "token", tokenHash := "hash", createdBy := "user" }] }

-- In a state that no operations lead to, offboarding may leave a token that authenticates.
theorem offboarding_incomplete :
    ((offboardUser (sampleOffboarding "user") sampleDisabled).1.isOk = true ∧
      ∃ token, (getAPITokenByHash "hash" 9 (offboardUser (sampleOffboarding "user") sampleDisabled).2).1 = .ok token ∧
        token.createdBy = "user") ∧
    ((offboardUser (sampleOffboarding "user") sampleIdentities).1.isOk = true ∧
      (createAPIToken
        { id := "more", tokenHash := "more", createdBy := "admin", serviceAccountID := some "account" } none
        (offboardUser (sampleOffboarding "user") sampleIdentities).2).1.isOk = true) := by
  refine ⟨⟨by decide +kernel, ⟨_, rfl, rfl⟩⟩, by decide +kernel, by decide +kernel⟩

end NeroCD.Identity
