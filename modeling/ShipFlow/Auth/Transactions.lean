import ShipFlow.Auth.AuthService

/-! What a committed transaction of the identity service leaves behind. -/

namespace ShipFlow.Auth
open Interleaving Relational

section Tables
variable (s : Store)

@[simp] theorem nextId_eq : HasIds.nextId s = s.nextId := rfl
@[simp] theorem takeId_eq : HasIds.takeId s = { s with nextId := s.nextId + 1 } := rfl

@[simp] theorem users_rows : users.rows s = s.users := rfl
@[simp] theorem users_put (rows : List User) : users.put rows s = { s with users := rows } := rfl

@[simp] theorem oauthAccounts_rows : oauthAccounts.rows s = s.oauthAccounts := rfl
@[simp] theorem oauthAccounts_put (rows : List OAuthAccount) :
    oauthAccounts.put rows s = { s with oauthAccounts := rows } := rfl

@[simp] theorem sessions_rows : sessions.rows s = s.sessions := rfl
@[simp] theorem sessions_put (rows : List Session) :
    sessions.put rows s = { s with sessions := rows } := rfl

@[simp] theorem emailVerificationTokens_rows :
    emailVerificationTokens.rows s = s.emailVerificationTokens := rfl
@[simp] theorem emailVerificationTokens_put (rows : List EmailVerificationToken) :
    emailVerificationTokens.put rows s = { s with emailVerificationTokens := rows } := rfl

@[simp] theorem passwordResetTokens_rows : passwordResetTokens.rows s = s.passwordResetTokens := rfl
@[simp] theorem passwordResetTokens_put (rows : List PasswordResetToken) :
    passwordResetTokens.put rows s = { s with passwordResetTokens := rows } := rfl

@[simp] theorem twoFactorCredentials_rows :
    twoFactorCredentials.rows s = s.twoFactorCredentials := rfl
@[simp] theorem twoFactorCredentials_put (rows : List TwoFactorCredential) :
    twoFactorCredentials.put rows s = { s with twoFactorCredentials := rows } := rfl

@[simp] theorem twoFactorBackupCodes_rows :
    twoFactorBackupCodes.rows s = s.twoFactorBackupCodes := rfl
@[simp] theorem twoFactorBackupCodes_put (rows : List TwoFactorBackupCode) :
    twoFactorBackupCodes.put rows s = { s with twoFactorBackupCodes := rows } := rfl

@[simp] theorem twoFactorChallenges_rows : twoFactorChallenges.rows s = s.twoFactorChallenges := rfl
@[simp] theorem twoFactorChallenges_put (rows : List TwoFactorChallenge) :
    twoFactorChallenges.put rows s = { s with twoFactorChallenges := rows } := rfl

end Tables

/-! ## The session table -/

/-- The constraints of the session table. -/
def SoundSessions (rows : List Session) : Prop :=
  (∀ x ∈ rows, x.valid = true) ∧ distinct sessions.collides rows = true

theorem sessions_sound (s : Store) (rows : List Session) :
    sessions.sound s rows = true ↔ SoundSessions rows := by
  simp only [Table.sound, Bool.and_eq_true, List.all_eq_true]
  rfl

/-- A live session was not replaced. -/
theorem Session.valid.last {x : Session} (h : x.valid = true) (hlive : x.revokedAt = none) :
    x.revocationReason = none ∧ x.replacedById = none := by
  simp only [Session.valid, hlive, Bool.and_eq_true] at h
  have hreason : x.revocationReason = none := by simpa using h.1.1
  exact ⟨hreason, by simpa [hreason] using h.1.2⟩

theorem Session.valid.revoke {x : Session} (h : x.valid = true) (hlive : x.revokedAt = none)
    (now : Time) (reason : SessionRevocationReason) : (x.revoke now reason).valid = true := by
  obtain ⟨-, hlast⟩ := Session.valid.last h hlive
  simp [Session.valid, Session.revoke, hlast]

/-- Revoking live sessions violates no constraint. -/
theorem SoundSessions.revoke {rows : List Session} (h : SoundSessions rows) (p : Session → Bool)
    (now : Time) (reason : SessionRevocationReason) :
    SoundSessions (updateRows (fun x => p x && x.revokedAt.isNone) (fun x => x.revoke now reason)
      rows) := by
  refine ⟨fun x hx => ?_, ?_⟩
  · rcases mem_updateRows.mp hx with ⟨hx, -⟩ | ⟨x₀, hx₀, hp, rfl⟩
    · exact h.1 x hx
    · rw [Bool.and_eq_true, Option.isNone_iff_eq_none] at hp
      exact Session.valid.revoke (h.1 x₀ hx₀) hp.2 now reason
  · have hcolumns : ∀ a b : Session, sessions.collides (a.revoke now reason) b =
        sessions.collides a b ∧ sessions.collides a (b.revoke now reason) = sessions.collides a b :=
      fun a b => ⟨rfl, rfl⟩
    rw [distinct_updateRows hcolumns]
    exact h.2

section Sessions
variable {s s' : Store} {userId id : Id} {tokenHash : String} {expiresAt now : Time}
  {context : ClientContext} {reason : SessionRevocationReason}

theorem newSession_ok {tokenFamilyId : Option Id} {session : Session}
    (h : newSession userId tokenHash tokenFamilyId expiresAt context s = .ok (session, s')) :
    session = Session.issue s.nextId userId tokenHash (tokenFamilyId.getD (s.nextId + 1)) expiresAt
        context ∧
      SoundSessions (s.sessions ++ [session]) ∧
      s' = { s with nextId := s.nextId + 2, sessions := s.sessions ++ [session] } := by
  simp [newSession] at h
  obtain ⟨hsound, rfl, rfl⟩ := h
  exact ⟨rfl, (sessions_sound _ _).mp hsound, rfl⟩

theorem revokeSessionsOf_ok (h : revokeSessionsOf userId reason now s = .ok ((), s')) :
    s' = { s with
      sessions := updateRows (fun x => x.userId == userId && x.revokedAt.isNone)
        (fun x => x.revoke now reason) s.sessions } := by
  simp [revokeSessionsOf] at h
  exact h.2

theorem signIn_ok (h : signIn userId tokenHash expiresAt now context s = .ok (id, s')) :
    id = s.nextId ∧
      SoundSessions (s.sessions ++ [Session.issue s.nextId userId tokenHash (s.nextId + 1) expiresAt
        (sessionContext context)]) ∧
      s' = { s with
        nextId := s.nextId + 2
        users := updateRows (fun u => u.id == userId) (fun u => { u with lastLoginAt := some now })
          s.users
        sessions := s.sessions ++ [Session.issue s.nextId userId tokenHash (s.nextId + 1) expiresAt
          (sessionContext context)] } := by
  simp only [signIn, Transaction.bind_ok, Transaction.pure_ok] at h
  obtain ⟨_, s₁, hu, session, s₂, hs, rfl, rfl⟩ := h
  obtain ⟨_, -, -, -, rfl⟩ := Table.update_ok.mp hu
  obtain ⟨rfl, hsound, rfl⟩ := newSession_ok hs
  exact ⟨rfl, hsound, rfl⟩

theorem createAccount_ok {email : String} {displayName : Option String}
    {passwordHash verificationHash : String} {verificationExpiresAt : Time} {r : Registration}
    (h : createAccount email displayName passwordHash verificationHash tokenHash
      verificationExpiresAt expiresAt now context s = .ok (r, s')) :
    r.user.id = s.nextId ∧ r.user.email = email ∧ r.user.emailVerifiedAt = none ∧
      r.tokenId = s.nextId + 1 ∧ r.sessionId = s.nextId + 2 ∧
      SoundSessions (s.sessions ++ [Session.issue (s.nextId + 2) s.nextId tokenHash (s.nextId + 3)
        expiresAt (sessionContext context)]) ∧
      s' = { s with
        nextId := s.nextId + 4
        users := s.users ++ [r.user]
        emailVerificationTokens := s.emailVerificationTokens ++
          [⟨s.nextId + 1, s.nextId, email, verificationHash, verificationExpiresAt, none⟩]
        sessions := s.sessions ++ [Session.issue (s.nextId + 2) s.nextId tokenHash (s.nextId + 3)
          expiresAt (sessionContext context)] } := by
  simp only [createAccount, addVerificationToken, Transaction.bind_ok, Transaction.pure_ok] at h
  obtain ⟨_, _, hid, user, s₂, hu, _, _, ⟨_, _, hid', _, s₄, ht, rfl, rfl⟩, session, s₅, hs, rfl,
    rfl⟩ := h
  obtain ⟨rfl, rfl⟩ := uuidv7_ok.mp hid
  obtain ⟨-, rfl, rfl⟩ := Table.create_ok.mp hu
  obtain ⟨rfl, rfl⟩ := uuidv7_ok.mp hid'
  obtain ⟨-, rfl, rfl⟩ := Table.create_ok.mp ht
  obtain ⟨rfl, hsound, rfl⟩ := newSession_ok hs
  exact ⟨rfl, rfl, rfl, rfl, rfl, hsound, rfl⟩

theorem rotate_ok {session : Session}
    (h : rotate session tokenHash expiresAt now context s = .ok (id, s')) :
    id = s.nextId ∧
      (s.sessions ++ [Session.issue s.nextId session.userId tokenHash session.tokenFamilyId
        expiresAt (sessionContext context)]).countP
          (fun x => x.id == session.id && x.revokedAt.isNone) = 1 ∧
      SoundSessions (updateRows (fun x => x.id == session.id && x.revokedAt.isNone)
        (fun x => x.replace now s.nextId)
        (s.sessions ++ [Session.issue s.nextId session.userId tokenHash session.tokenFamilyId
          expiresAt (sessionContext context)])) ∧
      s' = { s with
        nextId := s.nextId + 2
        sessions := updateRows (fun x => x.id == session.id && x.revokedAt.isNone)
          (fun x => x.replace now s.nextId)
          (s.sessions ++ [Session.issue s.nextId session.userId tokenHash session.tokenFamilyId
            expiresAt (sessionContext context)]) } := by
  simp only [rotate, Transaction.bind_ok, Transaction.pure_ok, Transaction.rejectIf_ok] at h
  obtain ⟨_, s₁, hn, n, s₂, hu, _, _, ⟨hc, rfl⟩, rfl, rfl⟩ := h
  obtain ⟨rfl, -, rfl⟩ := newSession_ok hn
  obtain ⟨hsound, rfl, rfl⟩ := Table.updateMany_ok.mp hu
  exact ⟨rfl, by simpa using hc, (sessions_sound _ _).mp hsound, rfl⟩

theorem revokeEverything_ok (h : revokeEverything userId now s = .ok ((), s')) :
    s' = { s with
      sessions := updateRows (fun x => x.userId == userId && x.revokedAt.isNone)
        (fun x => x.revoke now .logoutAll) s.sessions
      twoFactorChallenges := s.twoFactorChallenges.filter fun c => !(c.userId == userId) } := by
  simp only [revokeEverything, Transaction.bind_ok, Transaction.pure_ok, Table.deleteMany_ok] at h
  obtain ⟨_, s₁, hr, _, s₂, ⟨-, rfl⟩, -, rfl⟩ := h
  rw [revokeSessionsOf_ok hr]
  rfl

end Sessions

section Tokens
variable {s s' : Store} {userId id : Id} {tokenHash : String} {expiresAt now : Time}

theorem findOrCreateOAuthUser_ok {profile : OAuthProfile} {email : String} {user : User}
    (h : findOrCreateOAuthUser profile email now s = .ok (user, s')) :
    s' = s ∨ ∃ rows accounts, s' = { s with
        nextId := s.nextId + 2, users := rows, oauthAccounts := accounts } ∧
      (rows = s.users ∨ ∃ u : User, u.id = s.nextId ∧ rows = s.users ++ [u]) := by
  simp only [findOrCreateOAuthUser, Transaction.bind_ok, Transaction.reads_ok] at h
  obtain ⟨existing, _, ⟨-, rfl⟩, h⟩ := h
  cases existing with
  | some e =>
    simp only [Transaction.pure_ok] at h
    exact .inl h.2
  | none =>
    simp only [Transaction.bind_ok, Transaction.pure_ok] at h
    obtain ⟨_, _, hid, u, s₂, hup, _, _, hid', _, s₄, ha, -, rfl⟩ := h
    obtain ⟨rfl, rfl⟩ := uuidv7_ok.mp hid
    obtain ⟨rfl, rfl⟩ := uuidv7_ok.mp hid'
    obtain ⟨-, -, rfl⟩ := Table.create_ok.mp ha
    right
    rcases Table.upsert_ok.mp hup with ⟨-, -, -, rfl⟩ | ⟨_, -, -, -, rfl⟩
    · exact ⟨_, _, rfl, .inr ⟨_, rfl, rfl⟩⟩
    · exact ⟨_, _, rfl, .inl (by simp [updateRows])⟩

theorem linkOAuthAccount_ok {profile : OAuthProfile} {email : String} {user : User}
    (h : linkOAuthAccount profile email now s = .ok (user, s')) :
    ∃ user' s₁ p f, findOrCreateOAuthUser profile email now s = .ok (user', s₁) ∧
      (∀ u : User, (f u).id = u.id ∧ (f u).email = u.email ∧ (f u).passwordHash = u.passwordHash) ∧
      (∀ u, p u = true → u.id = user.id) ∧ s' = { s₁ with users := updateRows p f s₁.users } ∧
      user ∈ s'.users := by
  simp only [linkOAuthAccount, Transaction.bind_ok, Transaction.rejectIf_ok] at h
  obtain ⟨user', s₁, hm, _, s₂, ⟨-, hs⟩, hu⟩ := h
  subst s₂
  obtain ⟨u, hfind, -, rfl, rfl⟩ := Table.update_ok.mp hu
  have hmem := List.mem_of_find?_eq_some hfind
  have hid := List.find?_some hfind
  refine ⟨user', s₁, fun u => u.id == user'.id, _, hm, ?_, fun u' hu' => ?_,
    by rw [users_put, users_rows], mem_updateRows.mpr (.inr ⟨u, hmem, hid, rfl⟩)⟩
  · exact fun _ => ⟨rfl, rfl, rfl⟩
  · rw [beq_iff_eq] at hid hu'
    exact hu'.trans hid.symm

/-- The link touches the users, the accounts and the counter. -/
theorem linkOAuthAccount_frame {profile : OAuthProfile} {email : String} {user : User}
    (h : linkOAuthAccount profile email now s = .ok (user, s')) :
    ∃ nextId users accounts, s.nextId ≤ nextId ∧
      s' = { s with nextId := nextId, users := users, oauthAccounts := accounts } := by
  obtain ⟨user', s₁, p, f, hf, -, -, rfl, -⟩ := linkOAuthAccount_ok h
  rcases findOrCreateOAuthUser_ok hf with rfl | ⟨rows, accounts, rfl, -⟩
  · exact ⟨s₁.nextId, _, s₁.oauthAccounts, Nat.le_refl _, rfl⟩
  · exact ⟨s.nextId + 2, _, accounts, Nat.le_add_right _ _, rfl⟩

theorem replaceVerificationToken_ok {email : String}
    (h : replaceVerificationToken userId email tokenHash expiresAt s = .ok (id, s')) :
    id = s.nextId ∧
      s' = { s with
        nextId := s.nextId + 1
        emailVerificationTokens :=
          (s.emailVerificationTokens.filter fun t => !(t.userId == userId && t.consumedAt.isNone)) ++
            [⟨s.nextId, userId, email, tokenHash, expiresAt, none⟩] } := by
  simp only [replaceVerificationToken, addVerificationToken, Transaction.bind_ok,
    Transaction.pure_ok, Table.deleteMany_ok] at h
  obtain ⟨_, _, ⟨-, rfl⟩, _, _, hid, _, s₃, hc, rfl, rfl⟩ := h
  obtain ⟨rfl, rfl⟩ := uuidv7_ok.mp hid
  obtain ⟨-, rfl, rfl⟩ := Table.create_ok.mp hc
  exact ⟨rfl, rfl⟩

theorem verifyEmail_ok {token : EmailVerificationToken} {verifiedAt : Time}
    (h : verifyEmail token now verifiedAt s = .ok ((), s')) :
    s.emailVerificationTokens.countP (fun t => t.id == token.id && t.consumedAt.isNone) = 1 ∧
      (∃ u ∈ s.users, u.id = token.userId) ∧
      s' = { s with
        emailVerificationTokens := updateRows (fun t => t.id == token.id && t.consumedAt.isNone)
          (fun t => { t with consumedAt := some now }) s.emailVerificationTokens
        users := updateRows (fun u => u.id == token.userId)
          (fun u => { u with emailVerifiedAt := some verifiedAt }) s.users } := by
  simp only [verifyEmail, Transaction.bind_ok, Transaction.pure_ok, Transaction.rejectIf_ok] at h
  obtain ⟨n, s₁, hm, _, _, ⟨hn, rfl⟩, _, s₃, hu, -, rfl⟩ := h
  obtain ⟨-, rfl, rfl⟩ := Table.updateMany_ok.mp hm
  obtain ⟨u, hfind, -, -, rfl⟩ := Table.update_ok.mp hu
  have hid := List.find?_some hfind
  exact ⟨by simpa using hn, ⟨u, List.mem_of_find?_eq_some hfind, by simpa using hid⟩, rfl⟩

theorem replaceResetToken_ok (h : replaceResetToken userId tokenHash expiresAt s = .ok (id, s')) :
    id = s.nextId ∧
      s' = { s with
        nextId := s.nextId + 1
        passwordResetTokens :=
          (s.passwordResetTokens.filter fun t => !(t.userId == userId && t.consumedAt.isNone)) ++
            [⟨s.nextId, userId, tokenHash, expiresAt, none⟩] } := by
  simp only [replaceResetToken, Transaction.bind_ok, Transaction.pure_ok, Table.deleteMany_ok] at h
  obtain ⟨_, _, ⟨-, rfl⟩, _, _, hid, _, s₃, hc, rfl, rfl⟩ := h
  obtain ⟨rfl, rfl⟩ := uuidv7_ok.mp hid
  obtain ⟨-, rfl, rfl⟩ := Table.create_ok.mp hc
  exact ⟨rfl, rfl⟩

theorem writeNotification_frame {input : WriteNotificationInput}
    (h : writeNotification now input s = .ok ((), s')) :
    ∃ nextId rows, s.nextId ≤ nextId ∧ s' = { s with nextId := nextId, notifications := rows } := by
  rcases writeNotification_ok h with rfl | ⟨rows, rfl⟩
  · exact ⟨s'.nextId, s'.notifications, Nat.le_refl _, rfl⟩
  · exact ⟨s.nextId + 1, rows, Nat.le_succ _, rfl⟩

theorem changePassword_ok {token : PasswordResetToken} {passwordHash : String}
    (h : changePassword token passwordHash now s = .ok ((), s')) :
    s.passwordResetTokens.countP (fun t => t.id == token.id && t.consumedAt.isNone) = 1 ∧
      (∃ u ∈ s.users, u.id = token.userId) ∧
      ∃ nextId rows, s.nextId ≤ nextId ∧
        s' = { s with
          nextId := nextId
          notifications := rows
          passwordResetTokens :=
            (updateRows (fun t => t.id == token.id && t.consumedAt.isNone)
              (fun t => { t with consumedAt := some now }) s.passwordResetTokens).filter
              fun t => !(t.userId == token.userId && t.id != token.id)
          users := updateRows (fun u => u.id == token.userId)
            (fun u => { u with passwordHash := some passwordHash }) s.users
          sessions := updateRows (fun x => x.userId == token.userId && x.revokedAt.isNone)
            (fun x => x.revoke now .logoutAll) s.sessions
          twoFactorChallenges :=
            s.twoFactorChallenges.filter fun c => !(c.userId == token.userId) } := by
  simp only [changePassword, Transaction.bind_ok, Transaction.rejectIf_ok,
    Table.deleteMany_ok] at h
  obtain ⟨n, s₁, hm, _, _, ⟨hn, rfl⟩, _, s₃, hu, _, _, ⟨-, rfl⟩, _, s₄, hr, _, _, ⟨-, rfl⟩, hw⟩ := h
  obtain ⟨-, rfl, rfl⟩ := Table.updateMany_ok.mp hm
  obtain ⟨u, hfind, -, -, rfl⟩ := Table.update_ok.mp hu
  have hid := List.find?_some hfind
  rw [revokeSessionsOf_ok hr] at hw
  obtain ⟨nextId, rows, hle, rfl⟩ := writeNotification_frame hw
  exact ⟨by simpa using hn, ⟨u, List.mem_of_find?_eq_some hfind, by simpa using hid⟩, nextId, rows,
    hle, rfl⟩

end Tokens

section TwoFactor
variable {s s' : Store} {userId id : Id} {now expiresAt : Time} {credential : TwoFactorCredential}
  {proof : SecondFactorProof} {codeHashes : List String} {timeStep : Nat} {tokenHash : String}

theorem upsertCredential_ok {secret : EncryptedTwoFactorSecret}
    (h : upsertCredential userId secret s = .ok ((), s')) :
    ∃ rows p, s' = { s with
        nextId := s.nextId + 1
        twoFactorCredentials := rows
        twoFactorBackupCodes := s.twoFactorBackupCodes.filter p } ∧
      (∀ code, p code = false →
        ∃ c ∈ s.twoFactorCredentials, c.userId = userId ∧ c.id = code.credentialId) ∧
      (((∀ c ∈ s.twoFactorCredentials, c.userId ≠ userId) ∧
          rows = s.twoFactorCredentials ++ [⟨s.nextId, userId, secret, none, none⟩]) ∨
        rows = updateRows (fun c => c.userId == userId)
          (fun c => { c with secret := secret, enabledAt := none, lastUsedTimeStep := none })
          s.twoFactorCredentials) := by
  simp only [upsertCredential, Transaction.bind_ok, Transaction.pure_ok, Table.findFirst_ok,
    Table.deleteMany_ok] at h
  obtain ⟨existing, s₁, ⟨hexisting, hs⟩, _, _, hid, _, s₂, hup, _, _, ⟨-, rfl⟩, -, rfl⟩ := h
  subst s₁
  obtain ⟨rfl, rfl⟩ := uuidv7_ok.mp hid
  -- the codes that are deleted are those of the credential that is replaced
  have hcodes : ∀ code : TwoFactorBackupCode,
      (!existing.any fun e => code.credentialId == e.id) = false →
      ∃ c ∈ s.twoFactorCredentials, c.userId = userId ∧ c.id = code.credentialId := by
    intro code hcode
    simp only [Bool.not_eq_eq_eq_not, Bool.not_false, Option.any_eq_true, beq_iff_eq] at hcode
    obtain ⟨c, hc, hid⟩ := hcode
    rw [hc] at hexisting
    have huser := List.find?_some hexisting.symm
    exact ⟨c, List.mem_of_find?_eq_some hexisting.symm, by simpa using huser, hid.symm⟩
  rcases Table.upsert_ok.mp hup with ⟨hnone, -, -, rfl⟩ | ⟨_, -, -, -, rfl⟩
  · refine ⟨_, _, rfl, hcodes, .inl ⟨fun c hc => ?_, rfl⟩⟩
    have hother := List.find?_eq_none.mp hnone c hc
    simpa using hother
  · exact ⟨_, _, rfl, hcodes, .inr rfl⟩

/-- The rows that `newBackupCodes` prepares. -/
def backupCodeRows (credentialId : Id) : Id → List String → List TwoFactorBackupCode
  | _, [] => []
  | id, codeHash :: codeHashes =>
    ⟨id, credentialId, codeHash, none⟩ :: backupCodeRows credentialId (id + 1) codeHashes

theorem mem_backupCodeRows {credentialId first : Id} {c : TwoFactorBackupCode}
    (h : c ∈ backupCodeRows credentialId first codeHashes) :
    first ≤ c.id ∧ c.id < first + codeHashes.length ∧ c.credentialId = credentialId ∧
      c.consumedAt = none := by
  induction codeHashes generalizing first with
  | nil => simp [backupCodeRows] at h
  | cons codeHash codeHashes ih =>
    rw [backupCodeRows, List.mem_cons] at h
    rcases h with rfl | h
    · simp
    · obtain ⟨hle, hlt, hc⟩ := ih h
      exact ⟨by lia, by rw [List.length_cons]; lia, hc⟩

theorem backupCodeRows_nodup (credentialId first : Id) (codeHashes : List String) :
    ((backupCodeRows credentialId first codeHashes).map TwoFactorBackupCode.id).Nodup := by
  induction codeHashes generalizing first with
  | nil => simp [backupCodeRows]
  | cons codeHash codeHashes ih =>
    rw [backupCodeRows, List.map_cons, List.nodup_cons]
    refine ⟨fun hmem => ?_, ih (first + 1)⟩
    obtain ⟨c, hc, hid⟩ := List.mem_map.mp hmem
    have hle := (mem_backupCodeRows hc).1
    simp only at hid
    lia

theorem newBackupCodes_ok {credentialId : Id} {codes : List TwoFactorBackupCode}
    (h : newBackupCodes credentialId codeHashes s = .ok (codes, s')) :
    codes = backupCodeRows credentialId s.nextId codeHashes ∧
      s' = { s with nextId := s.nextId + codeHashes.length } := by
  induction codeHashes generalizing s codes with
  | nil =>
    obtain ⟨rfl, rfl⟩ := (Transaction.pure_ok _ _ _ _).mp h
    exact ⟨rfl, rfl⟩
  | cons codeHash codeHashes ih =>
    simp only [newBackupCodes, Transaction.bind_ok, Transaction.pure_ok] at h
    obtain ⟨_, _, hid, codes', s₂, hc, rfl, rfl⟩ := h
    obtain ⟨rfl, rfl⟩ := uuidv7_ok.mp hid
    obtain ⟨rfl, rfl⟩ := ih hc
    refine ⟨rfl, ?_⟩
    simp only [takeId_eq, List.length_cons, Store.mk.injEq, and_self, and_true]
    lia

theorem replaceBackupCodes_ok {credentialId : Id}
    (h : replaceBackupCodes credentialId codeHashes s = .ok ((), s')) :
    s' = { s with
      nextId := s.nextId + codeHashes.length
      twoFactorBackupCodes :=
        (s.twoFactorBackupCodes.filter fun c => !(c.credentialId == credentialId)) ++
          backupCodeRows credentialId s.nextId codeHashes } := by
  simp only [replaceBackupCodes, Transaction.bind_ok, Transaction.pure_ok,
    Table.deleteMany_ok] at h
  obtain ⟨_, _, ⟨-, rfl⟩, _, s₂, hn, _, s₃, hc, -, rfl⟩ := h
  obtain ⟨rfl, rfl⟩ := newBackupCodes_ok hn
  obtain ⟨-, -, rfl⟩ := Table.createMany_ok.mp hc
  rfl

theorem enableCredential_ok
    (h : enableCredential credential userId timeStep codeHashes now s = .ok ((), s')) :
    s.twoFactorCredentials.countP (fun c => c.id == credential.id && c.enabledAt.isNone) = 1 ∧
      s' = { s with
        nextId := s.nextId + codeHashes.length
        twoFactorCredentials := updateRows (fun c => c.id == credential.id && c.enabledAt.isNone)
          (fun c => { c with enabledAt := some now, lastUsedTimeStep := some timeStep })
          s.twoFactorCredentials
        twoFactorBackupCodes :=
          (s.twoFactorBackupCodes.filter fun c => !(c.credentialId == credential.id)) ++
            backupCodeRows credential.id s.nextId codeHashes
        sessions := updateRows (fun x => x.userId == userId && x.revokedAt.isNone)
          (fun x => x.revoke now .administrative) s.sessions } := by
  simp only [enableCredential, Transaction.bind_ok, Transaction.rejectIf_ok] at h
  obtain ⟨n, s₁, hm, _, _, ⟨hn, rfl⟩, _, s₂, hb, hr⟩ := h
  obtain ⟨-, rfl, rfl⟩ := Table.updateMany_ok.mp hm
  rw [replaceBackupCodes_ok hb] at hr
  rw [revokeSessionsOf_ok hr]
  exact ⟨by simpa using hn, rfl⟩

/-- The rows a spent second factor leaves. -/
def Store.spend (s : Store) (credential : TwoFactorCredential) (proof : SecondFactorProof)
    (now : Time) : Store :=
  match proof with
  | .totp timeStep =>
    { s with
      twoFactorCredentials := updateRows
        (fun c => c.id == credential.id && c.enabledAt.isSome &&
          (c.lastUsedTimeStep.all fun last => decide (last < timeStep)))
        (fun c => { c with lastUsedTimeStep := some timeStep }) s.twoFactorCredentials }
  | .backupCode backupCodeId =>
    { s with
      twoFactorBackupCodes := updateRows
        (fun c => c.id == backupCodeId && c.credentialId == credential.id && c.consumedAt.isNone)
        (fun c => { c with consumedAt := some now }) s.twoFactorBackupCodes }

/-- How many rows the claim of a second factor selects. -/
def Store.unspent (s : Store) (credential : TwoFactorCredential) (proof : SecondFactorProof) : Nat :=
  match proof with
  | .totp timeStep => s.twoFactorCredentials.countP fun c =>
      c.id == credential.id && c.enabledAt.isSome &&
        (c.lastUsedTimeStep.all fun last => decide (last < timeStep))
  | .backupCode backupCodeId => s.twoFactorBackupCodes.countP fun c =>
      c.id == backupCodeId && c.credentialId == credential.id && c.consumedAt.isNone

theorem claimSecondFactor_ok (h : claimSecondFactor credential proof now s = .ok ((), s')) :
    s.unspent credential proof = 1 ∧ s' = s.spend credential proof now := by
  cases proof with
  | totp timeStep =>
    simp only [claimSecondFactor, Transaction.bind_ok, Transaction.rejectIf_ok] at h
    obtain ⟨n, s₁, hm, hn, rfl⟩ := h
    obtain ⟨-, rfl, rfl⟩ := Table.updateMany_ok.mp hm
    exact ⟨by simpa [Store.unspent] using hn, rfl⟩
  | backupCode backupCodeId =>
    simp only [claimSecondFactor, Transaction.bind_ok, Transaction.rejectIf_ok] at h
    obtain ⟨n, s₁, hm, hn, rfl⟩ := h
    obtain ⟨-, rfl, rfl⟩ := Table.updateMany_ok.mp hm
    exact ⟨by simpa [Store.unspent] using hn, rfl⟩

theorem regenerate_ok (h : regenerate credential proof codeHashes now s = .ok ((), s')) :
    s.unspent credential proof = 1 ∧
      s' = { s.spend credential proof now with
        nextId := (s.spend credential proof now).nextId + codeHashes.length
        twoFactorBackupCodes := ((s.spend credential proof now).twoFactorBackupCodes.filter
            fun c => !(c.credentialId == credential.id)) ++
          backupCodeRows credential.id (s.spend credential proof now).nextId codeHashes } := by
  simp only [regenerate, Transaction.bind_ok] at h
  obtain ⟨_, s₁, hc, hb⟩ := h
  obtain ⟨hn, rfl⟩ := claimSecondFactor_ok hc
  exact ⟨hn, replaceBackupCodes_ok hb⟩

theorem disableCredential_ok (h : disableCredential credential userId proof now s = .ok ((), s')) :
    s.unspent credential proof = 1 ∧
      s' = { s.spend credential proof now with
        twoFactorChallenges := (s.spend credential proof now).twoFactorChallenges.filter
          fun c => !(c.userId == userId)
        twoFactorCredentials := (s.spend credential proof now).twoFactorCredentials.filter
          fun c => !(c.id == credential.id)
        twoFactorBackupCodes := (s.spend credential proof now).twoFactorBackupCodes.filter
          fun c => !(c.credentialId == credential.id)
        sessions := updateRows (fun x => x.userId == userId && x.revokedAt.isNone)
          (fun x => x.revoke now .logoutAll) (s.spend credential proof now).sessions } := by
  simp only [disableCredential, Transaction.bind_ok, Table.deleteMany_ok, Table.delete_ok] at h
  obtain ⟨_, s₁, hc, _, _, ⟨-, rfl⟩, _, _, ⟨-, rfl⟩, _, _, ⟨-, rfl⟩, hr⟩ := h
  obtain ⟨hn, rfl⟩ := claimSecondFactor_ok hc
  rw [revokeSessionsOf_ok hr]
  exact ⟨hn, rfl⟩

theorem addChallenge_ok {context : ClientContext}
    (h : addChallenge userId tokenHash expiresAt now context s = .ok (id, s')) :
    id = s.nextId ∧
      s' = { s with
        nextId := s.nextId + 1
        twoFactorChallenges := (s.twoFactorChallenges.filter fun c =>
            !(c.userId == userId && (c.expiresAt ≤ now || c.consumedAt.isSome))) ++
          [⟨s.nextId, userId, tokenHash, .login, expiresAt, none, sessionContext context⟩] } := by
  simp only [addChallenge, Transaction.bind_ok, Transaction.pure_ok, Table.deleteMany_ok] at h
  obtain ⟨_, _, ⟨-, rfl⟩, _, _, hid, _, s₃, hc, rfl, rfl⟩ := h
  obtain ⟨rfl, rfl⟩ := uuidv7_ok.mp hid
  obtain ⟨-, rfl, rfl⟩ := Table.create_ok.mp hc
  exact ⟨rfl, rfl⟩

theorem consumeChallenge_ok {challenge : TwoFactorChallenge}
    (h : consumeChallenge challenge credential proof tokenHash expiresAt now s = .ok (id, s')) :
    s.twoFactorChallenges.countP (fun c => c.id == challenge.id && c.consumedAt.isNone &&
        decide (now < c.expiresAt)) = 1 ∧
      s.unspent credential proof = 1 ∧ id = s.nextId ∧
      SoundSessions (s.sessions ++ [Session.issue s.nextId challenge.userId tokenHash
        (s.nextId + 1) expiresAt challenge.context]) ∧
      s' = { s with
        nextId := s.nextId + 2
        twoFactorCredentials := (s.spend credential proof now).twoFactorCredentials
        twoFactorBackupCodes := (s.spend credential proof now).twoFactorBackupCodes
        twoFactorChallenges := updateRows (fun c => c.id == challenge.id && c.consumedAt.isNone &&
            decide (now < c.expiresAt))
          (fun c => { c with consumedAt := some now }) s.twoFactorChallenges
        users := updateRows (fun u => u.id == challenge.userId)
          (fun u => { u with lastLoginAt := some now }) s.users
        sessions := s.sessions ++ [Session.issue s.nextId challenge.userId tokenHash (s.nextId + 1)
          expiresAt challenge.context] } := by
  simp only [consumeChallenge, Transaction.bind_ok, Transaction.pure_ok,
    Transaction.rejectIf_ok] at h
  obtain ⟨n, s₁, hm, _, _, ⟨hn, rfl⟩, _, s₂, hc, _, s₃, hu, session, s₄, hs, rfl, rfl⟩ := h
  obtain ⟨-, rfl, rfl⟩ := Table.updateMany_ok.mp hm
  obtain ⟨hp, rfl⟩ := claimSecondFactor_ok hc
  obtain ⟨_, -, -, -, rfl⟩ := Table.update_ok.mp hu
  obtain ⟨rfl, hsound, rfl⟩ := newSession_ok hs
  refine ⟨by simpa using hn, ?_⟩
  cases proof with
  | totp timeStep => exact ⟨hp, rfl, hsound, rfl⟩
  | backupCode backupCodeId => exact ⟨hp, rfl, hsound, rfl⟩

end TwoFactor
end ShipFlow.Auth
