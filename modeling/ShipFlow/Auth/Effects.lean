import ShipFlow.Auth.Transactions

/-! Everything one atomic action of an identity request can do. A request acts
on rows it read earlier; what is left of that knowledge when it commits is part
of the effect. -/

namespace ShipFlow.Auth
open Interleaving Relational

/-- A session row with these columns, which no request changes, is stored. -/
def Session.Known (x : Session) (s : Store) : Prop :=
  ∃ y ∈ s.sessions, y.id = x.id ∧ y.userId = x.userId ∧ y.tokenFamilyId = x.tokenFamilyId

/-- The credential may be gone by now; its identifier still belongs to its user. -/
def TwoFactorCredential.Known (x : TwoFactorCredential) (s : Store) : Prop :=
  x.id < s.nextId ∧ ∀ c ∈ s.twoFactorCredentials, c.id = x.id → c.userId = x.userId

/-- The token belongs to its user, also after its row is gone. -/
def EmailVerificationToken.Known (x : EmailVerificationToken) (s : Store) : Prop :=
  Fixed s.nextId EmailVerificationToken.id EmailVerificationToken.userId x.id x.userId
    s.emailVerificationTokens

def PasswordResetToken.Known (x : PasswordResetToken) (s : Store) : Prop :=
  Fixed s.nextId PasswordResetToken.id PasswordResetToken.userId x.id x.userId
    s.passwordResetTokens

def TwoFactorChallenge.Known (x : TwoFactorChallenge) (s : Store) : Prop :=
  Fixed s.nextId TwoFactorChallenge.id TwoFactorChallenge.userId x.id x.userId
    s.twoFactorChallenges

/-- What happened after `confirmSetup` had read this credential. -/
def sinceSetupFound (pid : Nat) (credentialId : Id) (t : List (Nat × Event)) :
    List (Nat × Event) :=
  since (fun e => e == (pid, .setupFound credentialId)) t

/-- The secret that `confirmSetup` read is stored as long as no setup begins. -/
def TwoFactorCredential.Unreplaced (x : TwoFactorCredential) (pid : Nat) (w : World) : Prop :=
  (pid, .setupFound x.id) ∈ w.trace ∧
    ((∃ q, (q, .setupBegun x.userId) ∈ sinceSetupFound pid x.id w.trace) ∨
      ∀ c ∈ w.store.twoFactorCredentials, c.id = x.id → c.secret = x.secret)

inductive Effect (env : Environment) (pid : Nat) (w : World) : World → Prop where
  | idle : Effect env pid w w
  | loginFound (userId : Id) : Effect env pid w (w.advance pid (w.store, [.loginFound userId]))
  | passwordVerified (userId : Id) (passwordHash : String) :
    Effect env pid w (w.advance pid (w.store, [.passwordVerified userId passwordHash]))
  | rotatedTokenPresented (session : Session) (hmem : session ∈ w.store.sessions)
      (hrotated : session.rotated = true) :
    Effect env pid w (w.advance pid
      (w.store, [.rotatedTokenPresented session.id session.tokenFamilyId]))
  | rotationLost (session : Session) (hknown : session.Known w.store) :
    Effect env pid w (w.advance pid (w.store, [.rotationLost session.id session.tokenFamilyId]))
  | accountCreated (user : User) (verificationHash : String) (verificationExpiresAt : Time)
      (tokenHash : String) (expiresAt : Time) (context : ClientContext)
      (huser : user.id = w.store.nextId) (hunverified : user.emailVerifiedAt = none)
      (hsound : SoundSessions (w.store.sessions ++ [Session.issue (w.store.nextId + 2)
        w.store.nextId tokenHash (w.store.nextId + 3) expiresAt context])) :
    Effect env pid w (w.advance pid
      ({ w.store with
          nextId := w.store.nextId + 4
          users := w.store.users ++ [user]
          emailVerificationTokens := w.store.emailVerificationTokens ++
            [⟨w.store.nextId + 1, w.store.nextId, user.email, verificationHash,
              verificationExpiresAt, none⟩]
          sessions := w.store.sessions ++ [Session.issue (w.store.nextId + 2) w.store.nextId
            tokenHash (w.store.nextId + 3) expiresAt context] },
        [.emailVerificationIssued w.store.nextId (w.store.nextId + 1),
          .sessionCreated w.store.nextId (w.store.nextId + 2) .registration]))
  | oauthLinked (profile : OAuthProfile) (email : String) (now : Time) (user : User)
      (nextId : Id) (users : List User) (accounts : List OAuthAccount)
      (hnext : w.store.nextId ≤ nextId)
      (h : linkOAuthAccount profile email now w.store = .ok (user,
        { w.store with nextId := nextId, users := users, oauthAccounts := accounts })) :
    Effect env pid w (w.advance pid
      ({ w.store with nextId := nextId, users := users, oauthAccounts := accounts },
        [.oauthVerified user.id]))
  | signedIn (userId : Id) (tokenHash : String) (expiresAt now : Time) (context : ClientContext)
      (hsound : SoundSessions (w.store.sessions ++ [Session.issue w.store.nextId userId tokenHash
        (w.store.nextId + 1) expiresAt context])) :
    Effect env pid w (w.advance pid
      ({ w.store with
          nextId := w.store.nextId + 2
          users := updateRows (fun u => u.id == userId)
            (fun u => { u with lastLoginAt := some now }) w.store.users
          sessions := w.store.sessions ++ [Session.issue w.store.nextId userId tokenHash
            (w.store.nextId + 1) expiresAt context] },
        [.sessionCreated userId w.store.nextId .firstFactor]))
  | rotated (session : Session) (tokenHash : String) (expiresAt now : Time)
      (context : ClientContext) (hknown : session.Known w.store)
      (hlive : (w.store.sessions ++ [Session.issue w.store.nextId session.userId tokenHash
          session.tokenFamilyId expiresAt context]).countP
        (fun x => x.id == session.id && x.revokedAt.isNone) = 1)
      (hsound : SoundSessions (updateRows (fun x => x.id == session.id && x.revokedAt.isNone)
        (fun x => x.replace now w.store.nextId)
        (w.store.sessions ++ [Session.issue w.store.nextId session.userId tokenHash
          session.tokenFamilyId expiresAt context]))) :
    Effect env pid w (w.advance pid
      ({ w.store with
          nextId := w.store.nextId + 2
          sessions := updateRows (fun x => x.id == session.id && x.revokedAt.isNone)
            (fun x => x.replace now w.store.nextId)
            (w.store.sessions ++ [Session.issue w.store.nextId session.userId tokenHash
              session.tokenFamilyId expiresAt context]) },
        [.sessionCreated session.userId w.store.nextId (.rotation session.id)]))
  | sessionsRevoked (p : Session → Bool) (now : Time) (reason : SessionRevocationReason)
      (hreason : reason ≠ .rotated) :
    Effect env pid w (w.advance pid
      ({ w.store with
          sessions := updateRows (fun x => p x && x.revokedAt.isNone)
            (fun x => x.revoke now reason) w.store.sessions }, []))
  | loggedOut (tokenHash : String) (now : Time) :
    Effect env pid w (w.advance pid
      ({ w.store with
          sessions := updateRows (fun x => x.tokenHash == tokenHash && x.revokedAt.isNone)
            (fun x => x.revoke now .logout) w.store.sessions }, [.loggedOut tokenHash]))
  | everythingRevoked (userId : Id) (now : Time) :
    Effect env pid w (w.advance pid
      ({ w.store with
          sessions := updateRows (fun x => x.userId == userId && x.revokedAt.isNone)
            (fun x => x.revoke now .logoutAll) w.store.sessions
          twoFactorChallenges :=
            w.store.twoFactorChallenges.filter fun c => !(c.userId == userId) }, []))
  | profileUpdated (userId : Id) (displayName : String) :
    Effect env pid w (w.advance pid
      ({ w.store with
          users := updateRows (fun u => u.id == userId)
            (fun u => { u with displayName := some displayName }) w.store.users }, []))
  | verificationTokenReplaced (userId : Id) (email tokenHash : String) (expiresAt : Time)
      (huser : userId < w.store.nextId) :
    Effect env pid w (w.advance pid
      ({ w.store with
          nextId := w.store.nextId + 1
          emailVerificationTokens := (w.store.emailVerificationTokens.filter
              fun t => !(t.userId == userId && t.consumedAt.isNone)) ++
            [⟨w.store.nextId, userId, email, tokenHash, expiresAt, none⟩] },
        [.emailVerificationIssued userId w.store.nextId]))
  | emailVerified (token : EmailVerificationToken) (now verifiedAt : Time)
      (hknown : token.Known w.store)
      (hlive : w.store.emailVerificationTokens.countP
        (fun t => t.id == token.id && t.consumedAt.isNone) = 1)
      (hpresent : ∃ u ∈ w.store.users, u.id = token.userId) :
    Effect env pid w (w.advance pid
      ({ w.store with
          emailVerificationTokens := updateRows (fun t => t.id == token.id && t.consumedAt.isNone)
            (fun t => { t with consumedAt := some now }) w.store.emailVerificationTokens
          users := updateRows (fun u => u.id == token.userId)
            (fun u => { u with emailVerifiedAt := some verifiedAt }) w.store.users },
        [.emailVerified token.userId token.id]))
  | resetTokenReplaced (userId : Id) (tokenHash : String) (expiresAt : Time)
      (huser : userId < w.store.nextId) :
    Effect env pid w (w.advance pid
      ({ w.store with
          nextId := w.store.nextId + 1
          passwordResetTokens := (w.store.passwordResetTokens.filter
              fun t => !(t.userId == userId && t.consumedAt.isNone)) ++
            [⟨w.store.nextId, userId, tokenHash, expiresAt, none⟩] },
        [.passwordResetIssued userId w.store.nextId]))
  | passwordChanged (token : PasswordResetToken) (passwordHash : String) (now : Time)
      (nextId : Id) (notifications : List Notification) (hnext : w.store.nextId ≤ nextId)
      (hknown : token.Known w.store)
      (hlive : w.store.passwordResetTokens.countP
        (fun t => t.id == token.id && t.consumedAt.isNone) = 1)
      (hpresent : ∃ u ∈ w.store.users, u.id = token.userId) :
    Effect env pid w (w.advance pid
      ({ w.store with
          nextId := nextId
          notifications := notifications
          passwordResetTokens :=
            (updateRows (fun t => t.id == token.id && t.consumedAt.isNone)
              (fun t => { t with consumedAt := some now }) w.store.passwordResetTokens).filter
              fun t => !(t.userId == token.userId && t.id != token.id)
          users := updateRows (fun u => u.id == token.userId)
            (fun u => { u with passwordHash := some passwordHash }) w.store.users
          sessions := updateRows (fun x => x.userId == token.userId && x.revokedAt.isNone)
            (fun x => x.revoke now .logoutAll) w.store.sessions
          twoFactorChallenges :=
            w.store.twoFactorChallenges.filter fun c => !(c.userId == token.userId) },
        [.passwordReset token.userId token.id passwordHash]))
  | setupBegun (userId : Id) (secret : EncryptedTwoFactorSecret) (rows : List TwoFactorCredential)
      (p : TwoFactorBackupCode → Bool) (huser : userId < w.store.nextId)
      (hcodes : ∀ code, p code = false →
        ∃ c ∈ w.store.twoFactorCredentials, c.userId = userId ∧ c.id = code.credentialId)
      (hrows : ((∀ c ∈ w.store.twoFactorCredentials, c.userId ≠ userId) ∧
          rows = w.store.twoFactorCredentials ++
            [⟨w.store.nextId, userId, secret, none, none⟩]) ∨
        rows = updateRows (fun c => c.userId == userId)
          (fun c => { c with secret := secret, enabledAt := none, lastUsedTimeStep := none })
          w.store.twoFactorCredentials) :
    Effect env pid w (w.advance pid
      ({ w.store with
          nextId := w.store.nextId + 1
          twoFactorCredentials := rows
          twoFactorBackupCodes := w.store.twoFactorBackupCodes.filter p },
        [.setupBegun userId]))
  | setupFound (credentialId : Id) :
    Effect env pid w (w.advance pid (w.store, [.setupFound credentialId]))
  | twoFactorEnabled (credential : TwoFactorCredential) (secret : String) (timeStep : Nat)
      (codeHashes : List String) (now : Time) (hknown : credential.Known w.store)
      (hsecret : env.decryptSecret credential.secret credential.userId = some secret)
      (hunreplaced : credential.Unreplaced pid w)
      (hpending : w.store.twoFactorCredentials.countP
        (fun c => c.id == credential.id && c.enabledAt.isNone) = 1) :
    Effect env pid w (w.advance pid
      ({ w.store with
          nextId := w.store.nextId + codeHashes.length
          twoFactorCredentials := updateRows (fun c => c.id == credential.id && c.enabledAt.isNone)
            (fun c => { c with enabledAt := some now, lastUsedTimeStep := some timeStep })
            w.store.twoFactorCredentials
          twoFactorBackupCodes := (w.store.twoFactorBackupCodes.filter
              fun c => !(c.credentialId == credential.id)) ++
            backupCodeRows credential.id w.store.nextId codeHashes
          sessions := updateRows (fun x => x.userId == credential.userId && x.revokedAt.isNone)
            (fun x => x.revoke now .administrative) w.store.sessions },
        [.setupVerified credential.id secret timeStep,
          .twoFactorEnabled credential.userId credential.id timeStep]))
  | backupCodesRegenerated (credential : TwoFactorCredential) (proof : SecondFactorProof)
      (codeHashes : List String) (now : Time) (hspent : w.store.unspent credential proof = 1) :
    Effect env pid w (w.advance pid
      ({ w.store with
          nextId := w.store.nextId + codeHashes.length
          twoFactorCredentials := (w.store.spend credential proof now).twoFactorCredentials
          twoFactorBackupCodes := ((w.store.spend credential proof now).twoFactorBackupCodes.filter
              fun c => !(c.credentialId == credential.id)) ++
            backupCodeRows credential.id w.store.nextId codeHashes },
        [.secondFactorAccepted credential.id proof, .backupCodesRegenerated credential.id]))
  | twoFactorDisabled (credential : TwoFactorCredential) (proof : SecondFactorProof) (now : Time)
      (hknown : credential.Known w.store) (hspent : w.store.unspent credential proof = 1) :
    Effect env pid w (w.advance pid
      ({ w.store with
          twoFactorChallenges :=
            w.store.twoFactorChallenges.filter fun c => !(c.userId == credential.userId)
          twoFactorCredentials := (w.store.spend credential proof now).twoFactorCredentials.filter
            fun c => !(c.id == credential.id)
          twoFactorBackupCodes := (w.store.spend credential proof now).twoFactorBackupCodes.filter
            fun c => !(c.credentialId == credential.id)
          sessions := updateRows (fun x => x.userId == credential.userId && x.revokedAt.isNone)
            (fun x => x.revoke now .logoutAll) w.store.sessions },
        [.secondFactorAccepted credential.id proof,
          .twoFactorDisabled credential.userId credential.id]))
  | challengeCreated (userId : Id) (tokenHash : String) (expiresAt now : Time)
      (context : ClientContext) :
    Effect env pid w (w.advance pid
      ({ w.store with
          nextId := w.store.nextId + 1
          twoFactorChallenges := (w.store.twoFactorChallenges.filter fun c =>
              !(c.userId == userId && (c.expiresAt ≤ now || c.consumedAt.isSome))) ++
            [⟨w.store.nextId, userId, tokenHash, .login, expiresAt, none, context⟩] },
        [.challengeCreated userId w.store.nextId]))
  | challengeConsumed (challenge : TwoFactorChallenge) (credential : TwoFactorCredential)
      (proof : SecondFactorProof) (tokenHash : String) (expiresAt now : Time)
      (hknown : challenge.Known w.store)
      (hlive : w.store.twoFactorChallenges.countP (fun c => c.id == challenge.id &&
        c.consumedAt.isNone && decide (now < c.expiresAt)) = 1)
      (hspent : w.store.unspent credential proof = 1)
      (hsound : SoundSessions (w.store.sessions ++ [Session.issue w.store.nextId challenge.userId
        tokenHash (w.store.nextId + 1) expiresAt challenge.context])) :
    Effect env pid w (w.advance pid
      ({ w.store with
          nextId := w.store.nextId + 2
          twoFactorCredentials := (w.store.spend credential proof now).twoFactorCredentials
          twoFactorBackupCodes := (w.store.spend credential proof now).twoFactorBackupCodes
          twoFactorChallenges := updateRows (fun c => c.id == challenge.id &&
              c.consumedAt.isNone && decide (now < c.expiresAt))
            (fun c => { c with consumedAt := some now }) w.store.twoFactorChallenges
          users := updateRows (fun u => u.id == challenge.userId)
            (fun u => { u with lastLoginAt := some now }) w.store.users
          sessions := w.store.sessions ++ [Session.issue w.store.nextId challenge.userId tokenHash
            (w.store.nextId + 1) expiresAt challenge.context] },
        [.secondFactorAccepted credential.id proof,
          .sessionCreated challenge.userId w.store.nextId (.challenge challenge.id)]))

variable {env : Environment}

theorem Effect.trace {pid : Nat} {w w' : World} (h : Effect env pid w w') :
    ∃ es : List Event, w'.trace = w.trace ++ es.map fun e => (pid, e) := by
  cases h with
  | idle => exact ⟨[], by simp⟩
  | _ => exact ⟨_, rfl⟩

/-! ## Keys -/

/-- Every primary key is unique and `uuidv7()` is ahead of all of them; the session
table satisfies its constraints. -/
structure Numbered (s : Store) : Prop where
  users : Keyed s.nextId User.id s.users
  sessions : Keyed s.nextId Session.id s.sessions
  sound : SoundSessions s.sessions
  families : Below s.nextId Session.tokenFamilyId s.sessions
  verificationTokens : Keyed s.nextId EmailVerificationToken.id s.emailVerificationTokens
  resetTokens : Keyed s.nextId PasswordResetToken.id s.passwordResetTokens
  credentials : Keyed s.nextId TwoFactorCredential.id s.twoFactorCredentials
  credentialUsers : Below s.nextId TwoFactorCredential.userId s.twoFactorCredentials
  backupCodes : Keyed s.nextId TwoFactorBackupCode.id s.twoFactorBackupCodes
  challenges : Keyed s.nextId TwoFactorChallenge.id s.twoFactorChallenges

theorem numbered_empty : Numbered Store.empty := by
  constructor <;> simp [Store.empty, Keyed, Below, SoundSessions, distinct]

namespace Numbered
variable {s : Store}

theorem later (h : Numbered s) (nextId : Id) (hle : s.nextId ≤ nextId) :
    Numbered { s with nextId := nextId } :=
  ⟨h.users.mono hle, h.sessions.mono hle, h.sound, h.families.mono hle,
    h.verificationTokens.mono hle, h.resetTokens.mono hle, h.credentials.mono hle, h.credentialUsers.mono hle,
    h.backupCodes.mono hle, h.challenges.mono hle⟩

theorem spend (h : Numbered s) (credential : TwoFactorCredential) (proof : SecondFactorProof)
    (now : Time) : Numbered (s.spend credential proof now) := by
  cases proof with
  | totp timeStep =>
    exact { h with
      credentials := h.credentials.updateRows fun _ => rfl
      credentialUsers := h.credentialUsers.updateRows fun _ => rfl }
  | backupCode backupCodeId =>
    exact { h with backupCodes := h.backupCodes.updateRows fun _ => rfl }

/-- A new session takes two identifiers, and its family may be an old one. -/
theorem openSession (h : Numbered s) {x : Session} (hid : x.id = s.nextId)
    (hfamily : x.tokenFamilyId < s.nextId + 2) (hsound : SoundSessions (s.sessions ++ [x])) :
    Numbered { s with nextId := s.nextId + 2, sessions := s.sessions ++ [x] } :=
  { h.later (s.nextId + 2) (by lia) with
    sessions := h.sessions.concat (Nat.le_of_eq hid.symm) (by simp [hid])
    sound := hsound
    families := h.families.concat (by simp) hfamily }

theorem revoke (h : Numbered s) (p : Session → Bool) (now : Time)
    (reason : SessionRevocationReason) :
    Numbered { s with
      sessions := updateRows (fun x => p x && x.revokedAt.isNone) (fun x => x.revoke now reason)
        s.sessions } :=
  { h with
    sessions := h.sessions.updateRows fun _ => rfl
    sound := h.sound.revoke p now reason
    families := h.families.updateRows fun _ => rfl }

theorem replaceBackupCodes (h : Numbered s) (credentialId : Id) (codeHashes : List String) :
    Numbered { s with
      nextId := s.nextId + codeHashes.length
      twoFactorBackupCodes :=
        (s.twoFactorBackupCodes.filter fun c => !(c.credentialId == credentialId)) ++
          backupCodeRows credentialId s.nextId codeHashes } :=
  { h.later (s.nextId + codeHashes.length) (by lia) with
    backupCodes := (h.backupCodes.filter _).append (by lia)
      (fun c hc => ⟨(mem_backupCodeRows hc).1, (mem_backupCodeRows hc).2.1⟩)
      (backupCodeRows_nodup credentialId s.nextId codeHashes) }

theorem linkOAuthAccount (h : Numbered s) {profile : OAuthProfile} {email : String} {now : Time}
    {user : User} {s' : Store} (hm : linkOAuthAccount profile email now s = .ok (user, s')) :
    Numbered s' := by
  obtain ⟨user', s₁, p, f, hf, hcolumns, -, rfl, -⟩ := linkOAuthAccount_ok hm
  have hid : ∀ u : User, (f u).id = u.id := fun u => (hcolumns u).1
  rcases findOrCreateOAuthUser_ok hf with rfl | ⟨rows, accounts, rfl, hrows⟩
  · exact { h with users := h.users.updateRows hid }
  · have hlater := h.later (s.nextId + 2) (by lia)
    refine { hlater with users := Keyed.updateRows ?_ hid }
    rcases hrows with rfl | ⟨u, hu, rfl⟩
    · exact hlater.users
    · exact h.users.concat (Nat.le_of_eq hu.symm) (by simp [hu])

end Numbered

theorem Effect.numbered {pid : Nat} {w w' : World} (h : Effect env pid w w') (hn : Numbered w.store) :
    Numbered w'.store := by
  cases h with
  | idle => exact hn
  | loginFound => exact hn
  | setupFound => exact hn
  | passwordVerified => exact hn
  | rotatedTokenPresented => exact hn
  | rotationLost => exact hn
  | accountCreated user _ _ tokenHash expiresAt context huser hunverified hsound =>
    exact { hn.later (w.store.nextId + 4) (by lia) with
      users := hn.users.concat (Nat.le_of_eq huser.symm) (by simp [huser])
      verificationTokens := hn.verificationTokens.concat (by simp) (by simp)
      sessions := hn.sessions.concat (by simp [Session.issue]) (by simp [Session.issue])
      sound := hsound
      families := hn.families.concat (by simp) (by simp [Session.issue]) }
  | oauthLinked profile email now user nextId users accounts hnext h =>
    exact hn.linkOAuthAccount h
  | signedIn userId tokenHash expiresAt now context hsound =>
    have hs := hn.openSession rfl (by simp [Session.issue]) hsound
    exact { hs with users := hs.users.updateRows fun _ => rfl }
  | rotated session tokenHash expiresAt now context hknown hlive hsound =>
    obtain ⟨y, hy, -, -, hfamily⟩ := hknown
    have hlt := hn.families y hy
    refine { hn.later (w.store.nextId + 2) (by lia) with
      sound := hsound
      sessions := Keyed.updateRows (hn.sessions.concat (Nat.le_refl _) (by simp [Session.issue])) ?_
      families := Below.updateRows (hn.families.concat (by simp) ?_) ?_ }
    · exact fun _ => rfl
    · change session.tokenFamilyId < w.store.nextId + 2
      lia
    · exact fun _ => rfl
  | sessionsRevoked p now reason hreason => exact hn.revoke p now reason
  | loggedOut tokenHash now => exact hn.revoke (fun x => x.tokenHash == tokenHash) now .logout
  | everythingRevoked userId now =>
    have hs := hn.revoke (fun x => x.userId == userId) now .logoutAll
    exact { hs with challenges := hn.challenges.filter _ }
  | profileUpdated userId displayName =>
    exact { hn with users := hn.users.updateRows fun _ => rfl }
  | verificationTokenReplaced userId email tokenHash expiresAt huser =>
    exact { hn.later (w.store.nextId + 1) (by lia) with
      verificationTokens := (hn.verificationTokens.filter _).concat (by simp) (by simp) }
  | emailVerified token now verifiedAt hknown hlive =>
    exact { hn with
      verificationTokens := hn.verificationTokens.updateRows fun _ => rfl
      users := hn.users.updateRows fun _ => rfl }
  | resetTokenReplaced userId tokenHash expiresAt huser =>
    exact { hn.later (w.store.nextId + 1) (by lia) with
      resetTokens := (hn.resetTokens.filter _).concat (by simp) (by simp) }
  | passwordChanged token passwordHash now nextId notifications hnext hknown hlive =>
    have hs := (hn.later nextId hnext).revoke (fun x => x.userId == token.userId) now .logoutAll
    refine { hs with
      resetTokens := Keyed.filter (Keyed.updateRows (hn.resetTokens.mono hnext) ?_) _
      users := hs.users.updateRows ?_
      challenges := hs.challenges.filter _ }
    · exact fun _ => rfl
    · exact fun _ => rfl
  | setupBegun userId secret rows p huser hcodes hrows =>
    have hl := hn.later (w.store.nextId + 1) (by lia)
    have hkept := hl.backupCodes.filter p
    rcases hrows with ⟨-, rfl⟩ | rfl
    · exact { hl with
        backupCodes := hkept
        credentials := hn.credentials.concat (by simp) (by simp)
        credentialUsers := hn.credentialUsers.concat (by simp) (Nat.lt_succ_of_lt huser) }
    · exact { hl with
        backupCodes := hkept
        credentials := hl.credentials.updateRows fun _ => rfl
        credentialUsers := hl.credentialUsers.updateRows fun _ => rfl }
  | twoFactorEnabled credential secret timeStep codeHashes now hknown hsecret hunreplaced hpending =>
    have hs := (hn.replaceBackupCodes credential.id codeHashes).revoke
      (fun x => x.userId == credential.userId) now .administrative
    exact { hs with
      credentials := hs.credentials.updateRows fun _ => rfl
      credentialUsers := hs.credentialUsers.updateRows fun _ => rfl }
  | backupCodesRegenerated credential proof codeHashes now hspent =>
    have hp := hn.spend credential proof now
    have hs := hp.replaceBackupCodes credential.id codeHashes
    cases proof with
    | totp timeStep => exact hs
    | backupCode backupCodeId => exact hs
  | twoFactorDisabled credential proof now hknown hspent =>
    have hp := hn.spend credential proof now
    have hs := hn.revoke (fun x => x.userId == credential.userId) now .logoutAll
    have hcredentials := hp.credentials.filter fun c => !(c.id == credential.id)
    have husers := hp.credentialUsers.filter fun c => !(c.id == credential.id)
    have hcodes := hp.backupCodes.filter fun c => !(c.credentialId == credential.id)
    cases proof with
    | totp timeStep =>
      exact { hs with
        credentials := hcredentials, credentialUsers := husers, backupCodes := hcodes
        challenges := hn.challenges.filter _ }
    | backupCode backupCodeId =>
      exact { hs with
        credentials := hcredentials, credentialUsers := husers, backupCodes := hcodes
        challenges := hn.challenges.filter _ }
  | challengeCreated userId tokenHash expiresAt now context =>
    exact { hn.later (w.store.nextId + 1) (by lia) with
      challenges := (hn.challenges.filter _).concat (by simp) (by simp) }
  | challengeConsumed challenge credential proof tokenHash expiresAt now hknown hlive hspent hsound =>
    have hp := (hn.spend credential proof now).later (w.store.nextId + 2) (by
      cases proof <;> simp [Store.spend])
    have hs := hn.openSession rfl (by simp [Session.issue]) hsound
    exact { hs with
      credentials := hp.credentials
      credentialUsers := hp.credentialUsers
      backupCodes := hp.backupCodes
      challenges := hs.challenges.updateRows fun _ => rfl
      users := hs.users.updateRows fun _ => rfl }

end ShipFlow.Auth
