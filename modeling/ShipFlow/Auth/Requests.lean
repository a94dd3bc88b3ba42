import ShipFlow.Auth.Sessions
import ShipFlow.Interleaving.Discipline

/-! Every action of an identity request is an effect, whatever the other
requests do in between. -/

namespace ShipFlow.Auth
open Interleaving Interleaving.Discipline Relational

abbrev discipline (env : Environment) : Discipline Store Event where
  inv w := Numbered w.store
  effect := Effect env
  idle _ _ := .idle
  kept _ _ _ he hn := he.numbered hn

abbrev contract (env : Environment) : Contract Store Event := (discipline env).contract

section Steps
variable {α : Type} {pid : Nat} {w : World} {env : Environment}

theorem deliver_keeps : (discipline env).Keeps pid deliver w := by
  refine Keeps.ask fun failure => ?_
  cases failure with
  | none => exact Keeps.pure ()
  | some message => exact Keeps.throw _

theorem given_stable (id : Id) : (discipline env).Stable fun w => id < w.store.nextId :=
  fun _ _ _ _ _ he h => Nat.lt_of_lt_of_le h he.nextId_le

theorem known_stable (x : TwoFactorCredential) : (discipline env).Stable fun w => x.Known w.store :=
  fun _ _ _ _ _ he h => h.effect he

theorem unreplaced_stable (x : TwoFactorCredential) (pid : Nat) :
    (discipline env).Stable fun w => x.Known w.store ∧ x.Unreplaced pid w :=
  fun _ _ _ _ _ he h => ⟨h.1.effect he, h.2.effect h.1 he⟩

theorem verificationToken_stable (x : EmailVerificationToken) :
    (discipline env).Stable fun w => x.Known w.store := fun _ _ _ _ _ he h => h.effect he

theorem resetToken_stable (x : PasswordResetToken) :
    (discipline env).Stable fun w => x.Known w.store := fun _ _ _ _ _ he h => h.effect he

theorem challenge_stable (x : TwoFactorChallenge) :
    (discipline env).Stable fun w => x.Known w.store := fun _ _ _ _ _ he h => h.effect he

variable (env)

theorem decryptCredential_keeps (credential : TwoFactorCredential) :
    (discipline env).Keeps pid (decryptCredential env credential) w := by
  unfold decryptCredential
  split
  · exact Keeps.pure _
  · exact Keeps.throw _

theorem buildAuthentication_keeps (user : User) (refreshToken : String) (expiresAt : Time) :
    (discipline env).Keeps pid (buildAuthentication env user refreshToken expiresAt) w :=
  Keeps.ask fun _ => Keeps.pure _

theorem resolveSecondFactor_keeps (credential : TwoFactorCredential) (code : String) :
    (discipline env).Keeps pid (resolveSecondFactor env credential code) w := by
  unfold resolveSecondFactor
  split
  · refine Keeps.bind (decryptCredential_keeps env credential) fun secret w' => ?_
    exact Keeps.ask fun now => Keeps.pure _
  · split
    · exact Keeps.query fun w' _ => Keeps.pure _
    · exact Keeps.pure none

theorem createLoginChallenge_keeps (userId : Id) (context : ClientContext) :
    (discipline env).Keeps pid (createLoginChallenge env userId context) w := by
  unfold createLoginChallenge
  refine Keeps.ask fun token => Keeps.ask fun now => ?_
  refine Keeps.commit (fun _ => rfl) (fun w' i challengeId s' h => ?_) fun _ _ => Keeps.pure _
  obtain ⟨rfl, rfl⟩ := addChallenge_ok h
  exact .challengeCreated userId _ _ now _

theorem completeFirstFactor_keeps (user : User) (context : ClientContext) :
    (discipline env).Keeps pid (completeFirstFactor env user context) w := by
  unfold completeFirstFactor
  refine Keeps.query fun w' _ => ?_
  split
  · exact Keeps.bind (createLoginChallenge_keeps env _ _) fun _ _ => Keeps.pure _
  · refine Keeps.ask fun refreshToken => Keeps.ask fun refreshExpiresAt => Keeps.ask fun now => ?_
    refine Keeps.commit (fun _ => rfl) (fun w' i sessionId s' h => ?_) fun _ _ => ?_
    · obtain ⟨rfl, hsound, rfl⟩ := signIn_ok h
      exact .signedIn user.id _ _ now _ hsound
    · exact Keeps.bind (buildAuthentication_keeps env _ _ _) fun _ _ => Keeps.pure _

theorem credentialOf_known {s : Store} {userId : Id} {credential : TwoFactorCredential}
    (hn : Numbered s) (h : s.credentialOf userId = some credential) :
    credential.userId = userId ∧ credential.Known s := by
  have hmem : credential ∈ s.twoFactorCredentials := List.mem_of_find?_eq_some h
  have huser := List.find?_some h
  refine ⟨by simpa using huser, hn.credentials.1 _ hmem, fun c hc hid => ?_⟩
  rw [hn.credentials.inj hc hmem hid]

/-- The step-up ends with the credential of the user, or with nothing. -/
theorem verifyStepUp_finds (userId : Id) (dto : TwoFactorStepUp) :
    Ensures (contract env) pid (fun r w => ∀ x, r = .ok x → x.1.userId = userId ∧ x.1.Known w.store)
      (verifyStepUp env userId dto) w := by
  unfold verifyStepUp
  refine Ensures.query (fun _ => .idle) fun w₁ _ hn => ?_
  split
  · rename_i user credential hfound
    -- what is looked up is the credential of the user, and it stays known while the code is checked
    have hcredential : w₁.store.credentialOf userId = some credential := by
      simp only [Option.bind_eq_some_iff, Option.map_eq_some_iff] at hfound
      obtain ⟨user', -, c, hc, heq⟩ := hfound
      cases heq
      exact hc
    obtain ⟨huser, hknown⟩ := credentialOf_known hn hcredential
    refine Ensures.rejectIf (fun _ => ?_) fun _ => Ensures.rejectIf (fun _ => ?_) fun _ => ?_
    · exact fun _ _ _ x hx => by cases hx
    · exact fun _ _ _ x hx => by cases hx
    · refine Ensures.bind (Ensures.mono (Ensures.frame (known_stable credential)
        (resolveSecondFactor_keeps env credential dto.code) hknown) fun r w₂ _ hr => ?_)
      cases r with
      | error e => exact fun _ _ _ x hx => by cases hx
      | ok found =>
        cases found with
        | none => exact fun _ _ _ x hx => by cases hx
        | some proof =>
          intro w₃ hw₃ _ x hx
          cases hx
          exact ⟨huser, Contract.concurrent_stable (known_stable credential) hw₃ hr.2⟩
  · exact fun _ _ _ x hx => by cases hx

theorem verifyStepUp_then {userId : Id} {dto : TwoFactorStepUp}
    {k : TwoFactorCredential × SecondFactorProof → Handler α}
    (hk : ∀ credential proof w', credential.userId = userId → credential.Known w'.store →
      (discipline env).Keeps pid (k (credential, proof)) w') : (discipline env).Keeps pid (verifyStepUp env userId dto >>= k) w := by
  refine Ensures.bind ((verifyStepUp_finds env userId dto).mono fun r w' _ hr => ?_)
  cases r with
  | ok x => exact hk x.1 x.2 w' (hr x rfl).1 (hr x rfl).2
  | error e => exact fun _ _ _ => True.intro

end Steps

/-! ## The requests -/

/-- The credential for which an action stores new backup codes. -/
def Event.issue : Event → Option Id
  | .twoFactorEnabled _ credentialId _ => some credentialId
  | .backupCodesRegenerated credentialId => some credentialId
  | _ => none

/-- The request has stored backup codes for a credential of the user. -/
def IssuedFor (pid : Nat) (userId : Id) (w : World) : Prop :=
  ∃ x : TwoFactorCredential, x.userId = userId ∧ x.Known w.store ∧
    ∃ e : Event, e.issue = some x.id ∧ (pid, e) ∈ w.trace

theorem issuedFor_stable {env : Environment} (pid : Nat) (userId : Id) :
    (discipline env).Stable (IssuedFor pid userId) := by
  rintro q w w' - - he ⟨x, huser, hknown, e, hissue, hmem⟩
  obtain ⟨es, hes⟩ := he.trace
  exact ⟨x, huser, hknown.effect he, e, hissue, hes ▸ List.mem_append_left _ hmem⟩

section Requests
variable {pid : Nat} {w : World} (env : Environment)

theorem register_keeps (dto : RegisterDto) (context : ClientContext) :
    (discipline env).Keeps pid (register env dto context) w := by
  unfold register
  refine Keeps.ask fun salt => Keeps.ask fun refreshToken => Keeps.ask fun verificationToken =>
    Keeps.ask fun refreshExpiresAt => Keeps.ask fun verificationExpiresAt => Keeps.ask fun now => ?_
  refine Keeps.bind (Ensures.handle ?_) fun registration w' =>
    Keeps.bind deliver_keeps fun _ w'' => buildAuthentication_keeps env _ _ _
  refine Ensures.mono (Q := fun _ _ => True) ?_ fun r w' _ _ => ?_
  · rw [← Process.bind_pure (Process.atomically _ _)]
    refine Keeps.commit (fun _ => rfl) (fun w' i r s' h => ?_) fun _ _ => Keeps.pure _
    obtain ⟨huser, hemail, hunverified, htoken, hsession, hsound, rfl⟩ := createAccount_ok h
    simp only [htoken, hsession, huser]
    have heffect : Effect env pid w' _ := .accountCreated r.user (env.hashOpaqueToken
      verificationToken) verificationExpiresAt _ _ _ huser hunverified hsound
    rw [hemail] at heffect
    exact heffect
  · cases r with
    | ok r => exact Keeps.pure r
    | error e =>
      change (discipline env).Keeps pid (if _ then _ else _) w'
      split
      · exact Keeps.throw _
      · exact Keeps.throw _

theorem login_keeps (dto : LoginDto) (context : ClientContext) :
    (discipline env).Keeps pid (login env dto context) w := by
  unfold login
  refine Keeps.reads (fun w' _ => ?_) fun w' _ => ?_
  · split
    · exact .loginFound _
    · rw [World.advance_idle]
      exact .idle
  split
  · rename_i user _
    refine Keeps.commit (fun _ => rfl) (fun w' i valid s' h => ?_) fun valid w' =>
      Keeps.rejectIf fun _ => (completeFirstFactor_keeps env user context)
    obtain ⟨-, rfl⟩ := (Transaction.pure_ok _ _ _ _).mp h
    cases valid with
    | false => rw [World.advance_idle]; exact .idle
    | true =>
      cases hp : user.passwordHash with
      | none => simp only [Option.toList_none, List.map_nil, World.advance_idle]; exact .idle
      | some passwordHash => exact .passwordVerified user.id passwordHash
  · exact Keeps.throw _

theorem authenticateOAuth_keeps (profile : OAuthProfile) (context : ClientContext) :
    (discipline env).Keeps pid (authenticateOAuth env profile context) w := by
  unfold authenticateOAuth
  refine Keeps.ask fun now => Keeps.commit (fun _ => rfl) (fun w' i user s' h => ?_) fun user w' =>
    completeFirstFactor_keeps env user context
  obtain ⟨nextId, users, accounts, hnext, rfl⟩ := linkOAuthAccount_frame h
  exact .oauthLinked profile _ now user nextId users accounts hnext h

variable {env} in
theorem revokeTokenFamily_effect {family : Id} {now : Time} {n : Nat} {s' : Store}
    (h : sessions.updateMany (ε := Failure)
      (fun s => s.tokenFamilyId == family && s.revokedAt.isNone)
      (fun s => s.revoke now .reuseDetected) w.store = .ok (n, s')) :
    Effect env pid w (w.advance pid (s', [])) := by
  obtain ⟨-, -, rfl⟩ := Table.updateMany_ok.mp h
  exact .sessionsRevoked (fun s => s.tokenFamilyId == family) now .reuseDetected (by simp)

theorem logout_keeps (refreshToken : Option String) : (discipline env).Keeps pid (logout env refreshToken) w := by
  unfold logout
  split
  · exact Keeps.pure _
  · refine Keeps.ask fun now => Keeps.commit (fun _ => rfl) (fun w' i n s' h => ?_) fun _ _ =>
      Keeps.pure _
    obtain ⟨-, -, rfl⟩ := Table.updateMany_ok.mp h
    exact .loggedOut _ now

variable {env} in
theorem logoutAll_keeps (userId : Id) : (discipline env).Keeps pid (logoutAll userId) w := by
  unfold logoutAll
  refine Keeps.ask fun now => Keeps.commit (fun _ => rfl) (fun w' i _ s' h => ?_) fun _ _ =>
    Keeps.pure _
  rw [revokeEverything_ok h]
  exact .everythingRevoked userId now

theorem requestEmailVerification_keeps (userId : Id) :
    (discipline env).Keeps pid (requestEmailVerification env userId) w := by
  unfold requestEmailVerification
  refine Keeps.query fun w₁ hn => ?_
  split
  · exact Keeps.pure _
  · rename_i user hfound
    have hlt : userId < w₁.store.nextId := by
      rw [Option.filter_eq_some_iff] at hfound
      have hmem := List.mem_of_find?_eq_some hfound.1
      have hid := List.find?_some hfound.1
      simp only [Bool.and_eq_true, beq_iff_eq] at hid
      exact hid.1.1 ▸ hn.users.1 user hmem
    refine Keeps.ask fun token => Keeps.ask fun expiresAt => Keeps.commit_known
      (given_stable userId) hlt (fun _ => rfl) (fun w' i tokenId s' _ hlt' h => ?_) fun _ _ =>
        Keeps.bind deliver_keeps fun _ _ => Keeps.pure _
    obtain ⟨rfl, rfl⟩ := replaceVerificationToken_ok h
    exact .verificationTokenReplaced userId _ _ _ hlt'

theorem confirmEmailVerification_keeps (token : String) :
    (discipline env).Keeps pid (confirmEmailVerification env token) w := by
  unfold confirmEmailVerification
  refine Keeps.query fun w₁ hn => Keeps.ask fun clock => ?_
  split
  · rename_i token user hfound
    have hknown : token.Known w₁.store := by
      rw [Option.filter_eq_some_iff, Option.bind_eq_some_iff] at hfound
      obtain ⟨⟨token', hfind, hmap⟩, -⟩ := hfound
      obtain ⟨_, -, heq⟩ := Option.map_eq_some_iff.mp hmap
      cases heq
      exact hn.verificationTokens.fixed (List.mem_of_find?_eq_some hfind)
    refine Keeps.commit_known (verificationToken_stable token) hknown (fun _ => rfl)
      (fun w' i _ s' _ hknown' h => ?_) fun _ _ => Keeps.pure _
    obtain ⟨hlive, hpresent, rfl⟩ := verifyEmail_ok h
    exact .emailVerified _ _ _ hknown' hlive hpresent
  · exact Keeps.throw _

theorem forgotPassword_keeps (email : String) : (discipline env).Keeps pid (forgotPassword env email) w := by
  unfold forgotPassword
  refine Keeps.query fun w₁ hn => ?_
  split
  · exact Keeps.pure _
  · rename_i user hfound
    have hlt : user.id < w₁.store.nextId := hn.users.1 user (List.mem_of_find?_eq_some hfound)
    refine Keeps.ask fun token => Keeps.ask fun expiresAt => Keeps.commit_known
      (given_stable user.id) hlt (fun _ => rfl) (fun w' i tokenId s' _ hlt' h => ?_) fun _ _ =>
        Keeps.bind deliver_keeps fun _ _ => Keeps.pure _
    obtain ⟨rfl, rfl⟩ := replaceResetToken_ok h
    exact .resetTokenReplaced _ _ _ hlt'

theorem resetPassword_keeps (dto : ResetPasswordDto) : (discipline env).Keeps pid (resetPassword env dto) w := by
  unfold resetPassword
  refine Keeps.query fun w₁ hn => Keeps.ask fun clock => ?_
  split
  · rename_i token user hfound
    have hknown : token.Known w₁.store := by
      rw [Option.filter_eq_some_iff, Option.bind_eq_some_iff] at hfound
      obtain ⟨⟨token', hfind, hmap⟩, -⟩ := hfound
      obtain ⟨_, -, heq⟩ := Option.map_eq_some_iff.mp hmap
      cases heq
      exact hn.resetTokens.fixed (List.mem_of_find?_eq_some hfind)
    refine Keeps.ask fun salt => Keeps.ask fun now => Keeps.commit_known
      (resetToken_stable token) hknown (fun _ => rfl) (fun w' i _ s' _ hknown' h => ?_) fun _ _ =>
        Keeps.pure _
    obtain ⟨hlive, hpresent, nextId, notifications, hnext, rfl⟩ := changePassword_ok h
    exact .passwordChanged _ _ now nextId notifications hnext hknown' hlive hpresent
  · exact Keeps.throw _

variable {env} in
theorem updateProfile_keeps (userId : Id) (displayName : String) :
    (discipline env).Keeps pid (updateProfile userId displayName) w := by
  unfold updateProfile
  refine Keeps.commit (fun _ => rfl) (fun w' i _ s' h => ?_) fun _ _ => Keeps.pure _
  obtain ⟨_, -, -, -, rfl⟩ := Table.update_ok.mp h
  exact .profileUpdated userId displayName

theorem beginSetup_keeps (userId : Id) : (discipline env).Keeps pid (beginSetup env userId) w := by
  unfold beginSetup
  refine Keeps.query fun w₁ hn => ?_
  split
  · rename_i user credential hfound
    have hlt : user.id < w₁.store.nextId := by
      obtain ⟨user', huser', heq⟩ := Option.map_eq_some_iff.mp hfound
      cases heq
      exact hn.users.1 _ (List.mem_of_find?_eq_some huser')
    refine Keeps.rejectIf fun _ => Keeps.ask fun secret => Keeps.ask fun initializationVector => ?_
    refine Keeps.commit_known (given_stable user.id) hlt (fun _ => rfl)
      (fun w' i _ s' _ hlt' h => ?_) fun _ _ => Keeps.pure _
    obtain ⟨rows, p, rfl, hcodes, hrows⟩ := upsertCredential_ok h
    exact .setupBegun user.id _ rows p hlt' hcodes hrows
  · exact Keeps.throw _

/-- A setup that is confirmed has issued codes for the credential of the user. -/
theorem confirmSetup_ensures (userId : Id) (code : String) :
    Ensures (contract env) pid (fun r w => ∀ codes, r = .ok codes → IssuedFor pid userId w)
      (confirmSetup env userId code) w := by
  unfold confirmSetup
  refine Ensures.atomically (fun w₁ _ hn i found s' h => ?_) fun w₁ _ _ i e h => ?_
  · obtain ⟨hfound, hs⟩ := (Transaction.reads_ok _ _ _ _).mp h
    subst hs
    cases found with
    | none =>
      simp only [World.advance_idle]
      exact ⟨hn, .idle, fun _ _ _ _ h => by cases h⟩
    | some credential =>
      obtain ⟨rfl, hknown⟩ := credentialOf_known hn hfound.symm
      -- right after the read nothing has replaced the credential
      have hunreplaced : credential.Unreplaced pid
          (w₁.advance pid (w₁.store, [.setupFound credential.id])) := by
        refine ⟨by simp, .inr fun c hc hid => ?_⟩
        rw [hn.credentials.inj hc (List.mem_of_find?_eq_some hfound.symm) hid]
      refine ⟨hn, .setupFound _, Ensures.rejectIf (fun _ _ _ _ _ h => by cases h) fun _ => ?_⟩
      unfold decryptCredential
      split
      · rename_i secret hsecret
        refine Ensures.ask (fun _ => .idle) fun clock => ?_
        split
        · rename_i timeStep _
          refine Ensures.ask (fun _ => .idle) fun draws => Ensures.ask (fun _ => .idle) fun now =>
            Ensures.atomically_quiet (fun _ => .idle) (fun _ => rfl) (fun w₂ hw hn₂ i _ s' h => ?_)
              fun _ _ _ _ _ _ _ _ _ _ h => by cases h
          -- other requests may have acted since, and then a replacement is on record
          have hkept := Contract.concurrent_stable (unreplaced_stable credential pid) hw
            ⟨hknown, hunreplaced⟩
          obtain ⟨hpending, rfl⟩ := enableCredential_ok h
          have heffect : Effect env pid w₂ _ :=
            .twoFactorEnabled credential secret timeStep
              (generateBackupCodes env credential.userId draws).codeHashes now hkept.1 hsecret
              hkept.2 hpending
          refine ⟨heffect.numbered hn₂, heffect, fun w₃ hw₃ _ codes _ => ?_⟩
          refine Contract.concurrent_stable (issuedFor_stable pid credential.userId) hw₃ ?_
          exact ⟨credential, rfl, hkept.1.effect heffect,
            .twoFactorEnabled credential.userId credential.id timeStep, rfl, by simp⟩
        · exact fun _ _ _ _ h => by cases h
      · exact fun _ _ _ _ h => by cases h
  · simp [Transaction.reads] at h

theorem confirmSetup_keeps (userId : Id) (code : String) :
    (discipline env).Keeps pid (confirmSetup env userId code) w :=
  (confirmSetup_ensures env userId code).mono fun _ _ _ _ => True.intro

/-- Codes that are regenerated are those of a credential of the user. -/
theorem regenerateBackupCodes_ensures (userId : Id) (dto : TwoFactorStepUp) :
    Ensures (contract env) pid (fun r w => ∀ codes, r = .ok codes → IssuedFor pid userId w)
      (regenerateBackupCodes env userId dto) w := by
  unfold regenerateBackupCodes
  refine Ensures.bind ((verifyStepUp_finds env userId dto).mono fun r w₁ _ hr => ?_)
  cases r with
  | error e => exact fun _ _ _ _ h => by cases h
  | ok x =>
    obtain ⟨credential, proof⟩ := x
    obtain ⟨huser, hknown⟩ := hr _ rfl
    refine Ensures.ask (fun _ => .idle) fun draws => Ensures.ask (fun _ => .idle) fun now =>
      Ensures.atomically_quiet (fun _ => .idle) (fun _ => rfl) (fun w₂ hw hn i _ s' h => ?_)
        fun _ _ _ _ _ _ _ _ _ _ h => by cases h
    have hknown₂ := Contract.concurrent_stable (known_stable credential) hw hknown
    obtain ⟨hspent, rfl⟩ := regenerate_ok h
    have heffect : Effect env pid w₂ _ := Effect.backupCodesRegenerated credential proof
      (generateBackupCodes env userId draws).codeHashes now hspent
    have hkept := hknown₂.effect heffect
    have hissued : ∀ s : Store, credential.Known s → IssuedFor pid userId
        (w₂.advance pid (s, [.secondFactorAccepted credential.id proof,
          .backupCodesRegenerated credential.id])) := fun s hs =>
      ⟨credential, huser, hs, .backupCodesRegenerated credential.id, rfl, by simp⟩
    -- a time step and a backup code are spent alike, and the new codes follow
    cases proof with
    | totp timeStep =>
      exact ⟨heffect.numbered hn, heffect, fun w₃ hw₃ _ _ _ =>
        Contract.concurrent_stable (issuedFor_stable pid userId) hw₃ (hissued _ hkept)⟩
    | backupCode backupCodeId =>
      exact ⟨heffect.numbered hn, heffect, fun w₃ hw₃ _ _ _ =>
        Contract.concurrent_stable (issuedFor_stable pid userId) hw₃ (hissued _ hkept)⟩

theorem regenerateBackupCodes_keeps (userId : Id) (dto : TwoFactorStepUp) :
    (discipline env).Keeps pid (regenerateBackupCodes env userId dto) w :=
  (regenerateBackupCodes_ensures env userId dto).mono fun _ _ _ _ => True.intro

theorem disable_keeps (userId : Id) (dto : TwoFactorStepUp) :
    (discipline env).Keeps pid (disable env userId dto) w := by
  unfold disable
  refine verifyStepUp_then env fun credential proof w' huser hknown => Keeps.ask fun now => ?_
  subst huser
  refine Keeps.commit_known (known_stable credential) hknown (fun _ => rfl)
    (fun w' i _ s' _ hknown' h => ?_) fun _ _ => Keeps.pure _
  obtain ⟨hspent, rfl⟩ := disableCredential_ok h
  have heffect : Effect env pid _ _ := Effect.twoFactorDisabled credential proof now hknown' hspent
  cases proof with
  | totp timeStep => exact heffect
  | backupCode backupCodeId => exact heffect

theorem verifyLoginChallenge_keeps (challengeToken code : String) :
    (discipline env).Keeps pid (verifyLoginChallenge env challengeToken code) w := by
  unfold verifyLoginChallenge
  refine Keeps.ask fun now => Keeps.query fun w₁ hn => ?_
  split
  · rename_i challenge user hfound
    have hknown : challenge.Known w₁.store := by
      obtain ⟨challenge', hfind, hmap⟩ := Option.bind_eq_some_iff.mp hfound
      obtain ⟨_, -, heq⟩ := Option.map_eq_some_iff.mp hmap
      cases heq
      exact hn.challenges.fixed (List.mem_of_find?_eq_some hfind)
    refine Keeps.rejectIf fun _ => Keeps.query_known (challenge_stable challenge) hknown
      fun w₂ _ hknown => ?_
    split
    · rename_i credential _
      refine Keeps.rejectIf fun _ => Keeps.frame (challenge_stable challenge)
        (resolveSecondFactor_keeps env credential code) hknown fun found w₃ hknown => ?_
      split
      · rename_i proof
        refine Keeps.ask fun refreshToken => Keeps.ask fun refreshExpiresAt => ?_
        refine Keeps.commit_known (challenge_stable challenge) hknown (fun _ => rfl)
          (fun w' i sessionId s' _ hknown' h => ?_) fun _ _ => buildAuthentication_keeps env _ _ _
        obtain ⟨hlive, hspent, rfl, hsound, rfl⟩ := consumeChallenge_ok h
        exact .challengeConsumed challenge credential proof _ _ now hknown' hlive hspent hsound
      · exact Keeps.throw _
    · exact Keeps.throw _
  · exact Keeps.throw _

/-! ## Refresh

A refresh request that finds its token used does not end before the family of the
token is dead. -/

variable {env}

/-- The family of a rotated token that the request presented, or whose rotation it lost. -/
def Replayed (pid : Nat) (family : Id) (w : World) : Prop :=
  ∃ sessionId, (pid, .rotatedTokenPresented sessionId family) ∈ w.trace ∨
    (pid, .rotationLost sessionId family) ∈ w.trace

def Settled (pid : Nat) (w : World) : Prop := ∀ family, Replayed pid family w → w.store.Dead family

theorem Replayed.advance {family : Id} {s : Store} {es : List Event}
    (h : Replayed pid family (w.advance pid (s, es))) : Replayed pid family w ∨
      ∃ sessionId, .rotatedTokenPresented sessionId family ∈ es ∨
        .rotationLost sessionId family ∈ es := by
  obtain ⟨sessionId, h⟩ := h
  simp only [World.advance_trace, List.mem_append, List.mem_map, Prod.mk.injEq, true_and,
    exists_eq_right] at h
  rcases h with (h | h) | (h | h)
  · exact .inl ⟨sessionId, .inl h⟩
  · exact .inr ⟨sessionId, .inl h⟩
  · exact .inl ⟨sessionId, .inr h⟩
  · exact .inr ⟨sessionId, .inr h⟩

/-- No other request adds an event of this one. -/
theorem Replayed.rely {family : Id} {w' : World} (h : (contract env).rely pid w w')
    (hr : Replayed pid family w') : Replayed pid family w := by
  induction h with
  | refl => exact hr
  | tail _ hstep ih =>
    obtain ⟨q, hq, -, -, he⟩ := hstep
    obtain ⟨es, hes⟩ := he.trace
    refine ih ?_
    obtain ⟨sessionId, hr⟩ := hr
    refine ⟨sessionId, ?_⟩
    simp only [hes, List.mem_append, List.mem_map, Prod.mk.injEq] at hr
    rcases hr with (hr | ⟨e, -, hp, -⟩) | (hr | ⟨e, -, hp, -⟩)
    · exact .inl hr
    · exact absurd hp hq
    · exact .inr hr
    · exact absurd hp hq

theorem dead_stable (family : Id) : (discipline env).Stable fun w => w.store.Dead family :=
  fun _ _ _ hn _ he h => Dead.step h hn (he.sessionStep hn)

theorem session_known_stable (x : Session) : (discipline env).Stable fun w => x.Known w.store :=
  fun _ _ _ hn _ he h => h.step (he.sessionStep hn)

theorem Settled.rely {w' : World} (hs : Settled pid w) (h : (contract env).rely pid w w') :
    Settled pid w' := fun family hr =>
  Contract.concurrent_stable (dead_stable family) h (hs family (hr.rely h))

theorem Settled.ends {α : Type} (hs : Settled pid w) (r : Except Failure α) :
    match r with
    | .ok a => Ensures (contract env) pid (fun _ w => Settled pid w) (.done a : Handler α) w
    | .error e => Ensures (contract env) pid (fun _ w => Settled pid w) (.fail e : Handler α) w := by
  cases r with
  | ok a => exact fun _ hw _ => hs.rely hw
  | error e => exact fun _ hw _ => hs.rely hw

theorem Settled.fails {α : Type} (hs : Settled pid w) (e : Failure) :
    Ensures (contract env) pid (fun _ w => Settled pid w) (throw e : Handler α) w :=
  hs.ends (.error e : Except Failure α)

theorem revokeTokenFamily_settles {session : Session} (hknown : session.Known w.store)
    (honly : ∀ family, Replayed pid family w → family = session.tokenFamilyId) :
    Ensures (contract env) pid (fun _ w => Settled pid w) (revokeTokenFamily session.tokenFamilyId) w := by
  unfold revokeTokenFamily
  refine Ensures.ask (fun _ => .idle) fun now => ?_
  refine Ensures.atomically_quiet (fun _ => .idle) (fun _ => rfl)
    (fun w' hw hn i n s' h => ?_) fun w' hw hn i e h => ?_
  · have heffect : Effect env pid _ _ := revokeTokenFamily_effect h
    have hknown' := Contract.concurrent_stable (session_known_stable session) hw hknown
    refine ⟨heffect.numbered hn, heffect, Settled.ends ?_ (.ok ())⟩
    intro family hr
    have hfamily : family = session.tokenFamilyId := by
      rcases hr.advance with hr | ⟨_, hr | hr⟩
      · exact honly family (hr.rely hw)
      · cases hr
      · cases hr
    subst hfamily
    obtain ⟨y, hy, -, -, hyf⟩ := hknown'.step (heffect.sessionStep hn)
    obtain ⟨-, -, rfl⟩ := Table.updateMany_ok.mp h
    refine ⟨⟨y, hy, hyf⟩, fun x hx hxf => ?_⟩
    rcases mem_updateRows.mp hx with ⟨-, hp⟩ | ⟨x₀, -, -, rfl⟩
    · simpa [Session.live, hxf] using hp
    · rfl
  · have hsound := hn.sound.revoke (fun x => x.tokenFamilyId == session.tokenFamilyId) now
      .reuseDetected
    have hok := (Table.updateMany_ok (ε := Failure)).mpr ⟨(sessions_sound w'.store _).mpr hsound, rfl, rfl⟩
    exact absurd (h.symm.trans hok) (by simp)

/-- The transaction of a refresh either rotates the session or leaves everything as it was. -/
theorem rotation_settles {session : Session} {tokenHash : String} {expiresAt now : Time}
    {context : ClientContext} (hknown : session.Known w.store)
    (hnew : ∀ family, ¬ Replayed pid family w) :
    Ensures (contract env) pid (fun _ w => Settled pid w)
      (tryCatch
        (Process.atomically (fun _ : Input => rotate session tokenHash expiresAt now context) fun
          | .ok replacementId =>
            [.sessionCreated session.userId replacementId (.rotation session.id)]
          | .error error =>
            if error.isUnauthorized then [.rotationLost session.id session.tokenFamilyId] else [])
        fun error => do
          if error.isUnauthorized then
            revokeTokenFamily session.tokenFamilyId
          throw error) w := by
  rw [← Process.bind_pure (Process.atomically _ _)]
  refine Ensures.handle (Ensures.atomically (fun w' hw hn i id s' h => ?_)
    fun w' hw hn i e h => ?_)
  -- the rotation commits, and nothing has been replayed
  · have hknown' := Contract.concurrent_stable (session_known_stable session) hw hknown
    obtain ⟨rfl, hlive, hsound, rfl⟩ := rotate_ok h
    have heffect : Effect env pid _ _ := Effect.rotated session tokenHash expiresAt now _ hknown' hlive hsound
    refine ⟨heffect.numbered hn, heffect, fun w'' hw' _ => Settled.ends ?_ (.ok _)⟩
    refine Settled.rely (fun family hr => ?_) hw'
    rcases hr.advance with hr | ⟨_, hr | hr⟩
    · exact absurd (hr.rely hw) (hnew family)
    · simp at hr
    · simp at hr
  · have hknown' := Contract.concurrent_stable (session_known_stable session) hw hknown
    -- only the lost race revokes the family; any other error is thrown on
    cases he : e.isUnauthorized with
    | false =>
      simp only [he, Bool.false_eq_true, if_false, World.advance_idle]
      refine ⟨hn, .idle, fun w'' hw' _ => ?_⟩
      simp only [he, Bool.false_eq_true, if_false]
      refine Settled.fails (fun family hr => ?_) e
      exact absurd ((hr.rely hw').rely hw) (hnew family)
    | true =>
      simp only [he, if_true]
      have heffect : Effect env pid _ _ := Effect.rotationLost session hknown'
      refine ⟨heffect.numbered hn, heffect, fun w'' hw' hn' => ?_⟩
      simp only [he, if_true]
      have hknown'' := Contract.concurrent_stable (session_known_stable session) hw'
        (hknown'.step (heffect.sessionStep hn))
      refine Ensures.bind ((revokeTokenFamily_settles hknown'' ?_).mono fun r w _ hs => ?_)
      · intro family hr
        rcases (hr.rely hw').advance with hr | ⟨_, hr | hr⟩
        · exact absurd (hr.rely hw) (hnew family)
        · simp at hr
        · simp only [List.mem_singleton, Event.rotationLost.injEq] at hr
          exact hr.2
      · cases r with
        | ok _ => exact hs.fails e
        | error e' => exact hs.fails e'

variable (env)

theorem refresh_settles (refreshToken : String) (context : ClientContext)
    (hnew : ∀ family, ¬ Replayed pid family w) :
    Ensures (contract env) pid (fun _ w => Settled pid w) (refresh env refreshToken context) w := by
  unfold refresh
  refine Ensures.atomically (fun w₁ hw hn i found s' h => ?_) fun w₁ hw hn i e h => ?_
  · obtain ⟨hfound, hs⟩ := (Transaction.reads_ok _ _ _ _).mp h
    subst hs
    have hnew₁ : ∀ family, ¬ Replayed pid family w₁ := fun family hr => hnew family (hr.rely hw)
    have hsettled : Settled pid w₁ := fun family hr => absurd hr (hnew₁ family)
    cases found with
    | none =>
      simp only [World.advance_idle]
      exact ⟨hn, .idle, hsettled.fails _⟩
    | some x =>
      obtain ⟨session, user⟩ := x
      have hmem : session ∈ w₁.store.sessions := by
        obtain ⟨session', hfind, hmap⟩ := Option.bind_eq_some_iff.mp hfound.symm
        obtain ⟨user', -, heq⟩ := Option.map_eq_some_iff.mp hmap
        cases heq
        exact List.mem_of_find?_eq_some hfind
      have hknown : session.Known w₁.store := ⟨session, hmem, rfl, rfl, rfl⟩
      cases hrevoked : session.revokedAt.isSome with
      | true =>
        -- a rotated token is a replay, and the whole family goes; any other revoked one is refused
        cases hrotated : session.revocationReason == some .rotated with
        | true =>
          simp only [Session.rotated, hrevoked, hrotated, Bool.and_self, if_true]
          have heffect : Effect env pid _ _ := Effect.rotatedTokenPresented session hmem
            (by rw [Session.rotated, hrevoked, hrotated]; rfl)
          refine ⟨heffect.numbered hn, heffect, ?_⟩
          refine Ensures.bind ((revokeTokenFamily_settles
            (hknown.step (heffect.sessionStep hn)) ?_).mono fun r w _ hs => ?_)
          · intro family hr
            rcases hr.advance with hr | ⟨_, hr | hr⟩
            · exact absurd hr (hnew₁ family)
            · simp only [List.mem_singleton, Event.rotatedTokenPresented.injEq] at hr
              exact hr.2
            · simp at hr
          · cases r with
            | ok _ => exact hs.fails _
            | error e' => exact hs.fails e'
        | false =>
          simp only [Session.rotated, hrevoked, hrotated, Bool.and_false, Bool.false_eq_true,
            if_false, if_true, World.advance_idle]
          exact ⟨hn, .idle, hsettled.fails _⟩
      | false =>
        simp only [Session.rotated, hrevoked, Bool.false_and, Bool.false_eq_true, if_false,
          World.advance_idle]
        refine ⟨hn, .idle, Ensures.ask (fun _ => .idle) fun clock => ?_⟩
        refine Ensures.rejectIf (fun _ => hsettled.fails _) fun _ => ?_
        refine Ensures.ask (fun _ => .idle) fun token => Ensures.ask (fun _ => .idle) fun expiresAt =>
          Ensures.ask (fun _ => .idle) fun now => ?_
        refine Ensures.bind ((rotation_settles hknown hnew₁).mono fun r w _ hs => ?_)
        cases r with
        | ok _ => exact Ensures.ask (fun _ => .idle) fun jti => hs.ends (.ok _)
        | error e => exact hs.fails e
  · simp [Transaction.reads] at h

/-! ## The service -/

def Finished (r : Request) (pid : Nat) (w : World) : Prop :=
  match r with
  | .refresh _ _ => Settled pid w
  | _ => True

theorem handler_ensures (r : Request) (hnew : w.Unused pid) :
    Ensures (contract env) pid (fun _ w => Finished r pid w) (handler env r) w := by
  cases r with
  | register dto context => exact Keeps.map (register_keeps env dto context)
  | login dto context => exact Keeps.map (login_keeps env dto context)
  | authenticateOAuth profile context => exact Keeps.map (authenticateOAuth_keeps env profile context)
  | refresh refreshToken context =>
    refine Ensures.map (refresh_settles env refreshToken context fun family hr => ?_)
    obtain ⟨_, hr | hr⟩ := hr
    · exact hnew _ hr rfl
    · exact hnew _ hr rfl
  | logout refreshToken => exact Keeps.map (logout_keeps env refreshToken)
  | logoutAll userId => exact Keeps.map (logoutAll_keeps userId)
  | updateProfile userId displayName => exact Keeps.map (updateProfile_keeps userId displayName)
  | requestEmailVerification userId =>
    exact Keeps.map (requestEmailVerification_keeps env userId)
  | confirmEmailVerification token => exact Keeps.map (confirmEmailVerification_keeps env token)
  | forgotPassword email => exact Keeps.map (forgotPassword_keeps env email)
  | resetPassword dto => exact Keeps.map (resetPassword_keeps env dto)
  | beginSetup userId => exact Keeps.map (beginSetup_keeps env userId)
  | confirmSetup userId code => exact Keeps.map (confirmSetup_keeps env userId code)
  | regenerateBackupCodes userId dto => exact Keeps.map (regenerateBackupCodes_keeps env userId dto)
  | disable userId dto => exact Keeps.map (disable_keeps env userId dto)
  | verifyLoginChallenge challengeToken code =>
    exact Keeps.map (verifyLoginChallenge_keeps env challengeToken code)

end Requests

/-- A run of the service from a store whose keys are in order. -/
theorem run_meets (env : Environment) {s : Store} (hn : Numbered s)
    (acts : List (Action Request Input)) :
    Config.Meets (fun w => Numbered w.store) (Effect env) (fun r pid _ w => Finished r pid w)
      ((Config.init s : Auth.Config).run (handler env) acts) :=
  (Config.Meets.init hn).run fun r _ _ _ _ hnew => handler_ensures env r hnew

end ShipFlow.Auth
