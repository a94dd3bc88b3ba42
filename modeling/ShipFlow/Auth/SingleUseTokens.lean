import ShipFlow.Auth.SecondFactor

/-! Tokens that work once: e-mail verification tokens, password reset tokens and login
challenges. A token has its effect in the one action that consumes it. -/

namespace ShipFlow.Auth
open Interleaving Relational

def EmailVerificationToken.unused (t : EmailVerificationToken) : Bool := t.consumedAt.isNone

def PasswordResetToken.unused (t : PasswordResetToken) : Bool := t.consumedAt.isNone

def verifiedToken : Nat × Event → Option Id
  | (_, .emailVerified _ tokenId) => some tokenId
  | _ => none

/-- The tokens that verified an address. -/
def verifiedTokens (t : List (Nat × Event)) : List Id := t.filterMap verifiedToken

def resetToken : Nat × Event → Option Id
  | (_, .passwordReset _ tokenId _) => some tokenId
  | _ => none

/-- The tokens that changed a password. -/
def resetTokens (t : List (Nat × Event)) : List Id := t.filterMap resetToken

/-! ## The three tables -/

section Tables
variable {env : Environment} {pid : Nat} {w w' : World}

theorem Effect.verificationStep (h : Effect env pid w w') :
    SpendStep w.store.nextId EmailVerificationToken.id EmailVerificationToken.unused
      w.store.emailVerificationTokens w'.store.emailVerificationTokens
      (verifiedTokens (w.newEvents w')) := by
  cases h with
  | idle =>
    rw [World.newEvents_self]
    exact .same rfl
  | accountCreated =>
    rw [World.newEvents_advance]
    refine .issued (fun _ => true) _ (Nat.le_succ _) ?_ (by rw [List.filter_true]; rfl)
    rfl
  | verificationTokenReplaced userId email tokenHash expiresAt huser =>
    rw [World.newEvents_advance]
    refine .issued _ _ (Nat.le_refl _) ?_ rfl
    rfl
  | emailVerified token now verifiedAt hknown hlive =>
    obtain ⟨t, ht, hp⟩ := exists_of_countP_eq_one hlive
    have hp' := hp
    simp only [Bool.and_eq_true, beq_iff_eq] at hp'
    rw [World.newEvents_advance, ← hp'.1]
    rw [← hp'.1] at hp
    refine .spent _ (fun _ => true) _ t ht hp'.2 hp (fun t' _ hp'' => ?_) ?_ ?_ rfl
      (by rw [List.filter_true]; rfl)
    · simp only [Bool.and_eq_true, beq_iff_eq] at hp''
      exact hp''.1
    · exact fun _ => rfl
    · exact fun _ => rfl
  | _ =>
    rw [World.newEvents_advance]
    exact .same rfl

theorem Effect.resetStep (h : Effect env pid w w') :
    SpendStep w.store.nextId PasswordResetToken.id PasswordResetToken.unused
      w.store.passwordResetTokens w'.store.passwordResetTokens
      (resetTokens (w.newEvents w')) := by
  cases h with
  | idle =>
    rw [World.newEvents_self]
    exact .same rfl
  | resetTokenReplaced userId tokenHash expiresAt huser =>
    rw [World.newEvents_advance]
    refine .issued _ _ (Nat.le_refl _) ?_ rfl
    rfl
  | passwordChanged token passwordHash now nextId notifications hnext hknown hlive =>
    obtain ⟨t, ht, hp⟩ := exists_of_countP_eq_one hlive
    have hp' := hp
    simp only [Bool.and_eq_true, beq_iff_eq] at hp'
    rw [World.newEvents_advance]
    change SpendStep _ _ _ _ _ [token.id]
    rw [← hp'.1] at hp ⊢
    refine .spent _ _ _ t ht hp'.2 hp (fun t' _ hp'' => ?_) ?_ ?_ ?_ rfl
    · simp only [Bool.and_eq_true, beq_iff_eq] at hp''
      exact hp''.1
    · exact fun _ => rfl
    · exact fun _ => rfl
    · simp
  | _ =>
    rw [World.newEvents_advance]
    exact .same rfl

theorem Effect.challengeStep (h : Effect env pid w w') :
    SpendStep w.store.nextId TwoFactorChallenge.id TwoFactorChallenge.unused
      w.store.twoFactorChallenges w'.store.twoFactorChallenges
      (answeredChallenges (w.newEvents w')) := by
  cases h with
  | idle =>
    rw [World.newEvents_self]
    exact .same rfl
  | everythingRevoked userId now =>
    rw [World.newEvents_advance]
    exact .kept _ rfl
  | passwordChanged token passwordHash now nextId notifications hnext hknown hlive =>
    rw [World.newEvents_advance]
    exact .kept _ rfl
  | twoFactorDisabled credential proof now hknown hspent =>
    rw [World.newEvents_advance]
    exact .kept _ rfl
  | challengeCreated userId tokenHash expiresAt now context =>
    rw [World.newEvents_advance]
    refine .issued _ _ (Nat.le_refl _) ?_ rfl
    rfl
  | challengeConsumed challenge credential proof tokenHash expiresAt now hanswered hlive hspent
      hsound =>
    obtain ⟨c, hc, hp⟩ := exists_of_countP_eq_one hlive
    have hp' := hp
    simp only [Bool.and_eq_true, beq_iff_eq] at hp'
    rw [World.newEvents_advance, ← hp'.1.1]
    rw [← hp'.1.1] at hp
    refine .spent _ (fun _ => true) _ c hc hp'.1.2 hp (fun c' _ hp'' => ?_) ?_ ?_ rfl
      (by rw [List.filter_true]; rfl)
    · simp only [Bool.and_eq_true, beq_iff_eq] at hp''
      exact hp''.1.1
    · exact fun _ => rfl
    · exact fun _ => rfl
  | _ =>
    rw [World.newEvents_advance]
    exact .same rfl

end Tables

/-! ## One open token for every user -/

/-- No user has two unconsumed tokens of a kind, and all tokens belong to old users. -/
structure Store.OneTokenEach (s : Store) : Prop where
  verification : OneEach EmailVerificationToken.userId EmailVerificationToken.unused
    s.emailVerificationTokens
  verificationUsers : Below s.nextId EmailVerificationToken.userId s.emailVerificationTokens
  reset : OneEach PasswordResetToken.userId PasswordResetToken.unused s.passwordResetTokens

theorem oneTokenEach_empty : Store.empty.OneTokenEach := by
  constructor <;> simp [Store.empty, OneEach, Below]

section Steps
variable {env : Environment} {pid : Nat} {w w' : World}

theorem Effect.oneTokenEach (h : Effect env pid w w') (ho : w.store.OneTokenEach) :
    w'.store.OneTokenEach := by
  have hle := h.nextId_le
  have husers := ho.verificationUsers.mono hle
  cases h with
  | accountCreated =>
    refine ⟨ho.verification.issue fun t ht howner => ?_,
      ho.verificationUsers.concat hle (Nat.lt_add_of_pos_right (by decide)), ho.reset⟩
    -- the user is new
    have hlt := ho.verificationUsers t ht
    change t.userId = w.store.nextId at howner
    lia
  | verificationTokenReplaced userId email tokenHash expiresAt huser =>
    refine ⟨(ho.verification.filter _).issue fun t ht howner => ?_,
      (ho.verificationUsers.filter _).concat hle (Nat.lt_succ_of_lt huser), ho.reset⟩
    have hkept := (List.mem_filter.mp ht).2
    change t.userId = userId at howner
    simpa [howner, EmailVerificationToken.unused] using hkept
  | emailVerified token now verifiedAt hknown hlive =>
    refine ⟨ho.verification.updateRows ?_, ho.verificationUsers.updateRows ?_, ho.reset⟩
    · exact fun _ => rfl
    · exact fun _ => rfl
  | resetTokenReplaced userId tokenHash expiresAt huser =>
    refine ⟨ho.verification, husers, (ho.reset.filter _).issue fun t ht howner => ?_⟩
    have hkept := (List.mem_filter.mp ht).2
    change t.userId = userId at howner
    simpa [howner, PasswordResetToken.unused] using hkept
  | passwordChanged token passwordHash now nextId notifications hnext hknown hlive =>
    refine ⟨ho.verification, husers, OneEach.filter (ho.reset.updateRows ?_) _⟩
    exact fun _ => rfl
  | _ => exact ⟨ho.verification, husers, ho.reset⟩

/-! ## What a token does -/

/-- A verification token is consumed in the action that verifies the e-mail of its user. -/
theorem Effect.verifies (h : Effect env pid w w') {q userId id : Nat}
    (he : (q, .emailVerified userId id) ∈ w.newEvents w') :
    (∃ t ∈ w.store.emailVerificationTokens, t.id = id ∧ t.userId = userId ∧ t.consumedAt = none) ∧
      (∃ x ∈ w'.store.users, x.id = userId) ∧
      ∀ x ∈ w'.store.users, x.id = userId → x.emailVerifiedAt ≠ none := by
  cases h with
  | emailVerified token now verifiedAt hknown hlive hpresent =>
    rw [World.newEvents_advance] at he
    simp only [List.map_cons, List.map_nil, List.mem_singleton, Prod.mk.injEq,
      Event.emailVerified.injEq] at he
    obtain ⟨-, rfl, rfl⟩ := he
    obtain ⟨t, ht, hp⟩ := exists_of_countP_eq_one hlive
    simp only [Bool.and_eq_true, beq_iff_eq, Option.isNone_iff_eq_none] at hp
    refine ⟨⟨t, ht, hp.1, hknown.2 t ht hp.1, hp.2⟩, ?_, fun x hx hid => ?_⟩
    · obtain ⟨u, hu, hid⟩ := hpresent
      exact ⟨_, mem_updateRows.mpr (.inr ⟨u, hu, by simpa using hid, rfl⟩), hid⟩
    rcases mem_updateRows.mp hx with ⟨-, hp⟩ | ⟨y, -, -, rfl⟩
    · simp [hid] at hp
    · exact Option.some_ne_none _
  | idle => simp at he
  | _ =>
    rw [World.newEvents_advance] at he
    simp at he

/-- A reset token is consumed in the action that changes the password of its user and ends
all sessions and challenges of the user. -/
theorem Effect.resets (h : Effect env pid w w') {q userId id : Nat} {hash : String}
    (he : (q, .passwordReset userId id hash) ∈ w.newEvents w') :
    w.newEvents w' = [(pid, .passwordReset userId id hash)] ∧
      (∃ t ∈ w.store.passwordResetTokens, t.id = id ∧ t.userId = userId ∧ t.consumedAt = none) ∧
      (∃ x ∈ w'.store.users, x.id = userId) ∧
      (∀ x ∈ w'.store.users, x.id = userId → x.passwordHash = some hash) ∧
      (∀ x ∈ w'.store.sessions, x.userId = userId → x.revokedAt ≠ none) ∧
      (∀ c ∈ w'.store.twoFactorChallenges, c.userId ≠ userId) ∧
      ∀ t ∈ w'.store.passwordResetTokens, t.userId = userId → t.consumedAt ≠ none := by
  cases h with
  | passwordChanged token passwordHash now nextId notifications hnext hknown hlive hpresent =>
    rw [World.newEvents_advance] at he ⊢
    simp only [List.map_cons, List.map_nil, List.mem_singleton, Prod.mk.injEq,
      Event.passwordReset.injEq] at he
    obtain ⟨-, rfl, rfl, rfl⟩ := he
    obtain ⟨t, ht, hp⟩ := exists_of_countP_eq_one hlive
    simp only [Bool.and_eq_true, beq_iff_eq, Option.isNone_iff_eq_none] at hp
    -- in one transaction the token, the password, the sessions, the challenges and the other tokens
    refine ⟨rfl, ⟨t, ht, hp.1, hknown.2 t ht hp.1, hp.2⟩, ?_, fun x hx hid => ?_,
      fun x hx huser => ?_, fun c hc huser => ?_, fun t' ht' huser => ?_⟩
    · obtain ⟨u, hu, hid⟩ := hpresent
      exact ⟨_, mem_updateRows.mpr (.inr ⟨u, hu, by simpa using hid, rfl⟩), hid⟩
    · rcases mem_updateRows.mp hx with ⟨-, hp⟩ | ⟨y, -, -, rfl⟩
      · simp [hid] at hp
      · rfl
    · rcases mem_updateRows.mp hx with ⟨-, hp⟩ | ⟨y, -, -, rfl⟩
      · intro hlive
        simp [huser, hlive] at hp
      · exact Option.some_ne_none _
    · have hkept := (List.mem_filter.mp hc).2
      simp [huser] at hkept
    · obtain ⟨hmem, hkept⟩ := List.mem_filter.mp ht'
      rcases mem_updateRows.mp hmem with ⟨-, hp⟩ | ⟨y, -, -, rfl⟩
      · intro hnone
        have hid : t'.id = token.id := by simpa [huser] using hkept
        simp [hid, hnone] at hp
      · exact Option.some_ne_none _
  | idle => simp at he
  | _ =>
    rw [World.newEvents_advance] at he
    simp at he

/-- A challenge is consumed in the action that creates a session of its user. -/
theorem Effect.answers (h : Effect env pid w w') (hn : Numbered w.store) {q userId sessionId id : Nat}
    (he : (q, .sessionCreated userId sessionId (.challenge id)) ∈ w.newEvents w') :
    (∃ c ∈ w.store.twoFactorChallenges, c.id = id ∧ c.userId = userId ∧ c.consumedAt = none) ∧
      (∀ x ∈ w.store.sessions, x.id ≠ sessionId) ∧
      ∃ x ∈ w'.store.sessions, x.id = sessionId ∧ x.userId = userId ∧ x.revokedAt = none := by
  cases h with
  | challengeConsumed challenge credential proof tokenHash expiresAt now hanswered hlive hspent
      hsound =>
    rw [World.newEvents_advance] at he
    simp only [List.map_cons, List.map_nil, List.mem_cons, Prod.mk.injEq, reduceCtorEq, and_false,
      Event.sessionCreated.injEq, SessionOrigin.challenge.injEq, List.not_mem_nil, or_false,
      false_or] at he
    obtain ⟨-, rfl, rfl, rfl⟩ := he
    obtain ⟨c, hc, hp⟩ := exists_of_countP_eq_one hlive
    simp only [Bool.and_eq_true, beq_iff_eq, Option.isNone_iff_eq_none] at hp
    refine ⟨⟨c, hc, hp.1.1, hanswered.2 c hc hp.1.1, hp.1.2⟩,
      fun x hx => Nat.ne_of_lt (hn.sessions.1 x hx), _,
      List.mem_append_right _ (List.mem_singleton_self _), rfl, rfl, rfl⟩
  | idle => simp at he
  | _ =>
    rw [World.newEvents_advance] at he
    simp at he

/-! ## What else happens to an address and a password -/

/-- What an action has done to the columns of a user that tokens are for. -/
structure UserStep (w w' : World) (x x' : User) : Prop where
  id : x.id = x'.id
  email : x'.emailVerifiedAt = x.emailVerifiedAt ∨
    ∃ q, (∃ tokenId, (q, .emailVerified x'.id tokenId) ∈ w.newEvents w') ∨
      (q, .oauthVerified x'.id) ∈ w.newEvents w'
  password : x'.passwordHash = x.passwordHash ∨
    ∃ q tokenId hash, (q, .passwordReset x'.id tokenId hash) ∈ w.newEvents w' ∧
      x'.passwordHash = some hash

theorem UserStep.same {x x' : User} (hid : x.id = x'.id)
    (hemail : x'.emailVerifiedAt = x.emailVerifiedAt) (hpassword : x'.passwordHash = x.passwordHash) :
    UserStep w w' x x' := ⟨hid, .inl hemail, .inl hpassword⟩

theorem userStep_updateRows {p : User → Bool} {f : User → User} {x' : User}
    (hx : x' ∈ updateRows p f w.store.users)
    (hf : ∀ x ∈ w.store.users, p x = true → UserStep w w' x (f x)) :
    ∃ x ∈ w.store.users, UserStep w w' x x' := by
  rcases mem_updateRows.mp hx with ⟨hx, -⟩ | ⟨x, hx₀, hp, rfl⟩
  · exact ⟨x', hx, .same rfl rfl rfl⟩
  · exact ⟨x, hx₀, hf x hx₀ hp⟩

theorem Effect.userStep (h : Effect env pid w w') {x' : User} (hx : x' ∈ w'.store.users) :
    (∃ x ∈ w.store.users, UserStep w w' x x') ∨ x'.id = w.store.nextId := by
  cases h with
  | accountCreated user _ _ tokenHash expiresAt context huser hunverified hsound =>
    rcases List.mem_append.mp hx with hx | hx
    · exact .inl ⟨x', hx, .same rfl rfl rfl⟩
    · rw [List.mem_singleton.mp hx]
      exact .inr huser
  | oauthLinked profile email now user nextId users accounts hnext h =>
    obtain ⟨user', s₁, p, f, hf, hcolumns, hselected, heq, -⟩ := linkOAuthAccount_ok h
    have husers : users = updateRows p f s₁.users := congrArg Store.users heq
    rw [World.advance_store, husers] at hx
    -- the update is of the user who signs in, and the event says so
    have hlinked : ∀ x, p x = true →
        UserStep w (w.advance pid ({ w.store with nextId, users, oauthAccounts := accounts },
          [.oauthVerified user.id])) x (f x) := by
      intro x hp
      refine ⟨(hcolumns x).1.symm, .inr ⟨pid, .inr ?_⟩, .inl (hcolumns x).2.2⟩
      rw [World.newEvents_advance, (hcolumns x).1, hselected x hp]
      exact List.mem_singleton_self _
    rcases mem_updateRows.mp hx with ⟨hx, -⟩ | ⟨x, hx₀, hp, rfl⟩
    · rcases findOrCreateOAuthUser_ok hf with rfl | ⟨rows, _, rfl, rfl | ⟨u, hu, rfl⟩⟩
      · exact .inl ⟨x', hx, .same rfl rfl rfl⟩
      · exact .inl ⟨x', hx, .same rfl rfl rfl⟩
      · rcases List.mem_append.mp hx with hx | hx
        · exact .inl ⟨x', hx, .same rfl rfl rfl⟩
        · rw [List.mem_singleton.mp hx]
          exact .inr hu
    · rcases findOrCreateOAuthUser_ok hf with rfl | ⟨rows, _, rfl, rfl | ⟨u, hu, rfl⟩⟩
      · exact .inl ⟨x, hx₀, hlinked x hp⟩
      · exact .inl ⟨x, hx₀, hlinked x hp⟩
      · rcases List.mem_append.mp hx₀ with hx₀ | hx₀
        · exact .inl ⟨x, hx₀, hlinked x hp⟩
        · right
          rw [(hcolumns x).1, List.mem_singleton.mp hx₀]
          exact hu
  | signedIn userId tokenHash expiresAt now context hsound =>
    exact .inl (userStep_updateRows hx fun x _ _ => .same rfl rfl rfl)
  | profileUpdated userId displayName =>
    exact .inl (userStep_updateRows hx fun x _ _ => .same rfl rfl rfl)
  | emailVerified token now verifiedAt hknown hlive =>
    refine .inl (userStep_updateRows hx fun x _ hp =>
      ⟨rfl, .inr ⟨pid, .inl ⟨token.id, ?_⟩⟩, .inl rfl⟩)
    have hid : x.id = token.userId := by simpa using hp
    simp [hid]
  | passwordChanged token passwordHash now nextId notifications hnext hknown hlive =>
    refine .inl (userStep_updateRows hx fun x _ hp =>
      ⟨rfl, .inl rfl, .inr ⟨pid, token.id, passwordHash, ?_, rfl⟩⟩)
    have hid : x.id = token.userId := by simpa using hp
    simp [hid]
  | challengeConsumed challenge credential proof tokenHash expiresAt now hanswered hlive hspent
      hsound =>
    exact .inl (userStep_updateRows hx fun x _ _ => .same rfl rfl rfl)
  | _ => exact .inl ⟨x', hx, .same rfl rfl rfl⟩

/-- Tokens of the three kinds take effect in the actions that consume them, and what they
are for happens in no other action. -/
structure TokensApplied (w w' : World) : Prop where
  verification : ∀ t ∈ w.store.emailVerificationTokens, t.unused = true →
    ((∃ t' ∈ w'.store.emailVerificationTokens, t'.id = t.id ∧ t'.unused = false) ↔
      t.id ∈ verifiedTokens (w.newEvents w'))
  reset : ∀ t ∈ w.store.passwordResetTokens, t.unused = true →
    ((∃ t' ∈ w'.store.passwordResetTokens, t'.id = t.id ∧ t'.unused = false) ↔
      t.id ∈ resetTokens (w.newEvents w'))
  challenge : ∀ c ∈ w.store.twoFactorChallenges, c.unused = true →
    ((∃ c' ∈ w'.store.twoFactorChallenges, c'.id = c.id ∧ c'.unused = false) ↔
      c.id ∈ answeredChallenges (w.newEvents w'))
  verifies : ∀ q userId id, (q, .emailVerified userId id) ∈ w.newEvents w' →
    (∃ t ∈ w.store.emailVerificationTokens, t.id = id ∧ t.userId = userId ∧ t.consumedAt = none) ∧
      (∃ x ∈ w'.store.users, x.id = userId) ∧
      ∀ x ∈ w'.store.users, x.id = userId → x.emailVerifiedAt ≠ none
  resets : ∀ q userId id hash, (q, .passwordReset userId id hash) ∈ w.newEvents w' →
    (∃ t ∈ w.store.passwordResetTokens, t.id = id ∧ t.userId = userId ∧ t.consumedAt = none) ∧
      (∃ x ∈ w'.store.users, x.id = userId) ∧
      (∀ x ∈ w'.store.users, x.id = userId → x.passwordHash = some hash) ∧
      ∀ x ∈ w'.store.sessions, x.userId = userId → x.revokedAt ≠ none
  answers : ∀ q userId sessionId id,
    (q, .sessionCreated userId sessionId (.challenge id)) ∈ w.newEvents w' →
    (∃ c ∈ w.store.twoFactorChallenges, c.id = id ∧ c.userId = userId ∧ c.consumedAt = none) ∧
      (∀ x ∈ w.store.sessions, x.id ≠ sessionId) ∧
      ∃ x ∈ w'.store.sessions, x.id = sessionId ∧ x.userId = userId ∧ x.revokedAt = none
  users : ∀ x' ∈ w'.store.users, (∃ x ∈ w.store.users, UserStep w w' x x') ∨
    ∀ x ∈ w.store.users, x.id ≠ x'.id

theorem Effect.tokensApplied (h : Effect env pid w w') (hn : Numbered w.store) :
    TokensApplied w w' where
  verification _ ht hunused := h.verificationStep.spent_iff hn.verificationTokens ht hunused
  reset _ ht hunused := h.resetStep.spent_iff hn.resetTokens ht hunused
  challenge _ hc hunused := h.challengeStep.spent_iff hn.challenges hc hunused
  verifies _ _ _ he := h.verifies he
  resets q userId id hash he := by
    obtain ⟨-, htoken, huser, hpassword, hsessions, -⟩ := h.resets he
    exact ⟨htoken, huser, hpassword, hsessions⟩
  answers _ _ _ _ he := h.answers hn he
  users x' hx := by
    rcases h.userStep hx with hold | hid
    · exact .inl hold
    · right
      intro x hx heq
      have hlt := hn.users.1 x hx
      lia

end Steps

/-! ## Failing requests -/

section Failing
open Process
variable (env : Environment)

theorem deliver_observed : deliver.Observed := by
  refine ReadOnly.observed (.bind (readOnly_ask _) fun failure => ?_)
  cases failure with
  | none => exact True.intro
  | some message => exact True.intro

theorem buildAuthentication_observed (user : User) (refreshToken : String) (expiresAt : Time) :
    (buildAuthentication env user refreshToken expiresAt).Observed := by
  refine ReadOnly.observed (.bind (readOnly_ask _) fun jti => ?_)
  exact True.intro

theorem getExpiration_observed (ttl : Time) :
    (do let now ← Process.ask Input.now; return now + ttl : Handler Time).Observed := by
  refine ReadOnly.observed (.bind (readOnly_ask _) fun now => ?_)
  exact True.intro

theorem register_observed (dto : RegisterDto) (context : ClientContext) :
    (register env dto context).Observed := by
  unfold register
  refine .bind (readOnly_ask _).observed fun salt => .bind (readOnly_ask _).observed fun refresh =>
    .bind (readOnly_ask _).observed fun verification => ?_
  refine .bind (getExpiration_observed _) fun refreshExpiresAt =>
    .bind (getExpiration_observed _) fun verificationExpiresAt => ?_
  refine .bind (readOnly_ask _).observed fun now => .bind (.handle ?_ fun error => ?_)
    fun registration => ?_
  · exact observed_atomically fun r => by simp
  · split
    · exact True.intro
    · exact True.intro
  · exact .bind deliver_observed fun _ => buildAuthentication_observed env _ _ _

theorem requestEmailVerification_observed (userId : Id) :
    (requestEmailVerification env userId).Observed := by
  unfold requestEmailVerification
  refine .bind (readOnly_query _).observed fun found => ?_
  split
  · exact True.intro
  · refine .bind (readOnly_ask _).observed fun token => .bind (getExpiration_observed _)
      fun expiresAt => .bind (observed_atomically fun tokenId => by simp) fun _ => ?_
    exact deliver_observed.bind fun _ => True.intro

theorem forgotPassword_observed (email : String) : (forgotPassword env email).Observed := by
  unfold forgotPassword
  refine .bind (readOnly_query _).observed fun found => ?_
  split
  · exact True.intro
  · refine .bind (readOnly_ask _).observed fun token => .bind (getExpiration_observed _)
      fun expiresAt => .bind (observed_atomically fun tokenId => by simp) fun _ => ?_
    exact deliver_observed.bind fun _ => True.intro

theorem confirmEmailVerification_allOrNothing (token : String) :
    (confirmEmailVerification env token).AllOrNothing := by
  unfold confirmEmailVerification
  refine .bind (readOnly_query _) fun found => .bind (readOnly_ask _) fun clock => ?_
  split
  · exact allOrNothing_atomically fun _ => True.intro
  · exact True.intro

theorem resetPassword_allOrNothing (dto : ResetPasswordDto) :
    (resetPassword env dto).AllOrNothing := by
  unfold resetPassword
  refine .bind (readOnly_query _) fun found => .bind (readOnly_ask _) fun clock => ?_
  split
  · refine .bind (readOnly_ask _) fun salt => .bind (readOnly_ask _) fun now => ?_
    exact allOrNothing_atomically fun _ => True.intro
  · exact True.intro

/-- The requests that send a token by mail, after they have committed it. -/
def Request.issuesToken : Request → Bool
  | .register _ _ => true
  | .requestEmailVerification _ => true
  | .forgotPassword _ => true
  | _ => false

/-- The requests that consume a token. -/
def Request.consumesToken : Request → Bool
  | .confirmEmailVerification _ => true
  | .resetPassword _ => true
  | .verifyLoginChallenge _ _ => true
  | _ => false

theorem handler_observed {r : Request} (h : r.issuesToken = true) : (handler env r).Observed := by
  cases r with
  | register dto context => exact (register_observed env dto context).map _
  | requestEmailVerification userId => exact (requestEmailVerification_observed env userId).map _
  | forgotPassword email => exact (forgotPassword_observed env email).map _
  | _ => cases h

theorem consumes_allOrNothing {r : Request} (h : r.consumesToken = true) :
    (handler env r).AllOrNothing := by
  cases r with
  | confirmEmailVerification token =>
    exact (confirmEmailVerification_allOrNothing env token).map _
  | resetPassword dto => exact (resetPassword_allOrNothing env dto).map _
  | verifyLoginChallenge challengeToken code =>
    exact (verifyLoginChallenge_allOrNothing env challengeToken code).map _
  | _ => cases h

end Failing

/-! ## Runs -/

/-- No token of the three kinds has been used twice, and every user has one open token
of a kind at most. -/
structure TokensOnce (w : World) : Prop where
  verification : SpentOnce w.store.nextId EmailVerificationToken.id EmailVerificationToken.unused
    w.store.emailVerificationTokens (verifiedTokens w.trace)
  reset : SpentOnce w.store.nextId PasswordResetToken.id PasswordResetToken.unused
    w.store.passwordResetTokens (resetTokens w.trace)
  challenge : SpentOnce w.store.nextId TwoFactorChallenge.id TwoFactorChallenge.unused
    w.store.twoFactorChallenges (answeredChallenges w.trace)
  each : w.store.OneTokenEach

theorem Effect.tokensOnce {env : Environment} {pid : Nat} {w w' : World}
    (h : Effect env pid w w') (hn : Numbered w.store) (ho : TokensOnce w) : TokensOnce w' := by
  have hle := h.nextId_le
  obtain ⟨es, htrace⟩ := h.trace
  have hnew : w'.trace = w.trace ++ w.newEvents w' := by
    rw [World.newEvents, htrace, List.drop_left]
  constructor
  · rw [hnew, verifiedTokens, List.filterMap_append]
    exact ho.verification.step h.verificationStep hn.verificationTokens hle
  · rw [hnew, resetTokens, List.filterMap_append]
    exact ho.reset.step h.resetStep hn.resetTokens hle
  · rw [hnew, answeredChallenges, List.filterMap_append]
    exact ho.challenge.step h.challengeStep hn.challenges hle
  · exact h.oneTokenEach ho.each

/-- Over every run: no token is used twice; a token has its effect exactly in the action
that consumes it; a request that fails changed nothing, unless it failed to mail a token
it had committed; and every user has at most one open token of a kind. -/
theorem single_use_tokens (env : Environment) (s : Store) (hn : Numbered s) (ho : s.OneTokenEach)
    (acts : List (Action Request Input)) :
    (verifiedTokens ((Config.init s : Auth.Config).run (handler env) acts).world.trace).Nodup ∧
    (resetTokens ((Config.init s : Auth.Config).run (handler env) acts).world.trace).Nodup ∧
    (answeredChallenges ((Config.init s : Auth.Config).run (handler env) acts).world.trace).Nodup ∧
    ((Config.init s : Auth.Config).run (handler env) acts).world.store.OneTokenEach ∧
    Config.Along TokensApplied (handler env) (Config.init s : Auth.Config) acts ∧
    ∀ before after pid i r e, acts = before ++ .advance pid i :: after →
      (r.issuesToken = true ∨ r.consumesToken = true) →
      ((Config.init s : Auth.Config).run (handler env) acts).outcome pid = some (r, .error e) →
      ((Config.init s : Auth.Config).run (handler env) (before ++ [.advance pid i])).world.store =
        ((Config.init s : Auth.Config).run (handler env) before).world.store ∨
      r.issuesToken = true ∧ ((Config.init s : Auth.Config).run (handler env) before).world.newEvents
        ((Config.init s : Auth.Config).run (handler env) (before ++ [.advance pid i])).world ≠ [] := by
  have honce : TokensOnce ((Config.init s : Auth.Config).run (handler env) acts).world := by
    refine Config.Meets.invariant (fun r _ _ _ _ hnew => handler_ensures env r hnew)
      (Config.Meets.init hn) (A := fun _ _ => True) (P := TokensOnce)
      ⟨SpentOnce.nil, SpentOnce.nil, SpentOnce.nil, ho⟩ ?_ (Config.Along.trivial acts)
    exact fun pid w w' hn _ he _ h => he.tokensOnce hn h
  refine ⟨honce.verification.nodup, honce.reset.nodup, honce.challenge.nodup, honce.each, ?_, ?_⟩
  · refine Config.Meets.along (fun r _ _ _ _ hnew => handler_ensures env r hnew)
      (Config.Meets.init hn) (P := fun _ => True) True.intro (fun w hn _ => ?_) ?_
    · exact Effect.tokensApplied (.idle : Effect env 0 w w) hn
    · exact fun pid w w' hn _ he _ => ⟨he.tokensApplied hn, True.intro⟩
  · rintro before after pid i r e rfl hr hout
    rcases hr with hr | hr
    · by_cases hquiet : ((Config.init s : Auth.Config).run (handler env) before).world.newEvents
          ((Config.init s : Auth.Config).run (handler env)
            (before ++ [.advance pid i])).world = []
      · exact .inl (Config.unchanged_of_unobserved (handler_observed env hr) hout hquiet)
      · exact .inr ⟨hr, hquiet⟩
    · exact .inl (Config.unchanged_of_failed (consumes_allOrNothing env hr) hout)

/-- Two requests confirm the same address, and one of them consumes the token. -/
def confirmedTwice : List (Action Request Input) :=
  [.request (.register ⟨"a@example.org", "password", none⟩ ⟨none, none⟩)] ++
    advances 0 12 (.at 0 "first") ++
  [.request (.confirmEmailVerification "first"), .request (.confirmEmailVerification "first")] ++
    advances 1 2 (.at 0 "") ++ advances 2 2 (.at 0 "") ++ advances 1 1 (.at 0 "")

theorem single_use_tokens_raced :
    (∃ x ∈ ((Config.init Store.empty : Auth.Config).run (handler .transparent)
        confirmedTwice).world.store.users, x.emailVerifiedAt = some 0) ∧
    ((Config.init Store.empty : Auth.Config).run (handler .transparent)
      (confirmedTwice ++ [.advance 2 (.at 0 "")])).world.store =
        ((Config.init Store.empty : Auth.Config).run (handler .transparent)
          confirmedTwice).world.store := by
  have h := single_use_tokens .transparent Store.empty numbered_empty oneTokenEach_empty
    (confirmedTwice ++ [.advance 2 (.at 0 "")])
  have hlost : ((Config.init Store.empty : Auth.Config).run (handler .transparent)
      (confirmedTwice ++ [.advance 2 (.at 0 "")])).outcome 2 =
        some (.confirmEmailVerification "first",
          .error (.http .badRequest "Verification token has already been used")) := by
    decide +kernel
  constructor
  · decide +kernel
  · rcases h.2.2.2.2.2 confirmedTwice [] 2 (.at 0 "") _ _ rfl (.inr rfl) hlost with hsame | ⟨hissues, -⟩
    · exact hsame
    · cases hissues

end ShipFlow.Auth
