import ShipFlow.Auth.Requests

/-! Sessions and enabled two-factor authentication. Between the commit that enables
it and the one that disables it, the sessions of a user should all go back to an
answered login challenge. -/

namespace ShipFlow.Auth
open Interleaving Relational

def Store.TwoFactorEnabled (s : Store) (userId : Id) : Prop :=
  ∃ c ∈ s.twoFactorCredentials, c.userId = userId ∧ c.enabledAt.isSome

instance (s : Store) (userId : Id) : Decidable (s.TwoFactorEnabled userId) :=
  inferInstanceAs (Decidable (∃ c ∈ s.twoFactorCredentials, c.userId = userId ∧ c.enabledAt.isSome))

/-- The session was created by an answered challenge, or by rotating such a session. -/
inductive Stems (t : List (Nat × Event)) (userId : Id) : Id → Prop where
  | challenge {p sessionId challengeId : Nat}
      (h : (p, .sessionCreated userId sessionId (.challenge challengeId)) ∈ t) :
    Stems t userId sessionId
  | rotation {p sessionId old : Nat}
      (h : (p, .sessionCreated userId sessionId (.rotation old)) ∈ t) (hold : Stems t userId old) :
    Stems t userId sessionId

/-- What holds of a user since the events `t` began with enabling the second factor. -/
structure Protected (t : List (Nat × Event)) (userId : Id) (s : Store) : Prop where
  stems : ∀ p sessionId origin, (p, .sessionCreated userId sessionId origin) ∈ t →
    Stems t userId sessionId
  since : ∀ x ∈ s.sessions, x.userId = userId → x.revokedAt = none →
    ∃ p origin, (p, .sessionCreated userId x.id origin) ∈ t

/-- From the commit of `confirmSetup` until the commit of `disable` no session of the
user bypasses the second factor. -/
def NoBypass (w : World) : Prop :=
  ∀ t t' p userId credentialId timeStep,
    w.trace = t ++ (p, .twoFactorEnabled userId credentialId timeStep) :: t' →
    (∀ q id, (q, .twoFactorDisabled userId id) ∉ t') → Protected t' userId w.store

/-- The user whom an event lets in, or lets start over, without the second factor. -/
def Event.firstFactorUser : Event → Option Id
  | .sessionCreated userId _ .firstFactor => some userId
  | .setupBegun userId => some userId
  | _ => none

/-- First-factor sessions are created, and setups begun, only for users whose second
factor is not enabled at that moment. -/
def FirstFactorOnly (w w' : World) : Prop :=
  ∀ e ∈ w.newEvents w', ∀ userId ∈ e.2.firstFactorUser, ¬ w.store.TwoFactorEnabled userId

instance (w w' : World) : Decidable (FirstFactorOnly w w') :=
  inferInstanceAs (Decidable (∀ e ∈ w.newEvents w', ∀ userId ∈ e.2.firstFactorUser,
    ¬ w.store.TwoFactorEnabled userId))

theorem Effect.trace_eq {pid : Nat} {w w' : World} (h : Effect env pid w w') :
    w'.trace = w.trace ++ w.newEvents w' := by
  obtain ⟨es, hes⟩ := h.trace
  rw [World.newEvents, hes, List.drop_left]

theorem Stems.mono {t t' : List (Nat × Event)} {userId sessionId : Id}
    (h : Stems t userId sessionId) : Stems (t ++ t') userId sessionId := by
  induction h with
  | challenge h => exact .challenge (List.mem_append_left _ h)
  | rotation h _ ih => exact .rotation (List.mem_append_left _ h) ih

/-! ## Steps -/

/-- Where the sessions that an action creates come from. -/
def Origin (w : World) (userId : Id) : SessionOrigin → Prop
  | .registration => userId = w.store.nextId
  | .firstFactor => True
  | .challenge _ => True
  | .rotation old => ∃ x ∈ w.store.sessions, x.id = old ∧ x.userId = userId ∧ x.revokedAt = none

theorem Effect.origin {pid : Nat} {w w' : World} (h : Effect env pid w w') (hn : Numbered w.store)
    {p userId sessionId : Nat} {origin : SessionOrigin}
    (he : (p, .sessionCreated userId sessionId origin) ∈ w.newEvents w') :
    Origin w userId origin := by
  cases h with
  | idle => simp at he
  | accountCreated user _ _ tokenHash expiresAt context huser hunverified hsound =>
    rw [World.newEvents_advance] at he
    simp only [List.map_cons, List.map_nil, List.mem_cons, Prod.mk.injEq, reduceCtorEq, and_false,
      Event.sessionCreated.injEq, List.not_mem_nil, or_false, false_or] at he
    obtain ⟨-, rfl, -, rfl⟩ := he
    exact rfl
  | signedIn user tokenHash expiresAt now context hsound =>
    rw [World.newEvents_advance] at he
    simp only [List.map_cons, List.map_nil, List.mem_singleton, Prod.mk.injEq,
      Event.sessionCreated.injEq] at he
    obtain ⟨-, -, -, rfl⟩ := he
    exact True.intro
  | rotated session tokenHash expiresAt now context hknown hlive hsound =>
    rw [World.newEvents_advance] at he
    simp only [List.map_cons, List.map_nil, List.mem_singleton, Prod.mk.injEq,
      Event.sessionCreated.injEq] at he
    obtain ⟨-, rfl, -, rfl⟩ := he
    obtain ⟨x, hx, hid, huser, -, hlive⟩ := rotated_live hn hknown hlive
    exact ⟨x, hx, hid, huser, hlive⟩
  | challengeConsumed challenge credential proof tokenHash expiresAt now hanswered hlive hspent hsound =>
    rw [World.newEvents_advance] at he
    simp only [List.map_cons, List.map_nil, List.mem_cons, Prod.mk.injEq, reduceCtorEq, and_false,
      Event.sessionCreated.injEq, List.not_mem_nil, or_false, false_or] at he
    obtain ⟨-, -, -, rfl⟩ := he
    exact True.intro
  | _ =>
    rw [World.newEvents_advance] at he
    simp at he

theorem live_of_revoke {rows : List Session} {p : Session → Bool} {now : Time}
    {reason : SessionRevocationReason} {x : Session}
    (hx : x ∈ updateRows (fun x => p x && x.revokedAt.isNone) (fun x => x.revoke now reason) rows)
    (hlive : x.revokedAt = none) : x ∈ rows ∧ p x = false := by
  rcases mem_updateRows.mp hx with ⟨hx, hp⟩ | ⟨y, -, -, rfl⟩
  · exact ⟨hx, by simpa [hlive] using hp⟩
  · cases hlive

theorem Effect.live {pid : Nat} {w w' : World} (h : Effect env pid w w') {x : Session}
    (hx : x ∈ w'.store.sessions) (hlive : x.revokedAt = none) : x ∈ w.store.sessions ∨
      ∃ p origin, (p, .sessionCreated x.userId x.id origin) ∈ w.newEvents w' := by
  cases h with
  | accountCreated user _ _ tokenHash expiresAt context huser hunverified hsound =>
    rcases List.mem_append.mp hx with hx | hx
    · exact .inl hx
    · rw [List.mem_singleton.mp hx, World.newEvents_advance]
      exact .inr ⟨pid, .registration, by simp [Session.issue]⟩
  | signedIn userId tokenHash expiresAt now context hsound =>
    rcases List.mem_append.mp hx with hx | hx
    · exact .inl hx
    · rw [List.mem_singleton.mp hx, World.newEvents_advance]
      exact .inr ⟨pid, .firstFactor, by simp [Session.issue]⟩
  | rotated session tokenHash expiresAt now context hknown hold hsound =>
    rcases mem_updateRows.mp hx with ⟨hx, -⟩ | ⟨y, -, -, rfl⟩
    · rcases List.mem_append.mp hx with hx | hx
      · exact .inl hx
      · rw [List.mem_singleton.mp hx, World.newEvents_advance]
        exact .inr ⟨pid, .rotation session.id, by simp [Session.issue]⟩
    · cases hlive
  | sessionsRevoked p now reason hreason => exact .inl (live_of_revoke hx hlive).1
  | loggedOut tokenHash now => exact .inl (live_of_revoke hx hlive).1
  | everythingRevoked userId now => exact .inl (live_of_revoke hx hlive).1
  | passwordChanged token passwordHash now nextId notifications hnext hknown htoken =>
    exact .inl (live_of_revoke hx hlive).1
  | twoFactorEnabled credential secret timeStep codeHashes now hknown hsecret hkept hpending =>
    exact .inl (live_of_revoke hx hlive).1
  | twoFactorDisabled credential proof now hknown hspent =>
    exact .inl (live_of_revoke hx hlive).1
  | challengeConsumed challenge credential proof tokenHash expiresAt now hanswered hch hspent hsound =>
    rcases List.mem_append.mp hx with hx | hx
    · exact .inl hx
    · rw [List.mem_singleton.mp hx, World.newEvents_advance]
      exact .inr ⟨pid, .challenge challenge.id, by simp [Session.issue]⟩
  | _ => exact .inl hx

theorem Store.spend_enabled {s : Store} {userId : Id} (h : s.TwoFactorEnabled userId)
    (credential : TwoFactorCredential) (proof : SecondFactorProof) (now : Time) :
    ∃ c ∈ (s.spend credential proof now).twoFactorCredentials,
      c.userId = userId ∧ c.enabledAt.isSome := by
  obtain ⟨c, hc, huser, henabled⟩ := h
  cases proof with
  | backupCode backupCodeId => exact ⟨c, hc, huser, henabled⟩
  | totp timeStep =>
    cases hp : c.id == credential.id && c.enabledAt.isSome &&
        (c.lastUsedTimeStep.all fun last => decide (last < timeStep)) with
    | true =>
      exact ⟨{ c with lastUsedTimeStep := some timeStep },
        mem_updateRows.mpr (.inr ⟨c, hc, hp, rfl⟩), huser, henabled⟩
    | false => exact ⟨c, mem_updateRows.mpr (.inl ⟨hc, hp⟩), huser, henabled⟩

/-- Only a new setup of the user, or disabling, ends the enabled state. -/
theorem Effect.enabled {pid : Nat} {w w' : World} (h : Effect env pid w w') {userId : Id}
    (he : w.store.TwoFactorEnabled userId) (hsetup : (pid, .setupBegun userId) ∉ w.newEvents w')
    (hdisabled : ∀ q id, (q, .twoFactorDisabled userId id) ∉ w.newEvents w') :
    w'.store.TwoFactorEnabled userId := by
  have hspend := Store.spend_enabled he
  obtain ⟨c, hc, huser, henabled⟩ := he
  cases h with
  | setupBegun user secret rows p hlt hcodes hrows =>
    have hne : user ≠ userId := by
      rintro rfl
      exact hsetup (by rw [World.newEvents_advance]; simp)
    rcases hrows with ⟨-, rfl⟩ | rfl
    · exact ⟨c, List.mem_append_left _ hc, huser, henabled⟩
    · have hp : (c.userId == user) = false := by
        rw [huser]
        simpa using hne.symm
      exact ⟨c, mem_updateRows.mpr (.inl ⟨hc, hp⟩), huser, henabled⟩
  | twoFactorEnabled credential secret timeStep codeHashes now hknown hsecret hkept hpending =>
    have hp : (c.id == credential.id && c.enabledAt.isNone) = false := by
      cases hn : c.enabledAt with
      | none => rw [hn] at henabled; cases henabled
      | some t => simp
    exact ⟨c, mem_updateRows.mpr (.inl ⟨hc, hp⟩), huser, henabled⟩
  | backupCodesRegenerated credential proof codeHashes now hspent => exact hspend credential proof now
  | twoFactorDisabled credential proof now hknown hspent =>
    have hne : credential.userId ≠ userId := by
      rintro rfl
      exact hdisabled pid credential.id (by rw [World.newEvents_advance]; simp)
    obtain ⟨c', hc', huser', henabled'⟩ := hspend credential proof now
    refine ⟨c', List.mem_filter.mpr ⟨hc', ?_⟩, huser', henabled'⟩
    obtain ⟨c₀, hc₀, hid, hcu, -⟩ := Store.spend_credential_keys hc'
    have hother : c'.id ≠ credential.id := fun heq =>
      hne ((hknown.2 c₀ hc₀ (hid.trans heq)).symm.trans (hcu.trans huser'))
    simpa using hother
  | challengeConsumed challenge credential proof tokenHash expiresAt now hanswered hlive hspent hsound =>
    exact hspend credential proof now
  | _ => exact ⟨c, hc, huser, henabled⟩

/-- Enabling is the last event of its action, and it leaves the user no live session. -/
theorem Effect.enables {pid : Nat} {w w' : World} (h : Effect env pid w w') {p userId id timeStep : Nat}
    {es es' : List (Nat × Event)}
    (he : w.newEvents w' = es ++ (p, .twoFactorEnabled userId id timeStep) :: es') :
    es' = [] ∧ w'.store.TwoFactorEnabled userId ∧
      ∀ x ∈ w'.store.sessions, x.userId = userId → x.revokedAt ≠ none := by
  have hmem : (p, Event.twoFactorEnabled userId id timeStep) ∈ w.newEvents w' := by
    rw [he]
    exact List.mem_append_right _ List.mem_cons_self
  cases h with
  | idle => simp at hmem
  | twoFactorEnabled credential secret step codeHashes now hknown hsecret hkept hpending =>
    rw [World.newEvents_advance] at he hmem
    simp only [List.map_cons, List.map_nil, List.mem_cons, Prod.mk.injEq, reduceCtorEq, and_false,
      Event.twoFactorEnabled.injEq, List.not_mem_nil, or_false, false_or] at hmem
    obtain ⟨rfl, rfl, rfl, rfl⟩ := hmem
    refine ⟨?_, ?_, fun x hx huser hlive => ?_⟩
    · have hlen := congrArg List.length he
      rcases es with _ | ⟨a, es⟩
      · simp at he
      · simp only [List.map_cons, List.map_nil, List.length_cons, List.length_nil,
          List.length_append] at hlen
        exact List.length_eq_zero_iff.mp (by omega)
    · obtain ⟨c, hc, hp⟩ := exists_of_countP_eq_one hpending
      have hp' := hp
      simp only [Bool.and_eq_true, beq_iff_eq] at hp'
      exact ⟨{ c with enabledAt := some now, lastUsedTimeStep := some timeStep },
        mem_updateRows.mpr (.inr ⟨c, hc, hp, rfl⟩), hknown.2 c hc hp'.1, rfl⟩
    · have hp := (live_of_revoke hx hlive).2
      simp [huser] at hp
  | _ =>
    rw [World.newEvents_advance] at hmem
    simp at hmem

/-- What the induction over a run carries. -/
def Guarded (w : World) : Prop :=
  ∀ t t' p userId credentialId timeStep,
    w.trace = t ++ (p, .twoFactorEnabled userId credentialId timeStep) :: t' →
    (∀ q id, (q, .twoFactorDisabled userId id) ∉ t') →
    w.store.TwoFactorEnabled userId ∧ Protected t' userId w.store

theorem Protected.step {pid : Nat} {w w' : World} {t : List (Nat × Event)} {userId : Id}
    (h : Protected t userId w.store) (he : Effect env pid w w') (hn : Numbered w.store)
    (hguard : FirstFactorOnly w w') (henabled : w.store.TwoFactorEnabled userId) :
    Protected (t ++ w.newEvents w') userId w'.store := by
  constructor
  · intro p sessionId origin hmem
    rcases List.mem_append.mp hmem with hold | hnew
    · exact (h.stems p sessionId origin hold).mono
    · have horigin := he.origin hn hnew
      cases origin with
      | registration =>
        -- a new user has no credential yet
        obtain ⟨c, hc, huser, -⟩ := henabled
        have hlt := hn.credentialUsers c hc
        rw [huser, horigin] at hlt
        exact absurd hlt (Nat.lt_irrefl _)
      | firstFactor => exact absurd henabled (hguard _ hnew userId rfl)
      | challenge challengeId => exact .challenge hmem
      | rotation old =>
        -- the rotated session was live, so it was created since the second factor is enabled
        obtain ⟨x, hx, rfl, huser, hlive⟩ := horigin
        obtain ⟨q, origin, hcreated⟩ := h.since x hx huser hlive
        exact .rotation hmem (h.stems q x.id origin hcreated).mono
  · intro x hx huser hlive
    rcases he.live hx hlive with hold | ⟨p, origin, hnew⟩
    · obtain ⟨q, origin, hcreated⟩ := h.since x hold huser hlive
      exact ⟨q, origin, List.mem_append_left _ hcreated⟩
    · exact ⟨p, origin, List.mem_append_right _ (huser ▸ hnew)⟩

theorem Guarded.step {pid : Nat} {w w' : World} (h : Guarded w) (he : Effect env pid w w')
    (hn : Numbered w.store) (hguard : FirstFactorOnly w w') : Guarded w' := by
  intro t t' p userId credentialId timeStep htrace hperiod
  have hnow : ∀ es es', w.newEvents w' = es ++
      (p, .twoFactorEnabled userId credentialId timeStep) :: es' →
      es' = [] ∧ w'.store.TwoFactorEnabled userId ∧ Protected [] userId w'.store := by
    intro es es' hes
    obtain ⟨hnil, henabled, hdead⟩ := he.enables hes
    refine ⟨hnil, henabled, fun q sessionId origin hmem => ?_, fun x hx huser hlive => ?_⟩
    · cases hmem
    · exact absurd hlive (hdead x hx huser)
  rw [he.trace_eq, List.append_eq_append_iff] at htrace
  rcases htrace with ⟨es, -, hnew⟩ | ⟨es, hold, hnew⟩
  · obtain ⟨rfl, henabled, hprotected⟩ := hnow es t' hnew
    exact ⟨henabled, hprotected⟩
  · cases es with
    | nil =>
      obtain ⟨rfl, henabled, hprotected⟩ := hnow [] t' hnew.symm
      exact ⟨henabled, hprotected⟩
    | cons e es =>
      rw [List.cons_append, List.cons.injEq] at hnew
      obtain ⟨rfl, rfl⟩ := hnew
      obtain ⟨henabled, hprotected⟩ := h t es p userId credentialId timeStep hold
        fun q id hmem => hperiod q id (List.mem_append_left _ hmem)
      refine ⟨he.enabled henabled (fun hsetup => ?_) fun q id hmem => ?_,
        hprotected.step he hn hguard henabled⟩
      · exact hguard _ hsetup userId rfl henabled
      · exact hperiod q id (List.mem_append_right _ hmem)

/-! ## Runs -/

/-- In every run whose first-factor sessions and new setups find the second factor of the
user not enabled, no session bypasses it. -/
theorem no_session_bypasses_two_factor (env : Environment) (s : Store) (hn : Numbered s)
    (acts : List (Action Request Input))
    (hguard : Config.Along FirstFactorOnly (handler env) (Config.init s : Auth.Config) acts) :
    NoBypass ((Config.init s : Auth.Config).run (handler env) acts).world := by
  have hguarded : Guarded ((Config.init s : Auth.Config).run (handler env) acts).world := by
    refine Config.Meets.invariant (fun r _ _ _ _ hnew => handler_ensures env r hnew)
      (Config.Meets.init hn) (A := FirstFactorOnly) (P := Guarded) ?_ ?_ hguard
    · intro t t' p userId credentialId timeStep htrace
      simp [Config.init] at htrace
    · exact fun pid w w' hn _ he hguard h => h.step he hn hguard
  exact fun t t' p userId credentialId timeStep htrace hperiod =>
    (hguarded t t' p userId credentialId timeStep htrace hperiod).2

/-- Registration, setup, and a login that answers its challenge. -/
def guardedRun : List (Action Request Input) :=
  [.request (.register ⟨"a@example.org", "password", none⟩ ⟨none, none⟩)] ++
    advances 0 12 (.at 0 "first") ++
  [.request (.beginSetup 0)] ++ advances 1 8 (.at 0 "") ++
  [.request (.confirmSetup 0 "123456")] ++ advances 2 8 (.at 30000 "") ++
  [.request (.login ⟨"a@example.org", "password"⟩ ⟨none, none⟩)] ++
    advances 3 8 (.at 60000 "challenge") ++
  [.request (.verifyLoginChallenge "challenge" "123456")] ++ advances 4 12 (.at 60000 "second")

theorem no_session_bypasses_two_factor_guarded :
    Config.Along FirstFactorOnly (handler .transparent) (Config.init Store.empty : Auth.Config)
      guardedRun ∧
    NoBypass
      ((Config.init Store.empty : Auth.Config).run (handler .transparent) guardedRun).world := by
  have hguard : Config.Along FirstFactorOnly (handler .transparent)
      (Config.init Store.empty : Auth.Config) guardedRun := by
    decide +kernel
  exact ⟨hguard, no_session_bypasses_two_factor .transparent Store.empty numbered_empty _ hguard⟩

/-- A login that has found the second factor disabled, and commits after it was enabled. -/
def overtakenLogin : List (Action Request Input) :=
  [.request (.register ⟨"a@example.org", "password", none⟩ ⟨none, none⟩)] ++
    advances 0 12 (.at 0 "first") ++
  [.request (.login ⟨"a@example.org", "password"⟩ ⟨none, none⟩)] ++ advances 1 3 (.at 0 "") ++
  [.request (.beginSetup 0)] ++ advances 2 8 (.at 0 "") ++
  [.request (.confirmSetup 0 "123456")] ++ advances 3 8 (.at 30000 "") ++
    advances 1 8 (.at 60000 "second")

theorem login_bypasses_two_factor :
    ¬ NoBypass
      ((Config.init Store.empty : Auth.Config).run (handler .transparent) overtakenLogin).world := by
  intro h
  have htrace : ((Config.init Store.empty : Auth.Config).run (handler .transparent)
      overtakenLogin).world.trace =
      [(0, .emailVerificationIssued 0 1), (0, .sessionCreated 0 2 .registration),
        (1, .loginFound 0), (1, .passwordVerified 0 "password"), (2, .setupBegun 0),
        (3, .setupFound 4), (3, .setupVerified 4 "secret" 1)] ++
      (3, .twoFactorEnabled 0 4 1) :: [(1, .sessionCreated 0 5 .firstFactor)] := by
    decide +kernel
  have hstems := (h _ _ _ _ _ _ htrace (by simp)).stems 1 5 .firstFactor (by simp)
  cases hstems with
  | challenge hmem => simp at hmem
  | rotation hmem => simp at hmem

end ShipFlow.Auth
