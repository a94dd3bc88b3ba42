import ShipFlow.Auth.SingleUseTokens
import ShipFlow.Auth.TwoFactorSessions

/-! What a password reset leaves of a login. A login reads the password in one action
and opens its session or its challenge in a later one. -/

namespace ShipFlow.Auth
open Interleaving Relational

/-- The session goes back to this login: it is the login's own, or an answer to its
challenge, or a rotation of such a session. -/
inductive ComesFrom (t : List (Nat × Event)) (login userId : Nat) : Id → Prop where
  | firstFactor {sessionId : Nat}
      (h : (login, .sessionCreated userId sessionId .firstFactor) ∈ t) :
    ComesFrom t login userId sessionId
  | challenge {q sessionId challengeId : Nat}
      (hissued : (login, .challengeCreated userId challengeId) ∈ t)
      (h : (q, .sessionCreated userId sessionId (.challenge challengeId)) ∈ t) :
    ComesFrom t login userId sessionId
  | rotation {q sessionId old : Nat} (hold : ComesFrom t login userId old)
      (h : (q, .sessionCreated userId sessionId (.rotation old)) ∈ t) :
    ComesFrom t login userId sessionId

def Event.resetUser : Event → Option Id
  | .passwordReset userId _ _ => some userId
  | _ => none

/-- What happened after the login had read the password of the user. -/
def sinceLoginFound (login userId : Nat) (t : List (Nat × Event)) : List (Nat × Event) :=
  since (fun e => e == (login, .loginFound userId)) t

/-- The password that the login was verified against has been replaced. -/
def Outdated (login userId : Nat) (t : List (Nat × Event)) : Prop :=
  ∃ e ∈ sinceLoginFound login userId t, e.2.resetUser = some userId

instance (login userId : Nat) (t : List (Nat × Event)) : Decidable (Outdated login userId t) :=
  inferInstanceAs (Decidable (∃ e ∈ sinceLoginFound login userId t, e.2.resetUser = some userId))

/-- No open session or challenge goes back to a replaced password, and every reset token
that is open, or was used, after a reset was issued after it. -/
structure CutOff (w : World) : Prop where
  sessions : ∀ x ∈ w.store.sessions, x.revokedAt = none → ∀ login,
    ComesFrom w.trace login x.userId x.id → ¬ Outdated login x.userId w.trace
  challenges : ∀ c ∈ w.store.twoFactorChallenges, c.consumedAt = none → ∀ login,
    (login, .challengeCreated c.userId c.id) ∈ w.trace → ¬ Outdated login c.userId w.trace
  tokens : ∀ t t' q userId id hash, w.trace = t ++ (q, .passwordReset userId id hash) :: t' →
    (∀ x ∈ w.store.passwordResetTokens, x.userId = userId → x.consumedAt = none →
      ∃ p, (p, .passwordResetIssued userId x.id) ∈ t') ∧
    ∀ q' id' hash', (q', .passwordReset userId id' hash') ∈ t' →
      ∃ p, (p, .passwordResetIssued userId id') ∈ t'

/-- The user for whom a login opens a session or a challenge. -/
def Event.loginUser : Event → Option Id
  | .sessionCreated userId _ .firstFactor => some userId
  | .challengeCreated userId _ => some userId
  | _ => none

/-- A login opens its session or its challenge while the password that it read is in use. -/
def LoginCurrent (w w' : World) : Prop :=
  ∀ e ∈ w.newEvents w', ∀ userId ∈ e.2.loginUser, ¬ Outdated e.1 userId w.trace

instance (w w' : World) : Decidable (LoginCurrent w w') :=
  inferInstanceAs (Decidable (∀ e ∈ w.newEvents w', ∀ userId ∈ e.2.loginUser,
    ¬ Outdated e.1 userId w.trace))

/-! ## What an action opens -/

section Steps
variable {env : Environment} {pid : Nat} {w w' : World}

theorem Effect.opens (h : Effect env pid w w') (hn : Numbered w.store) {p userId sessionId : Nat}
    {origin : SessionOrigin}
    (he : (p, .sessionCreated userId sessionId origin) ∈ w.newEvents w') :
    w.store.nextId ≤ sessionId ∧ sessionId < w'.store.nextId ∧
      ∃ x ∈ w'.store.sessions, x.id = sessionId ∧ x.userId = userId ∧ x.revokedAt = none := by
  cases h with
  | idle => simp at he
  | accountCreated user _ _ tokenHash expiresAt context huser hunverified hsound =>
    rw [World.newEvents_advance] at he
    simp only [List.map_cons, List.map_nil, List.mem_cons, Prod.mk.injEq, reduceCtorEq, and_false,
      Event.sessionCreated.injEq, List.not_mem_nil, or_false, false_or] at he
    obtain ⟨-, rfl, rfl, -⟩ := he
    refine ⟨Nat.le_add_right _ _, ?_, _, List.mem_append_right _ (List.mem_singleton_self _), rfl,
      rfl, rfl⟩
    exact Nat.add_lt_add_left (by decide) _
  | signedIn user tokenHash expiresAt now context hsound =>
    rw [World.newEvents_advance] at he
    simp only [List.map_cons, List.map_nil, List.mem_singleton, Prod.mk.injEq,
      Event.sessionCreated.injEq] at he
    obtain ⟨-, rfl, rfl, -⟩ := he
    refine ⟨Nat.le_refl _, ?_, _, List.mem_append_right _ (List.mem_singleton_self _), rfl,
      rfl, rfl⟩
    exact Nat.lt_add_of_pos_right (by decide)
  | rotated session tokenHash expiresAt now context hknown hlive hsound =>
    rw [World.newEvents_advance] at he
    simp only [List.map_cons, List.map_nil, List.mem_singleton, Prod.mk.injEq,
      Event.sessionCreated.injEq] at he
    obtain ⟨-, rfl, rfl, -⟩ := he
    obtain ⟨x, hx, hid, -⟩ := rotated_live hn hknown hlive
    have hlt := hn.sessions.1 x hx
    -- the update of the old session does not select the new one
    have hne : w.store.nextId ≠ session.id := by lia
    refine ⟨Nat.le_refl _, Nat.lt_add_of_pos_right (by decide), _, mem_updateRows.mpr (.inl
      ⟨List.mem_append_right _ (List.mem_singleton_self _), ?_⟩), rfl, rfl, rfl⟩
    simp [Session.issue, hne]
  | challengeConsumed challenge credential proof tokenHash expiresAt now hanswered hlive hspent
      hsound =>
    rw [World.newEvents_advance] at he
    simp only [List.map_cons, List.map_nil, List.mem_cons, Prod.mk.injEq, reduceCtorEq, and_false,
      Event.sessionCreated.injEq, List.not_mem_nil, or_false, false_or] at he
    obtain ⟨-, rfl, rfl, -⟩ := he
    refine ⟨Nat.le_refl _, ?_, _, List.mem_append_right _ (List.mem_singleton_self _), rfl,
      rfl, rfl⟩
    exact Nat.lt_add_of_pos_right (by decide)
  | _ =>
    rw [World.newEvents_advance] at he
    simp at he

theorem Effect.challenges (h : Effect env pid w w') {p userId challengeId : Nat}
    (he : (p, .challengeCreated userId challengeId) ∈ w.newEvents w') :
    w.store.nextId ≤ challengeId ∧ challengeId < w'.store.nextId ∧
      ∃ c ∈ w'.store.twoFactorChallenges,
        c.id = challengeId ∧ c.userId = userId ∧ c.consumedAt = none := by
  cases h with
  | idle => simp at he
  | challengeCreated user tokenHash expiresAt now context =>
    rw [World.newEvents_advance] at he
    simp only [List.map_cons, List.map_nil, List.mem_singleton, Prod.mk.injEq,
      Event.challengeCreated.injEq] at he
    obtain ⟨-, rfl, rfl⟩ := he
    exact ⟨Nat.le_refl _, Nat.lt_succ_self _, _,
      List.mem_append_right _ (List.mem_singleton_self _), rfl, rfl, rfl⟩
  | _ =>
    rw [World.newEvents_advance] at he
    simp at he

/-- An open reset token is an old one, or the action issued it. -/
theorem Effect.openResetToken (h : Effect env pid w w') {x : PasswordResetToken}
    (hx : x ∈ w'.store.passwordResetTokens) (hopen : x.consumedAt = none) :
    x ∈ w.store.passwordResetTokens ∨ (pid, .passwordResetIssued x.userId x.id) ∈ w.newEvents w' := by
  cases h with
  | resetTokenReplaced userId tokenHash expiresAt huser =>
    rcases List.mem_append.mp hx with hx | hx
    · exact .inl (List.mem_of_mem_filter hx)
    · rw [List.mem_singleton.mp hx, World.newEvents_advance]
      exact .inr (List.mem_singleton_self _)
  | passwordChanged token passwordHash now nextId notifications hnext hknown hlive =>
    rcases mem_updateRows.mp (List.mem_of_mem_filter hx) with ⟨hx, -⟩ | ⟨y, -, -, rfl⟩
    · exact .inl hx
    · cases hopen
  | _ => exact .inl hx

/-! ## Old events name old rows -/

def SessionOrigin.Below (n : Id) : SessionOrigin → Prop
  | .challenge challengeId => challengeId < n
  | .rotation sessionId => sessionId < n
  | _ => True

/-- The events name identifiers that have been given out. -/
structure Traced (w : World) : Prop where
  sessions : ∀ q userId sessionId origin, (q, .sessionCreated userId sessionId origin) ∈ w.trace →
    sessionId < w.store.nextId ∧ origin.Below w.store.nextId
  challenges : ∀ q userId challengeId, (q, .challengeCreated userId challengeId) ∈ w.trace →
    challengeId < w.store.nextId

theorem SessionOrigin.Below.mono {m n : Id} {origin : SessionOrigin} (h : origin.Below m)
    (hmn : m ≤ n) : origin.Below n := by
  cases origin with
  | challenge challengeId => exact Nat.lt_of_lt_of_le h hmn
  | rotation sessionId => exact Nat.lt_of_lt_of_le h hmn
  | _ => exact True.intro

theorem Traced.step (h : Traced w) (he : Effect env pid w w') (hn : Numbered w.store) :
    Traced w' := by
  have hle := he.nextId_le
  constructor
  · intro q userId sessionId origin hmem
    rw [he.trace_eq] at hmem
    rcases List.mem_append.mp hmem with hold | hnew
    · obtain ⟨hlt, hbelow⟩ := h.sessions q userId sessionId origin hold
      exact ⟨Nat.lt_of_lt_of_le hlt hle, hbelow.mono hle⟩
    · refine ⟨(he.opens hn hnew).2.1, ?_⟩
      cases origin with
      | registration => exact True.intro
      | firstFactor => exact True.intro
      | challenge challengeId =>
        obtain ⟨⟨c, hc, hid, -⟩, -⟩ := he.answers hn hnew
        exact hid ▸ Nat.lt_of_lt_of_le (hn.challenges.1 c hc) hle
      | rotation old =>
        obtain ⟨x, hx, hid, -⟩ := he.origin hn hnew
        exact hid ▸ Nat.lt_of_lt_of_le (hn.sessions.1 x hx) hle
  · intro q userId challengeId hmem
    rw [he.trace_eq] at hmem
    rcases List.mem_append.mp hmem with hold | hnew
    · exact Nat.lt_of_lt_of_le (h.challenges q userId challengeId hold) hle
    · exact (he.challenges hnew).2.1

/-- The action did not create a session with an old identifier. -/
theorem Traced.old_session (he : Effect env pid w w') (hn : Numbered w.store)
    {q userId sessionId : Nat} {origin : SessionOrigin} (hlt : sessionId < w.store.nextId)
    (hmem : (q, .sessionCreated userId sessionId origin) ∈ w'.trace) :
    (q, .sessionCreated userId sessionId origin) ∈ w.trace := by
  rw [he.trace_eq] at hmem
  rcases List.mem_append.mp hmem with hold | hnew
  · exact hold
  · have hle := (he.opens hn hnew).1
    lia

theorem Traced.old_challenge (he : Effect env pid w w') {q userId challengeId : Nat}
    (hlt : challengeId < w.store.nextId)
    (hmem : (q, .challengeCreated userId challengeId) ∈ w'.trace) :
    (q, .challengeCreated userId challengeId) ∈ w.trace := by
  rw [he.trace_eq] at hmem
  rcases List.mem_append.mp hmem with hold | hnew
  · exact hold
  · have hle := (he.challenges hnew).1
    lia

/-- Where an old session comes from was settled before the action. -/
theorem ComesFrom.old {login userId sessionId : Nat} (h : ComesFrom w'.trace login userId sessionId)
    (ht : Traced w) (he : Effect env pid w w') (hn : Numbered w.store)
    (hlt : sessionId < w.store.nextId) : ComesFrom w.trace login userId sessionId := by
  induction h with
  | firstFactor h => exact .firstFactor (Traced.old_session he hn hlt h)
  | challenge hissued h =>
    have hcreated := Traced.old_session he hn hlt h
    have hbelow := (ht.sessions _ _ _ _ hcreated).2
    exact .challenge (Traced.old_challenge he hbelow hissued) hcreated
  | rotation _ h ih =>
    have hcreated := Traced.old_session he hn hlt h
    exact .rotation (ih (ht.sessions _ _ _ _ hcreated).2) hcreated

/-! ## Steps -/

theorem Event.resetUser_eq {e : Event} {userId : Id} (h : e.resetUser = some userId) :
    ∃ id hash, e = .passwordReset userId id hash := by
  cases e with
  | passwordReset user id hash =>
    cases h
    exact ⟨id, hash, rfl⟩
  | _ => cases h

/-- A login is outdated since before the action, or the action resets the password. -/
theorem Outdated.step {login userId : Nat} (h : Outdated login userId w'.trace)
    (he : Effect env pid w w') : Outdated login userId w.trace ∨
      ∃ q id hash, (q, .passwordReset userId id hash) ∈ w.newEvents w' := by
  obtain ⟨⟨q, e⟩, hmem, huser⟩ := h
  obtain ⟨id, hash, rfl⟩ := Event.resetUser_eq huser
  unfold sinceLoginFound at hmem
  rw [he.trace_eq] at hmem
  rcases mem_since_append hmem with hold | hnew
  · exact .inl ⟨_, hold, rfl⟩
  · exact .inr ⟨q, id, hash, hnew⟩

theorem Outdated.later {login userId : Nat} (h : Outdated login userId w.trace)
    (he : Effect env pid w w') : Outdated login userId w'.trace := by
  obtain ⟨e, hmem, huser⟩ := h
  refine ⟨e, ?_, huser⟩
  unfold sinceLoginFound
  rw [he.trace_eq]
  exact since_mono hmem

theorem CutOff.step_sessions (h : CutOff w) (ht : Traced w) (he : Effect env pid w w')
    (hn : Numbered w.store) (hcurrent : LoginCurrent w w') {x : Session}
    (hx : x ∈ w'.store.sessions) (hlive : x.revokedAt = none) {login : Nat}
    (hfrom : ComesFrom w'.trace login x.userId x.id) : ¬ Outdated login x.userId w'.trace := by
  intro hout
  have hnone : ∀ q id hash, (q, .passwordReset x.userId id hash) ∉ w.newEvents w' := by
    intro q id hash hreset
    obtain ⟨-, -, -, -, hdead, -⟩ := he.resets hreset
    exact hdead x hx rfl hlive
  have hold : Outdated login x.userId w.trace := by
    rcases hout.step he with hold | ⟨q, id, hash, hreset⟩
    · exact hold
    · exact absurd hreset (hnone q id hash)
  -- an old session falls under the invariant, a new one under that of what it comes from
  rcases he.live hx hlive with hmem | ⟨p, origin, hnew⟩
  · exact h.sessions x hmem hlive login (hfrom.old ht he hn (hn.sessions.1 x hmem)) hold
  · have hfresh := (he.opens hn hnew).1
    have hcreated : ∀ {q origin}, (q, .sessionCreated x.userId x.id origin) ∈ w'.trace →
        (q, .sessionCreated x.userId x.id origin) ∈ w.newEvents w' := by
      intro q origin hmem
      rw [he.trace_eq] at hmem
      rcases List.mem_append.mp hmem with hmem | hmem
      · have hlt := (ht.sessions q x.userId x.id origin hmem).1
        lia
      · exact hmem
    cases hfrom with
    | firstFactor hmem => exact hcurrent _ (hcreated hmem) x.userId rfl hold
    | challenge hissued hmem =>
      obtain ⟨⟨c, hc, rfl, huser, hopen⟩, -⟩ := he.answers hn (hcreated hmem)
      have hissued' := Traced.old_challenge he (hn.challenges.1 c hc) hissued
      rw [← huser] at hissued' hold
      exact h.challenges c hc hopen login hissued' hold
    | rotation hfrom' hmem =>
      obtain ⟨y, hy, rfl, huser, hylive⟩ := he.origin hn (hcreated hmem)
      have hfrom'' := hfrom'.old ht he hn (hn.sessions.1 y hy)
      rw [← huser] at hfrom'' hold
      exact h.sessions y hy hylive login hfrom'' hold

theorem CutOff.step_challenges (h : CutOff w) (ht : Traced w) (he : Effect env pid w w')
    (hcurrent : LoginCurrent w w') {c : TwoFactorChallenge}
    (hc : c ∈ w'.store.twoFactorChallenges) (hopen : c.consumedAt = none) {login : Nat}
    (hissued : (login, .challengeCreated c.userId c.id) ∈ w'.trace) :
    ¬ Outdated login c.userId w'.trace := by
  intro hout
  have hold : Outdated login c.userId w.trace := by
    rcases hout.step he with hold | ⟨q, id, hash, hreset⟩
    · exact hold
    · -- a reset deletes the challenges of its user
      obtain ⟨-, -, -, -, -, hgone, -⟩ := he.resets hreset
      exact absurd rfl (hgone c hc)
  rw [he.trace_eq] at hissued
  rcases List.mem_append.mp hissued with hissued | hissued
  · rcases he.challengeStep.live_old hc (by simp [TwoFactorChallenge.unused, hopen]) with hmem | hfresh
    · exact h.challenges c hmem hopen login hissued hold
    · have hlt := ht.challenges login c.userId c.id hissued
      lia
  · exact hcurrent _ hissued c.userId rfl hold

theorem CutOff.step_tokens (h : CutOff w) (he : Effect env pid w w') {t t' : List (Nat × Event)}
    {q userId id : Nat} {hash : String}
    (htrace : w'.trace = t ++ (q, .passwordReset userId id hash) :: t') :
    (∀ x ∈ w'.store.passwordResetTokens, x.userId = userId → x.consumedAt = none →
      ∃ p, (p, .passwordResetIssued userId x.id) ∈ t') ∧
    ∀ q' id' hash', (q', .passwordReset userId id' hash') ∈ t' →
      ∃ p, (p, .passwordResetIssued userId id') ∈ t' := by
  rw [he.trace_eq, List.append_eq_append_iff] at htrace
  -- a step that resets does only that, and no token of the user is open after it
  have hnow : ∀ es es', w.newEvents w' = es ++ (q, .passwordReset userId id hash) :: es' →
      es' = [] ∧ ∀ x ∈ w'.store.passwordResetTokens, x.userId = userId → x.consumedAt ≠ none := by
    intro es es' hes
    have hmem : (q, Event.passwordReset userId id hash) ∈ w.newEvents w' := by
      rw [hes]
      exact List.mem_append_right _ List.mem_cons_self
    obtain ⟨honly, -, -, -, -, -, hused⟩ := he.resets hmem
    refine ⟨?_, hused⟩
    have hlen := congrArg List.length (honly.symm.trans hes)
    simp only [List.length_cons, List.length_nil, List.length_append] at hlen
    exact List.length_eq_zero_iff.mp (by omega)
  have hdone : ∀ es es', w.newEvents w' = es ++ (q, .passwordReset userId id hash) :: es' →
      (∀ x ∈ w'.store.passwordResetTokens, x.userId = userId → x.consumedAt = none →
        ∃ p, (p, .passwordResetIssued userId x.id) ∈ es') ∧
      ∀ q' id' hash', (q', .passwordReset userId id' hash') ∈ es' →
        ∃ p, (p, .passwordResetIssued userId id') ∈ es' := by
    intro es es' hes
    obtain ⟨rfl, hused⟩ := hnow es es' hes
    exact ⟨fun x hx huser hopen => absurd hopen (hused x hx huser), by simp⟩
  rcases htrace with ⟨es, -, hnew⟩ | ⟨es, hold, hnew⟩
  · exact hdone es t' hnew
  · cases es with
    | nil => exact hdone [] t' hnew.symm
    | cons e es =>
      rw [List.cons_append, List.cons.injEq] at hnew
      obtain ⟨rfl, rfl⟩ := hnew
      obtain ⟨hopened, hused⟩ := h.tokens t es q userId id hash hold
      refine ⟨fun x hx huser hopen => ?_, fun q' id' hash' hmem => ?_⟩
      · rcases he.openResetToken hx hopen with hmem | hissued
        · obtain ⟨p, hp⟩ := hopened x hmem huser hopen
          exact ⟨p, List.mem_append_left _ hp⟩
        · exact ⟨pid, List.mem_append_right _ (huser ▸ hissued)⟩
      · rcases List.mem_append.mp hmem with hmem | hmem
        · obtain ⟨p, hp⟩ := hused q' id' hash' hmem
          exact ⟨p, List.mem_append_left _ hp⟩
        · -- the token was open when the action used it
          obtain ⟨-, ⟨x, hx, rfl, huser, hopen⟩, -⟩ := he.resets hmem
          obtain ⟨p, hp⟩ := hopened x hx huser hopen
          exact ⟨p, List.mem_append_left _ hp⟩

theorem CutOff.step (h : CutOff w) (ht : Traced w) (he : Effect env pid w w')
    (hn : Numbered w.store) (hcurrent : LoginCurrent w w') : CutOff w' where
  sessions _ hx hlive _ hfrom := h.step_sessions ht he hn hcurrent hx hlive hfrom
  challenges _ hc hopen _ hissued := h.step_challenges ht he hcurrent hc hopen hissued
  tokens _ _ _ _ _ _ htrace := h.step_tokens he htrace

/-- A login that opens a session or a challenge later than a reset leaves it open. -/
theorem CutOff.current (h : CutOff w') (he : Effect env pid w w') (hn : Numbered w.store) :
    LoginCurrent w w' := by
  rintro ⟨p, e⟩ hmem userId huser hout
  have hlater := hout.later he
  have htrace : (p, e) ∈ w'.trace := by
    rw [he.trace_eq]
    exact List.mem_append_right _ hmem
  cases e with
  | sessionCreated user sessionId origin =>
    cases origin with
    | firstFactor =>
      cases huser
      obtain ⟨-, -, x, hx, rfl, rfl, hlive⟩ := he.opens hn hmem
      exact h.sessions x hx hlive p (.firstFactor htrace) hlater
    | _ => cases huser
  | challengeCreated user challengeId =>
    cases huser
    obtain ⟨-, -, c, hc, rfl, rfl, hopen⟩ := he.challenges hmem
    exact h.challenges c hc hopen p htrace hlater
  | _ => cases huser

end Steps

/-! ## Runs -/

theorem cutOff_init (s : Store) : CutOff (Config.init s : Auth.Config).world where
  sessions x _ _ login _ hout := by
    obtain ⟨e, hmem, -⟩ := hout
    cases hmem
  challenges c _ _ login hissued := by simp [Config.init] at hissued
  tokens t t' q userId id hash htrace := by simp [Config.init] at htrace

/-- Throughout a run a reset cuts off what goes back to an older password exactly if every
login opens its session or its challenge while the password that it read is in use. -/
theorem password_reset_cuts_off (env : Environment) (s : Store) (hn : Numbered s)
    (acts : List (Action Request Input)) :
    (∀ before after, acts = before ++ after →
      CutOff ((Config.init s : Auth.Config).run (handler env) before).world) ↔
    Config.Along LoginCurrent (handler env) (Config.init s : Auth.Config) acts := by
  have htraced : ∀ acts, Traced ((Config.init s : Auth.Config).run (handler env) acts).world := by
    intro acts
    refine Config.Meets.invariant (fun r _ _ _ _ hnew => handler_ensures env r hnew)
      (Config.Meets.init hn) (A := fun _ _ => True) (P := Traced) ?_ ?_ (Config.Along.trivial acts)
    · constructor <;> simp [Config.init]
    · exact fun pid w w' hn _ he _ h => h.step he hn
  have hiff : (∀ before after, acts = before ++ after →
      Traced ((Config.init s : Auth.Config).run (handler env) before).world ∧
        CutOff ((Config.init s : Auth.Config).run (handler env) before).world) ↔
      Config.Along LoginCurrent (handler env) (Config.init s : Auth.Config) acts := by
    refine Config.Meets.invariant_iff (fun r _ _ _ _ hnew => handler_ensures env r hnew)
      (Config.Meets.init hn) (A := LoginCurrent) (P := fun w => Traced w ∧ CutOff w) ?_ ?_ ?_
    · exact ⟨htraced [], cutOff_init s⟩
    · simp [LoginCurrent]
    · intro pid w w' hn _ he h
      exact ⟨fun h' => h'.2.current he hn,
        fun hcurrent => ⟨h.1.step he hn, h.2.step h.1 he hn hcurrent⟩⟩
  rw [← hiff]
  exact ⟨fun h before after heq => ⟨htraced before, h before after heq⟩,
    fun h before after heq => (h before after heq).2⟩

/-- A login that has verified the old password, and commits after the reset. -/
def overtakenByReset : List (Action Request Input) :=
  [.request (.register ⟨"a@example.org", "password", none⟩ ⟨none, none⟩)] ++
    advances 0 12 (.at 0 "first") ++
  [.request (.forgotPassword "a@example.org")] ++ advances 1 6 (.at 0 "reset") ++
  [.request (.login ⟨"a@example.org", "password"⟩ ⟨none, none⟩)] ++ advances 2 6 (.at 0 "second") ++
  [.request (.resetPassword ⟨"reset", "changed"⟩)] ++ advances 3 6 (.at 0 "")

theorem login_survives_reset :
    ¬ CutOff ((Config.init Store.empty : Auth.Config).run (handler .transparent)
      (overtakenByReset ++ [.advance 2 (.at 0 "second")])).world := by
  intro h
  have htrace : ((Config.init Store.empty : Auth.Config).run (handler .transparent)
      (overtakenByReset ++ [.advance 2 (.at 0 "second")])).world.trace =
      [(0, .emailVerificationIssued 0 1), (0, .sessionCreated 0 2 .registration),
        (1, .passwordResetIssued 0 4), (2, .loginFound 0), (2, .passwordVerified 0 "password"),
        (3, .passwordReset 0 4 "changed"), (2, .sessionCreated 0 6 .firstFactor)] := by
    decide +kernel
  have hlive : ∃ x ∈ ((Config.init Store.empty : Auth.Config).run (handler .transparent)
      (overtakenByReset ++ [.advance 2 (.at 0 "second")])).world.store.sessions,
      x.id = 6 ∧ x.userId = 0 ∧ x.revokedAt = none := by
    decide +kernel
  obtain ⟨x, hx, hid, huser, hrevoked⟩ := hlive
  refine h.sessions x hx hrevoked 2 (.firstFactor ?_) ?_
  · rw [htrace, hid, huser]
    simp
  · rw [htrace, huser]
    decide

theorem password_reset_cuts_off_in_time :
    Config.Along LoginCurrent (handler .transparent) (Config.init Store.empty : Auth.Config)
      overtakenByReset ∧
    CutOff ((Config.init Store.empty : Auth.Config).run (handler .transparent)
      overtakenByReset).world := by
  have hcurrent : Config.Along LoginCurrent (handler .transparent)
      (Config.init Store.empty : Auth.Config) overtakenByReset := by
    decide +kernel
  have h := (password_reset_cuts_off .transparent Store.empty numbered_empty overtakenByReset).mpr
    hcurrent
  exact ⟨hcurrent, h overtakenByReset [] (List.append_nil _).symm⟩

end ShipFlow.Auth
