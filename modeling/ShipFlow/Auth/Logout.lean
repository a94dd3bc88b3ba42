import ShipFlow.Auth.TokenFamilies
import ShipFlow.Auth.TwoFactorSessions

/-! Logout next to a refresh with the same token. Either request ends the life of the
session by a conditional update. A rotation that commits first leaves a successor, and
logout, which goes by the token, does not see it. -/

namespace ShipFlow.Auth
open Interleaving Relational

def Event.loggedOutHash : Event → Option String
  | .loggedOut tokenHash => some tokenHash
  | _ => none

/-- A logout finds the session of its token unrevoked. -/
def LogoutFindsUnrevoked (w w' : World) : Prop :=
  ∀ e ∈ w.newEvents w', ∀ tokenHash ∈ e.2.loggedOutHash,
    ∃ x ∈ w.store.sessions, x.tokenHash = tokenHash ∧ x.revokedAt = none

instance (w w' : World) : Decidable (LogoutFindsUnrevoked w w') :=
  inferInstanceAs (Decidable (∀ e ∈ w.newEvents w', ∀ tokenHash ∈ e.2.loggedOutHash,
    ∃ x ∈ w.store.sessions, x.tokenHash = tokenHash ∧ x.revokedAt = none))

/-- A refresh and a logout that present the same token, both in flight. -/
def together (env : Environment) (s : Store) (token : String) (context : ClientContext) :
    Auth.Config :=
  (Config.init s : Auth.Config).run (handler env)
    [.request (.refresh token context), .request (.logout (some token))]

/-! ## The session table -/

/-- The row of a session, whatever has become of it. -/
def Session.Stored (x : Session) (s : Store) : Prop :=
  ∃ y ∈ s.sessions, y.id = x.id ∧ y.userId = x.userId ∧ y.tokenHash = x.tokenHash ∧
    y.tokenFamilyId = x.tokenFamilyId

theorem Session.Stored.step {x : Session} {w w' : World} (h : x.Stored w.store)
    (hs : SessionStep w w') : x.Stored w'.store := by
  obtain ⟨y, hy, hid, huser, hhash, hfamily⟩ := h
  obtain ⟨y', hy', hsame⟩ := hs.kept (g := fun x => (x.id, x.userId, x.tokenHash, x.tokenFamilyId))
    (fun _ _ _ => rfl) (fun _ _ _ => rfl) hy
  simp only [Prod.mk.injEq] at hsame
  exact ⟨y', hy', hsame.1.trans hid, hsame.2.1.trans huser, hsame.2.2.1.trans hhash,
    hsame.2.2.2.trans hfamily⟩

/-- Two sessions do not share a token. -/
theorem SoundSessions.eq_of_hash {rows : List Session} (h : SoundSessions rows) {x y : Session}
    (hx : x ∈ rows) (hy : y ∈ rows) (hhash : x.tokenHash = y.tokenHash) : x = y := by
  by_contra hne
  have hpairs := distinct_iff_pairwise.mp h.2
  have hsymm : Std.Symm fun a b => sessions.collides a b = false := by
    refine ⟨fun a b hab => ?_⟩
    simp only [sessions, Bool.or_eq_false_iff, beq_eq_false_iff_ne, Bool.and_eq_false_iff] at hab ⊢
    refine ⟨⟨hab.1.1.symm, hab.1.2.symm⟩, ?_⟩
    rcases hab.2 with hab | hab
    · cases hb : b.replacedById with
      | none => exact .inl rfl
      | some id =>
        right
        intro heq
        rw [← heq] at hab
        cases hab
    · exact .inr hab.symm
  have hpair := hpairs.forall hx hy hne
  simp [sessions, hhash] at hpair

theorem eq_of_countP_le_one {ρ : Type} {p : ρ → Bool} {rows : List ρ} (h : rows.countP p ≤ 1)
    {x y : ρ} (hx : x ∈ rows) (hpx : p x = true) (hy : y ∈ rows) (hpy : p y = true) : x = y := by
  rw [List.countP_eq_length_filter] at h
  have hx' := List.mem_filter.mpr ⟨hx, hpx⟩
  have hy' := List.mem_filter.mpr ⟨hy, hpy⟩
  rcases hrows : rows.filter p with _ | ⟨z, _ | ⟨z', zs⟩⟩
  · rw [hrows] at hx'
    cases hx'
  · rw [hrows] at hx' hy'
    rw [List.mem_singleton.mp hx', List.mem_singleton.mp hy']
  · rw [hrows] at h
    simp at h

/-- A rotation that is refused has found the session revoked. -/
theorem rotate_unauthorized {s : Store} {session : Session} {tokenHash : String}
    {expiresAt now : Time} {context : ClientContext} {e : Failure}
    (h : rotate session tokenHash expiresAt now context s = .error e)
    (he : e.isUnauthorized = true) (hn : Numbered s) {y : Session} (hy : y ∈ s.sessions)
    (hid : y.id = session.id) : y.revokedAt ≠ none := by
  intro hlive
  have hconstraint : ∀ {rows : List Session} {s : Store},
      (sessions.commit rows : Tx Unit) s ≠ .error e := by
    intro rows s hcommit
    rcases Table.commit_error hcommit with rfl | rfl
    · cases he
    · cases he
  rw [rotate, Transaction.bind_error] at h
  rcases h with h | ⟨x, s₁, hnew, h⟩
  · simp only [newSession, Transaction.bind_error] at h
    rcases h with h | ⟨_, _, -, h | ⟨_, _, -, h⟩⟩
    · cases h
    · cases h
    · simp only [Table.create, Transaction.bind_error] at h
      rcases h with h | ⟨_, _, -, h⟩
      · exact hconstraint h
      · cases h
  · obtain ⟨rfl, -, rfl⟩ := newSession_ok hnew
    rw [Transaction.bind_error] at h
    rcases h with h | ⟨n, s₂, hupdate, h⟩
    · simp only [Table.updateMany, Transaction.bind_error] at h
      rcases h with h | ⟨_, _, -, h⟩
      · exact hconstraint h
      · cases h
    · obtain ⟨-, rfl, rfl⟩ := Table.updateMany_ok.mp hupdate
      rw [Transaction.bind_error] at h
      rcases h with h | ⟨_, _, -, h⟩
      · have hone : (s.sessions ++ [Session.issue s.nextId session.userId tokenHash
            session.tokenFamilyId expiresAt (sessionContext context)]).countP
              (fun x => x.id == session.id && x.revokedAt.isNone) = 1 := by
          have hlt := hn.sessions.1 y hy
          have hkeyed : Keyed (s.nextId + 1) Session.id (s.sessions ++ [Session.issue s.nextId
              session.userId tokenHash session.tokenFamilyId expiresAt (sessionContext context)]) :=
            hn.sessions.concat (Nat.le_refl _) (Nat.lt_succ_self _)
          refine hkeyed.countP_eq_one (List.mem_append_left _ hy) ?_ fun z _ hz => ?_
          · simp [hid, hlive]
          · simp only [Bool.and_eq_true, beq_iff_eq] at hz
            exact hz.1.trans hid.symm
        rw [show (sessions.rows _).countP _ = 1 from hone] at h
        cases h
      · cases h

/-! ## The moves of the two requests -/

/-- An action of the refresh. It meets the token revoked and ends the family, or rotates
the session as the first thing it is seen to do. -/
inductive RefreshMove (x : Session) (w w' : World) : Prop where
  | idle (h : w' = w)
  | met (e : Event) (hunused : w.Unused 0)
      (hrevoked : ∃ y ∈ w.store.sessions, y.id = x.id ∧ y.revokedAt ≠ none)
      (hnew : w.newEvents w' = [(0, e)]) (hother : e.loggedOutHash = none)
  | rotated (sessionId : Id) (hunused : w.Unused 0)
      (hnew : w.newEvents w' = [(0, .sessionCreated x.userId sessionId (.rotation x.id))])
  | revoked (hused : ∃ e, (0, e) ∈ w.trace)
      (hnone : ∀ userId sessionId origin, (0, .sessionCreated userId sessionId origin) ∉ w.trace)
      (hnew : w.newEvents w' = [])

inductive LogoutMove (x : Session) (w w' : World) : Prop where
  | idle (h : w' = w)
  | loggedOut (hunused : w.Unused 1) (hnew : w.newEvents w' = [(1, .loggedOut x.tokenHash)])

/-- The refresh is request 0 and the logout is request 1. -/
def Move (x : Session) : Nat → World → World → Prop
  | 0 => RefreshMove x
  | 1 => LogoutMove x
  | _ => fun w w' => w' = w

theorem move_idle (x : Session) (pid : Nat) (w : World) : Move x pid w w := by
  match pid with
  | 0 => exact .idle rfl
  | 1 => exact .idle rfl
  | _ + 2 => exact rfl

def race (env : Environment) (x : Session) : Discipline Store Event where
  inv w := Numbered w.store ∧ x.Stored w.store
  effect pid w w' := Effect env pid w w' ∧ Move x pid w w'
  idle pid w := ⟨.idle, move_idle x pid w⟩
  kept _ _ _ he h := ⟨he.1.numbered h.1, h.2.step (he.1.sessionStep h.1)⟩

section Requests
variable {env : Environment} {x : Session} {pid : Nat} {w w' : World}

theorem race_step {R : Prop} (hinv : (race env x).inv w) (heffect : Effect env pid w w')
    (hmove : Move x pid w w') (h : R) :
    (race env x).inv w' ∧ (race env x).effect pid w w' ∧ R :=
  ⟨(race env x).kept pid w w' ⟨heffect, hmove⟩ hinv, ⟨heffect, hmove⟩, h⟩

theorem race_logs (env : Environment) (x : Session) : (race env x).Logs :=
  fun _ _ _ he => he.1.trace

theorem logout_ends {token : String} (hhash : env.hashOpaqueToken token = x.tokenHash)
    (hunused : w.Unused 1) :
    Ensures (race env x).contract 1 (fun _ w => (1, .loggedOut x.tokenHash) ∈ w.trace)
      (logout env (some token)) w := by
  unfold logout
  rw [← hhash]
  refine Ensures.ask ((race env x).idle 1) fun now => Ensures.atomically
    (fun w₁ hw hinv i n s' h => ?_) fun w₁ hw hinv i e h => ?_
  · obtain ⟨-, -, rfl⟩ := Table.updateMany_ok.mp h
    refine race_step hinv (.loggedOut (env.hashOpaqueToken token) now)
      (LogoutMove.loggedOut ((race_logs env x).unused hw hunused) ?_) fun w₂ hw' _ => ?_
    · rw [World.newEvents_advance, hhash]
      rfl
    · exact (race_logs env x).mem hw' (List.mem_append_right _ (List.mem_singleton_self _))
  · -- revoking never breaks the constraints of the table
    have hsound := hinv.1.sound.revoke (fun y => y.tokenHash == env.hashOpaqueToken token) now .logout
    have hok := (Table.updateMany_ok (ε := Failure)).mpr
      ⟨(sessions_sound w₁.store _).mpr hsound, rfl, rfl⟩
    exact absurd (h.symm.trans hok) (by simp)

theorem revokeTokenFamily_moves {family : Id} (hused : ∃ e, (0, e) ∈ w.trace)
    (hnone : ∀ userId sessionId origin, (0, .sessionCreated userId sessionId origin) ∉ w.trace) :
    (race env x).Keeps 0 (revokeTokenFamily family) w := by
  unfold revokeTokenFamily
  refine Ensures.ask ((race env x).idle 0) fun now => ?_
  refine Ensures.atomically_quiet ((race env x).idle 0) (fun _ => rfl)
    (fun w₁ hw hinv i n s' h => ?_) fun w₁ hw hinv i e h => ?_
  · obtain ⟨e, he⟩ := hused
    exact race_step hinv (revokeTokenFamily_effect h) (RefreshMove.revoked ⟨e, (race_logs env x).mem hw he⟩
      (fun _ _ _ hmem => hnone _ _ _ ((race_logs env x).own hw hmem)) (World.newEvents_advance _ _ _ _))
      (Discipline.Keeps.pure _)
  · exact Discipline.Keeps.throw _

/-- The transaction of a refresh of the session. -/
theorem rotation_moves {session : Session} {tokenHash : String} {expiresAt now : Time}
    {context : ClientContext} (hid : session.id = x.id) (huser : session.userId = x.userId)
    (hfamily : session.tokenFamilyId = x.tokenFamilyId) (hunused : w.Unused 0) :
    (race env x).Keeps 0
      (tryCatch
        (Process.atomically (fun _ : Input => rotate session tokenHash expiresAt now context) fun
          | .ok replacementId =>
            [.sessionCreated session.userId replacementId (.rotation session.id)]
          | .error error =>
            if error.isUnauthorized then [.rotationLost session.id session.tokenFamilyId] else [])
        fun error => do
          if error.isUnauthorized then
            revokeTokenFamily session.tokenFamilyId
          throw error) w := by
  have hknown : ∀ {s : Store}, x.Stored s → session.Known s := by
    rintro s ⟨y, hy, hyid, hyuser, -, hyfamily⟩
    exact ⟨y, hy, hyid.trans hid.symm, hyuser.trans huser.symm, hyfamily.trans hfamily.symm⟩
  rw [← Process.bind_pure (Process.atomically _ _)]
  refine Ensures.handle (Ensures.atomically (fun w₁ hw hinv i id s' h => ?_)
    fun w₁ hw hinv i e h => ?_)
  · obtain ⟨rfl, hlive, hsound, rfl⟩ := rotate_ok h
    refine race_step hinv (.rotated session tokenHash expiresAt now _ (hknown hinv.2) hlive hsound)
      (RefreshMove.rotated w₁.store.nextId ((race_logs env x).unused hw hunused) ?_)
      fun _ _ _ => Discipline.Keeps.pure _
    rw [World.newEvents_advance, huser, hid]
    rfl
  · cases he : e.isUnauthorized with
    | false =>
      simp only [he, Bool.false_eq_true, if_false, World.advance_idle]
      refine ⟨hinv, (race env x).idle 0 w₁, fun w₂ _ _ => ?_⟩
      simp only [he, Bool.false_eq_true, if_false]
      exact Discipline.Keeps.throw _
    | true =>
      simp only [he, if_true]
      obtain ⟨y, hy, hyid, -⟩ := hinv.2
      -- the loser finds the session revoked, and revokes the family
      have hrevoked := rotate_unauthorized h he hinv.1 hy (hyid.trans hid.symm)
      have hunused₁ := (race_logs env x).unused hw hunused
      refine race_step hinv (.rotationLost session (hknown hinv.2)) (RefreshMove.met _ hunused₁
        ⟨y, hy, hyid, hrevoked⟩ (World.newEvents_advance _ _ _ _) rfl) fun w₂ hw' _ => ?_
      simp only [he, if_true]
      refine Discipline.Keeps.bind (revokeTokenFamily_moves ⟨_, (race_logs env x).mem hw'
        (List.mem_append_right _ (List.mem_singleton_self _))⟩ fun _ _ _ hmem => ?_)
        fun _ _ => Discipline.Keeps.throw _
      have hown := (race_logs env x).own hw' hmem
      rcases List.mem_append.mp hown with hown | hown
      · exact hunused₁ _ hown rfl
      · simp at hown

theorem refresh_moves {token : String} (hhash : env.hashOpaqueToken token = x.tokenHash)
    (context : ClientContext) (hunused : w.Unused 0) :
    (race env x).Keeps 0 (refresh env token context) w := by
  unfold refresh
  simp only [hhash]
  refine Ensures.atomically (fun w₁ hw hinv i found s' h => ?_) fun w₁ hw hinv i e h => ?_
  · obtain ⟨hfound, hs⟩ := (Transaction.reads_ok _ _ _ _).mp h
    subst hs
    have hunused₁ := (race_logs env x).unused hw hunused
    cases found with
    | none =>
      simp only [World.advance_idle]
      exact ⟨hinv, (race env x).idle 0 w₁, Discipline.Keeps.throw _⟩
    | some found =>
      obtain ⟨session, user⟩ := found
      have hsession : w₁.store.sessions.find? (fun y => y.tokenHash == x.tokenHash) = some session := by
        obtain ⟨session', hfind, hmap⟩ := Option.bind_eq_some_iff.mp hfound.symm
        obtain ⟨user', -, heq⟩ := Option.map_eq_some_iff.mp hmap
        cases heq
        exact hfind
      have hmem := List.mem_of_find?_eq_some hsession
      -- the token is that of the session
      obtain ⟨y, hy, hid, huser, hyhash, hfamily⟩ := hinv.2
      have hsame : y = session := by
        have hpresented : session.tokenHash = x.tokenHash := by simpa using List.find?_some hsession
        exact hinv.1.sound.eq_of_hash hy hmem (hyhash.trans hpresented.symm)
      subst hsame
      cases hrevoked : y.revokedAt.isSome with
      | true =>
        cases hrotated : y.revocationReason == some .rotated with
        | true =>
          simp only [Session.rotated, hrevoked, hrotated, Bool.and_self, if_true]
          refine race_step hinv
            (.rotatedTokenPresented y hmem (by rw [Session.rotated, hrevoked, hrotated]; rfl))
            (RefreshMove.met _ hunused₁ ⟨y, hmem, hid, Option.isSome_iff_ne_none.mp hrevoked⟩
              (World.newEvents_advance _ _ _ _) rfl)
            (Discipline.Keeps.bind (revokeTokenFamily_moves ⟨_, List.mem_append_right _
              (List.mem_singleton_self _)⟩ fun _ _ _ hown => ?_)
              fun _ _ => Discipline.Keeps.throw _)
          rcases List.mem_append.mp hown with hown | hown
          · exact hunused₁ _ hown rfl
          · simp at hown
        | false =>
          simp only [Session.rotated, hrevoked, hrotated, Bool.and_false, Bool.false_eq_true,
            if_false, if_true, World.advance_idle]
          exact ⟨hinv, (race env x).idle 0 w₁, Discipline.Keeps.throw _⟩
      | false =>
        simp only [Session.rotated, hrevoked, Bool.false_and, Bool.false_eq_true, if_false,
          World.advance_idle]
        refine ⟨hinv, (race env x).idle 0 w₁, Ensures.ask ((race env x).idle 0) fun clock => ?_⟩
        refine Ensures.rejectIf (fun _ => Discipline.Keeps.throw _) fun _ => ?_
        refine Ensures.ask ((race env x).idle 0) fun token => Ensures.ask ((race env x).idle 0)
          fun expiresAt => Ensures.ask ((race env x).idle 0) fun now => ?_
        refine Discipline.Keeps.bind (rotation_moves hid huser hfamily hunused₁) fun _ w₂ => ?_
        exact Ensures.ask ((race env x).idle 0) fun jti => Discipline.Keeps.pure _
  · simp [Transaction.reads] at h

end Requests

/-! ## The phases of a run -/

/-- The refresh has rotated the session, and the logout is still to come. -/
structure RotatedFirst (x : Session) (w : World) : Prop where
  trace : ∃ sessionId, w.trace = [(0, .sessionCreated x.userId sessionId (.rotation x.id))]
  successor : ∃ y ∈ w.store.sessions, y.tokenFamilyId = x.tokenFamilyId ∧
    y.tokenHash ≠ x.tokenHash ∧ y.revokedAt = none
  revoked : ∀ y ∈ w.store.sessions, y.tokenHash = x.tokenHash → y.revokedAt ≠ none

/-- The logout has ended the family. -/
structure SignedOut (x : Session) (w : World) : Prop where
  out : (1, .loggedOut x.tokenHash) ∈ w.trace
  dead : w.store.Dead x.tokenFamilyId

/-- The logout came after the rotation, and the successor is live. -/
structure Overtaken (x : Session) (w : World) : Prop where
  created : ∃ sessionId, (0, .sessionCreated x.userId sessionId (.rotation x.id)) ∈ w.trace
  out : (1, .loggedOut x.tokenHash) ∈ w.trace
  successor : ∃ y ∈ w.store.sessions, y.tokenFamilyId = x.tokenFamilyId ∧ y.revokedAt = none

/-- The logout has not come too late. -/
inductive InTime (s : Store) (x : Session) (w : World) : Prop where
  | untouched (h : w = ⟨s, []⟩)
  | rotatedFirst (h : RotatedFirst x w)
  | signedOut (h : SignedOut x w)

section Phases
variable {env : Environment} {s : Store} {x : Session} {pid : Nat} {w w' : World}

theorem SignedOut.not_overtaken (h : SignedOut x w) : ¬ Overtaken x w := by
  rintro ⟨-, -, y, hy, hfamily, hlive⟩
  have hdead := h.dead.2 y hy hfamily
  simp [Session.live, hlive] at hdead

/-- The logout revokes by the hash of the token. -/
theorem Effect.logsOut (h : Effect env pid w w') {q : Nat} {tokenHash : String}
    (he : (q, .loggedOut tokenHash) ∈ w.newEvents w') :
    ∃ now, w'.store.sessions = updateRows (fun y => y.tokenHash == tokenHash && y.revokedAt.isNone)
      (fun y => y.revoke now .logout) w.store.sessions := by
  cases h with
  | idle => simp at he
  | loggedOut hash now =>
    rw [World.newEvents_advance] at he
    simp only [List.map_cons, List.map_nil, List.mem_singleton, Prod.mk.injEq,
      Event.loggedOut.injEq] at he
    obtain ⟨-, rfl⟩ := he
    exact ⟨now, rfl⟩
  | _ =>
    rw [World.newEvents_advance] at he
    simp at he

/-- The rotation leaves a live successor with another token. -/
theorem RotatedFirst.of_rotation (hn : Numbered w.store) (hn' : Numbered w'.store)
    (he : Effect env pid w w') (hx : x ∈ w.store.sessions) (htrace : w.trace = []) {sessionId : Id}
    (hnew : w.newEvents w' = [(0, .sessionCreated x.userId sessionId (.rotation x.id))]) :
    RotatedFirst x w' := by
  have htrace' : w'.trace = [(0, .sessionCreated x.userId sessionId (.rotation x.id))] := by
    rw [he.trace_eq, htrace, hnew]
    rfl
  have hrotations : rotations w'.trace = [x.id] := by
    rw [htrace']
    rfl
  have hnone : rotations w.trace = [] := by
    rw [htrace]
    rfl
  cases he.sessionStep hn with
  | same _ ht => simp [hrotations, hnone] at ht
  | revoked _ _ _ _ _ ht => simp [hrotations, hnone] at ht
  | opened _ _ _ _ _ _ ht => simp [hrotations, hnone] at ht
  | rotated old z now hold holdLive hlive hlast hid huser hfamily hs ht =>
    have hold' : x = old := by
      rw [hrotations, hnone, List.nil_append, List.singleton_inj] at ht
      exact hn.sessions.inj hx hold ht
    subst hold'
    have hreplaced : x.replace now z.id ∈ w'.store.sessions := by
      rw [hs]
      exact List.mem_append_left _ (mem_updateRows.mpr (.inr ⟨x, hx, by simp [holdLive], rfl⟩))
    have hz : z ∈ w'.store.sessions := by
      rw [hs]
      exact List.mem_append_right _ (List.mem_singleton_self z)
    have hrevoked : ∀ y ∈ w'.store.sessions, y.tokenHash = x.tokenHash → y.revokedAt ≠ none := by
      intro y hy hhash
      rw [hn'.sound.eq_of_hash hy hreplaced hhash]
      exact Option.some_ne_none now
    exact ⟨⟨sessionId, htrace'⟩, ⟨z, hz, hfamily, fun hhash => hrevoked z hz hhash hlive, hlive⟩,
      hrevoked⟩

theorem Move.same_or (h : Move x pid w w') : w' = w ∨ (pid = 0 ∧ RefreshMove x w w') ∨
    (pid = 1 ∧ LogoutMove x w w') := by
  match pid with
  | 0 => exact .inr (.inl ⟨rfl, h⟩)
  | 1 => exact .inr (.inr ⟨rfl, h⟩)
  | _ + 2 => exact .inl h

theorem findsUnrevoked_same (w : World) : LogoutFindsUnrevoked w w := by
  simp [LogoutFindsUnrevoked]

/-- Before the first of the two commits. -/
theorem untouched_step (hn : Numbered s) (hn' : Numbered w'.store)
    (hone : (s.family x.tokenFamilyId).countP Session.live ≤ 1) (hx : x ∈ s.sessions)
    (hlive : x.revokedAt = none) (he : Effect env pid ⟨s, []⟩ w') (hmove : Move x pid ⟨s, []⟩ w') :
    InTime s x w' ∧ LogoutFindsUnrevoked ⟨s, []⟩ w' := by
  -- the step is idle, or one of the refresh, or one of the logout
  rcases hmove.same_or with rfl | ⟨rfl, hmove⟩ | ⟨rfl, hmove⟩
  · exact ⟨.untouched rfl, findsUnrevoked_same _⟩
  · cases hmove with
    | idle h =>
      subst h
      exact ⟨.untouched rfl, findsUnrevoked_same _⟩
    | met e hunused hrevoked hnew hother =>
      obtain ⟨y, hy, hid, hdead⟩ := hrevoked
      rw [hn.sessions.inj hy hx hid] at hdead
      exact absurd hlive hdead
    | rotated sessionId hunused hnew =>
      refine ⟨.rotatedFirst (.of_rotation hn hn' he hx rfl hnew), ?_⟩
      simp [LogoutFindsUnrevoked, hnew, Event.loggedOutHash]
    | revoked hused =>
      obtain ⟨e, hmem⟩ := hused
      cases hmem
  · cases hmove with
    | idle h =>
      subst h
      exact ⟨.untouched rfl, findsUnrevoked_same _⟩
    | loggedOut hunused hnew =>
      have hout : (1, Event.loggedOut x.tokenHash) ∈ (⟨s, []⟩ : World).newEvents w' := by
        rw [hnew]
        exact List.mem_singleton_self _
      constructor
      · refine .signedOut ⟨?_, ?_⟩
        · rw [he.trace_eq]
          exact List.mem_append_right _ hout
        · obtain ⟨now, hs⟩ := he.logsOut hout
          have hxp : (x.tokenHash == x.tokenHash && x.revokedAt.isNone) = true := by simp [hlive]
          refine ⟨⟨x.revoke now .logout, ?_, rfl⟩, fun y hy hfamily => ?_⟩
          · rw [hs]
            exact mem_updateRows.mpr (.inr ⟨x, hx, hxp, rfl⟩)
          · rw [hs] at hy
            rcases mem_updateRows.mp hy with ⟨hy, hp⟩ | ⟨y₀, -, -, rfl⟩
            · -- the session itself was the only live one of its family
              cases hyl : y.live with
              | false => rfl
              | true =>
                have hsame : x = y := eq_of_countP_le_one hone (mem_family.mpr ⟨hx, rfl⟩)
                  (by simp [Session.live, hlive]) (mem_family.mpr ⟨hy, hfamily⟩) hyl
                rw [← hsame, hxp] at hp
                cases hp
            · rfl
      · intro e hmem tokenHash hhash
        rw [hnew, List.mem_singleton] at hmem
        subst hmem
        cases hhash
        exact ⟨x, hx, rfl, hlive⟩

theorem RotatedFirst.step (h : RotatedFirst x w) (he : Effect env pid w w')
    (hmove : Move x pid w w') :
    (RotatedFirst x w' ∧ LogoutFindsUnrevoked w w') ∨
      (Overtaken x w' ∧ ¬ LogoutFindsUnrevoked w w') := by
  obtain ⟨sessionId, htrace⟩ := h.trace
  rcases hmove.same_or with rfl | ⟨rfl, hmove⟩ | ⟨rfl, hmove⟩
  · exact .inl ⟨h, findsUnrevoked_same _⟩
  · cases hmove with
    | idle heq =>
      subst heq
      exact .inl ⟨h, findsUnrevoked_same _⟩
    | met e hunused => exact absurd rfl (hunused _ (htrace ▸ List.mem_singleton_self _))
    | rotated _ hunused => exact absurd rfl (hunused _ (htrace ▸ List.mem_singleton_self _))
    | revoked _ hnone =>
      exact absurd (htrace ▸ List.mem_singleton_self _) (hnone x.userId sessionId (.rotation x.id))
  · cases hmove with
    | idle heq =>
      subst heq
      exact .inl ⟨h, findsUnrevoked_same _⟩
    | loggedOut hunused hnew =>
      have hout : (1, Event.loggedOut x.tokenHash) ∈ w.newEvents w' := by
        rw [hnew]
        exact List.mem_singleton_self _
      -- the logout comes too late: it selects no row, and the successor lives on
      right
      constructor
      · refine ⟨⟨sessionId, ?_⟩, ?_, ?_⟩
        · rw [he.trace_eq, htrace]
          exact List.mem_append_left _ (List.mem_singleton_self _)
        · rw [he.trace_eq]
          exact List.mem_append_right _ hout
        · obtain ⟨y, hy, hfamily, hother, hlive⟩ := h.successor
          obtain ⟨now, hs⟩ := he.logsOut hout
          refine ⟨y, ?_, hfamily, hlive⟩
          rw [hs]
          exact mem_updateRows.mpr (.inl ⟨hy, by simp [hother]⟩)
      · intro hfinds
        obtain ⟨y, hy, hhash, hlive⟩ := hfinds _ hout x.tokenHash rfl
        exact h.revoked y hy hhash hlive

theorem SignedOut.step (h : SignedOut x w) (hn : Numbered w.store) (he : Effect env pid w w')
    (hmove : Move x pid w w') : SignedOut x w' ∧ LogoutFindsUnrevoked w w' := by
  have hstill : SignedOut x w' := by
    refine ⟨?_, Dead.step h.dead hn (he.sessionStep hn)⟩
    rw [he.trace_eq]
    exact List.mem_append_left _ h.out
  refine ⟨hstill, ?_⟩
  rcases hmove.same_or with rfl | ⟨rfl, hmove⟩ | ⟨rfl, hmove⟩
  · exact findsUnrevoked_same _
  · cases hmove with
    | idle heq =>
      subst heq
      exact findsUnrevoked_same _
    | met e _ _ hnew hother => simp [LogoutFindsUnrevoked, hnew, hother]
    | rotated _ _ hnew => simp [LogoutFindsUnrevoked, hnew, Event.loggedOutHash]
    | revoked _ _ hnew => simp [LogoutFindsUnrevoked, hnew]
  · cases hmove with
    | idle heq =>
      subst heq
      exact findsUnrevoked_same _
    | loggedOut hunused => exact absurd rfl (hunused _ h.out)

theorem Overtaken.step (h : Overtaken x w) (hmove : Move x pid w w') : Overtaken x w' := by
  obtain ⟨sessionId, hcreated⟩ := h.created
  rcases hmove.same_or with rfl | ⟨rfl, hmove⟩ | ⟨rfl, hmove⟩
  · exact h
  · cases hmove with
    | idle heq => rwa [heq]
    | met e hunused => exact absurd rfl (hunused _ hcreated)
    | rotated _ hunused => exact absurd rfl (hunused _ hcreated)
    | revoked _ hnone => exact absurd hcreated (hnone _ _ _)
  · cases hmove with
    | idle heq => rwa [heq]
    | loggedOut hunused => exact absurd rfl (hunused _ h.out)

/-- One action of the two requests, as long as the logout has not come too late. -/
theorem InTime.step (h : InTime s x w) (hn : Numbered w.store) (hn' : Numbered w'.store)
    (hone : (s.family x.tokenFamilyId).countP Session.live ≤ 1) (hx : x ∈ s.sessions)
    (hlive : x.revokedAt = none) (he : Effect env pid w w') (hmove : Move x pid w w') :
    (InTime s x w' ∧ LogoutFindsUnrevoked w w') ∨
      (Overtaken x w' ∧ ¬ LogoutFindsUnrevoked w w') := by
  cases h with
  | untouched h =>
    subst h
    exact .inl (untouched_step hn hn' hone hx hlive he hmove)
  | rotatedFirst h =>
    rcases h.step he hmove with ⟨h', hfinds⟩ | hover
    · exact .inl ⟨.rotatedFirst h', hfinds⟩
    · exact .inr hover
  | signedOut h =>
    obtain ⟨h', hfinds⟩ := h.step hn he hmove
    exact .inl ⟨.signedOut h', hfinds⟩

theorem InTime.not_overtaken (h : InTime s x w) : ¬ Overtaken x w := by
  intro hover
  obtain ⟨sessionId, hcreated⟩ := hover.created
  cases h with
  | untouched h =>
    subst h
    cases hcreated
  | rotatedFirst h =>
    obtain ⟨_, htrace⟩ := h.trace
    have hout := hover.out
    rw [htrace] at hout
    simp at hout
  | signedOut h => exact h.not_overtaken hover

end Phases

/-! ## Runs -/

/-- A logout that has ended has revoked. -/
def LogoutDone (x : Session) (pid : Nat) (w : World) : Prop :=
  pid = 1 → (1, .loggedOut x.tokenHash) ∈ w.trace

theorem together_meets (env : Environment) {s : Store} (hn : Numbered s) {token : String}
    (context : ClientContext) {x : Session} (hx : x ∈ s.sessions)
    (hhash : env.hashOpaqueToken token = x.tokenHash) :
    Config.Meets (race env x).inv (race env x).effect (fun _ pid _ w => LogoutDone x pid w)
      (together env s token context) := by
  have hunused : ∀ pid, (⟨s, []⟩ : World).Unused pid := by simp [World.Unused]
  refine ⟨⟨hn, x, hx, rfl, rfl, rfl, rfl⟩, by simp [together, Config.init, Config.act], ?_⟩
  intro pid r p hp
  cases pid with
  | zero =>
    obtain ⟨rfl, rfl⟩ := Prod.mk.inj (Option.some.inj hp)
    refine Ensures.map ((refresh_moves hhash context (hunused 0)).mono fun _ _ _ _ => ?_)
    intro h
    cases h
  | succ pid =>
    cases pid with
    | zero =>
      obtain ⟨rfl, rfl⟩ := Prod.mk.inj (Option.some.inj hp)
      exact Ensures.map ((logout_ends hhash (hunused 1)).mono fun _ _ _ hout _ => hout)
    | succ pid => cases hp

/-- Of a refresh and a logout with the same live token, interleaved in any way: once the
logout has ended, no session of the family is live exactly if it found the session of the
token unrevoked. -/
theorem logout_ends_family (env : Environment) (s : Store) (hn : Numbered s)
    (hc : s.FamiliesChained) (token : String) (context : ClientContext) (x : Session)
    (hx : x ∈ s.sessions) (hhash : env.hashOpaqueToken token = x.tokenHash)
    (hlive : x.revokedAt = none) (acts : List (Action Request Input))
    (hacts : ∀ r, .request r ∉ acts) (result : Except Failure Response)
    (hended : ((together env s token context).run (handler env) acts).outcome 1 =
      some (.logout (some token), result)) :
    (∀ y ∈ ((together env s token context).run (handler env) acts).world.store.sessions,
      y.tokenFamilyId = x.tokenFamilyId → y.revokedAt ≠ none) ↔
    Config.Along LogoutFindsUnrevoked (handler env) (together env s token context) acts := by
  have hmeets := together_meets env hn context hx hhash
  have hone := one_live_of_chained hn hc x.tokenFamilyId
  have hiff : (∀ before after, acts = before ++ after →
      InTime s x ((together env s token context).run (handler env) before).world) ↔
      Config.Along LogoutFindsUnrevoked (handler env) (together env s token context) acts := by
    refine Config.Meets.invariant_iff (fun r hr => absurd hr (hacts r)) hmeets (.untouched rfl)
      findsUnrevoked_same fun pid w w' hinv hinv' he h => ?_
    rcases h.step hinv.1 hinv'.1 hone hx hlive he.1 he.2 with ⟨h', hfinds⟩ | ⟨hover, hmissed⟩
    · exact iff_of_true h' hfinds
    · exact iff_of_false (fun h' => h'.not_overtaken hover) hmissed
  have hout : (1, Event.loggedOut x.tokenHash) ∈
      ((together env s token context).run (handler env) acts).world.trace :=
    (hmeets.run fun r hr => absurd hr (hacts r)).outcome hended rfl
  constructor
  · intro hdead
    refine hiff.mp fun before after heq => ?_
    have hbefore : ∀ r, .request r ∉ before := fun r hr =>
      hacts r (heq ▸ List.mem_append_left _ hr)
    have hafter : ∀ r, .request r ∉ after := fun r hr =>
      hacts r (heq ▸ List.mem_append_right _ hr)
    -- a prefix is in time or overtaken, and an overtaken one stays so to the end
    have hphase : InTime s x ((together env s token context).run (handler env) before).world ∨
        Overtaken x ((together env s token context).run (handler env) before).world := by
      refine Config.Meets.invariant (fun r hr => absurd hr (hbefore r)) hmeets
        (A := fun _ _ => True) (P := fun w => InTime s x w ∨ Overtaken x w) (.inl (.untouched rfl))
        (fun pid w w' hinv hinv' he _ h => ?_) (Config.Along.trivial before)
      rcases h with h | h
      · rcases h.step hinv.1 hinv'.1 hone hx hlive he.1 he.2 with ⟨h', -⟩ | ⟨hover, -⟩
        · exact .inl h'
        · exact .inr hover
      · exact .inr (h.step he.2)
    rcases hphase with h | hover
    · exact h
    · -- what came too late stays too late
      have hlast : Overtaken x ((together env s token context).run (handler env) acts).world := by
        rw [heq, Config.run_append]
        refine Config.Meets.invariant (fun r hr => absurd hr (hafter r))
          (hmeets.run fun r hr => absurd hr (hbefore r)) (A := fun _ _ => True) (P := Overtaken x)
          hover (fun pid w w' _ _ he _ h => h.step he.2) (Config.Along.trivial after)
      obtain ⟨y, hy, hfamily, hylive⟩ := hlast.successor
      exact absurd hylive (hdead y hy hfamily)
  · intro halong y hy hfamily hylive
    cases hiff.mpr halong acts [] (List.append_nil _).symm with
    | untouched h =>
      rw [h] at hout
      cases hout
    | rotatedFirst h =>
      obtain ⟨sessionId, htrace⟩ := h.trace
      rw [htrace] at hout
      simp at hout
    | signedOut h =>
      have hdead := h.dead.2 y hy hfamily
      simp [Session.live, hylive] at hdead

/-- A registered user. -/
def registration : List (Action Request Input) :=
  [.request (.register ⟨"a@example.org", "password", none⟩ ⟨none, none⟩)] ++
    advances 0 12 (.at 0 "first")

def registered : Store :=
  ((Config.init Store.empty : Auth.Config).run (handler .transparent) registration).world.store

theorem logout_ends_family_first :
    (((together .transparent registered "first" ⟨none, none⟩).run (handler .transparent)
      (advances 0 3 (.at 0 "second") ++ advances 1 2 (.at 0 "") ++
        advances 0 9 (.at 0 "second"))).world.store.sessions.all fun y =>
      y.tokenFamilyId != 3 || y.revokedAt.isSome) = true := by
  have hx : Session.issue 2 0 "first" 3 2592000000 ⟨none, none⟩ ∈ registered.sessions := by
    decide +kernel
  have hn : Numbered registered := (run_meets .transparent numbered_empty registration).holds
  have hc : registered.FamiliesChained :=
    (run_tokenFamilies .transparent numbered_empty (fun _ => chained_nil) registration).chained
  have hended := (logout_ends_family .transparent registered hn hc "first" ⟨none, none⟩ _ hx rfl rfl
    (advances 0 3 (.at 0 "second") ++ advances 1 2 (.at 0 "") ++ advances 0 9 (.at 0 "second"))
    (by simp [advances]) (.ok (.message "Signed out")) (by decide +kernel)).mpr (by decide +kernel)
  rw [List.all_eq_true]
  intro y hy
  by_cases hfamily : y.tokenFamilyId = 3
  · rw [Option.isSome_iff_ne_none.mpr (hended y hy hfamily), Bool.or_true]
  · rw [bne_iff_ne.mpr hfamily, Bool.true_or]

/-- The rotation commits before the logout, and the successor outlives it. -/
theorem logout_misses_successor :
    (∃ x ∈ registered.sessions, x.tokenHash = "first" ∧ x.tokenFamilyId = 3 ∧ x.revokedAt = none) ∧
    (((together .transparent registered "first" ⟨none, none⟩).run (handler .transparent)
      (advances 0 12 (.at 0 "second") ++ advances 1 2 (.at 0 ""))).outcome 0).isSome ∧
    (((together .transparent registered "first" ⟨none, none⟩).run (handler .transparent)
      (advances 0 12 (.at 0 "second") ++ advances 1 2 (.at 0 ""))).outcome 1).isSome ∧
    ∃ y ∈ ((together .transparent registered "first" ⟨none, none⟩).run (handler .transparent)
      (advances 0 12 (.at 0 "second") ++ advances 1 2 (.at 0 ""))).world.store.sessions,
      y.tokenFamilyId = 3 ∧ y.revokedAt = none := by
  decide +kernel

end ShipFlow.Auth
