import ShipFlow.Relational.Chain
import ShipFlow.Relational.Spent
import ShipFlow.Auth.Requests

/-! Refresh-token families. The sessions of a family, in the order in which they
were created, form one chain of rotations whose last session alone can be live. -/

namespace ShipFlow.Auth
open Interleaving Relational

def Store.family (s : Store) (tokenFamilyId : Id) : List Session :=
  s.sessions.filter fun x => x.tokenFamilyId == tokenFamilyId

/-- The rotations of every family form one chain. -/
def Store.FamiliesChained (s : Store) : Prop :=
  ∀ family, Chained Session.id Session.replacedById (s.family family)

theorem mem_family {s : Store} {family : Id} {x : Session} :
    x ∈ s.family family ↔ x ∈ s.sessions ∧ x.tokenFamilyId = family := by
  simp [Store.family]

theorem FamiliesChained.step {w w' : World} (h : w.store.FamiliesChained) (hn : Numbered w.store)
    (hs : SessionStep w w') : w'.store.FamiliesChained := by
  intro family
  have hchain := h family
  cases hs with
  | same hs => rwa [Store.family, hs]
  | revoked p now reason _ hs =>
    have hcolumn : ∀ x : Session,
        ((x.revoke now reason).tokenFamilyId == family) = (x.tokenFamilyId == family) := fun _ => rfl
    rw [Store.family, hs, filter_updateRows _ hcolumn]
    refine hchain.map (fun x => ?_) fun x => ?_
    · split <;> rfl
    · split <;> rfl
  | opened x _ hlast _ hfresh hs =>
    rw [Store.family, hs, List.filter_append]
    by_cases hxf : x.tokenFamilyId = family
    · -- no session is in a new family yet
      have hempty : w.store.sessions.filter (fun x => x.tokenFamilyId == family) = [] := by
        refine List.filter_eq_nil_iff.mpr fun y hy hyf => ?_
        have hlt := hn.families y hy
        rw [beq_iff_eq] at hyf
        lia
      rw [hempty, List.nil_append, List.filter_singleton, hxf, beq_self_eq_true]
      exact chained_singleton hlast
    · have hne : (x.tokenFamilyId == family) = false := by simpa using hxf
      rw [List.filter_singleton, hne]
      simpa [Store.family] using hchain
  | rotated old x now hold holdLive hlive hlast hid _ hfam hs =>
    have hcolumn : ∀ y : Session,
        ((y.replace now x.id).tokenFamilyId == family) = (y.tokenFamilyId == family) := fun _ => rfl
    rw [Store.family, hs, List.filter_append, filter_updateRows _ hcolumn]
    by_cases hof : old.tokenFamilyId = family
    · obtain ⟨-, hlastOld⟩ := Session.valid.last (hn.sound.1 old hold) holdLive
      obtain ⟨init, hinit⟩ := hchain.eq_concat (mem_family.mpr ⟨hold, hof⟩) hlastOld
      have hfilter : w.store.sessions.filter (fun y => y.tokenFamilyId == family) = init ++ [old] :=
        hinit
      -- the other sessions of the family are no longer live
      have hdead : ∀ y ∈ init, (y.id == old.id && y.revokedAt.isNone) = false := by
        intro y hy
        have hmem : y ∈ w.store.sessions :=
          (mem_family.mp (hinit ▸ List.mem_append_left _ hy)).1
        have hsome := (hinit ▸ hchain).next_isSome hy
        cases hr : y.revokedAt with
        | none =>
          rw [(Session.valid.last (hn.sound.1 y hmem) hr).2] at hsome
          cases hsome
        | some t => simp
      rw [hfilter, updateRows_append, updateRows_eq_self hdead, List.filter_singleton, hfam, hof,
        beq_self_eq_true, cond_true, List.append_assoc]
      have hreplaced : updateRows (fun y => y.id == old.id && y.revokedAt.isNone)
          (fun y => y.replace now x.id) [old] = [old.replace now x.id] := by
        simp [updateRows, holdLive]
      rw [hreplaced]
      exact (hinit ▸ hchain).extend rfl rfl hlast
    · have hkeep : ∀ y ∈ w.store.sessions.filter (fun y => y.tokenFamilyId == family),
          (y.id == old.id && y.revokedAt.isNone) = false := by
        intro y hy
        obtain ⟨hy, hyf⟩ := mem_family.mp hy
        have hne : y.id ≠ old.id := fun hyo => hof (hn.sessions.inj hy hold hyo ▸ hyf)
        simp [hne]
      have hne : (x.tokenFamilyId == family) = false := by simpa [hfam] using hof
      rw [updateRows_eq_self hkeep, List.filter_singleton, hne]
      simpa [Store.family] using hchain

/-- No session was rotated twice, and a rotated session is no longer live. -/
def RotatedOnce (w : World) : Prop :=
  SpentOnce w.store.nextId Session.id Session.live w.store.sessions (rotations w.trace)

theorem RotatedOnce.step {w w' : World} (h : RotatedOnce w) (hn : Numbered w.store)
    (hle : w.store.nextId ≤ w'.store.nextId) (hs : SessionStep w w') : RotatedOnce w' := by
  unfold RotatedOnce
  cases hs with
  | same hs ht =>
    rw [hs, ht]
    exact h.later hle
  | revoked p now reason _ hs ht =>
    rw [hs, ht]
    refine (SpentOnce.updateRows h ?_ ?_).later hle
    · exact fun _ => rfl
    · exact fun _ _ => rfl
  | opened y _ _ hfresh _ hs ht =>
    rw [hs, ht]
    exact (h.append (by simpa using hfresh)).later hle
  | rotated old y now hold holdLive _ _ hfresh _ _ hs ht =>
    rw [hs, ht]
    have hused := SpentOnce.use (p := fun x => x.id == old.id && x.revokedAt.isNone)
      (f := fun x => x.replace now y.id) h hn.sessions hold (by simp [Session.live, holdLive])
      (by simp [holdLive]) fun _ => rfl
    exact (hused.append (by simpa using hfresh)).later hle

/-! ## Runs -/

/-- What the rotations of a run add up to. -/
structure TokenFamilies (w : World) : Prop where
  one_live : ∀ family, (w.store.family family).countP Session.live ≤ 1
  rotated_once : (rotations w.trace).Nodup
  chained : w.store.FamiliesChained
  distinct : (w.store.sessions.map Session.id).Nodup

theorem one_live_of_chained {s : Store} (hn : Numbered s) (hc : s.FamiliesChained) (family : Id) :
    (s.family family).countP Session.live ≤ 1 := by
  refine (hc family).countP_le_one fun x hx hlive => ?_
  rw [Session.live, Option.isNone_iff_eq_none] at hlive
  exact (Session.valid.last (hn.sound.1 x (mem_family.mp hx).1) hlive).2

theorem run_tokenFamilies (env : Environment) {s : Store} (hn : Numbered s)
    (hc : s.FamiliesChained) (acts : List (Action Request Input)) :
    TokenFamilies ((Config.init s : Auth.Config).run (handler env) acts).world := by
  have hmeets := run_meets env hn acts
  have hinv : (((Config.init s : Auth.Config).run (handler env) acts).world.store.FamiliesChained ∧
      RotatedOnce ((Config.init s : Auth.Config).run (handler env) acts).world) := by
    refine Config.Meets.invariant (fun r _ _ _ _ hnew => handler_ensures env r hnew)
      (Config.Meets.init hn) (A := fun _ _ => True)
      (P := fun w => w.store.FamiliesChained ∧ RotatedOnce w)
      ⟨hc, SpentOnce.nil⟩ ?_ (Config.Along.trivial acts)
    rintro pid w w' hn - he - ⟨hc, hr⟩
    have hs := he.sessionStep hn
    exact ⟨FamiliesChained.step hc hn hs, hr.step hn he.nextId_le hs⟩
  exact ⟨one_live_of_chained hmeets.holds hinv.1, hinv.2.nodup, hinv.1, hmeets.holds.sessions.2⟩

/-- A dead family stays dead. -/
theorem run_dead (env : Environment) {s : Store} (hn : Numbered s) {family : Id}
    (acts later : List (Action Request Input))
    (h : ((Config.init s : Auth.Config).run (handler env) acts).world.store.Dead family) :
    ((Config.init s : Auth.Config).run (handler env) (acts ++ later)).world.store.Dead family := by
  rw [Config.run_append]
  refine Config.Meets.invariant (fun r _ _ _ _ hnew => handler_ensures env r hnew)
    (run_meets env hn acts) (A := fun _ _ => True) (P := fun w => w.store.Dead family) h ?_
    (Config.Along.trivial later)
  exact fun pid w w' hn hn' he _ hd => dead_stable family pid w w' hn hn' he hd

/-- Every reachable state has well-formed token families, and a refresh that met a
used token has left its family without a live session, now and later. -/
theorem refresh_token_families (env : Environment) (s : Store) (hn : Numbered s)
    (hc : s.FamiliesChained) (acts : List (Action Request Input)) :
    TokenFamilies ((Config.init s : Auth.Config).run (handler env) acts).world ∧
    ∀ pid token context result family,
      ((Config.init s : Auth.Config).run (handler env) acts).outcome pid =
        some (.refresh token context, result) →
      Replayed pid family ((Config.init s : Auth.Config).run (handler env) acts).world →
      ∀ later, ((Config.init s : Auth.Config).run (handler env) (acts ++ later)).world.store.Dead
        family := by
  refine ⟨run_tokenFamilies env hn hc acts, fun pid token context result family hout hr later => ?_⟩
  have hsettled : Settled pid _ := (run_meets env hn acts).outcome hout
  exact run_dead env hn acts later (hsettled family hr)

/-- A registration, a rotation, and the rotated token presented again. -/
def replayRun : List (Action Request Input) :=
  [.request (.register ⟨"a@example.org", "password", none⟩ ⟨none, none⟩)] ++
    advances 0 12 (.at 0 "first") ++
  [.request (.refresh "first" ⟨none, none⟩)] ++ advances 1 12 (.at 0 "second") ++
  [.request (.refresh "first" ⟨none, none⟩)] ++ advances 2 12 (.at 0 "third")

theorem refresh_token_families_replay :
    TokenFamilies
      ((Config.init Store.empty : Auth.Config).run (handler .transparent) replayRun).world ∧
    ((Config.init Store.empty : Auth.Config).run (handler .transparent)
      (replayRun ++ [])).world.store.Dead 3 := by
  have h := refresh_token_families .transparent Store.empty numbered_empty (fun _ => chained_nil)
    replayRun
  refine ⟨h.1, h.2 2 "first" ⟨none, none⟩
    (.error (.http .unauthorized "Refresh token has been revoked")) 3 ?_ ⟨2, .inl ?_⟩ []⟩
  · decide +kernel
  · decide +kernel

end ShipFlow.Auth
