import ShipFlow.Interleaving.Pool

/-! Requests of one kind that run one after the other, each of which may crash, among
requests that may act at any time. -/

namespace Interleaving
variable {ρ ι σ ω ε α : Type}

/-- No request of the kind has arrived after the request with this number. -/
def Current (Kind : ρ → Prop) (arrived : List ρ) (pid : Nat) : Prop :=
  ∀ r ∈ arrived.drop (pid + 1), ¬ Kind r

instance {Kind : ρ → Prop} [DecidablePred Kind] (arrived : List ρ) (pid : Nat) :
    Decidable (Current Kind arrived pid) :=
  inferInstanceAs (Decidable (∀ r ∈ arrived.drop (pid + 1), ¬ Kind r))

/-- A request of the kind is not advanced any more once the next one has arrived: by then it
has ended, or it has crashed. -/
def OneByOne (Kind : ρ → Prop) : List ρ → List (Action ρ ι) → Prop
  | _, [] => True
  | arrived, .request r :: acts => OneByOne Kind (arrived ++ [r]) acts
  | arrived, .advance pid _ :: acts =>
    (∀ r ∈ arrived[pid]?, Kind r → Current Kind arrived pid) ∧ OneByOne Kind arrived acts

instance OneByOne.decidable {Kind : ρ → Prop} [DecidablePred Kind] :
    (arrived : List ρ) → (acts : List (Action ρ ι)) → Decidable (OneByOne Kind arrived acts)
  | _, [] => inferInstanceAs (Decidable True)
  | arrived, .request r :: acts => OneByOne.decidable (arrived ++ [r]) acts
  | arrived, .advance pid _ :: acts =>
    have : Decidable (OneByOne Kind arrived acts) := OneByOne.decidable arrived acts
    inferInstanceAs (Decidable ((∀ r ∈ arrived[pid]?, Kind r → Current Kind arrived pid) ∧ _))

/-- A request that acts at any time and counts, for all the others, as interference. -/
def Contract.passive (C : Contract σ ω) : Contract σ ω where
  rely _ _ _ := True
  inv := C.inv
  guar _ w w' := ∀ q, C.rely q w w'
  rely_refl _ _ := True.intro
  rely_trans _ _ _ _ _ _ := True.intro

/-- The handlers of the requests in `Allowed` meet the contract. -/
structure Contract.Served (C : Contract σ ω) (Kind Allowed : ρ → Prop)
    (Q : ρ → Except ε α → World σ ω → Prop) (handler : ρ → Process ι σ ω ε α) : Prop where
  kind : ∀ r, Allowed r → Kind r → ∀ pid w, C.inv w → Ensures C pid (Q r) (handler r) w
  others : ∀ r, Allowed r → ¬ Kind r → ∀ pid w, C.inv w →
    Ensures C.passive pid (fun _ _ => True) (handler r) w

/-- What one action can do to the world: it is a step of a request of the kind, or
interference. -/
inductive Contract.Moves (C : Contract σ ω) (w w' : World σ ω) : Prop where
  | idle (h : w' = w)
  | served (pid : Nat) (h : C.guar pid w w')
  | interfered (h : ∀ q, C.rely q w w')

/-- The request of the kind that runs keeps the contract, those that have ended have their
postconditions, and all others are interference. -/
structure Config.Serves (C : Contract σ ω) (Kind : ρ → Prop)
    (Q : ρ → Except ε α → World σ ω → Prop) (c : Config ρ ι σ ω ε α) : Prop where
  holds : C.inv c.world
  current : ∀ pid r p, c.pool[pid]? = some (r, p) → Kind r →
    Current Kind (c.pool.map Prod.fst) pid → Ensures C pid (Q r) p c.world
  others : ∀ pid r p, c.pool[pid]? = some (r, p) → ¬ Kind r →
    Ensures C.passive pid (fun _ _ => True) p c.world
  ended : ∀ pid r o, c.outcome pid = some (r, o) → Kind r → Q r o c.world

theorem Current.of_append {Kind : ρ → Prop} {arrived : List ρ} {r : ρ} {pid : Nat}
    (h : Current Kind (arrived ++ [r]) pid) (hpid : pid < arrived.length) :
    ¬ Kind r ∧ Current Kind arrived pid := by
  rw [Current, List.drop_append_of_le_length hpid] at h
  constructor
  · exact h r (List.mem_append_right _ (List.mem_singleton_self r))
  · exact fun r' hr' => h r' (List.mem_append_left _ hr')

namespace Config
variable {c : Config ρ ι σ ω ε α} {pid : Nat} {r : ρ} {o : Except ε α}

/-- A request with an outcome has come to an end. -/
theorem outcome_eq_some : c.outcome pid = some (r, o) ↔
    c.pool[pid]? = some (r, match o with
      | .ok a => .done a
      | .error e => .fail e) := by
  unfold outcome
  rcases c.pool[pid]? with _ | ⟨r', _ | _ | _⟩ <;> rcases o with _ | _ <;> simp

/-- The numbers of the requests are those of their arrival. -/
theorem arrived_act (handler : ρ → Process ι σ ω ε α) (c : Config ρ ι σ ω ε α) (a : Action ρ ι) :
    (c.act handler a).pool.map Prod.fst = match a with
      | .request r => c.pool.map Prod.fst ++ [r]
      | .advance _ _ => c.pool.map Prod.fst := by
  cases a with
  | request r => simp [act]
  | advance pid i =>
    simp only [act]
    split
    · rename_i r f next hp
      obtain ⟨hlt, hget⟩ := List.getElem?_eq_some_iff.mp hp
      have hr : r = (c.pool.map Prod.fst).get ⟨pid, by simpa using hlt⟩ := by simp [hget]
      rw [List.map_set]
      show (c.pool.map Prod.fst).set pid r = _
      rw [hr, List.get_eq_getElem, List.set_getElem_self]
    · rfl

/-- A request that has its postcondition when it ends has it when it has an outcome. -/
theorem outcome_ensured {C : Contract σ ω} {Q : Except ε α → World σ ω → Prop}
    {p : Process ι σ ω ε α} (ho : c.outcome pid = some (r, o)) (hp : c.pool[pid]? = some (r, p))
    (h : Ensures C pid Q p c.world) (hinv : C.inv c.world) : Q o c.world := by
  have hpool := outcome_eq_some.mp ho
  rw [hp, Option.some.injEq, Prod.mk.injEq] at hpool
  obtain ⟨-, rfl⟩ := hpool
  cases o with
  | ok a => exact h c.world (C.rely_refl _ _) hinv
  | error e => exact h c.world (C.rely_refl _ _) hinv

end Config

/-- Only one request of the kind runs. -/
theorem Current.unique {Kind : ρ → Prop} {arrived : List ρ} {pid pid' : Nat} {r r' : ρ}
    (hget : arrived[pid]? = some r) (hget' : arrived[pid']? = some r') (hr : Kind r)
    (hr' : Kind r') (h : Current Kind arrived pid) (h' : Current Kind arrived pid') :
    pid = pid' := by
  have hle : ∀ {p q : Nat} {s : ρ}, arrived[q]? = some s → Kind s → Current Kind arrived p →
      q ≤ p := by
    intro p q s hq hs hp
    by_contra hlt
    refine hp s ?_ hs
    rw [List.mem_iff_getElem?]
    exact ⟨q - (p + 1), by rw [List.getElem?_drop, ← hq]; congr 1; omega⟩
  exact Nat.le_antisymm (hle hget hr h') (hle hget' hr' h)

namespace Config.Serves
variable {C : Contract σ ω} {Kind Allowed : ρ → Prop} {Q : ρ → Except ε α → World σ ω → Prop}
  {handler : ρ → Process ι σ ω ε α} {c : Config ρ ι σ ω ε α}

theorem init {s : σ} (h : C.inv ⟨s, []⟩) :
    Config.Serves C Kind Q (Config.init s : Config ρ ι σ ω ε α) := by
  constructor <;> simp [Config.init, Config.outcome, h]

theorem request (hserved : C.Served Kind Allowed Q handler) (h : c.Serves C Kind Q) {r : ρ}
    (hr : Allowed r) : (c.act handler (.request r)).Serves C Kind Q := by
  have hpool : ∀ {pid : Nat} {r' p}, (c.act handler (.request r)).pool[pid]? = some (r', p) →
      c.pool[pid]? = some (r', p) ∨ r' = r ∧ p = handler r := by
    intro pid r' p hp
    simp only [Config.act] at hp
    rw [List.getElem?_append] at hp
    split at hp
    · exact .inl hp
    · obtain ⟨hlt, heq⟩ := List.getElem?_eq_some_iff.mp hp
      simp only [List.getElem_singleton, Prod.mk.injEq] at heq
      exact .inr ⟨heq.1.symm, heq.2.symm⟩
  refine ⟨h.holds, fun pid r' p hp hkind hcurrent => ?_, fun pid r' p hp hkind => ?_,
    fun pid r' o ho hkind => ?_⟩
  · rcases hpool hp with hp | ⟨rfl, rfl⟩
    · have hlt := (List.getElem?_eq_some_iff.mp hp).1
      rw [Config.arrived_act] at hcurrent
      exact h.current pid r' p hp hkind (hcurrent.of_append (by simpa using hlt)).2
    · exact hserved.kind r' hr hkind pid c.world h.holds
  · rcases hpool hp with hp | ⟨rfl, rfl⟩
    · exact h.others pid r' p hp hkind
    · exact hserved.others r' hr hkind pid c.world h.holds
  · rcases hpool (Config.outcome_eq_some.mp ho) with hp | ⟨rfl, hp⟩
    · exact h.ended pid r' o (Config.outcome_eq_some.mpr hp) hkind
    · have hens := hserved.kind r' hr hkind pid c.world h.holds
      rw [← hp] at hens
      exact Config.outcome_ensured ho (Config.outcome_eq_some.mp ho) hens h.holds

/-- The next step of a request keeps what the others rely on. -/
theorem moved (hstable : ∀ r o w w', C.inv w' → C.Moves w w' → Q r o w → Q r o w')
    (h : c.Serves C Kind Q) {pid : Nat} {r : ρ} {p q : Process ι σ ω ε α} {w' : World σ ω}
    (hp : c.pool[pid]? = some (r, p)) (hinv : C.inv w') (hmoves : C.Moves c.world w')
    (hmine : Kind r → Ensures C pid (Q r) q w')
    (hother : ¬ Kind r → Ensures C.passive pid (fun _ _ => True) q w')
    (hrely : ∀ pid' r' p', pid' ≠ pid → c.pool[pid']? = some (r', p') → Kind r' →
      Current Kind (c.pool.map Prod.fst) pid' → C.rely pid' c.world w')
    (harrived : (c.pool.set pid (r, q)).map Prod.fst = c.pool.map Prod.fst) :
    Config.Serves C Kind Q (⟨w', c.pool.set pid (r, q)⟩ : Config ρ ι σ ω ε α) := by
  have hpool : ∀ {pid' : Nat} {r' p'}, (c.pool.set pid (r, q))[pid']? = some (r', p') →
      pid' = pid ∧ r' = r ∧ p' = q ∨ pid' ≠ pid ∧ c.pool[pid']? = some (r', p') := by
    intro pid' r' p' hp'
    rw [List.getElem?_set] at hp'
    split at hp'
    · have hlt := (List.getElem?_eq_some_iff.mp hp).1
      rw [if_pos (by omega), Option.some.injEq, Prod.mk.injEq] at hp'
      exact .inl ⟨by omega, hp'.1.symm, hp'.2.symm⟩
    · exact .inr ⟨by omega, hp'⟩
  refine ⟨hinv, fun pid' r' p' hp' hkind hcurrent => ?_, fun pid' r' p' hp' hkind => ?_,
    fun pid' r' o ho hkind => ?_⟩
  · rcases hpool hp' with ⟨rfl, rfl, rfl⟩ | ⟨hne, hp'⟩
    · exact hmine hkind
    · rw [harrived] at hcurrent
      exact (h.current pid' r' p' hp' hkind hcurrent).rely (hrely pid' r' p' hne hp' hkind hcurrent)
  · rcases hpool hp' with ⟨rfl, rfl, rfl⟩ | ⟨hne, hp'⟩
    · exact hother hkind
    · exact (h.others pid' r' p' hp' hkind).rely True.intro
  · rcases hpool (Config.outcome_eq_some.mp ho) with ⟨rfl, rfl, hq⟩ | ⟨hne, hp'⟩
    · have hens := hmine hkind
      rw [← hq] at hens
      exact Config.outcome_ensured ho (Config.outcome_eq_some.mp ho) hens hinv
    · have hold := h.ended pid' r' o (Config.outcome_eq_some.mpr hp') hkind
      exact hstable r' o c.world w' hinv hmoves hold

theorem act (hserved : C.Served Kind Allowed Q handler)
    (hstable : ∀ r o w w', C.inv w' → C.Moves w w' → Q r o w → Q r o w')
    (h : c.Serves C Kind Q) {a : Action ρ ι} {acts : List (Action ρ ι)}
    (hallowed : ∀ r, a = .request r → Allowed r)
    (hserial : OneByOne Kind (c.pool.map Prod.fst) (a :: acts)) :
    (c.act handler a).Serves C Kind Q ∧ C.Moves c.world (c.act handler a).world ∧
      OneByOne Kind ((c.act handler a).pool.map Prod.fst) acts := by
  rw [Config.arrived_act]
  rcases Config.act_cases handler c a with ⟨r, rfl⟩ | hidle | ⟨pid, i, r, f, next, rfl, hp⟩
  · exact ⟨h.request hserved (hallowed r rfl), .idle rfl, hserial⟩
  · rw [hidle]
    refine ⟨h, .idle rfl, ?_⟩
    cases a with
    | request r => exact hserial
    | advance pid i => exact hserial.2
  · refine and_assoc.mp ⟨?_, hserial.2⟩
    have hget : (c.pool.map Prod.fst)[pid]? = some r := by simp [hp]
    have harrived := Config.arrived_act handler c (.advance pid i)
    rw [Config.act_advance hp] at harrived ⊢
    by_cases hkind : Kind r
    · have hcurrent := hserial.1 r hget hkind
      obtain ⟨hinv, hguar, hnext⟩ :=
        h.current pid r _ hp hkind hcurrent c.world (C.rely_refl _ _) h.holds i
      refine ⟨h.moved hstable hp hinv (.served pid hguar) (fun _ => hnext) (absurd hkind) ?_
        harrived, .served pid hguar⟩
      -- there is no other request of the kind to rely on anything
      intro pid' r' p' hne hp' hkind' hcurrent'
      have hget' : (c.pool.map Prod.fst)[pid']? = some r' := by simp [hp']
      exact absurd (Current.unique hget' hget hkind' hkind hcurrent' hcurrent) hne
    · obtain ⟨hinv, hrely, hnext⟩ := h.others pid r _ hp hkind c.world True.intro h.holds i
      refine ⟨h.moved hstable hp hinv (.interfered hrely) (fun hk => absurd hk hkind)
        (fun _ => hnext) (fun pid' _ _ _ _ _ _ => hrely pid') harrived, .interfered hrely⟩

/-- The induction over runs, from any point of a run on. -/
theorem run (hserved : C.Served Kind Allowed Q handler)
    (hstable : ∀ r o w w', C.inv w' → C.Moves w w' → Q r o w → Q r o w')
    (h : c.Serves C Kind Q) {acts : List (Action ρ ι)} (hallowed : ∀ r, .request r ∈ acts → Allowed r)
    (hserial : OneByOne Kind (c.pool.map Prod.fst) acts) :
    (c.run handler acts).Serves C Kind Q ∧
      Relation.ReflTransGen C.Moves c.world (c.run handler acts).world := by
  induction acts generalizing c with
  | nil => exact ⟨h, .refl⟩
  | cons a acts ih =>
    obtain ⟨hact, hmoves, hrest⟩ :=
      h.act hserved hstable (fun r hr => hallowed r (hr ▸ List.mem_cons_self)) hserial
    have hlater := ih hact (fun r hr => hallowed r (List.mem_cons_of_mem a hr)) hrest
    exact ⟨hlater.1, hlater.2.head hmoves⟩

end Config.Serves

/-- The first part of a run and the rest of it. -/
theorem OneByOne.append {Kind : ρ → Prop} (handler : ρ → Process ι σ ω ε α)
    {c : Config ρ ι σ ω ε α} {before after : List (Action ρ ι)}
    (h : OneByOne Kind (c.pool.map Prod.fst) (before ++ after)) :
    OneByOne Kind (c.pool.map Prod.fst) before ∧
      OneByOne Kind ((c.run handler before).pool.map Prod.fst) after := by
  induction before generalizing c with
  | nil => exact ⟨True.intro, h⟩
  | cons a before ih =>
    have harrived := Config.arrived_act handler c a
    cases a with
    | request r =>
      have hrest : OneByOne Kind ((c.act handler (.request r)).pool.map Prod.fst)
          (before ++ after) := by
        rw [harrived]
        exact h
      obtain ⟨hbefore, hafter⟩ := ih hrest
      rw [harrived] at hbefore
      exact ⟨hbefore, hafter⟩
    | advance pid i =>
      have hrest : OneByOne Kind ((c.act handler (.advance pid i)).pool.map Prod.fst)
          (before ++ after) := by
        rw [harrived]
        exact h.2
      obtain ⟨hbefore, hafter⟩ := ih hrest
      rw [harrived] at hbefore
      exact ⟨⟨h.1, hbefore⟩, hafter⟩

end Interleaving
