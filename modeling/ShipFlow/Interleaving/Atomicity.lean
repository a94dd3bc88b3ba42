import ShipFlow.Interleaving.Pool

/-! Requests that change the store in one action or not at all, and that cannot
fail once they have changed it. -/

namespace Interleaving
variable {ρ ι σ ω ε α β : Type}

namespace Process

def ReadOnly : Process ι σ ω ε α → Prop
  | .done _ => True
  | .fail _ => True
  | .step act next => ∀ i s, (act i s).1 = s ∧ (next i s).ReadOnly

/-- The request ends well without changing the store. -/
def Succeeds : Process ι σ ω ε α → Prop
  | .done _ => True
  | .fail _ => False
  | .step act next => ∀ i s, (act i s).1 = s ∧ (next i s).Succeeds

def AllOrNothing : Process ι σ ω ε α → Prop
  | .done _ => True
  | .fail _ => True
  | .step act next => ∀ i s, ((act i s).1 = s ∧ (next i s).AllOrNothing) ∨ (next i s).Succeeds

variable {p : Process ι σ ω ε α} {k : α → Process ι σ ω ε β}

theorem Succeeds.allOrNothing (h : p.Succeeds) : p.AllOrNothing := by
  cases p with
  | done a => exact True.intro
  | fail e => exact True.intro
  | step act next => exact fun i s => .inr (h i s).2

theorem ReadOnly.bind (h : p.ReadOnly) (hk : ∀ a, (k a).ReadOnly) : (p >>= k).ReadOnly := by
  induction p with
  | done a => exact hk a
  | fail e => exact True.intro
  | step act next ih => exact fun i s => ⟨(h i s).1, ih i s (h i s).2⟩

theorem AllOrNothing.bind (h : p.ReadOnly) (hk : ∀ a, (k a).AllOrNothing) :
    (p >>= k).AllOrNothing := by
  induction p with
  | done a => exact hk a
  | fail e => exact True.intro
  | step act next ih => exact fun i s => .inl ⟨(h i s).1, ih i s (h i s).2⟩

theorem Succeeds.map (h : p.Succeeds) (g : α → β) : (g <$> p).Succeeds := by
  induction p with
  | done a => exact True.intro
  | fail e => exact h
  | step act next ih => exact fun i s => ⟨(h i s).1, ih i s (h i s).2⟩

theorem AllOrNothing.map (h : p.AllOrNothing) (g : α → β) : (g <$> p).AllOrNothing := by
  induction p with
  | done a => exact True.intro
  | fail e => exact True.intro
  | step act next ih =>
    intro i s
    rcases h i s with ⟨hs, hn⟩ | hn
    · exact .inl ⟨hs, ih i s hn⟩
    · exact .inr (hn.map g)

theorem readOnly_ask (f : ι → α) : (Process.ask f : Process ι σ ω ε α).ReadOnly :=
  fun _ _ => ⟨rfl, True.intro⟩

theorem readOnly_query (f : σ → α) : (Process.query f : Process ι σ ω ε α).ReadOnly :=
  fun _ _ => ⟨rfl, True.intro⟩

theorem readOnly_rejectIf (c : Bool) (e : ε) :
    (Process.rejectIf c e : Process ι σ ω ε Unit).ReadOnly := by
  cases c with
  | true => exact True.intro
  | false => exact True.intro

theorem allOrNothing_atomically {m : ι → Transaction σ ε α} {observe : Except ε α → List ω}
    (h : ∀ a, (k a).Succeeds) : (Process.atomically m observe >>= k).AllOrNothing := by
  intro i s
  cases hm : m i s with
  | ok r =>
    right
    simp only [hm]
    exact h r.1
  | error e => exact .inl ⟨by simp only [hm], by simp only [hm]; exact True.intro⟩

/-- Every action that changes the store is observed. -/
def Observed : Process ι σ ω ε α → Prop
  | .done _ => True
  | .fail _ => True
  | .step act next => ∀ i s, ((act i s).2 = [] → (act i s).1 = s) ∧ (next i s).Observed

theorem ReadOnly.observed (h : p.ReadOnly) : p.Observed := by
  induction p with
  | done a => exact True.intro
  | fail e => exact True.intro
  | step act next ih => exact fun i s => ⟨fun _ => (h i s).1, ih i s (h i s).2⟩

theorem Observed.bind (h : p.Observed) (hk : ∀ a, (k a).Observed) : (p >>= k).Observed := by
  induction p with
  | done a => exact hk a
  | fail e => exact True.intro
  | step act next ih => exact fun i s => ⟨(h i s).1, ih i s (h i s).2⟩

theorem Observed.map (h : p.Observed) (g : α → β) : (g <$> p).Observed :=
  h.bind fun _ => True.intro

theorem Observed.handle {h : ε → Process ι σ ω ε α} (hp : p.Observed) (hh : ∀ e, (h e).Observed) :
    (p.handle h).Observed := by
  induction p with
  | done a => exact True.intro
  | fail e => exact hh e
  | step act next ih => exact fun i s => ⟨(hp i s).1, ih i s (hp i s).2⟩

theorem observed_atomically {m : ι → Transaction σ ε α} {observe : Except ε α → List ω}
    (h : ∀ a, observe (.ok a) ≠ []) : (Process.atomically m observe).Observed := by
  intro i s
  cases hm : m i s with
  | ok r =>
    simp only [hm]
    exact ⟨fun hnone => absurd hnone (h r.1), True.intro⟩
  | error e =>
    simp only [hm]
    exact ⟨by simp, True.intro⟩

end Process

namespace Config
variable {handler : ρ → Process ι σ ω ε α} {c : Config ρ ι σ ω ε α} {pid : Nat} {r : ρ}
  {p : Process ι σ ω ε α}

/-- A request in flight goes on from where it is. -/
theorem act_pool (handler : ρ → Process ι σ ω ε α) (h : c.pool[pid]? = some (r, p)) (a : Action ρ ι) :
    (c.act handler a).pool[pid]? = some (r, p) ∨ ∃ i act next,
      a = .advance pid i ∧ p = .step act next ∧
      (c.act handler a).pool[pid]? = some (r, next i c.world.store) ∧
      (c.act handler a).world.store = (act i c.world.store).1 := by
  have hlt : pid < c.pool.length := (List.getElem?_eq_some_iff.mp h).1
  rcases act_cases handler c a with ⟨r', rfl⟩ | hidle | ⟨q, i, r', f, next, rfl, hq⟩
  · left
    rw [act, List.getElem?_append_left hlt, h]
  · rw [hidle]
    exact .inl h
  · rw [act_advance hq]
    by_cases hpq : q = pid
    · subst hpq
      rw [h] at hq
      cases hq
      exact .inr ⟨i, f, next, rfl, rfl, by rw [List.getElem?_set_self hlt], rfl⟩
    · left
      rw [List.getElem?_set_ne hpq, h]

theorem run_succeeds (handler : ρ → Process ι σ ω ε α) (h : c.pool[pid]? = some (r, p)) (hp : p.Succeeds)
    (acts : List (Action ρ ι)) :
    ∃ p', (c.run handler acts).pool[pid]? = some (r, p') ∧ p'.Succeeds := by
  induction acts generalizing c p with
  | nil => exact ⟨p, h, hp⟩
  | cons a as ih =>
    rcases act_pool handler h a with h' | ⟨i, act, next, -, rfl, h', -⟩
    · exact ih h' hp
    · exact ih h' (hp i c.world.store).2

theorem run_request (handler : ρ → Process ι σ ω ε α) (h : c.pool[pid]? = some (r, p)) (acts : List (Action ρ ι)) :
    ∃ p', (c.run handler acts).pool[pid]? = some (r, p') := by
  induction acts generalizing c p with
  | nil => exact ⟨p, h⟩
  | cons a as ih =>
    rcases act_pool handler h a with h' | ⟨i, act, next, -, rfl, h', -⟩
    · exact ih h'
    · exact ih h'

/-- A request that has arrived is in flight or has ended. -/
theorem mem_pool_of_request (handler : ρ → Process ι σ ω ε α) (c : Config ρ ι σ ω ε α)
    {acts : List (Action ρ ι)} (h : .request r ∈ acts) :
    ∃ (pid : Nat) (p : Process ι σ ω ε α), (c.run handler acts).pool[pid]? = some (r, p) := by
  obtain ⟨before, after, rfl⟩ := List.append_of_mem h
  rw [run_append, run_cons]
  have harrived : ((c.run handler before).act handler (.request r)).pool[
      (c.run handler before).pool.length]? = some (r, handler r) := by
    rw [act, List.getElem?_append_right (Nat.le_refl _), Nat.sub_self]
    rfl
  exact ⟨_, run_request handler harrived after⟩

theorem act_new (h : c.pool[pid]? = none) {a : Action ρ ι}
    (h' : (c.act handler a).pool[pid]? = some (r, p)) : p = handler r := by
  rcases act_cases handler c a with ⟨r', rfl⟩ | hidle | ⟨q, i, r', f, next, rfl, hq⟩
  · rw [act, List.getElem?_append_right (List.getElem?_eq_none_iff.mp h),
      List.getElem?_singleton] at h'
    split at h'
    · cases h'
      rfl
    · cases h'
  · rw [hidle, h] at h'
    cases h'
  · rw [act_advance hq] at h'
    have hlen := List.getElem?_eq_none_iff.mp h
    rw [List.getElem?_eq_none_iff.mpr (by simpa using hlen)] at h'
    cases h'

/-- What a request passes on to the rest of itself holds of what is left of it. -/
theorem run_kept {Φ : Process ι σ ω ε α → Prop}
    (hstep : ∀ act next i s, Φ (.step act next) → Φ (next i s))
    (hall : ∀ r p, c.pool[pid]? = some (r, p) → Φ (handler r) → Φ p) (acts : List (Action ρ ι)) :
    ∀ r p, (c.run handler acts).pool[pid]? = some (r, p) → Φ (handler r) → Φ p := by
  induction acts generalizing c with
  | nil => exact hall
  | cons a as ih =>
    refine ih fun r p' h' hr => ?_
    rcases hpool : c.pool[pid]? with _ | ⟨r₀, p₀⟩
    · rw [act_new hpool h']
      exact hr
    · rcases act_pool handler hpool a with hsame | ⟨i, act, next, -, rfl, hnext, -⟩
      · rw [h'] at hsame
        cases hsame
        exact hall r _ hpool hr
      · rw [h'] at hnext
        cases hnext
        exact hstep act next i _ (hall r _ hpool hr)

/-- What is left of an all-or-nothing request is all-or-nothing. -/
theorem run_allOrNothing (hall : ∀ r p, c.pool[pid]? = some (r, p) →
      (handler r).AllOrNothing → p.AllOrNothing) (acts : List (Action ρ ι)) :
    ∀ r p, (c.run handler acts).pool[pid]? = some (r, p) → (handler r).AllOrNothing →
      p.AllOrNothing := by
  refine run_kept (fun act next i s h => ?_) hall acts
  rcases h i s with ⟨-, h⟩ | h
  · exact h
  · exact h.allOrNothing

/-- The request behind an outcome. -/
theorem request_of_outcome {acts : List (Action ρ ι)} {o : Except ε α} {r₀ : ρ}
    (hpool : c.pool[pid]? = some (r₀, p)) (h : (c.run handler acts).outcome pid = some (r, o)) :
    r₀ = r := by
  obtain ⟨p', hp'⟩ := run_request handler hpool acts
  unfold outcome at h
  rw [hp'] at h
  split at h <;> simp_all

/-- An action that is not observed, of a request that is observed, changed nothing. -/
theorem unchanged_of_unobserved {s : σ} {before after : List (Action ρ ι)} {i : ι} {o : Except ε α}
    (hall : (handler r).Observed)
    (h : ((init s : Config ρ ι σ ω ε α).run handler
      (before ++ .advance pid i :: after)).outcome pid = some (r, o))
    (hquiet : ((init s : Config ρ ι σ ω ε α).run handler before).world.newEvents
      ((init s : Config ρ ι σ ω ε α).run handler (before ++ [.advance pid i])).world = []) :
    ((init s : Config ρ ι σ ω ε α).run handler (before ++ [.advance pid i])).world.store =
      ((init s : Config ρ ι σ ω ε α).run handler before).world.store := by
  rw [run_append] at h
  rw [run_append, run_cons, run_nil] at hquiet ⊢
  have hkept : ∀ r p, ((init s : Config ρ ι σ ω ε α).run handler before).pool[pid]? = some (r, p) →
      (handler r).Observed → p.Observed :=
    run_kept (fun act next i s h => (h i s).2) (by simp [init]) before
  generalize (init s : Config ρ ι σ ω ε α).run handler before = c at h hkept hquiet ⊢
  rcases hpool : c.pool[pid]? with _ | ⟨r₀, _ | _ | ⟨act, next⟩⟩
  · simp [Config.act, hpool]
  · simp [Config.act, hpool]
  · simp [Config.act, hpool]
  · have hr : r₀ = r := request_of_outcome hpool h
    subst hr
    rw [act_advance hpool] at hquiet ⊢
    have hnone := (World.newEvents_advance c.world pid _ _).symm.trans hquiet
    exact (hkept r₀ _ hpool hall i c.world.store).1 (List.map_eq_nil_iff.mp hnone)

/-- No action of a request that ended with an error changed the store. -/
theorem unchanged_of_failed {s : σ} {before after : List (Action ρ ι)} {i : ι} {e : ε}
    (hall : (handler r).AllOrNothing)
    (h : ((init s : Config ρ ι σ ω ε α).run handler
      (before ++ .advance pid i :: after)).outcome pid = some (r, .error e)) :
    ((init s : Config ρ ι σ ω ε α).run handler (before ++ [.advance pid i])).world.store =
      ((init s : Config ρ ι σ ω ε α).run handler before).world.store := by
  rw [run_append, run_cons] at h
  rw [run_append, run_cons, run_nil]
  have hkept : ∀ r p, ((init s : Config ρ ι σ ω ε α).run handler before).pool[pid]? = some (r, p) →
      (handler r).AllOrNothing → p.AllOrNothing := run_allOrNothing (by simp [init]) before
  generalize (init s : Config ρ ι σ ω ε α).run handler before = c at h hkept ⊢
  rcases hpool : c.pool[pid]? with _ | ⟨r₀, _ | _ | ⟨act, next⟩⟩
  · simp [Config.act, hpool]
  · simp [Config.act, hpool]
  · simp [Config.act, hpool]
  · have hlt : pid < c.pool.length := (List.getElem?_eq_some_iff.mp hpool).1
    rw [act_advance hpool] at h ⊢
    have hnext : (c.pool.set pid (r₀, next i c.world.store))[pid]? =
        some (r₀, next i c.world.store) := List.getElem?_set_self hlt
    have hr : r₀ = r := request_of_outcome (c := ⟨_, _⟩) hnext h
    subst hr
    rcases hkept r₀ _ hpool hall i c.world.store with ⟨hsame, -⟩ | hsucceeds
    · exact hsame
    · -- a request that changed the store ends well
      obtain ⟨p'', hp'', hs⟩ := run_succeeds (c := ⟨_, _⟩) handler hnext hsucceeds after
      unfold outcome at h
      rw [hp''] at h
      cases p'' with
      | done a => simp at h
      | fail e' => exact absurd hs id
      | step act' next' => simp at h

end Config
end Interleaving
