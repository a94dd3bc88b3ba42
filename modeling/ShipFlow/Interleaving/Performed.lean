import ShipFlow.Interleaving.Pool

/-! The actions of one request in a run: the worlds in which it acts, and the inputs. -/

namespace Interleaving
variable {ρ ι σ ω ε α β : Type}

namespace Process

/-- What is left of a request after these actions. -/
def after : Process ι σ ω ε α → List (World σ ω × ι) → Process ι σ ω ε α
  | .step _ next, (w, i) :: log => (next i w.store).after log
  | p, _ => p

/-- The next action of a request that has not ended. -/
def action? : Process ι σ ω ε α → Option (ι → σ → σ × List ω)
  | .step act _ => some act
  | _ => none

/-- The two requests have the same action next. -/
def Begins (p : Process ι σ ω ε α) (q : Process ι σ ω ε β) : Prop :=
  ∃ act, p.action? = some act ∧ q.action? = some act

@[simp] theorem after_nil (p : Process ι σ ω ε α) : p.after [] = p := by
  cases p <;> rfl

@[simp] theorem after_done (a : α) (log : List (World σ ω × ι)) :
    (.done a : Process ι σ ω ε α).after log = .done a := by
  cases log <;> rfl

theorem not_begins_done {a : α} {q : Process ι σ ω ε β} :
    ¬ (.done a : Process ι σ ω ε α).Begins q := by
  rintro ⟨_, h, -⟩
  cases h

end Process

namespace Config
variable {handler : ρ → Process ι σ ω ε α} {c : Config ρ ι σ ω ε α} {pid : Nat} {r : ρ}
  {p : Process ι σ ω ε α} {acts : List (Action ρ ι)}

/-- The worlds in which the request acts, each with the input of its action. -/
def performed (handler : ρ → Process ι σ ω ε α) (pid : Nat) :
    Config ρ ι σ ω ε α → List (Action ρ ι) → List (World σ ω × ι)
  | _, [] => []
  | c, .request r :: acts => performed handler pid (c.act handler (.request r)) acts
  | c, .advance q i :: acts =>
    (if q = pid then
      match c.pool[pid]? with
      | some (_, .step _ _) => [(c.world, i)]
      | _ => []
    else []) ++ performed handler pid (c.act handler (.advance q i)) acts

/-- After `n` actions of its own, in this world and with this input, the request acts as `q` does
first. -/
def Calls (handler : ρ → Process ι σ ω ε α) (c : Config ρ ι σ ω ε α) (pid : Nat)
    (acts : List (Action ρ ι)) (n : Nat) (q : Process ι σ ω ε β) (w : World σ ω) (i : ι) : Prop :=
  ∃ before later, acts = before ++ .advance pid i :: later ∧
    (performed handler pid c before).length = n ∧ (c.run handler before).world = w ∧
    ∃ r p, (c.run handler before).pool[pid]? = some (r, p) ∧ p.Begins q

/-- An action of a run is one of the request, or leaves the request as it is. -/
theorem performed_cases (handler : ρ → Process ι σ ω ε α) (hp : c.pool[pid]? = some (r, p))
    (a : Action ρ ι) :
    (∃ i act next, a = .advance pid i ∧ p = .step act next ∧
      (c.act handler a).pool[pid]? = some (r, next i c.world.store) ∧
      ∀ acts, performed handler pid c (a :: acts) =
        (c.world, i) :: performed handler pid (c.act handler a) acts) ∨
    ((∀ i act next, a = .advance pid i → p ≠ .step act next) ∧
      (c.act handler a).pool[pid]? = some (r, p) ∧
      ∀ acts, performed handler pid c (a :: acts) =
        performed handler pid (c.act handler a) acts) := by
  have hlt : pid < c.pool.length := (List.getElem?_eq_some_iff.mp hp).1
  cases a with
  | request r' =>
    refine .inr ⟨fun _ _ _ h => (by cases h), ?_, fun _ => rfl⟩
    rw [act, List.getElem?_append_left hlt]
    exact hp
  | advance q i =>
    by_cases hq : q = pid
    · subst hq
      cases p with
      | step f next =>
        refine .inl ⟨i, f, next, rfl, rfl, ?_, by simp [performed, hp]⟩
        rw [act_advance hp, List.getElem?_set_self hlt]
      | _ =>
        refine .inr ⟨fun _ _ _ _ h => (by cases h), ?_, by simp [performed, hp]⟩
        simp [act, hp]
    · refine .inr ⟨fun _ _ _ h => ?_, ?_, by simp [performed, hq]⟩
      · cases h
        exact absurd rfl hq
      · simp only [act]
        split
        · rw [List.getElem?_set_ne hq]
          exact hp
        · exact hp

/-- A request is what its own actions have left of it. -/
theorem pool_run (hp : c.pool[pid]? = some (r, p)) :
    (c.run handler acts).pool[pid]? = some (r, p.after (performed handler pid c acts)) := by
  induction acts generalizing c p with
  | nil => rw [performed, Process.after_nil, run_nil, hp]
  | cons a acts ih =>
    rw [run_cons]
    rcases performed_cases handler hp a with ⟨i, f, next, rfl, rfl, hnext, hlog⟩ | ⟨-, hnext, hlog⟩
    · rw [ih hnext, hlog, Process.after]
    · rw [ih hnext, hlog]

/-- A call is the first action of a run, or it comes after it, and after what the request has done
in it. -/
theorem calls_cons {a : Action ρ ι} (own : List (World σ ω × ι))
    (hown : ∀ acts, performed handler pid c (a :: acts) =
      own ++ performed handler pid (c.act handler a) acts)
    {n : Nat} {q : Process ι σ ω ε β} {w : World σ ω} {i : ι} :
    Calls handler c pid (a :: acts) n q w i ↔
      (a = .advance pid i ∧ n = 0 ∧ c.world = w ∧
        ∃ r p, c.pool[pid]? = some (r, p) ∧ p.Begins q) ∨
      ∃ m, own.length + m = n ∧ Calls handler (c.act handler a) pid acts m q w i := by
  constructor
  · rintro ⟨before, later, heq, hn, hw, hcalled⟩
    cases before with
    | nil =>
      obtain ⟨rfl, -⟩ := List.cons.inj heq
      exact .inl ⟨rfl, hn.symm, hw, hcalled⟩
    | cons b before =>
      obtain ⟨rfl, rfl⟩ := List.cons.inj heq
      rw [hown, List.length_append] at hn
      exact .inr ⟨_, hn, before, later, rfl, rfl, hw, hcalled⟩
  · rintro (⟨rfl, rfl, hw, hcalled⟩ | ⟨m, rfl, before, later, rfl, rfl, hw, hcalled⟩)
    · exact ⟨[], acts, rfl, rfl, hw, hcalled⟩
    · exact ⟨a :: before, later, rfl, by rw [hown, List.length_append], hw, hcalled⟩

/-- The calls of a request are its own actions, in their order. -/
theorem calls_iff (hp : c.pool[pid]? = some (r, p)) {n : Nat} {q : Process ι σ ω ε β}
    {w : World σ ω} {i : ι} : Calls handler c pid acts n q w i ↔
      (performed handler pid c acts)[n]? = some (w, i) ∧
        (p.after ((performed handler pid c acts).take n)).Begins q := by
  induction acts generalizing c p n with
  | nil =>
    constructor
    · rintro ⟨before, later, heq, -⟩
      simp at heq
    · rintro ⟨hn, -⟩
      simp [performed] at hn
  | cons a acts ih =>
    have hfound {r' : ρ} {p' : Process ι σ ω ε α} (hp' : c.pool[pid]? = some (r', p')) : p' = p := by
      rw [hp, Option.some.injEq, Prod.mk.injEq] at hp'
      exact hp'.2.symm
    rcases performed_cases handler hp a with
      ⟨i', f, next, rfl, rfl, hnext, hlog⟩ | ⟨hother, hnext, hlog⟩
    · -- the request acts now: its call is this action, or one of the later ones
      rw [calls_cons [(c.world, i')] hlog, hlog]
      cases n with
      | zero =>
        rw [List.getElem?_cons_zero, Option.some.injEq, Prod.mk.injEq, List.take_zero,
          Process.after_nil]
        constructor
        · rintro (⟨ha, -, hw, r', p', hp', hbegins⟩ | ⟨m, hm, -⟩)
          · cases ha
            rw [hfound hp'] at hbegins
            exact ⟨⟨hw, rfl⟩, hbegins⟩
          · rw [List.length_singleton] at hm
            omega
        · rintro ⟨⟨hw, rfl⟩, hbegins⟩
          exact .inl ⟨rfl, rfl, hw, r, _, hp, hbegins⟩
      | succ n =>
        rw [List.getElem?_cons_succ, List.take_succ_cons, Process.after, ← ih hnext]
        constructor
        · rintro (⟨-, hn, -⟩ | ⟨m, hm, hcalled⟩)
          · cases hn
          · rw [List.length_singleton, Nat.add_comm, Nat.add_right_cancel_iff] at hm
            exact hm ▸ hcalled
        · exact fun hcalled => .inr ⟨n, Nat.add_comm 1 n, hcalled⟩
    · rw [calls_cons [] hlog, hlog, ← ih hnext]
      constructor
      · rintro (⟨ha, -, -, r', p', hp', act, hact, -⟩ | ⟨m, hm, hcalled⟩)
        · rw [hfound hp'] at hact
          cases p with
          | step f next => exact absurd rfl (hother i f next ha)
          | _ => cases hact
        · rw [List.length_nil, Nat.zero_add] at hm
          exact hm ▸ hcalled
      · exact fun hcalled => .inr ⟨n, Nat.zero_add n, hcalled⟩

/-- What holds in every world of a run, and between any two of them, in the order of the
actions of the request. -/
theorem performed_along {A : World σ ω → World σ ω → Prop} (pid : Nat) (h : Along A handler c acts) :
    (∀ x ∈ performed handler pid c acts, Relation.ReflTransGen A c.world x.1) ∧
    (performed handler pid c acts).Pairwise fun x y => Relation.ReflTransGen A x.1 y.1 := by
  induction acts generalizing c with
  | nil => exact ⟨fun x hx => absurd hx List.not_mem_nil, List.Pairwise.nil⟩
  | cons a acts ih =>
    obtain ⟨hworlds, hpairs⟩ := ih h.2
    have hlater : ∀ x ∈ performed handler pid (c.act handler a) acts,
        Relation.ReflTransGen A c.world x.1 := fun x hx => .head h.1 (hworlds x hx)
    have hlog : performed handler pid c (a :: acts) = performed handler pid (c.act handler a) acts ∨
        ∃ i, performed handler pid c (a :: acts) =
          (c.world, i) :: performed handler pid (c.act handler a) acts := by
      cases a with
      | request r => exact .inl rfl
      | advance q i =>
        rw [performed]
        split
        · split
          · exact .inr ⟨i, rfl⟩
          · exact .inl rfl
        · exact .inl rfl
    rcases hlog with hlog | ⟨i, hlog⟩
    · rw [hlog]
      exact ⟨hlater, hpairs⟩
    · rw [hlog]
      refine ⟨fun x hx => ?_, List.pairwise_cons.mpr ⟨hlater, hpairs⟩⟩
      rcases List.mem_cons.mp hx with rfl | hx
      · exact .refl
      · exact hlater x hx

end Config
end Interleaving
