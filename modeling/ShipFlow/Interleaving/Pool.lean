import ShipFlow.Interleaving.Contract

/-! Any number of requests interleaved on one store. A run is a list of
actions: a new request arrives, or a request in flight performs its next
atomic action with a given input. A request that is never advanced again has
crashed. -/

namespace Interleaving
variable {ρ ι σ ω ε α : Type}

inductive Action (ρ ι : Type) where
  | request (r : ρ)
  | advance (pid : Nat) (input : ι)

structure Config (ρ ι σ ω ε α : Type) where
  world : World σ ω
  pool : List (ρ × Process ι σ ω ε α)

namespace Config

def init (s : σ) : Config ρ ι σ ω ε α := ⟨⟨s, []⟩, []⟩

def act (handler : ρ → Process ι σ ω ε α) (c : Config ρ ι σ ω ε α) :
    Action ρ ι → Config ρ ι σ ω ε α
  | .request r => ⟨c.world, c.pool ++ [(r, handler r)]⟩
  | .advance pid i =>
    match c.pool[pid]? with
    | some (r, .step act next) =>
      ⟨c.world.advance pid (act i c.world.store), c.pool.set pid (r, next i c.world.store)⟩
    | _ => c

def run (handler : ρ → Process ι σ ω ε α) (c : Config ρ ι σ ω ε α)
    (acts : List (Action ρ ι)) : Config ρ ι σ ω ε α :=
  acts.foldl (act handler) c

variable {handler : ρ → Process ι σ ω ε α} {c : Config ρ ι σ ω ε α}

@[simp] theorem run_nil : run handler c [] = c := rfl

@[simp] theorem run_cons (a : Action ρ ι) (as : List (Action ρ ι)) :
    run handler c (a :: as) = run handler (act handler c a) as := rfl

theorem run_append (as bs : List (Action ρ ι)) :
    run handler c (as ++ bs) = run handler (run handler c as) bs := by
  simp [run, List.foldl_append]

/-- The outcome of a request, once it has one. -/
def outcome (c : Config ρ ι σ ω ε α) (pid : Nat) : Option (ρ × Except ε α) :=
  match c.pool[pid]? with
  | some (r, .done a) => some (r, .ok a)
  | some (r, .fail e) => some (r, .error e)
  | _ => none

theorem act_advance {pid : Nat} {r : ρ} {f : ι → σ → σ × List ω}
    {next : ι → σ → Process ι σ ω ε α} (h : c.pool[pid]? = some (r, .step f next)) (i : ι) :
    act handler c (.advance pid i) =
      ⟨c.world.advance pid (f i c.world.store), c.pool.set pid (r, next i c.world.store)⟩ := by
  simp [act, h]

/-- An action either leaves the world alone or is the next step of one request. -/
theorem act_cases (handler : ρ → Process ι σ ω ε α) (c : Config ρ ι σ ω ε α)
    (a : Action ρ ι) :
    (∃ r, a = .request r) ∨ act handler c a = c ∨
      ∃ pid i r f next, a = .advance pid i ∧ c.pool[pid]? = some (r, .step f next) := by
  cases a with
  | request r => exact .inl ⟨r, rfl⟩
  | advance pid i =>
    rcases h : c.pool[pid]? with _ | ⟨r, _ | _ | ⟨f, next⟩⟩
    · exact .inr (.inl (by simp [act, h]))
    · exact .inr (.inl (by simp [act, h]))
    · exact .inr (.inl (by simp [act, h]))
    · exact .inr (.inr ⟨pid, i, r, f, next, rfl, h⟩)

/-- Every action of the run satisfies `A`. -/
def Along (A : World σ ω → World σ ω → Prop) (handler : ρ → Process ι σ ω ε α) :
    Config ρ ι σ ω ε α → List (Action ρ ι) → Prop
  | _, [] => True
  | c, a :: as => A c.world (act handler c a).world ∧ Along A handler (act handler c a) as

instance Along.decidable {A : World σ ω → World σ ω → Prop} [∀ w w', Decidable (A w w')]
    (handler : ρ → Process ι σ ω ε α) :
    (c : Config ρ ι σ ω ε α) → (acts : List (Action ρ ι)) → Decidable (Along A handler c acts)
  | _, [] => inferInstanceAs (Decidable True)
  | c, a :: as =>
    have := Along.decidable (A := A) handler (act handler c a) as
    inferInstanceAs (Decidable (A c.world (act handler c a).world ∧ _))

theorem Along.trivial (acts : List (Action ρ ι)) : Along (fun _ _ => True) handler c acts := by
  induction acts generalizing c with
  | nil => exact True.intro
  | cons a as ih => exact ⟨True.intro, ih⟩

theorem Along.mono {A B : World σ ω → World σ ω → Prop} (hAB : ∀ w w', A w w' → B w w')
    {acts : List (Action ρ ι)} (h : Along A handler c acts) : Along B handler c acts := by
  induction acts generalizing c with
  | nil => exact True.intro
  | cons a as ih => exact ⟨hAB _ _ h.1, ih h.2⟩

theorem Along.and {A B : World σ ω → World σ ω → Prop} {acts : List (Action ρ ι)}
    (hA : Along A handler c acts) (hB : Along B handler c acts) :
    Along (fun w w' => A w w' ∧ B w w') handler c acts := by
  induction acts generalizing c with
  | nil => exact True.intro
  | cons a as ih => exact ⟨⟨hA.1, hB.1⟩, ih hA.2 hB.2⟩

theorem Along.mp {A B : World σ ω → World σ ω → Prop} {acts : List (Action ρ ι)}
    (h : Along (fun w w' => A w w' → B w w') handler c acts) (hA : Along A handler c acts) :
    Along B handler c acts := by
  induction acts generalizing c with
  | nil => exact True.intro
  | cons a as ih => exact ⟨h.1 hA.1, ih h.2 hA.2⟩

/-- Every request of the run arrives in a world where `P` holds. -/
def Arriving (P : ρ → World σ ω → Prop) (handler : ρ → Process ι σ ω ε α) :
    Config ρ ι σ ω ε α → List (Action ρ ι) → Prop
  | _, [] => True
  | c, a :: as => (∀ r, a = .request r → P r c.world) ∧ Arriving P handler (act handler c a) as

theorem Arriving.of_forall {P : ρ → World σ ω → Prop} {acts : List (Action ρ ι)}
    (h : ∀ r, .request r ∈ acts → ∀ w, P r w) : Arriving P handler c acts := by
  induction acts generalizing c with
  | nil => exact True.intro
  | cons a acts ih =>
    exact ⟨fun r hr => h r (hr ▸ List.mem_cons_self) c.world,
      ih fun r hr => h r (List.mem_cons_of_mem a hr)⟩

theorem Arriving.append {P : ρ → World σ ω → Prop} {before after : List (Action ρ ι)}
    (h : Arriving P handler c (before ++ after)) :
    Arriving P handler c before ∧ Arriving P handler (run handler c before) after := by
  induction before generalizing c with
  | nil => exact ⟨True.intro, h⟩
  | cons a before ih =>
    obtain ⟨hbefore, hafter⟩ := ih h.2
    exact ⟨⟨h.1, hbefore⟩, hafter⟩

end Config

/-- The requests in flight keep the contract and are on their way to their
postconditions. -/
structure Config.Meets (inv : World σ ω → Prop) (guar : Nat → World σ ω → World σ ω → Prop)
    (Q : ρ → Nat → Except ε α → World σ ω → Prop) (c : Config ρ ι σ ω ε α) : Prop where
  holds : inv c.world
  pids : ∀ x ∈ c.world.trace, x.1 < c.pool.length
  ensures : ∀ pid r p, c.pool[pid]? = some (r, p) →
    Ensures (Contract.concurrent inv guar) pid (Q r pid) p c.world

/-- No action of the run belongs to this request yet. -/
def World.Unused (w : World σ ω) (pid : Nat) : Prop := ∀ x ∈ w.trace, x.1 ≠ pid

namespace Config.Meets
variable {inv : World σ ω → Prop} {guar : Nat → World σ ω → World σ ω → Prop}
  {Q : ρ → Nat → Except ε α → World σ ω → Prop} {c : Config ρ ι σ ω ε α}
  {handler : ρ → Process ι σ ω ε α}

theorem init {s : σ} (h : inv ⟨s, []⟩) :
    Config.Meets inv guar Q (Config.init s : Config ρ ι σ ω ε α) :=
  ⟨h, by simp [Config.init], by simp [Config.init]⟩

/-- What the next step of a request in flight does, by its contract. -/
theorem advance (h : c.Meets inv guar Q) {pid : Nat} {r : ρ} {f : ι → σ → σ × List ω}
    {next : ι → σ → Process ι σ ω ε α} (hp : c.pool[pid]? = some (r, .step f next)) (i : ι) :
    inv (c.world.advance pid (f i c.world.store)) ∧
    guar pid c.world (c.world.advance pid (f i c.world.store)) ∧
    Ensures (Contract.concurrent inv guar) pid (Q r pid) (next i c.world.store)
      (c.world.advance pid (f i c.world.store)) :=
  h.ensures pid r _ hp c.world .refl h.holds i

theorem act {a : Action ρ ι} (hreq : ∀ r, a = .request r → ∀ pid, c.world.Unused pid →
      Ensures (Contract.concurrent inv guar) pid (Q r pid) (handler r) c.world)
    (h : c.Meets inv guar Q) : (c.act handler a).Meets inv guar Q := by
  rcases Config.act_cases handler c a with ⟨r, rfl⟩ | hidle | ⟨pid, i, r, f, next, rfl, hp⟩
  · refine ⟨h.holds, fun x hx => ?_, fun pid r' p hp => ?_⟩
    · exact Nat.lt_of_lt_of_le (h.pids x hx) (by simp [Config.act])
    · simp only [Config.act] at hp
      rw [List.getElem?_append] at hp
      split at hp
      · exact h.ensures pid r' p hp
      · rename_i hlt
        rw [List.getElem?_singleton] at hp
        split at hp <;> simp only [Option.some.injEq, Prod.mk.injEq, reduceCtorEq] at hp
        obtain ⟨rfl, rfl⟩ := hp
        exact hreq r rfl pid fun x hx => by have := h.pids x hx; omega
  · rwa [hidle]
  · rw [Config.act_advance hp]
    obtain ⟨hinv, hguar, hnext⟩ := h.advance hp i
    have hlt : pid < c.pool.length := (List.getElem?_eq_some_iff.mp hp).1
    refine ⟨hinv, fun x hx => ?_, fun q r' p' hq => ?_⟩
    · rw [List.length_set]
      rcases List.mem_append.mp hx with hx | hx
      · exact h.pids x hx
      · obtain ⟨o, -, rfl⟩ := List.mem_map.mp hx
        exact hlt
    · rw [List.getElem?_set] at hq
      split at hq
      · subst_vars
        simp only [Option.some.injEq, Prod.mk.injEq] at hq
        obtain ⟨rfl, rfl⟩ := hq
        exact hnext
      · rename_i hne
        exact (h.ensures q r' p' hq).rely (.single ⟨pid, hne, h.holds, hinv, hguar⟩)

theorem run {acts : List (Action ρ ι)}
    (hreq : ∀ r, .request r ∈ acts → ∀ pid w, inv w → w.Unused pid →
      Ensures (Contract.concurrent inv guar) pid (Q r pid) (handler r) w)
    (h : c.Meets inv guar Q) : (c.run handler acts).Meets inv guar Q := by
  induction acts generalizing c with
  | nil => exact h
  | cons a as ih =>
    exact ih (fun r hr => hreq r (List.mem_cons_of_mem a hr))
      (h.act fun r hr pid hpid => hreq r (hr ▸ List.mem_cons_self) pid c.world h.holds hpid)

/-- The same, for requests of which each arrives where `Arrives` holds. -/
theorem run_arriving {acts : List (Action ρ ι)} {Arrives : ρ → World σ ω → Prop}
    (hreq : ∀ r pid w, Arrives r w → inv w → w.Unused pid →
      Ensures (Contract.concurrent inv guar) pid (Q r pid) (handler r) w)
    (h : c.Meets inv guar Q) (harrives : Config.Arriving Arrives handler c acts) :
    (c.run handler acts).Meets inv guar Q := by
  induction acts generalizing c with
  | nil => exact h
  | cons a as ih =>
    exact ih (h.act fun r hr pid hpid => hreq r pid c.world (harrives.1 r hr) h.holds hpid)
      harrives.2

theorem along_arriving {acts : List (Action ρ ι)} {Arrives : ρ → World σ ω → Prop}
    (hreq : ∀ r pid w, Arrives r w → inv w → w.Unused pid →
      Ensures (Contract.concurrent inv guar) pid (Q r pid) (handler r) w)
    (h : c.Meets inv guar Q) (harrives : Config.Arriving Arrives handler c acts) :
    Config.Along (fun w w' => inv w ∧ inv w' ∧ (w' = w ∨ ∃ pid, guar pid w w')) handler c acts := by
  induction acts generalizing c with
  | nil => exact True.intro
  | cons a as ih =>
    have hnext := h.act fun r hr pid hpid => hreq r pid c.world (harrives.1 r hr) h.holds hpid
    refine ⟨⟨h.holds, hnext.holds, ?_⟩, ih hnext harrives.2⟩
    rcases Config.act_cases handler c a with ⟨r, rfl⟩ | hidle | ⟨pid, i, r, f, next, rfl, hp⟩
    · exact .inl rfl
    · rw [hidle]
      exact .inl rfl
    · rw [Config.act_advance hp]
      exact .inr ⟨pid, (h.advance hp i).2.1⟩

/-- The induction over runs: what every action that keeps the contract and
satisfies `A` preserves holds after every run whose actions satisfy `A`. -/
theorem invariant {acts : List (Action ρ ι)}
    (hreq : ∀ r, .request r ∈ acts → ∀ pid w, inv w → w.Unused pid →
      Ensures (Contract.concurrent inv guar) pid (Q r pid) (handler r) w)
    (h : c.Meets inv guar Q) {A : World σ ω → World σ ω → Prop} {P : World σ ω → Prop}
    (hP : P c.world)
    (hstep : ∀ pid w w', inv w → inv w' → guar pid w w' → A w w' → P w → P w')
    (hA : Config.Along A handler c acts) :
    P (c.run handler acts).world := by
  induction acts generalizing c with
  | nil => exact hP
  | cons a as ih =>
    refine ih (fun r hr => hreq r (List.mem_cons_of_mem a hr))
      (h.act fun r hr pid hpid => hreq r (hr ▸ List.mem_cons_self) pid c.world h.holds hpid) ?_ hA.2
    rcases Config.act_cases handler c a with ⟨r, rfl⟩ | hidle | ⟨pid, i, r, f, next, rfl, hp⟩
    · exact hP
    · rwa [hidle]
    · have hA' := hA.1
      rw [Config.act_advance hp] at hA' ⊢
      obtain ⟨hinv, hguar, -⟩ := h.advance hp i
      exact hstep pid _ _ h.holds hinv hguar hA' hP

/-- Two conditions on actions that agree wherever an invariant holds that one of them
keeps: a run whose actions satisfy the one is a run whose actions satisfy the other. -/
theorem along_iff {acts : List (Action ρ ι)}
    (hreq : ∀ r, .request r ∈ acts → ∀ pid w, inv w → w.Unused pid →
      Ensures (Contract.concurrent inv guar) pid (Q r pid) (handler r) w)
    (h : c.Meets inv guar Q) {A B : World σ ω → World σ ω → Prop} {P : World σ ω → Prop}
    (hP : P c.world) (hidle : ∀ w, inv w → P w → A w w ∧ B w w)
    (hstep : ∀ pid w w', inv w → inv w' → guar pid w w' → P w →
      (A w w' ↔ B w w') ∧ (A w w' → P w')) :
    Config.Along A handler c acts ↔ Config.Along B handler c acts := by
  induction acts generalizing c with
  | nil => exact Iff.rfl
  | cons a as ih =>
    have hnext := h.act fun r hr pid hpid =>
      hreq r (hr ▸ List.mem_cons_self) pid c.world h.holds hpid
    have hreqs := fun r hr => hreq r (List.mem_cons_of_mem a hr)
    have hfirst : (A c.world (c.act handler a).world ↔ B c.world (c.act handler a).world) ∧
        (A c.world (c.act handler a).world → P (c.act handler a).world) := by
      rcases Config.act_cases handler c a with ⟨r, rfl⟩ | hsame | ⟨pid, i, r, f, next, rfl, hp⟩
      · obtain ⟨hA, hB⟩ := hidle c.world h.holds hP
        exact ⟨iff_of_true hA hB, fun _ => hP⟩
      · rw [hsame]
        obtain ⟨hA, hB⟩ := hidle c.world h.holds hP
        exact ⟨iff_of_true hA hB, fun _ => hP⟩
      · rw [Config.act_advance hp]
        obtain ⟨hinv, hguar, -⟩ := h.advance hp i
        exact hstep pid _ _ h.holds hinv hguar hP
    constructor
    · rintro ⟨hA, has⟩
      exact ⟨hfirst.1.mp hA, (ih hreqs hnext (hfirst.2 hA)).mp has⟩
    · rintro ⟨hB, hbs⟩
      have hA := hfirst.1.mpr hB
      exact ⟨hA, (ih hreqs hnext (hfirst.2 hA)).mpr hbs⟩

/-- What every action that keeps the contract does where the invariant holds. -/
theorem along {acts : List (Action ρ ι)}
    (hreq : ∀ r, .request r ∈ acts → ∀ pid w, inv w → w.Unused pid →
      Ensures (Contract.concurrent inv guar) pid (Q r pid) (handler r) w)
    (h : c.Meets inv guar Q) {A : World σ ω → World σ ω → Prop} {P : World σ ω → Prop}
    (hP : P c.world) (hidle : ∀ w, inv w → P w → A w w)
    (hstep : ∀ pid w w', inv w → inv w' → guar pid w w' → P w → A w w' ∧ P w') :
    Config.Along A handler c acts := by
  refine (h.along_iff (B := fun _ _ => True) hreq hP (fun w hinv hPw => ?_) ?_).mpr
    (Config.Along.trivial acts)
  · exact ⟨hidle w hinv hPw, True.intro⟩
  · intro pid w w' hinv hinv' hguar hPw
    obtain ⟨hA, hP'⟩ := hstep pid w w' hinv hinv' hguar hPw
    exact ⟨iff_of_true hA True.intro, fun _ => hP'⟩

/-- Where the condition on an action is exactly what the property needs, the property
holds throughout a run if and only if all its actions satisfy the condition. -/
theorem invariant_iff {acts : List (Action ρ ι)}
    (hreq : ∀ r, .request r ∈ acts → ∀ pid w, inv w → w.Unused pid →
      Ensures (Contract.concurrent inv guar) pid (Q r pid) (handler r) w)
    (h : c.Meets inv guar Q) {A : World σ ω → World σ ω → Prop} {P : World σ ω → Prop}
    (hP : P c.world) (hidle : ∀ w, A w w)
    (hstep : ∀ pid w w', inv w → inv w' → guar pid w w' → P w → (P w' ↔ A w w')) :
    (∀ before after, acts = before ++ after → P (c.run handler before).world) ↔
      Config.Along A handler c acts := by
  induction acts generalizing c with
  | nil =>
    refine ⟨fun _ => True.intro, fun _ before after heq => ?_⟩
    rw [(List.append_eq_nil_iff.mp heq.symm).1]
    exact hP
  | cons a as ih =>
    have hnext := h.act fun r hr pid hpid =>
      hreq r (hr ▸ List.mem_cons_self) pid c.world h.holds hpid
    have hreqs := fun r hr => hreq r (List.mem_cons_of_mem a hr)
    have hiff : P (c.act handler a).world ↔ A c.world (c.act handler a).world := by
      rcases Config.act_cases handler c a with ⟨r, rfl⟩ | hsame | ⟨pid, i, r, f, next, rfl, hp⟩
      · exact iff_of_true hP (hidle _)
      · rw [hsame]
        exact iff_of_true hP (hidle _)
      · rw [Config.act_advance hp]
        obtain ⟨hinv, hguar, -⟩ := h.advance hp i
        exact hstep pid _ _ h.holds hinv hguar hP
    constructor
    · intro hall
      have hfirst : P (c.act handler a).world := hall [a] as rfl
      refine ⟨hiff.mp hfirst, (ih hreqs hnext hfirst).mp fun before after heq => ?_⟩
      exact hall (a :: before) after (by rw [heq, List.cons_append])
    · rintro ⟨hA, halong⟩ before after heq
      cases before with
      | nil => exact hP
      | cons b bs =>
        rw [List.cons_append, List.cons.injEq] at heq
        obtain ⟨rfl, heq⟩ := heq
        exact (ih hreqs hnext (hiff.mpr hA)).mpr halong bs after heq

/-- A request with an outcome has its postcondition. -/
theorem outcome (h : c.Meets inv guar Q) {pid : Nat} {r : ρ} {o : Except ε α}
    (ho : c.outcome pid = some (r, o)) : Q r pid o c.world := by
  unfold Config.outcome at ho
  rcases hp : c.pool[pid]? with _ | ⟨r', p⟩ <;> simp only [hp, reduceCtorEq] at ho
  have he := h.ensures pid r' p hp
  cases p with
  | done a =>
    simp only [Option.some.injEq, Prod.mk.injEq] at ho
    obtain ⟨rfl, rfl⟩ := ho
    exact he c.world .refl h.holds
  | fail e =>
    simp only [Option.some.injEq, Prod.mk.injEq] at ho
    obtain ⟨rfl, rfl⟩ := ho
    exact he c.world .refl h.holds
  | step f next => simp at ho

end Config.Meets
end Interleaving
