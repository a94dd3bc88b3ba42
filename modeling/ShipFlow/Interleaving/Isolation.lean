import Mathlib.Logic.Relation
import ShipFlow.Interleaving.Process

/-! Requests that run one after the other, each to its end before the next one
starts, and the record of such a sequence. -/

namespace Interleaving
variable {ρ ι σ ω ε α β : Type}

namespace Process

/-- Run to its end on inputs that satisfy `I`, the request ends in `Q`. -/
def Ends (I : ι → Prop) (pid : Nat) (Q : Except ε α → World σ ω → Prop) :
    Process ι σ ω ε α → World σ ω → Prop
  | .done a, w => Q (.ok a) w
  | .fail e, w => Q (.error e) w
  | .step act next, w => ∀ i, I i →
      Ends I pid Q (next i w.store) (w.advance pid (act i w.store))

namespace Ends
variable {I : ι → Prop} {pid : Nat} {Q Q' : Except ε α → World σ ω → Prop}
  {p : Process ι σ ω ε α} {w : World σ ω}

theorem mono (h : Ends I pid Q p w) (hQ : ∀ r w, Q r w → Q' r w) : Ends I pid Q' p w := by
  induction p generalizing w with
  | done a => exact hQ _ _ h
  | fail e => exact hQ _ _ h
  | step act next ih => exact fun i hi => ih i w.store (h i hi)

theorem pure {a : α} (h : Q (.ok a) w) : Ends I pid Q (Pure.pure a : Process ι σ ω ε α) w := h

theorem throw {e : ε} (h : Q (.error e) w) :
    Ends I pid Q (throw e : Process ι σ ω ε α) w := h

theorem bind {k : α → Process ι σ ω ε β} {R : Except ε β → World σ ω → Prop}
    (h : Ends I pid (fun r w => match r with
      | .ok a => Ends I pid R (k a) w
      | .error e => R (.error e) w) p w) : Ends I pid R (p >>= k) w := by
  induction p generalizing w with
  | done a => exact h
  | fail e => exact h
  | step act next ih => exact fun i hi => ih i w.store (h i hi)

theorem handle {k : ε → Process ι σ ω ε α}
    (h : Ends I pid (fun r w => match r with
      | .ok a => Q (.ok a) w
      | .error e => Ends I pid Q (k e) w) p w) : Ends I pid Q (tryCatch p k) w := by
  change Ends I pid Q (p.handle k) w
  induction p generalizing w with
  | done a => exact h
  | fail e => exact h
  | step act next ih => exact fun i hi => ih i w.store (h i hi)

theorem map {g : α → β} {R : Except ε β → World σ ω → Prop}
    (h : Ends I pid (fun r w => R (r.map g) w) p w) : Ends I pid R (g <$> p) w := by
  refine bind (k := fun a => .done (g a)) (h.mono fun r w hr => ?_)
  cases r with
  | ok a => exact hr
  | error e => exact hr

theorem ask {f : ι → β} {k : β → Process ι σ ω ε α} (h : ∀ i, I i → Ends I pid Q (k (f i)) w) :
    Ends I pid Q (Process.ask f >>= k) w := by
  intro i hi
  rw [World.advance_idle]
  exact h i hi

theorem query {f : σ → β} {k : β → Process ι σ ω ε α} (h : Ends I pid Q (k (f w.store)) w) :
    Ends I pid Q (Process.query f >>= k) w := by
  intro i _
  rw [World.advance_idle]
  exact h

theorem rejectIf {c : Bool} {e : ε} {k : Unit → Process ι σ ω ε α}
    (hfail : c = true → Q (.error e) w) (h : c = false → Ends I pid Q (k ()) w) :
    Ends I pid Q (Process.rejectIf c e >>= k) w := by
  cases c with
  | true => exact hfail rfl
  | false => exact h rfl

theorem ofExcept {x : Except ε β} {k : β → Process ι σ ω ε α}
    (hfail : ∀ e, x = .error e → Q (.error e) w)
    (h : ∀ b, x = .ok b → Ends I pid Q (k b) w) :
    Ends I pid Q (Process.ofExcept x >>= k) w := by
  cases x with
  | ok b => exact h b rfl
  | error e => exact hfail e rfl

/-- The rule for an atomic action: one goal for the commit, one for the failure. -/
theorem atomically {m : ι → Transaction σ ε β} {observe : Except ε β → List ω}
    {k : β → Process ι σ ω ε α}
    (hok : ∀ i, I i → ∀ b s', m i w.store = .ok (b, s') →
      Ends I pid Q (k b) (w.advance pid (s', observe (.ok b))))
    (hfail : ∀ i, I i → ∀ e, m i w.store = .error e →
      Q (.error e) (w.advance pid (w.store, observe (.error e)))) :
    Ends I pid Q (Process.atomically m observe >>= k) w := by
  intro i hi
  cases hm : m i w.store with
  | ok r => simpa [hm, Process.bind] using hok i hi r.1 r.2 hm
  | error e => simpa [hm, Process.bind, Ends] using hfail i hi e hm

/-- An atomic action that observes nothing when it fails. -/
theorem commit {m : ι → Transaction σ ε β} {observe : Except ε β → List ω}
    {k : β → Process ι σ ω ε α} (hquiet : ∀ e, observe (.error e) = [])
    (hok : ∀ i, I i → ∀ b s', m i w.store = .ok (b, s') →
      Ends I pid Q (k b) (w.advance pid (s', observe (.ok b))))
    (hfail : ∀ i, I i → ∀ e, m i w.store = .error e → Q (.error e) w) :
    Ends I pid Q (Process.atomically m observe >>= k) w := by
  refine atomically hok fun i hi e he => ?_
  rw [hquiet, World.advance_idle]
  exact hfail i hi e he

theorem statement {m : Transaction σ ε β} {k : β → Process ι σ ω ε α}
    (hok : ∀ b s', m w.store = .ok (b, s') → Ends I pid Q (k b) ⟨s', w.trace⟩)
    (hfail : ∀ e, m w.store = .error e → Q (.error e) w) :
    Ends I pid Q (Process.statement m >>= k) w := by
  refine commit (fun _ => rfl) (fun i _ b s' hm => ?_) fun i _ e he => hfail e he
  simpa [World.advance] using hok b s' hm

theorem alone {f : Nat → ι} (hf : ∀ n, I (f n)) (h : Ends I pid Q p w) :
    Q (p.alone pid f w).1 (p.alone pid f w).2 := by
  induction p generalizing w f with
  | done a => exact h
  | fail e => exact h
  | step act next ih => exact ih (f 0) w.store (fun n => hf (n + 1)) (h (f 0) (hf 0))

end Ends

/-- Run to its end, the request returns `a` and leaves the store `s`. -/
def Leads (I : ι → Prop) (pid : Nat) (p : Process ι σ ω ε α) (w : World σ ω) (a : α) (s : σ) : Prop :=
  Ends I pid (fun r w' => r = .ok a ∧ w'.store = s) p w

namespace Leads
variable {I : ι → Prop} {pid : Nat} {p : Process ι σ ω ε α} {w : World σ ω} {a : α} {s : σ}

theorem pure : Leads I pid (Pure.pure a : Process ι σ ω ε α) w a w.store := ⟨rfl, rfl⟩

theorem bind {k : α → Process ι σ ω ε β} {Q : Except ε β → World σ ω → Prop}
    (h : Leads I pid p w a s) (hk : ∀ w', w'.store = s → Ends I pid Q (k a) w') :
    Ends I pid Q (p >>= k) w := by
  apply Ends.bind
  apply Ends.mono h
  rintro r w' ⟨rfl, hs⟩
  exact hk w' hs

theorem handle {k : ε → Process ι σ ω ε α} (h : Leads I pid p w a s) :
    Leads I pid (tryCatch p k) w a s := by
  apply Ends.handle
  apply Ends.mono h
  rintro r w' ⟨rfl, hs⟩
  exact ⟨rfl, hs⟩

theorem map {g : α → β} (h : Leads I pid p w a s) : Leads I pid (g <$> p) w (g a) s := by
  apply Ends.map
  apply Ends.mono h
  rintro r w' ⟨rfl, hs⟩
  exact ⟨rfl, hs⟩

theorem atomically {m : ι → Transaction σ ε α} {observe : Except ε α → List ω}
    (h : ∀ i, I i → m i w.store = .ok (a, s)) :
    Leads I pid (Process.atomically m observe) w a s := by
  rw [← Process.bind_pure (Process.atomically m observe)]
  refine Ends.atomically (fun i hi b s' hm => ?_) fun i hi e hm => ?_
  · rw [h i hi] at hm
    cases hm
    exact ⟨rfl, rfl⟩
  · rw [h i hi] at hm
    cases hm

/-- The requests for the elements of a list, given what each of them needs to find. -/
theorem forEach {f : β → Process ι σ ω ε Unit} {g : σ → β → σ} {J : List β → σ → Prop}
    (hstep : ∀ b bs w, J (b :: bs) w.store →
      Leads I pid (f b) w () (g w.store b) ∧ J bs (g w.store b)) {bs : List β}
    (h : J bs w.store) :
    Leads I pid (Process.forEach f bs) w () (bs.foldl g w.store) ∧ J [] (bs.foldl g w.store) := by
  induction bs generalizing w with
  | nil => exact ⟨pure, h⟩
  | cons b bs ih =>
    obtain ⟨hb, hrest⟩ := hstep b bs w h
    refine ⟨bind hb fun w' hs => ?_, (ih (w := ⟨g w.store b, w.trace⟩) hrest).2⟩
    rw [← hs] at hrest
    have hbs := (ih hrest).1
    rw [hs] at hbs
    exact hbs

end Leads

/-- Run to its end, the request has taken only steps of the relation `D`. -/
def Follows (I : ι → Prop) (pid : Nat) (D : World σ ω → World σ ω → Prop)
    (p : Process ι σ ω ε α) (w : World σ ω) : Prop :=
  Ends I pid (fun _ w' => Relation.ReflTransGen D w w') p w

namespace Follows
variable {I : ι → Prop} {pid : Nat} {D : World σ ω → World σ ω → Prop}
  {p : Process ι σ ω ε α} {w w' : World σ ω}

theorem pure {a : α} : Follows I pid D (Pure.pure a : Process ι σ ω ε α) w :=
  Relation.ReflTransGen.refl

theorem throw {e : ε} : Follows I pid D (throw e : Process ι σ ω ε α) w :=
  Relation.ReflTransGen.refl

theorem after (h : Follows I pid D p w') (hw : Relation.ReflTransGen D w w') :
    Ends I pid (fun _ w'' => Relation.ReflTransGen D w w'') p w' :=
  h.mono fun _ _ h' => hw.trans h'

theorem ask {f : ι → β} {k : β → Process ι σ ω ε α} (h : ∀ i, I i → Follows I pid D (k (f i)) w) :
    Follows I pid D (Process.ask f >>= k) w := Ends.ask h

theorem query {f : σ → β} {k : β → Process ι σ ω ε α} (h : Follows I pid D (k (f w.store)) w) :
    Follows I pid D (Process.query f >>= k) w := Ends.query h

theorem rejectIf {c : Bool} {e : ε} {k : Unit → Process ι σ ω ε α}
    (h : c = false → Follows I pid D (k ()) w) : Follows I pid D (Process.rejectIf c e >>= k) w :=
  Ends.rejectIf (fun _ => .refl) h

theorem ofExcept {x : Except ε β} {k : β → Process ι σ ω ε α}
    (h : ∀ b, x = .ok b → Follows I pid D (k b) w) :
    Follows I pid D (Process.ofExcept x >>= k) w := Ends.ofExcept (fun _ _ => .refl) h

/-- What the first part of a request brings about, the rest may rely on. -/
theorem learn {p : Process ι σ ω ε β} {k : β → Process ι σ ω ε α} {K : β → World σ ω → Prop}
    (hp : Ends I pid (fun r w' => Relation.ReflTransGen D w w' ∧ ∀ b, r = .ok b → K b w') p w)
    (hk : ∀ b w', K b w' → Follows I pid D (k b) w') : Follows I pid D (p >>= k) w := by
  apply Ends.bind
  apply hp.mono
  rintro r w' ⟨hw, hr⟩
  cases r with
  | ok b => exact (hk b w' (hr b rfl)).after hw
  | error e => exact hw

theorem bind {p : Process ι σ ω ε β} {k : β → Process ι σ ω ε α} (hp : Follows I pid D p w)
    (hk : ∀ b w', Follows I pid D (k b) w') : Follows I pid D (p >>= k) w := by
  apply learn (K := fun _ _ => True)
  · exact hp.mono fun _ _ hw => ⟨hw, fun _ _ => True.intro⟩
  · exact fun b w' _ => hk b w'

theorem handle {k : ε → Process ι σ ω ε α} (hp : Follows I pid D p w)
    (hk : ∀ e w', Follows I pid D (k e) w') : Follows I pid D (tryCatch p k) w := by
  apply Ends.handle
  apply hp.mono
  intro r w' hw
  cases r with
  | ok a => exact hw
  | error e => exact (hk e w').after hw

theorem map {g : β → α} {p : Process ι σ ω ε β} (h : Follows I pid D p w) :
    Follows I pid D (g <$> p) w := Ends.map h

theorem forEach {f : β → Process ι σ ω ε Unit} {bs : List β}
    (hf : ∀ b ∈ bs, ∀ w', Follows I pid D (f b) w') :
    Follows I pid D (Process.forEach f bs) w := by
  induction bs generalizing w with
  | nil => exact pure
  | cons b bs ih =>
    have hrest : ∀ w', Follows I pid D (Process.forEach f bs) w' := fun w' =>
      ih fun b' hb' => hf b' (List.mem_cons_of_mem b hb')
    exact bind (hf b List.mem_cons_self w) fun _ w' => hrest w'

/-- A transaction whose commit is a step; a failed one leaves no trace. -/
theorem commit {m : ι → Transaction σ ε β} {observe : Except ε β → List ω}
    {k : β → Process ι σ ω ε α} (hquiet : ∀ e, observe (.error e) = [])
    (hstep : ∀ i, I i → ∀ b s', m i w.store = .ok (b, s') →
      Relation.ReflTransGen D w (w.advance pid (s', observe (.ok b))) ∧
        Follows I pid D (k b) (w.advance pid (s', observe (.ok b)))) :
    Follows I pid D (Process.atomically m observe >>= k) w := by
  refine Ends.commit hquiet (fun i hi b s' hm => ?_) fun _ _ _ _ => .refl
  obtain ⟨hw, hk⟩ := hstep i hi b s' hm
  exact hk.after hw

end Follows
end Process

/-! ## Sequences -/

/-- A request together with the inputs of its actions. -/
structure Call (ρ ι : Type) where
  request : ρ
  inputs : Nat → ι

/-- A request all of whose actions happen at one instant. -/
def Call.atOnce (request : ρ) (input : ι) : Call ρ ι := ⟨request, fun _ => input⟩

/-- A request as it was performed. -/
structure Step (ρ ι σ ω ε α : Type) where
  call : Call ρ ι
  before : World σ ω
  outcome : Except ε α
  after : World σ ω

variable (handler : ρ → Process ι σ ω ε α)

/-- The calls of a sequence are numbered from the first one on. -/
def perform (pid : Nat) (call : Call ρ ι) (w : World σ ω) : Step ρ ι σ ω ε α :=
  let r := (handler call.request).alone pid call.inputs w
  ⟨call, w, r.1, r.2⟩

def history (pid : Nat) (w : World σ ω) : List (Call ρ ι) → List (Step ρ ι σ ω ε α)
  | [] => []
  | call :: calls =>
    let step := perform handler pid call w
    step :: history (pid + 1) step.after calls

/-- Where a sequence of steps that started in `w` has come to. -/
def lastWorld (w : World σ ω) (past : List (Step ρ ι σ ω ε α)) : World σ ω :=
  (past.getLast?.map Step.after).getD w

@[simp] theorem lastWorld_nil (w : World σ ω) :
    lastWorld w ([] : List (Step ρ ι σ ω ε α)) = w := rfl

@[simp] theorem lastWorld_concat (w : World σ ω) (past : List (Step ρ ι σ ω ε α))
    (step : Step ρ ι σ ω ε α) : lastWorld w (past ++ [step]) = step.after := by
  simp [lastWorld]

theorem lastWorld_cons (w : World σ ω) (step : Step ρ ι σ ω ε α)
    (past : List (Step ρ ι σ ω ε α)) : lastWorld w (step :: past) = lastWorld step.after past := by
  cases past with
  | nil => rfl
  | cons next past => simp [lastWorld, List.getLast?_cons]

variable {handler}

/-- A sequence goes on from where its first part has come to. -/
theorem lastWorld_history_append (pid : Nat) (w : World σ ω) (calls more : List (Call ρ ι)) :
    lastWorld w (history handler pid w (calls ++ more)) =
      lastWorld (lastWorld w (history handler pid w calls))
        (history handler (pid + calls.length) (lastWorld w (history handler pid w calls)) more) := by
  induction calls generalizing pid w with
  | nil => rfl
  | cons call calls ih =>
    rw [List.cons_append, history, history, lastWorld_cons, lastWorld_cons, ih, List.length_cons]
    rw [Nat.add_right_comm, Nat.add_assoc]

/-- What every request preserves holds at the end of a sequence of them. -/
theorem history_preserves {P : World σ ω → Prop}
    (hstep : ∀ pid w call, P w → P (perform handler pid call w).after) (pid : Nat) {w : World σ ω}
    (calls : List (Call ρ ι)) (h : P w) : P (lastWorld w (history handler pid w calls)) := by
  induction calls generalizing pid w with
  | nil => exact h
  | cons call calls ih =>
    rw [history, lastWorld_cons]
    exact ih (pid + 1) (hstep pid w call h)

theorem history_calls (pid : Nat) (w : World σ ω) (calls : List (Call ρ ι)) :
    (history handler pid w calls).map Step.call = calls := by
  induction calls generalizing pid w with
  | nil => rfl
  | cons call calls ih =>
    rw [history, List.map_cons, ih]
    rfl

/-- The induction over sequences: what holds of the record so far and is preserved by the
next request, whatever it is, holds of the whole record. -/
theorem history_induction {P : List (Step ρ ι σ ω ε α) → World σ ω → Prop} {w₀ : World σ ω}
    {calls : List (Call ρ ι)} (hinit : P [] w₀)
    (hstep : ∀ pid past w call rest, calls = past.map Step.call ++ call :: rest → P past w →
      P (past ++ [perform handler pid call w]) (perform handler pid call w).after) :
    P (history handler 0 w₀ calls) (lastWorld w₀ (history handler 0 w₀ calls)) := by
  have hfrom : ∀ (rest : List (Call ρ ι)) pid past w, calls = past.map Step.call ++ rest →
      lastWorld w₀ past = w → P past w →
      P (past ++ history handler pid w rest)
        (lastWorld w₀ (past ++ history handler pid w rest)) := by
    intro rest
    induction rest with
    | nil =>
      intro pid past w _ hlast h
      rw [history, List.append_nil, hlast]
      exact h
    | cons call rest ih =>
      intro pid past w hcalls _ h
      have hnow : (perform handler pid call w).call = call := rfl
      have hnext := ih (pid + 1) (past ++ [perform handler pid call w])
        (perform handler pid call w).after (by simp [hcalls, hnow]) (lastWorld_concat _ _ _)
        (hstep pid past w call rest hcalls h)
      rw [List.append_assoc, List.singleton_append] at hnext
      exact hnext
  exact hfrom calls 0 [] w₀ rfl rfl hinit

/-- As long as the steps are good the invariant `J` holds, and from a world in which it holds a
step comes out right exactly if it is good: then a record is right exactly if it is good. -/
theorem history_forall_iff {J : World σ ω → Prop} {A : Call ρ ι → Prop}
    {Good Right : Step ρ ι σ ω ε α → Prop}
    (hkept : ∀ pid w call, A call → J w → Good (perform handler pid call w) →
      J (perform handler pid call w).after)
    (hright : ∀ pid w call, A call → J w →
      (Right (perform handler pid call w) ↔ Good (perform handler pid call w)))
    (pid : Nat) {w : World σ ω} {calls : List (Call ρ ι)} (hcalls : ∀ call ∈ calls, A call)
    (hw : J w) : (∀ step ∈ history handler pid w calls, Right step) ↔
      ∀ step ∈ history handler pid w calls, Good step := by
  induction calls generalizing pid w with
  | nil => simp [history]
  | cons call calls ih =>
    have hcall := hcalls call List.mem_cons_self
    have hrest := fun hgood => ih (pid + 1) (fun c hc => hcalls c (List.mem_cons_of_mem call hc))
      (hkept pid w call hcall hw hgood)
    rw [history, List.forall_mem_cons, List.forall_mem_cons, hright pid w call hcall hw]
    exact and_congr_right hrest

/-- Every step of the record satisfies `A`, given the steps before it. -/
def Throughout (A : List (Step ρ ι σ ω ε α) → Step ρ ι σ ω ε α → Prop)
    (record : List (Step ρ ι σ ω ε α)) : Prop :=
  ∀ before step after, record = before ++ step :: after → A before step

theorem throughout_iff_take {A : List (Step ρ ι σ ω ε α) → Step ρ ι σ ω ε α → Prop}
    {record : List (Step ρ ι σ ω ε α)} : Throughout A record ↔
      ∀ i : Fin record.length, A (record.take i) (record.get i) := by
  constructor
  · intro h i
    apply h (record.take i) (record.get i) (record.drop (i + 1))
    rw [List.get_eq_getElem, ← List.drop_eq_getElem_cons i.isLt, List.take_append_drop]
  · rintro h before step after rfl
    simpa using h ⟨before.length, by simp⟩

instance {A : List (Step ρ ι σ ω ε α) → Step ρ ι σ ω ε α → Prop}
    [∀ before step, Decidable (A before step)] (record : List (Step ρ ι σ ω ε α)) :
    Decidable (Throughout A record) := decidable_of_iff _ throughout_iff_take.symm

theorem throughout_nil {A : List (Step ρ ι σ ω ε α) → Step ρ ι σ ω ε α → Prop} :
    Throughout A [] := by
  intro before step after h
  simp at h

theorem throughout_concat {A : List (Step ρ ι σ ω ε α) → Step ρ ι σ ω ε α → Prop}
    {past : List (Step ρ ι σ ω ε α)} {step : Step ρ ι σ ω ε α} :
    Throughout A (past ++ [step]) ↔ Throughout A past ∧ A past step := by
  constructor
  · intro h
    refine ⟨fun before step' after heq => ?_, h past step [] rfl⟩
    exact h before step' (after ++ [step]) (by rw [heq, List.append_assoc, List.cons_append])
  · rintro ⟨hpast, hstep⟩ before step' after heq
    rcases List.eq_nil_or_concat after with rfl | ⟨after', last, rfl⟩
    · obtain ⟨rfl, hlast⟩ := List.append_inj' heq rfl
      cases hlast
      exact hstep
    · rw [List.concat_eq_append, ← List.cons_append, ← List.append_assoc] at heq
      obtain ⟨rfl, -⟩ := List.append_inj' heq rfl
      exact hpast before step' after' rfl

end Interleaving
