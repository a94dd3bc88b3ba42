import Mathlib.Logic.Relation
import ShipFlow.Interleaving.Process

/-! Rely-guarantee reasoning for resumptions. A contract says what the other
requests may do between two actions of a request, which invariant every action
finds and leaves, and what each action is allowed to do. -/

namespace Interleaving
variable {ι σ ω ε α β : Type}

structure Contract (σ ω : Type) where
  rely : Nat → World σ ω → World σ ω → Prop
  inv : World σ ω → Prop
  guar : Nat → World σ ω → World σ ω → Prop
  rely_refl : ∀ pid w, rely pid w w
  rely_trans : ∀ pid w₁ w₂ w₃, rely pid w₁ w₂ → rely pid w₂ w₃ → rely pid w₁ w₃

/-- An action of another request between two worlds that satisfy the invariant. -/
def Interferes (inv : World σ ω → Prop) (guar : Nat → World σ ω → World σ ω → Prop)
    (pid : Nat) (w w' : World σ ω) : Prop :=
  ∃ q ≠ pid, inv w ∧ inv w' ∧ guar q w w'

/-- Between two actions of a request any number of other requests may act, and
they keep the same contract. -/
def Contract.concurrent (inv : World σ ω → Prop)
    (guar : Nat → World σ ω → World σ ω → Prop) : Contract σ ω where
  rely pid := Relation.ReflTransGen (Interferes inv guar pid)
  inv := inv
  guar := guar
  rely_refl _ _ := .refl
  rely_trans _ _ _ _ h h' := h.trans h'

/-- An assertion that no action of any request falsifies outlives the interference. -/
theorem Contract.concurrent_stable {inv : World σ ω → Prop}
    {guar : Nat → World σ ω → World σ ω → Prop} {I : World σ ω → Prop} {pid : Nat}
    {w w' : World σ ω} (hI : ∀ q w w', inv w → inv w' → guar q w w' → I w → I w')
    (h : (Contract.concurrent inv guar).rely pid w w') (hi : I w) : I w' := by
  induction h with
  | refl => exact hi
  | tail _ hstep ih =>
    obtain ⟨q, -, hinv, hinv', hguar⟩ := hstep
    exact hI q _ _ hinv hinv' hguar ih

/-- Every action of the request keeps the contract, whatever the contract lets
happen in between, and its outcome satisfies `Q` from then on. -/
def Ensures (C : Contract σ ω) (pid : Nat) (Q : Except ε α → World σ ω → Prop) :
    Process ι σ ω ε α → World σ ω → Prop
  | .done a, w => ∀ w', C.rely pid w w' → C.inv w' → Q (.ok a) w'
  | .fail e, w => ∀ w', C.rely pid w w' → C.inv w' → Q (.error e) w'
  | .step act next, w => ∀ w', C.rely pid w w' → C.inv w' → ∀ i,
      C.inv (w'.advance pid (act i w'.store)) ∧
      C.guar pid w' (w'.advance pid (act i w'.store)) ∧
      Ensures C pid Q (next i w'.store) (w'.advance pid (act i w'.store))

namespace Ensures
variable {C : Contract σ ω} {pid : Nat} {Q Q' : Except ε α → World σ ω → Prop}
  {p : Process ι σ ω ε α} {w w' : World σ ω}

theorem rely (h : Ensures C pid Q p w) (hw : C.rely pid w w') : Ensures C pid Q p w' := by
  cases p with
  | done a => exact fun w'' hw'' => h w'' (C.rely_trans _ _ _ _ hw hw'')
  | fail e => exact fun w'' hw'' => h w'' (C.rely_trans _ _ _ _ hw hw'')
  | step act next => exact fun w'' hw'' => h w'' (C.rely_trans _ _ _ _ hw hw'')

theorem of_later (h : ∀ w', C.rely pid w w' → C.inv w' → Ensures C pid Q p w') :
    Ensures C pid Q p w := by
  cases p with
  | done a => exact fun w' hw hi => h w' hw hi w' (C.rely_refl _ _) hi
  | fail e => exact fun w' hw hi => h w' hw hi w' (C.rely_refl _ _) hi
  | step act next => exact fun w' hw hi => h w' hw hi w' (C.rely_refl _ _) hi

theorem mono (h : Ensures C pid Q p w) (hQ : ∀ r w, C.inv w → Q r w → Q' r w) :
    Ensures C pid Q' p w := by
  induction p generalizing w with
  | done a => exact fun w' hw hi => hQ _ _ hi (h w' hw hi)
  | fail e => exact fun w' hw hi => hQ _ _ hi (h w' hw hi)
  | step act next ih =>
    intro w' hw hi i
    obtain ⟨hinv, hguar, hnext⟩ := h w' hw hi i
    exact ⟨hinv, hguar, ih i _ hnext⟩

/-- A postcondition holds from the end of the request on. -/
theorem lasting (h : Ensures C pid Q p w) :
    Ensures C pid (fun r w => ∀ w', C.rely pid w w' → C.inv w' → Q r w') p w := by
  induction p generalizing w with
  | done a => exact fun w' hw _ w'' hw' hi => h w'' (C.rely_trans _ _ _ _ hw hw') hi
  | fail e => exact fun w' hw _ w'' hw' hi => h w'' (C.rely_trans _ _ _ _ hw hw') hi
  | step act next ih =>
    intro w' hw hi i
    obtain ⟨hinv, hguar, hnext⟩ := h w' hw hi i
    exact ⟨hinv, hguar, ih i _ hnext⟩

theorem bind {k : α → Process ι σ ω ε β} {R : Except ε β → World σ ω → Prop}
    (h : Ensures C pid (fun r w => match r with
      | .ok a => Ensures C pid R (k a) w
      | .error e => Ensures C pid R (.fail e : Process ι σ ω ε β) w) p w) :
    Ensures C pid R (p >>= k) w := by
  induction p generalizing w with
  | done a => exact of_later fun w' hw hi => h w' hw hi
  | fail e => exact of_later fun w' hw hi => h w' hw hi
  | step act next ih =>
    intro w' hw hi i
    obtain ⟨hinv, hguar, hnext⟩ := h w' hw hi i
    exact ⟨hinv, hguar, ih i _ hnext⟩

theorem map {g : α → β} {R : Except ε β → World σ ω → Prop}
    (h : Ensures C pid (fun r w => R (r.map g) w) p w) : Ensures C pid R (g <$> p) w := by
  refine bind (k := fun a => .done (g a)) (mono h.lasting fun r w' _ hw => ?_)
  cases r with
  | ok a => exact hw
  | error e => exact hw

theorem handle {h : ε → Process ι σ ω ε α}
    (hp : Ensures C pid (fun r w => match r with
      | .ok a => Ensures C pid Q (.done a : Process ι σ ω ε α) w
      | .error e => Ensures C pid Q (h e) w) p w) :
    Ensures C pid Q (p.handle h) w := by
  induction p generalizing w with
  | done a => exact of_later fun w' hw hi => hp w' hw hi
  | fail e => exact of_later fun w' hw hi => hp w' hw hi
  | step act next ih =>
    intro w' hw hi i
    obtain ⟨hinv, hguar, hnext⟩ := hp w' hw hi i
    exact ⟨hinv, hguar, ih i _ hnext⟩

/-- What no action falsifies can be carried along. -/
theorem frame {inv : World σ ω → Prop} {guar : Nat → World σ ω → World σ ω → Prop}
    {I : World σ ω → Prop} (hI : ∀ q w w', inv w → inv w' → guar q w w' → I w → I w')
    (h : Ensures (Contract.concurrent inv guar) pid Q p w) (hi : I w) :
    Ensures (Contract.concurrent inv guar) pid (fun r w => Q r w ∧ I w) p w := by
  induction p generalizing w with
  | done a =>
    exact fun w' hw hinv => ⟨h w' hw hinv, Contract.concurrent_stable hI hw hi⟩
  | fail e =>
    exact fun w' hw hinv => ⟨h w' hw hinv, Contract.concurrent_stable hI hw hi⟩
  | step act next ih =>
    intro w' hw hinv i
    have hi' := Contract.concurrent_stable hI hw hi
    obtain ⟨hnext, hguar, h'⟩ := h w' hw hinv i
    exact ⟨hnext, hguar, ih i _ h' (hI pid _ _ hinv hnext hguar hi')⟩

theorem done {a : α} (h : ∀ w', C.rely pid w w' → C.inv w' → Q (.ok a) w') :
    Ensures C pid Q (.done a : Process ι σ ω ε α) w := h

theorem fail {e : ε} (h : ∀ w', C.rely pid w w' → C.inv w' → Q (.error e) w') :
    Ensures C pid Q (.fail e : Process ι σ ω ε α) w := h

theorem ask {f : ι → β} {k : β → Process ι σ ω ε α} (hr : ∀ w, C.guar pid w w)
    (h : ∀ b, Ensures C pid Q (k b) w) : Ensures C pid Q (Process.ask f >>= k) w := by
  intro w' hw hi i
  rw [World.advance_idle]
  exact ⟨hi, hr w', (h (f i)).rely hw⟩

theorem query {f : σ → β} {k : β → Process ι σ ω ε α} (hr : ∀ w, C.guar pid w w)
    (h : ∀ w', C.rely pid w w' → C.inv w' → Ensures C pid Q (k (f w'.store)) w') :
    Ensures C pid Q (Process.query f >>= k) w := by
  intro w' hw hi i
  rw [World.advance_idle]
  exact ⟨hi, hr w', h w' hw hi⟩

theorem rejectIf {c : Bool} {e : ε} {k : Unit → Process ι σ ω ε α}
    (hfail : c = true → Ensures C pid Q (.fail e : Process ι σ ω ε α) w)
    (h : c = false → Ensures C pid Q (k ()) w) :
    Ensures C pid Q (Process.rejectIf c e >>= k) w := by
  cases c with
  | true => exact hfail rfl
  | false => exact h rfl

theorem ofExcept {x : Except ε β} {k : β → Process ι σ ω ε α}
    (hfail : ∀ e, x = .error e → Ensures C pid Q (.fail e : Process ι σ ω ε α) w)
    (h : ∀ b, x = .ok b → Ensures C pid Q (k b) w) : Ensures C pid Q (Process.ofExcept x >>= k) w := by
  cases x with
  | ok b => exact h b rfl
  | error e => exact hfail e rfl

/-- The rule for an atomic action: one goal for the commit, one for the failure. -/
theorem atomically {m : ι → Transaction σ ε β} {observe : Except ε β → List ω}
    {k : β → Process ι σ ω ε α}
    (hok : ∀ w', C.rely pid w w' → C.inv w' → ∀ i b s', m i w'.store = .ok (b, s') →
      C.inv (w'.advance pid (s', observe (.ok b))) ∧
      C.guar pid w' (w'.advance pid (s', observe (.ok b))) ∧
      Ensures C pid Q (k b) (w'.advance pid (s', observe (.ok b))))
    (hfail : ∀ w', C.rely pid w w' → C.inv w' → ∀ i e, m i w'.store = .error e →
      C.inv (w'.advance pid (w'.store, observe (.error e))) ∧
      C.guar pid w' (w'.advance pid (w'.store, observe (.error e))) ∧
      Ensures C pid Q (.fail e : Process ι σ ω ε α)
        (w'.advance pid (w'.store, observe (.error e)))) :
    Ensures C pid Q (Process.atomically m observe >>= k) w := by
  intro w' hw hi i
  cases hm : m i w'.store with
  | ok r => simpa [hm, Process.bind] using hok w' hw hi i r.1 r.2 hm
  | error e => simpa [hm, Process.bind] using hfail w' hw hi i e hm

/-- An atomic action that observes nothing when it fails. -/
theorem atomically_quiet {m : ι → Transaction σ ε β} {observe : Except ε β → List ω}
    {k : β → Process ι σ ω ε α} (hr : ∀ w, C.guar pid w w)
    (hquiet : ∀ e, observe (.error e) = [])
    (hok : ∀ w', C.rely pid w w' → C.inv w' → ∀ i b s', m i w'.store = .ok (b, s') →
      C.inv (w'.advance pid (s', observe (.ok b))) ∧
      C.guar pid w' (w'.advance pid (s', observe (.ok b))) ∧
      Ensures C pid Q (k b) (w'.advance pid (s', observe (.ok b))))
    (hfail : ∀ w', C.rely pid w w' → C.inv w' → ∀ i e, m i w'.store = .error e →
      Ensures C pid Q (.fail e : Process ι σ ω ε α) w') :
    Ensures C pid Q (Process.atomically m observe >>= k) w := by
  refine atomically hok fun w' hw hi i e he => ?_
  rw [hquiet, World.advance_idle]
  exact ⟨hi, hr w', hfail w' hw hi i e he⟩

theorem statement {m : Transaction σ ε β} {k : β → Process ι σ ω ε α}
    (hr : ∀ w, C.guar pid w w)
    (hok : ∀ w', C.rely pid w w' → C.inv w' → ∀ b s', m w'.store = .ok (b, s') →
      C.inv ⟨s', w'.trace⟩ ∧ C.guar pid w' ⟨s', w'.trace⟩ ∧
      Ensures C pid Q (k b) ⟨s', w'.trace⟩)
    (hfail : ∀ w', C.rely pid w w' → C.inv w' → ∀ e, m w'.store = .error e →
      Ensures C pid Q (.fail e : Process ι σ ω ε α) w') :
    Ensures C pid Q (Process.statement m >>= k) w := by
  refine atomically_quiet hr (fun _ => rfl) (fun w' hw hi _ b s' hm => ?_)
    (fun w' hw hi _ e he => hfail w' hw hi e he)
  simpa [World.advance] using hok w' hw hi b s' hm

end Ensures

/-- A request that keeps its contract among others keeps it when it runs alone. -/
theorem Ensures.alone {C : Contract σ ω} {pid : Nat} {Q : Except ε α → World σ ω → Prop}
    {p : Process ι σ ω ε α} {w : World σ ω} (h : Ensures C pid Q p w) (hw : C.inv w)
    (f : Nat → ι) : C.inv (p.alone pid f w).2 ∧ Q (p.alone pid f w).1 (p.alone pid f w).2 := by
  induction p generalizing w f with
  | done a => exact ⟨hw, h w (C.rely_refl _ _) hw⟩
  | fail e => exact ⟨hw, h w (C.rely_refl _ _) hw⟩
  | step act next ih =>
    obtain ⟨hnext, -, h'⟩ := h w (C.rely_refl _ _) hw (f 0)
    exact ih (f 0) w.store h' hnext _

/-- Alone, the request has taken only steps that its contract allows. -/
theorem Ensures.alone_guar {C : Contract σ ω} {pid : Nat} {Q : Except ε α → World σ ω → Prop}
    {p : Process ι σ ω ε α} {w : World σ ω} (h : Ensures C pid Q p w) (hw : C.inv w)
    (f : Nat → ι) : Relation.ReflTransGen (C.guar pid) w (p.alone pid f w).2 := by
  induction p generalizing w f with
  | done a => exact .refl
  | fail e => exact .refl
  | step act next ih =>
    obtain ⟨hnext, hguar, h'⟩ := h w (C.rely_refl _ _) hw (f 0)
    exact .head hguar (ih (f 0) w.store h' hnext _)

end Interleaving
