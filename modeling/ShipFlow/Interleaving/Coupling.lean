import ShipFlow.Interleaving.Isolation

/-! One request on two stores. The two executions draw the same inputs and go side by
side; a relation on their outcomes says what the difference of the stores may change. -/

namespace Interleaving
variable {ι σ ω ε α β : Type}

namespace Transaction

/-- Both transactions fail with the same error, or both commit and are related by `W`. -/
def Coupled (W : β → σ → β → σ → Prop) (m m' : Transaction σ ε β) (s t : σ) : Prop :=
  (∃ e, m s = .error e ∧ m' t = .error e) ∨
    ∃ b s' b' t', m s = .ok (b, s') ∧ m' t = .ok (b', t') ∧ W b s' b' t'

namespace Coupled
variable {W W' : β → σ → β → σ → Prop} {m m' : Transaction σ ε β} {s t s' t' : σ}

theorem mono (h : Coupled W m m' s t) (hW : ∀ b s b' t, W b s b' t → W' b s b' t) :
    Coupled W' m m' s t := by
  rcases h with herror | ⟨b, s', b', t', hm, hm', hw⟩
  · exact .inl herror
  · exact .inr ⟨b, s', b', t', hm, hm', hW _ _ _ _ hw⟩

theorem pure {b b' : β} (h : W b s b' t) :
    Coupled W (Pure.pure b : Transaction σ ε β) (Pure.pure b') s t :=
  .inr ⟨b, s, b', t, rfl, rfl, h⟩

theorem bind {γ : Type} {R : γ → σ → γ → σ → Prop} {k k' : β → Transaction σ ε γ}
    (h : Coupled W m m' s t)
    (hk : ∀ b s' b' t', W b s' b' t' → Coupled R (k b) (k' b') s' t') :
    Coupled R (m >>= k) (m' >>= k') s t := by
  rcases h with ⟨e, hm, hm'⟩ | ⟨b, s', b', t', hm, hm', hw⟩
  · refine .inl ⟨e, ?_, ?_⟩
    · simp [Bind.bind, StateT.bind, Except.bind, hm]
    · simp [Bind.bind, StateT.bind, Except.bind, hm']
  · have hstep : (m >>= k) s = k b s' := by
      simp [Bind.bind, StateT.bind, Except.bind, hm]
    have hstep' : (m' >>= k') t = k' b' t' := by
      simp [Bind.bind, StateT.bind, Except.bind, hm']
    unfold Coupled
    rw [hstep, hstep']
    exact hk b s' b' t' hw

theorem reads_bind {γ : Type} {R : γ → σ → γ → σ → Prop} {f f' : σ → β}
    {k k' : β → Transaction σ ε γ} (hk : Coupled R (k (f s)) (k' (f' t)) s t) :
    Coupled R (Transaction.reads f >>= k) (Transaction.reads f' >>= k') s t := hk

theorem rejectIf_bind {γ : Type} {R : γ → σ → γ → σ → Prop} {c c' : Bool} {e : ε}
    {k k' : Unit → Transaction σ ε γ} (hc : c = c')
    (hk : c = false → Coupled R (k ()) (k' ()) s t) :
    Coupled R (Transaction.rejectIf c e >>= k) (Transaction.rejectIf c' e >>= k') s t := by
  subst hc
  cases c with
  | true => exact .inl ⟨e, rfl, rfl⟩
  | false => exact hk rfl

end Coupled
end Transaction

namespace Process

/-- On the same inputs, which satisfy `I`, the two requests take the same number of steps
and end in outcomes and stores that `V` relates. -/
def Coupled (I : ι → Prop) (V : Except ε α → σ → Except ε α → σ → Prop) :
    Process ι σ ω ε α → σ → Process ι σ ω ε α → σ → Prop
  | .done a, s, .done a', t => V (.ok a) s (.ok a') t
  | .fail e, s, .fail e', t => V (.error e) s (.error e') t
  | .step act next, s, .step act' next', t => ∀ i, I i →
      Coupled I V (next i s) (act i s).1 (next' i t) (act' i t).1
  | _, _, _, _ => False

namespace Coupled
variable {I : ι → Prop} {V V' : Except ε α → σ → Except ε α → σ → Prop}
  {p p' : Process ι σ ω ε α} {s t : σ}

theorem mono (h : Coupled I V p s p' t) (hV : ∀ r s r' t, V r s r' t → V' r s r' t) :
    Coupled I V' p s p' t := by
  induction p generalizing s p' t with
  | done a =>
    cases p' with
    | done a' => exact hV _ _ _ _ h
    | fail e' => exact h
    | step act' next' => exact h
  | fail e =>
    cases p' with
    | done a' => exact h
    | fail e' => exact hV _ _ _ _ h
    | step act' next' => exact h
  | step act next ih =>
    cases p' with
    | done a' => exact h
    | fail e' => exact h
    | step act' next' => exact fun i hi => ih i s (h i hi)

theorem pure {a a' : α} (h : V (.ok a) s (.ok a') t) :
    Coupled I V (Pure.pure a : Process ι σ ω ε α) s (Pure.pure a') t := h

theorem throw {e e' : ε} (h : V (.error e) s (.error e') t) :
    Coupled I V (throw e : Process ι σ ω ε α) s (throw e') t := h

theorem bind {R : Except ε β → σ → Except ε β → σ → Prop} {k k' : α → Process ι σ ω ε β}
    (h : Coupled I (fun r s r' t => match r, r' with
      | .ok a, .ok a' => Coupled I R (k a) s (k' a') t
      | .error e, .error e' => R (.error e) s (.error e') t
      | _, _ => False) p s p' t) : Coupled I R (p >>= k) s (p' >>= k') t := by
  induction p generalizing s p' t with
  | done a =>
    cases p' with
    | done a' => exact h
    | fail e' => exact absurd h id
    | step act' next' => exact absurd h id
  | fail e =>
    cases p' with
    | done a' => exact absurd h id
    | fail e' => exact h
    | step act' next' => exact absurd h id
  | step act next ih =>
    cases p' with
    | done a' => exact absurd h id
    | fail e' => exact absurd h id
    | step act' next' => exact fun i hi => ih i s (h i hi)

theorem handle {k k' : ε → Process ι σ ω ε α}
    (h : Coupled I (fun r s r' t => match r, r' with
      | .ok a, .ok a' => V (.ok a) s (.ok a') t
      | .error e, .error e' => Coupled I V (k e) s (k' e') t
      | _, _ => False) p s p' t) : Coupled I V (tryCatch p k) s (tryCatch p' k') t := by
  change Coupled I V (p.handle k) s (p'.handle k') t
  induction p generalizing s p' t with
  | done a =>
    cases p' with
    | done a' => exact h
    | fail e' => exact absurd h id
    | step act' next' => exact absurd h id
  | fail e =>
    cases p' with
    | done a' => exact absurd h id
    | fail e' => exact h
    | step act' next' => exact absurd h id
  | step act next ih =>
    cases p' with
    | done a' => exact absurd h id
    | fail e' => exact absurd h id
    | step act' next' => exact fun i hi => ih i s (h i hi)

theorem map {g : α → β} {R : Except ε β → σ → Except ε β → σ → Prop}
    (h : Coupled I (fun r s r' t => R (r.map g) s (r'.map g) t) p s p' t) :
    Coupled I R (g <$> p) s (g <$> p') t := by
  change Coupled I R (p.bind fun a => .done (g a)) s (p'.bind fun a => .done (g a)) t
  induction p generalizing s p' t with
  | done a =>
    cases p' with
    | done a' => exact h
    | fail e' => exact h
    | step act' next' => exact absurd h id
  | fail e =>
    cases p' with
    | done a' => exact h
    | fail e' => exact h
    | step act' next' => exact absurd h id
  | step act next ih =>
    cases p' with
    | done a' => exact absurd h id
    | fail e' => exact absurd h id
    | step act' next' => exact fun i hi => ih i s (h i hi)

theorem ask {f : ι → β} {k k' : β → Process ι σ ω ε α}
    (h : ∀ i, I i → Coupled I V (k (f i)) s (k' (f i)) t) :
    Coupled I V (Process.ask f >>= k) s (Process.ask f >>= k') t := h

theorem query {f f' : σ → β} {k k' : β → Process ι σ ω ε α}
    (h : Coupled I V (k (f s)) s (k' (f' t)) t) :
    Coupled I V (Process.query f >>= k) s (Process.query f' >>= k') t := fun _ _ => h

theorem rejectIf {c : Bool} {e : ε} {k k' : Unit → Process ι σ ω ε α}
    (hfail : V (.error e) s (.error e) t) (h : c = false → Coupled I V (k ()) s (k' ()) t) :
    Coupled I V (Process.rejectIf c e >>= k) s (Process.rejectIf c e >>= k') t := by
  cases c with
  | true => exact hfail
  | false => exact h rfl

theorem ofExcept {x : Except ε β} {k k' : β → Process ι σ ω ε α}
    (hfail : ∀ e, V (.error e) s (.error e) t)
    (h : ∀ b, x = .ok b → Coupled I V (k b) s (k' b) t) :
    Coupled I V (Process.ofExcept x >>= k) s (Process.ofExcept x >>= k') t := by
  cases x with
  | ok b => exact h b rfl
  | error e => exact hfail e

/-- The rule for an atomic action that both requests take. -/
theorem atomically {m m' : ι → Transaction σ ε β} {observe observe' : Except ε β → List ω}
    {k k' : β → Process ι σ ω ε α} (hfail : ∀ e, V (.error e) s (.error e) t)
    (h : ∀ i, I i → Transaction.Coupled (fun b s' b' t' => Coupled I V (k b) s' (k' b') t')
      (m i) (m' i) s t) :
    Coupled I V (Process.atomically m observe >>= k) s
      (Process.atomically m' observe' >>= k') t := by
  intro i hi
  rcases h i hi with ⟨e, hm, hm'⟩ | ⟨b, s', b', t', hm, hm', hk⟩
  · simpa [hm, hm', Process.bind, Coupled] using hfail e
  · simpa [hm, hm', Process.bind] using hk

theorem statement {m m' : Transaction σ ε β} {k k' : β → Process ι σ ω ε α}
    (hfail : ∀ e, V (.error e) s (.error e) t)
    (h : Transaction.Coupled (fun b s' b' t' => Coupled I V (k b) s' (k' b') t') m m' s t) :
    Coupled I V (Process.statement m >>= k) s (Process.statement m' >>= k') t :=
  atomically hfail fun _ _ => h

/-- Both requests run alone, on the same inputs. -/
theorem alone {pid pid' : Nat} {f : Nat → ι} {w w' : World σ ω} (hf : ∀ n, I (f n))
    (h : Coupled I V p w.store p' w'.store) :
    V (p.alone pid f w).1 (p.alone pid f w).2.store (p'.alone pid' f w').1
      (p'.alone pid' f w').2.store := by
  induction p generalizing f w p' w' with
  | done a =>
    cases p' with
    | done a' => exact h
    | fail e' => exact absurd h id
    | step act' next' => exact absurd h id
  | fail e =>
    cases p' with
    | done a' => exact absurd h id
    | fail e' => exact h
    | step act' next' => exact absurd h id
  | step act next ih =>
    cases p' with
    | done a' => exact absurd h id
    | fail e' => exact absurd h id
    | step act' next' => exact ih (f 0) w.store (fun n => hf (n + 1)) (h (f 0) (hf 0))

end Coupled
end Process
end Interleaving
