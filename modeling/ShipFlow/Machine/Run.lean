import Mathlib.Data.List.Induction

/-! Machines with a partial step, and their runs over lists of events. -/

namespace Machine
variable {σ α : Type} (step : σ → α → Option σ)

def run (s : σ) : List α → Option σ
  | [] => some s
  | a :: as => (step s a).bind fun s' => run s' as

/-- Every event of the run meets `A` in the state in which it happens. -/
def Along (A : σ → α → Prop) (s : σ) : List α → Prop
  | [] => True
  | a :: as => A s a ∧ ∀ s', step s a = some s' → Along A s' as

/-- Every state of the run meets `P`. -/
def Throughout (P : σ → Prop) (s : σ) : List α → Prop
  | [] => P s
  | a :: as => P s ∧ ∀ s', step s a = some s' → Throughout P s' as

variable {step} {s s' : σ} {a : α} {as bs : List α}

theorem run_append : run step s (as ++ bs) = (run step s as).bind fun s' => run step s' bs := by
  induction as generalizing s with
  | nil => rfl
  | cons a as ih =>
    rw [List.cons_append, run, run, Option.bind_assoc]
    congr 1
    funext s'
    exact ih

theorem run_concat (h : run step s (as ++ [a]) = some s') :
    ∃ t, run step s as = some t ∧ step t a = some s' := by
  rw [run_append] at h
  obtain ⟨t, ht, hlast⟩ := Option.bind_eq_some_iff.mp h
  obtain ⟨t', ht', heq⟩ := Option.bind_eq_some_iff.mp hlast
  cases heq
  exact ⟨t, ht, ht'⟩

/-- The induction over runs: what holds of the start and is preserved by the next event, given
the events so far, holds of the whole run. -/
theorem run_induction {P : List α → σ → Prop} (hinit : P [] s)
    (hstep : ∀ as t a t', run step s as = some t → P as t → step t a = some t' → P (as ++ [a]) t')
    (h : run step s as = some s') : P as s' := by
  induction as using List.reverseRecOn generalizing s' with
  | nil =>
    cases h
    exact hinit
  | append_singleton as a ih =>
    obtain ⟨t, ht, hlast⟩ := run_concat h
    exact hstep as t a s' ht (ih ht) hlast

theorem along_concat {A : σ → α → Prop} {t : σ} (h : run step s as = some t) :
    Along step A s (as ++ [a]) ↔ Along step A s as ∧ A t a := by
  induction as generalizing s with
  | nil =>
    cases h
    exact ⟨fun h => ⟨True.intro, h.1⟩, fun h => ⟨h.2, fun _ _ => True.intro⟩⟩
  | cons b as ih =>
    obtain ⟨s₁, hs₁, hrest⟩ := Option.bind_eq_some_iff.mp h
    rw [List.cons_append, Along, Along, and_assoc]
    refine and_congr_right fun _ => ⟨fun hall => ?_, fun ⟨hall, hlast⟩ s₂ hs₂ => ?_⟩
    · have hbs := (ih hrest).mp (hall s₁ hs₁)
      refine ⟨fun s₂ hs₂ => ?_, hbs.2⟩
      rw [hs₁] at hs₂
      cases hs₂
      exact hbs.1
    · rw [hs₁] at hs₂
      cases hs₂
      exact (ih hrest).mpr ⟨hall s₁ hs₁, hlast⟩

/-- A property of runs that each event keeps exactly if it meets `A`. -/
theorem run_iff_along {A : σ → α → Prop} {P : σ → Prop} {J : σ → Prop} (hinit : J s) (hP : P s)
    (hJ : ∀ t a t', J t → step t a = some t' → J t')
    (hstep : ∀ t a t', J t → step t a = some t' → (P t' ↔ P t ∧ A t a))
    (h : run step s as = some s') : P s' ↔ Along step A s as := by
  have hboth : J s' ∧ (P s' ↔ Along step A s as) := by
    refine run_induction (P := fun as t => J t ∧ (P t ↔ Along step A s as)) ?_ ?_ h
    · exact ⟨hinit, iff_of_true hP True.intro⟩
    · intro as t a t' ht ⟨hjt, hiff⟩ hlast
      refine ⟨hJ t a t' hjt hlast, ?_⟩
      rw [hstep t a t' hjt hlast, along_concat ht, hiff]
  exact hboth.2

/-- A property of states that each of the events keeps exactly if it meets `A`. -/
theorem throughout_iff_along {A : σ → α → Prop} {P : σ → Prop} (hP : P s)
    (hstep : ∀ t, ∀ a ∈ as, ∀ t', P t → step t a = some t' → (P t' ↔ A t a))
    (h : run step s as = some s') : Throughout step P s as ↔ Along step A s as := by
  induction as generalizing s with
  | nil => exact iff_of_true hP True.intro
  | cons a as ih =>
    obtain ⟨t, ht, hrest⟩ := Option.bind_eq_some_iff.mp h
    have hkept : P t ↔ A s a := hstep s a List.mem_cons_self t hP ht
    have hlater (hPt : P t) : Throughout step P t as ↔ Along step A t as :=
      ih hPt (fun u b hb => hstep u b (List.mem_cons_of_mem a hb)) hrest
    have hhead (hall : Throughout step P t as) : P t := by
      cases as with
      | nil => exact hall
      | cons b as => exact hall.1
    rw [Throughout, Along, and_iff_right hP]
    constructor
    · intro hall
      have hPt : P t := hhead (hall t ht)
      refine ⟨hkept.mp hPt, fun t' ht' => ?_⟩
      rw [ht] at ht'
      cases ht'
      exact (hlater hPt).mp (hall t ht)
    · rintro ⟨hA, hall⟩ t' ht'
      rw [ht] at ht'
      cases ht'
      exact (hlater (hkept.mpr hA)).mpr (hall t ht)

end Machine
