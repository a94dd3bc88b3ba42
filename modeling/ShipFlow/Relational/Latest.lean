import Mathlib.Order.Lattice

/-! A register for dated values. It takes a value only if that is later than the one it
holds, so that after writes in any order it holds the latest value of all. -/

namespace Register
variable {τ α : Type} [LinearOrder τ]

def absorb (r : Option (τ × α)) (e : τ × α) : Option (τ × α) :=
  match r with
  | none => some e
  | some x => if x.1 < e.1 then some e else some x

/-- The register holds one of the values written, and none of them is later. -/
structure Latest (written : List (τ × α)) (r : Option (τ × α)) : Prop where
  mem : ∀ x ∈ r, x ∈ written
  le : ∀ y ∈ written, ∃ x ∈ r, y.1 ≤ x.1

variable {written written' : List (τ × α)} {r r' : Option (τ × α)} {e : τ × α}

theorem latest_nil : Latest ([] : List (τ × α)) none := by
  constructor
  · intro x hx
    cases hx
  · intro y hy
    cases hy

/-- What has been written counts, not how often or in which order. -/
theorem Latest.congr (h : Latest written r) (hsame : ∀ x, x ∈ written ↔ x ∈ written') :
    Latest written' r :=
  ⟨fun x hx => (hsame x).mp (h.mem x hx), fun y hy => h.le y ((hsame y).mpr hy)⟩

theorem Latest.absorb (h : Latest written r) (e : τ × α) :
    Latest (written ++ [e]) (absorb r e) := by
  constructor
  · intro x hx
    cases r with
    | none =>
      cases hx
      exact List.mem_append_right _ (List.mem_singleton_self e)
    | some y =>
      simp only [Register.absorb] at hx
      split at hx
      · cases hx
        exact List.mem_append_right _ (List.mem_singleton_self e)
      · exact List.mem_append_left _ (h.mem x hx)
  · intro y hy
    rcases List.mem_append.mp hy with hy | hy
    · obtain ⟨x, hx, hle⟩ := h.le y hy
      cases hx
      simp only [Register.absorb]
      split
      · rename_i hlt
        exact ⟨e, rfl, hle.trans hlt.le⟩
      · exact ⟨x, rfl, hle⟩
    · rw [List.mem_singleton.mp hy]
      cases r with
      | none => exact ⟨e, rfl, le_refl e.1⟩
      | some x =>
        simp only [Register.absorb]
        split
        · exact ⟨e, rfl, le_refl e.1⟩
        · rename_i hle
          exact ⟨x, rfl, not_lt.mp hle⟩

theorem latest_toList (r : Option (τ × α)) : Latest r.toList r := by
  constructor
  · exact fun x hx => Option.mem_toList.mpr hx
  · exact fun y hy => ⟨y, Option.mem_toList.mp hy, le_refl y.1⟩

theorem Latest.foldl (h : Latest written r) (es : List (τ × α)) :
    Latest (written ++ es) (es.foldl Register.absorb r) := by
  induction es generalizing written r with
  | nil => simpa using h
  | cons e es ih =>
    have hnext := ih (h.absorb e)
    rwa [List.append_assoc, List.singleton_append] at hnext

/-- Where all the values still to be written are the same, the register comes to hold this
value if and only if it held it before, or one of the dates is later than its own. -/
theorem foldl_absorb_value_iff {es : List (τ × α)} {v : α} (hes : ∀ e ∈ es, e.2 = v) :
    (es.foldl Register.absorb r).map Prod.snd = some v ↔
      r.map Prod.snd = some v ∨ ∃ e ∈ es, ∀ x ∈ r, x.1 < e.1 := by
  induction es generalizing r with
  | nil => simp
  | cons e es ih =>
    rw [List.foldl_cons, ih fun e' he' => hes e' (List.mem_cons_of_mem _ he')]
    by_cases hlater : ∀ x ∈ r, x.1 < e.1
    · have habsorb : Register.absorb r e = some e := by
        cases r with
        | none => rfl
        | some x => exact if_pos (hlater x rfl)
      have hvalue : e.2 = v := hes e List.mem_cons_self
      exact iff_of_true (.inl (by rw [habsorb, Option.map_some, hvalue]))
        (.inr ⟨e, List.mem_cons_self, hlater⟩)
    · have habsorb : Register.absorb r e = r := by
        cases r with
        | none => exact absurd (by simp) hlater
        | some x => exact if_neg fun hlt => hlater fun y hy => by cases hy; exact hlt
      rw [habsorb]
      refine or_congr_right ⟨fun h => ?_, fun h => ?_⟩
      · obtain ⟨e', he', hlt⟩ := h
        exact ⟨e', List.mem_cons_of_mem _ he', hlt⟩
      · obtain ⟨e', he', hlt⟩ := h
        rcases List.mem_cons.mp he' with rfl | he'
        · exact absurd hlt hlater
        · exact ⟨e', he', hlt⟩

/-- A register that holds nothing has been given nothing. -/
theorem Latest.written_eq_nil (h : Latest written none) : written = [] := by
  cases written with
  | nil => rfl
  | cons y ys =>
    obtain ⟨x, hx, -⟩ := h.le y List.mem_cons_self
    cases hx

theorem Latest.eq_none (h : Latest [] r) : r = none := by
  cases r with
  | none => rfl
  | some x => cases h.mem x rfl

/-- Where a date identifies its value, the latest value is unique. -/
theorem Latest.unique (h : Latest written r) (h' : Latest written r')
    (hdates : ∀ x ∈ written, ∀ y ∈ written, x.1 = y.1 → x = y) : r = r' := by
  cases r with
  | none =>
    have hnil := h.written_eq_nil
    subst hnil
    exact h'.eq_none.symm
  | some x =>
    obtain ⟨y, hy, hle⟩ := h'.le x (h.mem x rfl)
    cases hy
    obtain ⟨z, hz, hge⟩ := h.le y (h'.mem y rfl)
    cases hz
    rw [hdates x (h.mem x rfl) y (h'.mem y rfl) (le_antisymm hle hge)]

end Register
