import Mathlib.Data.List.Chain
import ShipFlow.Relational.Table

/-! Rows that link to one another: each row names the key of the next one, and
the last row names none. -/

namespace Relational
variable {ρ κ : Type} {key : ρ → κ} {next : ρ → Option κ} {l init : List ρ} {x x' y : ρ}

/-- The rows, in this order, form one simple path along their links. -/
structure Chained (key : ρ → κ) (next : ρ → Option κ) (l : List ρ) : Prop where
  linked : l.IsChain fun x y => next x = some (key y)
  ends : ∀ x ∈ l.getLast?, next x = none

theorem chained_nil : Chained key next [] := ⟨List.isChain_nil, by simp⟩

theorem chained_singleton (h : next x = none) : Chained key next [x] :=
  ⟨List.isChain_singleton x, by simpa using h⟩

theorem Chained.map (h : Chained key next l) {f : ρ → ρ} (hkey : ∀ x, key (f x) = key x)
    (hnext : ∀ x, next (f x) = next x) : Chained key next (l.map f) := by
  refine ⟨?_, fun x hx => ?_⟩
  · rw [List.isChain_map]
    refine h.linked.imp fun x y hxy => ?_
    rw [hnext, hkey, hxy]
  · rw [List.getLast?_map, Option.mem_def, Option.map_eq_some_iff] at hx
    obtain ⟨y, hy, rfl⟩ := hx
    rw [hnext, h.ends y hy]

/-- Every row that is not the last one names a successor. -/
theorem Chained.next_isSome (h : Chained key next (init ++ [x])) (hy : y ∈ init) :
    (next y).isSome := by
  obtain ⟨l₁, l₂, rfl⟩ := List.append_of_mem hy
  have hlinked := h.linked
  rw [List.append_assoc, List.cons_append, List.isChain_append, List.isChain_cons] at hlinked
  obtain ⟨-, ⟨hhead, -⟩, -⟩ := hlinked
  cases hz : (l₂ ++ [x]).head? with
  | none => simp at hz
  | some z => rw [hhead z hz]; rfl

theorem Chained.eq_concat (h : Chained key next l) (hx : x ∈ l) (hlast : next x = none) :
    ∃ init, l = init ++ [x] := by
  rcases List.eq_nil_or_concat l with rfl | ⟨init, z, rfl⟩
  · cases hx
  · rw [List.concat_eq_append] at h hx ⊢
    rcases List.mem_append.mp hx with hx | hx
    · have hsome := h.next_isSome hx
      rw [hlast] at hsome
      cases hsome
    · rw [List.mem_singleton.mp hx]
      exact ⟨init, rfl⟩

/-- Linking the last row to a new one. -/
theorem Chained.extend (h : Chained key next (init ++ [x])) (hkey : key x' = key x)
    (hlink : next x' = some (key y)) (hlast : next y = none) :
    Chained key next (init ++ [x', y]) := by
  refine ⟨?_, by simpa using hlast⟩
  have hlinked := h.linked
  rw [List.isChain_append] at hlinked ⊢
  refine ⟨hlinked.1, by simpa using hlink, fun z hz w hw => ?_⟩
  have hzx := hlinked.2.2 z hz x (by simp)
  simp only [List.head?_cons, Option.mem_def, Option.some.injEq] at hw
  rw [← hw, hkey, hzx]

/-- At most one row of a chain names no successor. -/
theorem Chained.countP_le_one (h : Chained key next l) {p : ρ → Bool}
    (hp : ∀ x ∈ l, p x = true → next x = none) : l.countP p ≤ 1 := by
  rcases List.eq_nil_or_concat l with rfl | ⟨init, z, rfl⟩
  · simp
  · rw [List.concat_eq_append] at h hp ⊢
    have hinit : init.countP p = 0 := by
      rw [List.countP_eq_zero]
      intro y hy hpy
      have hsome := h.next_isSome hy
      rw [hp y (List.mem_append_left _ hy) hpy] at hsome
      cases hsome
    rw [List.countP_append, hinit, Nat.zero_add]
    exact List.countP_le_length

end Relational
