import Mathlib.Tactic.Common
import ShipFlow.Url.Parser

/-! Paths whose dot segments are removed: when the first of the remaining segments is empty, and
others follow, so that the path begins with two slashes. -/

namespace Url

/-- How many segments remain after another one. -/
def depthAfter (depth : Nat) (buffer : List Char) : Nat :=
  if isDoubleDot buffer then depth - 1 else if isSingleDot buffer then depth else depth + 1

/-- How many segments remain in the end. -/
def depth (start : Nat) (buffers : List (List Char)) : Nat := buffers.foldl depthAfter start

/-- At no point all the segments are removed. -/
def Kept (depth : Nat) : List (List Char) → Prop
  | [] => 0 < depth
  | buffer :: buffers => 0 < depth ∧ Kept (depthAfter depth buffer) buffers

/-- One of the segments is empty and is not the last one, all before it are removed, and it
stays itself. -/
def LeavesEmptyHead (buffers : List (List Char)) : Prop :=
  ∃ before after, buffers = before ++ [] :: after ∧ after ≠ [] ∧ depth 0 before = 0 ∧ Kept 1 after

/-- A path that begins with two slashes. -/
def EmptyHead (path : List (List Char)) : Prop := ∃ next rest, path = [] :: next :: rest

section Segments
variable {path : List (List Char)} {buffer : List Char} {buffers : List (List Char)}

theorem emptyHead_concat : EmptyHead (path ++ [buffer]) ↔ path.head? = some [] := by
  cases path with
  | nil =>
    refine iff_of_false ?_ (fun h => by cases h)
    rintro ⟨next, rest, h⟩
    cases h
  | cons head tail =>
    rw [List.head?_cons, Option.some.injEq]
    constructor
    · rintro ⟨next, rest, h⟩
      exact (List.cons.inj h).1
    · rintro rfl
      cases tail with
      | nil => exact ⟨buffer, [], rfl⟩
      | cons next rest => exact ⟨next, rest ++ [buffer], rfl⟩

theorem head?_dropLast : path.dropLast.head? = some [] ↔ path.head? = some [] ∧ 1 < path.length := by
  cases path with
  | nil => exact iff_of_false (fun h => by cases h) (fun h => by cases h.1)
  | cons head tail =>
    cases tail with
    | nil => exact iff_of_false (fun h => by cases h) (fun h => absurd h.2 (by simp))
    | cons next rest =>
      rw [List.dropLast_cons_cons, List.head?_cons, List.head?_cons, List.length_cons, List.length_cons]
      exact (and_iff_left (by lia)).symm

theorem pos_of_head? (h : path.head? = some []) : 0 < path.length := by
  cases path with
  | nil => cases h
  | cons head tail => exact Nat.succ_pos _

theorem length_endSegment : (endSegment path buffer false).length = depthAfter path.length buffer := by
  unfold endSegment depthAfter
  split
  · exact List.length_dropLast
  split
  · rfl
  · exact List.length_append

/-- The last segment. -/
theorem emptyHead_endSegment : EmptyHead (endSegment path buffer true) ↔
    path.head? = some [] ∧ 0 < depthAfter path.length buffer := by
  unfold endSegment depthAfter
  split
  · rw [if_pos rfl, emptyHead_concat, head?_dropLast, Nat.sub_pos_iff_lt]
  split
  · rw [if_pos rfl, emptyHead_concat]
    exact (and_iff_left_of_imp pos_of_head?).symm
  · rw [emptyHead_concat]
    exact (and_iff_left (Nat.succ_pos _)).symm

/-- Any other segment. -/
theorem head?_endSegment : (endSegment path buffer false).head? = some [] ↔
    path.head? = some [] ∧ 0 < depthAfter path.length buffer ∨ path.length = 0 ∧ buffer = [] := by
  have hnotdot : isDoubleDot [] = false ∧ isSingleDot [] = false := by decide
  unfold endSegment depthAfter
  split
  · next hdouble =>
    rw [if_neg Bool.false_ne_true, head?_dropLast, Nat.sub_pos_iff_lt]
    refine (or_iff_left ?_).symm
    rintro ⟨-, rfl⟩
    rw [hnotdot.1] at hdouble
    cases hdouble
  split
  · next hsingle =>
    rw [if_neg Bool.false_ne_true, and_iff_left_of_imp pos_of_head?]
    refine (or_iff_left ?_).symm
    rintro ⟨-, rfl⟩
    rw [hnotdot.2] at hsingle
    cases hsingle
  · rw [and_iff_left (Nat.succ_pos _)]
    cases path with
    | nil => simp
    | cons head tail => simp

theorem kept_pos {n : Nat} (h : Kept n buffers) : 0 < n := by
  cases buffers with
  | nil => exact h
  | cons buffer buffers => exact h.1

/-- What remains of a path begins with two slashes if its empty head is kept, or if one of the
further segments becomes such a head. -/
theorem emptyHead_endSegments (hne : buffers ≠ []) : EmptyHead (endSegments path buffers) ↔
    path.head? = some [] ∧ Kept path.length buffers ∨
      ∃ before after, buffers = before ++ [] :: after ∧ after ≠ [] ∧
        depth path.length before = 0 ∧ Kept 1 after := by
  induction path, buffers using endSegments.induct with
  | case1 path => exact absurd rfl hne
  | case2 path buffer =>
    have hlast : ¬ ∃ before after, [buffer] = before ++ [] :: after ∧ after ≠ [] ∧
        depth path.length before = 0 ∧ Kept 1 after := by
      rintro ⟨before, after, h, hafter, -⟩
      have hlength := congrArg List.length h
      have hpos := List.length_pos_iff.mpr hafter
      simp only [List.length_append, List.length_cons, List.length_nil] at hlength
      lia
    rw [endSegments, emptyHead_endSegment, or_iff_left hlast]
    refine and_congr_right fun hhead => ?_
    exact (and_iff_right (pos_of_head? hhead)).symm
  | case3 path buffer buffers hbuffers ih =>
    have hlater : buffers ≠ [] := hbuffers
    rw [endSegments.eq_3 _ _ _ hbuffers, ih hlater, head?_endSegment, length_endSegment]
    constructor
    · rintro (⟨⟨hhead, hpos⟩ | ⟨hempty, rfl⟩, hkept⟩ | ⟨before, after, hsplit, hafter, hdepth, hkept⟩)
      · exact .inl ⟨hhead, pos_of_head? hhead, hkept⟩
      · rw [hempty] at hkept
        exact .inr ⟨[], buffers, rfl, hlater, hempty, hkept⟩
      · exact .inr ⟨buffer :: before, after, by rw [hsplit]; rfl, hafter, hdepth, hkept⟩
    · rintro (⟨hhead, -, hkept⟩ | ⟨before, after, hsplit, hafter, hdepth, hkept⟩)
      · exact .inl ⟨.inl ⟨hhead, kept_pos hkept⟩, hkept⟩
      · cases before with
        | nil =>
          obtain ⟨rfl, rfl⟩ := List.cons.inj hsplit
          have hempty : path.length = 0 := hdepth
          rw [hempty]
          exact .inl ⟨.inr ⟨rfl, rfl⟩, hkept⟩
        | cons head before =>
          obtain ⟨rfl, hrest⟩ := List.cons.inj hsplit
          exact .inr ⟨before, after, hrest, hafter, hdepth, hkept⟩

/-- The removal of dot segments leaves two slashes at the beginning. -/
theorem emptyHead_iff (hne : buffers ≠ []) :
    EmptyHead (endSegments [] buffers) ↔ LeavesEmptyHead buffers := by
  rw [emptyHead_endSegments hne]
  refine or_iff_right ?_
  rintro ⟨hhead, -⟩
  cases hhead

end Segments
end Url
