import Mathlib.Tactic.Common

/-! The replacement of all occurrences of a pattern, from left to right, where a part of each is
masked; and texts that differ in what is masked only. -/

namespace Masking
variable {α : Type}

/-- An occurrence at the beginning of a text, and the rest of the text. -/
structure Match (α : Type) where
  shown : List α
  hidden : List α
  after : List α
  rest : List α

/-- A pattern. Its occurrences have something to hide. -/
structure Pattern (α : Type) where
  find : List α → Option (Match α)
  splits : ∀ s m, find s = some m → m.shown ++ m.hidden ++ m.after ++ m.rest = s
  nonempty : ∀ s m, find s = some m → m.hidden ≠ []

inductive Token (α : Type) where
  | plain (c : α)
  | secret (shown hidden after : List α)
  deriving DecidableEq

namespace Token

def text : Token α → List α
  | plain c => [c]
  | secret shown hidden after => shown ++ hidden ++ after

def mask (marker : List α) : Token α → List α
  | plain c => [c]
  | secret shown _ after => shown ++ marker ++ after

/-- The token without its secret. -/
def conceal : Token α → Token α
  | plain c => plain c
  | secret shown _ after => secret shown [] after

@[simp] theorem mask_conceal (marker : List α) (t : Token α) : t.conceal.mask marker = t.mask marker := by
  cases t with
  | plain c => rfl
  | secret shown hidden after => rfl

end Token

/-- The tokens of a text that is no longer than the fuel. -/
def scan (p : Pattern α) : Nat → List α → List (Token α)
  | 0, _ => []
  | _ + 1, [] => []
  | fuel + 1, c :: s =>
    match p.find (c :: s) with
    | some m => .secret m.shown m.hidden m.after :: scan p fuel m.rest
    | none => .plain c :: scan p fuel s

def tokens (p : Pattern α) (s : List α) : List (Token α) := scan p s.length s

/-- The text with all secrets replaced. -/
def mask (p : Pattern α) (marker s : List α) : List α := (tokens p s).flatMap (Token.mask marker)

/-- Two texts have the same tokens, up to the secrets. -/
def SameTokens (p : Pattern α) (s s' : List α) : Prop :=
  (tokens p s).map Token.conceal = (tokens p s').map Token.conceal

section Masks
variable {p : Pattern α} {marker s s' : List α}

theorem Pattern.rest_length {m : Match α} (h : p.find s = some m) : m.rest.length < s.length := by
  have hlength := congrArg List.length (p.splits s m h)
  have hhidden := List.length_pos_iff.mpr (p.nonempty s m h)
  simp only [List.length_append] at hlength
  lia

/-- The tokens make up the text: the fuel is enough. -/
theorem scan_text {fuel : Nat} (h : s.length ≤ fuel) : (scan p fuel s).flatMap Token.text = s := by
  induction fuel generalizing s with
  | zero =>
    rw [List.length_eq_zero_iff.mp (Nat.le_zero.mp h)]
    rfl
  | succ fuel ih =>
    cases s with
    | nil => rfl
    | cons c s =>
      rw [scan]
      cases hfind : p.find (c :: s) with
      | none =>
        have hrest : (scan p fuel s).flatMap Token.text = s := ih (Nat.le_of_succ_le_succ h)
        rw [List.flatMap_cons, hrest]
        rfl
      | some m =>
        have hshort := p.rest_length hfind
        have hrest : (scan p fuel m.rest).flatMap Token.text = m.rest := ih (by lia)
        rw [List.flatMap_cons, hrest]
        exact p.splits (c :: s) m hfind

theorem tokens_text : (tokens p s).flatMap Token.text = s := scan_text (Nat.le_refl _)

theorem SameTokens.mask_eq (h : SameTokens p s s') : mask p marker s = mask p marker s' := by
  have hconceal (s : List α) : mask p marker s =
      ((tokens p s).map Token.conceal).flatMap (Token.mask marker) := by
    rw [List.flatMap_map, mask]
    simp only [Token.mask_conceal]
  rw [hconceal s, hconceal s', h]

/-- The secrets among the tokens are those that the pattern finds. -/
theorem mem_scan {fuel : Nat} {shown hidden after : List α}
    (h : .secret shown hidden after ∈ scan p fuel s) :
    ∃ s' m, p.find s' = some m ∧ m.hidden = hidden := by
  induction fuel generalizing s with
  | zero => cases h
  | succ fuel ih =>
    cases s with
    | nil => cases h
    | cons c s =>
      rw [scan] at h
      cases hfind : p.find (c :: s) with
      | none =>
        rw [hfind] at h
        rcases List.mem_cons.mp h with heq | h
        · cases heq
        · exact ih h
      | some m =>
        rw [hfind] at h
        rcases List.mem_cons.mp h with heq | h
        · cases heq
          exact ⟨c :: s, m, hfind, rfl⟩
        · exact ih h

/-- Masking neither hides nor makes a character that no secret has, nor the marker. -/
theorem mem_mask {c : α} (hmarker : c ∉ marker)
    (hhidden : ∀ s m, p.find s = some m → c ∉ m.hidden) : c ∈ mask p marker s ↔ c ∈ s := by
  have htext : c ∈ s ↔ ∃ t ∈ tokens p s, c ∈ t.text := by
    rw [← List.mem_flatMap, tokens_text]
  rw [htext, mask, List.mem_flatMap]
  refine exists_congr fun t => and_congr_right fun ht => ?_
  cases t with
  | plain d => exact Iff.rfl
  | secret shown hidden after =>
    obtain ⟨s', m, hfind, rfl⟩ := mem_scan ht
    have hno : c ∉ m.hidden := hhidden s' m hfind
    rw [Token.mask, Token.text, List.mem_append, List.mem_append, List.mem_append, List.mem_append,
      or_iff_left hmarker, or_iff_left hno]

theorem mask_eq_nil (hmarker : marker ≠ []) : mask p marker s = [] ↔ s = [] := by
  constructor
  · intro h
    rw [← tokens_text (p := p) (s := s), List.flatMap_eq_nil_iff]
    intro t ht
    have hnil := List.flatMap_eq_nil_iff.mp h t ht
    cases t with
    | plain c => cases hnil
    | secret shown hidden after =>
      rw [Token.mask, List.append_eq_nil_iff, List.append_eq_nil_iff] at hnil
      exact absurd hnil.1.2 hmarker
  · rintro rfl
    rfl

end Masks
end Masking
