import Mathlib
import ShipFlow.Script.Values

/-! Strings as texts of Unicode: what the platform takes a string of code units for. -/

namespace Script

/-- A code unit on its own. A surrogate becomes the replacement character. -/
def unitChar (c : UInt16) : Char :=
  if isHighSurrogate c || isLowSurrogate c then '\ufffd' else Char.ofNat c.toNat

def scalarValues : Text → List Char
  | high :: low :: rest =>
    if isHighSurrogate high && isLowSurrogate low then
      Char.ofNat (0x10000 + 0x400 * (high.toNat - 0xd800) + (low.toNat - 0xdc00)) ::
        scalarValues rest
    else unitChar high :: scalarValues (low :: rest)
  | [c] => [unitChar c]
  | [] => []

section Ascii
variable {t : Text} {cs : List Char} {c : UInt16}

theorem not_surrogate (h : c.toNat < 0xd800) : isHighSurrogate c = false ∧ isLowSurrogate c = false := by
  rw [isHighSurrogate, isLowSurrogate, Bool.and_eq_false_iff, Bool.and_eq_false_iff]
  refine ⟨.inl ?_, .inl ?_⟩
  · rw [decide_eq_false_iff_not, UInt16.le_iff_toNat_le]
    exact Nat.not_le.mpr h
  · rw [decide_eq_false_iff_not, UInt16.le_iff_toNat_le]
    exact Nat.not_le.mpr (Nat.lt_trans h (by decide))

theorem scalarValues_cons (h : isHighSurrogate c = false) :
    scalarValues (c :: t) = unitChar c :: scalarValues t := by
  cases t with
  | nil => rfl
  | cons d t => rw [scalarValues, h, Bool.false_and, if_neg Bool.false_ne_true]

theorem unitChar_ofNat {d : Char} (h : d.toNat < 0xd800) : unitChar (UInt16.ofNat d.toNat) = d := by
  have hunit : (UInt16.ofNat d.toNat).toNat = d.toNat := by
    rw [UInt16.toNat_ofNat']
    exact Nat.mod_eq_of_lt (Nat.lt_trans h (by decide))
  have hsurrogate := not_surrogate (c := UInt16.ofNat d.toNat) (by rw [hunit]; exact h)
  rw [unitChar, hsurrogate.1, hsurrogate.2, hunit]
  exact Char.ofNat_toNat d

/-- The code units of a text without surrogates. -/
theorem text_ofList (h : ∀ d ∈ cs, d.toNat < 0xd800) :
    text (String.ofList cs) = cs.map fun d => UInt16.ofNat d.toNat := by
  rw [text, String.toList_ofList]
  induction cs with
  | nil => rfl
  | cons d cs ih =>
    have hd : d.toNat < 0x10000 := Nat.lt_trans (h d List.mem_cons_self) (by decide)
    rw [List.flatMap_cons, ih fun e he => h e (List.mem_cons_of_mem d he), if_pos hd]
    rfl

theorem scalarValues_text (h : ∀ d ∈ cs, d.toNat < 0xd800) :
    scalarValues (text (String.ofList cs)) = cs := by
  rw [text_ofList h]
  induction cs with
  | nil => rfl
  | cons d cs ih =>
    have hd := h d List.mem_cons_self
    have hunit : (UInt16.ofNat d.toNat).toNat < 0xd800 := by
      rw [UInt16.toNat_ofNat']
      exact Nat.lt_of_le_of_lt (Nat.mod_le _ _) hd
    rw [List.map_cons, scalarValues_cons (not_surrogate hunit).1, unitChar_ofNat hd,
      ih fun e he => h e (List.mem_cons_of_mem d he)]

theorem valid_of_not_surrogate (hhigh : isHighSurrogate c = false)
    (hlow : isLowSurrogate c = false) : c.toNat.isValidChar := by
  have hbound := c.toNat_lt
  simp only [isHighSurrogate, isLowSurrogate, Bool.and_eq_false_iff, decide_eq_false_iff_not,
    UInt16.le_iff_toNat_le, UInt16.reduceToNat, Nat.not_le] at hhigh hlow
  rw [Nat.isValidChar]
  lia

/-- The code point of a pair of surrogates is beyond those of a single code unit. -/
theorem pair_toNat {high low : UInt16} (h : (isHighSurrogate high && isLowSurrogate low) = true) :
    0x10000 ≤ (Char.ofNat
      (0x10000 + 0x400 * (high.toNat - 0xd800) + (low.toNat - 0xdc00))).toNat := by
  simp only [isHighSurrogate, isLowSurrogate, Bool.and_eq_true, decide_eq_true_eq,
    UInt16.le_iff_toNat_le, UInt16.reduceToNat] at h
  have hvalid : (0x10000 + 0x400 * (high.toNat - 0xd800) + (low.toNat - 0xdc00)).isValidChar := by
    rw [Nat.isValidChar]
    lia
  rw [Char.toNat_ofNat, if_pos hvalid, Nat.add_assoc]
  exact Nat.le_add_right _ _

/-- An ASCII character stands for itself. -/
theorem unitChar_ascii {d : Char} (hd : d.toNat < 0x80) (h : unitChar c = d) :
    c = UInt16.ofNat d.toNat := by
  rw [unitChar] at h
  split at h
  · rw [← h] at hd
    exact absurd hd (by decide)
  · next hsurrogate =>
    rw [Bool.or_eq_true, not_or, Bool.not_eq_true, Bool.not_eq_true] at hsurrogate
    rw [← h, Char.toNat_ofNat, if_pos (valid_of_not_surrogate hsurrogate.1 hsurrogate.2),
      UInt16.ofNat_toNat]

theorem mem_of_scalarValues {d : Char} (hd : d.toNat < 0x80) (h : d ∈ scalarValues t) :
    UInt16.ofNat d.toNat ∈ t := by
  induction t using scalarValues.induct with
  | case1 high low rest hpair ih =>
    rw [scalarValues, if_pos hpair] at h
    rcases List.mem_cons.mp h with heq | h
    · have hfar := pair_toNat hpair
      rw [← heq] at hfar
      exact absurd hd (Nat.not_lt.mpr (Nat.le_trans (by decide) hfar))
    · exact List.mem_cons_of_mem high (List.mem_cons_of_mem low (ih h))
  | case2 high low rest hpair ih =>
    rw [scalarValues, if_neg hpair] at h
    rcases List.mem_cons.mp h with h | h
    · rw [← unitChar_ascii hd h.symm]
      exact List.mem_cons_self
    · exact List.mem_cons_of_mem high (ih h)
  | case3 c =>
    rw [← unitChar_ascii hd (List.mem_singleton.mp h).symm]
    exact List.mem_cons_self
  | case4 => cases h

theorem ofNat_inj {d e : Char} (hd : d.toNat < 0xd800) (he : e.toNat < 0xd800) :
    UInt16.ofNat d.toNat = UInt16.ofNat e.toNat ↔ d = e := by
  refine ⟨fun h => ?_, fun h => by rw [h]⟩
  rw [← unitChar_ofNat hd, ← unitChar_ofNat he, h]

theorem mem_text {d : Char} (h : ∀ e ∈ cs, e.toNat < 0xd800) (hd : d.toNat < 0xd800) :
    UInt16.ofNat d.toNat ∈ text (String.ofList cs) ↔ d ∈ cs := by
  rw [text_ofList h, List.mem_map]
  constructor
  · rintro ⟨e, he, heq⟩
    rwa [(ofNat_inj (h e he) hd).mp heq] at he
  · intro hmem
    exact ⟨d, hmem, rfl⟩

theorem isPrefixOf_text {front : List Char} (hfront : ∀ d ∈ front, d.toNat < 0xd800)
    (h : ∀ d ∈ cs, d.toNat < 0xd800) :
    (text (String.ofList front)).isPrefixOf (text (String.ofList cs)) = front.isPrefixOf cs := by
  rw [text_ofList hfront, text_ofList h]
  induction front generalizing cs with
  | nil => rfl
  | cons d front ih =>
    cases cs with
    | nil => rfl
    | cons e cs =>
      have hd := hfront d List.mem_cons_self
      have he := h e List.mem_cons_self
      have hbeq : (UInt16.ofNat d.toNat == UInt16.ofNat e.toNat) = (d == e) := by
        rw [Bool.eq_iff_iff, beq_iff_eq, beq_iff_eq]
        exact ofNat_inj hd he
      rw [List.map_cons, List.map_cons, List.isPrefixOf_cons_cons, List.isPrefixOf_cons_cons, hbeq,
        ih (fun d' hd' => hfront d' (List.mem_cons_of_mem d hd'))
          fun e' he' => h e' (List.mem_cons_of_mem e he')]

end Ascii
end Script
