import Mathlib

/-! Bytes in hexadecimal, numbers in decimal, and fields that are divided by a separator. -/

namespace Encoding

/-- A field without separators ends where the first separator stands. -/
theorem fields_inj {α : Type} {a : α} {field field' rest rest' : List α} (h : a ∉ field)
    (h' : a ∉ field') :
    field ++ a :: rest = field' ++ a :: rest' ↔ field = field' ∧ rest = rest' := by
  refine ⟨fun heq => ?_, fun ⟨hfield, hrest⟩ => by rw [hfield, hrest]⟩
  induction field generalizing field' with
  | nil =>
    cases field' with
    | nil => exact ⟨rfl, (List.cons.inj heq).2⟩
    | cons b field' =>
      have hb : a = b := (List.cons.inj heq).1
      exact absurd (hb ▸ List.mem_cons_self) h'
  | cons c field ih =>
    cases field' with
    | nil =>
      have hc : c = a := (List.cons.inj heq).1
      exact absurd (hc ▸ List.mem_cons_self) h
    | cons b field' =>
      obtain ⟨rfl, htail⟩ := List.cons.inj heq
      obtain ⟨rfl, hrest⟩ := ih (List.not_mem_of_not_mem_cons h)
        (List.not_mem_of_not_mem_cons h') htail
      exact ⟨rfl, hrest⟩

/-- What occurs in a joined list occurs in the separator or in one of the parts. -/
theorem mem_intercalate {α : Type} {sep : List α} {parts : List (List α)} {x : α}
    (h : x ∈ sep.intercalate parts) : x ∈ sep ∨ ∃ part ∈ parts, x ∈ part := by
  induction parts using List.twoStepInduction with
  | nil => simp at h
  | singleton part => exact .inr ⟨part, List.mem_singleton_self _, by simpa using h⟩
  | cons_cons part next parts _ ih =>
    rw [List.intercalate_cons_cons, List.mem_append, List.mem_append] at h
    rcases h with (h | h) | h
    · exact .inr ⟨part, List.mem_cons_self, h⟩
    · exact .inl h
    · rcases ih next h with h | ⟨l, hl, hx⟩
      · exact .inl h
      · exact .inr ⟨l, List.mem_cons_of_mem part hl, hx⟩

def hexDigits : List Char :=
  ['0', '1', '2', '3', '4', '5', '6', '7', '8', '9', 'a', 'b', 'c', 'd', 'e', 'f']

def hexDigit (n : Nat) : Char := hexDigits.getD n '0'

def hexValue (c : Char) : Option Nat :=
  if '0' ≤ c ∧ c ≤ '9' then some (c.toNat - 48)
  else if 'a' ≤ c ∧ c ≤ 'f' then some (c.toNat - 87)
  else if 'A' ≤ c ∧ c ≤ 'F' then some (c.toNat - 55)
  else none

def toHex (bytes : List UInt8) : List Char :=
  bytes.flatMap fun byte => [hexDigit (byte.toNat / 16), hexDigit (byte.toNat % 16)]

/-- The bytes of a hexadecimal text, up to the first pair that is not one of digits. -/
def fromHex : List Char → List UInt8
  | a :: b :: rest =>
    match hexValue a, hexValue b with
    | some x, some y => UInt8.ofNat (16 * x + y) :: fromHex rest
    | _, _ => []
  | _ => []

theorem toHex_cons (byte : UInt8) (bytes : List UInt8) : toHex (byte :: bytes) =
    hexDigit (byte.toNat / 16) :: hexDigit (byte.toNat % 16) :: toHex bytes := by
  rw [toHex, List.flatMap_cons]
  rfl

theorem hexValue_hexDigit {n : Nat} (h : n < 16) : hexValue (hexDigit n) = some n := by
  have hall : ∀ k : Fin 16, hexValue (hexDigit k) = some k.val := by decide
  exact hall ⟨n, h⟩

theorem fromHex_toHex (bytes : List UInt8) : fromHex (toHex bytes) = bytes := by
  induction bytes with
  | nil => rfl
  | cons byte bytes ih =>
    have hhigh : byte.toNat / 16 < 16 := by
      have := byte.toNat_lt
      lia
    have hlow : byte.toNat % 16 < 16 := Nat.mod_lt _ (by decide)
    have hbyte : UInt8.ofNat (16 * (byte.toNat / 16) + byte.toNat % 16) = byte := by
      rw [Nat.div_add_mod, UInt8.ofNat_toNat]
    rw [toHex_cons, fromHex, hexValue_hexDigit hhigh, hexValue_hexDigit hlow]
    simp only [hbyte, ih]

theorem toHex_injective {a b : List UInt8} (h : toHex a = toHex b) : a = b := by
  rw [← fromHex_toHex a, h, fromHex_toHex]

theorem hexDigit_of_mem {c : Char} (h : c ∈ hexDigits) :
    ∃ n < 16, hexDigit n = c ∧ hexValue c = some n := by
  obtain ⟨n, hn, rfl⟩ := List.mem_iff_getElem.mp h
  have hdigit : hexDigit n = hexDigits[n] := List.getD_eq_getElem hexDigits '0' hn
  refine ⟨n, hn, hdigit, ?_⟩
  rw [← hdigit]
  exact hexValue_hexDigit hn

/-- A text of hexadecimal digits in pairs is the one of its bytes. -/
theorem toHex_fromHex {text : List Char} (heven : text.length % 2 = 0)
    (hdigits : ∀ c ∈ text, c ∈ hexDigits) : toHex (fromHex text) = text := by
  induction text using fromHex.induct with
  | case1 a b rest x y hx hy ih =>
    obtain ⟨n, hn, hback, hvalue⟩ := hexDigit_of_mem (hdigits a (by simp))
    obtain ⟨m, hm, hback', hvalue'⟩ := hexDigit_of_mem (hdigits b (by simp))
    rw [List.length_cons, List.length_cons] at heven
    have hrest := ih (by lia) fun c hc => hdigits c (by simp [hc])
    have hbyte : (UInt8.ofNat (16 * n + m)).toNat = 16 * n + m := by
      rw [UInt8.toNat_ofNat']
      lia
    have hhigh : (16 * n + m) / 16 = n := by lia
    have hlow : (16 * n + m) % 16 = m := by lia
    rw [fromHex, hvalue, hvalue', toHex_cons, hrest, hbyte, hhigh, hlow, hback, hback']
  | case2 a b rest hnone =>
    obtain ⟨n, -, -, hvalue⟩ := hexDigit_of_mem (hdigits a (by simp))
    obtain ⟨m, -, -, hvalue'⟩ := hexDigit_of_mem (hdigits b (by simp))
    exact absurd hvalue' (hnone n m hvalue)
  | case3 text hshort =>
    match text, hshort with
    | [], _ => rfl
    | [a], _ => simp at heven
    | a :: b :: rest, hshort => exact absurd rfl (hshort a b rest)

theorem mem_toHex {bytes : List UInt8} {c : Char} (h : c ∈ toHex bytes) : c ∈ hexDigits := by
  have hall : ∀ k : Fin 16, hexDigit k ∈ hexDigits := by decide
  induction bytes with
  | nil => cases h
  | cons byte bytes ih =>
    rw [toHex_cons, List.mem_cons, List.mem_cons] at h
    rcases h with rfl | rfl | h
    · have hhigh : byte.toNat / 16 < 16 := by
        have := byte.toNat_lt
        lia
      exact hall ⟨_, hhigh⟩
    · exact hall ⟨_, Nat.mod_lt _ (by decide)⟩
    · exact ih h

theorem length_toHex (bytes : List UInt8) : (toHex bytes).length = 2 * bytes.length := by
  induction bytes with
  | nil => rfl
  | cons byte bytes ih =>
    rw [toHex_cons, List.length_cons, List.length_cons, ih, List.length_cons]
    lia

/-- The characters of a decimal number. -/
theorem mem_decimal {n : Int} {c : Char} (h : c ∈ n.repr.toList) : c.isDigit = true ∨ c = '-' := by
  have hdigits (k : Nat) (hc : c ∈ k.repr.toList) : c.isDigit = true := by
    rw [Nat.repr_eq_ofList_toDigits, String.toList_ofList] at hc
    exact Nat.isDigit_of_mem_toDigits (by decide) (by decide) hc
  rw [Int.repr_eq_if] at h
  split at h
  · exact .inl (hdigits _ h)
  · rw [String.toList_append, List.mem_append] at h
    rcases h with h | h
    · exact .inr (List.mem_singleton.mp h)
    · exact .inl (hdigits _ h)

theorem not_mem_decimal {n : Int} {c : Char} (hdigit : c.isDigit = false) (hminus : c ≠ '-') :
    c ∉ n.repr.toList := by
  intro h
  rcases mem_decimal h with hc | rfl
  · rw [hc] at hdigit
    cases hdigit
  · exact hminus rfl

end Encoding
