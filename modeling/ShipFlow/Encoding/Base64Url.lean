import Mathlib.Data.List.TakeWhile
import ShipFlow.Script.Values

/-! Bytes as base64url text, without padding. -/

namespace Encoding.Base64Url
open Script

def alphabet : Text := text "ABCDEFGHIJKLMNOPQRSTUVWXYZabcdefghijklmnopqrstuvwxyz0123456789-_"

def digit (n : Nat) : UInt16 := alphabet.getD n 0

/-- The value of a digit; the two digits of plain base64 are read as well. -/
def value (c : UInt16) : Option Nat :=
  if c = 0x2b then some 62 else if c = 0x2f then some 63 else alphabet.idxOf? c

def encode : List UInt8 → Text
  | a :: b :: c :: rest =>
    digit (a.toNat / 4) :: digit (a.toNat % 4 * 16 + b.toNat / 16) ::
      digit (b.toNat % 16 * 4 + c.toNat / 64) :: digit (c.toNat % 64) :: encode rest
  | [a, b] =>
    [digit (a.toNat / 4), digit (a.toNat % 4 * 16 + b.toNat / 16), digit (b.toNat % 16 * 4)]
  | [a] => [digit (a.toNat / 4), digit (a.toNat % 4 * 16)]
  | [] => []

/-- The bytes of a sequence of digit values; bits that do not fill a byte are dropped. -/
def octets : List Nat → List UInt8
  | p :: q :: r :: s :: rest =>
    UInt8.ofNat (p * 4 + q / 16) :: UInt8.ofNat (q * 16 + r / 4) :: UInt8.ofNat (r * 64 + s) ::
      octets rest
  | [p, q, r] => [UInt8.ofNat (p * 4 + q / 16), UInt8.ofNat (q * 16 + r / 4)]
  | [p, q] => [UInt8.ofNat (p * 4 + q / 16)]
  | [_] => []
  | [] => []

/-- The first padding sign ends the text; other signs that are no digits are skipped. -/
def decode (t : Text) : List UInt8 := octets ((t.takeWhile (· ≠ 0x3d)).filterMap value)

theorem digit_spec {n : Nat} (h : n < 64) : digit n ≠ 0x3d ∧ value (digit n) = some n := by
  have hall : ∀ k : Fin 64, digit k ≠ 0x3d ∧ value (digit k) = some k.val := by decide +kernel
  exact hall ⟨n, h⟩

theorem decode_digits {ns : List Nat} (h : ∀ n ∈ ns, n < 64) : decode (ns.map digit) = octets ns := by
  have hall : (ns.map digit).takeWhile (· ≠ 0x3d) = ns.map digit := by
    refine List.takeWhile_eq_self_iff.mpr fun c hc => ?_
    obtain ⟨n, hn, rfl⟩ := List.mem_map.mp hc
    exact decide_eq_true (digit_spec (h n hn)).1
  have hvalues : (ns.map digit).filterMap value = ns := by
    rw [List.filterMap_map]
    exact (List.filterMap_congr fun n hn => (digit_spec (h n hn)).2).trans List.filterMap_some
  rw [decode, hall, hvalues]

/-- The values of the digits that encode the bytes. -/
def sextets : List UInt8 → List Nat
  | a :: b :: c :: rest =>
    a.toNat / 4 :: (a.toNat % 4 * 16 + b.toNat / 16) :: (b.toNat % 16 * 4 + c.toNat / 64) ::
      c.toNat % 64 :: sextets rest
  | [a, b] => [a.toNat / 4, a.toNat % 4 * 16 + b.toNat / 16, b.toNat % 16 * 4]
  | [a] => [a.toNat / 4, a.toNat % 4 * 16]
  | [] => []

theorem encode_eq (bytes : List UInt8) : encode bytes = (sextets bytes).map digit := by
  induction bytes using encode.induct with
  | case1 a b c rest ih => simp only [encode, sextets, List.map_cons, ih]
  | case2 a b => rfl
  | case3 a => rfl
  | case4 => rfl

theorem sextets_lt {bytes : List UInt8} {n : Nat} (h : n ∈ sextets bytes) : n < 64 := by
  induction bytes using sextets.induct with
  | case1 a b c rest ih =>
    have ha := a.toNat_lt
    have hb := b.toNat_lt
    have hc := c.toNat_lt
    simp only [sextets, List.mem_cons] at h
    rcases h with h | h | h | h | h
    · omega
    · omega
    · omega
    · omega
    · exact ih h
  | case2 a b =>
    have ha := a.toNat_lt
    have hb := b.toNat_lt
    simp only [sextets, List.mem_cons, List.not_mem_nil, or_false] at h
    omega
  | case3 a =>
    have ha := a.toNat_lt
    simp only [sextets, List.mem_cons, List.not_mem_nil, or_false] at h
    omega
  | case4 => cases h

theorem ofNat_toNat_of_mod {a : UInt8} {n : Nat} (h : n % 256 = a.toNat) : UInt8.ofNat n = a := by
  rw [← UInt8.toNat_inj, UInt8.toNat_ofNat']
  exact h

theorem octets_sextets (bytes : List UInt8) : octets (sextets bytes) = bytes := by
  induction bytes using sextets.induct with
  | case1 a b c rest ih =>
    have ha := a.toNat_lt
    have hb := b.toNat_lt
    have hc := c.toNat_lt
    rw [sextets, octets, ih, ofNat_toNat_of_mod (a := a) (by omega),
      ofNat_toNat_of_mod (a := b) (by omega), ofNat_toNat_of_mod (a := c) (by omega)]
  | case2 a b =>
    have ha := a.toNat_lt
    have hb := b.toNat_lt
    rw [sextets, octets, ofNat_toNat_of_mod (a := a) (by omega),
      ofNat_toNat_of_mod (a := b) (by omega)]
  | case3 a =>
    have ha := a.toNat_lt
    rw [sextets, octets, ofNat_toNat_of_mod (a := a) (by omega)]
  | case4 => rfl

theorem decode_encode (bytes : List UInt8) : decode (encode bytes) = bytes := by
  rw [encode_eq, decode_digits fun _ => sextets_lt, octets_sextets]

theorem length_encode (bytes : List UInt8) : (encode bytes).length = (4 * bytes.length + 2) / 3 := by
  induction bytes using encode.induct with
  | case1 a b c rest ih =>
    simp only [encode, List.length_cons, ih]
    omega
  | case2 a b => simp [encode]
  | case3 a => simp [encode]
  | case4 => rfl

end Encoding.Base64Url
