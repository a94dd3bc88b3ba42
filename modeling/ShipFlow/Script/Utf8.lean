import ShipFlow.Script.ScalarValues

/-! Strings as UTF-8 bytes and back. What is no UTF-8 becomes replacement characters. -/

namespace Script.Utf8

def encode (t : Text) : List UInt8 := (scalarValues t).flatMap String.utf8EncodeChar

/-- Where the decoder stands: between characters, or with a part of one and the range that
its next byte has to be in. -/
inductive State where
  | start
  | within (codePoint needed : Nat) (lower upper : UInt8)

/-- The first byte of a character. -/
def first (b : UInt8) : List Char × State :=
  if b ≤ 0x7f then ([Char.ofNat b.toNat], .start)
  else if 0xc2 ≤ b ∧ b ≤ 0xdf then ([], .within (b.toNat % 32) 1 0x80 0xbf)
  else if 0xe0 ≤ b ∧ b ≤ 0xef then
    ([], .within (b.toNat % 16) 2 (if b = 0xe0 then 0xa0 else 0x80)
      (if b = 0xed then 0x9f else 0xbf))
  else if 0xf0 ≤ b ∧ b ≤ 0xf4 then
    ([], .within (b.toNat % 8) 3 (if b = 0xf0 then 0x90 else 0x80)
      (if b = 0xf4 then 0x8f else 0xbf))
  else (['\ufffd'], .start)

/-- A byte that does not go on with its character is the first of another one. -/
def step : State → UInt8 → List Char × State
  | .start, b => first b
  | .within codePoint needed lower upper, b =>
    if lower ≤ b ∧ b ≤ upper then
      let codePoint := codePoint * 64 + b.toNat % 64
      if needed = 1 then ([Char.ofNat codePoint], .start)
      else ([], .within codePoint (needed - 1) 0x80 0xbf)
    else ('\ufffd' :: (first b).1, (first b).2)

def decodeFrom : State → List UInt8 → List Char
  | .start, [] => []
  | .within .., [] => ['\ufffd']
  | s, b :: rest => (step s b).1 ++ decodeFrom (step s b).2 rest

def decode (bytes : List UInt8) : Text := text (String.ofList (decodeFrom .start bytes))

section Ascii
variable {cs : List Char}

theorem encode_ascii (h : ∀ c ∈ cs, c.toNat < 0x80) :
    encode (text (String.ofList cs)) = cs.map fun c => UInt8.ofNat c.toNat := by
  have hunits : ∀ c ∈ cs, c.toNat < 0xd800 := fun c hc => Nat.lt_trans (h c hc) (by decide)
  rw [encode, scalarValues_text hunits, List.map_eq_flatMap]
  exact List.flatMap_congr fun c hc => if_pos (Nat.le_of_lt_succ (h c hc))

theorem decodeFrom_ascii (h : ∀ c ∈ cs, c.toNat < 0x80) :
    decodeFrom .start (cs.map fun c => UInt8.ofNat c.toNat) = cs := by
  induction cs with
  | nil => rfl
  | cons c cs ih =>
    have hc := h c List.mem_cons_self
    have hnat : (UInt8.ofNat c.toNat).toNat = c.toNat := by
      rw [UInt8.toNat_ofNat']
      omega
    have hfirst : first (UInt8.ofNat c.toNat) = ([c], .start) := by
      rw [first, if_pos, hnat, Char.ofNat_toNat]
      rw [UInt8.le_iff_toNat_le, hnat]
      exact Nat.le_of_lt_succ hc
    rw [List.map_cons, decodeFrom, step, hfirst]
    exact congrArg (c :: ·) (ih fun d hd => h d (List.mem_cons_of_mem c hd))

/-- Text in ASCII goes through unchanged. -/
theorem decode_encode (h : ∀ c ∈ cs, c.toNat < 0x80) :
    decode (encode (text (String.ofList cs))) = text (String.ofList cs) := by
  rw [encode_ascii h, decode, decodeFrom_ascii h]

end Ascii
end Script.Utf8
