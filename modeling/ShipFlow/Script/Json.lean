import ShipFlow.Script.ScalarValues

/-! JSON texts: the reader, and the writer for objects whose values are strings. A number is
kept as it is spelled. -/

namespace Script.Json

/-! ## Strings -/

def hexDigit (n : Nat) : UInt16 := UInt16.ofNat (if n < 10 then 0x30 + n else 0x57 + n)

def hexValue (c : UInt16) : Option Nat :=
  if isDigit c then some (c.toNat - 0x30)
  else if 0x61 ≤ c ∧ c ≤ 0x66 then some (c.toNat - 0x57)
  else if 0x41 ≤ c ∧ c ≤ 0x46 then some (c.toNat - 0x37)
  else none

def hex4 (c : UInt16) : Text :=
  [hexDigit (c.toNat / 4096), hexDigit (c.toNat / 256 % 16), hexDigit (c.toNat / 16 % 16),
    hexDigit (c.toNat % 16)]

/-- The units with an escape of their own, each with the sign that stands for it. -/
def escapes : List (UInt16 × UInt16) :=
  [(0x22, 0x22), (0x5c, 0x5c), (0x08, 0x62), (0x0c, 0x66), (0x0a, 0x6e), (0x0d, 0x72), (0x09, 0x74)]

/-- A code unit in a string literal; what is no text of its own is escaped. -/
def escape (c : UInt16) : Text :=
  match escapes.find? fun e => e.1 == c with
  | some e => [0x5c, e.2]
  | none =>
    if c < 0x20 || isHighSurrogate c || isLowSurrogate c then 0x5c :: 0x75 :: hex4 c else [c]

def quoteUnits : Text → Text
  | high :: low :: rest =>
    if isHighSurrogate high && isLowSurrogate low then high :: low :: quoteUnits rest
    else escape high ++ quoteUnits (low :: rest)
  | [c] => escape c
  | [] => []

def quote (t : Text) : Text := 0x22 :: quoteUnits t ++ [0x22]

def readHex4 (a b c d : UInt16) : Option UInt16 := do
  let p ← hexValue a
  let q ← hexValue b
  let r ← hexValue c
  let s ← hexValue d
  return UInt16.ofNat (p * 4096 + q * 256 + r * 16 + s)

/-- What the sign after a backslash stands for. -/
def unescape (sign : UInt16) : Option UInt16 :=
  if sign = 0x2f then some 0x2f
  else (escapes.find? fun e => e.2 == sign).map Prod.fst

/-- The rest of a string literal after its opening quotation mark, and what follows it. -/
def parseString : Text → Option (Text × Text)
  | [] => none
  | c :: rest =>
    if c = 0x22 then some ([], rest)
    else if c = 0x5c then
      match rest with
      | [] => none
      | sign :: rest =>
        if sign = 0x75 then
          match rest with
          | p :: q :: r :: s :: rest =>
            (readHex4 p q r s).bind fun unit =>
              (parseString rest).map fun read => (unit :: read.1, read.2)
          | _ => none
        else
          (unescape sign).bind fun unit =>
            (parseString rest).map fun read => (unit :: read.1, read.2)
    else if c < 0x20 then none
    else (parseString rest).map fun read => (c :: read.1, read.2)

/-! ## Numbers -/

/-- A run of digits that is not empty, and what follows it. -/
def parseDigits (t : Text) : Option (Text × Text) :=
  let digits := t.takeWhile isDigit
  if digits.isEmpty then none else some (digits, t.drop digits.length)

/-- An optional part of a number that one of the given signs begins. -/
def parsePart (signs : List UInt16) (body : Text → Option (Text × Text)) (t : Text) :
    Option (Text × Text) :=
  match t with
  | c :: rest =>
    if signs.contains c then (body rest).map fun read => (c :: read.1, read.2) else some ([], t)
  | [] => some ([], t)

def parseNumber (t : Text) : Option (Text × Text) := do
  let minus : Text := if t.head? = some 0x2d then [0x2d] else []
  let rest := t.drop minus.length
  let (whole, rest) ← if rest.head? = some 0x30 then some ([0x30], rest.drop 1) else parseDigits rest
  let (fraction, rest) ← parsePart [0x2e] parseDigits rest
  let (exponent, rest) ← parsePart [0x65, 0x45]
    (fun t => match t with
      | c :: rest =>
        if c = 0x2b ∨ c = 0x2d then (parseDigits rest).map fun read => (c :: read.1, read.2)
        else parseDigits t
      | [] => none) rest
  return (minus ++ whole ++ fraction ++ exponent, rest)

/-! ## Values -/

def isSpace (c : UInt16) : Bool := c == 0x20 || c == 0x09 || c == 0x0a || c == 0x0d

def skip (t : Text) : Text := t.dropWhile isSpace

/-- The text after the given one. -/
def after (front : Text) (t : Text) : Option Text :=
  if front.isPrefixOf t then some (t.drop front.length) else none

def parseLiteral (t : Text) : Option (Value Text × Text) :=
  if let some rest := after (text "null") t then some (.null, rest)
  else if let some rest := after (text "true") t then some (.boolean true, rest)
  else if let some rest := after (text "false") t then some (.boolean false, rest)
  else (parseNumber t).map fun read => (.number read.1, read.2)

mutual

/-- A value, and what follows it. The fuel bounds the nesting and the number of members. -/
def parseValue : Nat → Text → Option (Value Text × Text)
  | 0, _ => none
  | fuel + 1, t =>
    match skip t with
    | [] => none
    | c :: rest =>
      if c = 0x22 then (parseString rest).map fun read => (.string read.1, read.2)
      else if c = 0x7b then
        match after [0x7d] (skip rest) with
        | some rest => some (.object [], rest)
        | none => (parseMembers fuel [] rest).map fun read => (.object read.1, read.2)
      else if c = 0x5b then
        match after [0x5d] (skip rest) with
        | some rest => some (.array [], rest)
        | none => (parseElements fuel rest).map fun read => (.array read.1, read.2)
      else parseLiteral (c :: rest)

/-- The members of an object up to its closing bracket, added to those before them. -/
def parseMembers : Nat → List (Text × Value Text) → Text →
    Option (List (Text × Value Text) × Text)
  | 0, _, _ => none
  | fuel + 1, properties, t => do
    let (name, rest) ← (after [0x22] (skip t)).bind parseString
    let rest ← after [0x3a] (skip rest)
    let (value, rest) ← parseValue fuel rest
    let properties := defineProperty properties name value
    match after [0x2c] (skip rest) with
    | some rest => parseMembers fuel properties rest
    | none => (after [0x7d] (skip rest)).map fun rest => (properties, rest)

/-- The elements of an array up to its closing bracket. -/
def parseElements : Nat → Text → Option (List (Value Text) × Text)
  | 0, _ => none
  | fuel + 1, t => do
    let (item, rest) ← parseValue fuel t
    match after [0x2c] (skip rest) with
    | some rest => (parseElements fuel rest).map fun read => (item :: read.1, read.2)
    | none => (after [0x5d] (skip rest)).map fun rest => ([item], rest)

end

def parse (t : Text) : Option (Value Text) := do
  let (value, rest) ← parseValue (t.length + 1) t
  if (skip rest).isEmpty then some value else none

def stringifyMembers : List (Text × Text) → Text
  | [] => []
  | [(name, s)] => quote name ++ 0x3a :: quote s
  | (name, s) :: rest => quote name ++ 0x3a :: quote s ++ 0x2c :: stringifyMembers rest

/-- The text of an object whose values are strings. -/
def stringify (properties : List (Text × Text)) : Text :=
  0x7b :: stringifyMembers properties ++ [0x7d]

/-! ## What is written is read back -/

section RoundTrip
variable {t rest : Text} {c : UInt16} {name : Text} {value : Value Text} {fuel : Nat}

theorem hexValue_hexDigit {n : Nat} (h : n < 16) : hexValue (hexDigit n) = some n := by
  have hall : ∀ k : Fin 16, hexValue (hexDigit k) = some k.val := by decide
  exact hall ⟨n, h⟩

theorem readHex4_hex4 (c : UInt16) : readHex4 (hexDigit (c.toNat / 4096))
    (hexDigit (c.toNat / 256 % 16)) (hexDigit (c.toNat / 16 % 16)) (hexDigit (c.toNat % 16)) =
      some c := by
  have hc := c.toNat_lt
  rw [readHex4, hexValue_hexDigit (by omega), hexValue_hexDigit (by omega),
    hexValue_hexDigit (by omega), hexValue_hexDigit (by omega)]
  refine congrArg some ?_
  rw [← UInt16.toNat_inj, UInt16.toNat_ofNat']
  omega

theorem parseString_unit (hquote : c ≠ 0x22) (hslash : c ≠ 0x5c) (hcontrol : ¬ c < 0x20) :
    parseString (c :: t) = (parseString t).map fun read => (c :: read.1, read.2) := by
  rw [parseString.eq_def]
  simp only [if_neg hquote, if_neg hslash, if_neg hcontrol]

theorem parseString_end : parseString (0x22 :: rest) = some ([], rest) := by
  rw [parseString.eq_def]
  exact if_pos rfl

/-- An escaped unit is read as the unit. -/
theorem parseString_escape : parseString (escape c ++ t) =
    (parseString t).map fun read => (c :: read.1, read.2) := by
  unfold escape
  split
  · next e he =>
    have hsigns : ∀ e ∈ escapes, e.2 ≠ 0x75 ∧ unescape e.2 = some e.1 := by
      simp [unescape, escapes]
    obtain ⟨hsign, hunit⟩ := hsigns e (List.mem_of_find?_eq_some he)
    have hc : e.1 = c := by simpa using List.find?_some he
    rw [List.cons_append, List.singleton_append, parseString.eq_def]
    simp only [if_neg (show ¬ (0x5c : UInt16) = 0x22 by decide), if_true, if_neg hsign, hunit,
      Option.bind_some, hc]
  · next hnone =>
    have hother : ∀ e ∈ escapes, e.1 ≠ c := fun e he => by
      simpa using List.find?_eq_none.mp hnone e he
    split
    · rw [hex4, List.cons_append, List.cons_append, List.cons_append, List.cons_append,
        List.cons_append, List.cons_append, List.nil_append, parseString.eq_def]
      simp only [if_neg (show ¬ (0x5c : UInt16) = 0x22 by decide), if_true, readHex4_hex4,
        Option.bind_some]
    · next hplain =>
      rw [Bool.or_eq_true, Bool.or_eq_true, decide_eq_true_iff] at hplain
      exact parseString_unit (fun h => hother (0x22, 0x22) (by decide) h.symm)
        (fun h => hother (0x5c, 0x5c) (by decide) h.symm) fun h => hplain (.inl (.inl h))

theorem plain_of_surrogate (h : 0xd800 ≤ c) : c ≠ 0x22 ∧ c ≠ 0x5c ∧ ¬ c < 0x20 := by
  rw [UInt16.le_iff_toNat_le] at h
  simp only [ne_eq, ← UInt16.toNat_inj, UInt16.lt_iff_toNat_lt]
  simp only [UInt16.reduceToNat] at h ⊢
  omega

theorem parseString_quoteUnits :
    parseString (quoteUnits t ++ 0x22 :: rest) = some (t, rest) := by
  induction t using quoteUnits.induct with
  | case1 high low t hpair ih =>
    have hranges := hpair
    simp only [Bool.and_eq_true, isHighSurrogate, isLowSurrogate, decide_eq_true_iff] at hranges
    obtain ⟨hq, hs, hc⟩ := plain_of_surrogate hranges.1.1
    obtain ⟨hq', hs', hc'⟩ := plain_of_surrogate (UInt16.le_trans (by decide) hranges.2.1)
    rw [quoteUnits, if_pos hpair, List.cons_append, List.cons_append, parseString_unit hq hs hc, parseString_unit hq' hs' hc',
      ih]
    rfl
  | case2 high low t hpair ih =>
    rw [quoteUnits, if_neg hpair, List.append_assoc, parseString_escape, ih]
    rfl
  | case3 c =>
    rw [quoteUnits, parseString_escape, parseString_end]
    rfl
  | case4 => exact parseString_end

theorem after_cons : after [c] (c :: t) = some t := by
  simp [after]

theorem skip_cons (h : isSpace c = false) : skip (c :: t) = c :: t := by
  rw [skip, List.dropWhile_cons, h, if_neg Bool.false_ne_true]

theorem parseValue_quote :
    parseValue (fuel + 1) (quote t ++ rest) = some (.string t, rest) := by
  rw [quote, List.cons_append, List.cons_append, List.append_assoc, List.singleton_append,
    parseValue, skip_cons (by decide)]
  simp only [if_true, parseString_quoteUnits, Option.map_some]

theorem parseName_quote :
    (after [0x22] (skip (quote name ++ rest))).bind parseString = some (name, rest) := by
  rw [quote, List.cons_append, List.cons_append, List.append_assoc, List.singleton_append,
    skip_cons (by decide), after_cons, Option.bind_some, parseString_quoteUnits]

theorem after_ne {d : UInt16} (h : c ≠ d) : after [c] (d :: t) = none := by
  simp [after, h]

/-- The properties that the members define one after the other. -/
def defineAll (properties : List (Text × Value Text)) (members : List (Text × Text)) :
    List (Text × Value Text) :=
  members.foldl (fun properties m => defineProperty properties m.1 (.string m.2)) properties

theorem parseMembers_stringify {members : List (Text × Text)} {properties : List (Text × Value Text)}
    (hne : members ≠ []) (hfuel : members.length < fuel) :
    parseMembers fuel properties (stringifyMembers members ++ 0x7d :: rest) =
      some (defineAll properties members, rest) := by
  induction members using stringifyMembers.induct generalizing fuel properties with
  | case1 => exact absurd rfl hne
  | case2 name s =>
    obtain ⟨fuel, rfl⟩ : ∃ n, fuel = n + 2 := ⟨fuel - 2, by simp at hfuel; omega⟩
    rw [stringifyMembers, List.append_assoc, List.cons_append, parseMembers, parseName_quote]
    simp only [Option.bind_eq_bind, Option.bind_some, skip_cons (show isSpace 0x3a = false by decide),
      after_cons, parseValue_quote, skip_cons (show isSpace 0x7d = false by decide),
      after_ne (show (0x2c : UInt16) ≠ 0x7d by decide), Option.map_some]
    rfl
  | case3 name s others hothers ih =>
    obtain ⟨fuel, rfl⟩ : ∃ n, fuel = n + 2 := ⟨fuel - 2, by simp at hfuel; omega⟩
    rw [stringifyMembers.eq_3 name s others hothers, List.append_assoc, List.append_assoc,
      List.cons_append, List.cons_append, parseMembers, parseName_quote]
    simp only [Option.bind_eq_bind, Option.bind_some, skip_cons (show isSpace 0x3a = false by decide),
      after_cons, parseValue_quote, skip_cons (show isSpace 0x2c = false by decide)]
    exact ih hothers (by simp at hfuel ⊢; omega)

theorem lt_length_stringify (members : List (Text × Text)) :
    members.length < (stringify members).length := by
  rw [stringify, List.length_append, List.length_cons]
  induction members using stringifyMembers.induct with
  | case1 => decide
  | case2 name s => simp [stringifyMembers]
  | case3 name s others hothers ih =>
    rw [stringifyMembers.eq_3 name s others hothers]
    simp only [List.length_append, List.length_cons] at ih ⊢
    omega

/-- The object that is written is read back, with its properties in their order. -/
theorem parse_stringify (members : List (Text × Text)) :
    parse (stringify members) = some (.object (defineAll [] members)) := by
  have hfuel := lt_length_stringify members
  rw [parse, stringify, List.cons_append, parseValue, skip_cons (by decide)]
  cases members with
  | nil => rfl
  | cons m others =>
    have hopen : ∃ t, stringifyMembers (m :: others) ++ [0x7d] = 0x22 :: t := by
      cases others with
      | nil => exact ⟨_, rfl⟩
      | cons m' others => exact ⟨_, rfl⟩
    have hbrace : after [0x7d] (skip (stringifyMembers (m :: others) ++ [0x7d])) = none := by
      obtain ⟨t, ht⟩ := hopen
      rw [ht, skip_cons (by decide), after_ne (by decide)]
    rw [stringify, List.cons_append] at hfuel
    simp only [if_neg (show ¬ (0x7b : UInt16) = 0x22 by decide), if_true, hbrace]
    have hmembers := @parseMembers_stringify [] _ _ [] (List.cons_ne_nil m others) hfuel
    rw [hmembers]
    rfl

/-- A unit that stands for itself in a string literal. -/
def plain (c : UInt16) : Prop := 0x20 ≤ c ∧ c < 0x80 ∧ c ≠ 0x22 ∧ c ≠ 0x5c

theorem escape_plain (h : plain c) : escape c = [c] := by
  obtain ⟨hlow, hhigh, hquote, hslash⟩ := h
  simp only [UInt16.le_iff_toNat_le, UInt16.lt_iff_toNat_lt, UInt16.reduceToNat, ne_eq,
    ← UInt16.toNat_inj] at hlow hhigh hquote hslash
  have hsigns : ∀ e ∈ escapes, e.1.toNat < 0x20 ∨ e.1.toNat = 0x22 ∨ e.1.toNat = 0x5c := by
    simp [escapes]
  have hnone : (escapes.find? fun e => e.1 == c) = none := by
    refine List.find?_eq_none.mpr fun e he => ?_
    have := hsigns e he
    simp only [beq_iff_eq, ← UInt16.toNat_inj]
    omega
  have hsurrogate := not_surrogate (c := c) (by omega)
  have hcontrol : ¬ c < 0x20 := by
    rw [UInt16.lt_iff_toNat_lt]
    simp only [UInt16.reduceToNat]
    omega
  rw [escape, hnone]
  simp only [hsurrogate.1, hsurrogate.2, hcontrol, decide_false, Bool.or_self, Bool.false_eq_true,
    if_false]

theorem quoteUnits_plain (h : ∀ c ∈ t, plain c) : quoteUnits t = t := by
  induction t using quoteUnits.induct with
  | case1 high low t hpair ih =>
    rw [quoteUnits, if_pos hpair,
      ih fun c hc => h c (List.mem_cons_of_mem high (List.mem_cons_of_mem low hc))]
  | case2 high low t hpair ih =>
    rw [quoteUnits, if_neg hpair, escape_plain (h high List.mem_cons_self),
      ih fun c hc => h c (List.mem_cons_of_mem high hc), List.singleton_append]
  | case3 c => exact escape_plain (h c List.mem_cons_self)
  | case4 => rfl

end RoundTrip
end Script.Json
