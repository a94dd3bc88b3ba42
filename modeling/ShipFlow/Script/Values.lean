import Mathlib.Data.List.Basic

/-! The strings, objects and values of the source language. A string is a list of UTF-16 code
units, an object the list of its properties in their order. -/

namespace Script

abbrev Text := List UInt16

/-- The code units of a string literal. -/
def text (s : String) : Text :=
  s.toList.flatMap fun c =>
    if c.toNat < 0x10000 then [UInt16.ofNat c.toNat]
    else [UInt16.ofNat (0xd800 + (c.toNat - 0x10000) / 0x400),
      UInt16.ofNat (0xdc00 + (c.toNat - 0x10000) % 0x400)]

def isHighSurrogate (c : UInt16) : Bool := 0xd800 ≤ c && c ≤ 0xdbff

def isLowSurrogate (c : UInt16) : Bool := 0xdc00 ≤ c && c ≤ 0xdfff

/-- `Array.from`: the code points of a string, a pair of surrogates being one. -/
def arrayFrom : Text → List Text
  | high :: low :: rest =>
    if isHighSurrogate high && isLowSurrogate low then [high, low] :: arrayFrom rest
    else [high] :: arrayFrom (low :: rest)
  | [c] => [[c]]
  | [] => []

/-- The white space and line terminators that `trim` removes. -/
def isWhiteSpace (c : UInt16) : Bool :=
  (9 ≤ c && c ≤ 13) || (0x2000 ≤ c && c ≤ 0x200a) ||
  [0x20, 0xa0, 0x1680, 0x2028, 0x2029, 0x202f, 0x205f, 0x3000, 0xfeff].contains c

def trim (s : Text) : Text :=
  ((s.dropWhile isWhiteSpace).reverse.dropWhile isWhiteSpace).reverse

/-- A value of any type. Objects that are not plain count as `other`, as functions do. -/
inductive Value (ν : Type) where
  | null
  | boolean (b : Bool)
  | number (n : ν)
  | bigint (n : Int)
  | string (s : Text)
  | array (items : List (Value ν))
  | object (properties : List (Text × Value ν))
  | other

/-! ## Objects -/

section Objects
variable {α : Type}

def isDigit (c : UInt16) : Bool := 0x30 ≤ c && c ≤ 0x39

/-- The array index that a property name spells, if it spells one. -/
def arrayIndex (name : Text) : Option Nat :=
  let n := name.foldl (fun n c => 10 * n + (c.toNat - 0x30)) 0
  if name.all isDigit && name.length ≤ 10 && name == text (toString n) && n < 4294967295 then some n
  else none

/-- A new value for a property that is there, or a new property. Array indices stand in
front of the other names, in ascending order. -/
def defineProperty (properties : List (Text × α)) (name : Text) (value : α) : List (Text × α) :=
  if properties.any fun property => property.1 == name then
    properties.map fun property => if property.1 == name then (name, value) else property
  else
    match arrayIndex name with
    | none => properties ++ [(name, value)]
    | some n =>
      let before := properties.takeWhile fun property => (arrayIndex property.1).any fun m => m < n
      before ++ (name, value) :: properties.drop before.length

def fromEntries (entries : List (Text × α)) : List (Text × α) :=
  entries.foldl (fun properties entry => defineProperty properties entry.1 entry.2) []

end Objects
end Script
