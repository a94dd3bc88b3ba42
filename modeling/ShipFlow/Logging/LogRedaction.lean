import Mathlib.Data.List.TakeWhile
import ShipFlow.Script.Masking
import ShipFlow.Script.Values

/-! `redactLogValue`: what may be seen of a value in the log. -/

namespace ShipFlow.Logging
open Script Masking

/-- A value of any type, as far as the log shows it. -/
inductive LogValue (ν : Type) where
  | null
  | undefined
  | boolean (b : Bool)
  | number (n : ν)
  | bigint (n : Int)
  | string (s : Text)
  | symbol (description : Option Text)
  | function (name : Text)
  | error (name message : Text) (stack : Option Text)
  | array (items : List (LogValue ν))
  | object (properties : List (Text × LogValue ν))

/-! ## Patterns -/

/-- The letters of the case-insensitive patterns. -/
def lower (c : UInt16) : UInt16 := if 0x41 ≤ c && c ≤ 0x5a then c + 0x20 else c

/-- A literal in any case, and what follows it. -/
def literal (word : String) (s : Text) : Option (Text × Text) :=
  let found := s.take (text word).length
  if found.map lower == text word then some (found, s.drop (text word).length) else none

/-- The characters of a class that stand at the beginning, one at least. -/
def oneOrMore (p : UInt16 → Bool) (s : Text) : Option (Text × Text) :=
  if (s.takeWhile p).isEmpty then none else some (s.takeWhile p, s.dropWhile p)

def inClass (chars : String) (c : UInt16) : Bool := (text chars).contains c

def isLetter (c : UInt16) : Bool := 0x61 ≤ lower c && lower c ≤ 0x7a

/-- `[A-Za-z0-9._~+/=-]` -/
def isTokenChar (c : UInt16) : Bool := isLetter c || isDigit c || inClass "._~+/=-" c

/-- `(Bearer\s+)[A-Za-z0-9._~+/=-]+` -/
def findBearer (s : Text) : Option (Match UInt16) :=
  (literal "bearer" s).bind fun (scheme, s) =>
    (oneOrMore Script.isWhiteSpace s).bind fun (space, s) =>
      (oneOrMore isTokenChar s).map fun (token, rest) => ⟨scheme ++ space, token, [], rest⟩

def queryNames : List String := ["token", "code", "secret", "key", "signature"]

/-- `([?&](?:token|code|secret|key|signature)=)[^&\s]+` -/
def findQueryValue (s : Text) : Option (Match UInt16) :=
  (["?", "&"].findSome? fun mark => literal mark s).bind fun (mark, s) =>
    (queryNames.findSome? fun name => literal (name ++ "=") s).bind fun (name, s) =>
      (oneOrMore (fun c => !(inClass "&" c || Script.isWhiteSpace c)) s).map fun (value, rest) =>
        ⟨mark ++ name, value, [], rest⟩

/-- `(postgres(?:ql)?:\/\/[^:\s/@]+:)[^@\s/]+@` -/
def findPassword (s : Text) : Option (Match UInt16) :=
  (["postgresql://", "postgres://"].findSome? fun scheme => literal scheme s).bind
    fun (scheme, s) =>
      (oneOrMore (fun c => !(inClass ":/@" c || Script.isWhiteSpace c)) s).bind fun (user, s) =>
        (literal ":" s).bind fun (colon, s) =>
          (oneOrMore (fun c => !(inClass "@/" c || Script.isWhiteSpace c)) s).bind fun (password, s) =>
            (literal "@" s).map fun (sign, rest) =>
              ⟨scheme ++ user ++ colon, password, sign, rest⟩

section Splits
variable {s a rest : Text}

theorem literal_splits {word : String} (h : literal word s = some (a, rest)) : a ++ rest = s := by
  rw [literal] at h
  split at h
  · cases h
    exact List.take_append_drop _ s
  · cases h

theorem findSome?_splits {words : List String} {f : String → String}
    (h : (words.findSome? fun word => literal (f word) s) = some (a, rest)) : a ++ rest = s := by
  obtain ⟨word, -, hword⟩ := List.exists_of_findSome?_eq_some h
  exact literal_splits hword

theorem oneOrMore_splits {p : UInt16 → Bool} (h : oneOrMore p s = some (a, rest)) :
    a ++ rest = s ∧ a ≠ [] ∧ ∀ c ∈ a, p c = true := by
  rw [oneOrMore] at h
  split at h
  · cases h
  · next hne =>
    cases h
    exact ⟨List.takeWhile_append_dropWhile, by simpa using hne, fun c hc => List.mem_takeWhile_imp hc⟩

/-- What is visible is not white space. -/
theorem isWhiteSpace_visible {c : UInt16} (hlow : 0x20 < c.toNat) (hhigh : c.toNat < 0x80) :
    Script.isWhiteSpace c = false := by
  rw [← Bool.not_eq_true]
  simp only [Script.isWhiteSpace, Bool.or_eq_true, Bool.and_eq_true, decide_eq_true_eq,
    List.contains_iff_mem, List.mem_cons, List.not_mem_nil, or_false, UInt16.le_iff_toNat_le,
    ← UInt16.toNat_inj, UInt16.reduceToNat]
  omega

theorem isTokenChar_solid {c : UInt16} (h : isTokenChar c = true) : Script.isWhiteSpace c = false := by
  rw [isTokenChar, Bool.or_eq_true, Bool.or_eq_true] at h
  rcases h with (h | h) | h
  · rw [isLetter, Bool.and_eq_true, decide_eq_true_eq, decide_eq_true_eq,
      UInt16.le_iff_toNat_le, UInt16.le_iff_toNat_le, lower] at h
    split at h
    · next hupper =>
      rw [Bool.and_eq_true, decide_eq_true_eq, decide_eq_true_eq, UInt16.le_iff_toNat_le,
        UInt16.le_iff_toNat_le] at hupper
      simp only [UInt16.reduceToNat] at hupper
      exact isWhiteSpace_visible (by lia) (by lia)
    · simp only [UInt16.reduceToNat] at h
      exact isWhiteSpace_visible (by lia) (by lia)
  · rw [isDigit, Bool.and_eq_true, decide_eq_true_eq, decide_eq_true_eq,
      UInt16.le_iff_toNat_le, UInt16.le_iff_toNat_le] at h
    simp only [UInt16.reduceToNat] at h
    exact isWhiteSpace_visible (by lia) (by lia)
  · have hall : ∀ d ∈ text "._~+/=-", Script.isWhiteSpace d = false := by
      simp [text, Script.isWhiteSpace]
    exact hall c (List.contains_iff_mem.mp h)

/-- What an occurrence consists of. Nothing that is hidden is white space. -/
structure Found (s : Text) (m : Match UInt16) : Prop where
  splits : m.shown ++ m.hidden ++ m.after ++ m.rest = s
  nonempty : m.hidden ≠ []
  solid : ∀ c ∈ m.hidden, Script.isWhiteSpace c = false

theorem findBearer_found {m : Match UInt16} (h : findBearer s = some m) : Found s m := by
  obtain ⟨⟨scheme, s₁⟩, hscheme, h⟩ := Option.bind_eq_some_iff.mp h
  obtain ⟨⟨space, s₂⟩, hspace, h⟩ := Option.bind_eq_some_iff.mp h
  obtain ⟨⟨token, rest⟩, htoken, rfl⟩ := Option.map_eq_some_iff.mp h
  obtain ⟨hrest, hne, hchars⟩ := oneOrMore_splits htoken
  refine ⟨?_, hne, fun c hc => ?_⟩
  · rw [← literal_splits hscheme, ← (oneOrMore_splits hspace).1, ← hrest]
    simp
  · exact isTokenChar_solid (hchars c hc)

theorem findQueryValue_found {m : Match UInt16} (h : findQueryValue s = some m) : Found s m := by
  obtain ⟨⟨mark, s₁⟩, hmark, h⟩ := Option.bind_eq_some_iff.mp h
  obtain ⟨⟨name, s₂⟩, hname, h⟩ := Option.bind_eq_some_iff.mp h
  obtain ⟨⟨value, rest⟩, hvalue, rfl⟩ := Option.map_eq_some_iff.mp h
  obtain ⟨hrest, hne, hchars⟩ := oneOrMore_splits hvalue
  refine ⟨?_, hne, fun c hc => ?_⟩
  · rw [← findSome?_splits hmark, ← findSome?_splits hname, ← hrest]
    simp
  · have hc := hchars c hc
    rw [Bool.not_eq_true', Bool.or_eq_false_iff] at hc
    exact hc.2

theorem findPassword_found {m : Match UInt16} (h : findPassword s = some m) : Found s m := by
  obtain ⟨⟨scheme, s₁⟩, hscheme, h⟩ := Option.bind_eq_some_iff.mp h
  obtain ⟨⟨user, s₂⟩, huser, h⟩ := Option.bind_eq_some_iff.mp h
  obtain ⟨⟨colon, s₃⟩, hcolon, h⟩ := Option.bind_eq_some_iff.mp h
  obtain ⟨⟨password, s₄⟩, hpassword, h⟩ := Option.bind_eq_some_iff.mp h
  obtain ⟨⟨sign, rest⟩, hsign, rfl⟩ := Option.map_eq_some_iff.mp h
  obtain ⟨hrest, hne, hchars⟩ := oneOrMore_splits hpassword
  refine ⟨?_, hne, fun c hc => ?_⟩
  · rw [← findSome?_splits hscheme, ← (oneOrMore_splits huser).1, ← literal_splits hcolon, ← hrest,
      ← literal_splits hsign]
    simp
  · have hc := hchars c hc
    rw [Bool.not_eq_true', Bool.or_eq_false_iff] at hc
    exact hc.2

end Splits

def bearerToken : Pattern UInt16 :=
  ⟨findBearer, fun _ _ h => (findBearer_found h).splits, fun _ _ h => (findBearer_found h).nonempty⟩

def queryValue : Pattern UInt16 :=
  ⟨findQueryValue, fun _ _ h => (findQueryValue_found h).splits,
    fun _ _ h => (findQueryValue_found h).nonempty⟩

def databasePassword : Pattern UInt16 :=
  ⟨findPassword, fun _ _ h => (findPassword_found h).splits,
    fun _ _ h => (findPassword_found h).nonempty⟩

def redacted : Text := text "[REDACTED]"

def maskBearerTokens (value : Text) : Text := mask bearerToken redacted value

def maskQueryValues (value : Text) : Text := mask queryValue redacted value

def maskPasswords (value : Text) : Text := mask databasePassword redacted value

def redactString (value : Text) : Text := maskPasswords (maskQueryValues (maskBearerTokens value))

/-! ## Keys -/

/-- The alternatives of `sensitiveKeyPattern`, in parts that may be joined by `-` or `_`. -/
def sensitiveKeys : List (List String) :=
  [["authorization"], ["cookie"], ["password"], ["passphrase"], ["token"], ["secret"], ["api", "key"],
    ["encryption", "key"], ["manual", "entry", "key"], ["backup", "codes"], ["backup", "code"],
    ["provisioning", "uri"], ["signature"], ["raw", "body"], ["email"], ["recipient"]]

/-- The parts stand at the beginning of the key. -/
def matchesParts : List String → Text → Bool
  | [], _ => true
  | [part], key => (literal part key).isSome
  | part :: parts, key =>
    match literal part key with
    | none => false
    | some (_, rest) =>
      matchesParts parts rest || ((rest.head?).any (inClass "-_") && matchesParts parts rest.tail)

def isSensitiveKey (key : Text) : Bool :=
  key.tails.any fun rest => sensitiveKeys.any fun parts => matchesParts parts rest

/-! ## Values -/

def redactStack {ν : Type} : Option Text → LogValue ν
  | none | some [] => .undefined
  | some stack => .string (redactString stack)

/-- Assigning to `__proto__` makes no property. -/
def isAssigned {ν : Type} (property : Text × LogValue ν) : Bool := property.1 != text "__proto__"

/-- `redactLogValue` -/
def redactLogValue {ν : Type} (value : LogValue ν) (depth : Nat) : LogValue ν :=
  if depth > 8 then .string (text "[TRUNCATED]")
  else
    match value with
    | .string s => .string (redactString s)
    | .null => .null
    | .number n => .number n
    | .boolean b => .boolean b
    | .undefined => .undefined
    | .error name message stack =>
      .object [(text "name", .string name), (text "message", .string (redactString message)),
        (text "stack", redactStack stack)]
    | .array items => .array (items.map fun item => redactLogValue item (depth + 1))
    | .object properties =>
      .object ((properties.filter isAssigned).map fun (key, item) =>
          (key, if isSensitiveKey key then .string redacted else redactLogValue item (depth + 1)))
    | .bigint n => .string (text (toString n))
    | .symbol description => .string (description.getD (text "[SYMBOL]"))
    | .function name =>
      .string (text "[Function " ++ (if name.isEmpty then text "anonymous" else name) ++ text "]")
termination_by 9 - depth

/-- The texts that `redactLogValue` copies as they are: the names of errors and functions, and the
descriptions of symbols. -/
def copiedNames {ν : Type} (value : LogValue ν) (depth : Nat) : List Text :=
  if depth > 8 then []
  else
    match value with
    | .error name _ _ => [name]
    | .symbol description => description.toList
    | .function name => [name]
    | .array items => items.flatMap fun item => copiedNames item (depth + 1)
    | .object properties => (properties.filter isAssigned).flatMap fun (key, item) =>
        if isSensitiveKey key then [] else copiedNames item (depth + 1)
    | _ => []
termination_by 9 - depth

/-! ## Values that differ in secrets -/

/-- Two texts that differ in what `redactString` masks: in each of its passes over the texts that
the pass finds, or over several. -/
inductive Masked : Text → Text → Prop
  | refl (s : Text) : Masked s s
  | bearer {s s'} (h : SameTokens bearerToken s s') : Masked s s'
  | query {s s'} (h : SameTokens queryValue (maskBearerTokens s) (maskBearerTokens s')) : Masked s s'
  | password {s s'} (h : SameTokens databasePassword (maskQueryValues (maskBearerTokens s))
      (maskQueryValues (maskBearerTokens s'))) : Masked s s'
  | trans {s s' s''} (h : Masked s s') (h' : Masked s' s'') : Masked s s''

theorem Masked.redactString_eq {s s' : Text} (h : Masked s s') : redactString s = redactString s' := by
  induction h with
  | refl s => rfl
  | bearer h =>
    rw [redactString, redactString, maskBearerTokens, h.mask_eq]
    rfl
  | query h =>
    rw [redactString, redactString, maskQueryValues, h.mask_eq]
    rfl
  | password h => exact h.mask_eq
  | trans _ _ ih ih' => exact ih.trans ih'

def newline : UInt16 := 0x0a

theorem mem_redactString {s : Text} : newline ∈ redactString s ↔ newline ∈ s := by
  have hmarker : newline ∉ redacted := by decide +kernel
  have hwhite : Script.isWhiteSpace newline = true := by decide
  have hsolid {m : Match UInt16} {s : Text} (h : Found s m) : newline ∉ m.hidden := by
    intro hmem
    rw [h.solid newline hmem] at hwhite
    cases hwhite
  rw [redactString, maskPasswords, mem_mask hmarker fun _ _ h => hsolid (findPassword_found h),
    maskQueryValues, mem_mask hmarker fun _ _ h => hsolid (findQueryValue_found h),
    maskBearerTokens, mem_mask hmarker fun _ _ h => hsolid (findBearer_found h)]

theorem redactString_eq_nil {s : Text} : redactString s = [] ↔ s = [] := by
  have hmarker : redacted ≠ [] := by decide +kernel
  rw [redactString, maskPasswords, mask_eq_nil hmarker, maskQueryValues, mask_eq_nil hmarker,
    maskBearerTokens, mask_eq_nil hmarker]

mutual

/-- Two values of one structure with the same keys, which differ under sensitive keys, and in
what is masked in their texts. -/
inductive Agree {ν : Type} : LogValue ν → LogValue ν → Prop
  | same (value : LogValue ν) : Agree value value
  | string {s s'} (h : Masked s s') : Agree (.string s) (.string s')
  | symbol {description description'} (h : Option.Rel Masked description description') :
      Agree (.symbol description) (.symbol description')
  | function {name name'} (h : Masked name name') : Agree (.function name) (.function name')
  | error {name name' message message' stack stack'} (hname : Masked name name')
      (h : Masked message message') (hstack : Option.Rel Masked stack stack') :
      Agree (.error name message stack) (.error name' message' stack')
  | array {items items'} (h : AgreeItems items items') : Agree (.array items) (.array items')
  | object {properties properties'} (h : AgreeProperties properties properties') :
      Agree (.object properties) (.object properties')

inductive AgreeItems {ν : Type} : List (LogValue ν) → List (LogValue ν) → Prop
  | nil : AgreeItems [] []
  | cons {item item' items items'} (h : Agree item item') (hs : AgreeItems items items') :
      AgreeItems (item :: items) (item' :: items')

inductive AgreeProperties {ν : Type} :
    List (Text × LogValue ν) → List (Text × LogValue ν) → Prop
  | nil : AgreeProperties [] []
  | sensitive {key item item' properties properties'} (h : isSensitiveKey key = true)
      (hs : AgreeProperties properties properties') :
      AgreeProperties ((key, item) :: properties) ((key, item') :: properties')
  | cons {key item item' properties properties'} (h : Agree item item')
      (hs : AgreeProperties properties properties') :
      AgreeProperties ((key, item) :: properties) ((key, item') :: properties')

end

section Redaction
variable {ν : Type}

/-- What becomes of a property. -/
def redactProperty (depth : Nat) (property : Text × LogValue ν) : Text × LogValue ν :=
  (property.1, if isSensitiveKey property.1 then .string redacted
    else redactLogValue property.2 (depth + 1))

theorem redactLogValue_deep {depth : Nat} (h : depth > 8) (value : LogValue ν) :
    redactLogValue value depth = .string (text "[TRUNCATED]") := by
  rw [redactLogValue.eq_def, if_pos h]

theorem redactLogValue_string {depth : Nat} (h : ¬ depth > 8) (s : Text) :
    redactLogValue (.string s : LogValue ν) depth = .string (redactString s) := by
  rw [redactLogValue, if_neg h]

theorem redactLogValue_error {depth : Nat} (h : ¬ depth > 8) (name message : Text)
    (stack : Option Text) : redactLogValue (.error name message stack : LogValue ν) depth =
      .object [(text "name", .string name), (text "message", .string (redactString message)),
        (text "stack", redactStack stack)] := by
  rw [redactLogValue, if_neg h]

theorem redactLogValue_symbol {depth : Nat} (h : ¬ depth > 8) (description : Option Text) :
    redactLogValue (.symbol description : LogValue ν) depth =
      .string (description.getD (text "[SYMBOL]")) := by
  rw [redactLogValue, if_neg h]

theorem redactLogValue_function {depth : Nat} (h : ¬ depth > 8) (name : Text) :
    redactLogValue (.function name : LogValue ν) depth =
      .string (text "[Function " ++ (if name.isEmpty then text "anonymous" else name) ++
        text "]") := by
  rw [redactLogValue, if_neg h]

theorem redactLogValue_array {depth : Nat} (h : ¬ depth > 8) (items : List (LogValue ν)) :
    redactLogValue (.array items) depth =
      .array (items.map fun item => redactLogValue item (depth + 1)) := by
  rw [redactLogValue, if_neg h]

theorem redactLogValue_object {depth : Nat} (h : ¬ depth > 8)
    (properties : List (Text × LogValue ν)) : redactLogValue (.object properties) depth =
      .object ((properties.filter isAssigned).map (redactProperty depth)) := by
  rw [redactLogValue, if_neg h]
  rfl

theorem redactStack_eq {stack stack' : Option Text} (h : Option.Rel Masked stack stack') :
    (redactStack stack : LogValue ν) = redactStack stack' := by
  have hsome (s : Text) : (redactStack (some s) : LogValue ν) =
      if redactString s = [] then .undefined else .string (redactString s) := by
    cases s with
    | nil => rfl
    | cons c s => rw [if_neg (mt redactString_eq_nil.mp (List.cons_ne_nil c s))]; rfl
  cases h with
  | none => rfl
  | some h => rw [hsome, hsome, h.redactString_eq]

/-- The names in a property. -/
def propertyNames (depth : Nat) (property : Text × LogValue ν) : List Text :=
  if isSensitiveKey property.1 then [] else copiedNames property.2 (depth + 1)

theorem copiedNames_deep {depth : Nat} (h : depth > 8) (value : LogValue ν) :
    copiedNames value depth = [] := by
  rw [copiedNames.eq_def, if_pos h]

theorem copiedNames_string (depth : Nat) (s : Text) :
    copiedNames (.string s : LogValue ν) depth = [] := by
  simp [copiedNames]

theorem copiedNames_symbol {depth : Nat} (h : ¬ depth > 8) (description : Option Text) :
    copiedNames (.symbol description : LogValue ν) depth = description.toList := by
  rw [copiedNames, if_neg h]

theorem copiedNames_function {depth : Nat} (h : ¬ depth > 8) (name : Text) :
    copiedNames (.function name : LogValue ν) depth = [name] := by
  rw [copiedNames, if_neg h]

theorem copiedNames_error {depth : Nat} (h : ¬ depth > 8) (name message : Text)
    (stack : Option Text) : copiedNames (.error name message stack : LogValue ν) depth = [name] := by
  rw [copiedNames, if_neg h]

theorem copiedNames_array {depth : Nat} (h : ¬ depth > 8) (items : List (LogValue ν)) :
    copiedNames (.array items) depth = items.flatMap fun item => copiedNames item (depth + 1) := by
  rw [copiedNames, if_neg h]

theorem copiedNames_object {depth : Nat} (h : ¬ depth > 8)
    (properties : List (Text × LogValue ν)) : copiedNames (.object properties) depth =
      (properties.filter isAssigned).flatMap (propertyNames depth) := by
  rw [copiedNames, if_neg h]
  rfl

/-- A function without a name is shown as an anonymous one. -/
theorem Masked.shown_inj {name name' : Text} (h : Masked name name') :
    (if name.isEmpty then text "anonymous" else name) =
      (if name'.isEmpty then text "anonymous" else name') ↔ name = name' := by
  have hempty : name = [] ↔ name' = [] := by
    rw [← redactString_eq_nil, h.redactString_eq, redactString_eq_nil]
  cases name with
  | nil =>
    rw [hempty.mp rfl]
    exact iff_of_true rfl rfl
  | cons c name =>
    cases name' with
    | nil => exact absurd (hempty.mpr rfl) (List.cons_ne_nil c name)
    | cons c' name' => rfl

/-- Two values have as many names, and look the same in the log if and only if these are equal. -/
structure SameBut (depth : Nat) (value value' : LogValue ν) : Prop where
  length : (copiedNames value depth).length = (copiedNames value' depth).length
  redacted : redactLogValue value depth = redactLogValue value' depth ↔
    copiedNames value depth = copiedNames value' depth

theorem append_eq_iff {α : Type} {a a' b b' : List α} (h : a.length = a'.length) :
    a ++ b = a' ++ b' ↔ a = a' ∧ b = b' :=
  ⟨fun heq => List.append_inj heq h, fun ⟨heq, heq'⟩ => by rw [heq, heq']⟩

theorem AgreeItems.sameBut {items items' : List (LogValue ν)} {depth : Nat}
    (h : AgreeItems items items') (hvalues : ∀ a b : LogValue ν, Agree a b → SameBut depth a b) :
    (items.flatMap (copiedNames · depth)).length = (items'.flatMap (copiedNames · depth)).length ∧
      (items.map (redactLogValue · depth) = items'.map (redactLogValue · depth) ↔
        items.flatMap (copiedNames · depth) = items'.flatMap (copiedNames · depth)) := by
  induction items generalizing items' with
  | nil =>
    cases h
    exact ⟨rfl, iff_of_true rfl rfl⟩
  | cons item items ih =>
    cases h with
    | cons hitem hitems =>
      obtain ⟨hlength, hredacted⟩ := hvalues _ _ hitem
      obtain ⟨hlengths, hrest⟩ := ih hitems
      refine ⟨by simp only [List.flatMap_cons, List.length_append, hlength, hlengths], ?_⟩
      rw [List.map_cons, List.map_cons, List.flatMap_cons, List.flatMap_cons, List.cons.injEq,
        append_eq_iff hlength, hredacted, hrest]

/-- A property is kept or dropped by its key. -/
theorem AgreeProperties.sameBut {properties properties' : List (Text × LogValue ν)} {depth : Nat}
    (h : AgreeProperties properties properties')
    (hvalues : ∀ a b : LogValue ν, Agree a b → SameBut (depth + 1) a b) :
    ((properties.filter isAssigned).flatMap (propertyNames depth)).length =
        ((properties'.filter isAssigned).flatMap (propertyNames depth)).length ∧
      ((properties.filter isAssigned).map (redactProperty depth) =
          (properties'.filter isAssigned).map (redactProperty depth) ↔
        (properties.filter isAssigned).flatMap (propertyNames depth) =
          (properties'.filter isAssigned).flatMap (propertyNames depth)) := by
  induction properties generalizing properties' with
  | nil =>
    cases h
    exact ⟨rfl, iff_of_true rfl rfl⟩
  | cons property properties ih =>
    -- a sensitive key hides its value in both; under any other the two values are redacted alike
    obtain ⟨key, item, item', rest', rfl, rfl, hrest, hlength, hentry⟩ : ∃ key item item' rest',
        property = (key, item) ∧ properties' = (key, item') :: rest' ∧
        AgreeProperties properties rest' ∧
        (propertyNames depth (key, item)).length = (propertyNames depth (key, item')).length ∧
        (redactProperty depth (key, item) = redactProperty depth (key, item') ↔
          propertyNames depth (key, item) = propertyNames depth (key, item')) := by
      cases h with
      | @sensitive key item item' _ rest' hkey hrest =>
        refine ⟨key, item, item', rest', rfl, rfl, hrest, ?_⟩
        simp only [propertyNames, redactProperty, if_pos hkey, and_self]
      | @cons key item item' _ rest' hitem hrest =>
        refine ⟨key, item, item', rest', rfl, rfl, hrest, ?_⟩
        cases hkey : isSensitiveKey key with
        | true => simp only [propertyNames, redactProperty, hkey, if_true, and_self]
        | false =>
          obtain ⟨hlength, hredacted⟩ := hvalues _ _ hitem
          simp only [propertyNames, redactProperty, hkey, Bool.false_eq_true, if_false,
            Prod.mk.injEq, true_and]
          exact ⟨hlength, hredacted⟩
    obtain ⟨hlengths, hrests⟩ := ih hrest
    have hassigned : isAssigned (key, item) = isAssigned (key, item') := rfl
    rw [List.filter_cons, List.filter_cons, hassigned]
    split
    · refine ⟨by simp only [List.flatMap_cons, List.length_append, hlength, hlengths], ?_⟩
      rw [List.map_cons, List.map_cons, List.flatMap_cons, List.flatMap_cons, List.cons.injEq,
        append_eq_iff hlength, hentry, hrests]
    · exact ⟨hlengths, hrests⟩

/-- The induction is on what is left of the depth. -/
theorem Agree.sameBut {value value' : LogValue ν} (h : Agree value value') (depth : Nat) :
    SameBut depth value value' := by
  -- on the depth that is left: below the eighth level everything looks the same
  induction hleft : 9 - depth generalizing value value' depth with
  | zero =>
    have hdeep : depth > 8 := by lia
    constructor
    · rw [copiedNames_deep hdeep, copiedNames_deep hdeep]
    · rw [redactLogValue_deep hdeep, redactLogValue_deep hdeep, copiedNames_deep hdeep,
        copiedNames_deep hdeep]
      exact iff_of_true rfl rfl
  | succ left ih =>
    have hshallow : ¬ depth > 8 := by lia
    have hbelow : ∀ a b, Agree a b → SameBut (depth + 1) a b :=
      fun a b hab => ih hab (depth + 1) (by lia)
    cases h with
    | same => exact ⟨rfl, iff_of_true rfl rfl⟩
    | string hmasked =>
      constructor
      · rw [copiedNames_string, copiedNames_string]
      · rw [redactLogValue_string hshallow, redactLogValue_string hshallow, copiedNames_string,
          copiedNames_string, hmasked.redactString_eq]
        exact iff_of_true rfl rfl
    | symbol hmasked =>
      cases hmasked with
      | none => exact ⟨rfl, iff_of_true rfl rfl⟩
      | @some description description' hmasked =>
        constructor
        · rw [copiedNames_symbol hshallow, copiedNames_symbol hshallow]
          rfl
        · rw [redactLogValue_symbol hshallow, redactLogValue_symbol hshallow,
            copiedNames_symbol hshallow, copiedNames_symbol hshallow, LogValue.string.injEq,
            Option.getD_some, Option.getD_some, Option.toList_some, Option.toList_some,
            List.singleton_inj]
    | function hmasked =>
      constructor
      · rw [copiedNames_function hshallow, copiedNames_function hshallow]
        rfl
      · rw [redactLogValue_function hshallow, redactLogValue_function hshallow,
          copiedNames_function hshallow, copiedNames_function hshallow, LogValue.string.injEq,
          List.singleton_inj, List.append_left_inj, List.append_right_inj]
        exact hmasked.shown_inj
    | error hname hmasked hstack =>
      constructor
      · rw [copiedNames_error hshallow, copiedNames_error hshallow]
        rfl
      · rw [redactLogValue_error hshallow, redactLogValue_error hshallow,
          copiedNames_error hshallow, copiedNames_error hshallow, hmasked.redactString_eq,
          redactStack_eq hstack]
        simp only [LogValue.object.injEq, List.cons.injEq, Prod.mk.injEq, LogValue.string.injEq,
          true_and, and_true]
    | array hitems =>
      obtain ⟨hlength, hredacted⟩ := hitems.sameBut hbelow
      constructor
      · rw [copiedNames_array hshallow, copiedNames_array hshallow, hlength]
      · rw [redactLogValue_array hshallow, redactLogValue_array hshallow,
          copiedNames_array hshallow, copiedNames_array hshallow, LogValue.array.injEq, hredacted]
    | object hproperties =>
      obtain ⟨hlength, hredacted⟩ := hproperties.sameBut hbelow
      constructor
      · rw [copiedNames_object hshallow, copiedNames_object hshallow, hlength]
      · rw [redactLogValue_object hshallow, redactLogValue_object hshallow,
          copiedNames_object hshallow, copiedNames_object hshallow, LogValue.object.injEq,
          hredacted]

end Redaction

end ShipFlow.Logging
