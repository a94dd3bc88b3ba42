import ShipFlow.Script.ScalarValues
import ShipFlow.Url.Serializer

/-! The path to which the web application returns after a login. -/

namespace ShipFlow.Web
open Script Url

structure ReturnLocation where
  hash : Option Text
  pathname : Option Text
  search : Option Text
  deriving DecidableEq, Repr

def DEFAULT_AUTH_RETURN_PATH : Text := text "/dashboard"

def backslash : UInt16 := 0x5c

section ReturnPath
variable {Origin : Type} [DecidableEq Origin]

/-- How the platform parses the authority of an `https:` URL, and the origin of
`https://shipflow.invalid`. -/
structure Resolution (Origin : Type) where
  parseAuthority : List Char → Option Origin
  base : Origin

variable (url : Resolution Origin)

/-- The checks on the value as it is. -/
def refused (value : Text) : Bool :=
  value.isEmpty || !(text "/").isPrefixOf value || (text "//").isPrefixOf value ||
    value.contains backslash

def sanitizeReturnPath (value : Option Text) : Option Text :=
  match value with
  | none => none
  | some value =>
    if refused value then none
    else
      match parse url.parseAuthority url.base (scalarValues value) with
      | none => none
      | some parsed =>
        if parsed.origin ≠ url.base then none else some (text (String.ofList parsed.relative))

/-- The value that a location stands for. -/
def locationValue (location : Option ReturnLocation) : Option Text :=
  location.bind fun location =>
    match location.pathname with
    | none | some [] => none
    | some pathname => some (pathname ++ location.search.getD [] ++ location.hash.getD [])

def pathFromLocation (location : Option ReturnLocation) : Option Text :=
  sanitizeReturnPath url (locationValue location)

/-- The item of the session storage afterwards. There is none where the storage is unavailable. -/
def rememberAuthReturnPath (location : Option ReturnLocation) (storage : Option (Option Text)) :
    Option (Option Text) :=
  storage.map fun _ => (pathFromLocation url location).filter fun returnPath => !returnPath.isEmpty

def consumeAuthReturnPath (location : Option ReturnLocation) (storage : Option (Option Text)) :
    Text × Option (Option Text) :=
  let directReturnPath := pathFromLocation url location
  let storedReturnPath := storage.join
  ((directReturnPath.or (sanitizeReturnPath url storedReturnPath)).getD DEFAULT_AUTH_RETURN_PATH,
    storage.map fun _ => none)

/-! ## Paths that stay on the origin -/

/-- A path of the application: it begins with a single slash, resolves to the origin of whatever
page it is on, and passes unchanged. -/
structure Inside (path : Text) : Prop where
  slash : (text "/").isPrefixOf path = true
  single : (text "//").isPrefixOf path = false
  noBackslash : (text "/\\").isPrefixOf path = false
  resolves : ∀ origin : Origin, ∃ parsed,
    parse url.parseAuthority origin (scalarValues path) = some parsed ∧ parsed.origin = origin
  stable : sanitizeReturnPath url (some path) = some path

/-- A value that passes the checks, and in whose path an empty segment, with others behind it,
comes to the front and stays there when dot segments are removed. -/
def Escapes (value : Text) : Prop :=
  refused value = false ∧ ∃ rest,
    parseOrigin url.parseAuthority url.base (scalarValues value) = some (url.base, rest) ∧
      LeavesEmptyHead (pathBuffers rest)

/-- The value that is made a return path. -/
def consumed (location : Option ReturnLocation) (storage : Option (Option Text)) : Option Text :=
  if (pathFromLocation url location).isSome then locationValue location else storage.join

variable {url}

theorem sanitizeReturnPath_eq_some {value path : Text} :
    sanitizeReturnPath url (some value) = some path ↔ refused value = false ∧ ∃ rest,
      parseOrigin url.parseAuthority url.base (scalarValues value) = some (url.base, rest) ∧
        path = text (String.ofList (parsePath url.base rest).relative) := by
  rw [sanitizeReturnPath]
  split
  · next hrefused =>
    refine iff_of_false (fun h => by cases h) ?_
    rintro ⟨hpass, -⟩
    rw [hrefused] at hpass
    cases hpass
  · next hpass =>
    rw [and_iff_right (Bool.not_eq_true _ ▸ hpass), parse]
    cases horigin : parseOrigin url.parseAuthority url.base (scalarValues value) with
    | none =>
      refine iff_of_false (fun h => by cases h) ?_
      rintro ⟨rest, heq, -⟩
      cases heq
    | some parsed =>
      obtain ⟨origin, rest⟩ := parsed
      rw [Option.map_some]
      dsimp only
      split
      · next hforeign =>
        refine iff_of_false (fun h => by cases h) ?_
        rintro ⟨rest', heq, -⟩
        cases heq
        exact hforeign rfl
      · next hsame =>
        have hsame : origin = url.base := not_not.mp hsame
        rw [hsame, Option.some_inj]
        constructor
        · intro hpath
          exact ⟨rest, rfl, hpath.symm⟩
        · rintro ⟨rest', heq, hpath⟩
          have hrest : rest = rest' := (Prod.mk.inj (Option.some.inj heq)).2
          rw [hpath, hrest]

/-- What the parser made of a value is a path of the application, unless it begins with two
slashes. -/
theorem inside_of_normal {Origin' : Type} {parsed : Record Origin'} (h : Normal parsed)
    (hhead : ¬ EmptyHead parsed.path) (hbackslash : '\\' ∉ parsed.relative) :
    Inside url (text (String.ofList parsed.relative)) := by
  have hplain : ∀ c ∈ parsed.relative, c.toNat < 0xd800 := fun c hc =>
    Nat.lt_of_le_of_lt (h.visible c hc).2 (by decide)
  obtain ⟨rest, hrelative, hfirst⟩ := h.relative_cons hhead
  have hsecond (c : Char) (hc : isSlash c = true) : ['/', c].isPrefixOf parsed.relative = false := by
    rw [hrelative]
    cases rest with
    | nil => rfl
    | cons d rest =>
      have hne : c ≠ d := by
        rintro rfl
        have hd : isSlash c = false := hfirst
        rw [hd] at hc
        cases hc
      rw [List.isPrefixOf_cons_cons, List.isPrefixOf_cons_cons, beq_eq_false_iff_ne.mpr hne]
      rfl
  have hbegins (front : List Char) (hfront : ∀ c ∈ front, c.toNat < 0xd800) :
      (text (String.ofList front)).isPrefixOf (text (String.ofList parsed.relative)) =
        front.isPrefixOf parsed.relative := isPrefixOf_text hfront hplain
  have hslash : (text "/").isPrefixOf (text (String.ofList parsed.relative)) = true := by
    refine (hbegins ['/'] (by simp)).trans ?_
    rw [hrelative]
    rfl
  have hsingle : (text "//").isPrefixOf (text (String.ofList parsed.relative)) = false :=
    (hbegins ['/', '/'] (by simp)).trans (hsecond '/' rfl)
  have hno : (text "/\\").isPrefixOf (text (String.ofList parsed.relative)) = false :=
    (hbegins ['/', '\\'] (by simp)).trans (hsecond '\\' rfl)
  refine ⟨hslash, hsingle, hno, fun origin => ?_, ?_⟩
  · obtain ⟨again, hagain, horigin, -⟩ := h.parse_relative hhead origin
    rw [scalarValues_text hplain]
    exact ⟨again, hagain, horigin⟩
  · obtain ⟨again, hagain, horigin, hsame⟩ := h.parse_relative hhead url.base
    have hcontains : (text (String.ofList parsed.relative)).contains backslash = false := by
      rw [← Bool.not_eq_true, List.contains_iff_mem]
      exact fun hmem => hbackslash ((mem_text hplain (by decide)).mp hmem)
    have hempty : (text (String.ofList parsed.relative)).isEmpty = false := by
      rw [text_ofList hplain, hrelative]
      rfl
    have hpass : refused (text (String.ofList parsed.relative)) = false := by
      rw [refused, hempty, hslash, hsingle, hcontains]
      rfl
    rw [sanitizeReturnPath, hpass, if_neg Bool.false_ne_true, scalarValues_text hplain, hagain]
    dsimp only
    rw [if_neg (not_not.mpr horigin), hsame]

theorem inside_iff {value path : Text} (h : sanitizeReturnPath url (some value) = some path) :
    Inside url path ↔ ¬ Escapes url value := by
  obtain ⟨hpass, rest, horigin, hpath⟩ := sanitizeReturnPath_eq_some.mp h
  rw [hpath]
  have hnormal := parsePath_normal url.base rest
  have hescapes : Escapes url value ↔ EmptyHead (parsePath url.base rest).path := by
    rw [Escapes, and_iff_right hpass]
    constructor
    · rintro ⟨rest', heq, hleaves⟩
      rw [horigin] at heq
      cases heq
      exact (emptyHead_iff pathBuffers_ne_nil).mpr hleaves
    · intro hhead
      exact ⟨rest, horigin, (emptyHead_iff pathBuffers_ne_nil).mp hhead⟩
  rw [hescapes]
  constructor
  · intro hinside hhead
    obtain ⟨rest', hrelative⟩ := relative_of_emptyHead hhead
    have hplain : ∀ c ∈ (parsePath url.base rest).relative, c.toNat < 0xd800 := fun c hc =>
      Nat.lt_of_le_of_lt (hnormal.visible c hc).2 (by decide)
    have hsingle := hinside.single
    rw [show text "//" = text (String.ofList ['/', '/']) from rfl,
      isPrefixOf_text (by simp) hplain, hrelative] at hsingle
    cases hsingle
  · intro hhead
    refine inside_of_normal hnormal hhead fun hmem => ?_
    have hvalue := mem_of_scalarValues (by decide)
      (parseOrigin_subset horigin (backslash_relative hmem))
    have hcontains : value.contains backslash = true := List.contains_iff_mem.mpr hvalue
    rw [refused, hcontains, Bool.or_true] at hpass
    cases hpass

theorem inside_default : Inside url DEFAULT_AUTH_RETURN_PATH := by
  let dashboard : Record Unit := ⟨(), ["dashboard".toList], none, none⟩
  have hsegment : Plain "dashboard".toList := by
    constructor
    · simp [pathSet, querySet, c0ControlSet]
    · simp [isSlash]
    · rfl
    · rfl
  have hnormal : Normal dashboard := by
    refine ⟨by simp [dashboard], ?_, ?_, ?_⟩
    · intro segment hmem
      rw [List.mem_singleton.mp hmem]
      exact hsegment
    · intro query hquery
      cases hquery
    · intro fragment hfragment
      cases hfragment
  have hrelative : dashboard.relative = "/dashboard".toList := by decide +kernel
  have hinside : Inside url (text (String.ofList dashboard.relative)) := by
    refine inside_of_normal hnormal ?_ (by rw [hrelative]; simp)
    rintro ⟨next, rest, h⟩
    have hlength := congrArg List.length h
    simp [dashboard] at hlength
  rw [hrelative, String.ofList_toList] at hinside
  exact hinside

theorem not_escapes_of_none {value : Text} (h : sanitizeReturnPath url (some value) = none) :
    ¬ Escapes url value := by
  rintro ⟨hpass, rest, horigin, -⟩
  have hsome := sanitizeReturnPath_eq_some.mpr ⟨hpass, rest, horigin, rfl⟩
  rw [h] at hsome
  cases hsome

theorem inside_getD {value : Option Text} :
    Inside url ((sanitizeReturnPath url value).getD DEFAULT_AUTH_RETURN_PATH) ↔
      ∀ v ∈ value, ¬ Escapes url v := by
  cases value with
  | none => exact iff_of_true inside_default fun v hv => by cases hv
  | some value =>
    have hsome : (∀ v ∈ some value, ¬ Escapes url v) ↔ ¬ Escapes url value := by simp
    rw [hsome]
    cases h : sanitizeReturnPath url (some value) with
    | none => exact iff_of_true inside_default (not_escapes_of_none h)
    | some path => exact inside_iff h

theorem inside_consumeAuthReturnPath {location : Option ReturnLocation}
    {storage : Option (Option Text)} :
    Inside url (consumeAuthReturnPath url location storage).1 ↔
      ∀ value ∈ consumed url location storage, ¬ Escapes url value := by
  rw [consumeAuthReturnPath, consumed]
  cases h : pathFromLocation url location with
  | none => exact inside_getD
  | some path =>
    have hdirect : Inside url
        ((sanitizeReturnPath url (locationValue location)).getD DEFAULT_AUTH_RETURN_PATH) ↔
          ∀ value ∈ locationValue location, ¬ Escapes url value := inside_getD
    rw [pathFromLocation] at h
    rw [h] at hdirect
    exact hdirect

/-- A return path is one of the application exactly if the value does not escape, and so is what
is made of the location and of the session storage. -/
theorem return_path_iff (url : Resolution Origin) :
    (∀ value, (∀ path, sanitizeReturnPath url (some value) = some path → Inside url path) ↔
      ¬ Escapes url value) ∧
    ∀ location storage, Inside url (consumeAuthReturnPath url location storage).1 ↔
      ∀ value ∈ consumed url location storage, ¬ Escapes url value := by
  refine ⟨fun value => ?_, fun location storage => inside_consumeAuthReturnPath⟩
  cases h : sanitizeReturnPath url (some value) with
  | none => exact iff_of_true (fun path heq => by cases heq) (not_escapes_of_none h)
  | some path =>
    rw [← inside_iff h]
    constructor
    · intro hall
      exact hall path rfl
    · intro hinside path' heq
      cases heq
      exact hinside

/-- A segment that is removed with its dot, and an empty one behind it. -/
theorem return_path_leaves :
    let url : Resolution String :=
      ⟨fun authority => some (String.ofList authority), "shipflow.invalid"⟩
    sanitizeReturnPath url (some (text "/.//evil.example")) = some (text "//evil.example") ∧
      (parse url.parseAuthority "app.example" (scalarValues (text "//evil.example"))).map
        Record.origin = some "evil.example" ∧
      (consumeAuthReturnPath url none (some (some (text "/.//evil.example")))).1 =
        text "//evil.example" := by
  decide +kernel

end ReturnPath
end ShipFlow.Web
