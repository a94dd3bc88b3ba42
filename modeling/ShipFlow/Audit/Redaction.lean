import ShipFlow.Audit.AuditService

/-! What is stored under a sensitive key does not reach the audit log. -/

namespace ShipFlow.Audit
open Script

variable {ν : Type} {p : Platform ν}

mutual

/-- Two values that differ only in what they store, at any depth, under sensitive keys. -/
inductive Agree (p : Platform ν) : Value ν → Value ν → Prop
  | same (value : Value ν) : Agree p value value
  | array {items items'} (h : AgreeItems p items items') : Agree p (.array items) (.array items')
  | object {properties properties'} (h : AgreeProperties p properties properties') :
      Agree p (.object properties) (.object properties')

inductive AgreeItems (p : Platform ν) : List (Value ν) → List (Value ν) → Prop
  | nil : AgreeItems p [] []
  | cons {item item' items items'} (h : Agree p item item') (hs : AgreeItems p items items') :
      AgreeItems p (item :: items) (item' :: items')

inductive AgreeProperties (p : Platform ν) : List (Text × Value ν) → List (Text × Value ν) → Prop
  | nil : AgreeProperties p [] []
  | sensitive {key item item' properties properties'} (h : isSensitiveKey p key = true)
      (hs : AgreeProperties p properties properties') :
      AgreeProperties p ((key, item) :: properties) ((key, item') :: properties')
  | cons {key item item' properties properties'} (h : Agree p item item')
      (hs : AgreeProperties p properties properties') :
      AgreeProperties p ((key, item) :: properties) ((key, item') :: properties')

end

/-- The entry that `sanitizeValue` makes of a property. -/
def sanitizeEntry (p : Platform ν) (depth : Nat) (property : Text × Value ν) : Text × Value ν :=
  ((cleanText (some property.1) 100).getD (text "field"),
    if isSensitiveKey p property.1 then .string (text "[REDACTED]")
    else sanitizeValue p property.2 (depth + 1))

theorem sanitizeValue_deep {depth : Nat} (h : depth > 6) (value : Value ν) :
    sanitizeValue p value depth = .string (text "[TRUNCATED]") := by
  rw [sanitizeValue.eq_def, if_pos h]

theorem sanitizeValue_array {depth : Nat} (h : ¬ depth > 6) (items : List (Value ν)) :
    sanitizeValue p (.array items) depth =
      .array ((items.take 50).map fun item => sanitizeValue p item (depth + 1)) := by
  rw [sanitizeValue, if_neg h]

theorem sanitizeValue_object {depth : Nat} (h : ¬ depth > 6) (properties : List (Text × Value ν)) :
    sanitizeValue p (.object properties) depth =
      .object (fromEntries ((properties.take 50).map (sanitizeEntry p depth))) := by
  rw [sanitizeValue, if_neg h]
  rfl

theorem AgreeItems.map_eq {items items' : List (Value ν)} {β : Type} {f : Value ν → β}
    (h : AgreeItems p items items') (hf : ∀ a b, Agree p a b → f a = f b) :
    items.map f = items'.map f := by
  induction items generalizing items' with
  | nil =>
    cases h
    rfl
  | cons item items ih =>
    cases h with
    | cons hitem hitems => rw [List.map_cons, List.map_cons, hf _ _ hitem, ih hitems]

/-- Entries are made of the raw keys. So the values under the sensitive ones are not looked at,
whatever becomes of the keys. -/
theorem AgreeProperties.map_eq {properties properties' : List (Text × Value ν)} {depth : Nat}
    (h : AgreeProperties p properties properties')
    (hvalues : ∀ a b, Agree p a b → sanitizeValue p a (depth + 1) = sanitizeValue p b (depth + 1)) :
    properties.map (sanitizeEntry p depth) = properties'.map (sanitizeEntry p depth) := by
  induction properties generalizing properties' with
  | nil =>
    cases h
    rfl
  | cons property properties ih =>
    cases h with
    | @sensitive key _ _ _ _ hkey hrest =>
      have hentry (item : Value ν) : sanitizeEntry p depth (key, item) =
          ((cleanText (some key) 100).getD (text "field"), .string (text "[REDACTED]")) := by
        rw [sanitizeEntry, if_pos hkey]
      rw [List.map_cons, List.map_cons, hentry, hentry, ih hrest]
    | cons hitem hrest =>
      rw [List.map_cons, List.map_cons, sanitizeEntry, sanitizeEntry, hvalues _ _ hitem, ih hrest]

/-- The two runs agree at every depth. The induction is on what is left of it. -/
theorem Agree.sanitizeValue_eq {value value' : Value ν} (h : Agree p value value') (depth : Nat) :
    sanitizeValue p value depth = sanitizeValue p value' depth := by
  induction hleft : 7 - depth generalizing value value' depth with
  | zero =>
    have hdeep : depth > 6 := by lia
    rw [sanitizeValue_deep hdeep, sanitizeValue_deep hdeep]
  | succ left ih =>
    have hshallow : ¬ depth > 6 := by lia
    have hbelow : ∀ a b, Agree p a b → sanitizeValue p a (depth + 1) = sanitizeValue p b (depth + 1) :=
      fun a b hab => ih hab (depth + 1) (by lia)
    cases h with
    | same => rfl
    | array hitems =>
      rw [sanitizeValue_array hshallow, sanitizeValue_array hshallow, List.map_take, List.map_take,
        hitems.map_eq hbelow]
    | object hproperties =>
      rw [sanitizeValue_object hshallow, sanitizeValue_object hshallow, List.map_take, List.map_take,
        hproperties.map_eq hbelow]

/-- Metadata that differ only under sensitive keys leave the same row in the audit log. -/
theorem audit_redaction (p : Platform ν) {value value' : Value ν} (h : Agree p value value') :
    sanitizeMetadata p (some value) = sanitizeMetadata p (some value') ∧
      ∀ (input : AuditRecordInput ν) (now : Time),
        record p { input with metadata := some value } now =
          record p { input with metadata := some value' } now := by
  have hmetadata : sanitizeMetadata p (some value) = sanitizeMetadata p (some value') := by
    cases h with
    | same => rfl
    | array hitems => exact (Agree.array hitems).sanitizeValue_eq 0
    | object hproperties => exact (Agree.object hproperties).sanitizeValue_eq 0
  refine ⟨hmetadata, fun input now => ?_⟩
  simp only [record, hmetadata]

/-- A platform for tests, with ASCII letters and whole numbers. -/
def Platform.ascii : Platform Int where
  toLowerCase key := key.map fun c => if 0x41 ≤ c && c ≤ 0x5a then c + 0x20 else c
  isFinite _ := true
  isIP _ := true

/-- A password under a key that is cleaned to another key of the same object. -/
def credentials (password : Value Int) : Value Int :=
  .object [(text "action", .string (text "enable")),
    (text "user", .array [.object [(text "new Password\n", password), (text "id", .number 7),
      (text "new Password", .null)]])]

theorem audit_redaction_password :
    sanitizeMetadata .ascii (some (credentials (.string (text "hunter2")))) =
      sanitizeMetadata .ascii (some (credentials (.array [.number 1]))) := by
  have hkey : isSensitiveKey .ascii (text "new Password\n") = true := by decide +kernel
  have huser : Agree .ascii
      (.object [(text "new Password\n", .string (text "hunter2")), (text "id", .number 7),
        (text "new Password", .null)])
      (.object [(text "new Password\n", .array [.number 1]), (text "id", .number 7),
        (text "new Password", .null)]) :=
    .object (.sensitive hkey (.cons (.same _) (.cons (.same _) .nil)))
  have hcredentials : Agree .ascii (credentials (.string (text "hunter2")))
      (credentials (.array [.number 1])) :=
    .object (.cons (.same _) (.cons (.array (.cons huser .nil)) .nil))
  exact (audit_redaction .ascii hcredentials).1

end ShipFlow.Audit
