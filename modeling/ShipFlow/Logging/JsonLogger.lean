import ShipFlow.Logging.LogRedaction

/-! `JsonLogger`: the record that a call writes, and what two calls that differ in secrets write. -/

namespace ShipFlow.Logging
open Script Masking

inductive JsonLogLevel where
  | debug
  | info
  | warn
  | error
  | fatal
  deriving DecidableEq, Repr

def levelPriority : JsonLogLevel → Nat
  | .debug => 10
  | .info => 20
  | .warn => 30
  | .error => 40
  | .fatal => 50

inductive ApplicationLogLevel where
  | debug
  | info
  | warn
  | error
  deriving DecidableEq, Repr

def ApplicationLogLevel.toJson : ApplicationLogLevel → JsonLogLevel
  | .debug => .debug
  | .info => .info
  | .warn => .warn
  | .error => .error

structure JsonLogger where
  service : Text
  minimumLevel : ApplicationLogLevel
  pid : Nat

inductive LoggerMethod where
  | log
  | fatal
  | error
  | warn
  | debug
  | verbose
  deriving DecidableEq, Repr

def LoggerMethod.level : LoggerMethod → JsonLogLevel
  | .log => .info
  | .fatal => .fatal
  | .error => .error
  | .warn => .warn
  | .debug => .debug
  | .verbose => .debug

/-- The record before it is made JSON. A field that is missing is `none`. -/
structure LogRecord (ν : Type) where
  timestamp : Text
  level : JsonLogLevel
  service : Text
  pid : Nat
  context : Option Text
  event : Option (LogValue ν)
  data : Option (LogValue ν)
  message : Option (LogValue ν)
  details : Option (LogValue ν)

inductive Stream where
  | stdout
  | stderr
  deriving DecidableEq, Repr

section Logger
variable {ν : Type}

def extractContext (optionalParams : List (LogValue ν)) : Option Text :=
  match optionalParams.getLast? with
  | some (.string last) => if last.contains newline then none else some last
  | _ => none

def getProperty (properties : List (Text × LogValue ν)) (name : Text) : LogValue ν :=
  match properties.find? fun property => property.1 == name with
  | some (_, value) => value
  | none => .undefined

/-- `message.event ?? 'application.event'`, if the message is a plain object. -/
def recordEvent : LogValue ν → Option (LogValue ν)
  | .object properties =>
    match getProperty properties (text "event") with
    | .null | .undefined => some (.string (text "application.event"))
    | event => some event
  | _ => none

def recordData : LogValue ν → Option (LogValue ν)
  | .object properties => some (redactLogValue (.object properties) 0)
  | _ => none

def recordMessage : LogValue ν → Option (LogValue ν)
  | .object _ => none
  | message => some (redactLogValue message 0)

/-- The parameters that are no context. An empty context stays among them. -/
def detailsOf (optionalParams : List (LogValue ν)) : List (LogValue ν) :=
  match extractContext optionalParams with
  | none | some [] => optionalParams
  | some _ => optionalParams.dropLast

def JsonLogger.enabled (logger : JsonLogger) (level : JsonLogLevel) : Bool :=
  levelPriority logger.minimumLevel.toJson ≤ levelPriority level

def JsonLogger.write (logger : JsonLogger) (level : JsonLogLevel) (message : LogValue ν)
    (optionalParams : List (LogValue ν)) (timestamp : Text) : Option (Stream × LogRecord ν) :=
  if levelPriority level < levelPriority logger.minimumLevel.toJson then none
  else
    let details := detailsOf optionalParams
    some (if level = .error ∨ level = .fatal then .stderr else .stdout,
      { timestamp := timestamp
        level := level
        service := logger.service
        pid := logger.pid
        context := extractContext optionalParams
        event := recordEvent message
        data := recordData message
        message := recordMessage message
        details := if details.length > 0 then some (redactLogValue (.array details) 0) else none })

def JsonLogger.call (logger : JsonLogger) (method : LoggerMethod) (message : LogValue ν)
    (optionalParams : List (LogValue ν)) (timestamp : Text) : Option (Stream × LogRecord ν) :=
  logger.write method.level message optionalParams timestamp

/-! ## Two calls -/

/-- Two calls write the same, apart from the timestamps. -/
def SameOutput : Option (Stream × LogRecord ν) → Option (Stream × LogRecord ν) → Prop
  | none, none => True
  | some (stream, r), some (stream', r') =>
    stream = stream' ∧ { r with timestamp := r'.timestamp } = r'
  | _, _ => False

/-- The last parameter is the same, where it is a string of a single line. -/
def SameContext (params params' : List (LogValue ν)) : Prop :=
  ∀ last, params.getLast? = some (.string last) → newline ∉ last →
    params'.getLast? = some (.string last)

section Agreement
variable {message message' : LogValue ν} {params params' : List (LogValue ν)}

theorem AgreeItems.getLast? (h : AgreeItems params params') :
    Option.Rel Agree params.getLast? params'.getLast? := by
  induction params generalizing params' with
  | nil =>
    cases h
    exact .none
  | cons item items ih =>
    cases h with
    | @cons _ item' _ items' hitem hitems =>
      have hlast := ih hitems
      rw [List.getLast?_cons, List.getLast?_cons]
      cases hitems with
      | nil => exact .some hitem
      | cons hnext hrest =>
        rw [List.getLast?_cons, List.getLast?_cons] at hlast ⊢
        exact hlast

theorem AgreeItems.dropLast (h : AgreeItems params params') :
    AgreeItems params.dropLast params'.dropLast := by
  induction params generalizing params' with
  | nil =>
    cases h
    exact .nil
  | cons item items ih =>
    cases h with
    | cons hitem hitems =>
      have hdropped := ih hitems
      cases hitems with
      | nil => exact .nil
      | cons hnext hrest => exact .cons hitem hdropped

theorem AgreeItems.length_eq (h : AgreeItems params params') : params.length = params'.length := by
  induction params generalizing params' with
  | nil =>
    cases h
    rfl
  | cons item items ih =>
    cases h with
    | cons hitem hitems => rw [List.length_cons, List.length_cons, ih hitems]

theorem extractContext_eq_some {last : Text} : extractContext params = some last ↔
    params.getLast? = some (.string last) ∧ newline ∉ last := by
  unfold extractContext
  split
  · next s hs =>
    rw [hs, Option.some.injEq, LogValue.string.injEq]
    split
    · next hline =>
      refine iff_of_false (fun h => by cases h) ?_
      rintro ⟨rfl, hno⟩
      exact hno (List.contains_iff_mem.mp hline)
    · next hline =>
      rw [Option.some.injEq]
      refine (and_iff_left_of_imp ?_).symm
      rintro rfl hmem
      exact hline (List.contains_iff_mem.mpr hmem)
  · next hother =>
    refine iff_of_false (fun h => by cases h) ?_
    rintro ⟨hlast, -⟩
    exact hother last hlast

theorem Masked.newline_iff {s s' : Text} (h : Masked s s') : newline ∈ s ↔ newline ∈ s' := by
  rw [← mem_redactString, h.redactString_eq, mem_redactString]

/-- Contexts are taken from both or from none. -/
theorem AgreeItems.extractContext_eq_iff (h : AgreeItems params params') :
    extractContext params = extractContext params' ↔ SameContext params params' := by
  constructor
  · intro heq last hlast hno
    have hcontext : extractContext params' = some last := by
      rw [← heq]
      exact extractContext_eq_some.mpr ⟨hlast, hno⟩
    exact (extractContext_eq_some.mp hcontext).1
  · intro hsame
    apply Option.ext
    intro last
    rw [extractContext_eq_some, extractContext_eq_some]
    constructor
    · rintro ⟨hlast, hno⟩
      exact ⟨hsame last hlast hno, hno⟩
    · rintro ⟨hlast, hno⟩
      have hrelated := h.getLast?
      rw [hlast] at hrelated
      cases hparam : params.getLast? with
      | none =>
        rw [hparam] at hrelated
        cases hrelated
      | some param =>
        rw [hparam] at hrelated
        cases hrelated with
        | some hagree =>
          cases hagree with
          | same => exact ⟨rfl, hno⟩
          | @string s _ hmasked =>
            have hline : newline ∉ s := mt hmasked.newline_iff.mp hno
            have hequal := hsame s hparam hline
            rw [hlast] at hequal
            cases hequal
            exact ⟨rfl, hno⟩

/-- A message is in one of two fields, where it looks the same if its names are. -/
theorem Agree.record_eq_iff (h : Agree message message') :
    recordData message = recordData message' ∧ recordMessage message = recordMessage message' ↔
      copiedNames message 0 = copiedNames message' 0 := by
  rw [← (h.sameBut 0).redacted]
  cases h with
  | same => exact iff_of_true ⟨rfl, rfl⟩ rfl
  | object h => exact (and_iff_left rfl).trans Option.some_inj
  | _ => exact (and_iff_right rfl).trans Option.some_inj

/-- The details are redacted, with the context taken from both or from none. -/
theorem AgreeItems.details_eq (h : AgreeItems params params')
    (hcontext : extractContext params = extractContext params') :
    AgreeItems (detailsOf params) (detailsOf params') := by
  rw [detailsOf, detailsOf, hcontext]
  split
  · exact h
  · exact h
  · exact h.dropLast

/-- A context has no names. -/
theorem copiedNames_details (params : List (LogValue ν)) :
    copiedNames (.array (detailsOf params)) 0 = copiedNames (.array params) 0 := by
  have hshallow : ¬ 0 > 8 := by decide
  rw [detailsOf]
  split
  · rfl
  · rfl
  · next c hcontext =>
    obtain ⟨last, hlast⟩ := List.getLast?_eq_some_iff.mp (extractContext_eq_some.mp hcontext).1
    rw [hlast, List.dropLast_concat, copiedNames_array hshallow, copiedNames_array hshallow,
      List.flatMap_append, List.flatMap_singleton, copiedNames_string, List.append_nil]

/-- The field for the details, once the context is cut off from both lists of parameters or from
none. -/
theorem AgreeItems.rest_eq_iff (h : AgreeItems params params')
    (hcontext : extractContext params = extractContext params') :
    ((if (detailsOf params).length > 0 then some (redactLogValue (.array (detailsOf params)) 0)
        else none) =
      if (detailsOf params').length > 0 then some (redactLogValue (.array (detailsOf params')) 0)
        else none) ↔
    copiedNames (.array params) 0 = copiedNames (.array params') 0 := by
  have hagree := h.details_eq hcontext
  rw [← copiedNames_details params, ← copiedNames_details params', hagree.length_eq]
  split
  · rw [Option.some_inj]
    exact ((Agree.array hagree).sameBut 0).redacted
  · next hnone =>
    have hempty := List.length_eq_zero_iff.mp (Nat.eq_zero_of_not_pos hnone)
    have hempty' := List.length_eq_zero_iff.mp
      (hagree.length_eq.trans (Nat.eq_zero_of_not_pos hnone))
    rw [hempty, hempty']
    exact iff_of_true rfl rfl

theorem write_sameOutput {logger : JsonLogger} {level : JsonLogLevel} {timestamp timestamp' : Text}
    (hmessage : Agree message message') (hparams : AgreeItems params params') :
    SameOutput (logger.write level message params timestamp)
        (logger.write level message' params' timestamp') ↔
      (logger.enabled level = true →
        SameContext params params' ∧ recordEvent message = recordEvent message' ∧
        copiedNames message 0 = copiedNames message' 0 ∧
        copiedNames (.array params) 0 = copiedNames (.array params') 0) := by
  rw [JsonLogger.write, JsonLogger.write, JsonLogger.enabled, decide_eq_true_eq]
  split
  · next hlow => exact iff_of_true True.intro fun hhigh => absurd hlow (Nat.not_lt.mpr hhigh)
  · next hhigh =>
    rw [forall_prop_of_true (Nat.not_lt.mp hhigh), ← hparams.extractContext_eq_iff,
      ← hmessage.record_eq_iff]
    constructor
    · rintro ⟨-, hrecord⟩
      obtain ⟨-, -, -, -, hcontext, hevent, hdata, hmessage, hrest⟩ :=
        (LogRecord.mk.injEq ..).mp hrecord
      exact ⟨hcontext, hevent, ⟨hdata, hmessage⟩, (hparams.rest_eq_iff hcontext).mp hrest⟩
    · rintro ⟨hcontext, hevent, ⟨hdata, hmessage⟩, hnames⟩
      refine ⟨rfl, ?_⟩
      rw [(hparams.rest_eq_iff hcontext).mpr hnames, hcontext, hevent, hdata, hmessage]

end Agreement

/-- Two calls that differ in secrets only write the same record, exactly if no secret stands in
the context, in the event of the message, or in a name that is copied. -/
theorem log_redaction_iff (logger : JsonLogger) (method : LoggerMethod)
    (message message' : LogValue ν) (params params' : List (LogValue ν))
    (timestamp timestamp' : Text) (hmessage : Agree message message')
    (hparams : AgreeItems params params') :
    SameOutput (logger.call method message params timestamp)
        (logger.call method message' params' timestamp') ↔
      (logger.enabled method.level = true →
        SameContext params params' ∧ recordEvent message = recordEvent message' ∧
        copiedNames message 0 = copiedNames message' 0 ∧
        copiedNames (.array params) 0 = copiedNames (.array params') 0) :=
  write_sameOutput hmessage hparams

def appLogger : JsonLogger := ⟨text "ShipFlow API", .info, 1⟩

def securityEvent (password authorization : String) : LogValue Int :=
  .object [(text "event", .string (text "security.test")), (text "password", .string (text password)),
    (text "request", .array [.number 7, .string (text ("Bearer " ++ authorization))])]

theorem masked_bearer : Masked (text "Bearer first") (text "Bearer second") := by
  apply Masked.bearer
  rw [SameTokens]
  decide +kernel

theorem log_redaction_event :
    SameOutput (appLogger.call .log (securityEvent "hunter2" "first") [.string (text "Auth")] [])
      (appLogger.call .log (securityEvent "swordfish" "second") [.string (text "Auth")] []) := by
  have hkey : isSensitiveKey (text "password") = true := by decide +kernel
  have hrequest : Agree (.array [.number 7, .string (text "Bearer first")] : LogValue Int)
      (.array [.number 7, .string (text "Bearer second")]) :=
    .array (.cons (.same _) (.cons (.string masked_bearer) .nil))
  have hmessage : Agree (securityEvent "hunter2" "first") (securityEvent "swordfish" "second") :=
    .object (.cons (.same _) (.sensitive hkey (.cons hrequest .nil)))
  have hparams : AgreeItems [(.string (text "Auth") : LogValue Int)] [.string (text "Auth")] :=
    .cons (.same _) .nil
  have hnames (password authorization : String) :
      copiedNames (securityEvent password authorization) 0 = [] := by
    rw [securityEvent, copiedNames_object (by decide), List.flatMap_eq_nil_iff]
    intro property hproperty
    have hproperty := List.mem_of_mem_filter hproperty
    simp only [List.mem_cons, List.not_mem_nil, or_false] at hproperty
    rcases hproperty with rfl | rfl | rfl <;> simp [propertyNames, copiedNames]
  refine (log_redaction_iff appLogger .log _ _ _ _ [] [] hmessage hparams).mpr fun _ => ?_
  refine ⟨fun last hlast _ => hlast, rfl, ?_, rfl⟩
  rw [hnames, hnames]

/-- A token in the context of a call, in the event of its message or in the name of an error is
written as it is. -/
theorem log_context_unredacted :
    (AgreeItems [(.string (text "Bearer first") : LogValue Int)] [.string (text "Bearer second")] ∧
      ¬ SameOutput (appLogger.call .log (.null : LogValue Int) [.string (text "Bearer first")] [])
        (appLogger.call .log .null [.string (text "Bearer second")] [])) ∧
    (Agree (.object [(text "event", .string (text "Bearer first"))] : LogValue Int)
        (.object [(text "event", .string (text "Bearer second"))]) ∧
      ¬ SameOutput
        (appLogger.call .log (.object [(text "event", (.string (text "Bearer first") : LogValue Int))])
          [] [])
        (appLogger.call .log (.object [(text "event", .string (text "Bearer second"))]) [] [])) ∧
    (Agree (.error (text "Bearer first") [] none : LogValue Int)
        (.error (text "Bearer second") [] none) ∧
      ¬ SameOutput (appLogger.call .error (.error (text "Bearer first") [] none : LogValue Int) [] [])
        (appLogger.call .error (.error (text "Bearer second") [] none) [] [])) := by
  have henabled : appLogger.enabled .info = true := rfl
  have hdiffer : text "Bearer second" ≠ text "Bearer first" := by decide +kernel
  have hparams : AgreeItems [(.string (text "Bearer first") : LogValue Int)]
      [.string (text "Bearer second")] := .cons (.string masked_bearer) .nil
  have hmessage : Agree (.object [(text "event", .string (text "Bearer first"))] : LogValue Int)
      (.object [(text "event", .string (text "Bearer second"))]) :=
    .object (.cons (.string masked_bearer) .nil)
  have herror : Agree (.error (text "Bearer first") [] none : LogValue Int)
      (.error (text "Bearer second") [] none) := .error masked_bearer (.refl []) .none
  refine ⟨⟨hparams, fun hsame => ?_⟩, ⟨hmessage, fun hsame => ?_⟩, herror, fun hsame => ?_⟩
  · have hcontext := ((write_sameOutput (.same .null) hparams).mp hsame henabled).1
    have hlast := hcontext (text "Bearer first") rfl (by decide +kernel)
    exact hdiffer (LogValue.string.inj (Option.some.inj hlast))
  · have hevent := ((write_sameOutput hmessage .nil).mp hsame henabled).2.1
    have hstring : (some (.string (text "Bearer first")) : Option (LogValue Int)) =
        some (.string (text "Bearer second")) := hevent
    exact hdiffer (LogValue.string.inj (Option.some.inj hstring)).symm
  · have hnames := ((write_sameOutput herror .nil).mp hsame rfl).2.2.1
    rw [copiedNames_error (by decide), copiedNames_error (by decide)] at hnames
    exact hdiffer (List.singleton_inj.mp hnames).symm

end Logger
end ShipFlow.Logging
