import ShipFlow.Failure
import ShipFlow.Script.Values

/-! `AuditService`: the row that it writes for an event, and the metadata in it. -/

namespace ShipFlow.Audit
open Script

def AUDIT_RETENTION_DAYS : Int := 365

inductive AuditActorType where
  | anonymous
  | user
  | system
  | supportAdmin
  deriving DecidableEq, Repr

inductive AuditOutcome where
  | success
  | failure
  deriving DecidableEq, Repr

inductive AuditSeverity where
  | info
  | warning
  | critical
  deriving DecidableEq, Repr

structure AuditRecordInput (ν : Type) where
  eventType : Text
  outcome : AuditOutcome
  severity : Option AuditSeverity
  actorType : Option AuditActorType
  actorUserId : Option Text
  organizationId : Option Text
  targetType : Option Text
  targetId : Option Text
  reasonCode : Option Text
  requestId : Option Text
  ipAddress : Option Text
  userAgent : Option Text
  metadata : Option (Value ν)
  occurredAt : Option Time

/-- The data of a new row of the audit log. -/
structure AuditLog (ν : Type) where
  eventType : Text
  actorType : AuditActorType
  actorUserId : Option Text
  organizationId : Option Text
  targetType : Option Text
  targetId : Option Text
  outcome : AuditOutcome
  severity : AuditSeverity
  reasonCode : Option Text
  requestId : Option Text
  ipAddress : Option Text
  userAgent : Option Text
  metadata : Value ν
  occurredAt : Time
  expiresAt : Time

/-- The functions of the platform that the service uses. -/
structure Platform (ν : Type) where
  toLowerCase : Text → Text
  isFinite : ν → Bool
  isIP : Text → Bool

def SAFE_CODE_KEYS : List Text := ["eventcode", "reasoncode", "statuscode"].map text

def SENSITIVE_KEYS : List Text :=
  ["authorization", "backupcode", "challengesecret", "challengetoken", "code", "cookie",
    "credentials", "currentpassword", "manualentrykey", "password", "provisioninguri",
    "recoverycode", "refreshtoken", "setcookie", "signature", "totpcode",
    "twofactorsecret"].map text

/-- The class `[a-z0-9]`. -/
def isCodeCharacter (c : UInt16) : Bool := (0x61 ≤ c && c ≤ 0x7a) || isDigit c

/-- The class `[0-9a-f]` with the flag `i`. -/
def isHexCharacter (c : UInt16) : Bool :=
  isDigit c || (0x61 ≤ c && c ≤ 0x66) || (0x41 ≤ c && c ≤ 0x46)

/-- `UUID_PATTERN`. -/
def isUuid (value : Text) : Bool :=
  value.length == 36 &&
  (List.range 36).all fun i =>
    let c := value.getD i 0
    if i == 8 || i == 13 || i == 18 || i == 23 then c == 0x2d
    else if i == 14 then 0x31 ≤ c && c ≤ 0x38
    else if i == 19 then (text "89abAB").contains c
    else isHexCharacter c

/-- A character, with a space in place of a control character. -/
def printable (character : Text) : Text :=
  match character with
  | code :: _ => if code ≤ 31 || code == 127 then [0x20] else character
  | [] => []

/-- The method `text`. -/
def cleanText (value : Option Text) (limit : Nat) : Option Text :=
  match value with
  | none => none
  | some value =>
    if value.isEmpty then none
    else
      let sanitized := Script.trim ((arrayFrom value).map printable).flatten
      if sanitized.isEmpty then none else some (sanitized.take limit)

def uuid (value : Option Text) : Option Text := value.filter isUuid

section Service
variable {ν : Type} (p : Platform ν)

def ipAddress (value : Option Text) : Option Text :=
  match value with
  | none => none
  | some value =>
    if value.isEmpty then none
    else
      let normalized := if (text "::ffff:").isPrefixOf value then value.drop 7 else value
      if p.isIP normalized then some normalized else none

def isSensitiveKey (key : Text) : Bool :=
  let normalized := (p.toLowerCase key).filter isCodeCharacter
  if SAFE_CODE_KEYS.contains normalized then false
  else
    SENSITIVE_KEYS.contains normalized ||
    (text "password").isSuffixOf normalized ||
    (text "secret").isSuffixOf normalized ||
    (text "signature").isSuffixOf normalized ||
    (text "token").isSuffixOf normalized ||
    (text "credential").isSuffixOf normalized ||
    (text "apikey").isSuffixOf normalized

def sanitizeValue (value : Value ν) (depth : Nat) : Value ν :=
  if depth > 6 then .string (text "[TRUNCATED]")
  else
    match value with
    | .null => .null
    | .boolean b => .boolean b
    | .number n => if p.isFinite n then .number n else .null
    | .string s => .string ((cleanText (some s) 500).getD [])
    | .array items => .array ((items.take 50).map fun item => sanitizeValue item (depth + 1))
    | .bigint n => .string ((text (toString n)).take 500)
    | .other => .null
    | .object properties => .object (fromEntries ((properties.take 50).map fun (key, item) =>
        ((cleanText (some key) 100).getD (text "field"),
          if isSensitiveKey p key then .string (text "[REDACTED]")
          else sanitizeValue item (depth + 1))))
termination_by 7 - depth

def sanitizeMetadata (value : Option (Value ν)) : Value ν :=
  match value with
  | none | some .null => sanitizeValue p (.object []) 0
  | some value => sanitizeValue p value 0

def record (input : AuditRecordInput ν) (now : Time) : AuditLog ν :=
  let occurredAt := match input.occurredAt with
    | some value => if value ≤ now then value else now
    | none => now
  let actorUserId := uuid input.actorUserId
  { eventType := input.eventType
    actorType := input.actorType.getD (if actorUserId.isSome then .user else .anonymous)
    actorUserId := actorUserId
    organizationId := uuid input.organizationId
    targetType := cleanText input.targetType 64
    targetId := cleanText input.targetId 255
    outcome := input.outcome
    severity := input.severity.getD .info
    reasonCode := cleanText input.reasonCode 100
    requestId := cleanText input.requestId 128
    ipAddress := ipAddress p input.ipAddress
    userAgent := cleanText input.userAgent 512
    metadata := sanitizeMetadata p input.metadata
    occurredAt := occurredAt
    expiresAt := occurredAt + AUDIT_RETENTION_DAYS * 24 * 60 * 60 * 1000 }

end Service
end ShipFlow.Audit
