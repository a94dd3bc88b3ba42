import ShipFlow.Encoding.Base64Url
import ShipFlow.Encoding.Text
import ShipFlow.Notifications
import ShipFlow.Notifications.IsoDates
import ShipFlow.Script.Json
import ShipFlow.Script.Utf8

/-! `NotificationsService` and `NotificationRetentionService`. -/

namespace ShipFlow.Notifications
open Interleaving Relational Script Encoding

structure StoredNotification extends Notification where
  readAt : Option Time
  deriving DecidableEq, Repr

structure Store where
  notifications : List StoredNotification := []
  notificationPreferences : List NotificationPreference := []
  nextId : Id := 0

def Store.empty : Store := {}

def notifications : Table Store StoredNotification where
  rows := Store.notifications
  put rows s := { s with notifications := rows }
  admits _ _ := true
  collides a b := a.toNotification.collides b.toNotification

def notificationPreferences : Table Store NotificationPreference where
  rows := Store.notificationPreferences
  put rows s := { s with notificationPreferences := rows }
  admits _ _ := true
  collides a b := a.userId == b.userId

/-- The read mark of a notification; a new notification has none. -/
def Store.readAt (s : Store) (id : Id) : Option Time :=
  (s.notifications.find? fun n => n.id == id).bind StoredNotification.readAt

/-- The writer does not use the column `readAt`. -/
instance : HasNotifications Store where
  nextId := Store.nextId
  takeId s := { s with nextId := s.nextId + 1 }
  notifications :=
    { rows := fun s => s.notifications.map StoredNotification.toNotification
      put := fun rows s =>
        { s with notifications := rows.map fun n => { n with readAt := s.readAt n.id } }
      admits := fun _ _ => true
      collides := Notification.collides }
  notificationPreferences := Store.notificationPreferences

/-! ## Cursors -/

/-- What the service takes from elsewhere: the values of the identifiers that the database
generates, the check of a library whether a text is a UUID, and the reading of dates that are
not in the format of `toISOString`. -/
structure Platform where
  uuid : Id → Nat
  isUUID : Text → Bool
  parseDate : Text → Option Time

structure NotificationCursor where
  createdAt : Time
  id : Text
  deriving DecidableEq

/-- The lowest hexadecimal digits of a number. -/
def hexText : Nat → Nat → List Char
  | 0, _ => []
  | width + 1, n => hexText width (n / 16) ++ [hexDigit (n % 16)]

def uuidText (n : Nat) : List Char :=
  hexText 8 (n / 16 ^ 24) ++ '-' :: hexText 4 (n / 16 ^ 20) ++ '-' :: hexText 4 (n / 16 ^ 16) ++
    '-' :: hexText 4 (n / 16 ^ 12) ++ '-' :: hexText 12 n

/-- The value of the hexadecimal digits of a UUID. -/
def uuidValue (t : Text) : Option Nat :=
  (((scalarValues t).filter (· ≠ '-')).mapM hexValue).map fun digits =>
    digits.foldl (fun n digit => 16 * n + digit) 0

/-- `new Date(text)`; a point in time that is no date is `NaN`. -/
def newDate (p : Platform) (t : Text) : Option Time :=
  ((parseIso (scalarValues t)).or (p.parseDate t)).filter fun t =>
    -8640000000000000 ≤ t && t ≤ 8640000000000000

def encodeCursor (cursor : NotificationCursor) : Text :=
  Base64Url.encode (Utf8.encode (Json.stringify
    [(text "createdAt", text (Billing.toISOString cursor.createdAt)), (text "id", cursor.id)]))

def invalidCursor : Failure := .http .badRequest "Invalid notification cursor"

/-- The value of a property of what was parsed, if it is a string. -/
def stringProperty (decoded : Value Text) (name : Text) : Option Text :=
  match decoded with
  | .object properties =>
    match properties.find? fun property => property.1 == name with
    | some (_, .string s) => some s
    | _ => none
  | _ => none

def decodeCursor (p : Platform) (value : Text) : Except Failure NotificationCursor :=
  match Json.parse (Utf8.decode (Base64Url.decode value)) with
  | none => .error invalidCursor
  | some decoded =>
    match stringProperty decoded (text "createdAt"), stringProperty decoded (text "id") with
    | some createdAt, some id =>
      match newDate p createdAt with
      | none => .error invalidCursor
      | some createdAt =>
        if p.isUUID id then .ok { createdAt := createdAt, id := id } else .error invalidCursor
    | _, _ => .error invalidCursor

/-! ## Requests -/

structure NotificationListQueryDto where
  limit : Nat
  cursor : Option Text
  unreadOnly : Bool
  organizationId : Option Id

structure NotificationResponse where
  id : Id
  organizationId : Option Id
  category : NotificationCategory
  type : NotificationType
  title : String
  message : String
  actionPath : Option String
  metadata : List (String × Option String)
  readAt : Option Time
  createdAt : Time
  expiresAt : Time
  deriving DecidableEq, Repr

structure NotificationListResponse where
  items : List NotificationResponse
  nextCursor : Option Text

structure NotificationPreferenceResponse where
  organizationEnabled : Bool
  securityEnabled : Bool
  billingEnabled : Bool
  deriving DecidableEq, Repr

def toResponse (notification : StoredNotification) : NotificationResponse where
  id := notification.id
  organizationId := notification.organizationId
  category := notification.category
  type := notification.type
  title := notification.title
  message := notification.message
  actionPath := notification.actionPath
  metadata := notification.metadata
  readAt := notification.readAt
  createdAt := notification.createdAt
  expiresAt := notification.expiresAt

/-- The notifications of a user that have begun and not expired, of one organization if it is
given. -/
def activeWhere (now : Time) (userId : Id) (organizationId : Option Id) (n : StoredNotification) :
    Bool :=
  n.userId == userId && organizationId.all (fun id => n.organizationId == some id) &&
    n.createdAt ≤ now && now < n.expiresAt

/-- Whether a notification comes after the cursor, newest first. -/
def afterCursor (p : Platform) (createdAt : Time) (id : Nat) (n : StoredNotification) : Bool :=
  n.createdAt < createdAt || (n.createdAt == createdAt && p.uuid n.id < id)

/-- Newest first; of two at the same time the one with the greater identifier. -/
def newestFirst (p : Platform) (a b : StoredNotification) : Prop :=
  b.createdAt < a.createdAt ∨ (b.createdAt = a.createdAt ∧ p.uuid b.id ≤ p.uuid a.id)

instance (p : Platform) : DecidableRel (newestFirst p) := fun _ _ => instDecidableOr

/-- The position of a cursor in the order of the notifications. -/
def cursorPosition (p : Platform) (cursor : Option Text) : Except Failure (Option (Time × Nat)) :=
  match cursor with
  | none => .ok none
  | some value =>
    if value.isEmpty then .ok none
    else do
      let cursor ← decodeCursor p value
      match uuidValue cursor.id with
      | none => .error (.error "Inconsistent column data")
      | some id => return some (cursor.createdAt, id)

def list (p : Platform) (now : Time) (userId : Id) (query : NotificationListQueryDto) (s : Store) :
    Except Failure NotificationListResponse := do
  let cursor ← cursorPosition p query.cursor
  let records := ((s.notifications.filter fun n =>
    activeWhere now userId query.organizationId n && (!query.unreadOnly || n.readAt.isNone) &&
      cursor.all fun (createdAt, id) => afterCursor p createdAt id n).insertionSort
    (newestFirst p)).take (query.limit + 1)
  -- one row too many tells that there is another page
  let hasMore := query.limit < records.length
  let page := if hasMore then records.take query.limit else records
  return {
    items := page.map toResponse
    nextCursor := if hasMore then
        page.getLast?.map fun last =>
          encodeCursor { createdAt := last.createdAt
                         id := text (String.ofList (uuidText (p.uuid last.id))) }
      else none }

def unreadCount (now : Time) (userId : Id) (organizationId : Option Id) (s : Store) : Nat :=
  s.notifications.countP fun n => activeWhere now userId organizationId n && n.readAt.isNone

def markRead (now : Time) (userId notificationId : Id) : Transaction Store Failure NotificationResponse := do
  let found ← notifications.findFirst fun n =>
    n.id == notificationId && n.userId == userId && n.createdAt ≤ now && now < n.expiresAt
  match found with
  | none => Transaction.fails (.http .notFound "Notification not found")
  | some notification =>
    if notification.readAt.isSome then
      return toResponse notification
    else
      let updated ← notifications.update (fun n => n.id == notification.id) fun n =>
        { n with readAt := some now }
      return toResponse updated

def markAllRead (cutoff : Time) (userId : Id) (organizationId : Option Id) :
    Transaction Store Failure Nat :=
  notifications.updateMany
    (fun n => n.userId == userId && organizationId.all (fun id => n.organizationId == some id) &&
      n.readAt.isNone && cutoff < n.expiresAt && n.createdAt ≤ cutoff)
    fun n => { n with readAt := some cutoff }

def preferenceResponse (organizationEnabled : Bool) : NotificationPreferenceResponse where
  organizationEnabled := organizationEnabled
  securityEnabled := true
  billingEnabled := true

def getPreferences (userId : Id) (s : Store) : NotificationPreferenceResponse :=
  preferenceResponse (((s.notificationPreferences.find? fun preference =>
    preference.userId == userId).map NotificationPreference.organizationEnabled).getD true)

def updatePreferences (userId : Id) (organizationEnabled : Bool) :
    Transaction Store Failure NotificationPreferenceResponse := do
  let preference ← notificationPreferences.upsert (fun preference => preference.userId == userId)
    { userId := userId, organizationEnabled := organizationEnabled }
    fun preference => { preference with organizationEnabled := organizationEnabled }
  return preferenceResponse preference.organizationEnabled

/-- `NotificationRetentionService.prune`. -/
def prune (now : Time) : Transaction Store Failure Nat :=
  notifications.deleteMany fun n => n.expiresAt ≤ now

end ShipFlow.Notifications
