import ShipFlow.Billing.Entitlement

/-! The stored files, the objects behind them, and every update the services issue
on the row of a file. -/

namespace ShipFlow.Files
open Interleaving Relational

inductive FileStatus where
  | pending
  | scanning
  | ready
  | deleted
  | rejected
  | failed
  | purged
  deriving DecidableEq, Repr

inductive FileMalwareStatus where
  | notRequired
  | pending
  | clean
  | infected
  | unsupported
  | failed
  deriving DecidableEq, Repr

inductive FileStorageProvider where
  | local
  | s3
  deriving DecidableEq, Repr

inductive MalwareScanResult where
  | clean
  | infected
  | unsupported
  | failed
  deriving DecidableEq, Repr

def FILE_MAX_SIZE_BYTES : Nat := 25 * 1024 * 1024
def FILE_UPLOAD_URL_TTL_SECONDS : Int := 10 * 60
def FILE_DOWNLOAD_URL_TTL_SECONDS : Int := 5 * 60
def FILE_RESERVATION_TTL_MS : Int := 15 * 60 * 1000
def FILE_STALE_PENDING_MS : Int := 60 * 60 * 1000
def FILE_SCAN_TIMEOUT_MS : Int := 24 * 60 * 60 * 1000
def FILE_SOFT_DELETE_RETENTION_MS : Int := 30 * 24 * 60 * 60 * 1000
def FILE_AUDIT_RETENTION_MS : Int := 90 * 24 * 60 * 60 * 1000
def FILE_FAILED_RETENTION_MS : Int := 24 * 60 * 60 * 1000
def FILE_MAX_ACTIVE_RESERVATIONS_PER_USER : Nat := 5
def FILE_MAX_ACTIVE_RESERVATIONS_PER_ORGANIZATION : Nat := 20

structure FileQuota where
  maxBytes : Nat
  maxFiles : Nat

def FILE_PLAN_QUOTAS : PlanCode → FileQuota
  | .free => ⟨100 * 1024 * 1024, 100⟩
  | .pro => ⟨10 * 1024 * 1024 * 1024, 10000⟩

structure FileUploader where
  id : Id
  displayName : Option String
  deriving DecidableEq, Repr

structure StoredFile where
  id : Id
  organizationId : Id
  uploadedById : Id
  storageProvider : FileStorageProvider
  objectKey : String
  originalName : String
  declaredMimeType : String
  detectedMimeType : Option String
  sizeBytes : Nat
  checksumSha256 : String
  status : FileStatus
  malwareStatus : FileMalwareStatus
  scanAttempts : Nat
  reservationExpiresAt : Time
  uploadedAt : Option Time
  scanCompletedAt : Option Time
  deletedAt : Option Time
  purgeAfter : Option Time
  purgedAt : Option Time
  auditExpiresAt : Option Time
  lastLifecycleError : Option String
  createdAt : Time
  deriving DecidableEq, Repr

structure StoredObject where
  key : String
  body : List UInt8
  contentType : Option String
  lastModified : Time
  deriving DecidableEq, Repr

structure Store where
  nextId : Id
  users : List FileUploader
  plans : List Billing.Plan
  subscriptions : List Billing.Subscription
  storedFiles : List StoredFile
  objects : List StoredObject
  deriving Repr

/-- No files yet. -/
def Store.empty (nextId : Id) (users : List FileUploader) (plans : List Billing.Plan)
    (subscriptions : List Billing.Subscription) : Store :=
  ⟨nextId, users, plans, subscriptions, [], []⟩

instance : Billing.HasSubscriptions Store := ⟨Store.plans, Store.subscriptions⟩

/-- `stored_files_lifecycle_check`. -/
def StoredFile.lifecycleCheck (f : StoredFile) : Bool :=
  match f.status with
  | .pending => f.uploadedAt.isNone && f.deletedAt.isNone && f.purgedAt.isNone
  | .scanning | .ready => f.uploadedAt.isSome && f.deletedAt.isNone && f.purgedAt.isNone
  | .deleted =>
    f.uploadedAt.isSome && f.deletedAt.isSome && f.purgeAfter.isSome && f.purgedAt.isNone
  | .rejected | .failed => f.purgeAfter.isSome && f.purgedAt.isNone
  | .purged => f.purgedAt.isSome && f.auditExpiresAt.isSome

def isLowerHex (c : Char) : Bool := ('0' ≤ c && c ≤ '9') || ('a' ≤ c && c ≤ 'f')

/-- `stored_files_size_check`, `stored_files_checksum_check`, `stored_files_name_check`
and `stored_files_lifecycle_check`. -/
def StoredFile.valid (f : StoredFile) : Bool :=
  (0 < f.sizeBytes && f.sizeBytes ≤ 26214400) &&
  (f.checksumSha256.length == 64 && f.checksumSha256.toList.all isLowerHex) &&
  (f.originalName != "" && f.originalName.toList.head? != some ' ' &&
    f.originalName.toList.getLast? != some ' ') &&
  f.lifecycleCheck

def storedFiles : Table Store StoredFile where
  rows := Store.storedFiles
  put rows s := { s with storedFiles := rows }
  admits _ f := f.valid
  collides a b := a.id == b.id || a.objectKey == b.objectKey

instance : HasIds Store where
  nextId := Store.nextId
  takeId s := { s with nextId := s.nextId + 1 }

/-- What a request draws from outside the store: the clock, whether the storage call
fails, and the verdict of the scanner (nothing when the scan throws). -/
structure Input where
  now : Time
  storageFailure : Bool
  scan : Option MalwareScanResult

/-! ## Updates -/

/-- The updates on a row, each named for what it does and with the data it writes. -/
inductive Transition where
  /-- `initiateUpload`, when no upload target could be created -/
  | targetFailed (fileId : Id) (now : Time)
  /-- `completeUpload` -/
  | uploadRejected (fileId : Id) (now : Time) (message : String)
  | uploadCompleted (fileId : Id) (now : Time) (detectedMimeType : String) (ready : Bool)
  /-- `deleteFile` -/
  | reservationDropped (fileId : Id) (now : Time)
  | deleted (fileId : Id) (now : Time)
  /-- `restoreFile` -/
  | restored (fileId : Id) (status : FileStatus)
  /-- `syncLifecycleState` -/
  | tagPostponed (fileId : Id)
  /-- `applyScanResult` -/
  | scanClean (fileId : Id) (now : Time)
  | scanInfected (fileId : Id) (now : Time)
  | scanInconclusive (fileId : Id) (scanAttempts : Nat) (malwareStatus : FileMalwareStatus)
  /-- `processScans` -/
  | scanUnreadable (fileId : Id) (scanAttempts : Nat)
  /-- `failScan` -/
  | scanFailed (fileId : Id) (malwareStatus : FileMalwareStatus) (scanAttempts : Nat) (now : Time)
  /-- `retryLifecycleTags` -/
  | tagUpdated (fileId : Id)
  /-- `purgeExpiredRecords` -/
  | purged (fileId : Id) (now : Time)
  | purgePostponed (fileId : Id)
  deriving DecidableEq, Repr

namespace Transition

def fileId : Transition → Id
  | .targetFailed fileId _ | .uploadRejected fileId _ _ | .uploadCompleted fileId _ _ _
  | .reservationDropped fileId _ | .deleted fileId _ | .restored fileId _ | .tagPostponed fileId
  | .scanClean fileId _ | .scanInfected fileId _ | .scanInconclusive fileId _ _
  | .scanUnreadable fileId _ | .scanFailed fileId _ _ _ | .tagUpdated fileId | .purged fileId _
  | .purgePostponed fileId => fileId

/-- The updates of the scanner carry `status: SCANNING` in their filter. -/
def whileScanning : Transition → Bool
  | .scanClean _ _ | .scanInfected _ _ | .scanInconclusive _ _ _ | .scanUnreadable _ _
  | .scanFailed _ _ _ _ => true
  | _ => false

def selects (t : Transition) (f : StoredFile) : Bool :=
  f.id == t.fileId && (!t.whileScanning || f.status == .scanning)

def apply : Transition → StoredFile → StoredFile
  | .targetFailed _ now, f =>
    { f with
      status := .failed
      purgeAfter := some now
      lastLifecycleError := some "Failed to create an upload target" }
  | .uploadRejected _ now message, f =>
    { f with
      status := .rejected
      malwareStatus := .unsupported
      uploadedAt := some now
      purgeAfter := some (now + FILE_FAILED_RETENTION_MS)
      lastLifecycleError := some message }
  | .uploadCompleted _ now detectedMimeType ready, f =>
    { f with
      detectedMimeType := some detectedMimeType
      uploadedAt := some now
      status := if ready then .ready else .scanning
      malwareStatus := if ready then .notRequired else .pending
      scanCompletedAt := if ready then some now else none
      lastLifecycleError := none }
  | .reservationDropped _ now, f =>
    { f with
      status := .purged
      purgedAt := some now
      auditExpiresAt := some (now + FILE_AUDIT_RETENTION_MS) }
  | .deleted _ now, f =>
    { f with
      status := .deleted
      deletedAt := some now
      purgeAfter := some (now + FILE_SOFT_DELETE_RETENTION_MS) }
  | .restored _ status, f => { f with status := status, deletedAt := none, purgeAfter := none }
  | .tagPostponed _, f =>
    { f with lastLifecycleError := some "Object lifecycle tag update will be retried" }
  | .scanClean _ now, f =>
    { f with
      status := .ready
      malwareStatus := .clean
      scanCompletedAt := some now
      lastLifecycleError := none }
  | .scanInfected _ now, f =>
    { f with
      status := .rejected
      malwareStatus := .infected
      scanCompletedAt := some now
      purgeAfter := some now
      lastLifecycleError := some "Malware was detected in the uploaded file" }
  | .scanInconclusive _ scanAttempts malwareStatus, f =>
    { f with scanAttempts := scanAttempts, malwareStatus := malwareStatus }
  | .scanUnreadable _ scanAttempts, f =>
    { f with
      scanAttempts := scanAttempts
      lastLifecycleError := some "Could not read the malware scan result" }
  | .scanFailed _ malwareStatus scanAttempts now, f =>
    { f with
      status := .failed
      malwareStatus := malwareStatus
      scanAttempts := scanAttempts
      scanCompletedAt := some now
      purgeAfter := some now
      lastLifecycleError := some "Malware scanning did not complete successfully" }
  | .tagUpdated _, f => { f with lastLifecycleError := none }
  | .purged _ now, f =>
    { f with
      status := .purged
      purgedAt := some now
      auditExpiresAt := some (now + FILE_AUDIT_RETENTION_MS)
      lastLifecycleError := none }
  | .purgePostponed _, f =>
    { f with lastLifecycleError := some "Object deletion failed and will be retried" }

/-- No update moves a file to another key. -/
@[simp] theorem apply_keys (t : Transition) (f : StoredFile) :
    (t.apply f).id = f.id ∧ (t.apply f).objectKey = f.objectKey := by
  cases t <;> exact ⟨rfl, rfl⟩

end Transition

/-- What a request does to a file, as an observer of its atomic actions sees it. -/
inductive Event where
  | reserved (fileId : Id) (objectKey : String)
  | updated (t : Transition)
  | scanned (fileId : Id) (objectKey : String) (body : List UInt8) (result : MalwareScanResult)
  | foundReady (fileId : Id) (objectKey : String)
  | handedOut (fileId : Id) (objectKey : String)
  | audited (now : Time)
  deriving DecidableEq, Repr

abbrev Tx := Transaction Store Failure
abbrev Handler := Process Input Store Event Failure
abbrev World := Interleaving.World Store Event

end ShipFlow.Files
