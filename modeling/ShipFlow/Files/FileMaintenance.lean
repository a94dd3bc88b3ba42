import Mathlib.Data.List.Sort
import ShipFlow.Interleaving.Pool
import ShipFlow.Files.FilesService

/-! `FileMaintenanceService`, and the file service as a whole. -/

namespace ShipFlow.Files
open Interleaving Relational

variable (env : Environment)

/-! ## Scans -/

/-- An update with `where: { id, status: SCANNING }`. -/
def updateScanning (t : Transition) : Handler Unit := do
  let _ ← Process.atomically (fun _ => storedFiles.updateMany t.selects t.apply) fun
    | .ok _ => [.updated t]
    | .error _ => []
  return ()

def failScan (fileId : Id) (malwareStatus : FileMalwareStatus) (scanAttempts : Nat) :
    Handler Unit := do
  let now ← Process.ask Input.now
  updateScanning (.scanFailed fileId malwareStatus scanAttempts now)

def tagScanned (fileId : Id) (state : LifecycleState) : Handler Unit := do
  let found ← Process.query fun s : Store => s.storedFiles.find? fun f => f.id == fileId
  match found with
  | none => return ()
  | some file => setLifecycleState file.objectKey state

def applyScanResult (fileId : Id) (attempts : Nat) (result : MalwareScanResult) : Handler Unit := do
  match result with
  | .clean => do
    tagScanned fileId .ready
    let now ← Process.ask Input.now
    updateScanning (.scanClean fileId now)
  | .infected => do
    tagScanned fileId .rejected
    let now ← Process.ask Input.now
    updateScanning (.scanInfected fileId now)
  | _ => do
    let nextAttempts := attempts + 1
    let malwareStatus := if result == .unsupported then .unsupported else .failed
    if nextAttempts ≥ 3 then
      failScan fileId malwareStatus nextAttempts
    else
      updateScanning (.scanInconclusive fileId nextAttempts malwareStatus)

/-- `MalwareScanner.scan`; the call may throw. -/
def scan (file : StoredFile) (body : List UInt8) : Handler MalwareScanResult :=
  Process.atomically
    (fun i =>
      match i.scan with
      | some result => pure result
      | none => Transaction.fails (.error "The scanner is unavailable")) fun
    | .ok result => [.scanned file.id file.objectKey body result]
    | .error _ => []

def processScan (file : StoredFile) : Handler Unit := do
  let now ← Process.ask Input.now
  -- a restored file still has the date of its upload
  if file.uploadedAt.any fun uploadedAt => uploadedAt ≤ now - FILE_SCAN_TIMEOUT_MS then
    failScan file.id .failed (file.scanAttempts + 1)
  else
    tryCatch
      (do
        let object ← inspectObject env file.objectKey
        let result ← scan file object.body
        applyScanResult file.id file.scanAttempts result)
      fun _ => do
        let attempts := file.scanAttempts + 1
        if attempts ≥ 3 then
          failScan file.id .failed attempts
        else
          updateScanning (.scanUnreadable file.id attempts)

def processScans : Handler Unit :=
  if env.scannerEnabled then do
    let files ← Process.query fun s : Store =>
      ((s.storedFiles.filter fun f =>
        f.storageProvider == env.provider && f.status == .scanning).insertionSort
          fun a b => a.uploadedAt.getD 0 ≤ b.uploadedAt.getD 0).take 100
    Process.forEach (processScan env) files
  else return ()

/-! ## Tags and purges -/

def retriedState : FileStatus → Option LifecycleState
  | .scanning => some .scanning
  | .ready => some .ready
  | .deleted => some .deleted
  | .rejected => some .rejected
  | _ => none

def retryLifecycleTag (file : StoredFile) : Handler Unit :=
  match retriedState file.status with
  | none => return ()
  | some state =>
    tryCatch
      (do
        setLifecycleState file.objectKey state
        let _ ← update (.tagUpdated file.id)
        return ())
      fun _ => return ()

def retryLifecycleTags : Handler Unit := do
  let files ← Process.query fun s : Store =>
    (s.storedFiles.filter fun f => f.storageProvider == env.provider &&
      f.lastLifecycleError == some "Object lifecycle tag update will be retried" &&
      (retriedState f.status).isSome).take 100
  Process.forEach retryLifecycleTag files

def purgeExpiredRecord (file : StoredFile) : Handler Unit :=
  tryCatch
    (do
      -- the object goes before the row says so
      deleteObject env file.objectKey
      let now ← Process.ask Input.now
      let _ ← update (.purged file.id now)
      return ())
    fun _ => do
      let _ ← update (.purgePostponed file.id)
      return ()

def StoredFile.expired (now : Time) (f : StoredFile) : Bool :=
  (f.status == .pending && f.reservationExpiresAt ≤ now - FILE_STALE_PENDING_MS) ||
  ((f.status == .deleted || f.status == .rejected || f.status == .failed) &&
    f.purgeAfter.any fun purgeAfter => purgeAfter ≤ now)

def purgeExpiredRecords : Handler Unit := do
  let now ← Process.ask Input.now
  let files ← Process.query fun s : Store =>
    ((s.storedFiles.filter fun f => f.storageProvider == env.provider && f.expired now).insertionSort
      fun a b => a.createdAt ≤ b.createdAt).take 100
  Process.forEach (purgeExpiredRecord env) files

def deleteAudited : Handler Unit := do
  let now ← Process.ask Input.now
  let _ ← Process.atomically
    (fun _ => storedFiles.deleteMany fun f =>
      f.status == .purged && f.auditExpiresAt.any fun auditExpiresAt => auditExpiresAt ≤ now) fun
    | .ok _ => [.audited now]
    | .error _ => []
  return ()

/-- One tick of the timer; an error is logged. -/
def maintain : Handler Unit :=
  tryCatch
    (do
      processScans env
      retryLifecycleTags env
      purgeExpiredRecords env
      deleteAudited)
    fun _ => return ()

def reconcileOrphans : Handler Nat :=
  tryCatch
    (do
      let now ← Process.ask Input.now
      let cutoff := now - 24 * 60 * 60 * 1000
      let objects ← storageCall fun _ => Transaction.reads Store.objects
      let candidates := objects.filter fun o => o.lastModified ≤ cutoff
      if candidates.isEmpty then
        return 0
      else
        let records ← Process.query fun s : Store =>
          (s.storedFiles.filter fun f => f.storageProvider == env.provider &&
            candidates.any fun o => o.key == f.objectKey).map StoredFile.objectKey
        let orphans := candidates.filter fun o => !records.contains o.key
        -- the first deletion that throws ends the pass
        Process.forEach (fun o : StoredObject => deleteObject env o.key) orphans
        return orphans.length)
    fun _ => return 0

/-! ## The service -/

inductive Request where
  | initiateUpload (organizationId userId : Id) (dto : InitiateFileUploadDto)
  | completeUpload (organizationId fileId : Id)
  | getFile (organizationId fileId : Id)
  | getUsage (organizationId : Id)
  | createDownloadTarget (organizationId fileId : Id)
  | deleteFile (organizationId fileId : Id)
  | restoreFile (organizationId fileId : Id)
  | storeLocalUpload (fileId : Id) (expires : Int) (signature : String) (upload : LocalUpload)
  | readLocalDownload (fileId : Id) (expires : Int) (signature : String)
  /-- a client sends a body to the bucket -/
  | clientUpload (key : String) (body : List UInt8) (contentType : String)
  /-- the billing service writes its tables -/
  | billingUpdate (plans : List Billing.Plan) (subscriptions : List Billing.Subscription)
  | maintain
  | reconcileOrphans
  deriving DecidableEq, Repr

inductive Response where
  | reservation (file : FileResponse) (upload : FileUploadTarget)
  | file (response : FileResponse)
  | usage (response : FileUsageResponse)
  | target (response : FileDownloadTarget)
  | download (response : LocalDownload)
  | count (n : Nat)
  | done
  deriving DecidableEq, Repr

def writeSubscriptions (plans : List Billing.Plan) (subscriptions : List Billing.Subscription) :
    Handler Unit :=
  Process.statement <| Transaction.writes fun s =>
    { s with plans := plans, subscriptions := subscriptions }

def handler : Request → Handler Response
  | .initiateUpload organizationId userId dto =>
    (fun r => .reservation r.1 r.2) <$> initiateUpload env organizationId userId dto
  | .completeUpload organizationId fileId => .file <$> completeUpload env organizationId fileId
  | .getFile organizationId fileId => .file <$> getFile organizationId fileId
  | .getUsage organizationId => .usage <$> getUsage organizationId
  | .createDownloadTarget organizationId fileId =>
    .target <$> createDownloadTarget env organizationId fileId
  | .deleteFile organizationId fileId => .file <$> deleteFile env organizationId fileId
  | .restoreFile organizationId fileId => .file <$> restoreFile organizationId fileId
  | .storeLocalUpload fileId expires signature upload =>
    (fun _ => .done) <$> storeLocalUpload env fileId expires signature upload
  | .readLocalDownload fileId expires signature =>
    .download <$> readLocalDownload env fileId expires signature
  | .clientUpload key body contentType => (fun _ => .done) <$> putObject key body contentType
  | .billingUpdate plans subscriptions => (fun _ => .done) <$> writeSubscriptions plans subscriptions
  | .maintain => (fun _ => .done) <$> maintain env
  | .reconcileOrphans => .count <$> reconcileOrphans env

abbrev Config := Interleaving.Config Request Input Store Event Failure Response

def advances (pid n : Nat) (i : Input) : List (Action Request Input) :=
  List.replicate n (.advance pid i)

/-- An environment for tests: an S3 bucket and a scanner. -/
def Environment.transparent : Environment where
  normalizeNfkc := id
  toLowerCase := id
  sha256 _ := "0000000000000000000000000000000000000000000000000000000000000000"
  decodeUtf8 body := some (String.ofList (body.map fun b => Char.ofNat b.toNat))
  isJson _ := true
  provider := .s3
  scannerEnabled := true
  sign action key expires := s!"{action} {key} {expires}"
  presignPut key _ _ := key
  presignGet key _ _ := key

def Input.at (now : Time) (scan : Option MalwareScanResult) : Input := ⟨now, false, scan⟩

/-- The plans for tests. -/
def freePlan : Billing.Plan := ⟨0, .free, "Free", "", "usd", 0, 0, [], true⟩

def proPlan : Billing.Plan := ⟨1, .pro, "Pro", "", "usd", 2900, 29000, [], true⟩

/-- An organization that pays for the second plan. -/
def proSubscription (organizationId : Id) : Billing.Subscription where
  organizationId := organizationId
  planId := 1
  stripeSubscriptionId := s!"sub_{organizationId}"
  stripePriceId := "price_pro_monthly"
  stripeLatestInvoiceId := none
  interval := .monthly
  status := .active
  automaticTaxEnabled := false
  cancelAtPeriodEnd := false
  currentPeriodStart := 0
  currentPeriodEnd := 1000
  trialStart := none
  trialEnd := none
  gracePeriodEndsAt := none
  canceledAt := none
  endedAt := none
  lastStripeEventCreatedAt := 0

end ShipFlow.Files
