import ShipFlow.Files.Validation

/-! `FilesService`, on either storage provider. -/

namespace ShipFlow.Files
open Interleaving Relational

structure InitiateFileUploadDto where
  fileName : String
  mimeType : String
  sizeBytes : Nat
  checksumSha256 : String
  deriving DecidableEq, Repr

structure LocalUpload where
  buffer : List UInt8
  mimetype : String
  size : Nat
  deriving DecidableEq, Repr

structure FileResponse where
  id : Id
  organizationId : Id
  originalName : String
  mimeType : String
  sizeBytes : Nat
  status : FileStatus
  malwareStatus : FileMalwareStatus
  storageProvider : FileStorageProvider
  uploadedBy : Option FileUploader
  uploadedAt : Option Time
  deletedAt : Option Time
  createdAt : Time
  deriving DecidableEq, Repr

inductive HttpMethod where
  | get
  | post
  | put
  deriving DecidableEq, Repr

structure FileUploadTarget where
  method : HttpMethod
  url : String
  headers : List (String × String)
  fileField : Option String
  expiresAt : Time
  deriving DecidableEq, Repr

structure FileDownloadTarget where
  method : HttpMethod
  url : String
  expiresAt : Time
  deriving DecidableEq, Repr

structure FileUsageResponse where
  usedBytes : Nat
  maxBytes : Nat
  usedFiles : Nat
  maxFiles : Nat
  deriving DecidableEq, Repr

structure LocalDownload where
  body : List UInt8
  fileName : String
  contentType : String
  deriving DecidableEq, Repr

def mapFile (file : StoredFile) (uploadedBy : Option FileUploader) : FileResponse where
  id := file.id
  organizationId := file.organizationId
  originalName := file.originalName
  mimeType := file.detectedMimeType.getD file.declaredMimeType
  sizeBytes := file.sizeBytes
  status := file.status
  malwareStatus := file.malwareStatus
  storageProvider := file.storageProvider
  uploadedBy := uploadedBy
  uploadedAt := file.uploadedAt
  deletedAt := file.deletedAt
  createdAt := file.createdAt

def Store.findUploader (s : Store) (userId : Id) : Option FileUploader :=
  s.users.find? fun u => u.id == userId

/-! ## Keys -/

/-- The class `[0-9a-f-]`. -/
def isKeyCharacter (c : Char) : Bool := isLowerHex c || c == '-'

/-- The expression `^objects(?:\/[0-9a-f-]{36})?(?:\/[0-9a-f-]{36})?$`. -/
def isObjectKey (key : String) : Bool :=
  match key.toList.splitOn '/' with
  | first :: segments => first == "objects".toList && segments.length ≤ 2 &&
      segments.all fun segment => segment.length == 36 && segment.all isKeyCharacter
  | [] => false

def isNumeral (segment : List Char) : Bool := !segment.isEmpty && segment.all Char.isDigit

/-- The key of a row, where numerals stand for the identifiers, which have 36 characters. -/
def isRowKey (key : String) : Bool :=
  match key.toList.splitOn '/' with
  | [first, organizationId, fileId] =>
    first == "objects".toList && isNumeral organizationId && isNumeral fileId
  | _ => false

variable (env : Environment)

/-- The keys on which `pathFor` of the local provider throws. -/
def Environment.refusesKey (key : String) : Bool :=
  env.provider == .local && !(isObjectKey key || isRowKey key)

/-! ## Storage -/

def storageCall {α : Type} (call : Input → Tx α) : Handler α :=
  Process.atomically
    (fun i =>
      if i.storageFailure then Transaction.fails (.error "File storage is unavailable") else call i)
    fun _ => []

def createUploadTarget (file : StoredFile) (now : Time) : FileUploadTarget :=
  let expiresAt := now + seconds FILE_UPLOAD_URL_TTL_SECONDS
  match env.provider with
  | .local =>
    let expires := expiresAt / 1000
    let signature := env.sign "upload" file.objectKey expires
    { method := .post
      url := s!"/api/v1/file-content/{file.id}?expires={expires}&signature={signature}"
      headers := []
      fileField := some "file"
      expiresAt := expiresAt }
  | .s3 =>
    { method := .put
      url := env.presignPut file.objectKey file.declaredMimeType FILE_UPLOAD_URL_TTL_SECONDS
      headers := [("Content-Type", file.declaredMimeType)]
      fileField := none
      expiresAt := expiresAt }

def targetFor (file : StoredFile) (now : Time) : FileDownloadTarget :=
  let expiresAt := now + seconds FILE_DOWNLOAD_URL_TTL_SECONDS
  match env.provider with
  | .local =>
    let expires := expiresAt / 1000
    let signature := env.sign "download" file.objectKey expires
    ⟨.get, s!"/api/v1/file-content/{file.id}?expires={expires}&signature={signature}", expiresAt⟩
  | .s3 =>
    ⟨.get, env.presignGet file.objectKey (file.detectedMimeType.getD file.declaredMimeType)
      file.originalName, expiresAt⟩

def verifyLocalSignature (action key : String) (expires : Int) (signature : String) (now : Time) :
    Bool :=
  match env.provider with
  | .local =>
    -- the safe integers
    (-9007199254740991 ≤ expires && expires ≤ 9007199254740991) && now / 1000 ≤ expires &&
      signature == env.sign action key expires
  | .s3 => false

def inspectObject (key : String) : Handler StoredObject :=
  storageCall fun _ => do
    let found ← Transaction.reads fun s : Store => s.objects.find? fun o => o.key == key
    match found with
    | none => Transaction.fails (.error "The object does not exist")
    | some object =>
      return match env.provider with
        -- the file system keeps no content type
        | .local => { object with contentType := none }
        | .s3 => object

def putObject (key : String) (body : List UInt8) (contentType : String) : Handler Unit :=
  storageCall fun i => Transaction.writes fun s : Store =>
    { s with
      objects := (s.objects.filter fun o => !(o.key == key)) ++ [⟨key, body, some contentType, i.now⟩] }

def removeObject (key : String) : Tx Unit :=
  if env.refusesKey key then Transaction.fails (.error "Invalid storage object key")
  else Transaction.writes fun s : Store =>
    { s with objects := s.objects.filter fun o => !(o.key == key) }

def deleteObject (key : String) : Handler Unit := storageCall fun _ => removeObject env key

inductive LifecycleState where
  | pending
  | scanning
  | ready
  | deleted
  | rejected
  deriving DecidableEq, Repr

/-- Neither provider keeps tags; the row is the ledger of the lifecycle. -/
def setLifecycleState (_key : String) (_state : LifecycleState) : Handler Unit :=
  storageCall fun _ => pure ()

/-! ## Rows -/

def findScopedFile (organizationId fileId : Id) : Handler (StoredFile × Option FileUploader) := do
  let found ← Process.query fun s : Store =>
    (s.storedFiles.find? fun f =>
      f.id == fileId && f.organizationId == organizationId && f.status != .purged).map fun f =>
        (f, s.findUploader f.uploadedById)
  match found with
  | none => throw (.http .notFound "File not found")
  | some file => return file

def findLocalFile (fileId : Id) : Handler StoredFile := do
  let found ← Process.query fun s : Store =>
    s.storedFiles.find? fun f => f.id == fileId && f.storageProvider == .local
  match found with
  | none => throw (.http .notFound "File not found")
  | some file => return file

/-- An update with `where: { id }`. -/
def update (t : Transition) : Handler (StoredFile × Option FileUploader) :=
  Process.atomically
    (fun _ => do
      let file ← storedFiles.update t.selects t.apply
      let uploadedBy ← Transaction.reads fun s : Store => s.findUploader file.uploadedById
      return (file, uploadedBy)) fun
    | .ok _ => [.updated t]
    | .error _ => []

def syncLifecycleState (fileId : Id) (objectKey : String) (state : LifecycleState) : Handler Unit :=
  tryCatch (setLifecycleState objectKey state) fun _ => do
    let _ ← update (.tagPostponed fileId)
    return ()

/-! ## Uploads -/

def StoredFile.retained (now : Time) (f : StoredFile) : Bool :=
  f.status == .scanning || f.status == .ready || f.status == .deleted ||
    (f.status == .pending && decide (now < f.reservationExpiresAt))

def StoredFile.reservation (now : Time) (f : StoredFile) : Bool :=
  f.status == .pending && decide (now < f.reservationExpiresAt)

def usage (organizationId : Id) (now : Time) (s : Store) : Nat × Nat :=
  let files := s.storedFiles.filter fun f => f.organizationId == organizationId && f.retained now
  ((files.map StoredFile.sizeBytes).sum, files.length)

/-- The identifier of `randomUUID()`, which never returns the same one twice, is first
seen by others here. -/
def reserve (organizationId userId : Id) (declaration : Declaration)
    (dto : InitiateFileUploadDto) (quota : FileQuota) (now : Time) :
    Tx (StoredFile × Option FileUploader) := do
  let (usedBytes, usedFiles) ← Transaction.reads (usage organizationId now)
  let activeOrganizationReservations ← storedFiles.count fun f =>
    f.organizationId == organizationId && f.reservation now
  let activeUserReservations ← storedFiles.count fun f =>
    f.organizationId == organizationId && f.uploadedById == userId && f.reservation now
  Transaction.rejectIf (usedBytes + dto.sizeBytes > quota.maxBytes || usedFiles + 1 > quota.maxFiles)
    (.http .conflict "Organization file storage quota would be exceeded")
  Transaction.rejectIf
    (activeOrganizationReservations ≥ FILE_MAX_ACTIVE_RESERVATIONS_PER_ORGANIZATION ||
      activeUserReservations ≥ FILE_MAX_ACTIVE_RESERVATIONS_PER_USER)
    (.http .conflict "Too many active file upload reservations")
  let id ← uuidv7
  let file ← storedFiles.create
    { id := id
      organizationId := organizationId
      uploadedById := userId
      storageProvider := env.provider
      objectKey := s!"objects/{organizationId}/{id}"
      originalName := declaration.fileName
      declaredMimeType := declaration.mimeType
      detectedMimeType := none
      sizeBytes := dto.sizeBytes
      checksumSha256 := dto.checksumSha256
      status := .pending
      malwareStatus := if env.scannerEnabled then .pending else .notRequired
      scanAttempts := 0
      reservationExpiresAt := now + FILE_RESERVATION_TTL_MS
      uploadedAt := none
      scanCompletedAt := none
      deletedAt := none
      purgeAfter := none
      purgedAt := none
      auditExpiresAt := none
      lastLifecycleError := none
      createdAt := now }
  let uploadedBy ← Transaction.reads fun s : Store => s.findUploader userId
  return (file, uploadedBy)

def initiateUpload (organizationId userId : Id) (dto : InitiateFileUploadDto) :
    Handler (FileResponse × FileUploadTarget) := do
  let declaration ← Process.ofExcept
    (validateDeclaration env dto.fileName dto.mimeType dto.sizeBytes)
  let snapshot ← Billing.getSnapshot Input.now organizationId
  let quota := FILE_PLAN_QUOTAS snapshot.plan.code
  let now ← Process.ask Input.now
  let (file, uploadedBy) ← Process.atomically
    (fun _ => reserve env organizationId userId declaration dto quota now) fun
    | .ok (file, _) => [.reserved file.id file.objectKey]
    | .error _ => []
  -- the row is there before its target, and is given up if there is none
  tryCatch
    (do
      let upload ← storageCall fun i => pure (createUploadTarget env file i.now)
      return (mapFile file uploadedBy, upload))
    fun _ => do
      let now ← Process.ask Input.now
      let _ ← update (.targetFailed file.id now)
      throw (.http .serviceUnavailable "File storage is temporarily unavailable")

/-- The checks of an uploaded object against its reservation. -/
def validateUpload (file : StoredFile) (object : StoredObject) : Except Failure ValidatedObject := do
  if object.contentType.any fun contentType =>
      !contentType.isEmpty && contentType != file.declaredMimeType then
    throw (.http .badRequest "Uploaded file content type does not match")
  validateObject env object.body file.originalName file.declaredMimeType file.sizeBytes
    file.checksumSha256

def Failure.text : Failure → String
  | .http _ message => message
  | .error message => message
  | _ => "File validation failed"

def completeUpload (organizationId fileId : Id) : Handler FileResponse := do
  let (file, uploadedBy) ← findScopedFile organizationId fileId
  if file.status == .ready || file.status == .scanning then
    -- a repeated call is answered as the first one was
    return mapFile file uploadedBy
  else
    Process.rejectIf (file.status != .pending)
      (.http .conflict "File upload cannot be completed in its current state")
    let clock ← Process.ask Input.now
    Process.rejectIf (decide (file.reservationExpiresAt ≤ clock))
      (.http .conflict "File upload reservation has expired")
    let object ← tryCatch (inspectObject env file.objectKey) fun _ =>
      throw (.http .badRequest "Uploaded object was not found")
    let now ← Process.ask Input.now
    match validateUpload env file object with
    | .error error => do
      -- the reason is cut to the width of its column
      let message := String.ofList ((Failure.text error).toList.take 500)
      let _ ← update (.uploadRejected file.id now message)
      syncLifecycleState file.id file.objectKey .rejected
      throw error
    | .ok validated => do
      let ready := !env.scannerEnabled
      let (updated, uploadedBy) ← update
        (.uploadCompleted file.id now validated.detectedMimeType ready)
      syncLifecycleState file.id file.objectKey (if ready then .ready else .scanning)
      return mapFile updated uploadedBy

def getFile (organizationId fileId : Id) : Handler FileResponse := do
  let (file, uploadedBy) ← findScopedFile organizationId fileId
  return mapFile file uploadedBy

def getUsage (organizationId : Id) : Handler FileUsageResponse := do
  let snapshot ← Billing.getSnapshot Input.now organizationId
  let now ← Process.ask Input.now
  let (usedBytes, usedFiles) ← Process.query (usage organizationId now)
  let quota := FILE_PLAN_QUOTAS snapshot.plan.code
  return ⟨usedBytes, quota.maxBytes, usedFiles, quota.maxFiles⟩

/-! ## Downloads -/

/-- Reads the row of a file for a download. -/
def readForDownload (p : StoredFile → Bool) : Handler (Option StoredFile) :=
  Process.atomically (fun _ => storedFiles.findFirst p) fun
    | .ok (some file) => if file.status == .ready then [.foundReady file.id file.objectKey] else []
    | _ => []

/-- The answer of a download request leaves the service. -/
def handOut (file : StoredFile) : Handler Unit :=
  Process.atomically (fun _ => pure ()) fun _ => [.handedOut file.id file.objectKey]

def createDownloadTarget (organizationId fileId : Id) : Handler FileDownloadTarget := do
  let found ← readForDownload fun f =>
    f.id == fileId && f.organizationId == organizationId && f.status != .purged
  match found with
  | none => throw (.http .notFound "File not found")
  | some file =>
    Process.rejectIf (file.status != .ready) (.http .conflict "File is not ready for download")
    let target ← storageCall fun i => pure (targetFor env file i.now)
    handOut file
    return target

def readLocalDownload (fileId : Id) (expires : Int) (signature : String) :
    Handler LocalDownload := do
  Process.rejectIf (env.provider != .local)
    (.http .notFound "Local file download endpoint is unavailable")
  let found ← readForDownload fun f => f.id == fileId && f.storageProvider == .local
  match found with
  | none => throw (.http .notFound "File not found")
  | some file =>
    let clock ← Process.ask Input.now
    Process.rejectIf (!verifyLocalSignature env "download" file.objectKey expires signature clock)
      (.http .badRequest "Signed download URL is invalid or expired")
    Process.rejectIf (file.status != .ready) (.http .notFound "File not found")
    let object ← inspectObject env file.objectKey
    handOut file
    return ⟨object.body, file.originalName, file.detectedMimeType.getD file.declaredMimeType⟩

def storeLocalUpload (fileId : Id) (expires : Int) (signature : String) (upload : LocalUpload) :
    Handler Unit := do
  Process.rejectIf (env.provider != .local)
    (.http .notFound "Local file upload endpoint is unavailable")
  let file ← findLocalFile fileId
  let clock ← Process.ask Input.now
  Process.rejectIf (!verifyLocalSignature env "upload" file.objectKey expires signature clock)
    (.http .badRequest "Signed upload URL is invalid or expired")
  let now ← Process.ask Input.now
  Process.rejectIf (file.status != .pending || decide (file.reservationExpiresAt < now))
    (.http .conflict "File upload reservation is no longer active")
  Process.rejectIf (upload.mimetype != file.declaredMimeType || upload.size != file.sizeBytes)
    (.http .badRequest "Uploaded file metadata does not match the reservation")
  let _ ← Process.ofExcept (validateObject env upload.buffer file.originalName file.declaredMimeType
    file.sizeBytes file.checksumSha256)
  putObject file.objectKey upload.buffer file.declaredMimeType

/-! ## Deletion and recovery -/

def deleteFile (organizationId fileId : Id) : Handler FileResponse := do
  let (file, uploadedBy) ← findScopedFile organizationId fileId
  if file.status == .deleted then
    return mapFile file uploadedBy
  else if file.status == .pending then
    -- there is nothing to recover yet, so the object goes first
    deleteObject env file.objectKey
    let now ← Process.ask Input.now
    let (purged, uploadedBy) ← update (.reservationDropped file.id now)
    return mapFile purged uploadedBy
  else
    Process.rejectIf (file.status != .ready && file.status != .scanning)
      (.http .conflict "File cannot be deleted in its current state")
    let now ← Process.ask Input.now
    let (deleted, uploadedBy) ← update (.deleted file.id now)
    syncLifecycleState file.id file.objectKey .deleted
    return mapFile deleted uploadedBy

def restoreFile (organizationId fileId : Id) : Handler FileResponse := do
  let (file, _) ← findScopedFile organizationId fileId
  Process.rejectIf (file.status != .deleted || file.purgeAfter.isNone)
    (.http .conflict "File is not recoverable")
  let now ← Process.ask Input.now
  Process.rejectIf (file.purgeAfter.any fun purgeAfter => purgeAfter ≤ now)
    (.http .conflict "File recovery period has expired")
  -- any result but a pending one makes the file ready
  let status := if file.malwareStatus == .pending then .scanning else .ready
  let (restored, uploadedBy) ← update (.restored file.id status)
  syncLifecycleState file.id file.objectKey (if status == .ready then .ready else .scanning)
  return mapFile restored uploadedBy

end ShipFlow.Files
