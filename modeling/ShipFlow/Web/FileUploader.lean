import ShipFlow.Machine.Run
import ShipFlow.Web.FileTransfer

/-! `useFileUploader`: uploads that go on while later calls start, retry, cancel or reset. -/

namespace ShipFlow.Web
open Files Machine

/-- What an asynchronous step fails with. -/
inductive Thrown where
  /-- a `DOMException` with the name `AbortError` -/
  | abort
  | error (message : String)
  deriving DecidableEq, Repr

inductive FileUploadPhase where
  | hashing
  | reserving
  | uploading
  | finalizing
  | success
  | error
  | canceled
  deriving DecidableEq, Repr

structure FileUploadTask where
  error : Option Thrown
  file : File
  phase : FileUploadPhase
  progress : Nat
  deriving DecidableEq, Repr

structure FileUploadReservation where
  fileId : Nat
  expiresAt : Int
  deriving DecidableEq, Repr

structure UploadContext where
  file : File
  reservation : FileUploadReservation
  transferred : Bool
  deriving DecidableEq, Repr

/-- A request of `uploadToSignedTarget`, with the operation and the file of its progress callback. -/
structure Transfer where
  operationId : Nat
  file : File
  result : Option (Except Thrown Unit)

/-- Where an operation waits. -/
inductive Await where
  | hashing (file : File) (mimeType : String)
  | reserving (file : File)
  | uploading (uploadContext transfer : Nat)
  | finalizing (uploadContext : Nat)
  | refreshing (uploadContext : Nat)
  deriving DecidableEq, Repr

inductive Target where
  | task
  | context
  | transfer
  deriving DecidableEq, Repr

/-- A write that an operation makes, and `operation.current` at that moment. -/
structure Write where
  operationId : Nat
  current : Nat
  target : Target
  deriving DecidableEq, Repr

/-- The state and the refs of the hook. The contexts and the transfers are kept, the refs are
numbers of them. `rendered` is the task that the callbacks of the last rendering see. -/
structure Uploader where
  operation : Nat
  task : Option FileUploadTask
  rendered : Option FileUploadTask
  context : Option Nat
  transfer : Option Nat
  contexts : List UploadContext
  transfers : List Transfer
  awaits : Nat → Option Await
  writes : List Write

inductive UploaderEvent where
  | start (file : File) (usage : Option FileUsage)
  | cancel
  | retry (now : Int)
  | reset
  | render
  | hashed (operationId : Nat) (result : Except Thrown String)
  | reserved (operationId : Nat) (result : Except Thrown FileUploadReservation) (now : Int)
  | progress (transfer progress : Nat)
  /-- the `load` or `error` event of a transfer -/
  | settled (transfer : Nat) (result : Except Thrown Unit)
  /-- an operation goes on after its transfer -/
  | transferred (operationId : Nat)
  | completed (operationId : Nat) (result : Except Thrown Unit)
  | refreshed (operationId : Nat) (result : Except Thrown Unit)

namespace Uploader

def initial : Uploader := ⟨0, none, none, none, none, [], [], fun _ => none, []⟩

/-! ## The writes of an operation -/

def setTask (operationId : Nat) (task : FileUploadTask) (u : Uploader) : Uploader :=
  { u with task := some task, writes := u.writes ++ [⟨operationId, u.operation, .task⟩] }

def setContext (operationId : Nat) (context : Option Nat) (u : Uploader) : Uploader :=
  { u with context := context, writes := u.writes ++ [⟨operationId, u.operation, .context⟩] }

def setTransfer (operationId : Nat) (transfer : Option Nat) (u : Uploader) : Uploader :=
  { u with transfer := transfer, writes := u.writes ++ [⟨operationId, u.operation, .transfer⟩] }

def wait (operationId : Nat) (await : Await) (u : Uploader) : Uploader :=
  { u with awaits := Function.update u.awaits operationId (some await) }

def finish (operationId : Nat) (u : Uploader) : Uploader :=
  { u with awaits := Function.update u.awaits operationId none }

/-! ## `continueUpload` -/

/-- `finally { if (isCurrent()) transfer.current = null }` -/
def leave (operationId : Nat) (u : Uploader) : Uploader :=
  (if u.operation = operationId then u.setTransfer operationId none else u).finish operationId

/-- The `catch` of `continueUpload`. -/
def continueFailed (operationId : Nat) (uploadContext : UploadContext) (thrown : Thrown)
    (u : Uploader) : Uploader :=
  if u.operation = operationId then
    match thrown with
    | .abort =>
      (u.setTask operationId ⟨none, uploadContext.file, .canceled, 0⟩).leave operationId
    | .error _ =>
      (u.setTask operationId ⟨some thrown, uploadContext.file, .error,
        if uploadContext.transferred then 100 else 0⟩).leave operationId
  else u.leave operationId

/-- The part after the transfer. -/
def completeUpload (operationId context : Nat) (uploadContext : UploadContext) (u : Uploader) :
    Uploader :=
  if u.operation = operationId then
    (u.setTask operationId ⟨none, uploadContext.file, .finalizing, 100⟩).wait operationId
      (.finalizing context)
  else u.leave operationId

def continueUpload (operationId context : Nat) (uploadContext : UploadContext) (now : Int)
    (u : Uploader) : Uploader :=
  if uploadContext.transferred then u.completeUpload operationId context uploadContext
  else if uploadContext.reservation.expiresAt ≤ now then
    u.continueFailed operationId uploadContext
      (.error "The upload reservation expired. Start the upload again.")
  else if u.operation = operationId then
    let u := u.setTask operationId ⟨none, uploadContext.file, .uploading, 0⟩
    let transfer := u.transfers.length
    let sent : Transfer := ⟨operationId, uploadContext.file, none⟩
    let u := { u with transfers := u.transfers ++ [sent] }
    (u.setTransfer operationId (some transfer)).wait operationId (.uploading context transfer)
  else u.leave operationId

/-! ## The calls -/

/-- `transfer.current?.cancel()`: a request that is not done is aborted. -/
def cancelTransfer (u : Uploader) : Uploader :=
  match u.transfer with
  | none => u
  | some transfer =>
    { u with
      transfers := u.transfers.modify transfer fun t =>
        { t with result := some (t.result.getD (.error .abort)) } }

/-- The `catch` of `start`. -/
def startFailed (operationId : Nat) (file : File) (thrown : Thrown) (u : Uploader) : Uploader :=
  (if u.operation = operationId then u.setTask operationId ⟨some thrown, file, .error, 0⟩
    else u).finish operationId

def start (toLowerCase : String → String) (file : File) (usage : Option FileUsage)
    (u : Uploader) : Uploader :=
  let operationId := u.operation + 1
  let u := { u with operation := operationId }
  let u := u.cancelTransfer.setContext operationId none
  match validateUploadFile toLowerCase file usage with
  | .error message => u.startFailed operationId file (.error message)
  | .ok mimeType =>
    (u.setTask operationId ⟨none, file, .hashing, 0⟩).wait operationId (.hashing file mimeType)

def cancel (u : Uploader) : Uploader :=
  let u := { u with operation := u.operation + 1 }
  { u.cancelTransfer with
    transfer := none
    task := u.task.map fun task => ⟨none, task.file, .canceled, task.progress⟩ }

def reset (u : Uploader) : Uploader :=
  let u := { u with operation := u.operation + 1 }
  { u.cancelTransfer with transfer := none, context := none, task := none }

def retry (toLowerCase : String → String) (now : Int) (u : Uploader) : Uploader :=
  match u.rendered with
  | none => u
  | some task =>
    match u.context.bind fun context => (u.contexts[context]?).map fun c => (context, c) with
    | none => u.start toLowerCase task.file none
    | some (context, uploadContext) =>
      if uploadContext.reservation.expiresAt > now then
        let operationId := u.operation + 1
        ({ u with operation := operationId }).continueUpload operationId context uploadContext now
      else u.start toLowerCase task.file none

/-! ## The asynchronous steps -/

def onHashed (operationId : Nat) (file : File) (result : Except Thrown String) (u : Uploader) :
    Uploader :=
  match result with
  | .error thrown => u.startFailed operationId file thrown
  | .ok _ =>
    if u.operation = operationId then
      (u.setTask operationId ⟨none, file, .reserving, 0⟩).wait operationId (.reserving file)
    else u.finish operationId

def onReserved (operationId : Nat) (file : File) (result : Except Thrown FileUploadReservation)
    (now : Int) (u : Uploader) : Uploader :=
  match result with
  | .error thrown => u.startFailed operationId file thrown
  | .ok reservation =>
    if u.operation = operationId then
      let context := u.contexts.length
      let uploadContext : UploadContext := ⟨file, reservation, false⟩
      let u := { u with contexts := u.contexts ++ [uploadContext] }
      (u.setContext operationId (some context)).continueUpload operationId context uploadContext now
    else u.finish operationId

/-- The progress callback of a transfer. -/
def onProgress (t : Transfer) (progress : Nat) (u : Uploader) : Uploader :=
  if u.operation = t.operationId then
    u.setTask t.operationId ⟨none, t.file, .uploading, progress⟩
  else u

def onSettled (transfer : Nat) (t : Transfer) (result : Except Thrown Unit) (u : Uploader) :
    Uploader :=
  let u := match result with
    | .ok () => u.onProgress t 100
    | .error _ => u
  { u with transfers := u.transfers.set transfer { t with result := some result } }

def onTransferred (operationId context : Nat) (uploadContext : UploadContext)
    (result : Except Thrown Unit) (u : Uploader) : Uploader :=
  match result with
  | .error thrown => u.continueFailed operationId uploadContext thrown
  | .ok () =>
    let uploadContext := { uploadContext with transferred := true }
    ({ u with contexts := u.contexts.set context uploadContext }).completeUpload operationId context
      uploadContext

def onCompleted (operationId context : Nat) (uploadContext : UploadContext)
    (result : Except Thrown Unit) (u : Uploader) : Uploader :=
  match result with
  | .error thrown => u.continueFailed operationId uploadContext thrown
  | .ok () =>
    if u.operation = operationId then u.wait operationId (.refreshing context)
    else u.leave operationId

def onRefreshed (operationId : Nat) (uploadContext : UploadContext) (result : Except Thrown Unit)
    (u : Uploader) : Uploader :=
  match result with
  | .error thrown => u.continueFailed operationId uploadContext thrown
  | .ok () =>
    -- no look at the current operation here
    let u := u.setContext operationId none
    (u.setTask operationId ⟨none, uploadContext.file, .success, 100⟩).leave operationId

def step (toLowerCase : String → String) (u : Uploader) : UploaderEvent → Option Uploader
  | .start file usage => some (u.start toLowerCase file usage)
  | .cancel => some u.cancel
  | .retry now => some (u.retry toLowerCase now)
  | .reset => some u.reset
  | .render => some { u with rendered := u.task }
  | .hashed operationId result =>
    match u.awaits operationId with
    | some (.hashing file _) => some (u.onHashed operationId file result)
    | _ => none
  | .reserved operationId result now =>
    match u.awaits operationId with
    | some (.reserving file) => some (u.onReserved operationId file result now)
    | _ => none
  -- a transfer goes on reporting when its operation is not the current one any more
  | .progress transfer progress =>
    (u.transfers[transfer]?).bind fun t =>
      if t.result.isNone then some (u.onProgress t progress) else none
  | .settled transfer result =>
    (u.transfers[transfer]?).bind fun t =>
      if t.result.isNone then some (u.onSettled transfer t result) else none
  | .transferred operationId =>
    match u.awaits operationId with
    | some (.uploading context transfer) =>
      (u.contexts[context]?).bind fun uploadContext =>
        ((u.transfers[transfer]?).bind Transfer.result).map fun result =>
          u.onTransferred operationId context uploadContext result
    | _ => none
  | .completed operationId result =>
    match u.awaits operationId with
    | some (.finalizing context) =>
      (u.contexts[context]?).map fun uploadContext =>
        u.onCompleted operationId context uploadContext result
    | _ => none
  | .refreshed operationId result =>
    match u.awaits operationId with
    | some (.refreshing context) =>
      (u.contexts[context]?).map fun uploadContext =>
        u.onRefreshed operationId uploadContext result
    | _ => none

/-! ## The guards -/

/-- An operation changes what the hook shows and keeps only by its writes, and makes them only
while it is the current one. -/
structure Guards (operationId : Nat) (u u' : Uploader) : Prop where
  operation : u'.operation = u.operation
  writes : ∃ ws, u'.writes = u.writes ++ ws ∧
    (∀ w ∈ ws, w.operationId = operationId ∧ w.current = operationId) ∧
    (u.operation ≠ operationId → ws = []) ∧
    (ws = [] → u'.task = u.task ∧ u'.context = u.context ∧ u'.transfer = u.transfer)

section Guards
variable {operationId : Nat} {u u' u'' : Uploader}

/-- A step that writes none of the three. -/
theorem Guards.silent (hoperation : u'.operation = u.operation) (hwrites : u'.writes = u.writes)
    (htask : u'.task = u.task) (hcontext : u'.context = u.context)
    (htransfer : u'.transfer = u.transfer) : Guards operationId u u' := by
  refine ⟨hoperation, [], ?_, ?_, fun _ => rfl, fun _ => ⟨htask, hcontext, htransfer⟩⟩
  · rw [hwrites, List.append_nil]
  · intro w hw
    cases hw

/-- A write of the current operation. -/
theorem Guards.write {w : Write} (hoperation : u'.operation = u.operation)
    (hwrites : u'.writes = u.writes ++ [w]) (hcurrent : u.operation = operationId)
    (hw : w = ⟨operationId, u.operation, w.target⟩) : Guards operationId u u' := by
  refine ⟨hoperation, [w], hwrites, ?_, fun hne => absurd hcurrent hne, fun hnil => by cases hnil⟩
  intro w' hw'
  rw [List.mem_singleton.mp hw', hw]
  exact ⟨rfl, hcurrent⟩

theorem Guards.trans (h : Guards operationId u u') (h' : Guards operationId u' u'') :
    Guards operationId u u'' := by
  obtain ⟨ws, hws, hby, hstale, hsame⟩ := h.writes
  obtain ⟨ws', hws', hby', hstale', hsame'⟩ := h'.writes
  refine ⟨h'.operation.trans h.operation, ws ++ ws', ?_, ?_, ?_, ?_⟩
  · rw [hws', hws, List.append_assoc]
  · intro w hw
    rcases List.mem_append.mp hw with hw | hw
    · exact hby w hw
    · exact hby' w hw
  · intro hne
    rw [hstale hne, hstale' (by rwa [h.operation]), List.append_nil]
  · intro hnil
    obtain ⟨hnil, hnil'⟩ := List.append_eq_nil_iff.mp hnil
    obtain ⟨htask, hcontext, htransfer⟩ := hsame hnil
    obtain ⟨htask', hcontext', htransfer'⟩ := hsame' hnil'
    exact ⟨htask'.trans htask, hcontext'.trans hcontext, htransfer'.trans htransfer⟩

theorem guards_setTask {task : FileUploadTask} (h : u.operation = operationId) :
    Guards operationId u (u.setTask operationId task) := .write rfl rfl h rfl

theorem guards_setContext {context : Option Nat} (h : u.operation = operationId) :
    Guards operationId u (u.setContext operationId context) := .write rfl rfl h rfl

theorem guards_setTransfer {transfer : Option Nat} (h : u.operation = operationId) :
    Guards operationId u (u.setTransfer operationId transfer) := .write rfl rfl h rfl

theorem guards_wait {await : Await} : Guards operationId u (u.wait operationId await) :=
  .silent rfl rfl rfl rfl rfl

theorem guards_finish : Guards operationId u (u.finish operationId) :=
  .silent rfl rfl rfl rfl rfl

theorem guards_leave : Guards operationId u (u.leave operationId) := by
  rw [leave]
  split
  · next h => exact (guards_setTransfer h).trans guards_finish
  · exact guards_finish

theorem guards_continueFailed {uploadContext : UploadContext} {thrown : Thrown} :
    Guards operationId u (u.continueFailed operationId uploadContext thrown) := by
  unfold continueFailed
  split
  · next h =>
    cases thrown with
    | abort => exact (guards_setTask h).trans guards_leave
    | error message => exact (guards_setTask h).trans guards_leave
  · exact guards_leave

theorem guards_completeUpload {context : Nat} {uploadContext : UploadContext} :
    Guards operationId u (u.completeUpload operationId context uploadContext) := by
  rw [completeUpload]
  split
  · next h => exact (guards_setTask h).trans guards_wait
  · exact guards_leave

theorem guards_continueUpload {context : Nat} {uploadContext : UploadContext} {now : Int} :
    Guards operationId u (u.continueUpload operationId context uploadContext now) := by
  rw [continueUpload]
  split
  · exact guards_completeUpload
  split
  · exact guards_continueFailed
  split
  · next h =>
    have hsent (v : Uploader) (sent : Transfer) :
        Guards operationId v { v with transfers := v.transfers ++ [sent] } :=
      .silent rfl rfl rfl rfl rfl
    exact (((guards_setTask h).trans (hsent _ _)).trans (guards_setTransfer h)).trans guards_wait
  · exact guards_leave

theorem guards_startFailed {file : File} {thrown : Thrown} :
    Guards operationId u (u.startFailed operationId file thrown) := by
  rw [startFailed]
  split
  · next h => exact (guards_setTask h).trans guards_finish
  · exact guards_finish

theorem guards_onHashed {file : File} {result : Except Thrown String} :
    Guards operationId u (u.onHashed operationId file result) := by
  cases result with
  | error thrown => exact guards_startFailed
  | ok checksumSha256 =>
    rw [onHashed]
    split
    · next h => exact (guards_setTask h).trans guards_wait
    · exact guards_finish

theorem guards_onReserved {file : File} {result : Except Thrown FileUploadReservation}
    {now : Int} : Guards operationId u (u.onReserved operationId file result now) := by
  cases result with
  | error thrown => exact guards_startFailed
  | ok reservation =>
    rw [onReserved]
    split
    · next h =>
      have hcontexts : Guards operationId u
          { u with contexts := u.contexts ++ [⟨file, reservation, false⟩] } :=
        .silent rfl rfl rfl rfl rfl
      exact (hcontexts.trans (guards_setContext h)).trans guards_continueUpload
    · exact guards_finish

theorem guards_onProgress {t : Transfer} {progress : Nat} :
    Guards t.operationId u (u.onProgress t progress) := by
  rw [onProgress]
  split
  · next h => exact guards_setTask h
  · exact .silent rfl rfl rfl rfl rfl

theorem guards_onSettled {transfer : Nat} {t : Transfer} {result : Except Thrown Unit} :
    Guards t.operationId u (u.onSettled transfer t result) := by
  have hsettled (v : Uploader) : Guards t.operationId v
      { v with transfers := v.transfers.set transfer { t with result := some result } } :=
    .silent rfl rfl rfl rfl rfl
  cases result with
  | error thrown => exact hsettled u
  | ok => exact guards_onProgress.trans (hsettled _)

theorem guards_onTransferred {context : Nat} {uploadContext : UploadContext}
    {result : Except Thrown Unit} :
    Guards operationId u (u.onTransferred operationId context uploadContext result) := by
  cases result with
  | error thrown => exact guards_continueFailed
  | ok =>
    have hcontexts : Guards operationId u
        { u with contexts := u.contexts.set context { uploadContext with transferred := true } } :=
      .silent rfl rfl rfl rfl rfl
    exact hcontexts.trans guards_completeUpload

theorem guards_onCompleted {context : Nat} {uploadContext : UploadContext}
    {result : Except Thrown Unit} :
    Guards operationId u (u.onCompleted operationId context uploadContext result) := by
  cases result with
  | error thrown => exact guards_continueFailed
  | ok =>
    rw [onCompleted]
    split
    · exact guards_wait
    · exact guards_leave

end Guards

/-- Every write was made by the operation that was the current one. -/
def Guarded (u : Uploader) : Prop := ∀ w ∈ u.writes, w.operationId = w.current

/-- A query refresh succeeds only for the current operation: no call of `start`, `retry`, `cancel`
or `reset` came in since the upload was completed. -/
def RefreshedInTime (u : Uploader) (e : UploaderEvent) : Prop :=
  ∀ operationId, e = .refreshed operationId (.ok ()) → u.operation = operationId

section Steps
variable {toLowerCase : String → String} {operationId : Nat} {u u' : Uploader} {e : UploaderEvent}

theorem Guards.guarded_iff (h : Guards operationId u u') : u'.Guarded ↔ u.Guarded := by
  obtain ⟨ws, hws, hby, -, -⟩ := h.writes
  rw [Guarded, Guarded, hws, List.forall_mem_append]
  refine and_iff_left fun w hw => ?_
  rw [(hby w hw).1, (hby w hw).2]

theorem guarded_iff_of_writes (h : u'.writes = u.writes) : u'.Guarded ↔ u.Guarded := by
  rw [Guarded, Guarded, h]

theorem cancelTransfer_writes : u.cancelTransfer.writes = u.writes := by
  unfold cancelTransfer
  split
  · rfl
  · rfl

theorem cancelTransfer_operation : u.cancelTransfer.operation = u.operation := by
  unfold cancelTransfer
  split
  · rfl
  · rfl

theorem start_guarded {file : File} {usage : Option FileUsage} :
    (u.start toLowerCase file usage).Guarded ↔ u.Guarded := by
  have hcalled : ({ u with operation := u.operation + 1 } : Uploader).cancelTransfer.Guarded ↔
      u.Guarded := guarded_iff_of_writes cancelTransfer_writes
  have hcontext : Guards (u.operation + 1)
      ({ u with operation := u.operation + 1 } : Uploader).cancelTransfer
      (({ u with operation := u.operation + 1 } : Uploader).cancelTransfer.setContext
        (u.operation + 1) none) := guards_setContext cancelTransfer_operation
  rw [← hcalled, start]
  split
  · exact (hcontext.trans guards_startFailed).guarded_iff
  · exact ((hcontext.trans (guards_setTask cancelTransfer_operation)).trans guards_wait).guarded_iff

theorem retry_guarded {now : Int} : (u.retry toLowerCase now).Guarded ↔ u.Guarded := by
  unfold retry
  split
  · rfl
  split
  · exact start_guarded
  split
  · exact guards_continueUpload.guarded_iff
  · exact start_guarded

/-- The two writes after the query refresh are not guarded. -/
theorem onRefreshed_guarded {uploadContext : UploadContext} :
    (u.onRefreshed operationId uploadContext (.ok ())).Guarded ↔
      u.Guarded ∧ u.operation = operationId := by
  have hleave : (u.onRefreshed operationId uploadContext (.ok ())).Guarded ↔
      ((u.setContext operationId none).setTask operationId
        ⟨none, uploadContext.file, .success, 100⟩).Guarded := guards_leave.guarded_iff
  rw [hleave, Guarded, Guarded]
  simp only [setTask, setContext, List.forall_mem_append, List.forall_mem_singleton]
  rw [and_assoc, and_self, eq_comm]

/-- The operation that makes an asynchronous step. -/
def stepping (u : Uploader) : UploaderEvent → Option Nat
  | .hashed operationId _ | .reserved operationId _ _ | .transferred operationId
  | .completed operationId _ | .refreshed operationId _ => some operationId
  | .progress transfer _ | .settled transfer _ => (u.transfers[transfer]?).map Transfer.operationId
  | _ => none

/-- What an asynchronous step does, the one after a query refresh apart. -/
theorem step_guards (h : step toLowerCase u e = some u') (hsteps : u.stepping e = some operationId)
    (hrefreshed : e ≠ .refreshed operationId (.ok ())) : Guards operationId u u' := by
  -- a callback compares its operation with the current one before it writes
  cases e with
  | start | cancel | retry | reset | render => cases hsteps
  | hashed k result =>
    cases hsteps
    rw [step] at h
    split at h
    · cases h
      exact guards_onHashed
    · cases h
  | reserved k result now =>
    cases hsteps
    rw [step] at h
    split at h
    · cases h
      exact guards_onReserved
    · cases h
  | progress transfer progress =>
    obtain ⟨t, ht, hrest⟩ := Option.bind_eq_some_iff.mp h
    rw [stepping, ht] at hsteps
    cases hsteps
    split at hrest
    · cases hrest
      exact guards_onProgress
    · cases hrest
  | settled transfer result =>
    obtain ⟨t, ht, hrest⟩ := Option.bind_eq_some_iff.mp h
    rw [stepping, ht] at hsteps
    cases hsteps
    split at hrest
    · cases hrest
      exact guards_onSettled
    · cases hrest
  | transferred k =>
    cases hsteps
    rw [step] at h
    split at h
    · obtain ⟨uploadContext, -, hrest⟩ := Option.bind_eq_some_iff.mp h
      obtain ⟨result, -, rfl⟩ := Option.map_eq_some_iff.mp hrest
      exact guards_onTransferred
    · cases h
  | completed k result =>
    cases hsteps
    rw [step] at h
    split at h
    · obtain ⟨uploadContext, -, rfl⟩ := Option.map_eq_some_iff.mp h
      exact guards_onCompleted
    · cases h
  | refreshed k result =>
    cases hsteps
    rw [step] at h
    split at h
    · obtain ⟨uploadContext, -, rfl⟩ := Option.map_eq_some_iff.mp h
      cases result with
      | error thrown => exact guards_continueFailed
      | ok => exact absurd rfl hrefreshed
    · cases h

/-- A stale operation leaves alone what the hook shows and keeps. -/
theorem stale_unchanged (h : step toLowerCase u e = some u')
    (hsteps : u.stepping e = some operationId) (hstale : u.operation ≠ operationId)
    (hrefreshed : e ≠ .refreshed operationId (.ok ())) :
    u'.task = u.task ∧ u'.context = u.context ∧ u'.transfer = u.transfer := by
  obtain ⟨ws, -, -, hnone, hsame⟩ := (step_guards h hsteps hrefreshed).writes
  exact hsame (hnone hstale)

theorem step_guarded (h : step toLowerCase u e = some u') :
    u'.Guarded ↔ u.Guarded ∧ RefreshedInTime u e := by
  -- only the callback of a refresh that has succeeded writes without the comparison
  by_cases hrefreshed : ∃ k, e = .refreshed k (.ok ())
  · obtain ⟨k, rfl⟩ := hrefreshed
    rw [step] at h
    split at h
    · obtain ⟨uploadContext, -, rfl⟩ := Option.map_eq_some_iff.mp h
      rw [onRefreshed_guarded]
      refine and_congr_right fun _ => ⟨fun hcurrent k' hk' => ?_, fun hintime => hintime k rfl⟩
      cases hk'
      exact hcurrent
    · cases h
  · have hintime : RefreshedInTime u e := fun k hk => absurd ⟨k, hk⟩ hrefreshed
    rw [and_iff_left hintime]
    cases hsteps : u.stepping e with
    | some k => exact (step_guards h hsteps fun hk => hrefreshed ⟨k, hk⟩).guarded_iff
    | none =>
      cases e with
      | start file usage =>
        cases h
        exact start_guarded
      | cancel =>
        cases h
        exact guarded_iff_of_writes cancelTransfer_writes
      | retry now =>
        cases h
        exact retry_guarded
      | reset =>
        cases h
        exact guarded_iff_of_writes cancelTransfer_writes
      | render =>
        cases h
        exact Iff.rfl
      | progress transfer progress =>
        obtain ⟨t, ht, -⟩ := Option.bind_eq_some_iff.mp h
        rw [stepping, ht] at hsteps
        cases hsteps
      | settled transfer result =>
        obtain ⟨t, ht, -⟩ := Option.bind_eq_some_iff.mp h
        rw [stepping, ht] at hsteps
        cases hsteps
      | hashed | reserved | transferred | completed | refreshed => cases hsteps

end Steps

/-- The uploader ignores stale operations, the end of a query refresh apart. -/
theorem stale_operations_ignored_iff (toLowerCase : String → String) (events : List UploaderEvent) (u : Uploader)
    (h : run (step toLowerCase) initial events = some u) :
    u.Guarded ↔ Along (step toLowerCase) RefreshedInTime initial events := by
  refine run_iff_along (J := fun _ => True) True.intro ?_ (fun _ _ _ _ _ => True.intro) ?_ h
  · intro w hw
    cases hw
  · intro t e t' _ ht
    exact step_guarded ht

instance (u : Uploader) : Decidable u.Guarded :=
  inferInstanceAs (Decidable (∀ w ∈ u.writes, w.operationId = w.current))

/-- An upload that is replaced by another, before or after it was completed. -/
def replacedUpload (early : Bool) : List UploaderEvent :=
  let replace : List UploaderEvent := [.start ⟨"second.txt", 2⟩ none, .hashed 2 (.ok "22"),
    .reserved 2 (.ok ⟨2, 900⟩) 20, .progress 1 50]
  [.start ⟨"first.txt", 1⟩ none, .hashed 1 (.ok "11"), .reserved 1 (.ok ⟨1, 900⟩) 10] ++
    (if early then replace else [.settled 0 (.ok ()), .transferred 1, .completed 1 (.ok ())]) ++
    (if early then [.transferred 1] else replace ++ [.refreshed 1 (.ok ())])

theorem guarded_replaced : ∃ u, run (step id) initial (replacedUpload true) = some u ∧
    u.context = some 1 ∧ Along (step id) RefreshedInTime initial (replacedUpload true) := by
  have hrun : (run (step id) initial (replacedUpload true)).any
      (fun u => decide (u.Guarded ∧ u.context = some 1)) = true := by decide +kernel
  obtain ⟨u, hu, hend⟩ := (Option.any_eq_true _ _).mp hrun
  have hend := of_decide_eq_true hend
  exact ⟨u, hu, hend.2, (stale_operations_ignored_iff id (replacedUpload true) u hu).mp hend.1⟩

theorem stale_refresh_writes : ∃ u, run (step id) initial (replacedUpload false) = some u ∧
    u.operation = 2 ∧ ¬ u.Guarded ∧ u.context = none ∧
      u.task = some ⟨none, ⟨"first.txt", 1⟩, .success, 100⟩ := by
  have hrun : (run (step id) initial (replacedUpload false)).any
      (fun u => decide (u.operation = 2 ∧ ¬ u.Guarded ∧ u.context = none ∧
        u.task = some ⟨none, ⟨"first.txt", 1⟩, .success, 100⟩)) = true := by decide +kernel
  obtain ⟨u, hu, hend⟩ := (Option.any_eq_true _ _).mp hrun
  exact ⟨u, hu, of_decide_eq_true hend⟩

end Uploader
end ShipFlow.Web
