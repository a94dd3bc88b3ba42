import ShipFlow.Interleaving.Isolation
import ShipFlow.Files.Effects

/-! What a file request does to the table when it runs alone, at one instant. -/

namespace ShipFlow.Files
open Interleaving Interleaving.Process Relational

abbrev FileStep := Step Request Input Store Event Failure Response

def Request.organizationId : Request → Option Id
  | .initiateUpload organizationId _ _ => some organizationId
  | .completeUpload organizationId _ => some organizationId
  | .getFile organizationId _ => some organizationId
  | .getUsage organizationId => some organizationId
  | .createDownloadTarget organizationId _ => some organizationId
  | .deleteFile organizationId _ => some organizationId
  | .restoreFile organizationId _ => some organizationId
  | _ => none

/-- The updates of the timer. -/
def Transition.maintenance : Transition → Bool
  | .scanClean _ _ | .scanInfected _ _ | .scanInconclusive _ _ _ | .scanUnreadable _ _
  | .scanFailed _ _ _ _ | .tagUpdated _ | .purged _ _ | .purgePostponed _ => true
  | _ => false

/-- The state in which a request has found the file when it issues an update. -/
def Transition.Expects (now : Time) (f : StoredFile) : Transition → Prop
  | .uploadRejected _ _ _ => f.status = .pending
  | .uploadCompleted _ _ _ _ => f.status = .pending ∧ now < f.reservationExpiresAt
  | .reservationDropped _ _ => f.status = .pending
  | .deleted _ _ => f.status = .ready ∨ f.status = .scanning
  | .restored _ status => f.status = .deleted ∧ (status = .ready ∨ status = .scanning)
  | _ => True

/-- A request of an organization updates a file of this organization that it has found. -/
def Transition.Justified (organizationId : Option Id) (now : Time) (w : World) (t : Transition) :
    Prop :=
  match organizationId with
  | none => t.maintenance = true
  | some organizationId => ∃ f ∈ w.store.storedFiles, f.id = t.fileId ∧
      f.organizationId = organizationId ∧ t.maintenance = false ∧ t.Expects now f

/-- One step of a request of an organization, or of the timer. -/
inductive Deed (env : Environment) (organizationId : Option Id) (planCode : PlanCode) (now : Time)
    (w w' : World) : Prop where
  | elsewhere (hfiles : w'.store.storedFiles = w.store.storedFiles)
      (hnext : w'.store.nextId = w.store.nextId)
  | reserved (owner : Id) (file : StoredFile) (howner : organizationId = some owner)
      (hid : file.id = w.store.nextId) (horganization : file.organizationId = owner)
      (hstatus : file.status = .pending)
      (hadmits : w.store.Admits owner file.uploadedById file.sizeBytes (FILE_PLAN_QUOTAS planCode) now)
      (hfiles : w'.store.storedFiles = w.store.storedFiles ++ [file])
      (hnext : w'.store.nextId = w.store.nextId + 1)
  | updated (t : Transition) (hjustified : t.Justified organizationId now w)
      (hfiles : w'.store.storedFiles = updateRows t.selects t.apply w.store.storedFiles)
      (hnext : w'.store.nextId = w.store.nextId)
  | audited (p : StoredFile → Bool) (howner : organizationId = none)
      (hfiles : w'.store.storedFiles = w.store.storedFiles.filter fun f => !p f)
      (hnext : w'.store.nextId = w.store.nextId)

/-- The inputs of a request that runs at one instant. -/
abbrev Instant (now : Time) (i : Input) : Prop := i.now = now

/-- The entitlements give the organization this plan, if any. -/
def Store.Provides (s : Store) (organizationId : Id) (now : Time) (planCode : PlanCode) : Prop :=
  ∀ state, Billing.snapshot s organizationId now = some state → state.plan.code = planCode

section Steps
variable {env : Environment} {owner : Option Id} {planCode : PlanCode} {now : Time} {pid : Nat}
  {w : World} {α : Type}

/-- Neither the table nor the generator has changed. -/
def SameFiles (w w' : World) : Prop :=
  w'.store.storedFiles = w.store.storedFiles ∧ w'.store.nextId = w.store.nextId

theorem SameFiles.deed {w' : World} (h : SameFiles w w') : Deed env owner planCode now w w' :=
  .elsewhere h.1 h.2

theorem storageCall_ends {call : Input → Tx α}
    (h : ∀ i a s', call i w.store = .ok (a, s') → SameFiles w ⟨s', w.trace⟩) :
    Ends (Instant now) pid (fun _ w' => SameFiles w w') (storageCall call) w := by
  unfold storageCall
  rw [← Process.bind_pure (Process.atomically _ _)]
  refine Ends.commit (fun _ => rfl) (fun i _ a s' hm => ?_) fun _ _ _ _ => ⟨rfl, rfl⟩
  cases hfailure : i.storageFailure with
  | true => simp [hfailure] at hm
  | false =>
    simp only [hfailure, Bool.false_eq_true, if_false] at hm
    exact h i a s' hm

theorem inspectObject_ends (key : String) :
    Ends (Instant now) pid (fun _ w' => SameFiles w w') (inspectObject env key) w := by
  apply storageCall_ends
  intro i a s' hm
  simp only [Transaction.bind_ok, Transaction.reads_ok] at hm
  obtain ⟨found, _, ⟨-, rfl⟩, hm⟩ := hm
  cases found with
  | none => simp at hm
  | some object =>
    obtain ⟨-, rfl⟩ := (Transaction.pure_ok _ _ _ _).mp hm
    exact ⟨rfl, rfl⟩

theorem putObject_ends (key : String) (body : List UInt8) (contentType : String) :
    Ends (Instant now) pid (fun _ w' => SameFiles w w')
      (putObject key body contentType) w := by
  apply storageCall_ends
  intro i a s' hm
  rw [(Transaction.writes_ok _ _ _ _).mp hm]
  exact ⟨rfl, rfl⟩

theorem deleteObject_ends (key : String) :
    Ends (Instant now) pid (fun _ w' => SameFiles w w') (deleteObject env key) w := by
  apply storageCall_ends
  intro i a s' hm
  rw [(removeObject_ok.mp hm).2]
  exact ⟨rfl, rfl⟩

theorem setLifecycleState_ends (key : String) (state : LifecycleState) :
    Ends (Instant now) pid (fun _ w' => SameFiles w w') (setLifecycleState key state) w := by
  apply storageCall_ends
  intro i a s' hm
  obtain ⟨-, rfl⟩ := (Transaction.pure_ok _ _ _ _).mp hm
  exact ⟨rfl, rfl⟩

/-- A request that leaves the table alone. -/
theorem follows_same {p : Handler α}
    (h : Ends (Instant now) pid (fun _ w' => SameFiles w w') p w) :
    Follows (Instant now) pid (Deed env owner planCode now) p w :=
  h.mono fun _ _ hw => .single hw.deed

theorem update_ends {t : Transition} (hjustified : t.Justified owner now w) :
    Ends (Instant now) pid
      (fun r w' => Relation.ReflTransGen (Deed env owner planCode now) w w' ∧ ∀ b, r = .ok b →
        w'.store.storedFiles = updateRows t.selects t.apply w.store.storedFiles) (update t) w := by
  unfold update
  rw [← Process.bind_pure (Process.atomically _ _)]
  refine Ends.commit (fun _ => rfl) (fun i _ r s' hm => ?_) fun _ _ e _ => ?_
  · simp only [Transaction.bind_ok, Transaction.pure_ok, Transaction.reads_ok] at hm
    obtain ⟨_, _, hu, _, _, ⟨-, rfl⟩, -, rfl⟩ := hm
    obtain ⟨_, -, -, -, rfl⟩ := Table.update_ok.mp hu
    exact Ends.pure ⟨.single (.updated t hjustified rfl rfl), fun _ _ => rfl⟩
  · refine ⟨.refl, fun b hb => ?_⟩
    cases hb

theorem update_follows {t : Transition} (hjustified : t.Justified owner now w) :
    Follows (Instant now) pid (Deed env owner planCode now) (update t) w :=
  (update_ends hjustified).mono fun _ _ h => h.1

theorem updateScanning_follows {t : Transition} (hjustified : t.Justified owner now w) :
    Follows (Instant now) pid (Deed env owner planCode now) (updateScanning t) w := by
  unfold updateScanning
  refine Follows.commit (fun _ => rfl) fun i _ n s' hm => ?_
  obtain ⟨-, -, rfl⟩ := Table.updateMany_ok.mp hm
  exact ⟨.single (.updated t hjustified rfl rfl), Follows.pure⟩

/-! ## Requests of an organization -/

/-- The organization has a file with this identifier. -/
def Present (organizationId fileId : Id) (w : World) : Prop :=
  ∃ f ∈ w.store.storedFiles, f.id = fileId ∧ f.organizationId = organizationId

theorem Transition.apply_organization (t : Transition) (f : StoredFile) :
    (t.apply f).organizationId = f.organizationId ∧ (t.apply f).uploadedById = f.uploadedById ∧
      (t.apply f).sizeBytes = f.sizeBytes ∧
      (t.apply f).reservationExpiresAt = f.reservationExpiresAt := by
  cases t <;> exact ⟨rfl, rfl, rfl, rfl⟩

theorem Present.updated {organizationId fileId : Id} (h : Present organizationId fileId w)
    {w' : World} {t : Transition}
    (hfiles : w'.store.storedFiles = updateRows t.selects t.apply w.store.storedFiles) :
    Present organizationId fileId w' := by
  obtain ⟨f, hf, hid, horg⟩ := h
  unfold Present
  rw [hfiles]
  cases hp : t.selects f with
  | false => exact ⟨f, mem_updateRows.mpr (.inl ⟨hf, hp⟩), hid, horg⟩
  | true =>
    exact ⟨t.apply f, mem_updateRows.mpr (.inr ⟨f, hf, hp, rfl⟩), (t.apply_keys f).1.trans hid,
      (t.apply_organization f).1.trans horg⟩

theorem SameFiles.present {organizationId fileId : Id} {w' : World} (h : SameFiles w w')
    (hpresent : Present organizationId fileId w) : Present organizationId fileId w' := by
  unfold Present
  rw [h.1]
  exact hpresent

variable {organizationId fileId : Id}

theorem syncLifecycleState_follows {objectKey : String} {state : LifecycleState}
    (h : Present organizationId fileId w) :
    Follows (Instant now) pid (Deed env (some organizationId) planCode now)
      (syncLifecycleState fileId objectKey state) w := by
  apply Ends.handle
  apply (setLifecycleState_ends objectKey state).mono
  intro r w' hsame
  cases r with
  | ok u => exact .single hsame.deed
  | error e =>
    obtain ⟨f, hf, hid, horg⟩ := hsame.present h
    have hpostponed : Follows (Instant now) pid (Deed env (some organizationId) planCode now)
        (update (.tagPostponed fileId)) w' := update_follows ⟨f, hf, hid, horg, rfl, True.intro⟩
    exact (hpostponed.bind fun _ _ => Follows.pure).after (.single hsame.deed)

theorem findScopedFile_follows {k : StoredFile × Option FileUploader → Handler α}
    (hk : ∀ file ∈ w.store.storedFiles, file.id = fileId → file.organizationId = organizationId →
      ∀ uploadedBy, Follows (Instant now) pid (Deed env owner planCode now)
        (k (file, uploadedBy)) w) :
    Follows (Instant now) pid (Deed env owner planCode now)
      (findScopedFile organizationId fileId >>= k) w := by
  rw [findScopedFile, Process.bind_assoc]
  refine Follows.query ?_
  cases hfound : w.store.storedFiles.find? fun f =>
      f.id == fileId && f.organizationId == organizationId && f.status != .purged with
  | none => exact Follows.throw
  | some file =>
    have hkeys := List.find?_some hfound
    simp only [Bool.and_eq_true, beq_iff_eq] at hkeys
    exact hk file (List.mem_of_find?_eq_some hfound) hkeys.1.1 hkeys.1.2 _

/-- An update of a file that was found, and what is left to do for its object. -/
theorem update_sync {t : Transition} {f : StoredFile} (hf : f ∈ w.store.storedFiles)
    (hid : f.id = t.fileId) (horg : f.organizationId = organizationId)
    (hkind : t.maintenance = false) (hexpects : t.Expects now f)
    {k : StoredFile × Option FileUploader → Handler α}
    (hk : ∀ b w', Present organizationId f.id w' →
      Follows (Instant now) pid (Deed env (some organizationId) planCode now) (k b) w') :
    Follows (Instant now) pid (Deed env (some organizationId) planCode now)
      (update t >>= k) w := by
  have hjustified : t.Justified (some organizationId) now w := ⟨f, hf, hid, horg, hkind, hexpects⟩
  apply Follows.learn (K := fun _ w' => Present organizationId f.id w')
  · refine (update_ends hjustified).mono fun r w' h => ⟨h.1, fun b hb => ?_⟩
    have hpresent : Present organizationId f.id w := ⟨f, hf, rfl, horg⟩
    exact hpresent.updated (h.2 b hb)
  · exact hk

theorem initiateUpload_follows {userId : Id} {dto : InitiateFileUploadDto}
    (hplan : w.store.Provides organizationId now planCode) :
    Follows (Instant now) pid (Deed env (some organizationId) planCode now)
      (initiateUpload env organizationId userId dto) w := by
  unfold initiateUpload
  refine Follows.ofExcept fun declaration _ => ?_
  have hclock : ∀ i, Instant now i → i.now = now := fun _ hi => hi
  refine Ends.bind ((Billing.getSnapshot_ends hclock).mono fun found u hfound => ?_)
  obtain ⟨rfl, hfound⟩ := hfound
  cases found with
  | error e => exact .refl
  | ok state =>
  refine Follows.ask fun j hj => ?_
  rw [hplan state ((hfound state).mp rfl), hj]
  refine Follows.commit (fun _ => rfl) fun _ _ r s' hm => ?_
  obtain ⟨hid, hstatus, -, horg, huser, hsize, hadmits, -, rfl⟩ := reserve_ok hm
  obtain ⟨file, uploadedBy⟩ := r
  rw [← huser, ← hsize] at hadmits
  refine ⟨.single (.reserved organizationId file rfl hid horg hstatus hadmits rfl rfl), ?_⟩
  have hpresent : Present organizationId file.id
      (u.advance pid ({ u.store with
          nextId := u.store.nextId + 1
          storedFiles := u.store.storedFiles ++ [file] }, [.reserved file.id file.objectKey])) :=
    ⟨file, List.mem_append_right _ (List.mem_singleton_self _), rfl, horg⟩
  apply Ends.handle
  apply Ends.bind
  refine Ends.mono (storageCall_ends fun i a s' hm => ?_) ?_
  rotate_left
  · intro r w' hsame
    cases r with
    | ok upload => exact .single hsame.deed
    | error e =>
      obtain ⟨f, hf, hid', horg'⟩ := hsame.present hpresent
      refine Follows.after (Follows.ask fun _ _ => ?_) (.single hsame.deed)
      exact Follows.bind (update_follows ⟨f, hf, hid', horg', rfl, True.intro⟩)
        fun _ _ => Follows.throw
  · obtain ⟨-, rfl⟩ := (Transaction.pure_ok _ _ _ _).mp hm
    exact ⟨rfl, rfl⟩

theorem completeUpload_follows :
    Follows (Instant now) pid (Deed env (some organizationId) planCode now)
      (completeUpload env organizationId fileId) w := by
  unfold completeUpload
  refine findScopedFile_follows fun file hfile hid horg uploadedBy => ?_
  simp only
  split
  · exact Follows.pure
  · refine Follows.rejectIf fun hpending => Follows.ask fun i hi => Follows.rejectIf fun hactive => ?_
    have hstatus : file.status = .pending := by simpa using hpending
    have hexpires : now < file.reservationExpiresAt := by simpa [hi] using hactive
    apply Follows.learn (K := fun _ w' => SameFiles w w')
    · apply Ends.handle
      apply Ends.mono (inspectObject_ends file.objectKey)
      intro r w' hsame
      cases r with
      | ok object => exact ⟨.single hsame.deed, fun _ _ => hsame⟩
      | error e => exact ⟨.single hsame.deed, nofun⟩
    · intro object w' hsame
      have hfile' : file ∈ w'.store.storedFiles := by
        rw [hsame.1]
        exact hfile
      refine Follows.ask fun j _ => ?_
      split
      · refine update_sync hfile' rfl horg rfl ?_ fun _ w₁ hpresent => ?_
        · exact hstatus
        · exact Follows.bind (syncLifecycleState_follows hpresent) fun _ _ => Follows.throw
      · refine update_sync hfile' rfl horg rfl ?_ fun _ w₁ hpresent => ?_
        · exact ⟨hstatus, hexpires⟩
        · exact Follows.bind (syncLifecycleState_follows hpresent) fun _ _ => Follows.pure

theorem deleteFile_follows :
    Follows (Instant now) pid (Deed env (some organizationId) planCode now)
      (deleteFile env organizationId fileId) w := by
  unfold deleteFile
  refine findScopedFile_follows fun file hfile hid horg uploadedBy => ?_
  simp only
  split
  · exact Follows.pure
  · split
    · next hpending =>
      have hstatus : file.status = .pending := by simpa using hpending
      apply Follows.learn (K := fun _ w' => SameFiles w w')
      · exact (deleteObject_ends file.objectKey).mono fun _ _ hsame =>
          ⟨.single hsame.deed, fun _ _ => hsame⟩
      · intro _ w' hsame
        have hfile' : file ∈ w'.store.storedFiles := by
          rw [hsame.1]
          exact hfile
        refine Follows.ask fun _ _ => update_sync hfile' rfl horg rfl ?_ fun _ _ _ => Follows.pure
        exact hstatus
    · refine Follows.rejectIf fun hkept => Follows.ask fun _ _ => ?_
      have hstatus : file.status = .ready ∨ file.status = .scanning := by
        simp only [Bool.and_eq_false_iff, bne_eq_false_iff_eq] at hkept
        exact hkept
      refine update_sync hfile rfl horg rfl ?_ fun _ w₁ hpresent => ?_
      · exact hstatus
      · exact Follows.bind (syncLifecycleState_follows hpresent) fun _ _ => Follows.pure

theorem restoreFile_follows :
    Follows (Instant now) pid (Deed env (some organizationId) planCode now)
      (restoreFile organizationId fileId) w := by
  unfold restoreFile
  refine findScopedFile_follows fun file hfile hid horg uploadedBy => ?_
  refine Follows.rejectIf fun hdeleted => Follows.ask fun _ _ => Follows.rejectIf fun _ => ?_
  have hstatus : file.status = .deleted := by
    simp only [Bool.or_eq_false_iff, bne_eq_false_iff_eq] at hdeleted
    exact hdeleted.1
  refine update_sync hfile rfl horg rfl ?_ fun _ w₁ hpresent => ?_
  · refine ⟨hstatus, ?_⟩
    split
    · exact .inr rfl
    · exact .inl rfl
  · exact Follows.bind (syncLifecycleState_follows hpresent) fun _ _ => Follows.pure

/-! ## The timer -/

theorem setLifecycleState_follows (objectKey : String) (state : LifecycleState) :
    Follows (Instant now) pid (Deed env owner planCode now)
      (setLifecycleState objectKey state) w := follows_same (setLifecycleState_ends objectKey state)

theorem failScan_follows (malwareStatus : FileMalwareStatus) (scanAttempts : Nat) :
    Follows (Instant now) pid (Deed env none planCode now)
      (failScan fileId malwareStatus scanAttempts) w :=
  Follows.ask fun _ _ => updateScanning_follows rfl

theorem applyScanResult_follows (attempts : Nat) (result : MalwareScanResult) :
    Follows (Instant now) pid (Deed env none planCode now)
      (applyScanResult fileId attempts result) w := by
  have htag : ∀ state w', Follows (Instant now) pid (Deed env none planCode now)
      (tagScanned fileId state) w' := by
    intro state w'
    unfold tagScanned
    refine Follows.query ?_
    split
    · exact Follows.pure
    · exact setLifecycleState_follows _ _
  cases result with
  | clean =>
    exact Follows.bind (htag _ _) fun _ _ => Follows.ask fun _ _ => updateScanning_follows rfl
  | infected =>
    exact Follows.bind (htag _ _) fun _ _ => Follows.ask fun _ _ => updateScanning_follows rfl
  | unsupported =>
    change Follows _ _ _ (if _ then _ else _) w
    split
    · exact failScan_follows _ _
    · exact updateScanning_follows rfl
  | failed =>
    change Follows _ _ _ (if _ then _ else _) w
    split
    · exact failScan_follows _ _
    · exact updateScanning_follows rfl

theorem scan_ends (file : StoredFile) (body : List UInt8) :
    Ends (Instant now) pid (fun _ w' => SameFiles w w') (scan file body) w := by
  unfold scan
  rw [← Process.bind_pure (Process.atomically _ _)]
  refine Ends.commit (fun _ => rfl) (fun i _ result s' hm => ?_) fun _ _ _ _ => ⟨rfl, rfl⟩
  cases hscan : i.scan with
  | none => simp [hscan] at hm
  | some verdict =>
    simp only [hscan] at hm
    obtain ⟨-, rfl⟩ := (Transaction.pure_ok _ _ _ _).mp hm
    exact ⟨rfl, rfl⟩

theorem processScan_follows (file : StoredFile) :
    Follows (Instant now) pid (Deed env none planCode now) (processScan env file) w := by
  unfold processScan
  refine Follows.ask fun _ _ => ?_
  split
  · exact failScan_follows _ _
  · refine Follows.handle ?_ fun _ w' => ?_
    · exact Follows.bind (follows_same (inspectObject_ends _)) fun _ _ =>
        Follows.bind (follows_same (scan_ends _ _)) fun _ _ => applyScanResult_follows _ _
    · change Follows _ _ _ (if _ then _ else _) w'
      split
      · exact failScan_follows _ _
      · exact updateScanning_follows rfl

theorem retryLifecycleTag_follows (file : StoredFile) :
    Follows (Instant now) pid (Deed env none planCode now) (retryLifecycleTag file) w := by
  unfold retryLifecycleTag
  split
  · exact Follows.pure
  · exact Follows.handle (Follows.bind (setLifecycleState_follows _ _) fun _ _ =>
      Follows.bind (update_follows rfl) fun _ _ => Follows.pure) fun _ _ => Follows.pure

theorem purgeExpiredRecord_follows (file : StoredFile) :
    Follows (Instant now) pid (Deed env none planCode now) (purgeExpiredRecord env file) w := by
  unfold purgeExpiredRecord
  refine Follows.handle (Follows.bind (follows_same (deleteObject_ends _)) fun _ _ =>
    Follows.ask fun _ _ => Follows.bind (update_follows rfl) fun _ _ => Follows.pure) fun _ _ => ?_
  exact Follows.bind (update_follows rfl) fun _ _ => Follows.pure

theorem deleteAudited_follows :
    Follows (Instant now) pid (Deed env none planCode now) deleteAudited w := by
  unfold deleteAudited
  refine Follows.ask fun _ _ => Follows.commit (fun _ => rfl) fun _ _ n s' hm => ?_
  obtain ⟨-, rfl⟩ := Table.deleteMany_ok.mp hm
  exact ⟨.single (.audited _ rfl rfl rfl), Follows.pure⟩

theorem maintain_follows :
    Follows (Instant now) pid (Deed env none planCode now) (maintain env) w := by
  have hscans : ∀ w', Follows (Instant now) pid (Deed env none planCode now)
      (processScans env) w' := by
    intro w'
    unfold processScans
    split
    · exact Follows.query (Follows.forEach fun file _ _ => processScan_follows file)
    · exact Follows.pure
  refine Follows.handle (Follows.bind (hscans w) fun _ _ => Follows.bind ?_ fun _ _ =>
    Follows.bind ?_ fun _ _ => deleteAudited_follows) fun _ _ => Follows.pure
  · exact Follows.query (Follows.forEach fun file _ _ => retryLifecycleTag_follows file)
  · exact Follows.ask fun _ _ =>
      Follows.query (Follows.forEach fun file _ _ => purgeExpiredRecord_follows file)

theorem reconcileOrphans_follows :
    Follows (Instant now) pid (Deed env none planCode now) (reconcileOrphans env) w := by
  unfold reconcileOrphans
  refine Follows.handle (Follows.ask fun _ _ => Follows.bind (follows_same (storageCall_ends ?_))
    fun objects w₁ => ?_) fun _ _ => Follows.pure
  · intro i a s' hm
    obtain ⟨-, rfl⟩ := (Transaction.reads_ok _ _ _ _).mp hm
    exact ⟨rfl, rfl⟩
  · change Follows _ _ _ (if _ then _ else _) w₁
    split
    · exact Follows.pure
    · exact Follows.query (Follows.bind
        (Follows.forEach fun o _ _ => follows_same (deleteObject_ends _)) fun _ _ => Follows.pure)

/-! ## The service -/

theorem readForDownload_ends (p : StoredFile → Bool) :
    Ends (Instant now) pid (fun _ w' => SameFiles w w') (readForDownload p) w := by
  unfold readForDownload
  rw [← Process.bind_pure (Process.atomically _ _)]
  refine Ends.atomically (fun _ _ found s' hm => ?_) fun _ _ e hm => ⟨rfl, rfl⟩
  obtain ⟨-, rfl⟩ := Table.findFirst_ok.mp hm
  exact Ends.pure ⟨rfl, rfl⟩

theorem handOut_ends (file : StoredFile) :
    Ends (Instant now) pid (fun _ w' => SameFiles w w') (handOut file) w := by
  unfold handOut
  rw [← Process.bind_pure (Process.atomically _ _)]
  refine Ends.atomically (fun _ _ u s' hm => ?_) fun _ _ e hm => ⟨rfl, rfl⟩
  obtain ⟨-, rfl⟩ := (Transaction.pure_ok _ _ _ _).mp hm
  exact Ends.pure ⟨rfl, rfl⟩

theorem createDownloadTarget_follows :
    Follows (Instant now) pid (Deed env owner planCode now)
      (createDownloadTarget env organizationId fileId) w := by
  unfold createDownloadTarget
  refine Follows.bind (follows_same (readForDownload_ends _)) fun found w' => ?_
  cases found with
  | none => exact Follows.throw
  | some file =>
    refine Follows.rejectIf fun _ => Follows.bind (follows_same (storageCall_ends ?_)) fun _ _ =>
      Follows.bind (follows_same (handOut_ends file)) fun _ _ => Follows.pure
    intro i a s' hm
    obtain ⟨-, rfl⟩ := (Transaction.pure_ok _ _ _ _).mp hm
    exact ⟨rfl, rfl⟩

theorem readLocalDownload_follows (expires : Int) (signature : String) :
    Follows (Instant now) pid (Deed env owner planCode now)
      (readLocalDownload env fileId expires signature) w := by
  unfold readLocalDownload
  refine Follows.rejectIf fun _ => Follows.bind (follows_same (readForDownload_ends _))
    fun found w' => ?_
  cases found with
  | none => exact Follows.throw
  | some file =>
    exact Follows.ask fun _ _ => Follows.rejectIf fun _ => Follows.rejectIf fun _ =>
      Follows.bind (follows_same (inspectObject_ends _)) fun _ _ =>
        Follows.bind (follows_same (handOut_ends file)) fun _ _ => Follows.pure

theorem storeLocalUpload_follows (expires : Int) (signature : String) (upload : LocalUpload) :
    Follows (Instant now) pid (Deed env owner planCode now)
      (storeLocalUpload env fileId expires signature upload) w := by
  unfold storeLocalUpload
  refine Follows.rejectIf fun _ => Follows.bind ?_ fun file w' => Follows.ask fun _ _ =>
    Follows.rejectIf fun _ => Follows.ask fun _ _ => Follows.rejectIf fun _ =>
      Follows.rejectIf fun _ => Follows.ofExcept fun _ _ => follows_same (putObject_ends _ _ _)
  unfold findLocalFile
  refine Follows.query ?_
  split
  · exact Follows.throw
  · exact Follows.pure

theorem writeSubscriptions_follows (plans : List Billing.Plan)
    (subscriptions : List Billing.Subscription) :
    Follows (Instant now) pid (Deed env owner planCode now)
      (writeSubscriptions plans subscriptions) w := by
  unfold writeSubscriptions
  rw [← Process.bind_pure (Process.statement _)]
  refine Follows.commit (fun _ => rfl) fun _ _ _ s' hm => ?_
  rw [(Transaction.writes_ok _ _ _ _).mp hm]
  exact ⟨.single (.elsewhere rfl rfl), Follows.pure⟩

theorem getUsage_follows : Follows (Instant now) pid (Deed env owner planCode now)
    (getUsage organizationId) w := by
  have hclock : ∀ i, Instant now i → i.now = now := fun _ hi => hi
  refine Follows.bind ((Billing.getSnapshot_ends hclock).mono fun _ w' hfound => ?_) fun _ _ =>
    Follows.ask fun _ _ => Follows.query Follows.pure
  rw [hfound.1]

theorem handler_follows (r : Request)
    (hplan : ∀ o, r.organizationId = some o → w.store.Provides o now planCode) :
    Follows (Instant now) pid (Deed env r.organizationId planCode now) (handler env r) w := by
  cases r with
  | initiateUpload organizationId userId dto =>
    exact Follows.map (initiateUpload_follows (hplan organizationId rfl))
  | completeUpload organizationId fileId => exact Follows.map completeUpload_follows
  | getFile organizationId fileId =>
    exact Follows.map (findScopedFile_follows fun _ _ _ _ _ => Follows.pure)
  | getUsage organizationId => exact Follows.map getUsage_follows
  | createDownloadTarget organizationId fileId => exact Follows.map createDownloadTarget_follows
  | deleteFile organizationId fileId => exact Follows.map deleteFile_follows
  | restoreFile organizationId fileId => exact Follows.map restoreFile_follows
  | storeLocalUpload fileId expires signature upload =>
    exact Follows.map (storeLocalUpload_follows expires signature upload)
  | readLocalDownload fileId expires signature =>
    exact Follows.map (readLocalDownload_follows expires signature)
  | clientUpload key body contentType =>
    exact Follows.map (follows_same (putObject_ends key body contentType))
  | billingUpdate plans subscriptions =>
    exact Follows.map (writeSubscriptions_follows plans subscriptions)
  | maintain => exact Follows.map maintain_follows
  | reconcileOrphans => exact Follows.map reconcileOrphans_follows

end Steps

end ShipFlow.Files
