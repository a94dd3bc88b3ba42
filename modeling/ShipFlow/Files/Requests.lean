import ShipFlow.Files.Effects

/-! Every action of a file request is an effect, whatever the other requests do in
between. -/

namespace ShipFlow.Files
open Interleaving Interleaving.Discipline Relational

variable {α : Type} {env : Environment} {pid : Nat} {w : World}

/-! ## Storage and rows -/

theorem storageCall_keeps {call : Input → Tx α}
    (h : ∀ w' i a s', call i w'.store = .ok (a, s') →
      Effect env pid w' (w'.advance pid (s', []))) :
    (discipline env).Keeps pid (storageCall call) w := by
  unfold storageCall
  rw [← Process.bind_pure (Process.atomically _ _)]
  refine Keeps.commit (fun _ => rfl) (fun w' i a s' hm => ?_) fun _ _ => Keeps.pure _
  cases hfailure : i.storageFailure with
  | true => simp [hfailure] at hm
  | false =>
    simp only [hfailure, Bool.false_eq_true, if_false] at hm
    exact h w' i a s' hm

/-- A storage call that only reads. -/
theorem readsStorage_keeps {call : Input → Tx α}
    (h : ∀ i s a s', call i s = .ok (a, s') → s' = s) :
    (discipline env).Keeps pid (storageCall call) w := by
  apply storageCall_keeps
  intro w' i a s' hm
  rw [h i _ a s' hm, World.advance_idle]
  exact .idle

theorem inspectObject_keeps (key : String) :
    (discipline env).Keeps pid (inspectObject env key) w := by
  apply readsStorage_keeps
  intro i s a s' hm
  simp only [Transaction.bind_ok, Transaction.reads_ok] at hm
  obtain ⟨found, _, ⟨-, rfl⟩, hm⟩ := hm
  cases found with
  | none => simp at hm
  | some object => exact ((Transaction.pure_ok _ _ _ _).mp hm).2

theorem putObject_keeps (key : String) (body : List UInt8) (contentType : String) :
    (discipline env).Keeps pid (putObject key body contentType) w := by
  apply storageCall_keeps
  intro w' i a s' hm
  rw [(Transaction.writes_ok _ _ _ _).mp hm]
  exact .objectStored key body contentType i.now

theorem deleteObject_keeps (key : String) :
    (discipline env).Keeps pid (deleteObject env key) w := by
  apply storageCall_keeps
  intro w' i a s' hm
  rw [(removeObject_ok.mp hm).2]
  exact .objectDeleted key

theorem setLifecycleState_keeps (key : String) (state : LifecycleState) :
    (discipline env).Keeps pid (setLifecycleState key state) w := by
  apply readsStorage_keeps
  intro i s a s' hm
  exact ((Transaction.pure_ok _ _ _ _).mp hm).2

theorem update_keeps {t : Transition} {I : World → Prop} (hI : (discipline env).Stable I) (hi : I w)
    (hallowed : ∀ w', I w' → t.Allowed env w') : (discipline env).Keeps pid (update t) w := by
  unfold update
  rw [← Process.bind_pure (Process.atomically _ _)]
  refine Keeps.commit_known hI hi (fun _ => rfl) (fun w' i r s' _ hi' hm => ?_) fun _ _ => Keeps.pure _
  simp only [Transaction.bind_ok, Transaction.pure_ok, Transaction.reads_ok] at hm
  obtain ⟨_, _, hu, _, _, ⟨-, rfl⟩, -, rfl⟩ := hm
  obtain ⟨_, -, hsound, -, rfl⟩ := Table.update_ok.mp hu
  exact .updated t (hallowed w' hi') ((storedFiles_sound _ _).mp hsound)

theorem updateScanning_keeps {t : Transition} {I : World → Prop} (hI : (discipline env).Stable I)
    (hi : I w) (hallowed : ∀ w', I w' → t.Allowed env w') :
    (discipline env).Keeps pid (updateScanning t) w := by
  unfold updateScanning
  refine Keeps.commit_known hI hi (fun _ => rfl) (fun w' i r s' _ hi' hm => ?_) fun _ _ => Keeps.pure _
  obtain ⟨hsound, -, rfl⟩ := Table.updateMany_ok.mp hm
  exact .updated t (hallowed w' hi') ((storedFiles_sound _ _).mp hsound)

/-- An update that needs no knowledge. -/
theorem plainUpdate_keeps {t : Transition} (hallowed : ∀ w', t.Allowed env w') :
    (discipline env).Keeps pid (update t) w :=
  update_keeps (discipline env).stable_true True.intro fun w' _ => hallowed w'

theorem plainUpdateScanning_keeps {t : Transition} (hallowed : ∀ w', t.Allowed env w') :
    (discipline env).Keeps pid (updateScanning t) w :=
  updateScanning_keeps (discipline env).stable_true True.intro fun w' _ => hallowed w'

theorem syncLifecycleState_keeps (fileId : Id) (objectKey : String) (state : LifecycleState) :
    (discipline env).Keeps pid (syncLifecycleState fileId objectKey state) w :=
  Keeps.handle (setLifecycleState_keeps objectKey state) fun _ _ =>
    Keeps.bind (plainUpdate_keeps fun _ => True.intro) fun _ _ => Keeps.pure _

theorem findScopedFile_keeps (organizationId fileId : Id) :
    (discipline env).Keeps pid (findScopedFile organizationId fileId) w := by
  unfold findScopedFile
  refine Keeps.query fun w' _ => ?_
  split
  · exact Keeps.throw _
  · exact Keeps.pure _

theorem findLocalFile_keeps (fileId : Id) :
    (discipline env).Keeps pid (findLocalFile fileId) w := by
  unfold findLocalFile
  refine Keeps.query fun w' _ => ?_
  split
  · exact Keeps.throw _
  · exact Keeps.pure _

/-! ## The requests of `FilesService` -/

theorem initiateUpload_keeps (organizationId userId : Id) (dto : InitiateFileUploadDto) :
    (discipline env).Keeps pid (initiateUpload env organizationId userId dto) w := by
  unfold initiateUpload
  refine Keeps.ofExcept fun declaration _ => Keeps.bind (Billing.getSnapshot_keeps _)
    fun snapshot _ => Keeps.ask fun now => ?_
  refine Keeps.commit (fun _ => rfl) (fun w' i r s' hm => ?_) fun r w' => ?_
  · obtain ⟨hid, hstatus, hmalware, -, -, -, -, hsound, rfl⟩ := reserve_ok hm
    obtain ⟨file, uploadedBy⟩ := r
    exact .reserved file hid hstatus hmalware hsound
  · obtain ⟨file, uploadedBy⟩ := r
    refine Keeps.handle (Keeps.bind ?_ fun _ _ => Keeps.pure _) fun _ _ => Keeps.ask fun now =>
      Keeps.bind (plainUpdate_keeps fun _ => True.intro) fun _ _ => Keeps.throw _
    apply readsStorage_keeps
    intro i s a s' hm
    exact ((Transaction.pure_ok _ _ _ _).mp hm).2

theorem completeUpload_keeps (organizationId fileId : Id) :
    (discipline env).Keeps pid (completeUpload env organizationId fileId) w := by
  unfold completeUpload
  refine Keeps.bind (findScopedFile_keeps _ _) fun r w₁ => ?_
  obtain ⟨file, uploadedBy⟩ := r
  simp only
  split
  · exact Keeps.pure _
  · refine Keeps.rejectIf fun _ => Keeps.ask fun clock => Keeps.rejectIf fun _ => ?_
    refine Keeps.bind (Keeps.handle (inspectObject_keeps _) fun _ _ => Keeps.throw _)
      fun object w₂ => Keeps.ask fun now => ?_
    split
    · exact Keeps.bind (plainUpdate_keeps fun _ => True.intro) fun _ _ =>
        Keeps.bind (syncLifecycleState_keeps _ _ _) fun _ _ => Keeps.throw _
    · exact Keeps.bind (plainUpdate_keeps fun _ => rfl) fun _ _ =>
        Keeps.bind (syncLifecycleState_keeps _ _ _) fun _ _ => Keeps.pure _

theorem deleteFile_keeps (organizationId fileId : Id) :
    (discipline env).Keeps pid (deleteFile env organizationId fileId) w := by
  unfold deleteFile
  refine Keeps.bind (findScopedFile_keeps _ _) fun r w₁ => ?_
  obtain ⟨file, uploadedBy⟩ := r
  simp only
  split
  · exact Keeps.pure _
  · split
    · exact Keeps.bind (deleteObject_keeps _) fun _ _ => Keeps.ask fun now =>
        Keeps.bind (plainUpdate_keeps fun _ => True.intro) fun _ _ => Keeps.pure _
    · exact Keeps.rejectIf fun _ => Keeps.ask fun now =>
        Keeps.bind (plainUpdate_keeps fun _ => True.intro) fun _ _ =>
          Keeps.bind (syncLifecycleState_keeps _ _ _) fun _ _ => Keeps.pure _

theorem restoreFile_keeps (organizationId fileId : Id) :
    (discipline env).Keeps pid (restoreFile organizationId fileId) w := by
  unfold restoreFile
  refine Keeps.bind (findScopedFile_keeps _ _) fun r w₁ => Keeps.rejectIf fun _ =>
    Keeps.ask fun now => Keeps.rejectIf fun _ => ?_
  refine Keeps.bind (plainUpdate_keeps fun w' => ?_) fun _ _ =>
    Keeps.bind (syncLifecycleState_keeps _ _ _) fun _ _ => Keeps.pure _
  change (if _ then _ else _) = _ ∨ (if _ then _ else _) = _
  split
  · exact .inr rfl
  · exact .inl rfl

/-- A download that finds its file ready may hand it out, and no other does. -/
theorem readForDownload_then {p : StoredFile → Bool} {k : Option StoredFile → Handler α}
    (hnone : ∀ w', (discipline env).Keeps pid (k none) w')
    (hk : ∀ file w', (file.status = .ready →
        ∃ q, (q, .foundReady file.id file.objectKey) ∈ w'.trace) →
      (discipline env).Keeps pid (k (some file)) w') :
    (discipline env).Keeps pid (readForDownload p >>= k) w := by
  refine Ensures.atomically (fun w' _ hinv i found s' hm => ?_) fun w' _ _ i e hm => ?_
  · obtain ⟨hfound, rfl⟩ := Table.findFirst_ok.mp hm
    cases found with
    | none =>
      simp only [World.advance_idle]
      exact ⟨hinv, .idle, hnone w'⟩
    | some file =>
      have hmem : file ∈ w'.store.storedFiles := List.mem_of_find?_eq_some hfound.symm
      by_cases hready : file.status = .ready
      · simp only [hready, beq_self_eq_true, if_true]
        have heffect : Effect env pid w' _ := .foundReady file hmem hready
        exact ⟨heffect.recorded hinv, heffect, hk file _ fun _ => ⟨pid, by simp⟩⟩
      · simp only [beq_eq_false_iff_ne.mpr hready, Bool.false_eq_true, if_false, World.advance_idle]
        exact ⟨hinv, .idle, hk file w' fun h => absurd h hready⟩
  · simp [Table.findFirst, Transaction.reads] at hm

theorem foundReady_stable (fileId : Id) (objectKey : String) :
    (discipline env).Stable fun w => ∃ q, (q, .foundReady fileId objectKey) ∈ w.trace := by
  apply trace_stable (p := fun t => ∃ q, (q, .foundReady fileId objectKey) ∈ t)
  rintro t t' ⟨q, h⟩
  exact ⟨q, List.mem_append_left t' h⟩

theorem handOut_keeps {file : StoredFile}
    (h : ∃ q, (q, .foundReady file.id file.objectKey) ∈ w.trace) :
    (discipline env).Keeps pid (handOut file) w := by
  unfold handOut
  rw [← Process.bind_pure (Process.atomically _ _)]
  refine Ensures.atomically (fun w' hw hinv i u s' hm => ?_) fun w' _ _ i e hm => ?_
  · obtain ⟨-, rfl⟩ := (Transaction.pure_ok _ _ _ _).mp hm
    have hfound := Contract.concurrent_stable (foundReady_stable file.id file.objectKey) hw h
    have heffect : Effect env pid w' _ := .handedOut file.id file.objectKey hfound
    exact ⟨heffect.recorded hinv, heffect, Keeps.pure _⟩
  · cases hm

theorem createDownloadTarget_keeps (organizationId fileId : Id) :
    (discipline env).Keeps pid (createDownloadTarget env organizationId fileId) w := by
  unfold createDownloadTarget
  refine readForDownload_then (fun _ => Keeps.throw _) fun file w' hfound => ?_
  refine Keeps.rejectIf fun hready => ?_
  refine Keeps.frame (foundReady_stable file.id file.objectKey) (readsStorage_keeps ?_)
    (hfound (by simpa using hready)) fun _ _ h => Keeps.bind (handOut_keeps h) fun _ _ => Keeps.pure _
  intro i s a s' hm
  exact ((Transaction.pure_ok _ _ _ _).mp hm).2

theorem readLocalDownload_keeps (fileId : Id) (expires : Int) (signature : String) :
    (discipline env).Keeps pid (readLocalDownload env fileId expires signature) w := by
  unfold readLocalDownload
  refine Keeps.rejectIf fun _ => readForDownload_then (fun _ => Keeps.throw _)
    fun file w' hfound => Keeps.ask fun clock => Keeps.rejectIf fun _ => Keeps.rejectIf fun hready => ?_
  exact Keeps.frame (foundReady_stable file.id file.objectKey) (inspectObject_keeps _)
    (hfound (by simpa using hready)) fun _ _ h => Keeps.bind (handOut_keeps h) fun _ _ => Keeps.pure _

theorem storeLocalUpload_keeps (fileId : Id) (expires : Int) (signature : String)
    (upload : LocalUpload) :
    (discipline env).Keeps pid (storeLocalUpload env fileId expires signature upload) w := by
  unfold storeLocalUpload
  exact Keeps.rejectIf fun _ => Keeps.bind (findLocalFile_keeps _) fun file w₁ =>
    Keeps.ask fun clock => Keeps.rejectIf fun _ => Keeps.ask fun now => Keeps.rejectIf fun _ =>
      Keeps.rejectIf fun _ => Keeps.ofExcept fun _ _ => putObject_keeps _ _ _

/-! ## Maintenance -/

theorem failScan_keeps {fileId : Id} {malwareStatus : FileMalwareStatus} {scanAttempts : Nat}
    (h : malwareStatus ≠ .clean) :
    (discipline env).Keeps pid (failScan fileId malwareStatus scanAttempts) w :=
  Keeps.ask fun _ => plainUpdateScanning_keeps fun _ => h

theorem tagScanned_keeps (fileId : Id) (state : LifecycleState) :
    (discipline env).Keeps pid (tagScanned fileId state) w := by
  unfold tagScanned
  refine Keeps.query fun w' _ => ?_
  split
  · exact Keeps.pure _
  · exact setLifecycleState_keeps _ _

theorem scannedClean_stable (fileId : Id) (objectKey : String) : (discipline env).Stable fun w =>
    w.store.Knows fileId objectKey ∧ ScannedClean fileId objectKey w.trace :=
  fun q w w' hr hr' he h => ⟨knows_stable fileId objectKey q w w' hr hr' he h.1,
    trace_stable (fun _ t' h => h.mono t') q w w' hr hr' he h.2⟩

theorem applyScanResult_keeps {fileId : Id} {objectKey : String} {attempts : Nat}
    {result : MalwareScanResult} (hknows : w.store.Knows fileId objectKey)
    (hscanned : result = .clean → ScannedClean fileId objectKey w.trace) :
    (discipline env).Keeps pid (applyScanResult fileId attempts result) w := by
  have hinconclusive : ∀ b : Bool,
      (if b then .unsupported else .failed : FileMalwareStatus) ≠ .clean := by decide
  cases result with
  | clean =>
    refine Keeps.frame (scannedClean_stable fileId objectKey) (tagScanned_keeps _ _)
      ⟨hknows, hscanned rfl⟩ fun _ w' h => Keeps.ask fun now => ?_
    exact updateScanning_keeps (scannedClean_stable fileId objectKey) h fun _ h => ⟨objectKey, h⟩
  | infected =>
    exact Keeps.bind (tagScanned_keeps _ _) fun _ _ => Keeps.ask fun now =>
      plainUpdateScanning_keeps fun _ => True.intro
  | unsupported =>
    change (discipline env).Keeps pid (if _ then _ else _) w
    split
    · exact failScan_keeps (hinconclusive _)
    · exact plainUpdateScanning_keeps fun _ => hinconclusive _
  | failed =>
    change (discipline env).Keeps pid (if _ then _ else _) w
    split
    · exact failScan_keeps (hinconclusive _)
    · exact plainUpdateScanning_keeps fun _ => hinconclusive _

theorem scan_then {file : StoredFile} {body : List UInt8} {k : MalwareScanResult → Handler α}
    (hknows : w.store.Knows file.id file.objectKey)
    (hk : ∀ result w', w'.store.Knows file.id file.objectKey →
      (result = .clean → ScannedClean file.id file.objectKey w'.trace) →
      (discipline env).Keeps pid (k result) w') :
    (discipline env).Keeps pid (scan file body >>= k) w := by
  unfold scan
  refine Ensures.atomically_quiet (fun _ => .idle) (fun _ => rfl) (fun w' hw hinv i result s' hm => ?_)
    fun _ _ _ _ _ _ _ _ _ => True.intro
  have hs : s' = w'.store := by
    cases hscan : i.scan with
    | none => simp [hscan] at hm
    | some verdict =>
      simp only [hscan] at hm
      exact ((Transaction.pure_ok _ _ _ _).mp hm).2
  subst hs
  have heffect : Effect env pid w' _ := .scanned file.id file.objectKey body result
  have hknows' := Contract.concurrent_stable (knows_stable file.id file.objectKey) hw hknows
  refine ⟨heffect.recorded hinv, heffect, hk result _ hknows' ?_⟩
  rintro rfl
  exact ⟨pid, body, by simp⟩

theorem processScan_keeps {file : StoredFile} (hknows : w.store.Knows file.id file.objectKey) :
    (discipline env).Keeps pid (processScan env file) w := by
  unfold processScan
  refine Keeps.ask fun now => ?_
  split
  · exact failScan_keeps (by decide)
  · refine Keeps.handle ?_ fun _ w' => ?_
    · refine Keeps.frame (knows_stable file.id file.objectKey) (inspectObject_keeps _) hknows
        fun object w₁ hknows => scan_then hknows fun result w₂ hknows hscanned => ?_
      exact applyScanResult_keeps hknows hscanned
    · change (discipline env).Keeps pid (if _ then _ else _) w'
      split
      · exact failScan_keeps (by decide)
      · exact plainUpdateScanning_keeps fun _ => True.intro

theorem processScans_keeps : (discipline env).Keeps pid (processScans env) w := by
  unfold processScans
  split
  · refine Keeps.query fun w' hr => ?_
    have hall : (discipline env).Stable fun w => ∀ f ∈ w'.store.storedFiles,
        w.store.Knows f.id f.objectKey :=
      fun q w₁ w₂ hr hr' he h f hf => knows_stable f.id f.objectKey q w₁ w₂ hr hr' he (h f hf)
    refine Keeps.forEach hall (fun f hf => knows_of_mem hr hf) fun f hf w₁ h => processScan_keeps ?_
    have hmem := (List.mem_insertionSort _).mp (List.mem_of_mem_take hf)
    exact h f (List.mem_of_mem_filter hmem)
  · exact Keeps.pure _

theorem retryLifecycleTags_keeps : (discipline env).Keeps pid (retryLifecycleTags env) w := by
  unfold retryLifecycleTags
  refine Keeps.query fun w' _ => Keeps.forEach (discipline env).stable_true True.intro
    fun file _ w₁ _ => ?_
  unfold retryLifecycleTag
  split
  · exact Keeps.pure _
  · exact Keeps.handle (Keeps.bind (setLifecycleState_keeps _ _) fun _ _ =>
      Keeps.bind (plainUpdate_keeps fun _ => True.intro) fun _ _ => Keeps.pure _)
        fun _ _ => Keeps.pure _

theorem purgeExpiredRecords_keeps : (discipline env).Keeps pid (purgeExpiredRecords env) w := by
  unfold purgeExpiredRecords
  refine Keeps.ask fun now => Keeps.query fun w' _ =>
    Keeps.forEach (discipline env).stable_true True.intro fun file _ w₁ _ => ?_
  unfold purgeExpiredRecord
  refine Keeps.handle (Keeps.bind (deleteObject_keeps _) fun _ _ => Keeps.ask fun now =>
    Keeps.bind (plainUpdate_keeps fun _ => True.intro) fun _ _ => Keeps.pure _) fun _ _ => ?_
  exact Keeps.bind (plainUpdate_keeps fun _ => True.intro) fun _ _ => Keeps.pure _

theorem deleteAudited_keeps : (discipline env).Keeps pid deleteAudited w := by
  unfold deleteAudited
  refine Keeps.ask fun now => Keeps.commit (fun _ => rfl) (fun w' i n s' hm => ?_)
    fun _ _ => Keeps.pure _
  obtain ⟨-, rfl⟩ := Table.deleteMany_ok.mp hm
  refine .audited _ now fun f hf => ?_
  simp only [Bool.and_eq_true, beq_iff_eq] at hf
  exact hf

theorem maintain_keeps : (discipline env).Keeps pid (maintain env) w :=
  Keeps.handle (Keeps.bind processScans_keeps fun _ _ =>
    Keeps.bind retryLifecycleTags_keeps fun _ _ => Keeps.bind purgeExpiredRecords_keeps fun _ _ =>
      deleteAudited_keeps) fun _ _ => Keeps.pure _

theorem reconcileOrphans_keeps : (discipline env).Keeps pid (reconcileOrphans env) w := by
  unfold reconcileOrphans
  refine Keeps.handle (Keeps.ask fun now => Keeps.bind (readsStorage_keeps ?_) fun objects w₁ => ?_)
    fun _ _ => Keeps.pure _
  · intro i s a s' hm
    exact ((Transaction.reads_ok _ _ _ _).mp hm).2
  · change (discipline env).Keeps pid (if _ then _ else _) w₁
    split
    · exact Keeps.pure _
    · exact Keeps.query fun w' _ => Keeps.bind
        (Keeps.forEach (discipline env).stable_true True.intro fun o _ w₂ _ => deleteObject_keeps _)
        fun _ _ => Keeps.pure _

/-! ## The service -/

theorem writeSubscriptions_keeps (plans : List Billing.Plan)
    (subscriptions : List Billing.Subscription) :
    (discipline env).Keeps pid (writeSubscriptions plans subscriptions) w := by
  unfold writeSubscriptions Process.statement
  rw [← Process.bind_pure (Process.atomically _ _)]
  refine Keeps.commit (fun _ => rfl) (fun w' i u s' hm => ?_) fun _ _ => Keeps.pure _
  rw [(Transaction.writes_ok _ _ _ _).mp hm]
  exact .billed plans subscriptions

theorem handler_keeps (env : Environment) (r : Request) :
    (discipline env).Keeps pid (handler env r) w := by
  cases r with
  | initiateUpload organizationId userId dto =>
    apply Keeps.map
    exact initiateUpload_keeps organizationId userId dto
  | completeUpload organizationId fileId =>
    apply Keeps.map
    exact completeUpload_keeps organizationId fileId
  | getFile organizationId fileId =>
    apply Keeps.map
    exact Keeps.bind (findScopedFile_keeps _ _) fun _ _ => Keeps.pure _
  | getUsage organizationId =>
    apply Keeps.map
    exact Keeps.bind (Billing.getSnapshot_keeps _) fun _ _ => Keeps.ask fun _ =>
      Keeps.query fun _ _ => Keeps.pure _
  | createDownloadTarget organizationId fileId =>
    apply Keeps.map
    exact createDownloadTarget_keeps organizationId fileId
  | deleteFile organizationId fileId =>
    apply Keeps.map
    exact deleteFile_keeps organizationId fileId
  | restoreFile organizationId fileId =>
    apply Keeps.map
    exact restoreFile_keeps organizationId fileId
  | storeLocalUpload fileId expires signature upload =>
    apply Keeps.map
    exact storeLocalUpload_keeps fileId expires signature upload
  | readLocalDownload fileId expires signature =>
    apply Keeps.map
    exact readLocalDownload_keeps fileId expires signature
  | clientUpload key body contentType =>
    apply Keeps.map
    exact putObject_keeps key body contentType
  | billingUpdate plans subscriptions =>
    apply Keeps.map
    exact writeSubscriptions_keeps plans subscriptions
  | maintain =>
    apply Keeps.map
    exact maintain_keeps
  | reconcileOrphans =>
    apply Keeps.map
    exact reconcileOrphans_keeps

end ShipFlow.Files
