import ShipFlow.Files.Healthy

/-! Files that are deleted and restored. A restored file that was not scanned yet goes back
to the scanner with the date of its upload, and the scanner gives up on it once that is a day
ago. -/

namespace ShipFlow.Files
open Interleaving Interleaving.Process Relational

def restores (fileId : Id) (step : FileStep) : Bool :=
  match step.call.request, step.outcome with
  | .restoreFile _ id, .ok _ => id == fileId
  | _, _ => false

def deletes (fileId : Id) (step : FileStep) : Bool :=
  match step.call.request, step.outcome with
  | .deleteFile _ id, .ok _ => id == fileId
  | _, _ => false

/-- The file has been restored and not deleted again. -/
def regained (fileId : Id) (past : List FileStep) : Bool :=
  past.foldl (fun b step =>
    if restores fileId step then true else if deletes fileId step then false else b) false

/-- The step is a tick of the timer that takes the file to the scanner. -/
def Processes (env : Environment) (step : FileStep) (fileId : Id) : Prop :=
  step.call.request = .maintain ∧ fileId ∈ (scanBatch env step.before.store).map StoredFile.id

/-- A restored file is there. It is ready, or it waits for a scan and neither has been ready
before the step nor was taken to the scanner by it. -/
def Survives (env : Environment) (past : List FileStep) (step : FileStep) : Prop :=
  ∀ fileId, regained fileId (past ++ [step]) = true →
    ∃ f ∈ step.after.store.storedFiles, f.id = fileId ∧ (f.status = .ready ∨
      f.status = .scanning ∧ ¬ Processes env step fileId ∧
        ∀ g ∈ step.before.store.storedFiles, g.id = fileId → g.status ≠ .ready)

/-- The scanner gets to the restored files of its batch within a day of their upload. -/
def InTime (env : Environment) (past : List FileStep) (step : FileStep) : Prop :=
  step.call.request = .maintain → ∀ f ∈ scanBatch env step.before.store,
    regained f.id past = true → f.overdue (step.call.inputs 0).now = false

instance (env : Environment) (past : List FileStep) (step : FileStep) :
    Decidable (InTime env past step) :=
  inferInstanceAs (Decidable (step.call.request = .maintain → ∀ f ∈ scanBatch env step.before.store,
    regained f.id past = true → f.overdue (step.call.inputs 0).now = false))

/-- The requests around the lifecycle of a file, the two ways to send its bytes, and what the
billing service does in between. -/
def Request.ofLifecycle : Request → Bool
  | .initiateUpload _ _ _ | .completeUpload _ _ | .deleteFile _ _ | .restoreFile _ _ | .maintain
  | .storeLocalUpload _ _ _ _ | .clientUpload _ _ _ | .billingUpdate _ _ => true
  | _ => false

/-! ## Requests -/

/-- The files that are scanned or ready stay as they are, but for the ones in `gone`. -/
structure Spares (gone : Id → Prop) (s s' : Store) : Prop where
  stocked : s'.Stocked
  kept : ∀ f ∈ s.storedFiles, f.status = .scanning ∨ f.status = .ready → ¬ gone f.id →
    f ∈ s'.storedFiles

section Requests
variable {env : Environment} {now : Time} {pid : Nat} {w : World} {s s' : Store} {α : Type}
  {gone : Id → Prop} {file : StoredFile} {t : Transition} {organizationId fileId : Id}

theorem Store.Stocked.spares (hs : s.Stocked) : Spares gone s s := ⟨hs, fun _ hf _ _ => hf⟩

theorem Spares.weaken (h : Spares (fun _ => False) s s') : Spares gone s s' :=
  ⟨h.stocked, fun f hf hstatus _ => h.kept f hf hstatus id⟩

theorem Transition.selects_own (ht : t.fileId = file.id) (hwhile : t.whileScanning = false) :
    t.selects file = true := by
  rw [Transition.selects, ht, hwhile, beq_self_eq_true, Bool.not_false, Bool.true_or, Bool.true_and]

theorem Store.Stocked.selected (hs : s.Stocked) (hfile : file ∈ s.storedFiles)
    (ht : t.fileId = file.id) {f : StoredFile} (hf : f ∈ s.storedFiles) (hsel : t.selects f = true) :
    f = file :=
  hs.keyed.inj hf hfile ((Transition.selects_id hsel).trans ht)

theorem Spares.updated (hs : s.Stocked) (hfile : file ∈ s.storedFiles) (ht : t.fileId = file.id)
    (hcheck : (t.apply file).lifecycleCheck = true)
    (hobject : (t.apply file).kept → s.HasObject file.objectKey)
    (hgone : file.status = .scanning ∨ file.status = .ready → gone file.id) :
    Spares gone s (s.updated t) := by
  constructor
  · refine hs.updated (fun f hf hsel => ?_) fun f hf hsel hkept => ?_
    · rw [hs.selected hfile ht hf hsel]
      exact hcheck
    · rw [hs.selected hfile ht hf hsel] at hkept ⊢
      exact hobject hkept
  · intro f hf hstatus hnot
    cases hsel : t.selects f with
    | false => exact mem_updated_off hf hsel
    | true =>
      have hsame := hs.selected hfile ht hf hsel
      subst hsame
      exact absurd (hgone hstatus) hnot

/-- The update of one file that was found. -/
theorem update_healthy {k : StoredFile × Option FileUploader → Handler α}
    {Q : Except Failure α → World → Prop} (hs : w.store.Stocked) (hfile : file ∈ w.store.storedFiles)
    (ht : t.fileId = file.id) (hwhile : t.whileScanning = false)
    (hcheck : (t.apply file).lifecycleCheck = true)
    (hk : ∀ r w', w'.store = w.store.updated t → Ends (Healthy now) pid Q (k r) w') :
    Ends (Healthy now) pid Q (update t >>= k) w := by
  have hupdate : ∃ r, Leads (Healthy now) pid (update t) w r (w.store.updated t) := by
    refine update_leads hs.sound hfile (Transition.selects_own ht hwhile) fun f hf hsel => ?_
    rw [hs.selected hfile ht hf hsel]
    exact hcheck
  obtain ⟨r, hr⟩ := hupdate
  exact Leads.bind hr fun w' hw' => hk r w' hw'

theorem inspectObject_healthy (key : String) :
    Ends (Healthy now) pid (fun r w' => w'.store = w.store ∧ ∀ o, r = .ok o →
      w.store.HasObject key) (inspectObject env key) w := by
  unfold inspectObject storageCall
  rw [← Process.bind_pure (Process.atomically _ _)]
  refine Ends.commit (fun _ => rfl) (fun i hi o s' hm => ?_) fun _ _ _ _ => ⟨rfl, nofun⟩
  simp only [hi.2.1, Bool.false_eq_true, if_false, Transaction.bind_ok, Transaction.reads_ok] at hm
  obtain ⟨found, _, ⟨hfound, rfl⟩, hm⟩ := hm
  cases found with
  | none => cases hm
  | some object =>
    obtain ⟨-, rfl⟩ := (Transaction.pure_ok _ _ _ _).mp hm
    have hkey := List.find?_some hfound.symm
    exact ⟨rfl, fun _ _ => ⟨object, List.mem_of_find?_eq_some hfound.symm, beq_iff_eq.mp hkey⟩⟩

theorem putObject_healthy (hs : w.store.Stocked) (key : String) (body : List UInt8)
    (contentType : String) :
    Ends (Healthy now) pid (fun _ w' => Spares gone w.store w'.store)
      (putObject key body contentType) w := by
  unfold putObject storageCall
  rw [← Process.bind_pure (Process.atomically _ _)]
  refine Ends.commit (fun _ => rfl) (fun i hi o s' hm => ?_) fun _ _ _ _ => hs.spares
  simp only [hi.2.1, Bool.false_eq_true, if_false, Transaction.writes_ok] at hm
  subst hm
  refine ⟨⟨hs.sound, hs.keyed, fun f hf hkept => ?_, hs.keys⟩, fun f hf _ _ => hf⟩
  -- an object is replaced, never lost
  obtain ⟨o, ho, hkey⟩ := hs.objects f hf hkept
  by_cases heq : o.key = key
  · exact ⟨_, List.mem_append_right _ (List.mem_singleton_self _), heq.symm.trans hkey⟩
  · refine ⟨o, List.mem_append_left _ (List.mem_filter.mpr ⟨ho, ?_⟩), hkey⟩
    rw [beq_eq_false_iff_ne.mpr heq, Bool.not_false]

theorem writeSubscriptions_healthy (hs : w.store.Stocked) (plans : List Billing.Plan)
    (subscriptions : List Billing.Subscription) :
    Ends (Healthy now) pid (fun _ w' => Spares gone w.store w'.store)
      (writeSubscriptions plans subscriptions) w := by
  unfold writeSubscriptions
  rw [← Process.bind_pure (Process.statement _)]
  refine Ends.statement (fun _ s' hm => ?_) fun _ _ => hs.spares
  rw [(Transaction.writes_ok _ _ _ _).mp hm]
  exact ⟨⟨hs.sound, hs.keyed, hs.objects, hs.keys⟩, fun f hf _ _ => hf⟩

theorem findScopedFile_healthy {k : StoredFile × Option FileUploader → Handler α}
    {Q : Except Failure α → World → Prop} (hnone : ∀ e, Q (.error e) w)
    (hk : ∀ file ∈ w.store.storedFiles, file.id = fileId →
      ∀ uploadedBy, Ends (Healthy now) pid Q (k (file, uploadedBy)) w) :
    Ends (Healthy now) pid Q (findScopedFile organizationId fileId >>= k) w := by
  rw [findScopedFile, Process.bind_assoc]
  refine Ends.query ?_
  cases hfound : w.store.storedFiles.find? fun f =>
      f.id == fileId && f.organizationId == organizationId && f.status != .purged with
  | none => exact hnone _
  | some file =>
    have hkeys := List.find?_some hfound
    simp only [Bool.and_eq_true, beq_iff_eq] at hkeys
    exact hk file (List.mem_of_find?_eq_some hfound) hkeys.1.1 _

theorem initiateUpload_healthy (hs : w.store.Stocked) (userId : Id) (dto : InitiateFileUploadDto) :
    Ends (Healthy now) pid (fun _ w' => Spares gone w.store w'.store)
      (initiateUpload env organizationId userId dto) w := by
  unfold initiateUpload
  refine Ends.ofExcept (fun _ _ => hs.spares) fun declaration _ => ?_
  have hclock : ∀ i, Healthy now i → i.now = now := fun _ hi => hi.1
  refine Ends.bind ((Billing.getSnapshot_ends hclock).mono fun found u hfound => ?_)
  obtain ⟨rfl, -⟩ := hfound
  cases found with
  | error e => exact hs.spares
  | ok snapshot =>
  refine Ends.ask fun j hj => ?_
  refine Ends.commit (fun _ => rfl) (fun _ _ r s' hm => ?_) fun _ _ _ _ => hs.spares
  have hkey := reserve_key hm
  obtain ⟨hid, hstatus, -, -, -, -, -, hsound, rfl⟩ := reserve_ok hm
  obtain ⟨file, uploadedBy⟩ := r
  -- the new row has no object yet, and needs none
  have hspares : Spares gone u.store { u.store with
      nextId := u.store.nextId + 1
      storedFiles := u.store.storedFiles ++ [file] } := by
    refine ⟨⟨hsound, ?_, fun f hf hkept => ?_, fun f hf => ?_⟩,
      fun f hf _ _ => List.mem_append_left _ hf⟩
    · exact hs.keyed.concat (Nat.le_of_eq hid.symm) (Nat.lt_succ_of_le (Nat.le_of_eq hid))
    · rcases List.mem_append.mp hf with hf | hf
      · exact hs.objects f hf hkept
      · rw [List.mem_singleton.mp hf, StoredFile.kept, hstatus] at hkept
        rcases hkept with h | h | h <;> cases h
    · rcases List.mem_append.mp hf with hf | hf
      · exact hs.keys f hf
      · rw [List.mem_singleton.mp hf, hkey]
        exact isRowKey_objectKey _ _
  have htarget : ∀ w₁ : World, ∃ upload, Leads (Healthy now) pid
      (storageCall fun i => pure (createUploadTarget env file i.now)) w₁ upload w₁.store := by
    intro w₁
    refine ⟨createUploadTarget env file now, storageCall_leads fun i hi => ?_⟩
    rw [hi.1]
    rfl
  obtain ⟨upload, hupload⟩ := htarget (u.advance pid ({ u.store with
      nextId := u.store.nextId + 1
      storedFiles := u.store.storedFiles ++ [file] }, [.reserved file.id file.objectKey]))
  have hdone : Leads (Healthy now) pid (do
      let upload ← storageCall fun i => pure (createUploadTarget env file i.now)
      return (mapFile file uploadedBy, upload)) (u.advance pid ({ u.store with
        nextId := u.store.nextId + 1
        storedFiles := u.store.storedFiles ++ [file] }, [.reserved file.id file.objectKey]))
      (mapFile file uploadedBy, upload) { u.store with
        nextId := u.store.nextId + 1
        storedFiles := u.store.storedFiles ++ [file] } :=
    Leads.bind hupload fun w' hw' => ⟨rfl, hw'⟩
  refine (Leads.handle hdone).mono fun r w' hr => ?_
  rw [hr.2]
  exact hspares

theorem StoredFile.pending_check (h : file.lifecycleCheck = true) (hstatus : file.status = .pending) :
    file.deletedAt = none ∧ file.purgedAt = none := by
  simp only [StoredFile.lifecycleCheck, hstatus, Bool.and_eq_true, Option.isNone_iff_eq_none] at h
  exact ⟨h.1.2, h.2⟩

theorem completeUpload_healthy (henv : env.scannerEnabled = true) (hs : w.store.Stocked) :
    Ends (Healthy now) pid (fun _ w' => Spares gone w.store w'.store)
      (completeUpload env organizationId fileId) w := by
  unfold completeUpload
  refine findScopedFile_healthy (fun _ => hs.spares) fun file hfile hid uploadedBy => ?_
  simp only
  split
  · exact hs.spares
  · refine Ends.rejectIf (fun _ => hs.spares) fun hpending => Ends.ask fun i hi =>
      Ends.rejectIf (fun _ => hs.spares) fun _ => ?_
    have hstatus : file.status = .pending := by simpa using hpending
    obtain ⟨hdeletedAt, hpurgedAt⟩ := StoredFile.pending_check
      (StoredFile.valid_lifecycle (hs.sound.1 file hfile)) hstatus
    -- the row was neither scanned nor ready, so nothing can go missing
    have hgone : file.status = .scanning ∨ file.status = .ready → gone file.id := by
      rw [hstatus]
      rintro (h | h) <;> cases h
    refine Ends.bind (Ends.handle ((inspectObject_healthy file.objectKey).mono fun r w₁ hr => ?_))
    obtain ⟨hw₁, hobject⟩ := hr
    cases r with
    | error e =>
      change Spares gone w.store w₁.store
      rw [hw₁]
      exact hs.spares
    | ok object =>
      have hobject := hobject object rfl
      rw [← hw₁] at hs hfile hobject ⊢
      refine Ends.ask fun j hj => ?_
      split
      · have hcheck (message : String) : ((Transition.uploadRejected file.id j.now message).apply
            file).lifecycleCheck = true := by
          simp [Transition.apply, StoredFile.lifecycleCheck, hpurgedAt]
        refine update_healthy hs hfile rfl rfl (hcheck _) fun r w₂ hw₂ => ?_
        refine Leads.bind (syncLifecycleState_leads _ _ _) fun w₃ hw₃ => ?_
        change Spares gone w₁.store w₃.store
        rw [hw₃, hw₂]
        refine Spares.updated hs hfile rfl (hcheck _) ?_ hgone
        rintro (h | h | h) <;> cases h
      · rename_i validated _
        have hcheck : ((Transition.uploadCompleted file.id j.now validated.detectedMimeType
            (!env.scannerEnabled)).apply file).lifecycleCheck = true := by
          simp [Transition.apply, StoredFile.lifecycleCheck, henv, hdeletedAt, hpurgedAt]
        refine update_healthy hs hfile rfl rfl hcheck fun r w₂ hw₂ => ?_
        refine Leads.bind (syncLifecycleState_leads _ _ _) fun w₃ hw₃ => ?_
        change Spares gone w₁.store w₃.store
        rw [hw₃, hw₂]
        exact Spares.updated hs hfile rfl hcheck (fun _ => hobject) hgone

theorem deleteFile_healthy (hs : w.store.Stocked) :
    Ends (Healthy now) pid (fun r w' =>
        Spares (fun id => id = fileId ∧ ∃ response, r = .ok response) w.store w'.store)
      (deleteFile env organizationId fileId) w := by
  unfold deleteFile
  refine findScopedFile_healthy (fun _ => hs.spares) fun file hfile hid uploadedBy => ?_
  have hvalid := StoredFile.valid_lifecycle (hs.sound.1 file hfile)
  simp only
  split
  · exact hs.spares
  · split
    · next hpending =>
      have hstatus : file.status = .pending := by simpa using hpending
      refine Leads.bind (deleteObject_leads (hs.keys file hfile)) fun w₁ hw₁ => Ends.ask fun i hi => ?_
      -- the object of a reservation is nobody else's
      have hs₁ : w₁.store.Stocked := by
        rw [hw₁]
        refine ⟨hs.sound, hs.keyed, fun f hf hkept => ?_, hs.keys⟩
        obtain ⟨o, ho, hkey⟩ := hs.objects f hf hkept
        refine ⟨o, List.mem_filter.mpr ⟨ho, ?_⟩, hkey⟩
        have hne : o.key ≠ file.objectKey := by
          intro heq
          rw [hs.sound.eq_of_key hf hfile (hkey.symm.trans heq), StoredFile.kept, hstatus] at hkept
          rcases hkept with h | h | h <;> cases h
        rw [beq_eq_false_iff_ne.mpr hne, Bool.not_false]
      have hfile₁ : file ∈ w₁.store.storedFiles := by
        rw [hw₁]
        exact hfile
      refine update_healthy hs₁ hfile₁ rfl rfl rfl fun r w₂ hw₂ => ?_
      have hspares : Spares (fun id => id = fileId ∧ ∃ response,
          (.ok (mapFile r.1 r.2) : Except Failure FileResponse) = .ok response) w₁.store w₂.store := by
        rw [hw₂]
        refine Spares.updated hs₁ hfile₁ rfl rfl ?_ fun h => ?_
        · rintro (h | h | h) <;> cases h
        · rw [hstatus] at h
          rcases h with h | h <;> cases h
      refine ⟨hspares.stocked, fun f hf => hspares.kept f ?_⟩
      rw [hw₁]
      exact hf
    · refine Ends.rejectIf (fun _ => hs.spares) fun hkept => Ends.ask fun i hi => ?_
      have hstatus : file.status = .ready ∨ file.status = .scanning := by
        simp only [Bool.and_eq_false_iff, bne_eq_false_iff_eq] at hkept
        exact hkept
      have hcheck : ((Transition.deleted file.id i.now).apply file).lifecycleCheck = true := by
        unfold StoredFile.lifecycleCheck at hvalid
        rcases hstatus with h | h <;> rw [h] at hvalid <;>
          simp only [Bool.and_eq_true] at hvalid <;>
          simp [Transition.apply, StoredFile.lifecycleCheck, hvalid.1.1, hvalid.2]
      have hobject : w.store.HasObject file.objectKey := by
        refine hs.objects file hfile ?_
        rcases hstatus with h | h
        · exact .inr (.inl h)
        · exact .inl h
      refine update_healthy hs hfile rfl rfl hcheck fun r w₁ hw₁ => ?_
      refine Leads.bind (syncLifecycleState_leads _ _ _) fun w₂ hw₂ => ?_
      change Spares _ w.store w₂.store
      rw [hw₂, hw₁]
      exact Spares.updated hs hfile rfl hcheck (fun _ => hobject) fun _ => ⟨hid, _, rfl⟩

/-- A restored file was deleted. Now it is ready, or waits for a scan. -/
def Regains (fileId : Id) (s : Store) (r : Except Failure FileResponse) (s' : Store) : Prop :=
  ∀ response, r = .ok response →
    (∀ g ∈ s.storedFiles, g.id = fileId → g.status = .deleted) ∧
    ∃ f ∈ s'.storedFiles, f.id = fileId ∧ (f.status = .ready ∨ f.status = .scanning)

theorem restoreFile_healthy (hs : w.store.Stocked) :
    Ends (Healthy now) pid (fun r w' => Spares gone w.store w'.store ∧
      Regains fileId w.store r w'.store) (restoreFile organizationId fileId) w := by
  have hrefused (e : Failure) :
      Spares gone w.store w.store ∧ Regains fileId w.store (.error e) w.store :=
    ⟨hs.spares, fun _ h => nomatch h⟩
  unfold restoreFile
  refine findScopedFile_healthy hrefused fun file hfile hid uploadedBy => ?_
  refine Ends.rejectIf (fun _ => hrefused _) fun hdeleted => Ends.ask fun i hi =>
    Ends.rejectIf (fun _ => hrefused _) fun _ => ?_
  have hstatus : file.status = .deleted := by
    simp only [Bool.or_eq_false_iff, bne_eq_false_iff_eq] at hdeleted
    exact hdeleted.1
  have hvalid := StoredFile.valid_lifecycle (hs.sound.1 file hfile)
  obtain ⟨status, hrestored⟩ : ∃ status : FileStatus, status =
      if file.malwareStatus == .pending then .scanning else .ready := ⟨_, rfl⟩
  -- the row comes back ready, or to be scanned
  have hback : status = .ready ∨ status = .scanning := by
    rw [hrestored]
    split
    · exact .inr rfl
    · exact .inl rfl
  rw [← hrestored]
  have hcheck : ((Transition.restored file.id status).apply file).lifecycleCheck = true := by
    simp only [StoredFile.lifecycleCheck, hstatus, Bool.and_eq_true] at hvalid
    rcases hback with rfl | rfl <;>
      simp [Transition.apply, StoredFile.lifecycleCheck, hvalid.1.1.1, hvalid.2]
  refine update_healthy hs hfile rfl rfl hcheck fun r w₁ hw₁ => ?_
  refine Leads.bind (syncLifecycleState_leads _ _ _) fun w₂ hw₂ => ?_
  have hspares : Spares gone w.store w₂.store := by
    rw [hw₂, hw₁]
    refine Spares.updated hs hfile rfl hcheck (fun _ => hs.objects file hfile (.inr (.inr hstatus)))
      fun h => ?_
    rw [hstatus] at h
    rcases h with h | h <;> cases h
  refine ⟨hspares, fun _ _ => ⟨fun g hg hgid => ?_, (Transition.restored file.id status).apply file,
    ?_, hid, hback⟩⟩
  · rw [hs.keyed.inj hg hfile (hgid.trans hid.symm)]
    exact hstatus
  · rw [hw₂, hw₁]
    exact mem_updated hfile (Transition.selects_own rfl rfl)

theorem storeLocalUpload_healthy (hs : w.store.Stocked) (expires : Int) (signature : String)
    (upload : LocalUpload) :
    Ends (Healthy now) pid (fun _ w' => Spares gone w.store w'.store)
      (storeLocalUpload env fileId expires signature upload) w := by
  unfold storeLocalUpload
  refine Ends.rejectIf (fun _ => hs.spares) fun _ => Ends.bind ?_
  unfold findLocalFile
  refine Ends.query ?_
  split
  · exact hs.spares
  · exact Ends.ask fun _ _ => Ends.rejectIf (fun _ => hs.spares) fun _ => Ends.ask fun _ _ =>
      Ends.rejectIf (fun _ => hs.spares) fun _ => Ends.rejectIf (fun _ => hs.spares) fun _ =>
        Ends.ofExcept (fun _ _ => hs.spares) fun _ _ => putObject_healthy hs _ _ _

/-- The outcome of a request other than the timer's. -/
structure Served (request : Request) (s : Store) (outcome : Except Failure Response) (s' : Store) :
    Prop where
  spares : Spares (fun id => ∃ organizationId response,
    request = .deleteFile organizationId id ∧ outcome = .ok response) s s'
  regains : ∀ organizationId id response, request = .restoreFile organizationId id →
    outcome = .ok response → (∀ g ∈ s.storedFiles, g.id = id → g.status = .deleted) ∧
      ∃ f ∈ s'.storedFiles, f.id = id ∧ (f.status = .ready ∨ f.status = .scanning)

theorem handler_healthy (henv : env.scannerEnabled = true) (hs : w.store.Stocked) {r : Request}
    (hlifecycle : r.ofLifecycle = true) (hmaintain : r ≠ .maintain) :
    Ends (Healthy now) pid (fun o w' => Served r w.store o w'.store) (handler env r) w := by
  cases r with
  | initiateUpload organizationId userId dto =>
    refine Ends.map ((initiateUpload_healthy hs userId dto).mono fun _ _ h => ⟨h.weaken, ?_⟩)
    rintro _ _ _ ⟨⟩
  | completeUpload organizationId fileId =>
    refine Ends.map ((completeUpload_healthy henv hs).mono fun _ _ h => ⟨h.weaken, ?_⟩)
    rintro _ _ _ ⟨⟩
  | deleteFile organizationId fileId =>
    refine Ends.map ((deleteFile_healthy hs).mono fun o _ h => ⟨⟨h.stocked, ?_⟩, ?_⟩)
    · intro f hf hstatus hkeep
      refine h.kept f hf hstatus ?_
      rintro ⟨hid, response, rfl⟩
      exact hkeep ⟨organizationId, .file response, by rw [hid], rfl⟩
    · rintro _ _ _ ⟨⟩
  | restoreFile organizationId fileId =>
    refine Ends.map ((restoreFile_healthy hs).mono fun o _ h => ⟨h.1.weaken, ?_⟩)
    rintro _ id response ⟨⟩ hok
    cases o with
    | ok file => exact h.2 file rfl
    | error e => cases hok
  | storeLocalUpload fileId expires signature upload =>
    refine Ends.map ((storeLocalUpload_healthy hs expires signature upload).mono
      fun _ _ h => ⟨h.weaken, ?_⟩)
    rintro _ _ _ ⟨⟩
  | clientUpload key body contentType =>
    refine Ends.map ((putObject_healthy hs key body contentType).mono fun _ _ h => ⟨h.weaken, ?_⟩)
    rintro _ _ _ ⟨⟩
  | billingUpdate plans subscriptions =>
    refine Ends.map ((writeSubscriptions_healthy hs plans subscriptions).mono
      fun _ _ h => ⟨h.weaken, ?_⟩)
    rintro _ _ _ ⟨⟩
  | maintain => exact absurd rfl hmaintain
  | getFile | getUsage | createDownloadTarget | readLocalDownload | reconcileOrphans =>
    cases hlifecycle

end Requests

/-! ## Sequences of requests -/

theorem regained_concat (fileId : Id) (past : List FileStep) (step : FileStep) :
    regained fileId (past ++ [step]) = if restores fileId step then true
      else if deletes fileId step then false else regained fileId past := by
  simp only [regained, List.foldl_append, List.foldl_cons, List.foldl_nil]

theorem regained_other {fileId : Id} {past : List FileStep} {step : FileStep}
    (hrestores : restores fileId step = false) (hdeletes : deletes fileId step = false) :
    regained fileId (past ++ [step]) = regained fileId past := by
  rw [regained_concat, hrestores, hdeletes]
  rfl

theorem restores_iff {fileId : Id} {step : FileStep} : restores fileId step = true ↔
    ∃ organizationId response, step.call.request = .restoreFile organizationId fileId ∧
      step.outcome = .ok response := by
  unfold restores
  constructor
  · intro h
    split at h
    · next organizationId id response hrequest houtcome =>
      rw [beq_iff_eq.mp h] at hrequest
      exact ⟨organizationId, response, hrequest, houtcome⟩
    · cases h
  · rintro ⟨organizationId, response, hrequest, houtcome⟩
    rw [hrequest, houtcome]
    exact beq_self_eq_true fileId

theorem deletes_iff {fileId : Id} {step : FileStep} : deletes fileId step = true ↔
    ∃ organizationId response, step.call.request = .deleteFile organizationId fileId ∧
      step.outcome = .ok response := by
  unfold deletes
  constructor
  · intro h
    split at h
    · next organizationId id response hrequest houtcome =>
      rw [beq_iff_eq.mp h] at hrequest
      exact ⟨organizationId, response, hrequest, houtcome⟩
    · cases h
  · rintro ⟨organizationId, response, hrequest, houtcome⟩
    rw [hrequest, houtcome]
    exact beq_self_eq_true fileId

/-- Every restored file is there, ready or waiting for a scan. -/
def Recovered (past : List FileStep) (w : World) : Prop :=
  ∀ fileId, regained fileId past = true →
    ∃ f ∈ w.store.storedFiles, f.id = fileId ∧ (f.status = .ready ∨ f.status = .scanning)

section Sequences
variable {env : Environment} {past : List FileStep} {step : FileStep}

theorem Survives.recovered (h : Survives env past step) : Recovered (past ++ [step]) step.after := by
  intro fileId hregained
  obtain ⟨f, hf, hid, hready | hscanning⟩ := h fileId hregained
  · exact ⟨f, hf, hid, .inl hready⟩
  · exact ⟨f, hf, hid, .inr hscanning.1⟩

theorem Served.survives
    (h : Served step.call.request step.before.store step.outcome step.after.store)
    (hs : step.before.store.Stocked) (hrecovered : Recovered past step.before)
    (hmaintain : step.call.request ≠ .maintain) : Survives env past step := by
  have hwaits (fileId : Id) : ¬ Processes env step fileId := fun hprocesses =>
    hmaintain hprocesses.1
  intro fileId hregained
  rw [regained_concat] at hregained
  cases hrestores : restores fileId step with
  | true =>
    obtain ⟨organizationId, response, hrequest, houtcome⟩ := restores_iff.mp hrestores
    obtain ⟨hdeleted, f, hf, hid, hback⟩ := h.regains _ _ _ hrequest houtcome
    refine ⟨f, hf, hid, hback.imp_right fun hscanning => ⟨hscanning, hwaits _, fun g hg hgid => ?_⟩⟩
    rw [hdeleted g hg hgid]
    exact nofun
  | false =>
    cases hdeletes : deletes fileId step with
    | true => simp only [hrestores, hdeletes, Bool.false_eq_true, if_false, if_true] at hregained
    | false =>
      simp only [hrestores, hdeletes, Bool.false_eq_true, if_false] at hregained
      obtain ⟨f, hf, hid, hstatus⟩ := hrecovered fileId hregained
      -- the row is still the same one
      have hkept := h.spares.kept f hf hstatus.symm fun ⟨organizationId, response, hrequest, hok⟩ => by
        rw [hid] at hrequest
        exact absurd (deletes_iff.mpr ⟨_, _, hrequest, hok⟩) (by rw [hdeletes]; exact nofun)
      refine ⟨f, hkept, hid, hstatus.imp_right fun hscanning => ⟨hscanning, hwaits _, ?_⟩⟩
      intro g hg hgid
      rw [hs.keyed.inj hg hf (hgid.trans hid.symm), hscanning]
      exact nofun

theorem Maintained.survives_iff
    (h : Maintained env (step.call.inputs 0).now step.before.store step.after.store)
    (hs : step.before.store.Stocked) (hrecovered : Recovered past step.before)
    (hmaintain : step.call.request = .maintain) : Survives env past step ↔ InTime env past step := by
  have hsame (fileId : Id) : regained fileId (past ++ [step]) = regained fileId past := by
    refine regained_other ?_ ?_ <;> simp [restores, deletes, hmaintain]
  constructor
  · intro hsurvives _ f hf hregained
    rw [← hsame] at hregained
    obtain ⟨f', hf', hid, hstatus⟩ := hsurvives f.id hregained
    by_contra hoverdue
    rcases h.timedOut f hf (Bool.eq_true_of_not_eq_false hoverdue) f' hf' hid with hlost | hlost <;>
      rcases hstatus with hstatus | ⟨hstatus, -⟩ <;> rw [hstatus] at hlost <;> cases hlost
  · intro htime fileId hregained
    rw [hsame] at hregained
    obtain ⟨f, hf, hid, hstatus⟩ := hrecovered fileId hregained
    by_cases hbatch : fileId ∈ (scanBatch env step.before.store).map StoredFile.id
    · obtain ⟨b, hb, hbid⟩ := List.mem_map.mp hbatch
      have hdue := htime hmaintain b hb (by rw [hbid]; exact hregained)
      obtain ⟨f', hf', hid', hready⟩ := h.scanned b hb hdue
      exact ⟨f', hf', hid'.trans hbid, .inl hready⟩
    · obtain ⟨f', hf', hid', hstatus'⟩ := h.kept f hf hstatus.symm (by rw [hid]; exact hbatch)
      rw [← hstatus'] at hstatus
      refine ⟨f', hf', hid'.trans hid, hstatus.imp_right fun hscanning => ⟨hscanning, ?_, ?_⟩⟩
      · exact fun hprocesses => hbatch hprocesses.2
      · intro g hg hgid
        rw [hs.keyed.inj hg hf (hgid.trans hid.symm), ← hstatus', hscanning]
        exact nofun

theorem perform_recovers (henv : env.scannerEnabled = true) (pid : Nat) (past : List FileStep)
    {w : World} {call : Call Request Input} (hcall : call.request.ofLifecycle = true)
    (hhealthy : ∃ now, ∀ n, Healthy now (call.inputs n)) (hs : w.store.Stocked) :
    (perform (handler env) pid call w).after.store.Stocked ∧ (Recovered past w →
      (Survives env past (perform (handler env) pid call w) ↔
        InTime env past (perform (handler env) pid call w))) := by
  obtain ⟨now, hinputs⟩ := hhealthy
  by_cases hmaintain : call.request = .maintain
  · have hends : Ends (Healthy now) pid (fun _ w' => Maintained env now w.store w'.store)
        (handler env call.request) w := by
      rw [hmaintain]
      exact Ends.map (maintain_healthy henv hs)
    have h := hends.alone hinputs
    refine ⟨h.stocked, fun hrecovered => Maintained.survives_iff ?_ hs hrecovered hmaintain⟩
    rw [← (hinputs 0).1] at h
    exact h
  · have hends : Ends (Healthy now) pid (fun o w' => Served call.request w.store o w'.store)
        (handler env call.request) w := handler_healthy henv hs hcall hmaintain
    have h := hends.alone hinputs
    refine ⟨h.spares.stocked, fun hrecovered => iff_of_true ?_ fun hrequest => ?_⟩
    · exact Served.survives h hs hrecovered hmaintain
    · exact absurd hrequest hmaintain

theorem stocked_empty (nextId : Id) (users : List FileUploader) (plans : List Billing.Plan)
    (subscriptions : List Billing.Subscription) :
    (Store.empty nextId users plans subscriptions).Stocked := by
  constructor
  · simp [Store.empty, SoundFiles, distinct]
  · simp [Store.empty, Keyed, Below]
  · simp [Store.empty]
  · simp [Store.empty]

end Sequences

/-- A restored file becomes ready with its next scan and stays so until it is deleted again,
in exactly the sequences in which the scanner gets to it within a day of its upload. -/
theorem restored_files_survive (env : Environment) (henv : env.scannerEnabled = true) (nextId : Id)
    (users : List FileUploader) (plans : List Billing.Plan)
    (subscriptions : List Billing.Subscription) (calls : List (Call Request Input))
    (hcalls : ∀ call ∈ calls, call.request.ofLifecycle = true ∧
      ∃ now, ∀ n, Healthy now (call.inputs n)) :
    Throughout (Survives env)
        (history (handler env) 0 ⟨.empty nextId users plans subscriptions, []⟩ calls) ↔
      Throughout (InTime env)
        (history (handler env) 0 ⟨.empty nextId users plans subscriptions, []⟩ calls) := by
  -- the induction needs the restored files to be there
  let P : List FileStep → World → Prop := fun past w => w.store.Stocked ∧
    (Throughout (Survives env) past → Recovered past w) ∧
    (Throughout (Survives env) past ↔ Throughout (InTime env) past)
  have h : P (history (handler env) 0 ⟨.empty nextId users plans subscriptions, []⟩ calls)
      (lastWorld ⟨.empty nextId users plans subscriptions, []⟩
        (history (handler env) 0 ⟨.empty nextId users plans subscriptions, []⟩ calls)) := by
    apply history_induction
    · refine ⟨stocked_empty nextId users plans subscriptions, fun _ fileId hregained => ?_, ?_⟩
      · cases hregained
      · exact iff_of_true throughout_nil throughout_nil
    · rintro pid past w call rest rfl ⟨hs, hrecovered, hiff⟩
      obtain ⟨hcall, hhealthy⟩ := hcalls call (List.mem_append_right _ List.mem_cons_self)
      obtain ⟨hs', hstep⟩ := perform_recovers henv pid past hcall hhealthy hs
      refine ⟨hs', fun h => (throughout_concat.mp h).2.recovered, ?_⟩
      rw [throughout_concat, throughout_concat, ← hiff]
      exact and_congr_right fun hpast => hstep (hrecovered hpast)
  exact h.2.2

/-- A file is uploaded, deleted and restored at the given time. Then the timer ticks. -/
def uploadAndRecover (restoredAt : Time) : List (Call Request Input) :=
  [⟨.initiateUpload 1 0 ⟨"a.png", "image/png", 8, Environment.transparent.sha256 []⟩,
      fun _ => .at 0 (some .clean)⟩,
    ⟨.clientUpload "objects/1/2" [0x89, 0x50, 0x4e, 0x47, 0x0d, 0x0a, 0x1a, 0x0a] "image/png",
      fun _ => .at 1 (some .clean)⟩,
    ⟨.completeUpload 1 2, fun _ => .at 1 (some .clean)⟩,
    ⟨.deleteFile 1 2, fun _ => .at 2 (some .clean)⟩,
    ⟨.restoreFile 1 2, fun _ => .at restoredAt (some .clean)⟩,
    ⟨.maintain, fun _ => .at (restoredAt + 1) (some .clean)⟩]

theorem uploadAndRecover_healthy (restoredAt : Time) : ∀ call ∈ uploadAndRecover restoredAt,
    call.request.ofLifecycle = true ∧ ∃ now, ∀ n, Healthy now (call.inputs n) := by
  simp [uploadAndRecover, Request.ofLifecycle, Healthy, Input.at]

theorem restored_files_survive_soon : Throughout (Survives .transparent) (history
    (handler .transparent) 0 ⟨.empty 2 [⟨0, none⟩] [freePlan] [], []⟩ (uploadAndRecover 3)) := by
  refine (restored_files_survive .transparent rfl 2 [⟨0, none⟩] [freePlan] []
    (uploadAndRecover 3) (uploadAndRecover_healthy 3)).mpr ?_
  decide +kernel

/-- A file that is restored a day after its upload is purged by the next tick. -/
theorem restored_file_purged :
    let record := history (handler .transparent) 0 ⟨.empty 2 [⟨0, none⟩] [freePlan] [], []⟩
      (uploadAndRecover 86400001)
    Environment.transparent.scannerEnabled = true ∧
      (∀ call ∈ uploadAndRecover 86400001, call.request.ofLifecycle = true ∧
        ∃ now, ∀ n, Healthy now (call.inputs n)) ∧
      regained 2 record = true ∧
      (record.map fun step => step.after.store.storedFiles.map StoredFile.status) =
        [[.pending], [.pending], [.scanning], [.deleted], [.scanning], [.purged]] ∧
      ¬ Throughout (Survives .transparent) record := by
  intro record
  refine ⟨rfl, uploadAndRecover_healthy _, by decide +kernel, by decide +kernel, fun h => ?_⟩
  let last : Fin record.length := ⟨5, by decide +kernel⟩
  have hpurged : (record.get last).after.store.storedFiles.map StoredFile.status = [.purged] := by
    decide +kernel
  obtain ⟨f, hf, -, hstatus⟩ := throughout_iff_take.mp h last 2 (by decide +kernel)
  have hmem := List.mem_map_of_mem (f := StoredFile.status) hf
  rw [hpurged, List.mem_singleton] at hmem
  rw [hmem] at hstatus
  rcases hstatus with hready | ⟨hscanning, -⟩
  · cases hready
  · cases hscanning

end ShipFlow.Files
