import ShipFlow.Files.Operations

/-! What the requests do while storage answers and every scan is clean. Each of them runs at
one instant. -/

namespace ShipFlow.Files
open Interleaving Interleaving.Process Relational

/-- The inputs of a request at one instant, with storage and scanner in order. -/
abbrev Healthy (now : Time) (i : Input) : Prop :=
  i.now = now ∧ i.storageFailure = false ∧ i.scan = some .clean

/-- The file can be recovered or downloaded, so its object has to be there. -/
def StoredFile.kept (f : StoredFile) : Prop :=
  f.status = .scanning ∨ f.status = .ready ∨ f.status = .deleted

def Store.HasObject (s : Store) (key : String) : Prop := ∃ o ∈ s.objects, o.key = key

structure Store.Stocked (s : Store) : Prop where
  sound : SoundFiles s.storedFiles
  keyed : Keyed s.nextId StoredFile.id s.storedFiles
  objects : ∀ f ∈ s.storedFiles, f.kept → s.HasObject f.objectKey
  keys : ∀ f ∈ s.storedFiles, isRowKey f.objectKey = true

def Store.updated (s : Store) (t : Transition) : Store :=
  { s with storedFiles := updateRows t.selects t.apply s.storedFiles }

section Stocked
variable {s : Store} {t : Transition} {f : StoredFile}

theorem Transition.apply_valid (t : Transition) (h : f.valid = true)
    (hcheck : (t.apply f).lifecycleCheck = true) : (t.apply f).valid = true := by
  have hsame : (t.apply f).sizeBytes = f.sizeBytes ∧
      (t.apply f).checksumSha256 = f.checksumSha256 ∧
      (t.apply f).originalName = f.originalName := by
    cases t <;> exact ⟨rfl, rfl, rfl⟩
  unfold StoredFile.valid at h ⊢
  rw [hsame.1, hsame.2.1, hsame.2.2, hcheck]
  simp only [Bool.and_eq_true] at h ⊢
  exact ⟨h.1, True.intro⟩

theorem collides_apply (t : Transition) (a b : StoredFile) :
    storedFiles.collides (t.apply a) b = storedFiles.collides a b ∧
      storedFiles.collides a (t.apply b) = storedFiles.collides a b := by
  simp only [storedFiles, (t.apply_keys a).1, (t.apply_keys a).2, (t.apply_keys b).1,
    (t.apply_keys b).2, and_self]

/-- An update keeps the table sound if it leaves every row in a state that the lifecycle
check admits. -/
theorem SoundFiles.updated (h : SoundFiles s.storedFiles)
    (hcheck : ∀ f ∈ s.storedFiles, t.selects f = true → (t.apply f).lifecycleCheck = true) :
    SoundFiles (s.updated t).storedFiles := by
  constructor
  · intro f' hf'
    rcases mem_updateRows.mp hf' with ⟨hf, -⟩ | ⟨f, hf, hsel, rfl⟩
    · exact h.1 f' hf
    · exact t.apply_valid (h.1 f hf) (hcheck f hf hsel)
  · rw [Store.updated, distinct_updateRows (collides_apply t)]
    exact h.2

theorem Store.Stocked.updated (h : s.Stocked)
    (hcheck : ∀ f ∈ s.storedFiles, t.selects f = true → (t.apply f).lifecycleCheck = true)
    (hobjects : ∀ f ∈ s.storedFiles, t.selects f = true → (t.apply f).kept →
      s.HasObject f.objectKey) : (s.updated t).Stocked := by
  refine ⟨h.sound.updated hcheck, h.keyed.updateRows fun f => (t.apply_keys f).1,
    fun f' hf' hkept => ?_, fun f' hf' => ?_⟩
  · rcases mem_updateRows.mp hf' with ⟨hf, -⟩ | ⟨f, hf, hsel, rfl⟩
    · exact h.objects f' hf hkept
    · rw [(t.apply_keys f).2]
      exact hobjects f hf hsel hkept
  · rcases mem_updateRows.mp hf' with ⟨hf, -⟩ | ⟨f, hf, hsel, rfl⟩
    · exact h.keys f' hf
    · rw [(t.apply_keys f).2]
      exact h.keys f hf

/-- A row that the update does not select stays as it is. -/
theorem mem_updated_off (hf : f ∈ s.storedFiles) (hsel : t.selects f = false) :
    f ∈ (s.updated t).storedFiles := mem_updateRows.mpr (.inl ⟨hf, hsel⟩)

theorem mem_updated (hf : f ∈ s.storedFiles) (hsel : t.selects f = true) :
    t.apply f ∈ (s.updated t).storedFiles := mem_updateRows.mpr (.inr ⟨f, hf, hsel, rfl⟩)

theorem Transition.selects_off (t : Transition) (h : f.id ≠ t.fileId) : t.selects f = false := by
  rw [Transition.selects, beq_eq_false_iff_ne.mpr h, Bool.false_and]

theorem Transition.selects_id (h : t.selects f = true) : f.id = t.fileId := by
  rw [Transition.selects, Bool.and_eq_true] at h
  exact beq_iff_eq.mp h.1

/-- Two rows of a sound table have different keys. -/
theorem SoundFiles.eq_of_key {rows : List StoredFile} (h : SoundFiles rows) {a b : StoredFile}
    (ha : a ∈ rows) (hb : b ∈ rows) (hkey : a.objectKey = b.objectKey) : a = b := by
  have hkeys : (rows.map StoredFile.objectKey).Nodup := by
    rw [List.Nodup, List.pairwise_map]
    refine (distinct_iff_pairwise.mp h.2).imp fun hab heq => ?_
    simp only [storedFiles, heq, beq_self_eq_true, Bool.or_true, Bool.true_eq_false] at hab
  exact List.inj_on_of_nodup_map hkeys ha hb hkey

end Stocked

/-! ## Single actions -/

section Actions
variable {env : Environment} {now : Time} {pid : Nat} {w : World} {α : Type}

theorem storageCall_leads {call : Input → Tx α} {a : α} {s : Store}
    (h : ∀ i, Healthy now i → call i w.store = .ok (a, s)) :
    Leads (Healthy now) pid (storageCall call) w a s := by
  refine Leads.atomically fun i hi => ?_
  rw [hi.2.1]
  exact h i hi

theorem setLifecycleState_leads (key : String) (state : LifecycleState) :
    Leads (Healthy now) pid (setLifecycleState key state) w () w.store :=
  storageCall_leads fun _ _ => rfl

theorem syncLifecycleState_leads (fileId : Id) (key : String) (state : LifecycleState) :
    Leads (Healthy now) pid (syncLifecycleState fileId key state) w () w.store :=
  Leads.handle (setLifecycleState_leads key state)

theorem deleteObject_leads {key : String} (h : isRowKey key = true) :
    Leads (Healthy now) pid (deleteObject env key) w ()
      { w.store with objects := w.store.objects.filter fun o => !(o.key == key) } :=
  storageCall_leads fun _ _ => removeObject_ok.mpr ⟨refusesKey_row env h, rfl⟩

theorem inspectObject_leads {key : String} (h : w.store.HasObject key) :
    ∃ object, Leads (Healthy now) pid (inspectObject env key) w object w.store := by
  obtain ⟨o, ho, hkey⟩ := h
  cases hfound : w.store.objects.find? fun o => o.key == key with
  | none => exact absurd (beq_iff_eq.mpr hkey) (List.find?_eq_none.mp hfound o ho)
  | some object =>
    have hread : (Transaction.reads fun s : Store => s.objects.find? fun o => o.key == key : Tx _)
        w.store = .ok (some object, w.store) :=
      (Transaction.reads_ok _ _ _ _).mpr ⟨hfound.symm, rfl⟩
    exact ⟨_, storageCall_leads fun _ _ =>
      (Transaction.bind_ok _ _ _ _ _).mpr ⟨some object, w.store, hread, rfl⟩⟩

/-- An update of a row that is there and stays admissible. -/
theorem update_leads {t : Transition} {f : StoredFile} (hs : SoundFiles w.store.storedFiles)
    (hf : f ∈ w.store.storedFiles) (hsel : t.selects f = true)
    (hcheck : ∀ f ∈ w.store.storedFiles, t.selects f = true → (t.apply f).lifecycleCheck = true) :
    ∃ r, Leads (Healthy now) pid (update t) w r (w.store.updated t) := by
  obtain ⟨f₀, hfound⟩ := Option.isSome_iff_exists.mp
    (List.find?_isSome.mpr ⟨f, hf, hsel⟩ : (w.store.storedFiles.find? t.selects).isSome)
  refine ⟨(t.apply f₀, (w.store.updated t).findUploader (t.apply f₀).uploadedById),
    Leads.atomically fun _ _ => ?_⟩
  have hupdate : (storedFiles.update t.selects t.apply : Tx StoredFile) w.store =
      .ok (t.apply f₀, w.store.updated t) :=
    Table.update_ok.mpr ⟨f₀, hfound, (storedFiles_sound _ _).mpr (hs.updated hcheck), rfl, rfl⟩
  exact (Transaction.bind_ok _ _ _ _ _).mpr ⟨_, _, hupdate, rfl⟩

theorem updateScanning_leads {t : Transition} (hs : SoundFiles w.store.storedFiles)
    (hcheck : ∀ f ∈ w.store.storedFiles, t.selects f = true → (t.apply f).lifecycleCheck = true) :
    Leads (Healthy now) pid (updateScanning t) w () (w.store.updated t) := by
  have hupdate : (storedFiles.updateMany t.selects t.apply : Tx Nat) w.store =
      .ok (w.store.storedFiles.countP t.selects, w.store.updated t) :=
    Table.updateMany_ok.mpr ⟨(storedFiles_sound _ _).mpr (hs.updated hcheck), rfl, rfl⟩
  exact Leads.bind (Leads.atomically fun _ _ => hupdate) fun w' hw' => ⟨rfl, hw'⟩

end Actions

/-! ## Sweeps of the timer -/

section Sweeps
variable {g : Store → StoredFile → Store} {t : StoredFile → Transition} {s : Store}
  {f : StoredFile} {batch : List StoredFile}

/-- A sweep over a batch of rows leaves the others alone. -/
theorem sweep_off
    (hg : ∀ s b, (g s b).storedFiles = updateRows (t b).selects (t b).apply s.storedFiles)
    (ht : ∀ b, (t b).fileId = b.id) (hf : f ∈ s.storedFiles)
    (hid : f.id ∉ batch.map StoredFile.id) : f ∈ (batch.foldl g s).storedFiles := by
  induction batch generalizing s with
  | nil => exact hf
  | cons b batch ih =>
    rw [List.map_cons, List.mem_cons, not_or] at hid
    refine ih ?_ hid.2
    rw [hg]
    refine mem_updateRows.mpr (.inl ⟨hf, (t b).selects_off ?_⟩)
    rw [ht]
    exact hid.1

/-- A sweep updates each row of its batch once. -/
theorem sweep_on
    (hg : ∀ s b, (g s b).storedFiles = updateRows (t b).selects (t b).apply s.storedFiles)
    (ht : ∀ b, (t b).fileId = b.id) (hnodup : (batch.map StoredFile.id).Nodup) (hf : f ∈ batch)
    (hmem : f ∈ s.storedFiles) (hsel : (t f).selects f = true) :
    (t f).apply f ∈ (batch.foldl g s).storedFiles := by
  induction batch generalizing s with
  | nil => cases hf
  | cons b batch ih =>
    rw [List.map_cons, List.nodup_cons] at hnodup
    rcases List.mem_cons.mp hf with rfl | hf
    · rw [List.foldl_cons]
      refine sweep_off hg ht ?_ ?_
      · rw [hg]
        exact mem_updateRows.mpr (.inr ⟨f, hmem, hsel, rfl⟩)
      · rw [((t f).apply_keys f).1]
        exact hnodup.1
    · refine ih hnodup.2 hf ?_
      rw [hg]
      refine mem_updateRows.mpr (.inl ⟨hmem, (t b).selects_off ?_⟩)
      rw [ht]
      rintro heq
      exact hnodup.1 (heq ▸ List.mem_map_of_mem hf)

/-- The rows that a sweep has still to do are as they were found. -/
theorem sweep_leads {now : Time} {pid : Nat} {w : World} {P : StoredFile → Prop}
    {p : StoredFile → Handler Unit}
    (hg : ∀ s b, (g s b).storedFiles = updateRows (t b).selects (t b).apply s.storedFiles)
    (ht : ∀ b, (t b).fileId = b.id)
    (hone : ∀ b (w : World), w.store.Stocked → b ∈ w.store.storedFiles → P b →
      Leads (Healthy now) pid (p b) w () (g w.store b) ∧ (g w.store b).Stocked)
    (hs : w.store.Stocked) (hnodup : (batch.map StoredFile.id).Nodup)
    (hbatch : ∀ b ∈ batch, b ∈ w.store.storedFiles ∧ P b) :
    Leads (Healthy now) pid (forEach p batch) w () (batch.foldl g w.store) ∧
      (batch.foldl g w.store).Stocked := by
  have hstep : ∀ b rest (w : World), (w.store.Stocked ∧ ((b :: rest).map StoredFile.id).Nodup ∧
      ∀ c ∈ b :: rest, c ∈ w.store.storedFiles ∧ P c) →
      Leads (Healthy now) pid (p b) w () (g w.store b) ∧ (g w.store b).Stocked ∧
        (rest.map StoredFile.id).Nodup ∧ ∀ c ∈ rest, c ∈ (g w.store b).storedFiles ∧ P c := by
    rintro b rest w h
    obtain ⟨hs, hnodup, hbatch⟩ := h
    obtain ⟨hmem, hb⟩ := hbatch b List.mem_cons_self
    obtain ⟨hleads, hstocked⟩ := hone b w hs hmem hb
    rw [List.map_cons, List.nodup_cons] at hnodup
    refine ⟨hleads, hstocked, hnodup.2, fun c hc => ?_⟩
    obtain ⟨hcmem, hcP⟩ := hbatch c (List.mem_cons_of_mem b hc)
    refine ⟨?_, hcP⟩
    rw [hg]
    refine mem_updateRows.mpr (.inl ⟨hcmem, (t b).selects_off ?_⟩)
    rw [ht]
    rintro heq
    exact hnodup.1 (heq ▸ List.mem_map_of_mem hc)
  have hsweep := Leads.forEach (J := fun (rest : List StoredFile) (s : Store) => s.Stocked ∧
    (rest.map StoredFile.id).Nodup ∧ ∀ b ∈ rest, b ∈ s.storedFiles ∧ P b) hstep ⟨hs, hnodup, hbatch⟩
  exact ⟨hsweep.1, hsweep.2.1⟩

end Sweeps

/-! ## The timer -/

/-- The files of one sweep of the scanner. -/
def scanBatch (env : Environment) (s : Store) : List StoredFile :=
  ((s.storedFiles.filter fun f =>
    f.storageProvider == env.provider && f.status == .scanning).insertionSort
      fun a b => a.uploadedAt.getD 0 ≤ b.uploadedAt.getD 0).take 100

/-- The upload is so long ago that the file is no longer scanned. -/
def StoredFile.overdue (now : Time) (f : StoredFile) : Bool :=
  f.uploadedAt.any fun uploadedAt => uploadedAt ≤ now - FILE_SCAN_TIMEOUT_MS

def verdict (now : Time) (f : StoredFile) : Transition :=
  if f.overdue now then .scanFailed f.id .failed (f.scanAttempts + 1) now else .scanClean f.id now

section Timer
variable {env : Environment} {now : Time} {pid : Nat} {w : World} {s : Store} {f : StoredFile}

theorem scanBatch_mem (h : f ∈ scanBatch env s) : f ∈ s.storedFiles ∧ f.status = .scanning := by
  have hf := List.mem_of_mem_take h
  rw [List.mem_insertionSort, List.mem_filter, Bool.and_eq_true, beq_iff_eq, beq_iff_eq] at hf
  exact ⟨hf.1, hf.2.2⟩

/-- A batch is a part of the table, in some order. -/
theorem batch_nodup {p : StoredFile → Bool} {r : StoredFile → StoredFile → Prop}
    [DecidableRel r] (hs : s.Stocked) :
    ((((s.storedFiles.filter p).insertionSort r).take 100).map StoredFile.id).Nodup := by
  have hsorted : (((s.storedFiles.filter p).insertionSort r).map StoredFile.id).Nodup :=
    ((List.perm_insertionSort r _).map StoredFile.id).nodup_iff.mpr (hs.keyed.filter p).2
  exact hsorted.sublist ((List.take_sublist 100 _).map StoredFile.id)

theorem verdict_fileId (now : Time) (f : StoredFile) : (verdict now f).fileId = f.id := by
  unfold verdict
  split
  · rfl
  · rfl

theorem verdict_selects (hstatus : f.status = .scanning) : (verdict now f).selects f = true := by
  rw [Transition.selects, verdict_fileId, beq_self_eq_true, hstatus, beq_self_eq_true, Bool.or_true,
    Bool.true_and]

theorem verdict_scanning {file : StoredFile} (h : (verdict now file).selects f = true) :
    f.status = .scanning := by
  have hwhile : (verdict now file).whileScanning = true := by
    unfold verdict
    split
    · rfl
    · rfl
  rw [Transition.selects, hwhile, Bool.and_eq_true] at h
  simpa using h.2

theorem StoredFile.valid_lifecycle (h : f.valid = true) : f.lifecycleCheck = true := by
  rw [StoredFile.valid, Bool.and_eq_true] at h
  exact h.2

theorem verdict_check {file : StoredFile} (h : f.lifecycleCheck = true) (hstatus : f.status = .scanning) :
    ((verdict now file).apply f).lifecycleCheck = true := by
  simp only [StoredFile.lifecycleCheck, hstatus, Bool.and_eq_true] at h
  unfold verdict
  split
  · simp [Transition.apply, StoredFile.lifecycleCheck, h.2]
  · simp [Transition.apply, StoredFile.lifecycleCheck, h.1.1, h.1.2, h.2]

theorem Store.Stocked.judged (hs : s.Stocked) (now : Time) (file : StoredFile) :
    (s.updated (verdict now file)).Stocked := by
  refine hs.updated (fun f hf hsel => ?_) fun f hf hsel _ => ?_
  · exact verdict_check (StoredFile.valid_lifecycle (hs.sound.1 f hf)) (verdict_scanning hsel)
  · exact hs.objects f hf (.inl (verdict_scanning hsel))

theorem tagScanned_leads (fileId : Id) (state : LifecycleState) :
    Leads (Healthy now) pid (tagScanned fileId state) w () w.store := by
  unfold tagScanned
  refine Ends.query ?_
  cases w.store.storedFiles.find? fun f => f.id == fileId with
  | none => exact Leads.pure
  | some file => exact setLifecycleState_leads file.objectKey state

theorem processScan_leads (hs : w.store.Stocked) {file : StoredFile}
    (hfile : file ∈ w.store.storedFiles) (hstatus : file.status = .scanning) :
    Leads (Healthy now) pid (processScan env file) w () (w.store.updated (verdict now file)) := by
  have hcheck : ∀ f ∈ w.store.storedFiles, (verdict now file).selects f = true →
      ((verdict now file).apply f).lifecycleCheck = true := fun f hf hsel =>
    verdict_check (StoredFile.valid_lifecycle (hs.sound.1 f hf)) (verdict_scanning hsel)
  unfold processScan
  refine Ends.ask fun i hi => ?_
  rw [hi.1, ← StoredFile.overdue]
  cases hoverdue : file.overdue now with
  | true =>
    have hverdict : verdict now file = .scanFailed file.id .failed (file.scanAttempts + 1) now := by
      rw [verdict, hoverdue, if_pos rfl]
    rw [if_pos rfl]
    refine Ends.ask fun j hj => ?_
    rw [hj.1, ← hverdict]
    exact updateScanning_leads hs.sound hcheck
  | false =>
    have hverdict : verdict now file = .scanClean file.id now := by
      rw [verdict, hoverdue, if_neg Bool.false_ne_true]
    rw [if_neg Bool.false_ne_true]
    -- the storage has the object, and the scanner finds it clean
    obtain ⟨object, hobject⟩ : ∃ object, Leads (Healthy now) pid
        (inspectObject env file.objectKey) w object w.store :=
      inspectObject_leads (hs.objects file hfile (.inl hstatus))
    refine Leads.handle (Leads.bind hobject fun w₁ hw₁ => ?_)
    have hscan : Leads (Healthy now) pid (scan file object.body) w₁ .clean w₁.store := by
      refine Leads.atomically fun j hj => ?_
      rw [hj.2.2]
      rfl
    refine Leads.bind hscan fun w₂ hw₂ => Leads.bind (tagScanned_leads file.id .ready) fun w₃ hw₃ =>
      Ends.ask fun j hj => ?_
    have hstore : w₃.store = w.store := hw₃.trans (hw₂.trans hw₁)
    rw [hj.1, ← hverdict, ← hstore]
    refine updateScanning_leads ?_ ?_
    · rw [hstore]
      exact hs.sound
    · rw [hstore]
      exact hcheck

theorem processScans_leads (now : Time) (pid : Nat) (henv : env.scannerEnabled = true)
    (hs : w.store.Stocked) :
    Leads (Healthy now) pid (processScans env) w ()
        ((scanBatch env w.store).foldl (fun s f => s.updated (verdict now f)) w.store) ∧
      ((scanBatch env w.store).foldl (fun s f => s.updated (verdict now f)) w.store).Stocked := by
  have hone : ∀ b (w : World), w.store.Stocked → b ∈ w.store.storedFiles → b.status = .scanning →
      Leads (Healthy now) pid (processScan env b) w () (w.store.updated (verdict now b)) ∧
        (w.store.updated (verdict now b)).Stocked := fun b w hs hb hstatus =>
    ⟨processScan_leads hs hb hstatus, hs.judged now b⟩
  have hbatch : ∀ b ∈ scanBatch env w.store, b ∈ w.store.storedFiles ∧ b.status = .scanning :=
    fun b hb => scanBatch_mem hb
  have hnodup : ((scanBatch env w.store).map StoredFile.id).Nodup := batch_nodup hs
  have hsweep := sweep_leads (g := fun s f => s.updated (verdict now f)) (t := verdict now)
    (fun _ _ => rfl) (verdict_fileId now) hone hs hnodup hbatch
  refine ⟨?_, hsweep.2⟩
  unfold processScans
  rw [if_pos henv]
  exact Ends.query hsweep.1

theorem retryLifecycleTag_leads (hs : w.store.Stocked) {file : StoredFile}
    (hfile : file ∈ w.store.storedFiles) (hretried : (retriedState file.status).isSome) :
    Leads (Healthy now) pid (retryLifecycleTag file) w ()
        (w.store.updated (.tagUpdated file.id)) ∧
      (w.store.updated (.tagUpdated file.id)).Stocked := by
  have hcheck : ∀ f ∈ w.store.storedFiles, (Transition.tagUpdated file.id).selects f = true →
      ((Transition.tagUpdated file.id).apply f).lifecycleCheck = true := fun f hf _ =>
    StoredFile.valid_lifecycle (f := f) (hs.sound.1 f hf)
  constructor
  · obtain ⟨state, hstate⟩ := Option.isSome_iff_exists.mp hretried
    unfold retryLifecycleTag
    rw [hstate]
    refine Leads.handle (Leads.bind (setLifecycleState_leads file.objectKey state) fun w₁ hw₁ => ?_)
    have hsel : (Transition.tagUpdated file.id).selects file = true := by
      simp [Transition.selects, Transition.fileId, Transition.whileScanning]
    rw [← hw₁] at hs hfile hcheck ⊢
    obtain ⟨r, hr⟩ := update_leads hs.sound hfile hsel hcheck
    exact Leads.bind hr fun w₂ hw₂ => ⟨rfl, hw₂⟩
  · exact hs.updated hcheck fun f hf _ hkept => hs.objects f hf hkept

/-- Retried tags leave every row in its state. -/
theorem retryLifecycleTags_leads (env : Environment) (now : Time) (pid : Nat)
    (hs : w.store.Stocked) :
    ∃ s', Leads (Healthy now) pid (retryLifecycleTags env) w () s' ∧ s'.Stocked ∧
      ∀ f ∈ w.store.storedFiles, ∃ f' ∈ s'.storedFiles, f'.id = f.id ∧ f'.status = f.status := by
  obtain ⟨batch, hbatch⟩ : ∃ batch, batch = (w.store.storedFiles.filter fun f =>
      f.storageProvider == env.provider &&
      f.lastLifecycleError == some "Object lifecycle tag update will be retried" &&
      (retriedState f.status).isSome).take 100 := ⟨_, rfl⟩
  have hmem : ∀ b ∈ batch, b ∈ w.store.storedFiles ∧ (retriedState b.status).isSome := by
    intro b hb
    rw [hbatch] at hb
    have hb' := List.mem_filter.mp (List.mem_of_mem_take hb)
    rw [Bool.and_eq_true] at hb'
    exact ⟨hb'.1, hb'.2.2⟩
  have hnodup : (batch.map StoredFile.id).Nodup := by
    rw [hbatch]
    exact (hs.keyed.filter _).2.sublist ((List.take_sublist 100 _).map StoredFile.id)
  have hsweep : Leads (Healthy now) pid (forEach retryLifecycleTag batch) w ()
      (batch.foldl (fun s f => s.updated (.tagUpdated f.id)) w.store) ∧
      (batch.foldl (fun s f => s.updated (.tagUpdated f.id)) w.store).Stocked :=
    sweep_leads (t := fun f => .tagUpdated f.id) (fun _ _ => rfl) (fun _ => rfl)
      (fun b w hs hb hretried => retryLifecycleTag_leads hs hb hretried) hs hnodup hmem
  refine ⟨_, ?_, hsweep.2, fun f hf => ?_⟩
  · unfold retryLifecycleTags
    refine Ends.query ?_
    rw [← hbatch]
    exact hsweep.1
  -- a row of the batch keeps its status, and any other one is left alone
  · by_cases hid : f.id ∈ batch.map StoredFile.id
    · obtain ⟨b, hb, hbid⟩ := List.mem_map.mp hid
      have hsame : b = f := hs.keyed.inj (hmem b hb).1 hf hbid
      subst hsame
      refine ⟨_, sweep_on (t := fun f => .tagUpdated f.id) (fun _ _ => rfl) (fun _ => rfl) hnodup hb
        hf ?_, rfl, rfl⟩
      simp [Transition.selects, Transition.fileId, Transition.whileScanning]
    · exact ⟨f, sweep_off (t := fun f => .tagUpdated f.id) (fun _ _ => rfl) (fun _ => rfl) hf hid,
        rfl, rfl⟩

/-- What is left when the object of a file has been deleted. -/
def purge (now : Time) (s : Store) (file : StoredFile) : Store :=
  { s.updated (.purged file.id now) with
    objects := s.objects.filter fun o => !(o.key == file.objectKey) }

theorem purgeExpiredRecord_leads (hs : w.store.Stocked) {file : StoredFile}
    (hfile : file ∈ w.store.storedFiles) :
    Leads (Healthy now) pid (purgeExpiredRecord env file) w () (purge now w.store file) ∧
      (purge now w.store file).Stocked := by
  have hcheck : ∀ f ∈ w.store.storedFiles, (Transition.purged file.id now).selects f = true →
      ((Transition.purged file.id now).apply f).lifecycleCheck = true := fun _ _ _ => rfl
  constructor
  · unfold purgeExpiredRecord
    refine Leads.handle (Leads.bind (deleteObject_leads (hs.keys file hfile)) fun w₁ hw₁ =>
      Ends.ask fun i hi => ?_)
    have hfiles : w₁.store.storedFiles = w.store.storedFiles := by rw [hw₁]
    have hsel : (Transition.purged file.id now).selects file = true := by
      simp [Transition.selects, Transition.fileId, Transition.whileScanning]
    obtain ⟨r, hr⟩ : ∃ r, Leads (Healthy now) pid (update (.purged file.id now)) w₁ r
        (w₁.store.updated (.purged file.id now)) :=
      update_leads (hfiles ▸ hs.sound) (hfiles ▸ hfile) hsel (hfiles ▸ hcheck)
    rw [hi.1]
    refine Leads.bind hr fun w₂ hw₂ => ⟨rfl, hw₂.trans ?_⟩
    rw [hw₁]
    rfl
  · have hupdated : (w.store.updated (.purged file.id now)).Stocked := by
      refine hs.updated hcheck fun f _ _ hkept => ?_
      rcases hkept with h | h | h <;> cases h
    refine ⟨hupdated.sound, hupdated.keyed, ?_, hupdated.keys⟩
    intro f' hf' hkept
    rcases mem_updateRows.mp hf' with ⟨hf, hsel⟩ | ⟨f, -, -, rfl⟩
    · obtain ⟨o, ho, hkey⟩ := hs.objects f' hf hkept
      refine ⟨o, List.mem_filter.mpr ⟨ho, ?_⟩, hkey⟩
      -- another file, so another key
      have hne : o.key ≠ file.objectKey := by
        intro heq
        have hsame := hs.sound.eq_of_key hf hfile (hkey.symm.trans heq)
        subst hsame
        simp [Transition.selects, Transition.fileId, Transition.whileScanning] at hsel
      rw [beq_eq_false_iff_ne.mpr hne, Bool.not_false]
    · rcases hkept with h | h | h <;> cases h

theorem StoredFile.expired_status (h : f.expired now = true) :
    f.status ≠ .scanning ∧ f.status ≠ .ready := by
  constructor <;> intro hstatus <;> simp [StoredFile.expired, hstatus] at h

/-- A purge takes only rows that are neither scanned nor ready. -/
theorem purgeExpiredRecords_leads (env : Environment) (now : Time) (pid : Nat)
    (hs : w.store.Stocked) :
    ∃ s', Leads (Healthy now) pid (purgeExpiredRecords env) w () s' ∧ s'.Stocked ∧
      ∀ f ∈ w.store.storedFiles, ∃ f' ∈ s'.storedFiles, f'.id = f.id ∧ (f'.status = f.status ∨
        (f.status ≠ .scanning ∧ f.status ≠ .ready) ∧ f'.status = .purged) := by
  obtain ⟨batch, hbatch⟩ : ∃ batch, batch = ((w.store.storedFiles.filter fun f =>
      f.storageProvider == env.provider && f.expired now).insertionSort
      fun a b => a.createdAt ≤ b.createdAt).take 100 := ⟨_, rfl⟩
  have hmem : ∀ b ∈ batch, b ∈ w.store.storedFiles ∧ b.expired now = true := by
    intro b hb
    rw [hbatch] at hb
    have hb' := List.mem_of_mem_take hb
    rw [List.mem_insertionSort, List.mem_filter, Bool.and_eq_true] at hb'
    exact ⟨hb'.1, hb'.2.2⟩
  have hnodup : (batch.map StoredFile.id).Nodup := by
    rw [hbatch]
    exact batch_nodup hs
  have hsweep : Leads (Healthy now) pid (forEach (purgeExpiredRecord env) batch) w ()
      (batch.foldl (purge now) w.store) ∧ (batch.foldl (purge now) w.store).Stocked :=
    sweep_leads (t := fun f => .purged f.id now) (fun _ _ => rfl) (fun _ => rfl)
      (fun b w hs hb _ => purgeExpiredRecord_leads hs hb) hs hnodup hmem
  refine ⟨_, ?_, hsweep.2, fun f hf => ?_⟩
  · unfold purgeExpiredRecords
    refine Ends.ask fun i hi => Ends.query ?_
    rw [hi.1, ← hbatch]
    exact hsweep.1
  -- a row of the batch is purged, and any other one is left alone
  · by_cases hid : f.id ∈ batch.map StoredFile.id
    · obtain ⟨b, hb, hbid⟩ := List.mem_map.mp hid
      have hsame : b = f := hs.keyed.inj (hmem b hb).1 hf hbid
      subst hsame
      refine ⟨_, sweep_on (t := fun f => .purged f.id now) (fun _ _ => rfl) (fun _ => rfl) hnodup hb
        hf ?_, rfl, .inr ⟨StoredFile.expired_status (hmem b hb).2, rfl⟩⟩
      simp [Transition.selects, Transition.fileId, Transition.whileScanning]
    · exact ⟨f, sweep_off (t := fun f => .purged f.id now) (fun _ _ => rfl) (fun _ => rfl) hf hid,
        rfl, .inl rfl⟩

theorem deleteAudited_leads (now : Time) (pid : Nat) (hs : w.store.Stocked) :
    ∃ s', Leads (Healthy now) pid deleteAudited w () s' ∧ s'.Stocked ∧
      (∀ f ∈ w.store.storedFiles, f.status ≠ .purged → f ∈ s'.storedFiles) ∧
      ∀ f ∈ s'.storedFiles, f ∈ w.store.storedFiles := by
  obtain ⟨p, hp⟩ : ∃ p : StoredFile → Bool, p = fun f => f.status == .purged &&
      f.auditExpiresAt.any fun auditExpiresAt => auditExpiresAt ≤ now := ⟨_, rfl⟩
  refine ⟨{ w.store with storedFiles := w.store.storedFiles.filter fun f => !p f }, ?_, ?_, ?_, ?_⟩
  · unfold deleteAudited
    refine Ends.ask fun i hi => ?_
    rw [hi.1, ← hp]
    have hdelete : (storedFiles.deleteMany p : Tx Nat) w.store =
        .ok (w.store.storedFiles.countP p,
          { w.store with storedFiles := w.store.storedFiles.filter fun f => !p f }) := rfl
    exact Leads.bind (Leads.atomically fun _ _ => hdelete) fun w' hw' => ⟨rfl, hw'⟩
  · have hsub : (w.store.storedFiles.filter fun f => !p f).Sublist w.store.storedFiles :=
      List.filter_sublist
    refine ⟨⟨fun f hf => hs.sound.1 f (hsub.subset hf), ?_⟩, hs.keyed.filter _,
      fun f hf => hs.objects f (hsub.subset hf), fun f hf => hs.keys f (hsub.subset hf)⟩
    exact distinct_iff_pairwise.mpr ((distinct_iff_pairwise.mp hs.sound.2).sublist hsub)
  · intro f hf hstatus
    refine List.mem_filter.mpr ⟨hf, ?_⟩
    simp only [hp, beq_eq_false_iff_ne.mpr hstatus, Bool.false_and, Bool.not_false]
  · exact fun f hf => List.mem_of_mem_filter hf

/-- What a tick of the timer does to the files that are scanned or ready. -/
structure Maintained (env : Environment) (now : Time) (s s' : Store) : Prop where
  stocked : s'.Stocked
  kept : ∀ f ∈ s.storedFiles, f.status = .scanning ∨ f.status = .ready →
    f.id ∉ (scanBatch env s).map StoredFile.id →
    ∃ f' ∈ s'.storedFiles, f'.id = f.id ∧ f'.status = f.status
  scanned : ∀ f ∈ scanBatch env s, f.overdue now = false →
    ∃ f' ∈ s'.storedFiles, f'.id = f.id ∧ f'.status = .ready
  timedOut : ∀ f ∈ scanBatch env s, f.overdue now = true →
    ∀ f' ∈ s'.storedFiles, f'.id = f.id → f'.status = .failed ∨ f'.status = .purged

theorem maintain_healthy (henv : env.scannerEnabled = true) (hs : w.store.Stocked) :
    Ends (Healthy now) pid (fun _ w' => Maintained env now w.store w'.store) (maintain env) w := by
  have hbatch : ((scanBatch env w.store).map StoredFile.id).Nodup := batch_nodup hs
  obtain ⟨hscans, hs₁⟩ := processScans_leads now pid henv hs
  obtain ⟨s₁, hs₁eq⟩ : ∃ s₁, s₁ =
      (scanBatch env w.store).foldl (fun s f => s.updated (verdict now f)) w.store := ⟨_, rfl⟩
  have hjudged : ∀ f ∈ scanBatch env w.store, (verdict now f).apply f ∈ s₁.storedFiles := by
    intro f hf
    rw [hs₁eq]
    obtain ⟨hmem, hstatus⟩ := scanBatch_mem hf
    exact sweep_on (t := verdict now) (fun _ _ => rfl) (verdict_fileId now) hbatch hf hmem
      (verdict_selects hstatus)
  have hspared : ∀ f ∈ w.store.storedFiles, f.id ∉ (scanBatch env w.store).map StoredFile.id →
      f ∈ s₁.storedFiles := by
    intro f hf hid
    rw [hs₁eq]
    exact sweep_off (t := verdict now) (fun _ _ => rfl) (verdict_fileId now) hf hid
  rw [← hs₁eq] at hscans hs₁
  have hrest : Ends (Healthy now) pid (fun r w' => r = .ok () ∧ Maintained env now w.store w'.store)
      (do
        processScans env
        retryLifecycleTags env
        purgeExpiredRecords env
        deleteAudited) w := by
    refine Leads.bind hscans fun w₁ hw₁ => ?_
    rw [← hw₁] at hs₁ hjudged hspared
    obtain ⟨s₂, hretries, hs₂, htags⟩ := retryLifecycleTags_leads env now pid hs₁
    refine Leads.bind hretries fun w₂ hw₂ => ?_
    rw [← hw₂] at hs₂ htags
    obtain ⟨s₃, hpurges, hs₃, hpurged⟩ := purgeExpiredRecords_leads env now pid hs₂
    refine Leads.bind hpurges fun w₃ hw₃ => ?_
    rw [← hw₃] at hs₃ hpurged
    obtain ⟨s₄, haudits, hs₄, hleft, hsub⟩ := deleteAudited_leads now pid hs₃
    -- the rest of the tick leaves a file alone that is scanned or ready
    have hthrough : ∀ f ∈ w₁.store.storedFiles, f.status = .scanning ∨ f.status = .ready →
        ∃ f' ∈ s₄.storedFiles, f'.id = f.id ∧ f'.status = f.status := by
      intro f hf hstatus
      obtain ⟨f₂, hf₂, hid₂, hstatus₂⟩ := htags f hf
      obtain ⟨f₃, hf₃, hid₃, hsame | ⟨⟨hnot, hnot'⟩, -⟩⟩ := hpurged f₂ hf₂
      · refine ⟨f₃, hleft f₃ hf₃ ?_, hid₃.trans hid₂, hsame.trans hstatus₂⟩
        rw [hsame, hstatus₂]
        rintro heq
        rcases hstatus with h | h <;> rw [h] at heq <;> cases heq
      · rw [hstatus₂] at hnot hnot'
        exact absurd hstatus (not_or.mpr ⟨hnot, hnot'⟩)
    refine haudits.mono fun r w₄ hr => ⟨hr.1, ?_⟩
    rw [hr.2]
    refine ⟨hs₄, fun f hf hstatus hid => hthrough f (hspared f hf hid) hstatus, ?_, ?_⟩
    · intro f hf hoverdue
      have hready : ((verdict now f).apply f).status = .ready := by
        rw [verdict, hoverdue, if_neg Bool.false_ne_true]
        rfl
      obtain ⟨f', hf', hid, hstatus⟩ := hthrough _ (hjudged f hf) (.inr hready)
      exact ⟨f', hf', hid.trans (Transition.apply_keys _ f).1, hstatus.trans hready⟩
    · intro f hf hoverdue f' hf' hid
      have hfailed : ((verdict now f).apply f).status = .failed := by
        rw [verdict, hoverdue, if_pos rfl]
        rfl
      obtain ⟨f₂, hf₂, hid₂, hstatus₂⟩ := htags _ (hjudged f hf)
      obtain ⟨f₃, hf₃, hid₃, hstatus₃⟩ := hpurged f₂ hf₂
      have hid' : f₃.id = f.id := hid₃.trans (hid₂.trans (Transition.apply_keys _ f).1)
      rw [hs₃.keyed.inj (hsub f' hf') hf₃ (hid.trans hid'.symm)]
      rcases hstatus₃ with h | h
      · exact .inl (h.trans (hstatus₂.trans hfailed))
      · exact .inr h.2
  refine Ends.handle (hrest.mono fun r w' hr => ?_)
  rw [hr.1]
  exact hr.2

end Timer
end ShipFlow.Files
