import ShipFlow.Files.Requests

/-! The malware gate. With a scanner configured, which runs of the file service make a
file available only after a scan of its object found it clean. -/

namespace ShipFlow.Files
open Interleaving Interleaving.Discipline Relational

/-- A file that is ready is marked clean and a scan found it clean, and so it is with
every file that a download request found ready or handed out. -/
structure MalwareGate (w : World) : Prop where
  ready : ∀ f ∈ w.store.storedFiles, f.status = .ready →
    f.malwareStatus = .clean ∧ ScannedClean f.id f.objectKey w.trace
  foundReady : ∀ p fileId objectKey, (p, .foundReady fileId objectKey) ∈ w.trace →
    ScannedClean fileId objectKey w.trace
  handedOut : ∀ p fileId objectKey, (p, .handedOut fileId objectKey) ∈ w.trace →
    ScannedClean fileId objectKey w.trace

/-- The file that an action makes ready without a scan. -/
def Event.restoredReady : Event → Option Id
  | .updated (.restored fileId .ready) => some fileId
  | _ => none

/-- A restore that makes its file ready finds it marked clean. -/
def RestoresClean (w w' : World) : Prop :=
  ∀ e ∈ w.newEvents w', ∀ fileId ∈ e.2.restoredReady, ∀ f ∈ w.store.storedFiles, f.id = fileId →
    f.malwareStatus = .clean

instance (w w' : World) : Decidable (RestoresClean w w') := by
  unfold RestoresClean
  infer_instance

/-! ## One step -/

section Steps
variable {env : Environment} {pid : Nat} {w w' : World}

theorem restoresClean_advance (s : Store) (e : Event) :
    RestoresClean w (w.advance pid (s, [e])) ↔ ∀ fileId ∈ e.restoredReady,
      ∀ f ∈ w.store.storedFiles, f.id = fileId → f.malwareStatus = .clean := by
  simp [RestoresClean]

theorem restoresClean_quiet (s : Store) : RestoresClean w (w.advance pid (s, [])) := by
  simp [RestoresClean]

/-- The gate stays where the rows stay gated and no download learns of another file. -/
theorem MalwareGate.later {s : Store} {es : List Event} (h : MalwareGate w)
    (hr : Recorded (w.advance pid (s, es)))
    (hready : ∀ f ∈ s.storedFiles, f.status = .ready → f.malwareStatus = .clean)
    (hdownloads : ∀ fileId objectKey, .foundReady fileId objectKey ∈ es ∨
      .handedOut fileId objectKey ∈ es → ScannedClean fileId objectKey w.trace) :
    MalwareGate (w.advance pid (s, es)) := by
  refine ⟨fun f hf hstatus => ?_, fun p fileId objectKey hmem => ?_,
    fun p fileId objectKey hmem => ?_⟩
  · have hclean := hready f hf hstatus
    exact ⟨hclean, hr.clean f hf hclean⟩
  · rcases List.mem_append.mp hmem with hold | hnew
    · exact (h.foundReady p fileId objectKey hold).mono _
    · obtain ⟨e, he, heq⟩ := List.mem_map.mp hnew
      cases heq
      exact (hdownloads fileId objectKey (.inl he)).mono _
  · rcases List.mem_append.mp hmem with hold | hnew
    · exact (h.handedOut p fileId objectKey hold).mono _
    · obtain ⟨e, he, heq⟩ := List.mem_map.mp hnew
      cases heq
      exact (hdownloads fileId objectKey (.inr he)).mono _

/-- With a scanner, an update that leaves a file ready marks it clean, or found it ready
and leaves the mark, or restores it. -/
theorem Transition.apply_ready (henv : env.scannerEnabled = true) {t : Transition}
    (hallowed : t.Allowed env w) {f : StoredFile} (hselected : t.selects f = true)
    (h : (t.apply f).status = .ready) :
    (t.apply f).malwareStatus = .clean ∨
      (f.status = .ready ∧ (t.apply f).malwareStatus = f.malwareStatus) ∨
      t = .restored t.fileId .ready := by
  -- with a scanner on, a file is made ready by a clean scan or by a restore only
  cases t with
  | uploadCompleted fileId now detectedMimeType ready =>
    have hready : ready = !env.scannerEnabled := hallowed
    rw [hready, henv] at h
    cases h
  | restored fileId status =>
    right
    right
    change status = .ready at h
    rw [h]
    rfl
  | scanClean fileId now => exact .inl rfl
  | scanInconclusive fileId scanAttempts malwareStatus =>
    -- the file is still being scanned
    have hscanning : f.status = .scanning := by
      simp only [Transition.selects, Transition.whileScanning, Bool.not_true, Bool.false_or,
        Bool.and_eq_true, beq_iff_eq] at hselected
      exact hselected.2
    change f.status = .ready at h
    rw [hscanning] at h
    cases h
  | targetFailed => cases h
  | uploadRejected => cases h
  | reservationDropped => cases h
  | deleted => cases h
  | scanInfected => cases h
  | scanFailed => cases h
  | purged => cases h
  | _ => exact .inr (.inl ⟨h, rfl⟩)

theorem selects_id {t : Transition} {f : StoredFile} (h : t.selects f = true) : f.id = t.fileId := by
  simp only [Transition.selects, Bool.and_eq_true, beq_iff_eq] at h
  exact h.1

/-- An update keeps the rows gated unless it restores a file that is not marked clean. -/
theorem MalwareGate.updated_iff (henv : env.scannerEnabled = true) (h : MalwareGate w)
    {t : Transition} (hallowed : t.Allowed env w) :
    (∀ f ∈ updateRows t.selects t.apply w.store.storedFiles,
        f.status = .ready → f.malwareStatus = .clean) ↔
      ∀ fileId ∈ Event.restoredReady (.updated t), ∀ f ∈ w.store.storedFiles, f.id = fileId →
        f.malwareStatus = .clean := by
  constructor
  · intro hrows fileId hrestored f hf hid
    have ht : t = .restored fileId .ready := by
      unfold Event.restoredReady at hrestored
      split at hrestored <;> simp_all
    subst ht
    have hselected : (Transition.restored fileId .ready).selects f = true := by
      simp [Transition.selects, Transition.whileScanning, Transition.fileId, hid]
    have hmem : (Transition.restored fileId .ready).apply f ∈
        updateRows (Transition.selects _) (Transition.apply _) w.store.storedFiles :=
      mem_updateRows.mpr (.inr ⟨f, hf, hselected, rfl⟩)
    have hclean := hrows _ hmem rfl
    exact hclean
  · intro hrestored f hf hstatus
    rcases mem_updateRows.mp hf with ⟨hf, -⟩ | ⟨f₀, hf₀, hselected, rfl⟩
    · exact (h.ready f hf hstatus).1
    · rcases t.apply_ready henv hallowed hselected hstatus with hclean | ⟨hold, hsame⟩ | ht
      · exact hclean
      · rw [hsame]
        exact (h.ready f₀ hf₀ hold).1
      · have hmarked := hrestored t.fileId (by rw [ht]; rfl) f₀ hf₀ (selects_id hselected)
        rw [ht]
        exact hmarked

/-- The step of the induction, with the exact condition. -/
theorem Effect.malwareGate_iff (henv : env.scannerEnabled = true) (he : Effect env pid w w')
    (hr : Recorded w) (h : MalwareGate w) : MalwareGate w' ↔ RestoresClean w w' := by
  have hr' := he.recorded hr
  have hready : ∀ f ∈ w.store.storedFiles, f.status = .ready → f.malwareStatus = .clean :=
    fun f hf hstatus => (h.ready f hf hstatus).1
  cases he with
  | idle => exact iff_of_true h (by simp [RestoresClean])
  | reserved file hid hstatus hmalware hsound =>
    rw [restoresClean_advance]
    refine iff_of_true (h.later hr' (fun f hf hf' => ?_) (by simp)) (by simp [Event.restoredReady])
    rcases List.mem_append.mp hf with hf | hf
    · exact hready f hf hf'
    -- a reservation is pending
    · rw [List.mem_singleton.mp hf, hstatus] at hf'
      cases hf'
  | updated t hallowed hsound =>
    rw [restoresClean_advance, ← h.updated_iff henv hallowed]
    exact ⟨fun h' f hf hstatus => (h'.ready f hf hstatus).1,
      fun hrows => h.later hr' hrows (by simp)⟩
  | audited p now hpurged =>
    rw [restoresClean_advance]
    exact iff_of_true (h.later hr' (fun f hf => hready f (List.mem_of_mem_filter hf)) (by simp))
      (by simp [Event.restoredReady])
  | objectStored key body contentType now =>
    exact iff_of_true (h.later hr' hready (by simp)) (restoresClean_quiet _)
  | objectDeleted key => exact iff_of_true (h.later hr' hready (by simp)) (restoresClean_quiet _)
  | billed plans subscriptions =>
    exact iff_of_true (h.later hr' hready (by simp)) (restoresClean_quiet _)
  | scanned fileId objectKey body result =>
    rw [restoresClean_advance]
    exact iff_of_true (h.later hr' hready (by simp)) (by simp [Event.restoredReady])
  | foundReady file hmem hstatus =>
    rw [restoresClean_advance]
    refine iff_of_true (h.later hr' hready fun fileId objectKey hmem' => ?_)
      (by simp [Event.restoredReady])
    have hsame : fileId = file.id ∧ objectKey = file.objectKey := by simpa using hmem'
    rw [hsame.1, hsame.2]
    exact (h.ready file hmem hstatus).2
  | handedOut fileId objectKey hfound =>
    rw [restoresClean_advance]
    refine iff_of_true (h.later hr' hready fun fileId' objectKey' hmem' => ?_)
      (by simp [Event.restoredReady])
    have hsame : fileId' = fileId ∧ objectKey' = objectKey := by simpa using hmem'
    rw [hsame.1, hsame.2]
    obtain ⟨p, hp⟩ := hfound
    exact h.foundReady p fileId objectKey hp

end Steps

/-! ## Runs -/

theorem malwareGate_empty (nextId : Id) (users : List FileUploader) (plans : List Billing.Plan)
    (subscriptions : List Billing.Subscription) :
    MalwareGate ⟨Store.empty nextId users plans subscriptions, []⟩ := by
  constructor <;> simp [Store.empty]

/-- With a scanner, no run makes a file available that no scan found clean as long as
no restore of the run makes a file ready that is not marked clean, and only then. -/
theorem malware_gate (env : Environment) (henv : env.scannerEnabled = true) (nextId : Id)
    (users : List FileUploader) (plans : List Billing.Plan)
    (subscriptions : List Billing.Subscription) (acts : List (Action Request Input)) :
    (∀ before after, acts = before ++ after → MalwareGate
        ((Config.init (Store.empty nextId users plans subscriptions) : Files.Config).run
          (handler env) before).world) ↔
      Config.Along RestoresClean (handler env)
        (Config.init (Store.empty nextId users plans subscriptions) : Files.Config) acts := by
  refine Config.Meets.invariant_iff
    (c := (Config.init (Store.empty nextId users plans subscriptions) : Files.Config))
    (fun r _ _ _ _ _ => handler_keeps env r)
    (Config.Meets.init (recorded_empty nextId users plans subscriptions))
    (malwareGate_empty nextId users plans subscriptions)
    (fun w => ?_) fun pid w w' hr _ he h => he.malwareGate_iff henv hr h
  simp [RestoresClean]

def tester : Store := .empty 2 [⟨0, none⟩] [freePlan] []

def png : List UInt8 := [0x89, 0x50, 0x4e, 0x47, 0x0d, 0x0a, 0x1a, 0x0a]

/-- A user uploads a file. -/
def uploaded : List (Action Request Input) :=
  [.request (.initiateUpload 1 0 ⟨"a.png", "image/png", 8, Environment.transparent.sha256 png⟩)] ++
    advances 0 6 (.at 0 none) ++
  [.request (.clientUpload "objects/1/2" png "image/png")] ++ advances 1 1 (.at 0 none) ++
  [.request (.completeUpload 1 2)] ++ advances 2 6 (.at 0 none)

/-- The scan of the file ends, the user deletes and restores it and asks for a download. -/
def scannedAndRestored (result : MalwareScanResult) : List (Action Request Input) :=
  uploaded ++ [.request .maintain] ++ advances 3 16 (.at 1 (some result)) ++
  [.request (.deleteFile 1 2)] ++ advances 4 4 (.at 2 none) ++
  [.request (.restoreFile 1 2)] ++ advances 5 4 (.at 3 none) ++
  [.request (.createDownloadTarget 1 2)] ++ advances 6 3 (.at 4 none)

theorem malware_gate_clean :
    Config.Along RestoresClean (handler .transparent) (Config.init tester : Files.Config)
      (scannedAndRestored .clean) ∧
    MalwareGate ((Config.init tester : Files.Config).run (handler .transparent)
      (scannedAndRestored .clean)).world := by
  have halong : Config.Along RestoresClean (handler .transparent)
      (Config.init tester : Files.Config) (scannedAndRestored .clean) := by
    decide +kernel
  have hall := (malware_gate .transparent rfl 2 [⟨0, none⟩] [freePlan] [] (scannedAndRestored .clean)).mpr
    halong
  exact ⟨halong, hall _ [] (List.append_nil _).symm⟩

/-- The scanner does not support the file, and the restore makes it available all the same. -/
theorem restore_bypasses_malware_gate :
    ¬ MalwareGate ((Config.init tester : Files.Config).run (handler .transparent)
      (scannedAndRestored .unsupported)).world ∧
    (6, .handedOut 2 "objects/1/2") ∈ ((Config.init tester : Files.Config).run
      (handler .transparent) (scannedAndRestored .unsupported)).world.trace := by
  have hrows : ((Config.init tester : Files.Config).run (handler .transparent)
      (scannedAndRestored .unsupported)).world.store.storedFiles.map
        (fun f => (f.status, f.malwareStatus)) = [(.ready, .unsupported)] := by
    decide +kernel
  refine ⟨fun h => ?_, by decide +kernel⟩
  have hmem := List.mem_singleton_self (FileStatus.ready, FileMalwareStatus.unsupported)
  rw [← hrows] at hmem
  obtain ⟨f, hf, heq⟩ := List.mem_map.mp hmem
  rw [Prod.mk.injEq] at heq
  have hclean := (h.ready f hf heq.1).1
  rw [heq.2] at hclean
  cases hclean

end ShipFlow.Files
