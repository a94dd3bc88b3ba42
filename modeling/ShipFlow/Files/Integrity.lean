import ShipFlow.Interleaving.Acting
import ShipFlow.Files.ObjectKeys

/-! The content of the objects. Where no client writes to the storage itself, every object is
one that the file it belongs to was reserved for. -/

namespace ShipFlow.Files
open Interleaving Interleaving.Discipline Interleaving.Process Relational

/-- What the reservation of a file fixes. -/
def StoredFile.reserved (f : StoredFile) : Id × String × String × String × Nat × String :=
  (f.id, f.objectKey, f.originalName, f.declaredMimeType, f.sizeBytes, f.checksumSha256)

/-- The body passes the checks of the file. -/
def StoredFile.Matches (env : Environment) (f : StoredFile) (body : List UInt8) : Prop :=
  ∃ validated, validateObject env body f.originalName f.declaredMimeType f.sizeBytes
    f.checksumSha256 = .ok validated

/-- Every row goes back to an earlier one of the same reservation, or it is new. -/
def Descends (s s' : Store) : Prop :=
  ∀ f' ∈ s'.storedFiles, (∃ f ∈ s.storedFiles, f.reserved = f'.reserved) ∨
    s.nextId ≤ f'.id ∧ s.Free f'.objectKey

/-- What every action does that stores no object. -/
structure Upholds (s : Store) (r : Store × List Event) : Prop where
  sound : SoundFiles s.storedFiles → SoundFiles r.1.storedFiles
  rows : Descends s r.1
  below : s.nextId ≤ r.1.nextId ∧ (Below s.nextId StoredFile.id s.storedFiles →
    Below r.1.nextId StoredFile.id r.1.storedFiles)
  objects : ∀ o ∈ r.1.objects, o ∈ s.objects

theorem StoredFile.Matches.content {env : Environment} {f : StoredFile} {body : List UInt8}
    (h : f.Matches env body) : body.length = f.sizeBytes ∧ env.sha256 body = f.checksumSha256 := by
  obtain ⟨validated, hvalid⟩ := h
  unfold validateObject at hvalid
  by_cases hlength : body.length = f.sizeBytes
  · by_cases hchecksum : env.sha256 body = f.checksumSha256
    · exact ⟨hlength, hchecksum⟩
    · simp [hlength, hchecksum, Bind.bind, Except.bind, throw, throwThe,
        MonadExceptOf.throw] at hvalid
  · simp [hlength, Bind.bind, Except.bind, throw, throwThe, MonadExceptOf.throw] at hvalid

theorem StoredFile.Matches.congr {env : Environment} {f f' : StoredFile} {body : List UInt8}
    (h : f.Matches env body) (hsame : f.reserved = f'.reserved) : f'.Matches env body := by
  simp only [StoredFile.reserved, Prod.mk.injEq] at hsame
  obtain ⟨-, -, hname, hmime, hsize, hchecksum⟩ := hsame
  unfold StoredFile.Matches
  rw [← hname, ← hmime, ← hsize, ← hchecksum]
  exact h

@[simp] theorem Transition.apply_reserved (t : Transition) (f : StoredFile) :
    (t.apply f).reserved = f.reserved := by
  cases t <;> rfl

section Actions
variable {s s' : Store} {es : List Event}

theorem Descends.refl : Descends s s := fun f hf => .inl ⟨f, hf, rfl⟩

theorem Upholds.idle : Upholds s (s, es) :=
  ⟨id, .refl, ⟨Nat.le_refl _, id⟩, fun _ ho => ho⟩

theorem Upholds.updated {t : Transition}
    (hsound : SoundFiles (updateRows t.selects t.apply s.storedFiles)) :
    Upholds s ({ s with storedFiles := updateRows t.selects t.apply s.storedFiles }, es) := by
  refine ⟨fun _ => hsound, fun f' hf' => ?_, ⟨Nat.le_refl _, fun h => ?_⟩, fun _ ho => ho⟩
  · rcases mem_updateRows.mp hf' with ⟨hf, -⟩ | ⟨f, hf, -, rfl⟩
    · exact .inl ⟨f', hf, rfl⟩
    · exact .inl ⟨f, hf, (t.apply_reserved f).symm⟩
  · exact h.updateRows fun f => (t.apply_keys f).1

theorem Upholds.fewer (p : StoredFile → Bool) (q : StoredObject → Bool) :
    Upholds s ({ s with
      storedFiles := s.storedFiles.filter p, objects := s.objects.filter q }, es) := by
  refine ⟨fun h => ⟨fun f hf => h.1 f (List.mem_of_mem_filter hf), ?_⟩, fun f hf => ?_,
    ⟨Nat.le_refl _, fun h => h.filter p⟩, fun o ho => List.mem_of_mem_filter ho⟩
  · exact distinct_iff_pairwise.mpr ((distinct_iff_pairwise.mp h.2).sublist List.filter_sublist)
  · exact .inl ⟨f, List.mem_of_mem_filter hf, rfl⟩

theorem Upholds.reserved {env : Environment} {organizationId userId : Id}
    {declaration : Declaration} {dto : InitiateFileUploadDto} {quota : FileQuota} {now : Time}
    {r : StoredFile × Option FileUploader}
    (h : reserve env organizationId userId declaration dto quota now s = .ok (r, s')) :
    Upholds s (s', es) := by
  have hkey := reserve_key h
  obtain ⟨hid, -, -, -, -, -, -, hsound, rfl⟩ := reserve_ok h
  refine ⟨fun _ => hsound, fun f hf => ?_, ⟨Nat.le_succ _, fun hbelow => ?_⟩, fun _ ho => ho⟩
  · rcases List.mem_append.mp hf with hf | hf
    · exact .inl ⟨f, hf, rfl⟩
    · rw [List.mem_singleton.mp hf]
      exact .inr ⟨Nat.le_of_eq hid.symm, organizationId, s.nextId, Nat.le_refl _, hkey⟩
  · exact hbelow.concat (Nat.le_succ _) (by simp [hid])

end Actions

/-! ## The requests -/

section Requests
variable {env : Environment} {α : Type}

/-- The request stores no object. -/
abbrev Storeless (p : Handler α) : Prop := p.Every Upholds

theorem Storeless.observed {m : Input → Tx α} {observe : Except Failure α → List Event}
    (h : ∀ i s a s', m i s = .ok (a, s') → Upholds s (s', observe (.ok a))) :
    Storeless (Process.atomically m observe) := by
  rw [← Process.bind_pure (Process.atomically m observe)]
  exact Every.atomically h (fun _ _ _ _ => .idle) fun _ => Every.pure _

theorem storageCall_storeless {call : Input → Tx α}
    (h : ∀ i s a s', call i s = .ok (a, s') → Upholds s (s', [])) :
    Storeless (storageCall call) := by
  refine Storeless.observed fun i s a s' hm => ?_
  cases hfailure : i.storageFailure with
  | true => simp [hfailure] at hm
  | false =>
    simp only [hfailure, Bool.false_eq_true, if_false] at hm
    exact h i s a s' hm

theorem readsStorage_storeless {call : Input → Tx α}
    (h : ∀ i s a s', call i s = .ok (a, s') → s' = s) : Storeless (storageCall call) := by
  refine storageCall_storeless fun i s a s' hm => ?_
  rw [h i s a s' hm]
  exact .idle

theorem inspectObject_storeless (key : String) : Storeless (inspectObject env key) := by
  refine readsStorage_storeless fun i s a s' hm => ?_
  simp only [Transaction.bind_ok, Transaction.reads_ok] at hm
  obtain ⟨found, _, ⟨-, rfl⟩, hm⟩ := hm
  cases found with
  | none => simp at hm
  | some object => exact ((Transaction.pure_ok _ _ _ _).mp hm).2

theorem setLifecycleState_storeless (key : String) (state : LifecycleState) :
    Storeless (setLifecycleState key state) :=
  readsStorage_storeless fun _ _ _ _ hm => ((Transaction.pure_ok _ _ _ _).mp hm).2

theorem deleteObject_storeless (key : String) : Storeless (deleteObject env key) := by
  refine storageCall_storeless fun i s a s' hm => ?_
  rw [(removeObject_ok.mp hm).2]
  have h : Upholds s (_, []) := .fewer (fun _ => true) (fun o => !(o.key == key))
  rwa [List.filter_true] at h

theorem update_storeless (t : Transition) : Storeless (update t) := by
  refine Storeless.observed fun i s r s' hm => ?_
  simp only [Transaction.bind_ok, Transaction.pure_ok, Transaction.reads_ok] at hm
  obtain ⟨_, _, hu, _, _, ⟨-, rfl⟩, -, rfl⟩ := hm
  obtain ⟨_, -, hsound, -, rfl⟩ := Table.update_ok.mp hu
  exact .updated ((storedFiles_sound _ _).mp hsound)

theorem updateScanning_storeless (t : Transition) : Storeless (updateScanning t) := by
  refine (Storeless.observed fun i s n s' hm => ?_).bind fun _ => Every.pure _
  obtain ⟨hsound, -, rfl⟩ := Table.updateMany_ok.mp hm
  exact .updated ((storedFiles_sound _ _).mp hsound)

theorem idle_query {β : Type} {f : Store → β} {k : β → Handler α} (h : ∀ b, Storeless (k b)) :
    Storeless (Process.query f >>= k) := Every.query (fun _ => .idle) h

theorem idle_ask {β : Type} {f : Input → β} {k : β → Handler α} (h : ∀ b, Storeless (k b)) :
    Storeless (Process.ask f >>= k) := Every.ask (fun _ => .idle) h

theorem syncLifecycleState_storeless (fileId : Id) (key : String) (state : LifecycleState) :
    Storeless (syncLifecycleState fileId key state) :=
  Every.handle (setLifecycleState_storeless key state) fun _ =>
    (update_storeless _).bind fun _ => Every.pure _

theorem findScopedFile_storeless (organizationId fileId : Id) :
    Storeless (findScopedFile organizationId fileId) := by
  refine idle_query fun found => ?_
  cases found with
  | none => exact Every.throw _
  | some file => exact Every.pure _

theorem getSnapshot_storeless (organizationId : Id) :
    Storeless (Billing.getSnapshot Input.now organizationId) := by
  refine (Storeless.observed fun i s plan s' hm => ?_).bind fun plan =>
    idle_query fun found => idle_ask fun now => Every.pure _
  obtain ⟨-, rfl⟩ := Billing.findPlan_ok.mp hm
  exact .idle

theorem initiateUpload_storeless (organizationId userId : Id) (dto : InitiateFileUploadDto) :
    Storeless (initiateUpload env organizationId userId dto) := by
  refine Every.ofExcept fun declaration => (getSnapshot_storeless _).bind fun snapshot =>
    idle_ask fun now => (Storeless.observed fun i s r s' hm => .reserved hm).bind fun r => ?_
  refine Every.handle (Every.bind ?_ fun _ => Every.pure _) fun _ => idle_ask fun now =>
    (update_storeless _).bind fun _ => Every.throw _
  exact readsStorage_storeless fun _ _ _ _ hm => ((Transaction.pure_ok _ _ _ _).mp hm).2

theorem completeUpload_storeless (organizationId fileId : Id) :
    Storeless (completeUpload env organizationId fileId) := by
  refine (findScopedFile_storeless _ _).bind fun r => ?_
  simp only
  split
  · exact Every.pure _
  · refine Every.rejectIf <| idle_ask fun clock => Every.rejectIf <|
      (Every.handle (inspectObject_storeless _) fun _ => Every.throw _).bind fun object =>
        idle_ask fun now => ?_
    split
    · exact (update_storeless _).bind fun _ =>
        (syncLifecycleState_storeless _ _ _).bind fun _ => Every.throw _
    · exact (update_storeless _).bind fun _ =>
        (syncLifecycleState_storeless _ _ _).bind fun _ => Every.pure _

theorem deleteFile_storeless (organizationId fileId : Id) :
    Storeless (deleteFile env organizationId fileId) := by
  refine (findScopedFile_storeless _ _).bind fun r => ?_
  simp only
  split
  · exact Every.pure _
  · split
    · exact (deleteObject_storeless _).bind fun _ => idle_ask fun now =>
        (update_storeless _).bind fun _ => Every.pure _
    · exact Every.rejectIf <| idle_ask fun now => (update_storeless _).bind fun _ =>
        (syncLifecycleState_storeless _ _ _).bind fun _ => Every.pure _

theorem restoreFile_storeless (organizationId fileId : Id) :
    Storeless (restoreFile organizationId fileId) :=
  (findScopedFile_storeless _ _).bind fun _ => Every.rejectIf <| idle_ask fun _ =>
    Every.rejectIf <| (update_storeless _).bind fun _ =>
      (syncLifecycleState_storeless _ _ _).bind fun _ => Every.pure _

theorem readForDownload_storeless (p : StoredFile → Bool) : Storeless (readForDownload p) := by
  refine Storeless.observed fun i s found s' hm => ?_
  obtain ⟨-, rfl⟩ := Table.findFirst_ok.mp hm
  exact .idle

theorem handOut_storeless (file : StoredFile) : Storeless (handOut file) := by
  refine Storeless.observed fun i s u s' hm => ?_
  obtain ⟨-, rfl⟩ := (Transaction.pure_ok _ _ _ _).mp hm
  exact .idle

theorem createDownloadTarget_storeless (organizationId fileId : Id) :
    Storeless (createDownloadTarget env organizationId fileId) := by
  refine (readForDownload_storeless _).bind fun found => ?_
  cases found with
  | none => exact Every.throw _
  | some file =>
    refine Every.rejectIf <| Every.bind ?_ fun _ => (handOut_storeless file).bind fun _ =>
      Every.pure _
    exact readsStorage_storeless fun _ _ _ _ hm => ((Transaction.pure_ok _ _ _ _).mp hm).2

/-! ## Maintenance -/

theorem failScan_storeless (fileId : Id) (malwareStatus : FileMalwareStatus) (scanAttempts : Nat) :
    Storeless (failScan fileId malwareStatus scanAttempts) :=
  idle_ask fun _ => updateScanning_storeless _

theorem tagScanned_storeless (fileId : Id) (state : LifecycleState) :
    Storeless (tagScanned fileId state) := by
  refine idle_query fun found => ?_
  cases found with
  | none => exact Every.pure _
  | some file => exact setLifecycleState_storeless _ _

theorem applyScanResult_storeless (fileId : Id) (attempts : Nat) (result : MalwareScanResult) :
    Storeless (applyScanResult fileId attempts result) := by
  have hinconclusive : ∀ malwareStatus, Storeless
      (if attempts + 1 ≥ 3 then failScan fileId malwareStatus (attempts + 1)
        else updateScanning (.scanInconclusive fileId (attempts + 1) malwareStatus)) := by
    intro malwareStatus
    split
    · exact failScan_storeless _ _ _
    · exact updateScanning_storeless _
  cases result with
  | clean =>
    exact (tagScanned_storeless _ _).bind fun _ => idle_ask fun _ => updateScanning_storeless _
  | infected =>
    exact (tagScanned_storeless _ _).bind fun _ => idle_ask fun _ => updateScanning_storeless _
  | unsupported => exact hinconclusive _
  | failed => exact hinconclusive _

theorem scan_storeless (file : StoredFile) (body : List UInt8) : Storeless (scan file body) := by
  refine Storeless.observed fun i s result s' hm => ?_
  have hs : s' = s := by
    cases hscan : i.scan with
    | none => simp [hscan] at hm
    | some verdict =>
      simp only [hscan] at hm
      exact ((Transaction.pure_ok _ _ _ _).mp hm).2
  rw [hs]
  exact .idle

theorem processScan_storeless (file : StoredFile) : Storeless (processScan env file) := by
  refine idle_ask fun now => ?_
  split
  · exact failScan_storeless _ _ _
  · refine Every.handle ((inspectObject_storeless _).bind fun object =>
      (scan_storeless _ _).bind fun result => applyScanResult_storeless _ _ _) fun _ => ?_
    change Storeless (if _ then _ else _)
    split
    · exact failScan_storeless _ _ _
    · exact updateScanning_storeless _

theorem retryLifecycleTag_storeless (file : StoredFile) : Storeless (retryLifecycleTag file) := by
  unfold retryLifecycleTag
  split
  · exact Every.pure _
  · exact Every.handle ((setLifecycleState_storeless _ _).bind fun _ =>
      (update_storeless _).bind fun _ => Every.pure _) fun _ => Every.pure _

theorem purgeExpiredRecord_storeless (file : StoredFile) :
    Storeless (purgeExpiredRecord env file) :=
  Every.handle ((deleteObject_storeless _).bind fun _ => idle_ask fun _ =>
    (update_storeless _).bind fun _ => Every.pure _) fun _ =>
      (update_storeless _).bind fun _ => Every.pure _

theorem deleteAudited_storeless : Storeless deleteAudited := by
  refine idle_ask fun now => (Storeless.observed fun i s n s' hm => ?_).bind fun _ => Every.pure _
  obtain ⟨-, rfl⟩ := Table.deleteMany_ok.mp hm
  have h : ∀ p : StoredFile → Bool, Upholds s ({ s with
      storedFiles := s.storedFiles.filter p, objects := s.objects.filter fun _ => true },
      [.audited now]) := fun p => .fewer p fun _ => true
  simp only [List.filter_true] at h
  exact h _

theorem writeSubscriptions_storeless (plans : List Billing.Plan)
    (subscriptions : List Billing.Subscription) :
    Storeless (writeSubscriptions plans subscriptions) := by
  unfold writeSubscriptions Process.statement
  refine Storeless.observed fun i s u s' hm => ?_
  rw [(Transaction.writes_ok _ _ _ _).mp hm]
  exact ⟨id, fun f hf => .inl ⟨f, hf, rfl⟩, ⟨Nat.le_refl _, id⟩, fun _ ho => ho⟩

theorem maintain_storeless : Storeless (maintain env) := by
  have hscans : Storeless (processScans env) := by
    unfold processScans
    split
    · exact idle_query fun files => Every.forEach fun f _ => processScan_storeless f
    · exact Every.pure _
  have htags : Storeless (retryLifecycleTags env) :=
    idle_query fun files => Every.forEach fun f _ => retryLifecycleTag_storeless f
  have hpurges : Storeless (purgeExpiredRecords env) :=
    idle_ask fun now => idle_query fun files =>
      Every.forEach fun f _ => purgeExpiredRecord_storeless f
  exact Every.handle (hscans.bind fun _ => htags.bind fun _ => hpurges.bind fun _ =>
    deleteAudited_storeless) fun _ => Every.pure _

theorem reconcileOrphans_storeless : Storeless (reconcileOrphans env) := by
  refine Every.handle (idle_ask fun now => Every.bind ?_ fun objects => ?_) fun _ => Every.pure _
  · exact readsStorage_storeless fun _ _ _ _ hm => ((Transaction.reads_ok _ _ _ _).mp hm).2
  · change Storeless (if _ then _ else _)
    split
    · exact Every.pure _
    · exact idle_query fun _ => (Every.forEach fun o _ => deleteObject_storeless _).bind fun _ =>
        Every.pure _

end Requests

/-! ## Runs -/

/-- Every object is one that the file with its key was reserved for. -/
structure Intact (env : Environment) (w : World) : Prop extends FreshKeys w where
  sound : SoundFiles w.store.storedFiles
  below : Below w.store.nextId StoredFile.id w.store.storedFiles
  content : ∀ o ∈ w.store.objects, ∀ f ∈ w.store.storedFiles, f.objectKey = o.key →
    f.Matches env o.body

/-- The keys stay in order, rows keep what was reserved, and the objects stay intact. -/
structure Preserves (env : Environment) (w w' : World) : Prop where
  keys : KeyEffect w w'
  rows : Descends w.store w'.store
  intact : Intact env w → Intact env w'

abbrev intactDiscipline (env : Environment) : Discipline Store Event where
  inv := Intact env
  effect _ := Preserves env
  idle _ _ := ⟨.idle, .refl, id⟩
  kept _ _ _ he := he.intact

section Runs
variable {env : Environment} {pid : Nat} {w w' : World} {α : Type}

theorem preserves_of_upholds {r : Store × List Event} (hkeys : KeyEffect w (w.advance pid r))
    (h : Upholds w.store r) : Preserves env w (w.advance pid r) := by
  refine ⟨hkeys, h.rows, fun hi => ?_⟩
  refine ⟨hkeys.2 hi.toFreshKeys, h.sound hi.sound, h.below.2 hi.below, fun o ho f' hf' hkey => ?_⟩
  have hold := h.objects o ho
  rcases h.rows f' hf' with ⟨f, hf, hsame⟩ | ⟨-, hfree⟩
  · have hkeys : f.objectKey = f'.objectKey := congrArg (fun x => x.2.1) hsame
    exact (hi.content o hold f hf (hkeys.trans hkey)).congr hsame
  · -- no object is stored under the key of an upload yet to come
    exact absurd (hkey ▸ hfree) (hi.objects o hold)

/-- A request that stores no object leaves the objects intact. -/
theorem Storeless.keeps {p : Handler α} (h : Storeless p) (hkeys : keyDiscipline.Keeps pid p w) :
    (intactDiscipline env).Keeps pid p w := by
  refine Keeps.and_every (fun w hi => ?_) (fun _ w w' he => ?_) (fun pid w r hk hu => ?_) hkeys h
  · exact Intact.toFreshKeys hi
  · exact Preserves.keys he
  · exact preserves_of_upholds hk hu

/-- The rows that share the identifier or the key of the file have its reservation, now and
later. -/
def Owns (f : StoredFile) (s : Store) : Prop :=
  f.id < s.nextId ∧ ¬ s.Free f.objectKey ∧
    ∀ g ∈ s.storedFiles, g.id = f.id ∨ g.objectKey = f.objectKey → g.reserved = f.reserved

theorem owns_of_mem (hi : Intact env w) {f : StoredFile} (hf : f ∈ w.store.storedFiles) :
    Owns f w.store := by
  refine ⟨hi.below f hf, hi.storedFiles f hf, fun g hg hsame => ?_⟩
  by_contra hne
  have hsymm : Std.Symm fun a b => storedFiles.collides a b = false := by
    refine ⟨fun a b hab => ?_⟩
    rw [← hab]
    simp only [storedFiles, Bool.beq_comm]
  have hdistinct : storedFiles.collides g f = false :=
    (distinct_iff_pairwise.mp hi.sound.2).forall hg hf fun heq => hne (congrArg _ heq)
  simp only [storedFiles, Bool.or_eq_false_iff, beq_eq_false_iff_ne, ne_eq] at hdistinct
  exact hsame.elim hdistinct.1 hdistinct.2

theorem owns_stable (f : StoredFile) : (intactDiscipline env).Stable fun w => Owns f w.store := by
  rintro q w w' hi hi' he ⟨hid, hkey, hrows⟩
  refine ⟨Nat.lt_of_lt_of_le hid he.keys.1.nextId, fun hfree => hkey (hfree.of_le he.keys.1.nextId),
    fun g' hg' hsame => ?_⟩
  rcases he.rows g' hg' with ⟨g, hg, hreserved⟩ | ⟨hnew, hfree⟩
  · have hids : g.id = g'.id := congrArg Prod.fst hreserved
    have hkeys : g.objectKey = g'.objectKey := congrArg (fun x => x.2.1) hreserved
    rw [← hids, ← hkeys] at hsame
    exact hreserved.symm.trans (hrows g hg hsame)
  · rcases hsame with hsame | hsame
    · rw [hsame] at hnew
      exact absurd hid (Nat.not_lt.mpr hnew)
    · exact absurd (hsame ▸ hfree) hkey

/-- The rows of the file are those the body and the name of the download belong to. -/
structure Delivered (env : Environment) (fileId : Id) (d : LocalDownload) (s : Store) : Prop where
  known : fileId < s.nextId
  rows : ∀ f ∈ s.storedFiles, f.id = fileId → f.Matches env d.body ∧ d.fileName = f.originalName

theorem delivered_stable (fileId : Id) (d : LocalDownload) :
    (intactDiscipline env).Stable fun w => Delivered env fileId d w.store := by
  rintro q w w' - - he ⟨hknown, hrows⟩
  refine ⟨Nat.lt_of_lt_of_le hknown he.keys.1.nextId, fun f' hf' hid => ?_⟩
  rcases he.rows f' hf' with ⟨f, hf, hsame⟩ | ⟨hnew, -⟩
  · have hids : f.id = f'.id := congrArg Prod.fst hsame
    have hnames : f.originalName = f'.originalName := congrArg (fun x => x.2.2.1) hsame
    obtain ⟨hmatches, hname⟩ := hrows f hf (hids.trans hid)
    exact ⟨hmatches.congr hsame, hname.trans hnames⟩
  · rw [hid] at hnew
    exact absurd hknown (Nat.not_lt.mpr hnew)

/-! ## Reading and writing an object -/

/-- A body that passed the checks of a file is stored under its key. -/
theorem putObject_intact {f : StoredFile} (hf : Owns f w.store) {body : List UInt8}
    (hbody : f.Matches env body) {contentType : String} :
    (intactDiscipline env).Keeps pid (putObject f.objectKey body contentType) w := by
  unfold putObject storageCall
  rw [← Process.bind_pure (Process.atomically _ _)]
  refine Keeps.commit_known (owns_stable f) hf (fun _ => rfl) (fun w' i a s' hi hf' hm => ?_)
    fun _ _ => Keeps.pure _
  cases hfailure : i.storageFailure with
  | true => simp [hfailure] at hm
  | false =>
    simp only [hfailure, Bool.false_eq_true, if_false, Transaction.writes_ok] at hm
    rw [hm]
    have hkeys : KeyEffect w' (w'.advance pid ({ w'.store with
        objects := (w'.store.objects.filter fun o => !(o.key == f.objectKey)) ++
          [⟨f.objectKey, body, some contentType, i.now⟩] }, [])) := .objectStored hf'.2.1
    refine ⟨hkeys, .refl, fun _ => ⟨hkeys.2 hi.toFreshKeys, hi.sound, hi.below, ?_⟩⟩
    intro o ho g hg hkey
    rcases List.mem_append.mp ho with ho | ho
    · exact hi.content o (List.mem_of_mem_filter ho) g hg hkey
    · rw [List.mem_singleton.mp ho] at hkey ⊢
      exact hbody.congr (hf'.2.2 g hg (.inr hkey)).symm

theorem findLocalFile_owns (fileId : Id) : Ensures (intactDiscipline env).contract pid
    (fun r w => ∀ f, r = .ok f → Owns f w.store) (findLocalFile fileId) w := by
  refine Ensures.query ((intactDiscipline env).idle pid) fun w₁ _ hi => ?_
  split
  · exact Ensures.fail fun _ _ _ _ h => by cases h
  · rename_i file hfound
    refine Ensures.done fun w₂ hw _ f heq => ?_
    cases heq
    exact Contract.concurrent_stable (owns_stable _) hw
      (owns_of_mem hi (List.mem_of_find?_eq_some hfound))

theorem storeLocalUpload_intact (fileId : Id) (expires : Int) (signature : String)
    (upload : LocalUpload) :
    (intactDiscipline env).Keeps pid (storeLocalUpload env fileId expires signature upload) w := by
  refine Keeps.rejectIf fun _ => Keeps.learn (findLocalFile_owns fileId) fun f w₁ hf => ?_
  refine Keeps.ask fun _ => Keeps.rejectIf fun _ => Keeps.ask fun _ => Keeps.rejectIf fun _ =>
    Keeps.rejectIf fun _ => Keeps.ofExcept fun validated hvalid => ?_
  exact putObject_intact hf ⟨validated, hvalid⟩

theorem readForDownload_owns (p : StoredFile → Bool) : Ensures (intactDiscipline env).contract pid
    (fun r w => ∀ found, r = .ok found → ∀ f, found = some f → p f = true ∧ Owns f w.store)
    (readForDownload p) w := by
  refine Keeps.learned (intactDiscipline env).stable_true True.intro
    ((readForDownload_storeless p).keeps readForDownload_keys) (fun found => ?_)
    fun w' i found s' hi _ hm => ?_
  · exact fun q w w' hi hi' he h f hf => ⟨(h f hf).1, owns_stable f q w w' hi hi' he (h f hf).2⟩
  · obtain ⟨hfound, rfl⟩ := Table.findFirst_ok.mp hm
    rintro f rfl
    exact ⟨List.find?_some hfound.symm, owns_of_mem hi (List.mem_of_find?_eq_some hfound.symm)⟩

/-- The object under the key of a file is served with the checks and the name of the file. -/
theorem inspectObject_delivered {f : StoredFile} (hf : Owns f w.store) (contentType : String) :
    Ensures (intactDiscipline env).contract pid
      (fun r w => ∀ object, r = .ok object →
        Delivered env f.id ⟨object.body, f.originalName, contentType⟩ w.store)
      (inspectObject env f.objectKey) w := by
  have hkeeps : (intactDiscipline env).Keeps pid (inspectObject env f.objectKey) w :=
    (inspectObject_storeless f.objectKey).keeps inspectObject_keys
  unfold inspectObject storageCall at hkeeps ⊢
  refine Keeps.learned (owns_stable f) hf hkeeps (fun object => delivered_stable _ _)
    fun w' i object s' hi hf' hm => ?_
  cases hfailure : i.storageFailure with
  | true => simp [hfailure] at hm
  | false =>
    simp only [hfailure, Bool.false_eq_true, if_false, Transaction.bind_ok,
      Transaction.reads_ok] at hm
    obtain ⟨found, _, ⟨hfound, rfl⟩, hm⟩ := hm
    cases found with
    | none => simp at hm
    | some stored =>
      obtain ⟨rfl, rfl⟩ := (Transaction.pure_ok _ _ _ _).mp hm
      have hkey : stored.key = f.objectKey := by
        have hfind := List.find?_some hfound.symm
        exact beq_iff_eq.mp hfind
      refine ⟨hf'.1, fun g hg hid => ?_⟩
      have hreserved := hf'.2.2 g hg (.inl hid)
      have hkeys : g.objectKey = f.objectKey := congrArg (fun x => x.2.1) hreserved
      have hnames : g.originalName = f.originalName := congrArg (fun x => x.2.2.1) hreserved
      have hmatches := hi.content stored (List.mem_of_find?_eq_some hfound.symm) g hg
        (hkeys.trans hkey.symm)
      refine ⟨?_, hnames.symm⟩
      -- the local provider stores no content type with a body
      cases hprovider : env.provider <;> exact hmatches

theorem readLocalDownload_delivered (fileId : Id) (expires : Int) (signature : String) :
    Ensures (intactDiscipline env).contract pid
      (fun r w => ∀ d, r = .ok d → Delivered env fileId d w.store)
      (readLocalDownload env fileId expires signature) w := by
  have herror : ∀ (e : Failure) w₁, Ensures (intactDiscipline env).contract pid
      (fun r w => ∀ d, r = .ok d → Delivered env fileId d w.store) (.fail e : Handler LocalDownload)
      w₁ := fun e w₁ => Ensures.fail fun _ _ _ _ h => by cases h
  refine Ensures.rejectIf (fun _ => herror _ _) fun _ => Ensures.bind ?_
  refine (readForDownload_owns _).mono fun r w₁ _ hr => ?_
  cases r with
  | error e => exact herror e w₁
  | ok found =>
    cases found with
    | none => exact herror _ w₁
    | some file =>
      obtain ⟨hselected, hfile⟩ := hr _ rfl file rfl
      rw [Bool.and_eq_true, beq_iff_eq] at hselected
      refine Ensures.ask ((intactDiscipline env).idle pid) fun _ =>
        Ensures.rejectIf (fun _ => herror _ _) fun _ => Ensures.rejectIf (fun _ => herror _ _)
          fun _ => Ensures.bind ?_
      refine (inspectObject_delivered hfile (file.detectedMimeType.getD file.declaredMimeType)).mono
        fun r w₂ _ hr => ?_
      cases r with
      | error e => exact herror e w₂
      | ok object =>
        have hdelivered := hr object rfl
        rw [hselected.1] at hdelivered
        have hhands : (intactDiscipline env).Keeps pid (handOut file) w₂ :=
          (handOut_storeless file).keeps handOut_keys
        refine Ensures.bind ((Ensures.frame (delivered_stable _ _) hhands hdelivered).mono
          fun r w₃ _ hr => ?_)
        cases r with
        | error e => exact herror e w₃
        | ok u =>
          refine Ensures.done fun w₄ hw _ d heq => ?_
          cases heq
          exact Contract.concurrent_stable (delivered_stable _ _) hw hr.2

/-! ## The service -/

/-- A finished download is that of its file. -/
def Answers (env : Environment) : Request → Except Failure Response → World → Prop
  | .readLocalDownload fileId _ _, r, w => ∀ d, r = .ok (.download d) → Delivered env fileId d w.store
  | _, _, _ => True

theorem handler_intact (r : Request)
    (hclient : ∀ key body contentType, r ≠ .clientUpload key body contentType)
    (hi : Intact env w) :
    Ensures (intactDiscipline env).contract pid (Answers env r) (handler env r) w := by
  have hkeys : ∀ {r : Request}, r.Addressed w → keyDiscipline.Keeps pid (handler env r) w :=
    fun h => handler_keys env _ h hi.toFreshKeys
  cases r with
  | initiateUpload organizationId userId dto =>
    exact Storeless.keeps (Every.map (initiateUpload_storeless _ _ _)) (hkeys True.intro)
  | completeUpload organizationId fileId =>
    exact Storeless.keeps (Every.map (completeUpload_storeless _ _)) (hkeys True.intro)
  | getFile organizationId fileId =>
    exact Storeless.keeps (Every.map ((findScopedFile_storeless _ _).bind fun _ => Every.pure _))
      (hkeys True.intro)
  | getUsage organizationId =>
    exact Storeless.keeps (Every.map ((getSnapshot_storeless _).bind fun _ => idle_ask fun _ =>
      idle_query fun _ => Every.pure _)) (hkeys True.intro)
  | createDownloadTarget organizationId fileId =>
    exact Storeless.keeps (Every.map (createDownloadTarget_storeless _ _)) (hkeys True.intro)
  | deleteFile organizationId fileId =>
    exact Storeless.keeps (Every.map (deleteFile_storeless _ _)) (hkeys True.intro)
  | restoreFile organizationId fileId =>
    exact Storeless.keeps (Every.map (restoreFile_storeless _ _)) (hkeys True.intro)
  | storeLocalUpload fileId expires signature upload =>
    exact Keeps.map (storeLocalUpload_intact fileId expires signature upload)
  | readLocalDownload fileId expires signature =>
    refine Ensures.map
      ((readLocalDownload_delivered fileId expires signature).mono fun r w' _ hr d heq => ?_)
    cases r with
    | error e => cases heq
    | ok download =>
      cases heq
      exact hr _ rfl
  | clientUpload key body contentType => exact absurd rfl (hclient key body contentType)
  | billingUpdate plans subscriptions =>
    exact Storeless.keeps (Every.map (writeSubscriptions_storeless _ _)) (hkeys True.intro)
  | maintain => exact Storeless.keeps (Every.map maintain_storeless) (hkeys True.intro)
  | reconcileOrphans =>
    exact Storeless.keeps (Every.map reconcileOrphans_storeless) (hkeys True.intro)

theorem intact_empty (env : Environment) (nextId : Id) (users : List FileUploader)
    (plans : List Billing.Plan) (subscriptions : List Billing.Subscription) :
    Intact env ⟨.empty nextId users plans subscriptions, []⟩ where
  objects o ho := by cases ho
  storedFiles f hf := by cases hf
  reserved q fileId key hmem := by cases hmem
  sound := ⟨fun f hf => by (cases hf), rfl⟩
  below f hf := by cases hf
  content o ho := by cases ho

section Clients
variable {acts : List (Action Request Input)} {c : Files.Config}

theorem requests_intact
    (hclients : ∀ key body contentType, .request (.clientUpload key body contentType) ∉ acts) :
    ∀ r, .request r ∈ acts → ∀ pid w, (intactDiscipline env).inv w → w.Unused pid →
      Ensures (intactDiscipline env).contract pid (Answers env r) (handler env r) w := by
  intro r hr pid w hi _
  refine handler_intact r (fun key body contentType heq => ?_) hi
  rw [heq] at hr
  exact hclients key body contentType hr

theorem intact_meets
    (hclients : ∀ key body contentType, .request (.clientUpload key body contentType) ∉ acts)
    (h : c.Meets (intactDiscipline env).inv (intactDiscipline env).effect
      fun r _ => Answers env r) :
    (c.run (handler env) acts).Meets (intactDiscipline env).inv (intactDiscipline env).effect
      fun r _ => Answers env r :=
  h.run (requests_intact hclients)

/-- What a row owns, it owns after every run. -/
theorem owns_run
    (hclients : ∀ key body contentType, .request (.clientUpload key body contentType) ∉ acts)
    (h : c.Meets (intactDiscipline env).inv (intactDiscipline env).effect
      fun r _ => Answers env r) {f : StoredFile} (hf : Owns f c.world.store) :
    Owns f (c.run (handler env) acts).world.store :=
  Config.Meets.invariant (P := fun w => Owns f w.store) (A := fun _ _ => True)
    (requests_intact hclients) h hf
    (fun pid w w' hi hi' he _ hf => owns_stable f pid w w' hi hi' he hf) (Config.Along.trivial acts)

end Clients

/-- Where no client writes to the storage itself, every interleaving stores only objects that
their files were reserved for, a download is one of these, and a reservation is for good. -/
theorem local_files_intact (env : Environment) (nextId : Id) (users : List FileUploader)
    (plans : List Billing.Plan) (subscriptions : List Billing.Subscription)
    (acts : List (Action Request Input))
    (hclients : ∀ key body contentType, .request (.clientUpload key body contentType) ∉ acts) :
    let run :=
      (Config.init (Store.empty nextId users plans subscriptions) : Files.Config).run (handler env)
    (∀ o ∈ (run acts).world.store.objects, ∀ f ∈ (run acts).world.store.storedFiles,
      f.objectKey = o.key → o.body.length = f.sizeBytes ∧ env.sha256 o.body = f.checksumSha256 ∧
        f.Matches env o.body) ∧
    (∀ pid fileId expires signature d, (run acts).outcome pid =
        some (.readLocalDownload fileId expires signature, .ok (.download d)) →
      ∀ f ∈ (run acts).world.store.storedFiles, f.id = fileId → d.fileName = f.originalName ∧
        d.body.length = f.sizeBytes ∧ env.sha256 d.body = f.checksumSha256) ∧
    ∀ before after, acts = before ++ after →
      ∀ f ∈ (run before).world.store.storedFiles, ∀ f' ∈ (run acts).world.store.storedFiles,
        f'.id = f.id → f'.reserved = f.reserved := by
  intro run
  have hinit : (Config.init (Store.empty nextId users plans subscriptions) : Files.Config).Meets
      (intactDiscipline env).inv (intactDiscipline env).effect fun r _ => Answers env r :=
    Config.Meets.init (intact_empty env nextId users plans subscriptions)
  have hend := intact_meets hclients hinit
  refine ⟨fun o ho f hf hkey => ?_, fun pid fileId expires signature d hd f hf hid => ?_,
    fun before after heq f hf f' hf' hid => ?_⟩
  · have hmatches := hend.holds.content o ho f hf hkey
    exact ⟨hmatches.content.1, hmatches.content.2, hmatches⟩
  · obtain ⟨hmatches, hname⟩ := (hend.outcome hd d rfl).rows f hf hid
    exact ⟨hname, hmatches.content⟩
  · rw [heq] at hclients
    have hclients' : ∀ key body contentType,
        .request (.clientUpload key body contentType) ∉ before :=
      fun key body contentType h => hclients key body contentType (List.mem_append_left _ h)
    have hbefore := intact_meets hclients' hinit
    have howns : Owns f (run acts).world.store := by
      change Owns f (Config.run (handler env) _ acts).world.store
      rw [heq, Config.run_append]
      exact owns_run
        (fun key body contentType h => hclients key body contentType (List.mem_append_right _ h))
        hbefore (owns_of_mem hbefore.holds hf)
    exact howns.2.2 f' hf' (.inl hid)

end Runs

/-- An environment for tests: the disk of the server. -/
def Environment.localDisk : Environment :=
  { Environment.transparent with provider := .local, scannerEnabled := false }

/-- An upload to the disk and its download, while a second upload of the file is under way. -/
def reportOnDisk : List (Action Request Input) :=
  .request (.initiateUpload 0 0 ⟨"report.pdf", "application/pdf", 5, String.ofList
    (List.replicate 64 '0')⟩) :: advances 0 5 (.at 0 none) ++
  .request (.storeLocalUpload 2 600 "upload objects/0/2 600"
    ⟨asciiBytes "%PDF-", "application/pdf", 5⟩) :: advances 1 4 (.at 0 none) ++
  .request (.storeLocalUpload 2 600 "upload objects/0/2 600"
    ⟨asciiBytes "%PDF-", "application/pdf", 5⟩) :: advances 2 3 (.at 0 none) ++
  .request (.completeUpload 0 2) :: advances 3 6 (.at 0 none) ++
  advances 2 1 (.at 1 none) ++
  .request (.readLocalDownload 2 600 "download objects/0/2 600") :: advances 4 5 (.at 1 none)

theorem local_files_intact_report :
    let world := ((Config.init (Store.empty 2 [⟨0, none⟩] [freePlan] []) : Files.Config).run
      (handler .localDisk) reportOnDisk).world
    world.trace.getLast? = some (4, .handedOut 2 "objects/0/2") ∧
    ∀ o ∈ world.store.objects, ∀ f ∈ world.store.storedFiles, f.objectKey = o.key →
      o.body.length = f.sizeBytes ∧ Environment.localDisk.sha256 o.body = f.checksumSha256 ∧
        f.Matches .localDisk o.body := by
  refine ⟨by decide +kernel,
    (local_files_intact .localDisk 2 [⟨0, none⟩] [freePlan] [] reportOnDisk ?_).1⟩
  intro key body contentType h
  simp [reportOnDisk, advances] at h

end ShipFlow.Files
