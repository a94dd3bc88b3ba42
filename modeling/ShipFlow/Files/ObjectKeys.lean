import ShipFlow.Encoding.Text
import ShipFlow.Files.Effects

/-! The keys of objects. A key is made from the identifier of a new file, so that it is the key
of no object and of no row before, and it comes into the hands of a client with the row. -/

namespace ShipFlow.Files
open Encoding Interleaving Interleaving.Discipline Relational

/-- An upload yet to come may be given this key. -/
def Store.Free (s : Store) (key : String) : Prop :=
  ∃ organizationId id : Id, s.nextId ≤ id ∧ key = s!"objects/{organizationId}/{id}"

/-- `randomUUID()` returns nothing that is in the storage or in a row. -/
structure Store.Fresh (s : Store) : Prop where
  objects : ∀ o ∈ s.objects, ¬ s.Free o.key
  storedFiles : ∀ f ∈ s.storedFiles, ¬ s.Free f.objectKey

/-- A target for an upload to this key may have been issued. -/
def Issued (key : String) (w : World) : Prop :=
  (∃ f ∈ w.store.storedFiles, f.objectKey = key) ∨ ∃ q fileId, (q, .reserved fileId key) ∈ w.trace

structure FreshKeys (w : World) : Prop extends w.store.Fresh where
  reserved : ∀ q fileId key, (q, .reserved fileId key) ∈ w.trace → ¬ w.store.Free key

/-- Every row goes back to an earlier one with its key, or its key was free. -/
structure Stems (s s' : Store) : Prop where
  nextId : s.nextId ≤ s'.nextId
  storedFiles : ∀ f' ∈ s'.storedFiles, (∃ f ∈ s.storedFiles, f.objectKey = f'.objectKey ∧
    f.storageProvider = f'.storageProvider) ∨ s.Free f'.objectKey

section Keys
variable {s s' s'' : Store} {w w' : World} {key : String} {pid : Nat}

theorem objectKey_inj {a b c d : Id} (h : s!"objects/{a}/{b}" = s!"objects/{c}/{d}") : b = d := by
  have hdigits : ∀ n : Nat, '/' ∉ n.repr.toList := by
    intro n hmem
    rw [Nat.repr_eq_ofList_toDigits, String.toList_ofList] at hmem
    have hdigit := Nat.isDigit_of_mem_toDigits (by decide) (by decide) hmem
    cases hdigit
  have hfields := congrArg String.toList h
  rw [objectKey_toList, objectKey_toList, List.append_cancel_left_eq, fields_inj (hdigits a) (hdigits c)] at hfields
  exact Nat.repr_injective (String.toList_injective hfields.2)

/-- A free key is written in digits. -/
theorem Store.Free.digits (h : s.Free key) {c : Char} (hc : c ∈ key.toList.drop 8) :
    c.isDigit = true ∨ c = '/' := by
  obtain ⟨organizationId, id, -, rfl⟩ := h
  have hdigit : ∀ n : Nat, c ∈ n.repr.toList → c.isDigit = true := by
    intro n hmem
    rw [Nat.repr_eq_ofList_toDigits, String.toList_ofList] at hmem
    exact Nat.isDigit_of_mem_toDigits (by decide) (by decide) hmem
  rw [objectKey_toList, List.drop_left' (by decide)] at hc
  rcases List.mem_append.mp hc with hc | hc
  · exact .inl (hdigit _ hc)
  · rcases List.mem_cons.mp hc with hc | hc
    · exact .inr hc
    · exact .inl (hdigit _ hc)

theorem Store.Free.of_le (h : s'.Free key) (hle : s.nextId ≤ s'.nextId) : s.Free key := by
  obtain ⟨organizationId, id, hid, hkey⟩ := h
  exact ⟨organizationId, id, Nat.le_trans hle hid, hkey⟩

theorem Stems.refl : Stems s s :=
  ⟨Nat.le_refl _, fun f hf => .inl ⟨f, hf, rfl, rfl⟩⟩

theorem Stems.trans (h : Stems s s') (h' : Stems s' s'') : Stems s s'' := by
  refine ⟨Nat.le_trans h.nextId h'.nextId, fun f hf => ?_⟩
  rcases h'.storedFiles f hf with ⟨f', hf', hkey, hprovider⟩ | hfree
  · rcases h.storedFiles f' hf' with ⟨f'', hf'', hkey', hprovider'⟩ | hfree
    · exact .inl ⟨f'', hf'', hkey'.trans hkey, hprovider'.trans hprovider⟩
    · exact .inr (hkey ▸ hfree)
  · exact .inr (hfree.of_le h.nextId)

/-! ## One action -/

/-- What one action does to the keys. -/
def KeyEffect (w w' : World) : Prop := Stems w.store w'.store ∧ (FreshKeys w → FreshKeys w')

theorem KeyEffect.idle : KeyEffect w w := ⟨.refl, id⟩

/-- No key is new. -/
theorem KeyEffect.same {es : List Event} (hid : s'.nextId = w.store.nextId)
    (hrows : ∀ f' ∈ s'.storedFiles, ∃ f ∈ w.store.storedFiles, f.objectKey = f'.objectKey ∧
      f.storageProvider = f'.storageProvider)
    (hobjects : ∀ o' ∈ s'.objects, ∃ o ∈ w.store.objects, o.key = o'.key)
    (hes : ∀ fileId key, .reserved fileId key ∉ es) : KeyEffect w (w.advance pid (s', es)) := by
  have hfree : ∀ {key}, s'.Free key → w.store.Free key := fun h => h.of_le (Nat.le_of_eq hid.symm)
  refine ⟨⟨Nat.le_of_eq hid.symm, fun f' hf' => .inl (hrows f' hf')⟩, fun h => ?_⟩
  refine ⟨⟨fun o' ho' hkey => ?_, fun f' hf' hkey => ?_⟩,
    fun q fileId key hmem hkey => ?_⟩
  · obtain ⟨o, ho, heq⟩ := hobjects o' ho'
    exact h.objects o ho (heq ▸ hfree hkey)
  · obtain ⟨f, hf, heq, -⟩ := hrows f' hf'
    exact h.storedFiles f hf (heq ▸ hfree hkey)
  · rcases List.mem_append.mp hmem with hmem | hmem
    · exact h.reserved q fileId key hmem (hfree hkey)
    · obtain ⟨e, he, heq⟩ := List.mem_map.mp hmem
      cases heq
      exact hes fileId key he

theorem KeyEffect.updated {t : Transition} {es : List Event}
    (hes : ∀ fileId key, .reserved fileId key ∉ es) :
    KeyEffect w (w.advance pid ({ w.store with
      storedFiles := updateRows t.selects t.apply w.store.storedFiles }, es)) := by
  refine .same rfl (fun f' hf' => ?_) (fun o ho => ⟨o, ho, rfl⟩) hes
  rcases mem_updateRows.mp hf' with ⟨hf, -⟩ | ⟨f, hf, -, rfl⟩
  · exact ⟨f', hf, rfl, rfl⟩
  · have hprovider : f.storageProvider = (t.apply f).storageProvider := by cases t <;> rfl
    exact ⟨f, hf, (t.apply_keys f).2.symm, hprovider⟩

theorem KeyEffect.objectDeleted : KeyEffect w (w.advance pid
    ({ w.store with objects := w.store.objects.filter fun o => !(o.key == key) }, [])) :=
  .same rfl (fun f hf => ⟨f, hf, rfl, rfl⟩) (fun o ho => ⟨o, List.mem_of_mem_filter ho, rfl⟩)
    fun _ _ h => by cases h

theorem KeyEffect.objectStored (hkey : ¬ w.store.Free key) {body : List UInt8}
    {contentType : Option String} {now : Time} : KeyEffect w (w.advance pid
    ({ w.store with
        objects := (w.store.objects.filter fun o => !(o.key == key)) ++
          [⟨key, body, contentType, now⟩] }, [])) := by
  refine ⟨⟨Nat.le_refl _, fun f hf => .inl ⟨f, hf, rfl, rfl⟩⟩, fun h => ⟨⟨fun o ho => ?_,
    h.storedFiles⟩, fun q fileId key hmem => h.reserved q fileId key (by simpa using hmem)⟩⟩
  rcases List.mem_append.mp ho with ho | ho
  · exact h.objects o (List.mem_of_mem_filter ho)
  · rw [List.mem_singleton.mp ho]
    exact hkey

/-- A key comes into use with the row of its file. -/
theorem KeyEffect.reserved {file : StoredFile} {organizationId : Id}
    (hkey : file.objectKey = s!"objects/{organizationId}/{w.store.nextId}") :
    KeyEffect w (w.advance pid
      ({ w.store with
          nextId := w.store.nextId + 1
          storedFiles := w.store.storedFiles ++ [file] }, [.reserved file.id file.objectKey])) := by
  -- the key carries the identifier that is taken in this step
  have hused : ¬ Store.Free { w.store with
      nextId := w.store.nextId + 1
      storedFiles := w.store.storedFiles ++ [file] } file.objectKey := by
    rintro ⟨organizationId', id, hid, heq⟩
    have hsame := objectKey_inj (hkey.symm.trans heq)
    rw [← hsame] at hid
    exact Nat.lt_irrefl _ hid
  refine ⟨⟨Nat.le_succ _, fun f hf => ?_⟩, fun h => ⟨⟨fun o ho hfree => ?_, fun f hf hfree => ?_⟩,
    fun q fileId key hmem hfree => ?_⟩⟩
  · rcases List.mem_append.mp hf with hf | hf
    · exact .inl ⟨f, hf, rfl, rfl⟩
    · rw [List.mem_singleton.mp hf]
      exact .inr ⟨organizationId, w.store.nextId, Nat.le_refl _, hkey⟩
  · exact h.objects o ho (hfree.of_le (Nat.le_succ _))
  · rcases List.mem_append.mp hf with hf | hf
    · exact h.storedFiles f hf (hfree.of_le (Nat.le_succ _))
    · rw [List.mem_singleton.mp hf] at hfree
      exact hused hfree
  · rcases List.mem_append.mp hmem with hmem | hmem
    · exact h.reserved q fileId key hmem (hfree.of_le (Nat.le_succ _))
    · cases List.mem_singleton.mp hmem
      exact hused hfree

end Keys

abbrev keyDiscipline : Discipline Store Event where
  inv := FreshKeys
  effect _ := KeyEffect
  idle _ _ := .idle
  kept _ _ _ he := he.2

/-! ## The requests -/

section Requests
variable {α : Type} {env : Environment} {pid : Nat} {w : World} {key : String}

/-- A key in use stays in use. -/
theorem used_stable (key : String) : keyDiscipline.Stable fun w => ¬ w.store.Free key :=
  fun _ _ _ _ _ he h hfree => h (hfree.of_le he.1.nextId)

theorem storageCall_keys {call : Input → Tx α} {I : World → Prop} (hI : keyDiscipline.Stable I)
    (hi : I w) (h : ∀ w' i a s', I w' → call i w'.store = .ok (a, s') →
      KeyEffect w' (w'.advance pid (s', []))) : keyDiscipline.Keeps pid (storageCall call) w := by
  unfold storageCall
  rw [← Process.bind_pure (Process.atomically _ _)]
  refine Keeps.commit_known hI hi (fun _ => rfl) (fun w' i a s' _ hi' hm => ?_)
    fun _ _ => Keeps.pure _
  cases hfailure : i.storageFailure with
  | true => simp [hfailure] at hm
  | false =>
    simp only [hfailure, Bool.false_eq_true, if_false] at hm
    exact h w' i a s' hi' hm

theorem readsStorage_keys {call : Input → Tx α}
    (h : ∀ i s a s', call i s = .ok (a, s') → s' = s) :
    keyDiscipline.Keeps pid (storageCall call) w := by
  refine storageCall_keys keyDiscipline.stable_true True.intro fun w' i a s' _ hm => ?_
  rw [h i _ a s' hm, World.advance_idle]
  exact .idle

theorem inspectObject_keys : keyDiscipline.Keeps pid (inspectObject env key) w := by
  apply readsStorage_keys
  intro i s a s' hm
  simp only [Transaction.bind_ok, Transaction.reads_ok] at hm
  obtain ⟨found, _, ⟨-, rfl⟩, hm⟩ := hm
  cases found with
  | none => simp at hm
  | some object => exact ((Transaction.pure_ok _ _ _ _).mp hm).2

theorem setLifecycleState_keys {state : LifecycleState} :
    keyDiscipline.Keeps pid (setLifecycleState key state) w :=
  readsStorage_keys fun _ _ _ _ hm => ((Transaction.pure_ok _ _ _ _).mp hm).2

theorem putObject_keys (hkey : ¬ w.store.Free key) {body : List UInt8} {contentType : String} :
    keyDiscipline.Keeps pid (putObject key body contentType) w := by
  refine storageCall_keys (used_stable key) hkey fun w' i a s' hkey' hm => ?_
  rw [(Transaction.writes_ok _ _ _ _).mp hm]
  exact .objectStored hkey'

theorem deleteObject_keys : keyDiscipline.Keeps pid (deleteObject env key) w := by
  refine storageCall_keys keyDiscipline.stable_true True.intro fun w' i a s' _ hm => ?_
  rw [(removeObject_ok.mp hm).2]
  exact .objectDeleted

theorem update_keys {t : Transition} : keyDiscipline.Keeps pid (update t) w := by
  unfold update
  rw [← Process.bind_pure (Process.atomically _ _)]
  refine Keeps.commit (fun _ => rfl) (fun w' i r s' hm => ?_) fun _ _ => Keeps.pure _
  simp only [Transaction.bind_ok, Transaction.pure_ok, Transaction.reads_ok] at hm
  obtain ⟨_, _, hu, _, _, ⟨-, rfl⟩, -, rfl⟩ := hm
  obtain ⟨_, -, -, -, rfl⟩ := Table.update_ok.mp hu
  exact .updated fun _ _ h => by simp at h

theorem updateScanning_keys {t : Transition} : keyDiscipline.Keeps pid (updateScanning t) w := by
  unfold updateScanning
  refine Keeps.commit (fun _ => rfl) (fun w' i r s' hm => ?_) fun _ _ => Keeps.pure _
  obtain ⟨-, -, rfl⟩ := Table.updateMany_ok.mp hm
  exact .updated fun _ _ h => by simp at h

theorem syncLifecycleState_keys {fileId : Id} {state : LifecycleState} :
    keyDiscipline.Keeps pid (syncLifecycleState fileId key state) w :=
  Keeps.handle setLifecycleState_keys fun _ _ => Keeps.bind update_keys fun _ _ => Keeps.pure _

theorem findScopedFile_keys {organizationId fileId : Id} :
    keyDiscipline.Keeps pid (findScopedFile organizationId fileId) w := by
  unfold findScopedFile
  refine Keeps.query fun w' _ => ?_
  split
  · exact Keeps.throw _
  · exact Keeps.pure _

theorem initiateUpload_keys {organizationId userId : Id} {dto : InitiateFileUploadDto} :
    keyDiscipline.Keeps pid (initiateUpload env organizationId userId dto) w := by
  unfold initiateUpload
  refine Keeps.ofExcept fun declaration _ => Keeps.bind (Billing.getSnapshot_keeps _)
    fun snapshot _ => Keeps.ask fun now => ?_
  refine Keeps.commit (fun _ => rfl) (fun w' i r s' hm => ?_) fun r w' => ?_
  · have hkey := reserve_key hm
    obtain ⟨-, -, -, -, -, -, -, -, rfl⟩ := reserve_ok hm
    exact .reserved hkey
  · refine Keeps.handle (Keeps.bind ?_ fun _ _ => Keeps.pure _) fun _ _ => Keeps.ask fun now =>
      Keeps.bind update_keys fun _ _ => Keeps.throw _
    exact readsStorage_keys fun _ _ _ _ hm => ((Transaction.pure_ok _ _ _ _).mp hm).2

theorem completeUpload_keys {organizationId fileId : Id} :
    keyDiscipline.Keeps pid (completeUpload env organizationId fileId) w := by
  unfold completeUpload
  refine Keeps.bind findScopedFile_keys fun r w₁ => ?_
  simp only
  split
  · exact Keeps.pure _
  · refine Keeps.rejectIf fun _ => Keeps.ask fun clock => Keeps.rejectIf fun _ => ?_
    refine Keeps.bind (Keeps.handle inspectObject_keys fun _ _ => Keeps.throw _)
      fun object w₂ => Keeps.ask fun now => ?_
    split
    · exact Keeps.bind update_keys fun _ _ => Keeps.bind syncLifecycleState_keys fun _ _ =>
        Keeps.throw _
    · exact Keeps.bind update_keys fun _ _ => Keeps.bind syncLifecycleState_keys fun _ _ =>
        Keeps.pure _

theorem deleteFile_keys {organizationId fileId : Id} :
    keyDiscipline.Keeps pid (deleteFile env organizationId fileId) w := by
  unfold deleteFile
  refine Keeps.bind findScopedFile_keys fun r w₁ => ?_
  simp only
  split
  · exact Keeps.pure _
  · split
    · exact Keeps.bind deleteObject_keys fun _ _ => Keeps.ask fun now =>
        Keeps.bind update_keys fun _ _ => Keeps.pure _
    · exact Keeps.rejectIf fun _ => Keeps.ask fun now => Keeps.bind update_keys fun _ _ =>
        Keeps.bind syncLifecycleState_keys fun _ _ => Keeps.pure _

theorem restoreFile_keys {organizationId fileId : Id} :
    keyDiscipline.Keeps pid (restoreFile organizationId fileId) w :=
  Keeps.bind findScopedFile_keys fun _ _ => Keeps.rejectIf fun _ => Keeps.ask fun _ =>
    Keeps.rejectIf fun _ => Keeps.bind update_keys fun _ _ =>
      Keeps.bind syncLifecycleState_keys fun _ _ => Keeps.pure _

/-- An action that changes nothing and reserves no key. -/
theorem KeyEffect.observed {es : List Event} (hes : ∀ fileId key, .reserved fileId key ∉ es) :
    KeyEffect w (w.advance pid (w.store, es)) :=
  .same rfl (fun f hf => ⟨f, hf, rfl, rfl⟩) (fun o ho => ⟨o, ho, rfl⟩) hes

theorem readForDownload_keys {p : StoredFile → Bool} :
    keyDiscipline.Keeps pid (readForDownload p) w := by
  unfold readForDownload
  rw [← Process.bind_pure (Process.atomically _ _)]
  refine Keeps.commit (fun _ => rfl) (fun w' i found s' hm => ?_) fun _ _ => Keeps.pure _
  obtain ⟨-, rfl⟩ := Table.findFirst_ok.mp hm
  refine .observed fun fileId key hmem => ?_
  cases found with
  | none => cases hmem
  | some file =>
    simp only at hmem
    split at hmem
    · simp at hmem
    · cases hmem

theorem handOut_keys {file : StoredFile} : keyDiscipline.Keeps pid (handOut file) w := by
  unfold handOut
  rw [← Process.bind_pure (Process.atomically _ _)]
  refine Ensures.atomically (fun w' _ hinv i u s' hm => ?_) fun w' _ _ i e hm => ?_
  · obtain ⟨-, rfl⟩ := (Transaction.pure_ok _ _ _ _).mp hm
    have heffect : KeyEffect w' (w'.advance pid (w'.store, [.handedOut file.id file.objectKey])) :=
      .observed fun _ _ h => by simp at h
    exact ⟨heffect.2 hinv, heffect, Keeps.pure _⟩
  · cases hm

theorem createDownloadTarget_keys {organizationId fileId : Id} :
    keyDiscipline.Keeps pid (createDownloadTarget env organizationId fileId) w := by
  unfold createDownloadTarget
  refine Keeps.bind readForDownload_keys fun found w₁ => ?_
  split
  · exact Keeps.throw _
  · refine Keeps.rejectIf fun _ => Keeps.bind ?_ fun _ _ => Keeps.bind handOut_keys fun _ _ =>
      Keeps.pure _
    exact readsStorage_keys fun _ _ _ _ hm => ((Transaction.pure_ok _ _ _ _).mp hm).2

theorem readLocalDownload_keys {fileId : Id} {expires : Int} {signature : String} :
    keyDiscipline.Keeps pid (readLocalDownload env fileId expires signature) w := by
  unfold readLocalDownload
  refine Keeps.rejectIf fun _ => Keeps.bind readForDownload_keys fun found w₁ => ?_
  split
  · exact Keeps.throw _
  · exact Keeps.ask fun _ => Keeps.rejectIf fun _ => Keeps.rejectIf fun _ =>
      Keeps.bind inspectObject_keys fun _ _ => Keeps.bind handOut_keys fun _ _ => Keeps.pure _

/-- The key of an upload to the local storage is that of a row. -/
theorem storeLocalUpload_keys {fileId : Id} {expires : Int} {signature : String}
    {upload : LocalUpload} :
    keyDiscipline.Keeps pid (storeLocalUpload env fileId expires signature upload) w := by
  unfold storeLocalUpload findLocalFile
  refine Keeps.rejectIf fun _ => Keeps.learn (I := fun file w => ¬ w.store.Free file.objectKey)
    (Ensures.query (fun _ => .idle) fun w₁ _ hinv => ?_) fun file w₁ hused => ?_
  · split
    · exact fun _ _ _ _ h => by cases h
    · rename_i file hfound
      intro w₂ hw _ file' heq
      cases heq
      have hmem := List.mem_of_find?_eq_some hfound
      exact Contract.concurrent_stable (used_stable file.objectKey) hw (hinv.storedFiles file hmem)
  · exact Keeps.ask fun _ => Keeps.rejectIf fun _ => Keeps.ask fun _ => Keeps.rejectIf fun _ =>
      Keeps.rejectIf fun _ => Keeps.ofExcept fun _ _ => putObject_keys hused

/-! ## Maintenance -/

theorem failScan_keys {fileId : Id} {malwareStatus : FileMalwareStatus} {scanAttempts : Nat} :
    keyDiscipline.Keeps pid (failScan fileId malwareStatus scanAttempts) w :=
  Keeps.ask fun _ => updateScanning_keys

theorem tagScanned_keys {fileId : Id} {state : LifecycleState} :
    keyDiscipline.Keeps pid (tagScanned fileId state) w := by
  unfold tagScanned
  refine Keeps.query fun w' _ => ?_
  split
  · exact Keeps.pure _
  · exact setLifecycleState_keys

theorem applyScanResult_keys {fileId : Id} {attempts : Nat} {result : MalwareScanResult} :
    keyDiscipline.Keeps pid (applyScanResult fileId attempts result) w := by
  have hinconclusive : ∀ {malwareStatus}, keyDiscipline.Keeps pid
      (if attempts + 1 ≥ 3 then failScan fileId malwareStatus (attempts + 1)
        else updateScanning (.scanInconclusive fileId (attempts + 1) malwareStatus)) w := by
    intro malwareStatus
    split
    · exact failScan_keys
    · exact updateScanning_keys
  cases result with
  | clean => exact Keeps.bind tagScanned_keys fun _ _ => Keeps.ask fun _ => updateScanning_keys
  | infected => exact Keeps.bind tagScanned_keys fun _ _ => Keeps.ask fun _ => updateScanning_keys
  | unsupported => exact hinconclusive
  | failed => exact hinconclusive

theorem scan_keys {file : StoredFile} {body : List UInt8} :
    keyDiscipline.Keeps pid (scan file body) w := by
  unfold scan
  rw [← Process.bind_pure (Process.atomically _ _)]
  refine Keeps.commit (fun _ => rfl) (fun w' i result s' hm => ?_) fun _ _ => Keeps.pure _
  have hs : s' = w'.store := by
    cases hscan : i.scan with
    | none => simp [hscan] at hm
    | some verdict =>
      simp only [hscan] at hm
      exact ((Transaction.pure_ok _ _ _ _).mp hm).2
  rw [hs]
  exact .observed fun _ _ h => by simp at h

theorem processScan_keys {file : StoredFile} :
    keyDiscipline.Keeps pid (processScan env file) w := by
  unfold processScan
  refine Keeps.ask fun now => ?_
  split
  · exact failScan_keys
  · refine Keeps.handle (Keeps.bind inspectObject_keys fun object w₁ => Keeps.bind scan_keys
      fun result w₂ => applyScanResult_keys) fun _ w₁ => ?_
    change keyDiscipline.Keeps pid (if _ then _ else _) w₁
    split
    · exact failScan_keys
    · exact updateScanning_keys

theorem processScans_keys : keyDiscipline.Keeps pid (processScans env) w := by
  unfold processScans
  split
  · exact Keeps.query fun _ _ => Keeps.forEach keyDiscipline.stable_true True.intro
      fun _ _ _ _ => processScan_keys
  · exact Keeps.pure _

theorem retryLifecycleTags_keys : keyDiscipline.Keeps pid (retryLifecycleTags env) w := by
  unfold retryLifecycleTags
  refine Keeps.query fun w' _ => Keeps.forEach keyDiscipline.stable_true True.intro
    fun file _ w₁ _ => ?_
  unfold retryLifecycleTag
  split
  · exact Keeps.pure _
  · exact Keeps.handle (Keeps.bind setLifecycleState_keys fun _ _ =>
      Keeps.bind update_keys fun _ _ => Keeps.pure _) fun _ _ => Keeps.pure _

theorem purgeExpiredRecords_keys : keyDiscipline.Keeps pid (purgeExpiredRecords env) w :=
  Keeps.ask fun _ => Keeps.query fun _ _ =>
    Keeps.forEach keyDiscipline.stable_true True.intro fun _ _ _ _ =>
      Keeps.handle (Keeps.bind deleteObject_keys fun _ _ => Keeps.ask fun _ =>
        Keeps.bind update_keys fun _ _ => Keeps.pure _) fun _ _ =>
        Keeps.bind update_keys fun _ _ => Keeps.pure _

theorem deleteAudited_keys : keyDiscipline.Keeps pid deleteAudited w := by
  unfold deleteAudited
  refine Keeps.ask fun now => Keeps.commit (fun _ => rfl) (fun w' i n s' hm => ?_)
    fun _ _ => Keeps.pure _
  obtain ⟨-, rfl⟩ := Table.deleteMany_ok.mp hm
  refine .same rfl (fun f hf => ⟨f, List.mem_of_mem_filter hf, rfl, rfl⟩) (fun o ho => ⟨o, ho, rfl⟩) ?_
  exact fun _ _ h => by simp at h

theorem maintain_keys : keyDiscipline.Keeps pid (maintain env) w :=
  Keeps.handle (Keeps.bind processScans_keys fun _ _ =>
    Keeps.bind retryLifecycleTags_keys fun _ _ => Keeps.bind purgeExpiredRecords_keys fun _ _ =>
      deleteAudited_keys) fun _ _ => Keeps.pure _

theorem reconcileOrphans_keys : keyDiscipline.Keeps pid (reconcileOrphans env) w := by
  unfold reconcileOrphans
  refine Keeps.handle (Keeps.ask fun now => Keeps.bind (readsStorage_keys ?_) fun objects w₁ => ?_)
    fun _ _ => Keeps.pure _
  · exact fun _ _ _ _ hm => ((Transaction.reads_ok _ _ _ _).mp hm).2
  · change keyDiscipline.Keeps pid (if _ then _ else _) w₁
    split
    · exact Keeps.pure _
    · exact Keeps.query fun _ _ => Keeps.bind
        (Keeps.forEach keyDiscipline.stable_true True.intro fun _ _ _ _ => deleteObject_keys)
        fun _ _ => Keeps.pure _

theorem writeSubscriptions_keys {plans : List Billing.Plan}
    {subscriptions : List Billing.Subscription} :
    keyDiscipline.Keeps pid (writeSubscriptions plans subscriptions) w := by
  unfold writeSubscriptions Process.statement
  rw [← Process.bind_pure (Process.atomically _ _)]
  refine Keeps.commit (fun _ => rfl) (fun w' i u s' hm => ?_) fun _ _ => Keeps.pure _
  rw [(Transaction.writes_ok _ _ _ _).mp hm]
  exact .same rfl (fun f hf => ⟨f, hf, rfl, rfl⟩) (fun o ho => ⟨o, ho, rfl⟩) nofun

/-- A client uploads where it has been given a target. -/
def Request.Addressed : Request → World → Prop
  | .clientUpload key _ _, w => Issued key w
  | _, _ => True

theorem FreshKeys.used (h : FreshKeys w) (hissued : Issued key w) : ¬ w.store.Free key := by
  rcases hissued with ⟨f, hf, rfl⟩ | ⟨q, fileId, hmem⟩
  · exact h.storedFiles f hf
  · exact h.reserved q fileId key hmem

theorem handler_keys (env : Environment) (r : Request) (haddressed : r.Addressed w)
    (hinv : FreshKeys w) : keyDiscipline.Keeps pid (handler env r) w := by
  cases r with
  | initiateUpload organizationId userId dto => exact Keeps.map initiateUpload_keys
  | completeUpload organizationId fileId => exact Keeps.map completeUpload_keys
  | getFile organizationId fileId =>
    exact Keeps.map (Keeps.bind findScopedFile_keys fun _ _ => Keeps.pure _)
  | getUsage organizationId =>
    exact Keeps.map (Keeps.bind (Billing.getSnapshot_keeps _) fun _ _ => Keeps.ask fun _ =>
      Keeps.query fun _ _ => Keeps.pure _)
  | createDownloadTarget organizationId fileId => exact Keeps.map createDownloadTarget_keys
  | deleteFile organizationId fileId => exact Keeps.map deleteFile_keys
  | restoreFile organizationId fileId => exact Keeps.map restoreFile_keys
  | storeLocalUpload fileId expires signature upload => exact Keeps.map storeLocalUpload_keys
  | readLocalDownload fileId expires signature => exact Keeps.map readLocalDownload_keys
  | clientUpload key body contentType =>
    exact Keeps.map (putObject_keys (hinv.used haddressed))
  | billingUpdate plans subscriptions => exact Keeps.map writeSubscriptions_keys
  | maintain => exact Keeps.map maintain_keys
  | reconcileOrphans => exact Keeps.map reconcileOrphans_keys

/-- Among clients that upload where they have been told to, a run that has come this far with
fresh keys goes on so, and every row stems from the ones before. -/
theorem keys_along {env : Environment} {c : Files.Config} {acts : List (Action Request Input)}
    (h : c.Meets keyDiscipline.inv keyDiscipline.effect fun _ _ _ _ => True)
    (haddressed : Config.Arriving Request.Addressed (handler env) c acts) :
    Config.Along (fun w w' => FreshKeys w ∧ FreshKeys w' ∧ Stems w.store w'.store) (handler env) c
      acts := by
  have halong := h.along_arriving (fun r pid w haddressed hinv _ =>
    handler_keys env r haddressed hinv) haddressed
  refine halong.mono fun w w' ⟨hinv, hinv', hstep⟩ => ⟨hinv, hinv', ?_⟩
  rcases hstep with rfl | ⟨pid, heffect⟩
  · exact .refl
  · exact heffect.1

theorem keys_meets {env : Environment} {s : Store} (hs : s.Fresh) {acts : List (Action Request Input)}
    (haddressed : Config.Arriving Request.Addressed (handler env) (Config.init s) acts) :
    ((Config.init s : Files.Config).run (handler env) acts).Meets keyDiscipline.inv
      keyDiscipline.effect fun _ _ _ _ => True := by
  have hinit : FreshKeys ⟨s, []⟩ := ⟨hs, fun _ _ _ h => by cases h⟩
  have hmeets : (Config.init s : Files.Config).Meets keyDiscipline.inv keyDiscipline.effect
      fun _ _ _ _ => True := Config.Meets.init hinit
  exact hmeets.run_arriving (fun r pid w haddressed hinv _ =>
    handler_keys env r haddressed hinv) haddressed

end Requests
end ShipFlow.Files
