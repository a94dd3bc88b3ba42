import ShipFlow.Interleaving.Discipline
import ShipFlow.Files.FileMaintenance

/-! Everything one atomic action of a file request can do. -/

namespace ShipFlow.Files
open Interleaving Interleaving.Discipline Relational

section Tables
variable (s : Store)

@[simp] theorem nextId_eq : HasIds.nextId s = s.nextId := rfl
@[simp] theorem takeId_eq : HasIds.takeId s = { s with nextId := s.nextId + 1 } := rfl

@[simp] theorem storedFiles_rows : storedFiles.rows s = s.storedFiles := rfl
@[simp] theorem storedFiles_put (rows : List StoredFile) :
    storedFiles.put rows s = { s with storedFiles := rows } := rfl

end Tables

/-- The constraints of the table. -/
def SoundFiles (rows : List StoredFile) : Prop :=
  (∀ f ∈ rows, f.valid = true) ∧ distinct storedFiles.collides rows = true

theorem storedFiles_sound (s : Store) (rows : List StoredFile) :
    storedFiles.sound s rows = true ↔ SoundFiles rows := by
  simp only [Table.sound, Bool.and_eq_true, List.all_eq_true]
  rfl

/-- The quota and the limits on reservations leave room for one more file. -/
structure Store.Admits (s : Store) (organizationId userId : Id) (sizeBytes : Nat)
    (quota : FileQuota) (now : Time) : Prop where
  bytes : (usage organizationId now s).1 + sizeBytes ≤ quota.maxBytes
  files : (usage organizationId now s).2 + 1 ≤ quota.maxFiles
  reservations : (s.storedFiles.countP fun f =>
    f.organizationId == organizationId && f.reservation now) <
      FILE_MAX_ACTIVE_RESERVATIONS_PER_ORGANIZATION
  userReservations : (s.storedFiles.countP fun f =>
    f.organizationId == organizationId && f.uploadedById == userId && f.reservation now) <
      FILE_MAX_ACTIVE_RESERVATIONS_PER_USER

theorem removeObject_ok {env : Environment} {key : String} {s s' : Store} {u : Unit} :
    removeObject env key s = .ok (u, s') ↔ env.refusesKey key = false ∧
      s' = { s with objects := s.objects.filter fun o => !(o.key == key) } := by
  unfold removeObject
  cases env.refusesKey key with
  | true => simp
  | false => simp

theorem reserve_ok {env : Environment} {organizationId userId : Id} {declaration : Declaration}
    {dto : InitiateFileUploadDto} {quota : FileQuota} {now : Time} {s s' : Store}
    {r : StoredFile × Option FileUploader}
    (h : reserve env organizationId userId declaration dto quota now s = .ok (r, s')) :
    r.1.id = s.nextId ∧ r.1.status = .pending ∧
      r.1.malwareStatus = (if env.scannerEnabled then .pending else .notRequired) ∧
      r.1.organizationId = organizationId ∧ r.1.uploadedById = userId ∧
      r.1.sizeBytes = dto.sizeBytes ∧ s.Admits organizationId userId dto.sizeBytes quota now ∧
      SoundFiles (s.storedFiles ++ [r.1]) ∧
      s' = { s with nextId := s.nextId + 1, storedFiles := s.storedFiles ++ [r.1] } := by
  simp only [reserve, Transaction.bind_ok, Transaction.reads_ok, Transaction.rejectIf_ok,
    Transaction.pure_ok, Table.count_ok] at h
  obtain ⟨_, _, ⟨rfl, rfl⟩, _, _, ⟨rfl, rfl⟩, _, _, ⟨rfl, rfl⟩, _, _, ⟨hquota, rfl⟩, _, _,
    ⟨hactive, rfl⟩, _, _, hid, file, _, hcreate, _, _, ⟨-, rfl⟩, rfl, rfl⟩ := h
  obtain ⟨rfl, rfl⟩ := uuidv7_ok.mp hid
  obtain ⟨hsound, rfl, rfl⟩ := Table.create_ok.mp hcreate
  simp only [Bool.or_eq_false_iff, decide_eq_false_iff_not, not_lt, not_le] at hquota hactive
  exact ⟨rfl, rfl, rfl, rfl, rfl, rfl, ⟨hquota.1, hquota.2, hactive.1, hactive.2⟩,
    (storedFiles_sound _ _).mp hsound, rfl⟩

theorem objectKey_toList (organizationId id : Id) : (s!"objects/{organizationId}/{id}").toList =
    "objects/".toList ++ (organizationId.repr.toList ++ '/' :: id.repr.toList) := by
  simp [toString, String.toList_append]

theorem isNumeral_repr (n : Nat) : isNumeral n.repr.toList = true := by
  rw [isNumeral, Bool.and_eq_true, Nat.repr_eq_ofList_toDigits, String.toList_ofList]
  constructor
  · rw [Bool.not_eq_true', List.isEmpty_eq_false_iff]
    exact Nat.toDigits_ne_nil
  · exact List.all_eq_true.mpr fun c hc => Nat.isDigit_of_mem_toDigits (by decide) (by decide) hc

theorem isRowKey_objectKey (organizationId id : Id) :
    isRowKey s!"objects/{organizationId}/{id}" = true := by
  have hslash (n : Nat) : '/' ∉ n.repr.toList := by
    intro hmem
    have hnumeral := isNumeral_repr n
    rw [isNumeral, Bool.and_eq_true, List.all_eq_true] at hnumeral
    exact absurd (hnumeral.2 '/' hmem) (by decide)
  have hparts : (s!"objects/{organizationId}/{id}").toList =
      ['/'].intercalate ["objects".toList, organizationId.repr.toList, id.repr.toList] := by
    rw [objectKey_toList]
    simp [List.intercalate_cons_cons]
  have hsplit : (s!"objects/{organizationId}/{id}").toList.splitOn '/' =
      ["objects".toList, organizationId.repr.toList, id.repr.toList] := by
    rw [hparts]
    refine List.splitOn_intercalate _ ?_ (List.cons_ne_nil _ _)
    intro part hpart
    simp only [List.mem_cons, List.not_mem_nil, or_false] at hpart
    rcases hpart with rfl | rfl | rfl
    · decide
    · exact hslash organizationId
    · exact hslash id
  rw [isRowKey, hsplit]
  simp only [isNumeral_repr, beq_self_eq_true, Bool.and_true]

/-- No provider refuses the key of a row. -/
theorem refusesKey_row (env : Environment) {key : String} (h : isRowKey key = true) :
    env.refusesKey key = false := by
  rw [Environment.refusesKey, h, Bool.or_true, Bool.not_true, Bool.and_false]

theorem reserve_key {env : Environment} {organizationId userId : Id} {declaration : Declaration}
    {dto : InitiateFileUploadDto} {quota : FileQuota} {now : Time} {s s' : Store}
    {r : StoredFile × Option FileUploader}
    (h : reserve env organizationId userId declaration dto quota now s = .ok (r, s')) :
    r.1.objectKey = s!"objects/{organizationId}/{s.nextId}" := by
  simp only [reserve, Transaction.bind_ok, Transaction.reads_ok, Transaction.rejectIf_ok,
    Transaction.pure_ok, Table.count_ok] at h
  obtain ⟨_, _, ⟨rfl, rfl⟩, _, _, ⟨rfl, rfl⟩, _, _, ⟨rfl, rfl⟩, _, _, ⟨-, rfl⟩, _, _, ⟨-, rfl⟩, _, _,
    hid, file, _, hcreate, _, _, ⟨-, rfl⟩, rfl, rfl⟩ := h
  obtain ⟨rfl, rfl⟩ := uuidv7_ok.mp hid
  obtain ⟨-, rfl, rfl⟩ := Table.create_ok.mp hcreate
  rfl

/-- The identifier belongs to the file with this key, which may be gone by now. -/
def Store.Knows (s : Store) (fileId : Id) (objectKey : String) : Prop :=
  fileId < s.nextId ∧ ∀ f ∈ s.storedFiles, f.id = fileId → f.objectKey = objectKey

/-- A scan of the object of the file found it clean. -/
def ScannedClean (fileId : Id) (objectKey : String) (t : List (Nat × Event)) : Prop :=
  ∃ p body, (p, .scanned fileId objectKey body .clean) ∈ t

/-- What a request knows when it issues an update. -/
def Transition.Allowed (env : Environment) (w : World) : Transition → Prop
  | .uploadCompleted _ _ _ ready => ready = !env.scannerEnabled
  | .restored _ status => status = .ready ∨ status = .scanning
  | .scanClean fileId _ =>
    ∃ objectKey, w.store.Knows fileId objectKey ∧ ScannedClean fileId objectKey w.trace
  | .scanInconclusive _ _ malwareStatus => malwareStatus ≠ .clean
  | .scanFailed _ malwareStatus _ _ => malwareStatus ≠ .clean
  | _ => True

inductive Effect (env : Environment) (pid : Nat) (w : World) : World → Prop where
  | idle : Effect env pid w w
  | reserved (file : StoredFile) (hid : file.id = w.store.nextId) (hstatus : file.status = .pending)
      (hmalware : file.malwareStatus = if env.scannerEnabled then .pending else .notRequired)
      (hsound : SoundFiles (w.store.storedFiles ++ [file])) :
    Effect env pid w (w.advance pid
      ({ w.store with
          nextId := w.store.nextId + 1
          storedFiles := w.store.storedFiles ++ [file] }, [.reserved file.id file.objectKey]))
  | updated (t : Transition) (hallowed : t.Allowed env w)
      (hsound : SoundFiles (updateRows t.selects t.apply w.store.storedFiles)) :
    Effect env pid w (w.advance pid
      ({ w.store with storedFiles := updateRows t.selects t.apply w.store.storedFiles },
        [.updated t]))
  | audited (p : StoredFile → Bool) (now : Time) (hpurged : ∀ f, p f = true →
      f.status = .purged ∧ f.auditExpiresAt.any (fun auditExpiresAt => auditExpiresAt ≤ now) = true) :
    Effect env pid w (w.advance pid
      ({ w.store with storedFiles := w.store.storedFiles.filter fun f => !p f }, [.audited now]))
  | objectStored (key : String) (body : List UInt8) (contentType : String) (now : Time) :
    Effect env pid w (w.advance pid
      ({ w.store with
          objects := (w.store.objects.filter fun o => !(o.key == key)) ++
            [⟨key, body, some contentType, now⟩] }, []))
  | objectDeleted (key : String) :
    Effect env pid w (w.advance pid
      ({ w.store with objects := w.store.objects.filter fun o => !(o.key == key) }, []))
  | billed (plans : List Billing.Plan) (subscriptions : List Billing.Subscription) :
    Effect env pid w (w.advance pid
      ({ w.store with plans := plans, subscriptions := subscriptions }, []))
  | scanned (fileId : Id) (objectKey : String) (body : List UInt8) (result : MalwareScanResult) :
    Effect env pid w (w.advance pid (w.store, [.scanned fileId objectKey body result]))
  | foundReady (file : StoredFile) (hmem : file ∈ w.store.storedFiles)
      (hready : file.status = .ready) :
    Effect env pid w (w.advance pid (w.store, [.foundReady file.id file.objectKey]))
  | handedOut (fileId : Id) (objectKey : String)
      (hfound : ∃ p, (p, .foundReady fileId objectKey) ∈ w.trace) :
    Effect env pid w (w.advance pid (w.store, [.handedOut fileId objectKey]))

/-! ## Keys, and what a clean row goes back to -/

/-- Identifiers are unique and `uuidv7()` is ahead of all of them, and a row that is
marked clean was found clean by a scan. -/
structure Recorded (w : World) : Prop where
  keyed : Keyed w.store.nextId StoredFile.id w.store.storedFiles
  clean : ∀ f ∈ w.store.storedFiles, f.malwareStatus = .clean → ScannedClean f.id f.objectKey w.trace

theorem recorded_empty (nextId : Id) (users : List FileUploader) (plans : List Billing.Plan)
    (subscriptions : List Billing.Subscription) :
    Recorded ⟨Store.empty nextId users plans subscriptions, []⟩ := by
  constructor <;> simp [Store.empty, Keyed, Below]

theorem ScannedClean.mono {fileId : Id} {objectKey : String} {t : List (Nat × Event)}
    (h : ScannedClean fileId objectKey t) (t' : List (Nat × Event)) :
    ScannedClean fileId objectKey (t ++ t') := by
  obtain ⟨p, body, hmem⟩ := h
  exact ⟨p, body, List.mem_append_left t' hmem⟩

variable {env : Environment} {pid : Nat} {w w' : World}

theorem Effect.trace_eq (h : Effect env pid w w') : w'.trace = w.trace ++ w.newEvents w' := by
  cases h with
  | idle => simp
  | _ => simp [World.newEvents]

theorem Effect.nextId_le (h : Effect env pid w w') : w.store.nextId ≤ w'.store.nextId := by
  cases h with
  | reserved => exact Nat.le_succ _
  | _ => exact Nat.le_refl _

theorem Store.Knows.later {fileId : Id} {objectKey : String} (h : w.store.Knows fileId objectKey)
    (he : Effect env pid w w') : w'.store.Knows fileId objectKey := by
  refine ⟨Nat.lt_of_lt_of_le h.1 he.nextId_le, ?_⟩
  cases he with
  | reserved file hid hstatus hmalware hsound =>
    intro f hf heq
    rcases List.mem_append.mp hf with hf | hf
    · exact h.2 f hf heq
    · rw [List.mem_singleton.mp hf, hid] at heq
      exact absurd h.1 (by rw [heq]; exact Nat.lt_irrefl _)
  | updated t hallowed hsound =>
    intro f hf heq
    rcases mem_updateRows.mp hf with ⟨hf, -⟩ | ⟨f₀, hf₀, -, rfl⟩
    · exact h.2 f hf heq
    · rw [(t.apply_keys f₀).1] at heq
      rw [(t.apply_keys f₀).2]
      exact h.2 f₀ hf₀ heq
  | audited p now hpurged => exact fun f hf heq => h.2 f (List.mem_of_mem_filter hf) heq
  | _ => exact h.2

theorem knows_of_mem (h : Recorded w) {f : StoredFile} (hf : f ∈ w.store.storedFiles) :
    w.store.Knows f.id f.objectKey := by
  refine ⟨h.keyed.1 f hf, fun f' hf' hid => ?_⟩
  rw [h.keyed.inj hf' hf hid]

/-- Only a clean scan marks a row clean. -/
theorem Transition.apply_clean {t : Transition} (hallowed : t.Allowed env w) {f : StoredFile}
    (h : (t.apply f).malwareStatus = .clean) :
    f.malwareStatus = .clean ∨ ∃ now, t = .scanClean t.fileId now := by
  cases t with
  | scanClean fileId now => exact .inr ⟨now, rfl⟩
  | uploadRejected fileId now message => cases h
  | uploadCompleted fileId now detectedMimeType ready => cases ready <;> cases h
  | scanInfected fileId now => cases h
  | scanInconclusive fileId scanAttempts malwareStatus => exact absurd h hallowed
  | scanFailed fileId malwareStatus scanAttempts now => exact absurd h hallowed
  | _ => exact .inl h

theorem Effect.recorded (h : Effect env pid w w') (hr : Recorded w) : Recorded w' := by
  have hclean : ∀ f ∈ w.store.storedFiles, f.malwareStatus = .clean →
      ScannedClean f.id f.objectKey w'.trace := by
    intro f hf hf'
    rw [h.trace_eq]
    exact (hr.clean f hf hf').mono _
  cases h with
  | idle => exact hr
  | reserved file hid hstatus hmalware hsound =>
    refine ⟨hr.keyed.concat (Nat.le_of_eq hid.symm) (Nat.lt_succ_of_le (Nat.le_of_eq hid)), ?_⟩
    intro f hf hmarked
    rcases List.mem_append.mp hf with hf | hf
    · exact hclean f hf hmarked
    · rw [List.mem_singleton.mp hf, hmalware] at hmarked
      split at hmarked <;> cases hmarked
  | updated t hallowed hsound =>
    refine ⟨hr.keyed.updateRows fun f => (t.apply_keys f).1, ?_⟩
    intro f hf hmarked
    rcases mem_updateRows.mp hf with ⟨hf, -⟩ | ⟨f₀, hf₀, hselected, rfl⟩
    · exact hclean f hf hmarked
    · rw [(t.apply_keys f₀).1, (t.apply_keys f₀).2]
      rcases t.apply_clean hallowed hmarked with hold | ⟨now, ht⟩
      · exact hclean f₀ hf₀ hold
      · have hid : f₀.id = t.fileId := by
          simp only [Transition.selects, Bool.and_eq_true, beq_iff_eq] at hselected
          exact hselected.1
        rw [ht] at hallowed
        obtain ⟨objectKey, hknows, hscanned⟩ := hallowed
        rw [hid, hknows.2 f₀ hf₀ hid]
        exact hscanned.mono _
  | audited p now hpurged =>
    exact ⟨hr.keyed.filter _, fun f hf hmarked => hclean f (List.mem_of_mem_filter hf) hmarked⟩
  | objectStored key body contentType now => exact ⟨hr.keyed, hclean⟩
  | objectDeleted key => exact ⟨hr.keyed, hclean⟩
  | billed plans subscriptions => exact ⟨hr.keyed, hclean⟩
  | scanned fileId objectKey body result => exact ⟨hr.keyed, hclean⟩
  | foundReady file hmem hready => exact ⟨hr.keyed, hclean⟩
  | handedOut fileId objectKey hfound => exact ⟨hr.keyed, hclean⟩

abbrev discipline (env : Environment) : Discipline Store Event where
  inv := Recorded
  effect := Effect env
  idle _ _ := .idle
  kept _ _ _ he hr := he.recorded hr

theorem knows_stable (fileId : Id) (objectKey : String) :
    (discipline env).Stable fun w => w.store.Knows fileId objectKey :=
  fun _ _ _ _ _ he h => h.later he

theorem trace_stable {p : List (Nat × Event) → Prop} (hp : ∀ t t', p t → p (t ++ t')) :
    (discipline env).Stable fun w => p w.trace := by
  intro q w w' _ _ he h
  rw [Effect.trace_eq he]
  exact hp _ _ h

end ShipFlow.Files
