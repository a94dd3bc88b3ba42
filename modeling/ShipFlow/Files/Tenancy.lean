import ShipFlow.Files.Operations
import ShipFlow.Relational.Tenancy

/-! The organizations share the tables of files and of subscriptions. A request of one of them
changes no file of another, and its answer is decided by its own files, their objects, its own
subscription, the plans and the users. -/

namespace ShipFlow.Files
open Interleaving Interleaving.Process Relational

def StoredFile.of (organizationId : Id) (f : StoredFile) : Bool := f.organizationId == organizationId

/-- The constraints of the table hold, and what `uuidv7()` returns next is in no row. -/
structure Consistent (s : Store) : Prop where
  storedFiles : storedFiles.sound s s.storedFiles = true
  ids : Below s.nextId StoredFile.id s.storedFiles
  objectKeys : ∀ f ∈ s.storedFiles, ∀ organizationId id : Id, s.nextId ≤ id →
    f.objectKey ≠ s!"objects/{organizationId}/{id}"

def Store.objectsAt (s : Store) (key : String) : List StoredObject :=
  s.objects.filter fun o => o.key == key

/-- The two stores have the same users and plans, the same subscription of the organization, and
the same files of it with the same objects. -/
structure Agree (organizationId : Id) (s u : Store) : Prop where
  users : s.users = u.users
  plans : s.plans = u.plans
  subscriptions : (s.subscriptions.filter fun r => r.organizationId == organizationId) =
    u.subscriptions.filter fun r => r.organizationId == organizationId
  storedFiles : s.storedFiles.filter (StoredFile.of organizationId) =
    u.storedFiles.filter (StoredFile.of organizationId)
  objects : ∀ f ∈ s.storedFiles, StoredFile.of organizationId f = true →
    s.objectsAt f.objectKey = u.objectsAt f.objectKey

/-- No file of another organization has changed, and neither have the objects of these files. -/
structure Untouched (organizationId : Id) (s₀ s : Store) : Prop where
  storedFiles : others (StoredFile.of organizationId) s.storedFiles =
    others (StoredFile.of organizationId) s₀.storedFiles
  objects : ∀ f ∈ s₀.storedFiles, StoredFile.of organizationId f = false →
    s.objectsAt f.objectKey = s₀.objectsAt f.objectKey

/-- The store has come from `s₀` to `s`, and the files of the other organizations with it. -/
structure Confined (organizationId : Id) (s₀ s : Store) : Prop
    extends Untouched organizationId s₀ s where
  sound : ShipFlow.Files.storedFiles.sound s s.storedFiles = true
  nextId : s₀.nextId ≤ s.nextId

structure Beside (organizationId : Id) (s₀ u₀ s u : Store) : Prop where
  agree : Agree organizationId s u
  left : Confined organizationId s₀ s
  right : Confined organizationId u₀ u

theorem Confined.refl {s : Store} (hs : Consistent s) (organizationId : Id) :
    Confined organizationId s s := ⟨⟨rfl, fun _ _ _ => rfl⟩, hs.storedFiles, Nat.le_refl _⟩

/-- What no update changes in a file. -/
def StoredFile.key (f : StoredFile) : Id × Id × String := (f.id, f.organizationId, f.objectKey)

section Tables
variable {X : Id} {s₀ u₀ s u : Store}

theorem storedFiles_plain : storedFiles.Plain := by
  refine ⟨fun a b => ?_, fun _ _ _ => rfl⟩
  simp only [storedFiles]
  rw [BEq.comm (a := a.id), BEq.comm (a := a.objectKey)]

theorem storedFiles_tenanted :
    storedFiles.Tenanted (StoredFile.of X) StoredFile.key (Beside X s₀ u₀) where
  plain := storedFiles_plain
  agree _ _ h := h.agree.storedFiles
  sound _ _ h := ⟨h.left.sound, h.right.sound⟩
  put _ _ _ _ h hrows hrows' hsound hsound' hagree hkey _ :=
    { agree :=
        { h.agree with
          storedFiles := hagree
          objects := by
            intro f hf hmine
            obtain ⟨f₀, hf₀, heq⟩ := hkey f hf
            have horg : f₀.organizationId = f.organizationId := congrArg (fun k => k.2.1) heq
            have hobject : f₀.objectKey = f.objectKey := congrArg (fun k => k.2.2) heq
            rw [← hobject]
            exact h.agree.objects f₀ hf₀ (by rwa [StoredFile.of, horg]) }
      left := { h.left with
        sound := hsound
        storedFiles := hrows.kept.trans h.left.storedFiles }
      right := { h.right with
        sound := hsound'
        storedFiles := hrows'.kept.trans h.right.storedFiles } }

/-- The updates of a file of the organization. -/
theorem Confined.updates (h : Confined X s₀ s) {t : Transition}
    (hown : Owned (StoredFile.of X) StoredFile.id t.fileId s₀.storedFiles) :
    Table.Tenanted.Updates ShipFlow.Files.storedFiles (StoredFile.of X) t.selects StoredFile.key
      t.apply s := by
  refine .of_keys storedFiles_plain h.sound (fun f hf hp => ?_) (fun f => ?_)
    (fun f => ?_) fun a b _ _ => ?_
  · simp only [Transition.selects, Bool.and_eq_true, beq_iff_eq] at hp
    exact hown.of_others h.storedFiles f hf hp.1
  · simp only [StoredFile.of, (t.apply_organization f).1]
  · simp only [StoredFile.key, (t.apply_keys f).1, (t.apply_keys f).2, (t.apply_organization f).1]
  · simp only [ShipFlow.Files.storedFiles, (t.apply_keys a).1, (t.apply_keys a).2]

abbrev OwnFile (X : Id) (s₀ u₀ : Store) (fileId : Id) : Prop :=
  Owned (StoredFile.of X) StoredFile.id fileId s₀.storedFiles ∧
    Owned (StoredFile.of X) StoredFile.id fileId u₀.storedFiles

theorem Confined.ownFile (h : Confined X s₀ s) {f : StoredFile} (hf : f ∈ s.storedFiles)
    (hmine : StoredFile.of X f = true) :
    Owned (StoredFile.of X) StoredFile.id f.id s₀.storedFiles := by
  have howned : Owned (StoredFile.of X) StoredFile.id f.id s.storedFiles :=
    storedFiles_plain.owned h.sound
      (fun a b hid => by simp [ShipFlow.Files.storedFiles, hid]) hf hmine
  exact howned.of_others h.storedFiles.symm

theorem Beside.ownFile (h : Beside X s₀ u₀ s u) {f : StoredFile} (hf : f ∈ s.storedFiles)
    (hmine : StoredFile.of X f = true) : OwnFile X s₀ u₀ f.id :=
  ⟨h.left.ownFile hf hmine, h.right.ownFile (mem_agree h.agree.storedFiles hf hmine) hmine⟩

/-! ## Objects -/

theorem objectsAt_delete {key key' : String} (hne : key ≠ key') :
    Store.objectsAt { s with objects := s.objects.filter fun o => !(o.key == key) } key' =
      s.objectsAt key' := by
  refine filter_filter_off _ fun o _ ho => ?_
  rw [beq_iff_eq.mp ho]
  simpa using Ne.symm hne

/-- The object of a file of the organization is deleted, and no other. -/
theorem Confined.deleteObject (h : Confined X s₀ s) {f : StoredFile} (hf : f ∈ s.storedFiles)
    (hmine : StoredFile.of X f = true) :
    Confined X s₀ { s with objects := s.objects.filter fun o => !(o.key == f.objectKey) } where
  sound := h.sound
  nextId := h.nextId
  storedFiles := h.storedFiles
  objects := by
    intro f' hf' hother
    rw [← h.objects f' hf' hother]
    refine objectsAt_delete fun heq => ?_
    have hmem : f' ∈ others (StoredFile.of X) s.storedFiles :=
      h.storedFiles ▸ mem_others.mpr ⟨hf', hother⟩
    have hsame := storedFiles_plain.inj h.sound hf (mem_others.mp hmem).1
      (by simp [ShipFlow.Files.storedFiles, heq])
    rw [hsame, hother] at hmine
    cases hmine

theorem Beside.deleteObject (h : Beside X s₀ u₀ s u) {f : StoredFile} (hf : f ∈ s.storedFiles)
    (hmine : StoredFile.of X f = true) :
    Beside X s₀ u₀ { s with objects := s.objects.filter fun o => !(o.key == f.objectKey) }
      { u with objects := u.objects.filter fun o => !(o.key == f.objectKey) } where
  agree :=
    { h.agree with
      objects := by
        intro f' hf' hmine'
        have hsame := h.agree.objects f' hf' hmine'
        unfold Store.objectsAt at hsame ⊢
        rw [List.filter_comm, hsame, List.filter_comm] }
  left := h.left.deleteObject hf hmine
  right := h.right.deleteObject (mem_agree h.agree.storedFiles hf hmine) hmine

end Tables

/-! ## Answers -/

/-- The file that a reservation of its own identifier would be for. -/
def StoredFile.withId (id : Id) (f : StoredFile) : StoredFile :=
  { f with id := id, objectKey := s!"objects/{f.organizationId}/{id}" }

/-- An answer, but for the identifier that the request has generated. -/
inductive Answer where
  | given (outcome : Except Failure Response)
  | reserved (file : StoredFile) (uploadedBy : Option FileUploader) (now : Time)

def Answer.withId (env : Environment) (id : Id) : Answer → Except Failure Response
  | .given outcome => outcome
  | .reserved file uploadedBy now =>
    .ok (.reservation (mapFile (file.withId id) uploadedBy)
      (createUploadTarget env (file.withId id) now))

/-- The two outcomes are the same up to identifiers that neither store had seen. -/
def SameUpToId (env : Environment) (s₀ u₀ : Store) (r r' : Except Failure Response) : Prop :=
  ∃ (answer : Answer) (a b : Id), s₀.nextId ≤ a ∧ u₀.nextId ≤ b ∧
    r = answer.withId env a ∧ r' = answer.withId env b

def Isolated (env : Environment) (organizationId : Id) (s₀ u₀ : Store)
    (r : Except Failure Response) (s : Store) (r' : Except Failure Response) (u : Store) : Prop :=
  Confined organizationId s₀ s ∧ Confined organizationId u₀ u ∧ SameUpToId env s₀ u₀ r r'

/-- The two outcomes are the same, and the stores still agree. -/
def Same {α : Type} (organizationId : Id) (s₀ u₀ : Store) (r : Except Failure α) (s : Store)
    (r' : Except Failure α) (u : Store) : Prop :=
  r = r' ∧ Beside organizationId s₀ u₀ s u

section Requests
variable {env : Environment} {X : Id} {s₀ u₀ s u : Store} {α β : Type} {I : Input → Prop}
  {V : Except Failure α → Store → Except Failure α → Store → Prop}

theorem Same.isolated {r r' : Except Failure Response} (h : Same X s₀ u₀ r s r' u) :
    Isolated env X s₀ u₀ r s r' u := by
  obtain ⟨rfl, h⟩ := h
  exact ⟨h.left, h.right, .given r, _, _, Nat.le_refl _, Nat.le_refl _, rfl, rfl⟩

theorem storageCall_coupled {call call' : Input → Tx β} {k k' : β → Handler α}
    (hfail : ∀ e, V (.error e) s (.error e) u)
    (h : ∀ i, I i → Transaction.Coupled (fun b s' b' u' => Coupled I V (k b) s' (k' b') u')
      (call i) (call' i) s u) :
    Coupled I V (storageCall call >>= k) s (storageCall call' >>= k') u := by
  unfold storageCall
  refine Coupled.atomically hfail fun i hi => ?_
  cases hfailure : i.storageFailure with
  | true => exact .inl ⟨_, rfl, rfl⟩
  | false => exact h i hi

theorem inspectObject_coupled (h : Beside X s₀ u₀ s u) {f : StoredFile} (hf : f ∈ s.storedFiles)
    (hmine : StoredFile.of X f = true) :
    Coupled I (Same X s₀ u₀) (inspectObject env f.objectKey) s
      (inspectObject env f.objectKey) u := by
  unfold inspectObject
  rw [← Process.bind_pure (storageCall _)]
  refine storageCall_coupled (fun e => ⟨rfl, h⟩) fun i _ => Transaction.Coupled.reads_bind ?_
  have hfind : (s.objects.find? fun o => o.key == f.objectKey) =
      u.objects.find? fun o => o.key == f.objectKey := by
    rw [← List.head?_filter, ← List.head?_filter]
    exact congrArg List.head? (h.agree.objects f hf hmine)
  rw [hfind]
  cases u.objects.find? fun o => o.key == f.objectKey with
  | none => exact .inl ⟨_, rfl, rfl⟩
  | some object => exact .pure (Coupled.pure ⟨rfl, h⟩)

theorem deleteObject_coupled (h : Beside X s₀ u₀ s u) {f : StoredFile} (hf : f ∈ s.storedFiles)
    (hmine : StoredFile.of X f = true) :
    Coupled I (Same X s₀ u₀) (deleteObject env f.objectKey) s (deleteObject env f.objectKey) u := by
  unfold deleteObject removeObject
  rw [← Process.bind_pure (storageCall _)]
  refine storageCall_coupled (fun e => ⟨rfl, h⟩) fun i _ => ?_
  split
  · exact .inl ⟨_, rfl, rfl⟩
  · exact .inr ⟨(), _, (), _, rfl, rfl, Coupled.pure ⟨rfl, h.deleteObject hf hmine⟩⟩

/-- The snapshot reads the subscription of the organization and the plans. -/
theorem getSnapshot_coupled (h : Agree X s u) {k : Billing.BillingStateResponse → Handler α}
    (hfail : ∀ e, V (.error e) s (.error e) u) (hk : ∀ state, Coupled I V (k state) s (k state) u) :
    Coupled I V (Billing.getSnapshot Input.now X >>= k) s (Billing.getSnapshot Input.now X >>= k) u := by
  have hplans : Billing.HasSubscriptions.plans s = Billing.HasSubscriptions.plans u := h.plans
  have hsubscription : (Billing.HasSubscriptions.subscriptions s).find?
      (fun r => r.organizationId == X) = (Billing.HasSubscriptions.subscriptions u).find?
      fun r => r.organizationId == X :=
    find?_agree h.subscriptions (fun _ hr => hr) (fun _ hr => hr) fun _ _ => rfl
  have hfound : Billing.subscriptionWithPlan X s = Billing.subscriptionWithPlan X u := by
    rw [Billing.subscriptionWithPlan, Billing.subscriptionWithPlan, hsubscription, hplans]
  unfold Billing.getSnapshot
  rw [Process.bind_assoc]
  refine Coupled.statement hfail (Transaction.Coupled.reads_bind ?_)
  rw [hplans]
  cases (Billing.HasSubscriptions.plans u).find? fun p => p.code == .free with
  | none => exact .inl ⟨_, rfl, rfl⟩
  | some freePlan =>
    refine .pure ?_
    rw [Process.bind_assoc]
    refine Coupled.query ?_
    rw [hfound, Process.bind_assoc]
    exact Coupled.ask fun i _ => hk _

theorem findUploader_agree (h : Agree X s u) (userId : Id) :
    s.findUploader userId = u.findUploader userId := by
  rw [Store.findUploader, h.users, Store.findUploader]

theorem update_coupled (h : Beside X s₀ u₀ s u) {t : Transition} (hown : OwnFile X s₀ u₀ t.fileId) :
    Coupled I (Same X s₀ u₀) (update t) s (update t) u := by
  unfold update
  rw [← Process.bind_pure (Process.atomically _ _)]
  refine Coupled.atomically (fun e => ⟨rfl, h⟩) fun i _ => ?_
  refine Transaction.Coupled.bind (storedFiles_tenanted.update h (h.left.updates hown.1)
    (h.right.updates hown.2)) ?_
  rintro file s' _ u' ⟨rfl, -, h'⟩
  refine Transaction.Coupled.reads_bind ?_
  rw [findUploader_agree h'.agree]
  exact .pure (Coupled.pure ⟨rfl, h'⟩)

theorem Coupled.after {p : Handler β} {k : β → Handler α} (hp : Coupled I (Same X s₀ u₀) p s p u)
    (hfail : ∀ e s' u', Beside X s₀ u₀ s' u' → V (.error e) s' (.error e) u')
    (hk : ∀ b s' u', Beside X s₀ u₀ s' u' → Coupled I V (k b) s' (k b) u') :
    Coupled I V (p >>= k) s (p >>= k) u := by
  refine Coupled.bind (hp.mono ?_)
  rintro (e | b) s' _ u' ⟨rfl, h'⟩
  · exact hfail e s' u' h'
  · exact hk b s' u' h'

theorem syncLifecycleState_coupled (h : Beside X s₀ u₀ s u) {fileId : Id}
    (hown : OwnFile X s₀ u₀ fileId) (objectKey : String) (state : LifecycleState) :
    Coupled I (Same X s₀ u₀) (syncLifecycleState fileId objectKey state) s
      (syncLifecycleState fileId objectKey state) u := by
  unfold syncLifecycleState setLifecycleState
  refine Coupled.handle ?_
  rw [← Process.bind_pure (storageCall _)]
  refine storageCall_coupled (fun e => ?_) fun i _ => .pure (Coupled.pure ⟨rfl, h⟩)
  exact Coupled.after (update_coupled h hown) (fun e s' u' h' => ⟨rfl, h'⟩)
    fun b s' u' h' => Coupled.pure ⟨rfl, h'⟩

theorem findScopedFile_coupled (h : Beside X s₀ u₀ s u) {fileId : Id}
    {k : StoredFile × Option FileUploader → Handler α} (hfail : ∀ e, V (.error e) s (.error e) u)
    (hk : ∀ file ∈ s.storedFiles, StoredFile.of X file = true → ∀ uploadedBy,
      Coupled I V (k (file, uploadedBy)) s (k (file, uploadedBy)) u) :
    Coupled I V (findScopedFile X fileId >>= k) s (findScopedFile X fileId >>= k) u := by
  rw [findScopedFile, Process.bind_assoc]
  refine Coupled.query ?_
  have hp : ∀ f : StoredFile, (f.id == fileId && f.organizationId == X && f.status != .purged) =
      true → StoredFile.of X f = true := by
    intro f hp
    simp only [Bool.and_eq_true] at hp
    exact hp.1.2
  have hfind := find?_agree h.agree.storedFiles hp hp fun _ _ => rfl
  rw [← hfind]
  cases hfound : s.storedFiles.find? fun f =>
      f.id == fileId && f.organizationId == X && f.status != .purged with
  | none => exact hfail _
  | some file =>
    have hmine := List.find?_some hfound
    rw [Option.map_some, Option.map_some, ← findUploader_agree h.agree]
    exact hk file (List.mem_of_find?_eq_some hfound) (hp file hmine) _

theorem completeUpload_coupled (h : Beside X s₀ u₀ s u) (fileId : Id) :
    Coupled I (Same X s₀ u₀) (completeUpload env X fileId) s (completeUpload env X fileId) u := by
  unfold completeUpload
  refine findScopedFile_coupled h (fun e => ⟨rfl, h⟩) fun file hfile hmine uploadedBy => ?_
  have hown := h.ownFile hfile hmine
  simp only
  split
  · exact Coupled.pure ⟨rfl, h⟩
  · refine Coupled.rejectIf ⟨rfl, h⟩ fun _ => Coupled.ask fun i _ => Coupled.rejectIf ⟨rfl, h⟩
      fun _ => ?_
    refine Coupled.after (Coupled.handle ((inspectObject_coupled h hfile hmine).mono ?_))
      (fun e s' u' h' => ⟨rfl, h'⟩) fun object s' u' h' => Coupled.ask fun i _ => ?_
    · rintro (e | object) s' _ u' ⟨rfl, h'⟩
      · exact Coupled.throw ⟨rfl, h'⟩
      · exact ⟨rfl, h'⟩
    · split
      · refine Coupled.after (update_coupled h' hown) (fun e s' u' h' => ⟨rfl, h'⟩)
          fun b s' u' h' => ?_
        exact Coupled.after (syncLifecycleState_coupled h' hown _ _) (fun e s' u' h' => ⟨rfl, h'⟩)
          fun _ s' u' h' => Coupled.throw ⟨rfl, h'⟩
      · refine Coupled.after (update_coupled h' hown) (fun e s' u' h' => ⟨rfl, h'⟩)
          fun b s' u' h' => ?_
        exact Coupled.after (syncLifecycleState_coupled h' hown _ _) (fun e s' u' h' => ⟨rfl, h'⟩)
          fun _ s' u' h' => Coupled.pure ⟨rfl, h'⟩

theorem deleteFile_coupled (h : Beside X s₀ u₀ s u) (fileId : Id) :
    Coupled I (Same X s₀ u₀) (deleteFile env X fileId) s (deleteFile env X fileId) u := by
  unfold deleteFile
  refine findScopedFile_coupled h (fun e => ⟨rfl, h⟩) fun file hfile hmine uploadedBy => ?_
  have hown := h.ownFile hfile hmine
  simp only
  split
  · exact Coupled.pure ⟨rfl, h⟩
  · split
    · refine Coupled.after (deleteObject_coupled h hfile hmine) (fun e s' u' h' => ⟨rfl, h'⟩)
        fun _ s' u' h' => Coupled.ask fun i _ => ?_
      exact Coupled.after (update_coupled h' hown) (fun e s' u' h' => ⟨rfl, h'⟩)
        fun b s' u' h' => Coupled.pure ⟨rfl, h'⟩
    · refine Coupled.rejectIf ⟨rfl, h⟩ fun _ => Coupled.ask fun i _ => ?_
      refine Coupled.after (update_coupled h hown) (fun e s' u' h' => ⟨rfl, h'⟩)
        fun b s' u' h' => ?_
      exact Coupled.after (syncLifecycleState_coupled h' hown _ _) (fun e s' u' h' => ⟨rfl, h'⟩)
        fun _ s' u' h' => Coupled.pure ⟨rfl, h'⟩

theorem restoreFile_coupled (h : Beside X s₀ u₀ s u) (fileId : Id) :
    Coupled I (Same X s₀ u₀) (restoreFile X fileId) s (restoreFile X fileId) u := by
  unfold restoreFile
  refine findScopedFile_coupled h (fun e => ⟨rfl, h⟩) fun file hfile hmine uploadedBy => ?_
  have hown := h.ownFile hfile hmine
  refine Coupled.rejectIf ⟨rfl, h⟩ fun _ => Coupled.ask fun i _ => Coupled.rejectIf ⟨rfl, h⟩
    fun _ => ?_
  refine Coupled.after (update_coupled h hown) (fun e s' u' h' => ⟨rfl, h'⟩) fun b s' u' h' => ?_
  exact Coupled.after (syncLifecycleState_coupled h' hown _ _) (fun e s' u' h' => ⟨rfl, h'⟩)
    fun _ s' u' h' => Coupled.pure ⟨rfl, h'⟩

theorem usage_agree (h : Agree X s u) (now : Time) : usage X now s = usage X now u := by
  have hp : ∀ f : StoredFile, (f.organizationId == X && f.retained now) = true →
      StoredFile.of X f = true := fun f hp => (Bool.and_eq_true_iff.mp hp).1
  unfold usage
  rw [filter_agree h.storedFiles hp hp fun _ _ => rfl]

theorem createDownloadTarget_coupled (h : Beside X s₀ u₀ s u) (fileId : Id) :
    Coupled I (Same X s₀ u₀) (createDownloadTarget env X fileId) s
      (createDownloadTarget env X fileId) u := by
  unfold createDownloadTarget readForDownload
  have hp : ∀ f : StoredFile, (f.id == fileId && f.organizationId == X && f.status != .purged) =
      true → StoredFile.of X f = true := by
    intro f hp
    simp only [Bool.and_eq_true] at hp
    exact hp.1.2
  refine Coupled.atomically (fun e => ⟨rfl, h⟩) fun i _ => ?_
  refine .inr ⟨_, _, _, _, rfl, rfl, ?_⟩
  beta_reduce
  rw [storedFiles_rows, storedFiles_rows, ← find?_agree h.agree.storedFiles hp hp fun _ _ => rfl]
  cases s.storedFiles.find? fun f =>
      f.id == fileId && f.organizationId == X && f.status != .purged with
  | none => exact Coupled.throw ⟨rfl, h⟩
  | some file =>
    refine Coupled.rejectIf ⟨rfl, h⟩ fun _ => storageCall_coupled (fun e => ⟨rfl, h⟩) fun i _ => ?_
    refine .pure (Coupled.atomically (fun e => ⟨rfl, h⟩) fun i _ => ?_)
    exact .pure (Coupled.pure ⟨rfl, h⟩)

/-! ## Reservations -/

theorem Confined.reserve {file : StoredFile}
    (hmine : StoredFile.of X file = true)
    (hsound : ShipFlow.Files.storedFiles.sound s (s.storedFiles ++ [file]) = true) :
    Confined X s { s with nextId := s.nextId + 1, storedFiles := s.storedFiles ++ [file] } where
  sound := hsound
  nextId := Nat.le_succ _
  storedFiles := others_concat hmine
  objects _ _ _ := rfl

theorem reserve_coupled (hs : Consistent s) (hu : Consistent u) (h : Agree X s u) (userId : Id)
    (declaration : Declaration) (dto : InitiateFileUploadDto) (quota : FileQuota) (now : Time) :
    Transaction.Coupled (fun r s' r' u' => Confined X s s' ∧ Confined X u u' ∧ r.2 = r'.2 ∧
        r.1 = r.1.withId s.nextId ∧ r'.1 = r.1.withId u.nextId ∧
        (r.1 ∈ s'.storedFiles ∧ r'.1 ∈ u'.storedFiles) ∧
        r.1.status = .pending ∧ StoredFile.of X r.1 = true)
      (reserve env X userId declaration dto quota now)
      (reserve env X userId declaration dto quota now) s u := by
  have horganization : ∀ f : StoredFile, (f.organizationId == X && f.reservation now) = true →
      StoredFile.of X f = true := fun f hp => (Bool.and_eq_true_iff.mp hp).1
  have huser : ∀ f : StoredFile, (f.organizationId == X && f.uploadedById == userId &&
      f.reservation now) = true → StoredFile.of X f = true :=
    fun f hp => (Bool.and_eq_true_iff.mp (Bool.and_eq_true_iff.mp hp).1).1
  have hfresh : ∀ {v : Store}, Consistent v → ∀ b ∈ v.storedFiles, ∀ file : StoredFile,
      file.id = v.nextId → file.objectKey = s!"objects/{X}/{v.nextId}" →
      storedFiles.collides b file = false := by
    intro v hv b hb file hid hkey
    have hids : b.id ≠ file.id := by
      rw [hid]
      exact Nat.ne_of_lt (hv.ids b hb)
    have hkeys : b.objectKey ≠ file.objectKey := by
      rw [hkey]
      exact hv.objectKeys b hb X v.nextId (Nat.le_refl _)
    simp [storedFiles, hids, hkeys]
  unfold reserve
  refine Transaction.Coupled.reads_bind ?_
  rw [usage_agree h now]
  refine Transaction.Coupled.reads_bind (Transaction.Coupled.reads_bind ?_)
  rw [storedFiles_rows, storedFiles_rows,
    countP_agree h.storedFiles horganization horganization fun _ _ => rfl,
    countP_agree h.storedFiles huser huser fun _ _ => rfl]
  refine Transaction.Coupled.rejectIf_bind rfl fun _ => Transaction.Coupled.rejectIf_bind rfl
    fun _ => uuidv7_coupled ?_
  refine Transaction.Coupled.bind (Table.create_coupled hs.storedFiles hu.storedFiles h.storedFiles
    ?_ ?_ ?_ ?_) ?_
  · rfl
  · intro b hb
    have hmem : b ∈ u.storedFiles.filter (StoredFile.of X) := h.storedFiles ▸ hb
    rw [hfresh hs b (List.mem_of_mem_filter hb) _ rfl rfl,
      hfresh hu b (List.mem_of_mem_filter hmem) _ rfl rfl]
  · exact fun b hb _ => hfresh hs b hb _ rfl rfl
  · exact fun b hb _ => hfresh hu b hb _ rfl rfl
  · rintro _ s' _ u' ⟨rfl, rfl, hsound, rfl, hsound', rfl⟩
    have hmine : (X == X) = true := beq_self_eq_true X
    exact .inr ⟨_, _, _, _, rfl, rfl, .reserve hmine hsound, .reserve hmine hsound',
      findUploader_agree h userId, rfl, rfl, ⟨List.mem_append_right _ (List.mem_singleton_self _),
        List.mem_append_right _ (List.mem_singleton_self _)⟩, rfl, hmine⟩

/-- The reservation of a file is given up; nothing stands in the way of this update. -/
theorem Confined.targetFailed (h : Confined X s₀ s) {file : StoredFile} (hf : file ∈ s.storedFiles)
    (hmine : StoredFile.of X file = true) (hpending : file.status = .pending) (now : Time) :
    ∃ f s', (ShipFlow.Files.storedFiles.update (Transition.targetFailed file.id now).selects
        (Transition.targetFailed file.id now).apply : Tx StoredFile) s = .ok (f, s') ∧
      Confined X s₀ s' := by
  let t := Transition.targetFailed file.id now
  have hselects : t.selects file = true := by simp [t, Transition.selects, Transition.fileId,
    Transition.whileScanning]
  have hown := h.ownFile hf hmine
  have hupdates := h.updates (t := t) hown
  have hrewrites := (Table.Rewrites.refl storedFiles_plain h.sound).updateRows hupdates.selects
    hupdates.tenant hupdates.apart
  have hsound : ShipFlow.Files.storedFiles.sound s (updateRows t.selects t.apply s.storedFiles) =
      true := by
    obtain ⟨hvalid, hdistinct⟩ := (storedFiles_sound _ _).mp h.sound
    refine (storedFiles_sound _ _).mpr ⟨fun f hf' => ?_, ?_⟩
    · rcases mem_updateRows.mp hf' with ⟨hf', -⟩ | ⟨f₀, hf₀, hsel, rfl⟩
      · exact hvalid f hf'
      · have hid : f₀.id = file.id := by
          simpa [t, Transition.selects, Transition.fileId, Transition.whileScanning] using hsel
        have hsame : f₀ = file := storedFiles_plain.inj h.sound hf₀ hf
          (by simp [ShipFlow.Files.storedFiles, hid])
        have hold := hvalid f₀ hf₀
        rw [hsame] at hold ⊢
        rw [StoredFile.valid, Bool.and_eq_true] at hold ⊢
        refine ⟨hold.1, ?_⟩
        have hcheck := hold.2
        simp only [StoredFile.lifecycleCheck, hpending, Bool.and_eq_true] at hcheck
        simp [t, Transition.apply, StoredFile.lifecycleCheck, hcheck.2]
    · rw [distinct_updateRows, hdistinct]
      intro a b
      simp [ShipFlow.Files.storedFiles]
  have hfind : ∃ f, s.storedFiles.find? t.selects = some f := by
    rw [← Option.isSome_iff_exists, List.find?_isSome]
    exact ⟨file, hf, hselects⟩
  obtain ⟨f, hfound⟩ := hfind
  refine ⟨t.apply f, _, Table.update_ok.mpr ⟨f, hfound, hsound, rfl, rfl⟩, ?_⟩
  exact { h with
    sound := hsound
    storedFiles := hrewrites.kept.trans h.storedFiles }

theorem initiateUpload_coupled (hs : Consistent s) (hu : Consistent u) (h : Agree X s u)
    (userId : Id) (dto : InitiateFileUploadDto) :
    Coupled I (Isolated env X s u)
      ((fun r => .reservation r.1 r.2) <$> initiateUpload env X userId dto) s
      ((fun r => .reservation r.1 r.2) <$> initiateUpload env X userId dto) u := by
  have hbeside : Beside X s u s u := ⟨h, .refl hs X, .refl hu X⟩
  have hfail : ∀ {s' u' : Store} (e : Failure), Confined X s s' → Confined X u u' →
      Isolated env X s u (.error e) s' (.error e) u' := fun e hs' hu' =>
    ⟨hs', hu', .given (.error e), _, _, Nat.le_refl _, Nat.le_refl _, rfl, rfl⟩
  refine Coupled.map ?_
  unfold initiateUpload
  refine Coupled.ofExcept (fun e => hfail e hbeside.left hbeside.right) fun declaration _ =>
    getSnapshot_coupled h (fun e => hfail e hbeside.left hbeside.right) fun snapshot =>
      Coupled.ask fun j _ =>
        Coupled.atomically (fun e => hfail e hbeside.left hbeside.right) fun _ _ => ?_
  refine (reserve_coupled hs hu h userId declaration dto _ _).mono ?_
  rintro ⟨file, uploadedBy⟩ s' ⟨file', uploadedBy'⟩ u' ⟨hs', hu', hby, hfile, hfile', hmem, hpending, hmine⟩
  simp only at hby hfile hfile' hmem hpending hmine
  have hpending' : file'.status = .pending := by rw [hfile']; exact hpending
  have hmine' : StoredFile.of X file' = true := by rw [hfile']; exact hmine
  refine Coupled.handle (storageCall_coupled (fun e => ?_) fun i _ => .pure (Coupled.pure ?_))
  · refine Coupled.ask fun i _ => ?_
    obtain ⟨f, s₁, hok, hs₁⟩ := hs'.targetFailed hmem.1 hmine hpending i.now
    obtain ⟨f', u₁, hok', hu₁⟩ := hu'.targetFailed hmem.2 hmine' hpending' i.now
    refine Coupled.atomically (fun e => hfail e hs' hu') fun _ _ => .inr ?_
    refine ⟨_, s₁, _, u₁, (Transaction.bind_ok _ _ _ _ _).mpr ⟨f, s₁, hok, rfl⟩,
      (Transaction.bind_ok _ _ _ _ _).mpr ⟨f', u₁, hok', rfl⟩, ?_⟩
    exact Coupled.throw (hfail _ hs₁ hu₁)
  · refine ⟨hs', hu', .reserved file uploadedBy i.now, s.nextId, u.nextId, Nat.le_refl _,
      Nat.le_refl _, ?_, ?_⟩
    · rw [Answer.withId, ← hfile]
      rfl
    · rw [Answer.withId, ← hfile', hby]
      rfl

/-! ## The service -/

theorem handler_coupled (hs : Consistent s) (hu : Consistent u) (h : Agree X s u) (r : Request)
    (hr : r.organizationId = some X) :
    Coupled I (Isolated env X s u) (handler env r) s (handler env r) u := by
  have hbeside : Beside X s u s u := ⟨h, .refl hs X, .refl hu X⟩
  have hmap : ∀ {β : Type} {g : β → Response} {p : Handler β}, Coupled I (Same X s u) p s p u →
      Coupled I (Isolated env X s u) (g <$> p) s (g <$> p) u := by
    intro β g p hp
    refine Coupled.map (hp.mono ?_)
    rintro r s' _ u' ⟨rfl, h'⟩
    exact Same.isolated ⟨rfl, h'⟩
  cases r with
  | initiateUpload organizationId userId dto =>
    obtain rfl : organizationId = X := Option.some.inj hr
    exact initiateUpload_coupled hs hu h userId dto
  | completeUpload organizationId fileId =>
    obtain rfl : organizationId = X := Option.some.inj hr
    exact hmap (completeUpload_coupled hbeside fileId)
  | getFile organizationId fileId =>
    obtain rfl : organizationId = X := Option.some.inj hr
    exact hmap (findScopedFile_coupled hbeside (fun e => ⟨rfl, hbeside⟩) fun file _ _ _ =>
      Coupled.pure ⟨rfl, hbeside⟩)
  | getUsage organizationId =>
    obtain rfl : organizationId = X := Option.some.inj hr
    refine hmap (getSnapshot_coupled h (fun e => ⟨rfl, hbeside⟩) fun snapshot =>
      Coupled.ask fun i _ => Coupled.query ?_)
    rw [usage_agree h]
    exact Coupled.pure ⟨rfl, hbeside⟩
  | createDownloadTarget organizationId fileId =>
    obtain rfl : organizationId = X := Option.some.inj hr
    exact hmap (createDownloadTarget_coupled hbeside fileId)
  | deleteFile organizationId fileId =>
    obtain rfl : organizationId = X := Option.some.inj hr
    exact hmap (deleteFile_coupled hbeside fileId)
  | restoreFile organizationId fileId =>
    obtain rfl : organizationId = X := Option.some.inj hr
    exact hmap (restoreFile_coupled hbeside fileId)
  | storeLocalUpload fileId expires signature upload => cases hr
  | readLocalDownload fileId expires signature => cases hr
  | clientUpload key body contentType => cases hr
  | billingUpdate plans subscriptions => cases hr
  | maintain => cases hr
  | reconcileOrphans => cases hr

/-- A request run to its end, with no other one in between. -/
def Request.run (env : Environment) (inputs : Nat → Input) (r : Request) (s : Store) :
    Except Failure Response × World := (handler env r).alone 0 inputs ⟨s, []⟩

variable {inputs : Nat → Input}

theorem Request.run_isolated (hs : Consistent s) (hu : Consistent u) (h : Agree X s u)
    {r : Request} (hr : r.organizationId = some X) :
    Isolated env X s u (r.run env inputs s).1 (r.run env inputs s).2.store (r.run env inputs u).1
      (r.run env inputs u).2.store := by
  have hcoupled : Coupled (fun _ => True) (Isolated env X s u) (handler env r) s (handler env r) u :=
    handler_coupled hs hu h r hr
  exact Coupled.alone (fun _ => True.intro) hcoupled

theorem Request.run_untouched (hs : Consistent s) {r : Request} (hr : r.organizationId = some X) :
    Untouched X s (r.run env inputs s).2.store := by
  have hagree : Agree X s s := ⟨rfl, rfl, rfl, rfl, fun _ _ _ => rfl⟩
  exact (Request.run_isolated hs hs hagree hr).1.toUntouched

end Requests

end ShipFlow.Files
