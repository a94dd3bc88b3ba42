import ShipFlow.Files.Operations

/-! The storage quota of an organization and the limits on its reservations. -/

namespace ShipFlow.Files
open Interleaving Interleaving.Process Relational

/-- What is stored for the organization, reserved uploads included, is within its quota. -/
structure Within (organizationId : Id) (quota : FileQuota) (now : Time) (s : Store) : Prop where
  bytes : (usage organizationId now s).1 ≤ quota.maxBytes
  files : (usage organizationId now s).2 ≤ quota.maxFiles
  reservations : (s.storedFiles.countP fun f =>
    f.organizationId == organizationId && f.reservation now) ≤
      FILE_MAX_ACTIVE_RESERVATIONS_PER_ORGANIZATION
  userReservations : ∀ userId, (s.storedFiles.countP fun f =>
    f.organizationId == organizationId && f.uploadedById == userId && f.reservation now) ≤
      FILE_MAX_ACTIVE_RESERVATIONS_PER_USER

theorem usage_files (organizationId : Id) (now : Time) (s : Store) :
    (usage organizationId now s).2 = s.storedFiles.countP fun f =>
      f.organizationId == organizationId && f.retained now := by
  rw [List.countP_eq_length_filter]
  rfl

variable {organizationId : Id} {quota : FileQuota} {now : Time} {s s' : Store}

theorem Within.congr (h : Within organizationId quota now s)
    (hfiles : s'.storedFiles = s.storedFiles) : Within organizationId quota now s' := by
  obtain ⟨hbytes, hnumber, hreservations, huser⟩ := h
  constructor
  · rwa [usage, hfiles]
  · rwa [usage, hfiles]
  · rwa [hfiles]
  · rwa [hfiles]

/-- Reservations expire as time goes by. -/
theorem Within.later (h : Within organizationId quota now s) {later : Time} (hle : now ≤ later) :
    Within organizationId quota later s := by
  have hreservation : ∀ f : StoredFile, f.reservation later = true → f.reservation now = true := by
    intro f hf
    simp only [StoredFile.reservation, Bool.and_eq_true, decide_eq_true_eq] at hf ⊢
    exact ⟨hf.1, Int.lt_of_le_of_lt hle hf.2⟩
  have hretained : ∀ f : StoredFile, f.retained later = true → f.retained now = true := by
    intro f hf
    simp only [StoredFile.retained, Bool.or_eq_true] at hf ⊢
    exact hf.imp_right (hreservation f)
  constructor
  · refine Nat.le_trans (sum_filter_le StoredFile.sizeBytes fun f _ hf => ?_) h.bytes
    rw [Bool.and_eq_true] at hf ⊢
    exact ⟨hf.1, hretained f hf.2⟩
  · rw [usage_files]
    refine Nat.le_trans (List.countP_mono_left fun f _ hf => ?_)
      (Nat.le_trans (Nat.le_of_eq (usage_files organizationId now s).symm) h.files)
    rw [Bool.and_eq_true] at hf ⊢
    exact ⟨hf.1, hretained f hf.2⟩
  · refine Nat.le_trans (List.countP_mono_left fun f _ hf => ?_) h.reservations
    rw [Bool.and_eq_true] at hf ⊢
    exact ⟨hf.1, hreservation f hf.2⟩
  · intro userId
    refine Nat.le_trans (List.countP_mono_left fun f _ hf => ?_) (h.userReservations userId)
    rw [Bool.and_eq_true] at hf ⊢
    exact ⟨hf.1, hreservation f hf.2⟩

/-- A step that counts no row that did not count before. -/
theorem Within.shrink (h : Within organizationId quota now s) {p : StoredFile → Bool}
    {f : StoredFile → StoredFile}
    (hkeys : ∀ r, (f r).organizationId = r.organizationId ∧ (f r).uploadedById = r.uploadedById ∧
      (f r).sizeBytes = r.sizeBytes)
    (hretained : ∀ r ∈ s.storedFiles, p r = true → (f r).retained now = true → r.retained now = true)
    (hreservation : ∀ r ∈ s.storedFiles, p r = true → (f r).reservation now = true →
      r.reservation now = true)
    (hfiles : s'.storedFiles = updateRows p f s.storedFiles) :
    Within organizationId quota now s' := by
  constructor
  · rw [usage, hfiles]
    refine Nat.le_trans (sum_updateRows_le StoredFile.sizeBytes (fun r => (hkeys r).2.2)
      fun r hr hp hq => ?_) h.bytes
    rw [Bool.and_eq_true] at hq ⊢
    rw [(hkeys r).1] at hq
    exact ⟨hq.1, hretained r hr hp hq.2⟩
  · rw [usage_files, hfiles]
    refine Nat.le_trans (countP_updateRows_le fun r hr hp hq => ?_)
      (Nat.le_trans (Nat.le_of_eq (usage_files organizationId now s).symm) h.files)
    rw [Bool.and_eq_true] at hq ⊢
    rw [(hkeys r).1] at hq
    exact ⟨hq.1, hretained r hr hp hq.2⟩
  · rw [hfiles]
    refine Nat.le_trans (countP_updateRows_le fun r hr hp hq => ?_) h.reservations
    rw [Bool.and_eq_true] at hq ⊢
    rw [(hkeys r).1] at hq
    exact ⟨hq.1, hreservation r hr hp hq.2⟩
  · intro userId
    rw [hfiles]
    refine Nat.le_trans (countP_updateRows_le fun r hr hp hq => ?_) (h.userReservations userId)
    rw [Bool.and_eq_true] at hq ⊢
    rw [(hkeys r).1, (hkeys r).2.1] at hq
    exact ⟨hq.1, hreservation r hr hp hq.2⟩

theorem Within.filter (h : Within organizationId quota now s) (p : StoredFile → Bool)
    (hfiles : s'.storedFiles = s.storedFiles.filter p) : Within organizationId quota now s' := by
  have hsub : (s.storedFiles.filter p).Sublist s.storedFiles := List.filter_sublist
  constructor
  · refine Nat.le_trans ?_ h.bytes
    rw [usage, hfiles, List.filter_filter]
    refine sum_filter_le StoredFile.sizeBytes fun f _ hf => ?_
    rw [Bool.and_eq_true] at hf
    exact hf.1
  · refine Nat.le_trans ?_ h.files
    rw [usage_files, usage_files, hfiles]
    exact hsub.countP_le
  · rw [hfiles]
    exact Nat.le_trans hsub.countP_le h.reservations
  · intro userId
    rw [hfiles]
    exact Nat.le_trans hsub.countP_le (h.userReservations userId)

/-- A new file is counted against the quota of its own organization only. -/
theorem Within.reserve (h : Within organizationId quota now s) {file : StoredFile}
    (hadmits : file.organizationId = organizationId →
      s.Admits organizationId file.uploadedById file.sizeBytes quota now)
    (hfiles : s'.storedFiles = s.storedFiles ++ [file]) : Within organizationId quota now s' := by
  by_cases howner : file.organizationId = organizationId
  · obtain ⟨hbytes, hnumber, hreservations, huser⟩ := hadmits howner
    have hone : ∀ q : StoredFile → Bool, [file].countP q ≤ 1 := fun q => List.countP_le_length
    constructor
    · rw [usage, hfiles, List.filter_append, List.map_append, List.sum_append]
      refine Nat.le_trans (Nat.add_le_add_left ?_ _) hbytes
      rw [List.filter_singleton]
      cases file.organizationId == organizationId && file.retained now with
      | true => simp
      | false => simp
    · rw [usage_files] at hnumber ⊢
      rw [hfiles, List.countP_append]
      exact Nat.le_trans (Nat.add_le_add_left (hone _) _) hnumber
    · rw [hfiles, List.countP_append]
      exact Nat.le_trans (Nat.add_le_add_left (hone _) _) hreservations
    · intro userId
      rw [hfiles, List.countP_append]
      by_cases hsame : file.uploadedById = userId
      · rw [hsame] at huser
        exact Nat.le_trans (Nat.add_le_add_left (hone _) _) huser
      · rw [List.countP_singleton, if_neg (by simp [hsame])]
        exact h.userReservations userId
  · have hoff : ∀ q : Bool, (file.organizationId == organizationId && q) = false := by
      simp [howner]
    constructor
    · rw [usage, hfiles, List.filter_append, List.filter_singleton, hoff, cond_false, List.append_nil]
      exact h.bytes
    · rw [usage_files, hfiles, List.countP_append, List.countP_singleton, hoff, ← usage_files]
      exact h.files
    · rw [hfiles, List.countP_append, List.countP_singleton, hoff]
      exact h.reservations
    · intro userId
      rw [hfiles, List.countP_append, List.countP_singleton, Bool.and_assoc, hoff]
      exact h.userReservations userId

/-! ## Steps -/

/-- An update that is justified counts no row that did not count before. -/
theorem Transition.Justified.uncounted {w : World} {owner : Option Id} {t : Transition}
    (h : t.Justified owner now w) (hkeyed : Keyed w.store.nextId StoredFile.id w.store.storedFiles)
    {f : StoredFile} (hf : f ∈ w.store.storedFiles) (hselected : t.selects f = true) :
    ((t.apply f).retained now = true → f.retained now = true) ∧
      ((t.apply f).reservation now = true → f.reservation now = true) := by
  simp only [Transition.selects, Bool.and_eq_true, beq_iff_eq] at hselected
  cases owner with
  | none =>
    have hkind : t.maintenance = true := h
    cases t with
    | scanClean fileId now' =>
      have hscanning : f.status = .scanning := by simpa [Transition.whileScanning] using hselected.2
      exact ⟨fun _ => by simp [StoredFile.retained, hscanning], fun h => (by cases h)⟩
    | scanInfected fileId now' => exact ⟨fun h => (by cases h), fun h => (by cases h)⟩
    | scanInconclusive fileId scanAttempts malwareStatus => exact ⟨id, id⟩
    | scanUnreadable fileId scanAttempts => exact ⟨id, id⟩
    | scanFailed fileId malwareStatus scanAttempts now' => exact ⟨fun h => (by cases h), fun h => (by cases h)⟩
    | tagUpdated fileId => exact ⟨id, id⟩
    | purged fileId now' => exact ⟨fun h => (by cases h), fun h => (by cases h)⟩
    | purgePostponed fileId => exact ⟨id, id⟩
    | _ => cases hkind
  | some owner =>
    obtain ⟨f₀, hf₀, hid, -, hkind, hexpects⟩ := h
    obtain rfl : f = f₀ := hkeyed.inj hf hf₀ (hselected.1.trans hid.symm)
    cases t with
    | targetFailed fileId now' => exact ⟨fun h => (by cases h), fun h => (by cases h)⟩
    | uploadRejected fileId now' message => exact ⟨fun h => (by cases h), fun h => (by cases h)⟩
    | uploadCompleted fileId now' detectedMimeType ready =>
      obtain ⟨hpending, hexpires⟩ := hexpects
      refine ⟨fun _ => by simp [StoredFile.retained, hpending, hexpires], fun hreserved => ?_⟩
      cases ready with
      | true => cases hreserved
      | false => cases hreserved
    | reservationDropped fileId now' => exact ⟨fun h => (by cases h), fun h => (by cases h)⟩
    | deleted fileId now' =>
      refine ⟨fun _ => ?_, fun h => (by cases h)⟩
      rcases hexpects with hstatus | hstatus
      · simp [StoredFile.retained, hstatus]
      · simp [StoredFile.retained, hstatus]
    | restored fileId status =>
      obtain ⟨hdeleted, hstatus⟩ := hexpects
      refine ⟨fun _ => by simp [StoredFile.retained, hdeleted], fun hreserved => ?_⟩
      rcases hstatus with rfl | rfl
      · cases hreserved
      · cases hreserved
    | tagPostponed fileId => exact ⟨id, id⟩
    | _ => cases hkind

section Steps
variable {env : Environment} {owner : Option Id} {planCode : PlanCode} {w w' : World}

/-- Identifiers are unique, and the organization is within the quota of this plan. -/
def QuotaKept (organizationId : Id) (planCode : PlanCode) (now : Time) (w : World) : Prop :=
  Keyed w.store.nextId StoredFile.id w.store.storedFiles ∧
    Within organizationId (FILE_PLAN_QUOTAS planCode) now w.store

variable {organizationId : Id} {fixed : PlanCode}

theorem Deed.quotaKept (h : Deed env owner planCode now w w')
    (hplan : owner = some organizationId → planCode = fixed)
    (hw : QuotaKept organizationId fixed now w) : QuotaKept organizationId fixed now w' := by
  obtain ⟨hkeyed, hwithin⟩ := hw
  cases h with
  | elsewhere hfiles hnext =>
    refine ⟨?_, hwithin.congr hfiles⟩
    rw [hfiles, hnext]
    exact hkeyed
  | reserved o file howner hid horg hstatus hadmits hfiles hnext =>
    refine ⟨?_, hwithin.reserve (fun hsame => ?_) hfiles⟩
    · rw [hfiles, hnext]
      exact hkeyed.concat (Nat.le_of_eq hid.symm) (Nat.lt_succ_of_le (Nat.le_of_eq hid))
    · obtain rfl : o = organizationId := horg.symm.trans hsame
      rw [← hplan howner]
      exact hadmits
  | updated t hjustified hfiles hnext =>
    refine ⟨?_, hwithin.shrink (fun r => ?_) (fun r hr hp => ?_) (fun r hr hp => ?_) hfiles⟩
    · rw [hfiles, hnext]
      exact hkeyed.updateRows fun r => (t.apply_keys r).1
    · obtain ⟨horg, huser, hsize, -⟩ := t.apply_organization r
      exact ⟨horg, huser, hsize⟩
    · exact (hjustified.uncounted hkeyed hr hp).1
    · exact (hjustified.uncounted hkeyed hr hp).2
  | audited p howner hfiles hnext =>
    refine ⟨?_, hwithin.filter _ hfiles⟩
    rw [hfiles, hnext]
    exact hkeyed.filter _

theorem quotaKept_deeds (h : Relation.ReflTransGen (Deed env owner planCode now) w w')
    (hplan : owner = some organizationId → planCode = fixed)
    (hw : QuotaKept organizationId fixed now w) : QuotaKept organizationId fixed now w' := by
  induction h with
  | refl => exact hw
  | tail _ hdeed ih => exact hdeed.quotaKept hplan ih

end Steps

/-! ## Sequences -/

/-- A request that is performed at one instant. -/
structure Operation where
  request : Request
  now : Time
  storageFailure : Nat → Bool
  scan : Nat → Option MalwareScanResult

def Operation.call (o : Operation) : Call Request Input :=
  ⟨o.request, fun n => ⟨o.now, o.storageFailure n, o.scan n⟩⟩

/-- The operations as they are performed, from this world on. -/
def record (env : Environment) (w : World) (operations : List Operation) : List FileStep :=
  history (handler env) 0 w (operations.map Operation.call)

/-- Where a sequence of operations leads. -/
def worldAfter (env : Environment) (w : World) (operations : List Operation) : World :=
  lastWorld w (record env w operations)

/-- Whenever the organization requests something, it has this plan. -/
def OnPlan (organizationId : Id) (planCode : PlanCode) (past : List FileStep) : Prop :=
  ∀ step ∈ past, step.call.request.organizationId = some organizationId →
    step.before.store.Provides organizationId (step.call.inputs 0).now planCode

theorem provides_iff {s : Store} {organizationId : Id} {now : Time} {planCode : PlanCode} :
    s.Provides organizationId now planCode ↔
      ((Billing.snapshot s organizationId now).all fun state => state.plan.code == planCode) = true := by
  simp only [Store.Provides, Option.all_eq_true, beq_iff_eq]

theorem provides_some (s : Store) (organizationId : Id) (now : Time) :
    ∃ planCode, s.Provides organizationId now planCode := by
  simp only [Store.Provides]
  cases Billing.snapshot s organizationId now with
  | none => exact ⟨.free, fun state h => by cases h⟩
  | some state => exact ⟨state.plan.code, fun state' h => by cases h; rfl⟩

section Sequences
variable {env : Environment} {organizationId : Id} {planCode : PlanCode} {w : World}

theorem perform_quotaKept (pid : Nat) (o : Operation)
    (hplan : o.request.organizationId = some organizationId →
      w.store.Provides organizationId o.now planCode)
    (hw : QuotaKept organizationId planCode o.now w) :
    QuotaKept organizationId planCode o.now (perform (handler env) pid o.call w).after := by
  -- the plan with which the request works is the fixed one if it is of the organization
  have hprovided : ∃ planCode', (o.request.organizationId = some organizationId → planCode' = planCode) ∧
      ∀ o', o.request.organizationId = some o' → w.store.Provides o' o.now planCode' := by
    cases howner : o.request.organizationId with
    | none => exact ⟨planCode, fun _ => rfl, fun o' h => by cases h⟩
    | some owner =>
      by_cases hsame : owner = organizationId
      · subst hsame
        refine ⟨planCode, fun _ => rfl, fun o' h => ?_⟩
        cases h
        exact hplan howner
      · obtain ⟨planCode', hprovides⟩ := provides_some w.store owner o.now
        refine ⟨planCode', fun h => absurd (Option.some.inj h) hsame, fun o' h => ?_⟩
        cases h
        exact hprovides
  obtain ⟨planCode', hfixed, hprovides⟩ := hprovided
  have hfollows : Process.Follows (Instant o.now) pid
      (Deed env o.request.organizationId planCode' o.now) (handler env o.request) w :=
    handler_follows o.request hprovides
  exact quotaKept_deeds (hfollows.alone (f := o.call.inputs) fun _ => rfl) hfixed hw

theorem quotaKept_empty (organizationId : Id) (planCode : PlanCode) (now : Time) (nextId : Id)
    (users : List FileUploader) (plans : List Billing.Plan)
    (subscriptions : List Billing.Subscription) :
    QuotaKept organizationId planCode now ⟨.empty nextId users plans subscriptions, []⟩ := by
  refine ⟨⟨fun f hf => absurd hf List.not_mem_nil, List.nodup_nil⟩, ?_⟩
  constructor
  · exact Nat.zero_le _
  · exact Nat.zero_le _
  · exact Nat.zero_le _
  · exact fun _ => Nat.zero_le _

theorem quotaKept_after (env : Environment) {w₀ : World}
    (hinit : ∀ now, QuotaKept organizationId planCode now w₀) (operations : List Operation)
    (hclock : (operations.map Operation.now).Pairwise (· ≤ ·))
    (hplan : OnPlan organizationId planCode (record env w₀ operations)) (now : Time)
    (hnow : ∀ o ∈ operations, o.now ≤ now) :
    QuotaKept organizationId planCode now (worldAfter env w₀ operations) := by
  refine history_induction
    (P := fun past w => OnPlan organizationId planCode past → ∀ now,
      (∀ call ∈ past.map Step.call, (call.inputs 0).now ≤ now) →
      QuotaKept organizationId planCode now w) (fun _ now _ => hinit now) ?_ hplan now ?_
  · intro pid past w call rest hcalls hpast hplan now hnow
    have htimes : ((past.map Step.call ++ call :: rest).map fun c => (c.inputs 0).now).Pairwise
        (· ≤ ·) := by
      rw [← hcalls, List.map_map]
      exact hclock
    rw [List.map_append, List.pairwise_append] at htimes
    have hmem : call ∈ operations.map Operation.call := by
      rw [hcalls]
      exact List.mem_append_right _ List.mem_cons_self
    obtain ⟨o, -, rfl⟩ := List.mem_map.mp hmem
    have hbefore : ∀ c ∈ past.map Step.call, (c.inputs 0).now ≤ o.now := fun c hc =>
      htimes.2.2 _ (List.mem_map_of_mem hc) _ List.mem_cons_self
    have hkept := hpast (fun step hstep => hplan step (List.mem_append_left _ hstep)) o.now hbefore
    have hthis := hplan (perform (handler env) pid o.call w)
      (List.mem_append_right _ (List.mem_singleton_self _))
    have hafter : QuotaKept organizationId planCode o.now
        (perform (handler env) pid o.call w).after := perform_quotaKept pid o hthis hkept
    have hle : o.now ≤ now := hnow o.call (by simp [perform])
    exact ⟨hafter.1, hafter.2.later hle⟩
  · intro call hcall
    rw [history_calls, List.mem_map] at hcall
    obtain ⟨o, ho, rfl⟩ := hcall
    exact hnow o ho

/-- `getUsage` at one instant. -/
theorem getUsage_outcome (pid : Nat) {now : Time} {storageFailure : Nat → Bool}
    {scan : Nat → Option MalwareScanResult} {state : Billing.BillingStateResponse}
    (hstate : Billing.snapshot w.store organizationId now = some state) :
    (perform (handler env) pid (Operation.call ⟨.getUsage organizationId, now, storageFailure, scan⟩)
      w).outcome = .ok (.usage
        ⟨(usage organizationId now w.store).1, (FILE_PLAN_QUOTAS state.plan.code).maxBytes,
          (usage organizationId now w.store).2, (FILE_PLAN_QUOTAS state.plan.code).maxFiles⟩) := by
  have hclock : ∀ i, Instant now i → i.now = now := fun _ hi => hi
  have hends : Process.Ends (Instant now) pid (fun r _ => r = .ok (.usage
      ⟨(usage organizationId now w.store).1, (FILE_PLAN_QUOTAS state.plan.code).maxBytes,
        (usage organizationId now w.store).2, (FILE_PLAN_QUOTAS state.plan.code).maxFiles⟩))
      (handler env (.getUsage organizationId)) w := by
    refine Ends.map (Ends.bind ((Billing.getSnapshot_ends hclock).mono fun found u hfound => ?_))
    obtain ⟨rfl, hfound⟩ := hfound
    rw [(hfound state).mpr hstate]
    refine Ends.ask fun i hi => Ends.query (Ends.pure ?_)
    rw [show i.now = now from hi]
    rfl
  exact hends.alone (f := fun n => ⟨now, storageFailure n, scan n⟩) fun _ => rfl

end Sequences

/-- Whatever is done with the files of an organization while it has a plan, they stay within the
quota of this plan and the limits on reservations, and the usage reports what is stored. -/
theorem storage_quota (env : Environment) (organizationId : Id) (planCode : PlanCode) (nextId : Id)
    (users : List FileUploader) (plans : List Billing.Plan)
    (subscriptions : List Billing.Subscription) (operations : List Operation)
    (hclock : (operations.map Operation.now).Pairwise (· ≤ ·))
    (hplan : OnPlan organizationId planCode
      (record env ⟨.empty nextId users plans subscriptions, []⟩ operations))
    (now : Time) (hnow : ∀ o ∈ operations, o.now ≤ now) (storageFailure : Nat → Bool)
    (scan : Nat → Option MalwareScanResult) :
    let w := worldAfter env ⟨.empty nextId users plans subscriptions, []⟩ operations
    let quota := FILE_PLAN_QUOTAS planCode
    Within organizationId quota now w.store ∧
      ∀ state, Billing.snapshot w.store organizationId now = some state → state.plan.code = planCode →
        (perform (handler env) operations.length
          (Operation.call ⟨.getUsage organizationId, now, storageFailure, scan⟩) w).outcome =
          .ok (.usage ⟨(usage organizationId now w.store).1, quota.maxBytes,
            (usage organizationId now w.store).2, quota.maxFiles⟩) := by
  intro w quota
  have hkept := quotaKept_after env
    (fun now => quotaKept_empty organizationId planCode now nextId users plans subscriptions)
    operations hclock hplan now hnow
  refine ⟨hkept.2, fun state hstate hcode => ?_⟩
  rw [getUsage_outcome _ hstate, hcode]

/-- A file is uploaded, deleted and restored, and another one is reserved, while another
organization subscribes to a plan. -/
def uploadAndRestore : List Operation :=
  [⟨.initiateUpload 1 0 ⟨"a.png", "image/png", 8, Environment.transparent.sha256 []⟩, 0,
      fun _ => false, fun _ => none⟩,
    ⟨.clientUpload "objects/1/2" [0x89, 0x50, 0x4e, 0x47, 0x0d, 0x0a, 0x1a, 0x0a] "image/png", 1,
      fun _ => false, fun _ => none⟩,
    ⟨.completeUpload 1 2, 1, fun _ => false, fun _ => none⟩,
    ⟨.billingUpdate [freePlan, proPlan] [proSubscription 3], 1, fun _ => false, fun _ => none⟩,
    ⟨.deleteFile 1 2, 2, fun _ => false, fun _ => none⟩,
    ⟨.initiateUpload 1 0 ⟨"b.png", "image/png", 30, Environment.transparent.sha256 []⟩, 2,
      fun _ => false, fun _ => none⟩,
    ⟨.restoreFile 1 2, 3, fun _ => false, fun _ => none⟩]

theorem storage_quota_restored :
    let w := worldAfter .transparent ⟨.empty 2 [⟨0, none⟩] [freePlan] [], []⟩ uploadAndRestore
    Within 1 (FILE_PLAN_QUOTAS .free) 4 w.store ∧
      (perform (handler .transparent) 7
        (Operation.call ⟨.getUsage 1, 4, fun _ => false, fun _ => none⟩) w).outcome =
        .ok (.usage ⟨38, 104857600, 2, 100⟩) := by
  have hplans : ((record .transparent ⟨.empty 2 [⟨0, none⟩] [freePlan] [], []⟩ uploadAndRestore).all
      fun step => (Billing.snapshot step.before.store 1 (step.call.inputs 0).now).all fun state =>
        state.plan.code == .free) = true := by
    decide +kernel
  have hquota := storage_quota .transparent 1 .free 2 [⟨0, none⟩] [freePlan] [] uploadAndRestore
    (by decide) (fun step hstep _ => provides_iff.mpr (List.all_eq_true.mp hplans step hstep)) 4
    (by decide) (fun _ => false) fun _ => none
  have hbytes : usage 1 4 (worldAfter .transparent
      ⟨.empty 2 [⟨0, none⟩] [freePlan] [], []⟩ uploadAndRestore).store = (38, 2) := by
    decide +kernel
  have hstate : Billing.snapshot (worldAfter .transparent
      ⟨.empty 2 [⟨0, none⟩] [freePlan] [], []⟩ uploadAndRestore).store 1 4 =
        some (Billing.billingState freePlan none 4) := by
    decide +kernel
  refine ⟨hquota.1, (hquota.2 _ hstate rfl).trans ?_⟩
  rw [hbytes]
  rfl

end ShipFlow.Files
