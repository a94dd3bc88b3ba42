import ShipFlow.Files.LocalFileStorageProvider
import ShipFlow.Files.ObjectKeys
import ShipFlow.Interleaving.Performed

/-! The reconciliation of the storage with the rows, among all other requests. A pass deletes no
object that has a row, but the first deletion that fails is its last. -/

namespace ShipFlow.Files
open Interleaving Relational Config

/-- The object under this key has a row. -/
def Store.Filed (env : Environment) (s : Store) (key : String) : Prop :=
  ∃ f ∈ s.storedFiles, f.storageProvider = env.provider ∧ f.objectKey = key

/-- The objects that are a day old and have no row, as a pass finds them: it reads the clock, then
the listing, and then the rows. -/
def orphans (env : Environment) : List (World × Input) → List StoredObject
  | (_, clock) :: (listing, call) :: (lookup, _) :: _ =>
    if call.storageFailure then []
    else listing.store.objects.filter fun o =>
      o.lastModified ≤ clock.now - 24 * 60 * 60 * 1000 &&
        !lookup.store.storedFiles.any fun f =>
          f.storageProvider == env.provider && f.objectKey == o.key
  | _ => []

/-- The pass deletes no object that has a row, and when it has ended it has called `deleteObject`
for every orphan, in the order of the listing. A call may fail, as it always does with a key that
the provider refuses: that is the matter of this call. -/
structure Reconciled (env : Environment) (c : Files.Config) (pid : Nat)
    (acts : List (Action Request Input)) : Prop where
  safe : ∀ n key w i, env.refusesKey key = false →
    Calls (handler env) c pid acts n (deleteObject env key) w i → ¬ w.store.Filed env key
  complete : ((c.run (handler env) acts).outcome pid).isSome →
    ∀ (j : Nat) o, (orphans env (performed (handler env) pid c acts))[j]? = some o →
      ∃ w i, Calls (handler env) c pid acts (j + 3) (deleteObject env o.key) w i

/-- The provider accepts the key, and the call goes through. -/
def Deletes (env : Environment) (o : StoredObject) (i : Input) : Bool :=
  !env.refusesKey o.key && !i.storageFailure

/-- Of the deletions, which follow the three reads, none but the last one fails. -/
def OnlyLastFails (env : Environment) (log : List (World × Input)) : Prop :=
  ∀ j o x, j + 1 < (orphans env log).length → (orphans env log)[j]? = some o →
    log[j + 3]? = some x → Deletes env o x.2 = true

/-- What is left of a pass that has deletions to make. -/
def sweep (env : Environment) (count : Nat) (objects : List StoredObject) : Handler Response :=
  .count <$> tryCatch
    (do
      Process.forEach (fun o : StoredObject => deleteObject env o.key) objects
      return count)
    fun _ => return 0

/-- What is left of a pass that has listed these candidates. -/
def lookUp (env : Environment) (candidates : List StoredObject) : Handler Response :=
  .count <$> tryCatch
    (if candidates.isEmpty then return 0
    else do
      let records ← Process.query fun s : Store =>
        (s.storedFiles.filter fun f => f.storageProvider == env.provider &&
          candidates.any fun o => o.key == f.objectKey).map StoredFile.objectKey
      let orphans := candidates.filter fun o => !records.contains o.key
      Process.forEach (fun o : StoredObject => deleteObject env o.key) orphans
      return orphans.length)
    fun _ => return 0

section Passes
variable {env : Environment} {n : Nat} {o : StoredObject} {os : List StoredObject} {key : String}
  {x x₀ x₁ x₂ : World × Input} {log : List (World × Input)}

/-! ## The deletions -/

theorem sweep_nil : sweep env n [] = .done (.count n) := rfl

theorem deleteObject_refused (h : env.refusesKey key = true) : deleteObject env key =
    storageCall fun _ => Transaction.fails (.error "Invalid storage object key") := by
  unfold deleteObject removeObject
  rw [if_pos h]

theorem deleteObject_accepted (h : env.refusesKey key = false) : deleteObject env key =
    storageCall fun _ => Transaction.writes fun s =>
      { s with objects := s.objects.filter fun o => !(o.key == key) } := by
  unfold deleteObject removeObject
  rw [if_neg (by rw [h]; exact Bool.false_ne_true)]

theorem sweep_cons_after : (sweep env n (o :: os)).after (x :: log) =
    (if Deletes env o x.2 then sweep env n os else .done (.count 0)).after log := by
  obtain ⟨w, now, failure, scan⟩ := x
  have hfirst : sweep env n (o :: os) = .count <$> tryCatch
      ((deleteObject env o.key >>= fun _ =>
        Process.forEach (fun o : StoredObject => deleteObject env o.key) os) >>= fun _ => return n)
      fun _ => return 0 := rfl
  rw [hfirst, Deletes]
  cases hrefused : env.refusesKey o.key with
  | true =>
    rw [deleteObject_refused hrefused]
    cases failure <;> rfl
  | false =>
    rw [deleteObject_accepted hrefused]
    cases failure <;> rfl

/-- A store with one object. -/
def holding (key : String) : Store := ⟨0, [], [], [], [], [⟨key, [], none, 0⟩]⟩

theorem deleteObject_action (env : Environment) (key key' : String) :
    (deleteObject env key').action?.map
        (fun act => (act ⟨0, false, none⟩ (holding key)).1.objects) =
      some (if env.refusesKey key' = false ∧ key = key' then [] else (holding key).objects) := by
  cases hrefused : env.refusesKey key' with
  | true =>
    rw [deleteObject_refused hrefused, if_neg (by simp)]
    rfl
  | false =>
    rw [deleteObject_accepted hrefused]
    have hact : (storageCall fun _ => Transaction.writes fun s =>
        { s with objects := s.objects.filter fun o => !(o.key == key') }).action?.map
          (fun act => (act ⟨0, false, none⟩ (holding key)).1.objects) =
        some ([⟨key, [], none, 0⟩].filter fun o => !(o.key == key')) := rfl
    rw [hact]
    by_cases hkey : key = key' <;> simp [holding, hkey]

/-- What deletes the object with this key is the call of `deleteObject` for it. -/
theorem deleteObject_inj {key' : String} (haccepted : env.refusesKey key = false)
    (h : (deleteObject env key).action? = (deleteObject env key').action?) : key = key' := by
  by_contra hne
  have hdeleted := deleteObject_action env key key
  rw [h, if_pos ⟨haccepted, rfl⟩, deleteObject_action env key key',
    if_neg fun hboth => hne hboth.2] at hdeleted
  cases hdeleted

theorem sweep_begins : (sweep env n (o :: os)).Begins (deleteObject env o.key) := ⟨_, rfl, rfl⟩

/-- A pass deletes only what it has found. -/
theorem sweep_finds (haccepted : env.refusesKey key = false)
    (h : ((sweep env n os).after log).Begins (deleteObject env key)) : ∃ o ∈ os, o.key = key := by
  induction os generalizing log with
  | nil =>
    rw [sweep_nil, Process.after_done] at h
    exact absurd h Process.not_begins_done
  | cons o os ih =>
    cases log with
    | nil =>
      rw [Process.after_nil] at h
      obtain ⟨act, hact, hdelete⟩ := h
      have hkey : key = o.key := deleteObject_inj haccepted (hdelete.trans hact.symm)
      exact ⟨o, List.mem_cons_self, hkey.symm⟩
    | cons x log =>
      rw [sweep_cons_after] at h
      split at h
      · obtain ⟨o', ho', hkey⟩ := ih h
        exact ⟨o', List.mem_cons_of_mem o ho', hkey⟩
      · rw [Process.after_done] at h
        exact absurd h Process.not_begins_done

/-- After the first call, the others are those of the deletions that are left. -/
theorem sweep_calls_cons : (∀ j o', (o :: os)[j]? = some o' → j < (x :: log).length ∧
      ((sweep env n (o :: os)).after ((x :: log).take j)).Begins (deleteObject env o'.key)) ↔
    ∀ j o', os[j]? = some o' → j < log.length ∧
      ((if Deletes env o x.2 then sweep env n os else .done (.count 0)).after
        (log.take j)).Begins (deleteObject env o'.key) := by
  constructor
  · intro hall j o' ho'
    obtain ⟨hj, hbegins⟩ := hall (j + 1) o' ho'
    rw [List.take_succ_cons, sweep_cons_after] at hbegins
    exact ⟨Nat.lt_of_succ_lt_succ hj, hbegins⟩
  · intro hall j o' ho'
    cases j with
    | zero =>
      cases ho'
      refine ⟨Nat.succ_pos _, ?_⟩
      rw [List.take_zero, Process.after_nil]
      exact sweep_begins
    | succ j =>
      obtain ⟨hj, hbegins⟩ := hall j o' ho'
      refine ⟨Nat.succ_lt_succ hj, ?_⟩
      rw [List.take_succ_cons, sweep_cons_after]
      exact hbegins

/-- The deletions come to an end, each of them having been tried, exactly when none but the last
one fails. -/
theorem sweep_complete_iff (hended : ((sweep env n os).after log).action? = none) :
    (∀ j o, os[j]? = some o → j < log.length ∧
      ((sweep env n os).after (log.take j)).Begins (deleteObject env o.key)) ↔
    ∀ j o x, j + 1 < os.length → os[j]? = some o → log[j]? = some x → Deletes env o x.2 = true := by
  induction os generalizing log with
  | nil => exact iff_of_true (fun _ _ h => by simp at h) fun _ _ _ h => absurd h (by simp)
  | cons o os ih =>
    cases log with
    | nil =>
      rw [Process.after_nil] at hended
      cases hended
    | cons x log =>
      rw [sweep_cons_after] at hended
      rw [sweep_calls_cons]
      cases hdeletes : Deletes env o x.2 with
      | false =>
        cases os with
        | nil => exact iff_of_true (fun _ _ h => by simp at h) fun _ _ _ h => absurd h (by simp)
        | cons o' os =>
          -- the pass has ended, and the second object is still there
          refine iff_of_false (fun hall => ?_) fun hall => ?_
          · obtain ⟨-, hbegins⟩ := hall 0 o' rfl
            rw [if_neg Bool.false_ne_true, Process.after_done] at hbegins
            exact Process.not_begins_done hbegins
          · have hno := hall 0 o x (by simp) rfl rfl
            rw [hdeletes] at hno
            cases hno
      | true =>
        rw [hdeletes] at hended
        simp only [if_true] at hended ⊢
        rw [ih hended]
        constructor
        · intro hall j o' y hj ho' hy
          cases j with
          | zero =>
            cases ho'
            cases hy
            exact hdeletes
          | succ j => exact hall j o' y (Nat.lt_of_succ_lt_succ hj) ho' hy
        · exact fun hall j o' y hj ho' hy => hall (j + 1) o' y (Nat.succ_lt_succ hj) ho' hy

/-! ## The whole pass -/

/-- An action that leaves every store as it is deletes nothing. -/
theorem not_begins_reads (haccepted : env.refusesKey key = false) {p : Handler Response}
    (h : ∀ act, p.action? = some act → ∀ i s, (act i s).1 = s) :
    ¬ p.Begins (deleteObject env key) := by
  rintro ⟨act, hact, hdelete⟩
  have hdeleted := deleteObject_action env key key
  rw [if_pos ⟨haccepted, rfl⟩, hdelete, Option.map_some, h act hact] at hdeleted
  cases hdeleted

/-- The objects of a listing that are a day old. -/
abbrev candidatesOf (w : World) (now : Int) : List StoredObject :=
  w.store.objects.filter fun o => o.lastModified ≤ now - 24 * 60 * 60 * 1000

/-- The keys of the rows that are read for these candidates. -/
abbrev recordsOf (env : Environment) (w : World) (candidates : List StoredObject) : List String :=
  (w.store.storedFiles.filter fun f => f.storageProvider == env.provider &&
    candidates.any fun o => o.key == f.objectKey).map StoredFile.objectKey

/-- The rows are read for the candidates only, and so for every key that is looked for. -/
theorem contains_recordsOf {w : World} {candidates : List StoredObject} (ho : o ∈ candidates) :
    (recordsOf env w candidates).contains o.key =
      w.store.storedFiles.any fun f =>
        f.storageProvider == env.provider && f.objectKey == o.key := by
  rw [Bool.eq_iff_iff]
  simp only [recordsOf, List.contains_iff_mem, List.mem_map, List.mem_filter, List.any_eq_true,
    Bool.and_eq_true, beq_iff_eq]
  constructor
  · rintro ⟨f, ⟨hf, hprovider, -⟩, hkey⟩
    exact ⟨f, hf, hprovider, hkey⟩
  · rintro ⟨f, hf, hprovider, hkey⟩
    exact ⟨f, ⟨hf, hprovider, o, ho, hkey.symm⟩, hkey⟩

theorem orphans_found {w₀ w₁ w₂ : World} {clock i₁ i₂ : Input} (hlisted : i₁.storageFailure = false) :
    orphans env [(w₀, clock), (w₁, i₁), (w₂, i₂)] = (candidatesOf w₁ clock.now).filter fun o =>
      !(recordsOf env w₂ (candidatesOf w₁ clock.now)).contains o.key := by
  rw [orphans, if_neg (by rw [hlisted]; exact Bool.false_ne_true), List.filter_filter]
  refine List.filter_congr fun o ho => ?_
  rw [Bool.and_comm]
  cases hold : decide (o.lastModified ≤ clock.now - 24 * 60 * 60 * 1000) with
  | false => rw [Bool.and_false, Bool.and_false]
  | true =>
    have hcandidate : o ∈ candidatesOf w₁ clock.now := List.mem_filter.mpr ⟨ho, hold⟩
    rw [contains_recordsOf hcandidate]

/-- After its three reads a pass deletes what it has found. -/
theorem pass_after : (handler env .reconcileOrphans).after (x₀ :: x₁ :: x₂ :: log) =
    (sweep env (orphans env [x₀, x₁, x₂]).length (orphans env [x₀, x₁, x₂])).after log := by
  obtain ⟨w₀, clock⟩ := x₀
  obtain ⟨w₁, now, failure, scan⟩ := x₁
  obtain ⟨w₂, i₂⟩ := x₂
  cases failure with
  | true =>
    rw [show orphans env _ = [] from rfl, List.length_nil, sweep_nil, Process.after_done]
    rfl
  | false =>
    have hreads : (handler env .reconcileOrphans).after ((w₀, clock) ::
        (w₁, ⟨now, false, scan⟩) :: (w₂, i₂) :: log) =
        (lookUp env (candidatesOf w₁ clock.now)).after ((w₂, i₂) :: log) := rfl
    rw [hreads, orphans_found rfl]
    cases hempty : (candidatesOf w₁ clock.now).isEmpty with
    | true =>
      have hnone : candidatesOf w₁ clock.now = [] := List.isEmpty_iff.mp hempty
      rw [lookUp, if_pos hempty, hnone, List.filter_nil, List.length_nil, sweep_nil, Process.after_done]
      rfl
    | false =>
      rw [lookUp, if_neg (by rw [hempty]; exact Bool.false_ne_true)]
      rfl

/-- The reads delete nothing. -/
theorem pass_reads (haccepted : env.refusesKey key = false) (hlength : log.length ≤ 2) :
    ¬ ((handler env .reconcileOrphans).after log).Begins (deleteObject env key) := by
  match log, hlength with
  | [], _ =>
    refine not_begins_reads haccepted fun act hact i s => ?_
    cases hact
    rfl
  | [(w₀, i₀)], _ =>
    refine not_begins_reads haccepted fun act hact i s => ?_
    cases hact
    obtain ⟨now, failure, scan⟩ := i
    cases failure <;> rfl
  | [(w₀, i₀), (w₁, ⟨now, failure, scan⟩)], _ =>
    refine not_begins_reads haccepted fun act hact i s => ?_
    cases failure with
    | true => cases hact
    | false =>
      change ((lookUp env (candidatesOf w₁ i₀.now)).after []).action? = some act at hact
      rw [Process.after_nil, lookUp] at hact
      split at hact
      · cases hact
      · cases hact
        rfl

/-! ## Runs -/

section Runs
variable {c : Files.Config} {pid : Nat} {acts : List (Action Request Input)} {w : World} {i : Input}

/-- A pass deletes nothing before its fourth action, and then only what it has found. -/
theorem calls_sweep (hp : c.pool[pid]? = some (.reconcileOrphans, handler env .reconcileOrphans))
    (haccepted : env.refusesKey key = false)
    (hcall : Calls (handler env) c pid acts n (deleteObject env key) w i) :
    ∃ j, n = j + 3 ∧ (performed (handler env) pid c acts)[n]? = some (w, i) ∧
      ∃ o ∈ orphans env (performed (handler env) pid c acts), o.key = key := by
  obtain ⟨hn, hbegins⟩ := (calls_iff hp).mp hcall
  generalize performed (handler env) pid c acts = log at hn hbegins ⊢
  have hlt : n < log.length := (List.getElem?_eq_some_iff.mp hn).1
  match log, n, hn, hbegins with
  | log, 0, hn, hbegins | log, 1, hn, hbegins | log, 2, hn, hbegins =>
    exact absurd hbegins (pass_reads haccepted (by rw [List.length_take]; omega))
  | x₀ :: x₁ :: x₂ :: log, j + 3, hn, hbegins =>
    rw [List.take_succ_cons, List.take_succ_cons, List.take_succ_cons, pass_after] at hbegins
    exact ⟨j, rfl, hn, sweep_finds haccepted hbegins⟩

/-- The rows and keys of a world go back to those of an earlier one. -/
abbrev KeyStep (w w' : World) : Prop := FreshKeys w ∧ FreshKeys w' ∧ Stems w.store w'.store

theorem stems_of_steps {w' : World} (h : Relation.ReflTransGen KeyStep w w') :
    Stems w.store w'.store := by
  induction h with
  | refl => exact .refl
  | tail _ hstep ih => exact ih.trans hstep.2.2

theorem fresh_of_steps {w' : World} (h : Relation.ReflTransGen KeyStep w w') (hw : FreshKeys w) :
    FreshKeys w' := by
  cases h with
  | refl => exact hw
  | tail _ hstep => exact hstep.2.1

/-- What had no row when the rows were read has none later on: the key was not free any more. -/
theorem not_filed_later {w₁ w₂ w₃ : World} (h₁ : FreshKeys w₁)
    (h₁₂ : Relation.ReflTransGen KeyStep w₁ w₂) (h₂₃ : Relation.ReflTransGen KeyStep w₂ w₃)
    (ho : o ∈ w₁.store.objects) (hnone : ¬ w₂.store.Filed env o.key) :
    ¬ w₃.store.Filed env o.key := by
  rintro ⟨f, hf, hprovider, hkey⟩
  rcases (stems_of_steps h₂₃).storedFiles f hf with ⟨f₂, hf₂, hkey₂, hprovider₂⟩ | hfree
  · exact hnone ⟨f₂, hf₂, hprovider₂.trans hprovider, hkey₂.trans hkey⟩
  · rw [hkey] at hfree
    exact h₁.objects o ho (hfree.of_le (stems_of_steps h₁₂).nextId)

theorem mem_orphans (h : o ∈ orphans env [x₀, x₁, x₂]) :
    o ∈ x₁.1.store.objects ∧ ¬ x₂.1.store.Filed env o.key := by
  simp only [orphans] at h
  split at h
  · cases h
  · obtain ⟨ho, hcond⟩ := List.mem_filter.mp h
    refine ⟨ho, fun ⟨f, hf, hprovider, hkey⟩ => ?_⟩
    simp only [Bool.and_eq_true, Bool.not_eq_true', List.any_eq_false] at hcond
    exact hcond.2 f hf ⟨beq_iff_eq.mpr hprovider, beq_iff_eq.mpr hkey⟩

/-- A pass that has ended has no action left. -/
theorem ended_action (hp : c.pool[pid]? = some (.reconcileOrphans, handler env .reconcileOrphans))
    (hended : ((c.run (handler env) acts).outcome pid).isSome) :
    ((handler env .reconcileOrphans).after (performed (handler env) pid c acts)).action? = none := by
  rw [outcome, pool_run hp] at hended
  cases h : (handler env .reconcileOrphans).after (performed (handler env) pid c acts) with
  | step act next =>
    rw [h] at hended
    cases hended
  | _ => rfl

/-- An object that a pass deletes had no row when the rows were read, and its key was in use by
then. -/
theorem deletes_unfiled (hp : c.pool[pid]? = some (.reconcileOrphans, handler env .reconcileOrphans))
    (hinv : FreshKeys c.world) (halong : Along KeyStep (handler env) c acts)
    (haccepted : env.refusesKey key = false)
    (hcall : Calls (handler env) c pid acts n (deleteObject env key) w i) :
    ¬ w.store.Filed env key := by
  obtain ⟨hworlds, hpairs⟩ := performed_along pid halong
  obtain ⟨j, rfl, hj, o, ho, rfl⟩ := calls_sweep hp haccepted hcall
  generalize performed (handler env) pid c acts = log at hworlds hpairs hj ho
  have hlt : j + 3 < log.length := (List.getElem?_eq_some_iff.mp hj).1
  match log, hworlds, hpairs, hj, ho with
  | x₀ :: x₁ :: x₂ :: rest, hworlds, hpairs, hj, ho =>
    have hmem : (w, i) ∈ rest := List.mem_of_getElem? hj
    simp only [List.pairwise_cons] at hpairs
    obtain ⟨hobject, hnone⟩ := mem_orphans ho
    have hfresh := fresh_of_steps (hworlds x₁ (by simp)) hinv
    exact not_filed_later hfresh (hpairs.2.1 x₂ List.mem_cons_self) (hpairs.2.2.1 (w, i) hmem)
      hobject hnone

/-- A pass that has ended has called for every orphan if only its last deletion may have failed. -/
theorem calls_complete_iff
    (hp : c.pool[pid]? = some (.reconcileOrphans, handler env .reconcileOrphans))
    (hended : ((c.run (handler env) acts).outcome pid).isSome) :
    (∀ j o, (orphans env (performed (handler env) pid c acts))[j]? = some o →
      ∃ w i, Calls (handler env) c pid acts (j + 3) (deleteObject env o.key) w i) ↔
    OnlyLastFails env (performed (handler env) pid c acts) := by
  have hstopped := ended_action hp hended
  simp only [calls_iff hp]
  generalize performed (handler env) pid c acts = log at hstopped
  match log, hstopped with
  | [], _ | [x₀], _ | [x₀, x₁], _ =>
    -- the pass has ended before it has read any rows
    exact iff_of_true (fun j o ho => by simp [orphans] at ho) fun j o x hj => absurd hj (by simp [orphans])
  | x₀ :: x₁ :: x₂ :: rest, hstopped =>
    rw [pass_after] at hstopped
    refine Iff.trans (forall₃_congr fun j o _ => ?_) (sweep_complete_iff hstopped)
    rw [List.take_succ_cons, List.take_succ_cons, List.take_succ_cons, pass_after]
    constructor
    · rintro ⟨w, i, hj, hbegins⟩
      exact ⟨(List.getElem?_eq_some_iff.mp (show rest[j]? = some (w, i) from hj)).1, hbegins⟩
    · rintro ⟨hj, hbegins⟩
      exact ⟨rest[j].1, rest[j].2, List.getElem?_eq_getElem hj, hbegins⟩

/-- A pass, from where it arrives. -/
theorem reconciled_iff (hp : c.pool[pid]? = some (.reconcileOrphans, handler env .reconcileOrphans))
    (hinv : FreshKeys c.world) (halong : Along KeyStep (handler env) c acts) :
    Reconciled env c pid acts ↔ (((c.run (handler env) acts).outcome pid).isSome →
      OnlyLastFails env (performed (handler env) pid c acts)) := by
  constructor
  · intro h hended
    exact (calls_complete_iff hp hended).mp (h.complete hended)
  · intro h
    refine ⟨fun n key w i haccepted hcall => ?_, fun hended => ?_⟩
    · exact deletes_unfiled hp hinv halong haccepted hcall
    · exact (calls_complete_iff hp hended).mpr (h hended)

end Runs
end Passes

/-- Among all other requests, a pass deletes no object that has a row, whatever happens in
between; and when it has ended it has tried to delete every orphan if and only if no deletion
before the last one has failed, for its key or for the storage. -/
theorem orphans_reconciled_iff (env : Environment) {s : Store} (hs : s.Fresh)
    {before after : List (Action Request Input)}
    (haddressed : Config.Arriving Request.Addressed (handler env) (Config.init s : Files.Config)
      (before ++ .request .reconcileOrphans :: after)) :
    let pid := ((Config.init s : Files.Config).run (handler env) before).pool.length
    let c := (Config.init s : Files.Config).run (handler env)
      (before ++ [.request .reconcileOrphans])
    Reconciled env c pid after ↔ (((c.run (handler env) after).outcome pid).isSome →
      OnlyLastFails env (performed (handler env) pid c after)) := by
  intro pid c
  rw [← List.singleton_append, ← List.append_assoc] at haddressed
  obtain ⟨hbefore, hafter⟩ := haddressed.append
  have hmeets : c.Meets keyDiscipline.inv keyDiscipline.effect fun _ _ _ _ => True :=
    keys_meets hs hbefore
  have hp : c.pool[pid]? = some (.reconcileOrphans, handler env .reconcileOrphans) := by
    simp only [c, pid, Config.run_append, Config.run_cons, Config.run_nil, Config.act]
    rw [List.getElem?_append_right (Nat.le_refl _), Nat.sub_self]
    rfl
  exact reconciled_iff hp hmeets.holds (keys_along hmeets hafter)

/-- A local storage with these objects, all of them without a row. -/
def leftovers (keys : List String) : Store where
  nextId := 2
  users := [⟨0, none⟩]
  plans := [freePlan]
  subscriptions := []
  storedFiles := []
  objects := keys.map fun key => ⟨key, [], none, 0⟩

def orphanKey : String :=
  "objects/00000000-0000-0000-0000-000000000000/00000000-0000-0000-0000-000000000001"

theorem leftovers_fresh {keys : List String}
    (hkeys : keys.all (fun key => (key.toList.drop 8).any fun c => !(c.isDigit || c == '/')) = true) :
    (leftovers keys).Fresh := by
  refine ⟨fun o ho hfree => ?_, fun _ hf => absurd hf List.not_mem_nil⟩
  obtain ⟨key, hkey, rfl⟩ := List.mem_map.mp ho
  obtain ⟨c, hc, hother⟩ := List.any_eq_true.mp (List.all_eq_true.mp hkeys key hkey)
  rw [Bool.not_eq_true', Bool.or_eq_false_iff, beq_eq_false_iff_ne] at hother
  rcases hfree.digits hc with hdigit | hslash
  · rw [hother.1] at hdigit
    cases hdigit
  · exact hother.2 hslash

/-- An upload begins before the pass and gets its target while the pass is on its way. The name
that is no key comes last. -/
theorem orphans_reconciled_upload :
    let env : Environment := { Environment.transparent with provider := .local }
    let noon : Input := .at (48 * 60 * 60 * 1000) none
    let storage := leftovers [orphanKey, "objects/readme.txt"]
    let before : List (Action Request Input) :=
      [.request (.initiateUpload 1 0 ⟨"a.png", "image/png", 8, env.sha256 []⟩)] ++ advances 0 4 noon
    let after : List (Action Request Input) :=
      advances 1 2 noon ++ advances 0 2 noon ++ advances 1 3 noon
    let c := (Config.init storage : Files.Config).run (handler env)
      (before ++ [.request .reconcileOrphans])
    (orphans env (performed (handler env) 1 c after)).length = 2 ∧ Reconciled env c 1 after := by
  intro env noon storage before after
  have hfresh : storage.Fresh := leftovers_fresh (by decide +kernel)
  have haddressed : Config.Arriving Request.Addressed (handler env)
      (Config.init storage : Files.Config) (before ++ .request .reconcileOrphans :: after) := by
    refine Config.Arriving.of_forall fun r hr w => ?_
    simp only [before, after, advances, List.mem_append, List.mem_cons, List.mem_replicate,
      Action.request.injEq, reduceCtorEq, and_false, or_false, List.not_mem_nil] at hr
    rcases hr with rfl | rfl <;> exact True.intro
  have hlen : ((Config.init storage : Files.Config).run (handler env) before).pool.length = 1 := by
    decide +kernel
  have hiff := orphans_reconciled_iff env hfresh haddressed
  simp only [hlen] at hiff
  let log := performed (handler env) 1 ((Config.init storage : Files.Config).run (handler env)
    (before ++ [.request .reconcileOrphans])) after
  have htwo : (orphans env log).length = 2 := by decide +kernel
  have hdeletes : ((orphans env log)[0]?.all fun o => log[3]?.all fun x => Deletes env o x.2) = true := by
    decide +kernel
  refine ⟨htwo, hiff.mpr fun _ j o x hj ho hx => ?_⟩
  obtain rfl : j = 0 := Nat.lt_one_iff.mp (Nat.lt_of_succ_lt_succ (Nat.lt_of_lt_of_eq hj htwo))
  rw [ho, hx] at hdeletes
  exact hdeletes

/-- The name that is no key cannot be deleted, and the object that comes after it stays. -/
theorem orphan_left :
    let env : Environment := { Environment.transparent with provider := .local }
    let noon : Input := .at (48 * 60 * 60 * 1000) none
    let storage := leftovers ["objects/.gitkeep", orphanKey]
    let after : List (Action Request Input) := advances 0 4 noon
    let c := (Config.init storage : Files.Config).run (handler env) [.request .reconcileOrphans]
    storage.Fresh ∧ storage.objects.map (fun o => isObjectKey o.key) = [false, true] ∧
      ((c.run (handler env) after).outcome 0).isSome ∧
      ¬ Reconciled env c 0 after := by
  intro env noon storage after c
  refine ⟨leftovers_fresh (by decide +kernel), by decide +kernel, by decide +kernel, fun h => ?_⟩
  have hfour : (performed (handler env) 0 c after).length = 4 := by decide +kernel
  -- the call for the second object would be a fifth action
  obtain ⟨w, i, hcall⟩ := h.complete (by decide +kernel) 1 ⟨orphanKey, [], none, 0⟩ (by decide +kernel)
  have hfifth := ((calls_iff rfl).mp hcall).1
  rw [List.getElem?_eq_none (Nat.le_of_eq hfour)] at hfifth
  cases hfifth

end ShipFlow.Files
