import ShipFlow.Billing.Trial

/-! The grace period of an overdue subscription. -/

namespace ShipFlow.Billing
open Interleaving Interleaving.Process Relational

variable {Remote : Type} {env : Environment Remote}

/-- The date and the status of a written sync of the organization. -/
def Event.syncOf (organizationId : Id) : Event → Option (Time × SubscriptionStatus)
  | .synced row =>
    if row.organizationId == organizationId then some (row.lastStripeEventCreatedAt, row.status)
    else none
  | _ => none

/-- The written syncs of the organization, in the order of their commits. -/
def syncsOf (organizationId : Id) (t : List (Nat × Event)) : List (Time × SubscriptionStatus) :=
  t.filterMap fun x => x.2.syncOf organizationId

/-- The end of the grace period after a sync, given the one before it. -/
def graceAfter (graceDays : Int) (before : Option Time) (sync : Time × SubscriptionStatus) :
    Option Time :=
  if sync.2 == .pastDue then before.or (some (sync.1 + days graceDays)) else none

def grace (graceDays : Int) (syncs : List (Time × SubscriptionStatus)) : Option Time :=
  syncs.foldl (graceAfter graceDays) none

/-! ## Runs of overdue syncs -/

section Lists
variable {graceDays : Int} {before run : List (Time × SubscriptionStatus)}

theorem grace_concat (sync : Time × SubscriptionStatus) :
    grace graceDays (before ++ [sync]) = graceAfter graceDays (grace graceDays before) sync := by
  rw [grace, List.foldl_append]
  rfl

theorem grace_recovered (h : ∀ sync ∈ before.getLast?, sync.2 ≠ .pastDue) :
    grace graceDays before = none := by
  rcases List.eq_nil_or_concat before with rfl | ⟨rest, sync, rfl⟩
  · rfl
  · have hstatus : sync.2 ≠ .pastDue := h sync (by simp)
    rw [List.concat_eq_append, grace_concat, graceAfter, if_neg (by simpa using hstatus)]

theorem foldl_graceAfter (deadline : Time) (hrun : ∀ sync ∈ run, sync.2 = .pastDue) :
    run.foldl (graceAfter graceDays) (some deadline) = some deadline := by
  induction run with
  | nil => rfl
  | cons sync run ih =>
    have hfirst : graceAfter graceDays (some deadline) sync = some deadline := by
      rw [graceAfter, if_pos (by simp [hrun sync List.mem_cons_self]), Option.some_or]
    rw [List.foldl_cons, hfirst]
    exact ih fun s hs => hrun s (List.mem_cons_of_mem _ hs)

/-- The first overdue sync after a recovery sets the end, and the following ones keep it. -/
theorem grace_run (first : Time × SubscriptionStatus)
    (hbefore : ∀ sync ∈ before.getLast?, sync.2 ≠ .pastDue)
    (hrun : ∀ sync ∈ first :: run, sync.2 = .pastDue) :
    grace graceDays (before ++ first :: run) = some (first.1 + days graceDays) := by
  have hstart : graceAfter graceDays none first = some (first.1 + days graceDays) := by
    rw [graceAfter, if_pos (by simp [hrun first List.mem_cons_self]), Option.none_or]
  have hrest : ∀ sync ∈ run, sync.2 = .pastDue := fun s hs => hrun s (List.mem_cons_of_mem _ hs)
  have hnone : before.foldl (graceAfter graceDays) none = none := grace_recovered hbefore
  rw [grace, List.foldl_append, List.foldl_cons, hnone, hstart, foldl_graceAfter _ hrest]

theorem grace_isSome_iff : (grace graceDays before).isSome = true ↔
    ∃ sync ∈ before.getLast?, sync.2 = .pastDue := by
  rcases List.eq_nil_or_concat before with rfl | ⟨rest, sync, rfl⟩
  · simp [grace]
  · rw [List.concat_eq_append, grace_concat, graceAfter, List.getLast?_concat]
    by_cases h : sync.2 = .pastDue
    · cases grace graceDays rest <;> simp [h]
    · simp [h]

end Lists

/-! ## The row -/

section Steps
variable {organizationId : Id} {pid : Nat} {w w' : World Remote}

/-- The row has the status of the last sync, and the grace period that the syncs make. -/
def Graced (graceDays : Int) (organizationId : Id) (w : World Remote) : Prop :=
  (w.store.subscriptionOf organizationId).map (fun r => (r.status, r.gracePeriodEndsAt)) =
    (syncsOf organizationId w.trace).getLast?.map fun sync =>
      (sync.2, grace graceDays (syncsOf organizationId w.trace))

theorem Graced.existing {graceDays : Int} (h : Graced graceDays organizationId w) :
    (w.store.subscriptionOf organizationId).bind Subscription.gracePeriodEndsAt =
      grace graceDays (syncsOf organizationId w.trace) := by
  unfold Graced at h
  cases hrow : w.store.subscriptionOf organizationId with
  | none =>
    rw [hrow, Option.map_none] at h
    have hempty : syncsOf organizationId w.trace = [] :=
      List.getLast?_eq_none_iff.mp (Option.map_eq_none_iff.mp h.symm)
    rw [hempty]
    rfl
  | some r =>
    rw [hrow, Option.map_some] at h
    obtain ⟨sync, -, heq⟩ := Option.map_eq_some_iff.mp h.symm
    rw [Prod.mk.injEq] at heq
    exact heq.2.symm

theorem Graced.same (h : Graced env.billingGracePeriodDays organizationId w)
    (hrow : w'.store.subscriptionOf organizationId = w.store.subscriptionOf organizationId)
    (htrace : syncsOf organizationId w'.trace = syncsOf organizationId w.trace) :
    Graced env.billingGracePeriodDays organizationId w' := by
  rw [Graced, hrow, htrace]
  exact h

/-- A written sync carries the grace period on from the row that it finds. -/
theorem Graced.synced (h : Graced env.billingGracePeriodDays organizationId w) {planId : Id}
    {interval : BillingInterval} {sub : ProviderSubscription} {createdAt : Time}
    (hrow : w'.store.subscriptionOf organizationId =
      some (subscriptionRow env organizationId planId interval sub
        (w.store.subscriptionOf organizationId) createdAt))
    (htrace : syncsOf organizationId w'.trace =
      syncsOf organizationId w.trace ++ [(createdAt, sub.status)]) :
    Graced env.billingGracePeriodDays organizationId w' := by
  have hgrace : gracePeriodEndsAt env sub (w.store.subscriptionOf organizationId) createdAt =
      graceAfter env.billingGracePeriodDays
        (grace env.billingGracePeriodDays (syncsOf organizationId w.trace))
        (createdAt, sub.status) := by
    rw [gracePeriodEndsAt, graceAfter, h.existing]
  rw [Graced, hrow, htrace, List.getLast?_concat, grace_concat, ← hgrace]
  rfl

theorem Graced.step (h : Graced env.billingGracePeriodDays organizationId w)
    (hstep : Operation env pid w w') : Graced env.billingGracePeriodDays organizationId w' := by
  cases hstep with
  | synced owner planId interval sub createdAt nextId notifications hlater =>
    by_cases howner : owner = organizationId
    · subst howner
      refine h.synced ((subscriptionOf_put _ _ _).trans (if_pos rfl)) ?_
      simp [syncsOf, Event.syncOf, subscriptionRow]
    · refine h.same ((subscriptionOf_put _ _ _).trans (if_neg howner)) ?_
      simp [syncsOf, Event.syncOf, subscriptionRow, howner]
  | reservations nextId rows event hevent =>
    refine h.same rfl ?_
    cases event with
    | none => simp
    | some e =>
      have hreservation := hevent e rfl
      cases e with
      | synced row => cases hreservation
      | _ => simp [syncsOf, Event.syncOf]
  | stripe remote event hevent =>
    refine h.same rfl ?_
    cases event with
    | none => simp
    | some e =>
      rw [hevent e rfl]
      simp [syncsOf, Event.syncOf]
  | _ => exact h.same rfl (by simp [syncsOf, Event.syncOf])

theorem Graced.steps (h : Graced env.billingGracePeriodDays organizationId w)
    (hsteps : Relation.ReflTransGen (Operation env pid) w w') :
    Graced env.billingGracePeriodDays organizationId w' := by
  induction hsteps with
  | refl => exact h
  | tail _ hstep ih => exact ih.step hstep

end Steps

/-- Whatever is delivered for an organization that had no subscription, and in whatever
order: its row has a grace period exactly while it is overdue; and throughout a maximal
run of overdue syncs the period ends so many days after the first of them, which is also
when the paid access ends. -/
theorem grace_deadline (env : Environment Remote) (s : Store Remote) (organizationId : Id)
    (hnone : s.subscriptionOf organizationId = none)
    (calls : List (Call (Request Remote) Input)) :
    (∀ row ∈ (worldAfter env s calls).store.subscriptionOf organizationId,
      row.gracePeriodEndsAt.isSome = true ↔ row.status = .pastDue) ∧
    ∀ before first run,
      syncsOf organizationId (worldAfter env s calls).trace = before ++ first :: run →
      (∀ sync ∈ before.getLast?, sync.2 ≠ .pastDue) → (∀ sync ∈ first :: run, sync.2 = .pastDue) →
      ∃ row, (worldAfter env s calls).store.subscriptionOf organizationId = some row ∧
        row.status = .pastDue ∧
        row.gracePeriodEndsAt = some (first.1 + days env.billingGracePeriodDays) ∧
        ∀ now, hasPaidAccess now (some row) = true ↔
          now < first.1 + days env.billingGracePeriodDays := by
  have h : Graced env.billingGracePeriodDays organizationId (worldAfter env s calls) :=
    history_preserves (fun pid w call h => h.steps (perform_operates call)) 0 calls
      (by rw [Graced, hnone]; rfl)
  unfold Graced at h
  constructor
  · intro row hrow
    rw [Option.mem_def.mp hrow, Option.map_some] at h
    obtain ⟨sync, hsync, heq⟩ := Option.map_eq_some_iff.mp h.symm
    rw [Prod.mk.injEq] at heq
    rw [← heq.1, ← heq.2, grace_isSome_iff, hsync]
    simp
  · intro before first run hsyncs hbefore hrun
    obtain ⟨last, hlast⟩ : ∃ last, (before ++ first :: run).getLast? = some last :=
      ⟨_, List.getLast?_eq_some_getLast (by simp)⟩
    have hmem : last ∈ first :: run := by
      rw [List.getLast?_append_cons] at hlast
      exact List.mem_of_getLast? hlast
    rw [hsyncs, hlast, grace_run first hbefore hrun, Option.map_some] at h
    obtain ⟨row, hrow, heq⟩ := Option.map_eq_some_iff.mp h
    rw [Prod.mk.injEq] at heq
    have hstatus : row.status = .pastDue := heq.1.trans (hrun last hmem)
    exact ⟨row, hrow, hstatus, heq.2, fun now => hasPaidAccess_pastDue hstatus heq.2 now⟩

/-- Two payments that fail, one after the other. -/
def failingPayments : List (Call (Request (List StripeSubscription)) Input) :=
  [⟨.webhook "first" "", fun _ => ⟨0⟩⟩, ⟨.webhook "second" "", fun _ => ⟨0⟩⟩]

def overdue : Environment (List StripeSubscription) := selling <| signing
  [("first", ⟨"evt_1", 100, .invoice .payment_failed ⟨"in_1", some "sub_1"⟩⟩),
   ("second", ⟨"evt_2", 200, .invoice .payment_failed ⟨"in_2", some "sub_1"⟩⟩)]

theorem grace_deadline_overdue :
    ∃ row, (worldAfter overdue (acme [proSubscription "sub_1" .past_due])
        failingPayments).store.subscriptionOf 1 = some row ∧
      row.gracePeriodEndsAt = some (100000 + days 7) := by
  have hsyncs : syncsOf 1 (worldAfter overdue (acme [proSubscription "sub_1" .past_due])
      failingPayments).trace = [] ++ (100000, .pastDue) :: [(200000, .pastDue)] := by decide +kernel
  obtain ⟨row, hrow, -, hgrace, -⟩ := (grace_deadline overdue _ 1 rfl failingPayments).2 _ _ _
    hsyncs (by decide) (by decide)
  exact ⟨row, hrow, hgrace⟩

end ShipFlow.Billing
