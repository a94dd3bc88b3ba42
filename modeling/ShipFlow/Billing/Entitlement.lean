import ShipFlow.Billing.Store
import ShipFlow.Interleaving.Discipline
import ShipFlow.Interleaving.Isolation

/-! `BillingEntitlementService`: the plan that the subscription row of an organization
pays for, for every service that has the tables of plans and subscriptions. -/

namespace ShipFlow.Billing
open Interleaving Interleaving.Discipline Interleaving.Process Relational

structure BillingPlanResponse where
  code : PlanCode
  name : String
  description : String
  currency : String
  monthlyPriceCents : Int
  annualPriceCents : Int
  features : List String
  deriving DecidableEq, Repr

structure BillingStateResponse where
  plan : BillingPlanResponse
  subscriptionStatus : Option SubscriptionStatus
  interval : Option BillingInterval
  hasPaidAccess : Bool
  currentPeriodStart : Option Time
  currentPeriodEnd : Option Time
  trialEnd : Option Time
  gracePeriodEndsAt : Option Time
  cancelAtPeriodEnd : Bool
  deriving DecidableEq, Repr

def mapPlan (plan : Plan) : BillingPlanResponse where
  code := plan.code
  name := plan.name
  description := plan.description
  currency := plan.currency
  monthlyPriceCents := plan.monthlyPriceCents
  annualPriceCents := plan.annualPriceCents
  features := plan.features

def hasPaidAccess (now : Time) : Option Subscription → Bool
  | none => false
  | some r =>
    r.status == .active || r.status == .trialing ||
      (r.status == .pastDue && r.gracePeriodEndsAt.any fun t => now < t)

/-- A store with the tables of plans and subscriptions. -/
class HasSubscriptions (σ : Type) where
  plans : σ → List Plan
  subscriptions : σ → List Subscription

instance {Remote : Type} : HasSubscriptions (Store Remote) := ⟨Store.plans, Store.subscriptions⟩

section Service
variable {σ ι ω : Type} [HasSubscriptions σ]

def findPlan (p : Plan → Bool) : Transaction σ Failure Plan := do
  let found ← Transaction.reads fun s => (HasSubscriptions.plans s).find? p
  match found with
  | none => Transaction.fails .recordNotFound
  | some plan => return plan

/-- The subscription of an organization, with its plan. -/
def subscriptionWithPlan (organizationId : Id) (s : σ) : Option (Subscription × Plan) :=
  ((HasSubscriptions.subscriptions s).find? fun r => r.organizationId == organizationId).bind fun r =>
    ((HasSubscriptions.plans s).find? fun p => p.id == r.planId).map fun p => (r, p)

def billingState (freePlan : Plan) (found : Option (Subscription × Plan)) (now : Time) :
    BillingStateResponse :=
  let subscription := found.map Prod.fst
  let paid := hasPaidAccess now subscription
  { plan := mapPlan (if paid then (found.map Prod.snd).getD freePlan else freePlan)
    subscriptionStatus := subscription.map Subscription.status
    interval := subscription.map Subscription.interval
    hasPaidAccess := paid
    currentPeriodStart := subscription.map Subscription.currentPeriodStart
    currentPeriodEnd := subscription.map Subscription.currentPeriodEnd
    trialEnd := subscription.bind Subscription.trialEnd
    gracePeriodEndsAt := subscription.bind Subscription.gracePeriodEndsAt
    cancelAtPeriodEnd := subscription.any Subscription.cancelAtPeriodEnd }

def getSnapshot (clock : ι → Time) (organizationId : Id) :
    Process ι σ ω Failure BillingStateResponse := do
  let freePlan ← Process.statement (findPlan fun p => p.code == .free)
  let found ← Process.query (subscriptionWithPlan organizationId)
  let now ← Process.ask clock
  return billingState freePlan found now

/-- What `getSnapshot` returns at one instant. -/
def snapshot (s : σ) (organizationId : Id) (now : Time) : Option BillingStateResponse :=
  ((HasSubscriptions.plans s).find? fun p => p.code == .free).map fun freePlan =>
    billingState freePlan (subscriptionWithPlan organizationId s) now

variable {s s' : σ} {clock : ι → Time} {organizationId : Id} {pid : Nat} {w : Interleaving.World σ ω}

theorem findPlan_ok {p : Plan → Bool} {plan : Plan} :
    findPlan p s = .ok (plan, s') ↔ (HasSubscriptions.plans s).find? p = some plan ∧ s' = s := by
  simp only [findPlan, Transaction.bind_ok, Transaction.reads_ok]
  cases hfound : (HasSubscriptions.plans s).find? p with
  | none => simp
  | some o =>
    constructor
    · rintro ⟨_, _, ⟨rfl, rfl⟩, h⟩
      obtain ⟨rfl, rfl⟩ := (Transaction.pure_ok _ _ _ _).mp h
      exact ⟨rfl, rfl⟩
    · rintro ⟨h, rfl⟩
      cases h
      exact ⟨_, _, ⟨rfl, rfl⟩, rfl⟩

/-- The snapshot only reads. -/
theorem getSnapshot_keeps (D : Discipline σ ω) :
    D.Keeps pid (getSnapshot clock organizationId) w := by
  unfold getSnapshot
  refine Keeps.commit (fun _ => rfl) (fun w' i plan s' hm => ?_) fun plan w' =>
    Keeps.query fun w'' _ => Keeps.ask fun now => Keeps.pure _
  obtain ⟨-, rfl⟩ := findPlan_ok.mp hm
  rw [World.advance_idle]
  exact D.idle pid w'

theorem getSnapshot_ends {I : ι → Prop} {now : Time} (hclock : ∀ i, I i → clock i = now) :
    Ends I pid (fun r w' => w' = w ∧ ∀ b, r = .ok b ↔ snapshot w.store organizationId now = some b)
      (getSnapshot clock organizationId) w := by
  unfold getSnapshot
  refine Ends.commit (fun _ => rfl) (fun i _ plan s' hm => ?_) fun i _ e he => ⟨rfl, fun b => ?_⟩
  · obtain ⟨hplan, rfl⟩ := findPlan_ok.mp hm
    rw [World.advance_idle]
    refine Ends.query (Ends.ask fun j hj => Ends.pure ⟨rfl, fun b => ?_⟩)
    rw [snapshot, hplan, hclock j hj, Option.map_some, Except.ok.injEq, Option.some.injEq]
  · refine iff_of_false (fun h => by cases h) fun h => ?_
    obtain ⟨plan, hplan, -⟩ := Option.map_eq_some_iff.mp h
    rw [findPlan_ok.mpr ⟨hplan, rfl⟩] at he
    cases he

end Service

/-- While a payment is due, access ends with the grace period. -/
theorem hasPaidAccess_pastDue {r : Subscription} {deadline : Time} (h : r.status = .pastDue)
    (hgrace : r.gracePeriodEndsAt = some deadline) (now : Time) :
    hasPaidAccess now (some r) = true ↔ now < deadline := by
  simp [hasPaidAccess, h, hgrace]

end ShipFlow.Billing
