import ShipFlow.Billing.Operations

/-! One trial per organization. -/

namespace ShipFlow.Billing
open Interleaving Interleaving.Process Relational

variable {Remote : Type} {env : Environment Remote}

/-- When the organization used its trial. -/
def Store.trialUsedAt (s : Store Remote) (organizationId : Id) : Option Time :=
  (s.customerOf organizationId).bind StripeCustomer.trialUsedAt

/-- The date of a written sync whose subscription had a trial. -/
def Event.trialStarted (organizationId : Id) : Event → Option Time
  | .synced row =>
    if row.organizationId == organizationId && row.trialStart.isSome then
      some row.lastStripeEventCreatedAt
    else none
  | _ => none

/-- The first trial that the organization was seen to start. -/
def firstTrial (organizationId : Id) (t : List (Nat × Event)) : Option Time :=
  (t.filterMap fun x => x.2.trialStarted organizationId).head?

/-! ## Customers -/

section Customers
variable {organizationId owner : Id} {rows : List StripeCustomer}

def trialIn (organizationId : Id) (rows : List StripeCustomer) : Option Time :=
  (rows.find? fun c => c.organizationId == organizationId).bind StripeCustomer.trialUsedAt

/-- Putting a customer keeps the trial that its row has. -/
theorem trialIn_putCustomer (customerId : String) (trialUsedAt : Option Time) :
    trialIn organizationId (putCustomer owner customerId trialUsedAt rows) =
      if owner = organizationId ∧ rows.find? (fun c => c.organizationId == organizationId) = none
      then trialUsedAt else trialIn organizationId rows := by
  unfold trialIn putCustomer upsertRows
  cases hfind : rows.find? fun c => c.organizationId == owner with
  | none =>
    by_cases howner : owner = organizationId
    · subst howner
      simp [List.find?_append, hfind]
    · simp [List.find?_append, howner]
  | some c =>
    -- a row that is there keeps its trial
    have hsome : ¬(owner = organizationId ∧
        rows.find? (fun c => c.organizationId == organizationId) = none) := by
      rintro ⟨rfl, hnone⟩
      rw [hnone] at hfind
      cases hfind
    rw [if_neg hsome]
    simp only
    rw [find?_updateRows_map]
    · rw [Option.bind_map]
      congr 1
      funext c
      rw [Function.comp_apply]
      split <;> rfl
    · exact fun _ => rfl

/-- Recording a trial does nothing where one has been recorded. -/
theorem trialIn_recordTrial (now : Time) :
    trialIn organizationId (recordTrial owner now rows) =
      if owner = organizationId ∧ (rows.find? fun c => c.organizationId == organizationId).isSome
      then (trialIn organizationId rows).or (some now) else trialIn organizationId rows := by
  unfold trialIn recordTrial
  rw [find?_updateRows_map _ (by exact fun _ => rfl)]
  cases hfind : rows.find? fun c => c.organizationId == organizationId with
  | none => simp
  | some c =>
    have hc : c.organizationId = organizationId := by simpa using List.find?_some hfind
    by_cases howner : owner = organizationId
    · cases ht : c.trialUsedAt <;> simp [howner, hc, ht]
    · have hne : (c.organizationId == owner) = false := by
        rw [hc]
        exact beq_eq_false_iff_ne.mpr fun h => howner h.symm
      rw [Option.map_some, Option.bind_some, if_neg (by simp [hne]), if_neg (by simp [howner])]
      rfl

theorem trialIn_syncedCustomers (sub : ProviderSubscription) (createdAt : Time) :
    trialIn organizationId (syncedCustomers owner sub createdAt rows) =
      (trialIn organizationId rows).or
        (if owner == organizationId && sub.trialStart.isSome then some createdAt else none) := by
  simp only [syncedCustomers]
  cases htrial : sub.trialStart.isSome with
  | false =>
    simp only [Bool.false_eq_true, if_false, Bool.and_false, Option.or_none]
    rw [trialIn_putCustomer]
    split
    · rename_i h
      simp [trialIn, h.2]
    · rfl
  | true =>
    simp only [if_true, Bool.and_true]
    rw [trialIn_recordTrial, trialIn_putCustomer]
    by_cases howner : owner = organizationId
    · subst howner
      -- the customer is written first, and so there is a row to record the trial in
      have hfound : ((putCustomer owner sub.customerId (some createdAt) rows).find? fun c =>
          c.organizationId == owner).isSome = true := by
        unfold putCustomer
        rw [find?_upsertRows (by simp) (by simp), Option.isSome_some]
      cases hfind : rows.find? fun c => c.organizationId == owner with
      | none => simp [hfound, trialIn, hfind]
      | some c => simp [hfound]
    · simp [howner]

end Customers

/-! ## Runs -/

section Runs
variable {organizationId : Id} {pid : Nat} {w w' : World Remote} {s : Store Remote}

/-- The trial after a step is the one before it, or else the one that the step reports;
and no session with a trial is asked for when there has been one. -/
theorem Operation.trial (h : Operation env pid w w') (organizationId : Id) :
    ∃ event : Option Event, w'.trace = w.trace ++ event.toList.map (fun e => (pid, e)) ∧
      w'.store.trialUsedAt organizationId = (w.store.trialUsedAt organizationId).or
        (event.bind (Event.trialStarted organizationId)) ∧
      ∀ input idempotencyKey answer, event = some (.checkoutRequested input idempotencyKey answer) →
        input.organizationId = organizationId → (w.store.trialUsedAt organizationId).isSome →
          input.trialDays = none := by
  cases h with
  | stripe remote event hevent =>
    refine ⟨event, rfl, ?_, ?_⟩
    · cases event with
      | none => simp [Store.trialUsedAt, Store.customerOf]
      | some e =>
        rw [hevent e rfl]
        simp [Store.trialUsedAt, Store.customerOf, Event.trialStarted]
    · rintro input key answer rfl
      cases hevent _ rfl
  | checkoutRequested remote context interval customer key answer hcustomer =>
    refine ⟨some _, rfl, ?_, ?_⟩
    · simp [Store.trialUsedAt, Store.customerOf, Event.trialStarted]
    · rintro input key' answer' heq howner htrial
      cases heq
      -- the row that the checkout has read has the trial in it
      have hused : customer.trialUsedAt.isSome = true := by
        change context.organizationId = organizationId at howner
        rwa [Store.trialUsedAt, ← howner, hcustomer, Option.bind_some] at htrial
      simp [checkoutInput, hused]
  | reservations nextId rows event hevent =>
    refine ⟨event, rfl, ?_, ?_⟩
    · have hnone : event.bind (Event.trialStarted organizationId) = none := by
        refine Option.bind_eq_none_iff.mpr fun e he => ?_
        have hreservation := hevent e he
        cases e with
        | synced row => cases hreservation
        | _ => rfl
      rw [hnone, Option.or_none]
      rfl
    · rintro input key answer rfl
      cases hevent _ rfl
  | checked owner status => exact ⟨some _, rfl, by simp [Event.trialStarted], nofun⟩
  | customerPut owner customerId =>
    refine ⟨none, rfl, ?_, nofun⟩
    rw [Option.bind_none, Option.or_none]
    change trialIn organizationId (putCustomer _ _ _ _) = trialIn organizationId _
    rw [trialIn_putCustomer]
    split
    · rename_i hnone
      simp [trialIn, hnone.2]
    · rfl
  | customerEnsured owner customerId hnone =>
    refine ⟨none, rfl, ?_, nofun⟩
    rw [Option.bind_none, Option.or_none]
    simp only [Store.trialUsedAt, Store.customerOf, World.advance_store, List.find?_append]
    cases hfind : w.store.stripeCustomers.find? fun c => c.organizationId == organizationId with
    | none => by_cases h : owner = organizationId <;> simp [h]
    | some c => simp
  | subscriptionRead owner => exact ⟨some _, rfl, by simp [Event.trialStarted], nofun⟩
  | synced owner planId interval sub createdAt nextId notifications hlater =>
    exact ⟨some _, rfl, trialIn_syncedCustomers sub createdAt, nofun⟩
  | notified nextId notifications =>
    exact ⟨none, rfl, by simp [Store.trialUsedAt, Store.customerOf], nofun⟩
  | processed rows => exact ⟨none, rfl, by simp [Store.trialUsedAt, Store.customerOf], nofun⟩

/-- The trial of the organization is the one it had at the start, or else the first one
that it was seen to start, and after it no session with a trial is asked for. -/
structure OneTrial (start : Option Time) (organizationId : Id) (w : World Remote) : Prop where
  first : w.store.trialUsedAt organizationId = start.or (firstTrial organizationId w.trace)
  refused : ∀ before q input idempotencyKey answer after,
    w.trace = before ++ (q, .checkoutRequested input idempotencyKey answer) :: after →
    input.organizationId = organizationId → (start.or (firstTrial organizationId before)).isSome →
      input.trialDays = none

theorem firstTrial_append (t : List (Nat × Event)) (event : Option Event) :
    firstTrial organizationId (t ++ event.toList.map fun e => (pid, e)) =
      (firstTrial organizationId t).or (event.bind (Event.trialStarted organizationId)) := by
  cases event with
  | none => simp
  | some e =>
    cases h : e.trialStarted organizationId <;>
      simp [firstTrial, List.filterMap_append, List.head?_append, h]

theorem OneTrial.step {start : Option Time} (h : OneTrial start organizationId w)
    (hstep : Operation env pid w w') : OneTrial start organizationId w' := by
  obtain ⟨event, htrace, htrial, hrefused⟩ := hstep.trial organizationId
  constructor
  · rw [htrial, h.first, htrace, firstTrial_append, Option.or_assoc]
  · intro before q input key answer after heq howner hstarted
    rw [htrace] at heq
    cases event with
    | none => exact h.refused before q input key answer after (by simpa using heq) howner hstarted
    | some e =>
      rcases List.eq_nil_or_concat after with rfl | ⟨rest, x, rfl⟩
      · -- the session is asked for in this step
        obtain ⟨hbefore, hlast⟩ := List.append_inj' heq rfl
        simp only [Option.toList_some, List.map_cons, List.map_nil, List.cons.injEq,
          Prod.mk.injEq, and_true] at hlast
        refine hrefused input key answer (by rw [hlast.2]) howner ?_
        rw [h.first, hbefore]
        exact hstarted
      · refine h.refused before q input key answer rest ?_ howner hstarted
        rw [List.concat_eq_append, ← List.cons_append, ← List.append_assoc] at heq
        exact (List.append_inj' heq rfl).1

/-- Once used, the trial stays as it is. -/
theorem trialUsedAt_kept {usedAt : Time} (h : w.store.trialUsedAt organizationId = some usedAt)
    (hsteps : Relation.ReflTransGen (Operation env pid) w w') :
    w'.store.trialUsedAt organizationId = some usedAt := by
  induction hsteps with
  | refl => exact h
  | tail _ hstep ih =>
    obtain ⟨event, -, htrial, -⟩ := hstep.trial organizationId
    rw [htrial, ih, Option.some_or]

theorem OneTrial.steps {start : Option Time} (h : OneTrial start organizationId w)
    (hsteps : Relation.ReflTransGen (Operation env pid) w w') : OneTrial start organizationId w' := by
  induction hsteps with
  | refl => exact h
  | tail _ hstep ih => exact ih.step hstep

theorem perform_operates (call : Call (Request Remote) Input) :
    Relation.ReflTransGen (Operation env pid) w (perform (handler env) pid call w).after :=
  (handler_operates call.request).alone fun _ => True.intro

/-- Where the requests have come to that are executed one after the other. -/
def worldAfter (env : Environment Remote) (s : Store Remote)
    (calls : List (Call (Request Remote) Input)) : World Remote :=
  lastWorld ⟨s, []⟩ (history (handler env) 0 ⟨s, []⟩ calls)

/-- However webhooks, checkouts and changes of Stripe follow on each other: a trial that
the organization has used stays used, with its date; the date is that of the first
written sync of a subscription with a trial; and from then on no Checkout session with a
trial is asked for. -/
theorem one_trial_per_organization (env : Environment Remote) (s : Store Remote)
    (organizationId : Id) (calls more : List (Call (Request Remote) Input)) :
    (∀ usedAt, (worldAfter env s calls).store.trialUsedAt organizationId = some usedAt →
      (worldAfter env s (calls ++ more)).store.trialUsedAt organizationId = some usedAt) ∧
    (worldAfter env s calls).store.trialUsedAt organizationId =
      (s.trialUsedAt organizationId).or
        (firstTrial organizationId (worldAfter env s calls).trace) ∧
    ∀ before pid input idempotencyKey answer after, (worldAfter env s calls).trace =
        before ++ (pid, .checkoutRequested input idempotencyKey answer) :: after →
      input.organizationId = organizationId →
      ((s.trialUsedAt organizationId).or (firstTrial organizationId before)).isSome →
        input.trialDays = none := by
  have hone : OneTrial (s.trialUsedAt organizationId) organizationId (worldAfter env s calls) :=
    history_preserves (fun pid w call h => h.steps (perform_operates call)) 0 calls
      ⟨by simp [firstTrial], by simp⟩
  refine ⟨fun usedAt h => ?_, hone.first, hone.refused⟩
  have hkept : ∀ pid (w : World Remote) call, w.store.trialUsedAt organizationId = some usedAt →
      (perform (handler env) pid call w).after.store.trialUsedAt organizationId = some usedAt :=
    fun pid w call h => trialUsedAt_kept h (perform_operates call)
  rw [worldAfter, lastWorld_history_append]
  exact history_preserves
    (P := fun w : World Remote => w.store.trialUsedAt organizationId = some usedAt) hkept _ more h

end Runs

/-! ### A shop -/

/-- The subscription that an organization tries. -/
def tried : StripeSubscription :=
  { proSubscription "sub_1" .trialing with trial_start := some 50, trial_end := some 60 }

def trialShop : Environment (List StripeSubscription) := selling <| signing
  [("started", ⟨"evt_1", 100, .invoice .paid ⟨"in_1", some "sub_1"⟩⟩),
   ("canceled", ⟨"evt_2", 200, .invoice .paid ⟨"in_2", some "sub_1"⟩⟩)]

/-- The trial is reported. -/
def trying : List (Call (Request (List StripeSubscription)) Input) :=
  [⟨.webhook "started" "", fun _ => ⟨0⟩⟩]

/-- The subscription is canceled, and the owner goes to Checkout again. -/
def returning : List (Call (Request (List StripeSubscription)) Input) :=
  [⟨.stripeChanges [{ tried with status := .canceled }], fun _ => ⟨0⟩⟩,
   ⟨.webhook "canceled" "", fun _ => ⟨0⟩⟩,
   ⟨.createCheckoutSession ⟨1, "Acme", "owner@example.org"⟩ .monthly, fun _ => ⟨0⟩⟩]

def secondCheckout : CheckoutInput :=
  checkoutInput trialShop ⟨1, "Acme", "owner@example.org"⟩ .monthly ⟨1, "cus_1", some 100000⟩

theorem one_trial_per_organization_returning :
    (worldAfter trialShop (acme [tried]) (trying ++ returning)).store.trialUsedAt 1 = some 100000 ∧
    (worldAfter trialShop (acme [tried]) (trying ++ returning)).store.trialUsedAt 1 =
      firstTrial 1 (worldAfter trialShop (acme [tried]) (trying ++ returning)).trace ∧
    (3, .checkoutRequested secondCheckout 5 none) ∈
      (worldAfter trialShop (acme [tried]) (trying ++ returning)).trace ∧
    secondCheckout.trialDays = none := by
  obtain ⟨hkept, -, -⟩ := one_trial_per_organization trialShop (acme [tried]) 1 trying returning
  obtain ⟨-, hfirst, hrefused⟩ :=
    one_trial_per_organization trialShop (acme [tried]) 1 (trying ++ returning) []
  have htrace : (worldAfter trialShop (acme [tried]) (trying ++ returning)).trace =
      (worldAfter trialShop (acme [tried]) (trying ++ returning)).trace.take 7 ++
        (3, .checkoutRequested secondCheckout 5 none) ::
          [(3, .released (.failed 4 5))] := by decide +kernel
  have hstarted : (firstTrial 1 ((worldAfter trialShop (acme [tried])
      (trying ++ returning)).trace.take 7)).isSome = true := by decide +kernel
  refine ⟨hkept 100000 (by decide +kernel), hfirst, ?_, ?_⟩
  · rw [htrace]
    exact List.mem_append_right _ List.mem_cons_self
  · exact hrefused _ 3 secondCheckout 5 none _ htrace rfl hstarted

end ShipFlow.Billing
