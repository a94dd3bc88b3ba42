import ShipFlow.Interleaving.Isolation
import ShipFlow.Billing.Transactions

/-! What a billing request does to the customer and to the subscription of an
organization when no other request runs at the same time. -/

namespace ShipFlow.Billing
open Interleaving Interleaving.Process Relational

variable {Remote : Type} {env : Environment Remote}

/-- The customer of an organization. -/
def Store.customerOf (s : Store Remote) (organizationId : Id) : Option StripeCustomer :=
  s.stripeCustomers.find? fun c => c.organizationId == organizationId

/-- The store after `syncSubscription`, but for its notifications. -/
def Store.sync (env : Environment Remote) (s : Store Remote) (organizationId planId : Id)
    (interval : BillingInterval) (sub : ProviderSubscription) (createdAt : Time) : Store Remote :=
  { s with
    checkoutSessions := s.checkoutSessions.filter fun c => !(c.organizationId == organizationId)
    stripeCustomers := syncedCustomers organizationId sub createdAt s.stripeCustomers
    subscriptions := putSubscription
      (subscriptionRow env organizationId planId interval sub (s.subscriptionOf organizationId)
        createdAt) s.subscriptions }

/-- The event tells of a reservation. -/
def Event.ofReservation : Event → Bool
  | .reserved _ | .released _ => true
  | _ => false

/-- One step of a request that runs alone: what it has read is still so. -/
inductive Operation (env : Environment Remote) (pid : Nat) (w : World Remote) :
    World Remote → Prop where
  | stripe (remote : Remote) (event : Option Event) (hevent : ∀ e ∈ event, e = .stripeChanged) :
    Operation env pid w (w.advance pid ({ w.store with stripe := remote }, event.toList))
  | checkoutRequested (remote : Remote) (context : OrganizationContext) (interval : BillingInterval)
      (customer : StripeCustomer) (idempotencyKey : Id) (answer : Option ProviderCheckoutSession)
      (hcustomer : w.store.customerOf context.organizationId = some customer) :
    Operation env pid w (w.advance pid ({ w.store with stripe := remote },
      [.checkoutRequested (checkoutInput env context interval customer) idempotencyKey answer]))
  | reservations (nextId : Id) (rows : List BillingCheckoutSession) (event : Option Event)
      (hevent : ∀ e ∈ event, e.ofReservation = true) :
    Operation env pid w (w.advance pid
      ({ w.store with nextId := nextId, checkoutSessions := rows }, event.toList))
  | checked (organizationId : Id) (status : Option SubscriptionStatus) :
    Operation env pid w (w.advance pid (w.store, [.subscriptionChecked organizationId status]))
  | customerPut (organizationId : Id) (customerId : String) :
    Operation env pid w (w.advance pid
      ({ w.store with
          stripeCustomers := putCustomer organizationId customerId none w.store.stripeCustomers },
        []))
  | customerEnsured (organizationId : Id) (customerId : String)
      (hnone : w.store.customerOf organizationId = none) :
    Operation env pid w (w.advance pid
      ({ w.store with
          stripeCustomers := w.store.stripeCustomers ++ [⟨organizationId, customerId, none⟩] }, []))
  | subscriptionRead (organizationId : Id) :
    Operation env pid w (w.advance pid (w.store, [.subscriptionRead organizationId]))
  | synced (organizationId planId : Id) (interval : BillingInterval) (sub : ProviderSubscription)
      (createdAt : Time) (nextId : Id) (notifications : List Notification)
      (hlater : ∀ r ∈ w.store.subscriptionOf organizationId, r.lastStripeEventCreatedAt < createdAt) :
    Operation env pid w (w.advance pid
      ({ w.store.sync env organizationId planId interval sub createdAt with
          nextId := nextId, notifications := notifications },
        [.synced (subscriptionRow env organizationId planId interval sub
          (w.store.subscriptionOf organizationId) createdAt)]))
  | notified (nextId : Id) (notifications : List Notification) :
    Operation env pid w (w.advance pid
      ({ w.store with nextId := nextId, notifications := notifications }, []))
  | processed (rows : List ProcessedStripeEvent) :
    Operation env pid w (w.advance pid ({ w.store with processedStripeEvents := rows }, []))

/-- The request runs to its end in such steps. -/
abbrev Operates (env : Environment Remote) (pid : Nat) {α : Type} (p : Handler Remote α)
    (w : World Remote) : Prop := Follows (fun _ => True) pid (Operation env pid) p w

section Steps
variable {pid : Nat} {w : World Remote} {α : Type}

/-! ## Checkout -/

theorem callStripe_operates {call : StripeCall α}
    (h : Operation env pid w
      (w.advance pid ({ w.store with stripe := (call.perform env.stripe w.store.stripe).2 },
        call.observed (call.perform env.stripe w.store.stripe).1))) :
    Ends (fun _ => True) pid
      (fun _ w' => Relation.ReflTransGen (Operation env pid) w w' ∧
        ∃ remote, w'.store = { w.store with stripe := remote })
      (callStripe env call) w := by
  unfold callStripe
  refine Ends.atomically (fun i _ answer s' hm => ?_) fun i _ e hm => by cases hm
  cases hm
  cases hanswer : (call.perform env.stripe w.store.stripe).1 with
  | ok b =>
    rw [hanswer] at h
    exact ⟨.single h, _, rfl⟩
  | error e =>
    rw [hanswer] at h
    exact ⟨.single h, _, rfl⟩

/-- A call whose answer no one sees. -/
theorem quietCall_operates {call : StripeCall α}
    (hquiet : ∀ answer : Except Failure α, call.observed answer = []) :
    Ends (fun _ => True) pid
      (fun _ w' => Relation.ReflTransGen (Operation env pid) w w' ∧
        ∃ remote, w'.store = { w.store with stripe := remote })
      (callStripe env call) w := by
  apply callStripe_operates
  rw [hquiet]
  exact .stripe _ none (by simp)

/-- A step that changes nothing but the reservations. -/
def Reserves (pid : Nat) (w w' : World Remote) : Prop :=
  ∃ nextId rows, ∃ event : Option Event, (∀ e ∈ event, e.ofReservation = true) ∧
    w' = w.advance pid ({ w.store with nextId := nextId, checkoutSessions := rows }, event.toList)

theorem Reserves.operation {w w' : World Remote} (h : Reserves pid w w') :
    Operation env pid w w' := by
  obtain ⟨nextId, rows, event, hevent, rfl⟩ := h
  exact .reservations nextId rows event hevent

theorem Reserves.customerOf {w w' : World Remote}
    (h : Relation.ReflTransGen (Reserves pid) w w') (organizationId : Id) :
    w'.store.customerOf organizationId = w.store.customerOf organizationId := by
  induction h with
  | refl => rfl
  | tail _ hstep ih =>
    obtain ⟨nextId, rows, event, -, rfl⟩ := hstep
    exact ih

/-- Run to its end, the request has changed nothing but the reservations. -/
abbrev OnlyReserves (pid : Nat) (p : Handler Remote α) (w : World Remote) : Prop :=
  Follows (fun _ => True) pid (Reserves pid) p w

theorem releases_only (release : Release) :
    OnlyReserves pid (releaseReservations release : Handler Remote Nat) w := by
  unfold releaseReservations
  rw [← Process.bind_pure (Process.atomically _ _)]
  refine Follows.commit (fun _ => rfl) fun i _ n s' hm => ⟨.single ?_, Follows.pure⟩
  obtain ⟨-, rfl⟩ := Table.deleteMany_ok.mp hm
  exact ⟨w.store.nextId, _, some (.released release), by simp [Event.ofReservation], rfl⟩

theorem tryReserve_only {organizationId : Id} {interval : BillingInterval} {now : Time}
    {retry : Handler Remote BillingCheckoutSession} (hretry : ∀ w', OnlyReserves pid retry w') :
    OnlyReserves pid (tryReserve organizationId interval now retry) w := by
  refine Follows.handle ?_ fun e w' => ?_
  · rw [← Process.bind_pure (Process.atomically _ _)]
    refine Follows.commit (fun _ => rfl) fun i _ c s' hm => ⟨.single ?_, Follows.pure⟩
    simp only [newReservation, Transaction.bind_ok, uuidv7_ok, Table.create_ok] at hm
    obtain ⟨_, _, ⟨-, rfl⟩, _, _, ⟨-, rfl⟩, -, -, rfl⟩ := hm
    exact ⟨_, _, some (.reserved _), by simp [Event.ofReservation], rfl⟩
  · split
    · exact hretry w'
    · exact Follows.throw

theorem reserveAttempts_only (organizationId : Id) (interval : BillingInterval) (attempts : Nat) :
    OnlyReserves pid (reserveAttempts organizationId interval attempts) w := by
  induction attempts generalizing w with
  | zero => exact Follows.throw
  | succ attempts ih =>
    have hreserve : ∀ now w', OnlyReserves pid (tryReserve organizationId interval now
        (reserveAttempts organizationId interval attempts) : Handler Remote _) w' :=
      fun now w' => tryReserve_only fun _ => ih
    refine Follows.ask fun i _ => Follows.commit (fun _ => rfl) fun j _ found s' hm => ?_
    obtain ⟨-, rfl⟩ := Table.findFirst_ok.mp hm
    rw [World.advance_idle]
    refine ⟨.refl, ?_⟩
    cases found with
    | none => exact hreserve _ _
    | some existing =>
      change Follows _ pid _ (if _ then _ else _) w
      split
      · split
        · refine Follows.bind (releases_only _) fun n w' => ?_
          split
          · exact ih
          · exact hreserve _ _
        · exact Follows.rejectIf fun _ => Follows.pure
      · exact Follows.bind (releases_only _) fun n w' => hreserve _ _

theorem customerOf_put {s : Store Remote} {rows : List StripeCustomer} (organizationId : Id) :
    ({ s with stripeCustomers := rows } : Store Remote).customerOf organizationId =
      rows.find? fun c => c.organizationId == organizationId := rfl

theorem ensureCustomer_operates (context : OrganizationContext) :
    Ends (fun _ => True) pid
      (fun r w' => Relation.ReflTransGen (Operation env pid) w w' ∧ ∀ customer, r = .ok customer →
        w'.store.customerOf context.organizationId = some customer)
      (ensureCustomer env context) w := by
  unfold ensureCustomer
  refine Ends.statement (fun found s' hm => ?_) fun _ _ => ⟨.refl, nofun⟩
  obtain ⟨hfound, rfl⟩ := Table.findFirst_ok.mp hm
  cases found with
  | some customer => exact ⟨.refl, fun c hc => by cases hc; exact hfound.symm⟩
  | none =>
    have hnone : w.store.customerOf context.organizationId = none := hfound.symm
    apply Ends.bind
    apply (quietCall_operates fun _ => rfl).mono
    rintro r w₁ ⟨hw, remote, hstore⟩
    cases r with
    | error e => exact ⟨hw, nofun⟩
    | ok customerId =>
      have hnone' : w₁.store.customerOf context.organizationId = none := by rw [hstore]; exact hnone
      change Ends _ pid _ (Process.statement _) w₁
      rw [← Process.bind_pure (Process.statement _)]
      refine Ends.statement (fun customer s' hm => ?_) fun _ _ => ⟨hw, nofun⟩
      rcases Table.upsert_ok.mp hm with ⟨-, -, rfl, rfl⟩ | ⟨c, hc, -⟩
      · have hstep : Operation env pid w₁ _ :=
          .customerEnsured context.organizationId customerId hnone'
        refine Ends.pure ⟨hw.tail ?_, fun c hc => ?_⟩
        · simpa [World.advance] using hstep
        · cases hc
          rw [stripeCustomers_put, customerOf_put, stripeCustomers_rows, List.find?_append]
          change (w₁.store.customerOf _).or _ = _
          simp [hnone']
      · have hsome : w₁.store.customerOf context.organizationId = some c := hc
        rw [hnone'] at hsome
        cases hsome

theorem OnlyReserves.operates {p : Handler Remote α} (h : OnlyReserves pid p w) :
    Operates env pid p w :=
  h.mono fun _ _ hw => hw.lift id fun _ _ => Reserves.operation

theorem checkSubscription_operates (organizationId : Id) :
    Operates env pid (checkSubscription organizationId) w := by
  unfold checkSubscription
  rw [← Process.bind_pure (Process.atomically _ _)]
  refine Follows.commit (fun _ => rfl) fun i _ status s' hm => ⟨.single ?_, Follows.pure⟩
  obtain ⟨rfl, rfl⟩ := (Transaction.reads_ok _ _ _ _).mp hm
  exact .checked organizationId _

theorem createCheckoutSession_operates (context : OrganizationContext)
    (interval : BillingInterval) :
    Operates env pid (createCheckoutSession env context interval) w := by
  unfold createCheckoutSession
  refine Follows.bind (checkSubscription_operates _) fun status w₀ =>
    Follows.rejectIf fun _ => Follows.learn (ensureCustomer_operates context) ?_
  intro customer w₁ hcustomer
  -- the reservation leaves the customer as it was read
  refine Follows.learn (K := fun _ w₂ => w₂.store.customerOf context.organizationId = some customer)
    ((reserveAttempts_only _ _ _).mono fun _ w₂ h =>
      ⟨h.lift id fun _ _ => Reserves.operation, fun _ _ => ?_⟩) ?_
  · rw [Reserves.customerOf h]
    exact hcustomer
  · intro reservation w₂ hcustomer
    split
    · exact Follows.pure
    · refine Follows.bind (Follows.handle ?_ fun e w₃ => ?_) fun session w₃ => ?_
      · exact (callStripe_operates
          (.checkoutRequested _ context interval customer _ _ hcustomer)).mono fun _ _ h => h.1
      · exact Follows.bind (releases_only _).operates fun _ _ => Follows.throw
      · refine Follows.commit (fun _ => rfl) fun i _ u s' hm => ⟨.single ?_, Follows.pure⟩
        simp only [recordSession, Transaction.bind_ok, uuidv7_ok, Transaction.pure_ok] at hm
        obtain ⟨_, _, ⟨-, rfl⟩, _, _, hupsert, -, rfl⟩ := hm
        obtain ⟨-, rfl⟩ := upsert_put hupsert
        exact .reservations _ _ none (by simp)

/-! ## Webhooks -/

theorem writeBillingCause_operates (organizationId : Id) (eventId : String)
    (cause : BillingNotificationCause) (createdAt : Time) :
    Operates env pid (writeBillingCause organizationId eventId cause createdAt) w := by
  unfold writeBillingCause
  rw [← Process.bind_pure (Process.atomically _ _)]
  refine Follows.commit (fun _ => rfl) fun i _ u s' hm => ⟨?_, Follows.pure⟩
  obtain ⟨organization, _, hfound, hnote⟩ := (Transaction.bind_ok _ _ _ _ _).mp hm
  obtain ⟨-, rfl⟩ := findOrganization_ok.mp hfound
  rcases writeNotification_ok hnote with rfl | ⟨rows, rfl⟩
  · exact .single (.notified w.store.nextId w.store.notifications)
  · exact .single (.notified _ rows)

theorem syncSubscription_operates (sub : ProviderSubscription) (eventCreatedAt : Time)
    (syncContext : SubscriptionSyncContext) :
    Operates env pid (syncSubscription env sub eventCreatedAt syncContext) w := by
  unfold syncSubscription
  refine Follows.query ?_
  split
  · exact Follows.pure
  · rename_i organizationId _
    split
    · exact Follows.pure
    · split
      · exact Follows.pure
      · rename_i interval _
        refine Follows.commit (fun _ => rfl) fun i _ plan s' hm => ?_
        obtain ⟨-, rfl⟩ := findPlan_ok.mp hm
        rw [World.advance_idle]
        refine ⟨.refl, Ends.atomically (fun i _ existing s' hm => ?_) fun i _ e hm => by cases hm⟩
        obtain ⟨rfl, rfl⟩ := Table.findFirst_ok.mp hm
        refine Follows.after ?_ (.single (.subscriptionRead organizationId))
        split
        · split
          · exact writeBillingCause_operates _ _ _ _
          · exact Follows.pure
        · rename_i hlater
          refine Follows.commit (fun _ => rfl) fun i _ written s' hm => ⟨?_, Follows.pure⟩
          obtain ⟨rfl, nextId, notifications, rfl⟩ := writeSubscription_ok hm
          refine .single (.synced organizationId plan.id interval sub eventCreatedAt nextId
            notifications fun r hr => ?_)
          have hread : w.store.subscriptions.find? (fun r => r.organizationId == organizationId) =
            some r := hr
          simpa [hread] using hlater

theorem retrieveAndSync_operates (subscriptionId : String) (eventCreatedAt : Time)
    (eventId : String) :
    Operates env pid (retrieveAndSync env subscriptionId eventCreatedAt eventId) w :=
  Follows.bind ((quietCall_operates fun _ => rfl).mono fun _ _ h => h.1)
    fun sub _ => syncSubscription_operates sub eventCreatedAt _

theorem processCheckout_operates (event : BillingWebhookEvent) (sessionId customerId : String)
    (organizationId : Option Id) (subscriptionId : Option String) :
    Operates env pid
      (processCheckout env event sessionId customerId organizationId subscriptionId) w := by
  unfold processCheckout
  refine Follows.bind (releases_only _).operates fun _ w₁ => ?_
  cases organizationId with
  | none =>
    cases subscriptionId with
    | none => exact Follows.pure
    | some subscriptionId => exact retrieveAndSync_operates _ _ _
  | some organizationId =>
    refine Follows.commit (fun _ => rfl) fun i _ c s' hm => ?_
    obtain ⟨-, rfl⟩ := upsert_put hm
    refine ⟨.single (.customerPut organizationId customerId), ?_⟩
    cases subscriptionId with
    | none => exact Follows.pure
    | some subscriptionId => exact retrieveAndSync_operates _ _ _

theorem cancelForCharge_operates (chargeId : String) (eventCreatedAt : Time) (eventId : String)
    (cause : BillingNotificationCause) :
    Operates env pid (cancelForCharge env chargeId eventCreatedAt eventId cause) w := by
  unfold cancelForCharge
  refine Follows.bind ((quietCall_operates fun _ => rfl).mono fun _ _ h => h.1)
    fun subscriptionId w₁ => ?_
  cases subscriptionId with
  | none => exact Follows.pure
  | some subscriptionId =>
    exact Follows.bind ((quietCall_operates fun _ => rfl).mono fun _ _ h => h.1)
      fun sub _ => syncSubscription_operates sub eventCreatedAt _

theorem processEvent_operates (event : BillingWebhookEvent) :
    Operates env pid (processEvent env event) w := by
  unfold processEvent
  split
  · exact processCheckout_operates _ _ _ _ _
  · exact retrieveAndSync_operates _ _ _
  · exact retrieveAndSync_operates _ _ _
  · exact Follows.pure
  · split
    · exact cancelForCharge_operates _ _ _ _
    · exact Follows.pure
  · split
    · exact cancelForCharge_operates _ _ _ _
    · exact Follows.pure
  · exact Follows.pure

theorem markProcessed_operates (event : BillingWebhookEvent) :
    Operates env pid (markProcessed event) w := by
  refine Follows.handle (Follows.commit (fun _ => rfl) fun i _ e s' hm => ?_) fun e w' => ?_
  · obtain ⟨-, -, rfl⟩ := Table.create_ok.mp hm
    exact ⟨.single (.processed _), Follows.pure⟩
  · split
    · exact Follows.pure
    · exact Follows.throw

theorem process_operates (rawBody signature : String) :
    Operates env pid (process env rawBody signature) w := by
  unfold process
  refine Follows.ask fun i _ => ?_
  split
  · exact Follows.throw
  · refine Follows.query ?_
    split
    · exact Follows.pure
    · exact Follows.bind (processEvent_operates _) fun _ _ => markProcessed_operates _

theorem handler_operates (r : Request Remote) : Operates env pid (handler env r) w := by
  cases r with
  | createCheckoutSession context interval =>
    exact Follows.bind (createCheckoutSession_operates context interval) fun _ _ => Follows.pure
  | webhook rawBody signature => exact process_operates rawBody signature
  | stripeChanges remote =>
    simp only [handler]
    rw [← Process.bind_pure (Process.atomically _ _)]
    refine Ends.atomically (fun i _ u s' hm => ?_) fun i _ e hm => by cases hm
    rw [(Transaction.writes_ok _ _ _ _).mp hm]
    exact .single (.stripe remote (some .stripeChanged) (by simp))

end Steps
end ShipFlow.Billing
