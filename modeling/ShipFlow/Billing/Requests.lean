import ShipFlow.Billing.Effects

/-! Every action of a billing request is an effect, whatever the other requests do in
between. -/

namespace ShipFlow.Billing
open Interleaving Interleaving.Discipline Relational

variable {Remote : Type} {env : Environment Remote} {pid : Nat} {w : World Remote} {α : Type}

/-! ## Checkout -/

/-- What a call and its answer show, and no effect falsifies, is known from then on. -/
theorem callStripe_learns {call : StripeCall α} {I : α → World Remote → Prop}
    (hI : ∀ a, (discipline env).Stable (I a))
    (h : ∀ (w' : World Remote) a, (call.perform env.stripe w'.store.stripe).1 = .ok a →
      I a (w'.advance pid
        ({ w'.store with stripe := (call.perform env.stripe w'.store.stripe).2 },
          call.observed (.ok a)))) :
    Ensures (discipline env).contract pid (fun r w => ∀ a, r = .ok a → I a w)
      (callStripe env call) w := by
  unfold callStripe
  refine Ensures.atomically (fun w' _ _ i answer s' hm => ?_) fun _ _ _ i e hm => by cases hm
  cases hm
  have hcall : Effect env pid w' _ := .called call
  refine ⟨True.intro, hcall, ?_⟩
  cases hanswer : (call.perform env.stripe w'.store.stripe).1 with
  | ok a =>
    refine Ensures.done fun w'' hw _ b heq => ?_
    cases heq
    exact Contract.concurrent_stable (hI a) hw (h w' a hanswer)
  | error e => exact Ensures.fail fun _ _ _ _ heq => by cases heq

theorem callStripe_keeps (call : StripeCall α) :
    (discipline env).Keeps pid (callStripe env call) w :=
  (callStripe_learns (I := fun _ _ => True) (fun _ => (discipline env).stable_true)
    fun _ _ _ => True.intro).mono fun _ _ _ _ => True.intro

theorem releaseReservations_keeps (release : Release) :
    (discipline env).Keeps pid (releaseReservations release : Handler Remote Nat) w := by
  unfold releaseReservations
  rw [← Process.bind_pure (Process.atomically _ _)]
  refine Keeps.commit (fun _ => rfl) (fun w' i n s' hm => ?_) fun _ _ => Keeps.pure _
  obtain ⟨-, rfl⟩ := Table.deleteMany_ok.mp hm
  exact .released release

theorem findReservation_keeps (p : BillingCheckoutSession → Bool) :
    (discipline env).Keeps pid
      (Process.statement (checkoutSessions.findFirst p) : Handler Remote _) w := by
  rw [← Process.bind_pure (Process.statement _)]
  refine Keeps.commit (fun _ => rfl) (fun w' i found s' hm => ?_) fun _ _ => Keeps.pure _
  obtain ⟨-, rfl⟩ := Table.findFirst_ok.mp hm
  rw [World.advance_idle]
  exact .idle

section Reserving
variable {organizationId : Id}

theorem tryReserve_keeps {interval : BillingInterval} {now : Time}
    {retry : Handler Remote BillingCheckoutSession}
    (hretry : ∀ w', Unsubscribed pid organizationId w' → (discipline env).Keeps pid retry w')
    (hi : Unsubscribed pid organizationId w) :
    (discipline env).Keeps pid (tryReserve organizationId interval now retry) w := by
  have hI : (discipline env).Stable (Unsubscribed pid organizationId) :=
    unsubscribed_stable pid organizationId
  refine Keeps.handle_known hI hi ?_ fun e w' hi' => ?_
  · rw [← Process.bind_pure (Process.atomically _ _)]
    refine Keeps.commit_known hI hi (fun _ => rfl) (fun w' i c s' _ hi' hm => ?_)
      fun _ _ => Keeps.pure _
    simp only [newReservation, Transaction.bind_ok, uuidv7_ok, Table.create_ok] at hm
    obtain ⟨_, _, ⟨-, rfl⟩, _, _, ⟨-, rfl⟩, hsound, rfl, rfl⟩ := hm
    exact .reserved _ _ (soundReservations_of_sound hsound) rfl hi'
  · split
    · exact hretry w' hi'
    · exact Keeps.throw e

theorem reserveAttempts_keeps (interval : BillingInterval) (attempts : Nat)
    (hi : Unsubscribed pid organizationId w) :
    (discipline env).Keeps pid (reserveAttempts organizationId interval attempts) w := by
  have hI : (discipline env).Stable (Unsubscribed pid organizationId) :=
    unsubscribed_stable pid organizationId
  induction attempts generalizing w with
  | zero => exact Keeps.throw _
  | succ attempts ih =>
    have hreserve : ∀ now w', Unsubscribed pid organizationId w' →
        (discipline env).Keeps pid (tryReserve organizationId interval now
          (reserveAttempts organizationId interval attempts) : Handler Remote _) w' :=
      fun now w' => tryReserve_keeps fun _ => ih
    refine Keeps.ask fun now => Keeps.frame hI (findReservation_keeps _) hi fun found w' hi' => ?_
    cases found with
    | none => exact hreserve _ _ hi'
    | some existing =>
      change (discipline env).Keeps pid (if _ then _ else _) w'
      split
      · split
        · refine Keeps.frame hI (releaseReservations_keeps _) hi' fun n w₁ hi₁ => ?_
          split
          · exact ih hi₁
          · exact hreserve _ _ hi₁
        · exact Keeps.rejectIf fun _ => Keeps.pure _
      · exact Keeps.frame hI (releaseReservations_keeps _) hi' fun n w₁ => hreserve _ _

end Reserving

theorem upsertCustomer_keeps {p : StripeCustomer → Bool} {r : StripeCustomer}
    {f : StripeCustomer → StripeCustomer} {k : StripeCustomer → Handler Remote α}
    (hk : ∀ c w', (discipline env).Keeps pid (k c) w') :
    (discipline env).Keeps pid (Process.statement (stripeCustomers.upsert p r f) >>= k) w := by
  refine Keeps.commit (fun _ => rfl) (fun w' i c s' hm => ?_) hk
  obtain ⟨-, rfl⟩ := upsert_put hm
  exact .customers _

theorem ensureCustomer_keeps (context : OrganizationContext) :
    (discipline env).Keeps pid (ensureCustomer env context) w := by
  unfold ensureCustomer
  refine Keeps.commit (fun _ => rfl) (fun w' i found s' hm => ?_) fun found w' => ?_
  · obtain ⟨-, rfl⟩ := Table.findFirst_ok.mp hm
    rw [World.advance_idle]
    exact .idle
  · cases found with
    | some customer => exact Keeps.pure _
    | none =>
      refine Keeps.bind (callStripe_keeps _) fun customerId w₁ => ?_
      rw [← Process.bind_pure (Process.statement _)]
      exact upsertCustomer_keeps fun _ _ => Keeps.pure _

theorem checkSubscription_then {organizationId : Id}
    {k : Option SubscriptionStatus → Handler Remote α}
    (hk : ∀ status w', (pid, .subscriptionChecked organizationId status) ∈ w'.trace →
      (discipline env).Keeps pid (k status) w') :
    (discipline env).Keeps pid (checkSubscription organizationId >>= k) w :=
  Keeps.reads (fun w' _ => .checked organizationId _) fun w' _ => hk _ _ (by simp)

/-- A session that Stripe gives is known to belong to the key, also when the request has
failed and released its reservation. -/
theorem requestSession_answers (input : CheckoutInput) (requestKey reservationId : Id) :
    Ensures (discipline env).contract pid
      (fun r w => ∀ session, r = .ok session → Answered pid requestKey session w)
      (tryCatch (callStripe env (.createCheckoutSession input requestKey)) fun error => do
        let _ ← releaseReservations (.failed reservationId requestKey)
        throw error) w := by
  apply Ensures.handle
  refine (callStripe_learns (answered_stable pid requestKey) fun w' session _ =>
    ⟨input, ?_⟩).mono fun r w' _ hr => ?_
  · simp [StripeCall.observed, Except.toOption]
  · cases r with
    | ok session =>
      refine Ensures.done fun w'' hw _ a heq => ?_
      cases heq
      exact Contract.concurrent_stable (answered_stable pid requestKey session) hw (hr session rfl)
    | error e =>
      -- the error is thrown on, so there is no session
      apply Ensures.bind
      apply (releaseReservations_keeps _).mono
      intro r w₁ _ _
      cases r with
      | ok n => exact Ensures.fail fun _ _ _ _ heq => by cases heq
      | error e' => exact Ensures.fail fun _ _ _ _ heq => by cases heq

theorem createCheckoutSession_keeps (context : OrganizationContext) (interval : BillingInterval) :
    (discipline env).Keeps pid (createCheckoutSession env context interval) w := by
  unfold createCheckoutSession
  -- what the check has found is known up to the reservation
  refine checkSubscription_then fun status w₁ hchecked => Keeps.rejectIf fun hstatus => ?_
  have hI : (discipline env).Stable (Unsubscribed pid context.organizationId) :=
    unsubscribed_stable pid context.organizationId
  refine Keeps.frame hI (ensureCustomer_keeps context) ⟨status, hchecked, hstatus⟩
    fun customer w₂ hi => Keeps.bind (reserveAttempts_keeps _ _ hi) fun reservation w₃ => ?_
  split
  · exact Keeps.pure _
  · refine Keeps.learn (requestSession_answers _ _ _) fun session w₄ hanswered => ?_
    refine Keeps.commit_known (answered_stable pid _ session) hanswered (fun _ => rfl)
      (fun w' i u s' _ hanswered hm => ?_) fun _ _ => Keeps.pure _
    simp only [recordSession, Transaction.bind_ok, uuidv7_ok, Transaction.pure_ok] at hm
    obtain ⟨_, _, ⟨-, rfl⟩, _, _, hupsert, -, rfl⟩ := hm
    obtain ⟨hsound, rfl⟩ := upsert_put hupsert
    exact .recorded _ reservation _ interval session _ _ (soundReservations_of_sound hsound)
      hanswered

/-! ## Webhooks -/

theorem writeBillingCause_keeps (organizationId : Id) (eventId : String)
    (cause : BillingNotificationCause) (createdAt : Time) :
    (discipline env).Keeps pid (writeBillingCause organizationId eventId cause createdAt) w := by
  unfold writeBillingCause
  rw [← Process.bind_pure (Process.atomically _ _)]
  refine Keeps.commit (fun _ => rfl) (fun w' i u s' hm => ?_) fun _ _ => Keeps.pure _
  obtain ⟨organization, _, hfound, hnote⟩ := (Transaction.bind_ok _ _ _ _ _).mp hm
  obtain ⟨-, rfl⟩ := findOrganization_ok.mp hfound
  rcases writeNotification_ok hnote with rfl | ⟨rows, rfl⟩
  · exact .notified w'.store.nextId w'.store.notifications
  · exact .notified _ rows

/-- The row that a request reads is the one that its transaction finds, unless others have
synced the organization in between. -/
theorem readSubscription_then {organizationId : Id} {k : Option Subscription → Handler Remote α}
    (hk : ∀ existing w', Found pid organizationId
        (existing.map Subscription.lastStripeEventCreatedAt) w' →
      (discipline env).Keeps pid (k existing) w') :
    (discipline env).Keeps pid (readSubscription organizationId >>= k) w := by
  refine Ensures.atomically (fun w' _ _ i existing s' hm => ?_) fun _ _ _ i e hm => by cases hm
  obtain ⟨rfl, rfl⟩ := Table.findFirst_ok.mp hm
  refine ⟨True.intro, .subscriptionRead organizationId, hk _ _ ⟨w'.trace, [], rfl, rfl⟩⟩

theorem syncSubscription_keeps (sub : ProviderSubscription) (eventCreatedAt : Time)
    (syncContext : SubscriptionSyncContext) :
    (discipline env).Keeps pid (syncSubscription env sub eventCreatedAt syncContext) w := by
  unfold syncSubscription
  refine Keeps.query fun w₁ _ => ?_
  split
  · exact Keeps.pure _
  · rename_i organizationId _
    split
    · exact Keeps.pure _
    · split
      · exact Keeps.pure _
      · rename_i interval _
        refine Keeps.commit (fun _ => rfl) (fun w' i plan s' hm => ?_) fun plan w₂ => ?_
        · obtain ⟨-, rfl⟩ := findPlan_ok.mp hm
          rw [World.advance_idle]
          exact .idle
        · refine readSubscription_then fun existing w₃ hfound => ?_
          split
          · split
            · exact writeBillingCause_keeps _ _ _ _
            · exact Keeps.pure _
          · rename_i hlater
            refine Keeps.commit_known (found_stable pid organizationId _) hfound (fun _ => rfl)
              (fun w' i written s' _ hfound hm => ?_) fun _ _ => Keeps.pure _
            obtain ⟨rfl, nextId, notifications, rfl⟩ := writeSubscription_ok hm
            refine .synced _ nextId _ notifications _ hfound fun t ht => ?_
            change t < eventCreatedAt
            obtain ⟨r, rfl, rfl⟩ := Option.map_eq_some_iff.mp ht
            simpa using hlater

theorem retrieveAndSync_keeps (subscriptionId : String) (eventCreatedAt : Time) (eventId : String) :
    (discipline env).Keeps pid (retrieveAndSync env subscriptionId eventCreatedAt eventId) w :=
  Keeps.bind (callStripe_keeps _)
    fun sub _ => syncSubscription_keeps sub eventCreatedAt _

theorem processCheckout_keeps (event : BillingWebhookEvent) (sessionId customerId : String)
    (organizationId : Option Id) (subscriptionId : Option String) :
    (discipline env).Keeps pid
      (processCheckout env event sessionId customerId organizationId subscriptionId) w := by
  unfold processCheckout
  refine Keeps.bind (releaseReservations_keeps _) fun _ w₁ => ?_
  cases subscriptionId with
  | none =>
    cases organizationId with
    | none => exact Keeps.pure _
    | some organizationId => exact upsertCustomer_keeps fun _ _ => Keeps.pure _
  | some subscriptionId =>
    cases organizationId with
    | none => exact retrieveAndSync_keeps _ _ _
    | some organizationId => exact upsertCustomer_keeps fun _ _ => retrieveAndSync_keeps _ _ _

theorem cancelForCharge_keeps (chargeId : String) (eventCreatedAt : Time) (eventId : String)
    (cause : BillingNotificationCause) :
    (discipline env).Keeps pid (cancelForCharge env chargeId eventCreatedAt eventId cause) w := by
  unfold cancelForCharge
  refine Keeps.bind (callStripe_keeps _) fun subscriptionId w₁ => ?_
  cases subscriptionId with
  | none => exact Keeps.pure _
  | some subscriptionId =>
    exact Keeps.bind (callStripe_keeps _) fun sub _ => syncSubscription_keeps sub eventCreatedAt _

theorem processEvent_keeps (event : BillingWebhookEvent) :
    (discipline env).Keeps pid (processEvent env event) w := by
  unfold processEvent
  split
  · exact processCheckout_keeps _ _ _ _ _
  · exact retrieveAndSync_keeps _ _ _
  · exact retrieveAndSync_keeps _ _ _
  · exact Keeps.pure _
  · split
    · exact cancelForCharge_keeps _ _ _ _
    · exact Keeps.pure _
  · split
    · exact cancelForCharge_keeps _ _ _ _
    · exact Keeps.pure _
  · exact Keeps.pure _

theorem markProcessed_keeps (event : BillingWebhookEvent) :
    (discipline env).Keeps pid (markProcessed event) w := by
  refine Keeps.handle (Keeps.commit (fun _ => rfl) (fun w' i e s' hm => ?_)
    fun _ _ => Keeps.pure _) fun e w' => ?_
  · obtain ⟨-, -, rfl⟩ := Table.create_ok.mp hm
    exact .processed _
  · split
    · exact Keeps.pure _
    · exact Keeps.throw _

theorem process_keeps (rawBody signature : String) :
    (discipline env).Keeps pid (process env rawBody signature) w := by
  unfold process
  refine Keeps.ask fun i => ?_
  split
  · exact Keeps.throw _
  · refine Keeps.query fun w₁ _ => ?_
    split
    · exact Keeps.pure _
    · exact Keeps.bind (processEvent_keeps _) fun _ _ => markProcessed_keeps _

theorem handler_keeps (env : Environment Remote) (r : Request Remote) :
    (discipline env).Keeps pid (handler env r) w := by
  cases r with
  | createCheckoutSession context interval =>
    exact Keeps.bind (createCheckoutSession_keeps context interval) fun _ _ => Keeps.pure _
  | webhook rawBody signature => exact process_keeps rawBody signature
  | stripeChanges remote =>
    simp only [handler]
    rw [← Process.bind_pure (Process.atomically _ _)]
    refine Ensures.atomically (fun w' _ _ i u s' hm => ?_) fun _ _ _ i e hm => by cases hm
    rw [(Transaction.writes_ok _ _ _ _).mp hm]
    exact ⟨True.intro, .stripeChanged remote, Keeps.pure _⟩

end ShipFlow.Billing
