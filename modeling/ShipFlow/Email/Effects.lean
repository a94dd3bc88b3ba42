import ShipFlow.Email.TransactionalEmailService
import ShipFlow.Interleaving.Discipline

/-! What the requests of the e-mail service do to the rows, action by action. A request
writes to no delivery once it has noted the acceptance of its message. -/

namespace ShipFlow.Email
open Interleaving Interleaving.Discipline Relational

/-- A store that the service can have come to: the unique indexes hold, and no event has
reached a row without the id of a message. -/
structure Store.Consistent (s : Store) : Prop extends s.Sound where
  waiting : ∀ d ∈ s.emailDeliveries, d.providerMessageId = none → d.lastEventAt = none

/-- The request has not noted the acceptance of a message in this row. -/
def Unsent (pid : Nat) (deliveryId : Id) (w : World) : Prop :=
  ∀ messageId, (pid, .sent deliveryId messageId) ∉ w.trace

def SoundDeliveries (rows : List EmailDelivery) : Prop :=
  rows.Pairwise fun a b => a.collides b = false

def Store.touched (s : Store) (deliveryId : Id) (f : EmailDelivery → EmailDelivery) : Store :=
  { s with emailDeliveries := updateRows (fun d => d.id == deliveryId) f s.emailDeliveries }

/-- An update that has nothing to do with the message or its events. -/
def Unaddressed (f : EmailDelivery → EmailDelivery) : Prop :=
  ∀ d, (f d).id = d.id ∧ (f d).idempotencyKey = d.idempotencyKey ∧
    (f d).providerMessageId = d.providerMessageId ∧ (f d).lastEventAt = d.lastEventAt

/-- Only the requests in `Sender` deliver, and only the events in `Reported` arrive. -/
inductive Effect (Sender : Nat → Prop) (Reported : String → WebhookEventPayload → Prop)
    (pid : Nat) (w : World) : World → Prop where
  | idle : Effect Sender Reported pid w w
  | created (d : EmailDelivery) (hsender : Sender pid) (hmessage : d.providerMessageId = none)
      (hlast : d.lastEventAt = none) (hsound : SoundDeliveries (w.store.emailDeliveries ++ [d])) :
    Effect Sender Reported pid w (w.advance pid
      ({ w.store with
          nextId := w.store.nextId + 1
          emailDeliveries := w.store.emailDeliveries ++ [d] }, []))
  | found (hsender : Sender pid) :
    Effect Sender Reported pid w (w.advance pid
      ({ w.store with nextId := w.store.nextId + 1 }, []))
  | sendCalled (message : EmailMessage) (idempotencyKey : String) (messageId : Option String) :
    Effect Sender Reported pid w (w.advance pid
      (w.store, [.sendCalled message idempotencyKey messageId]))
  | touched (deliveryId : Id) (f : EmailDelivery → EmailDelivery) (hsender : Sender pid)
      (hunsent : Unsent pid deliveryId w) (hf : Unaddressed f) :
    Effect Sender Reported pid w (w.advance pid (w.store.touched deliveryId f, []))
  | sent (deliveryId : Id) (messageId : String) (now : Time) (hsender : Sender pid)
      (hunsent : Unsent pid deliveryId w)
      (hsound : SoundDeliveries
        (w.store.touched deliveryId (EmailDelivery.markSent messageId now)).emailDeliveries) :
    Effect Sender Reported pid w (w.advance pid
      (w.store.touched deliveryId (EmailDelivery.markSent messageId now),
        [.sent deliveryId messageId]))
  | recorded (eventId : String) (event : WebhookEventPayload) (hreported : Reported eventId event)
      (hnew : ¬ w.store.Recorded eventId) :
    Effect Sender Reported pid w (w.advance pid
      (w.store.record eventId event, [.eventRecorded eventId event]))

section Effects
variable {Sender : Nat → Prop} {Reported : String → WebhookEventPayload → Prop} {pid : Nat}
  {w w' : World} {s : Store}

theorem Effect.trace (h : Effect Sender Reported pid w w') :
    ∃ es : List Event, w'.trace = w.trace ++ es.map fun e => (pid, e) := by
  cases h with
  | idle => exact ⟨[], by simp⟩
  | created | found | touched => exact ⟨[], rfl⟩
  | sendCalled message idempotencyKey messageId => exact ⟨[_], rfl⟩
  | sent deliveryId messageId => exact ⟨[_], rfl⟩
  | recorded eventId event => exact ⟨[_], rfl⟩

theorem collides_unaddressed {f : EmailDelivery → EmailDelivery} (hf : Unaddressed f)
    (a b : EmailDelivery) :
    (f a).collides b = a.collides b ∧ a.collides (f b) = a.collides b := by
  obtain ⟨hid, hkey, hmessage, -⟩ := hf a
  obtain ⟨hid', hkey', hmessage', -⟩ := hf b
  rw [EmailDelivery.collides, EmailDelivery.collides, EmailDelivery.collides, hid, hkey, hmessage,
    hid', hkey', hmessage']
  exact ⟨rfl, rfl⟩

theorem SoundDeliveries.touched {deliveryId : Id} {f : EmailDelivery → EmailDelivery}
    (h : SoundDeliveries s.emailDeliveries) (hf : Unaddressed f) :
    SoundDeliveries (s.touched deliveryId f).emailDeliveries := by
  rw [SoundDeliveries, Store.touched, ← distinct_iff_pairwise,
    distinct_updateRows (collides_unaddressed hf), distinct_iff_pairwise]
  exact h

/-- A row that no event has reached still has no date when an event of another message, or
none at all, comes in. -/
theorem Store.Consistent.record {eventId : String} {event : WebhookEventPayload}
    (h : s.Consistent) (hnew : ¬ s.Recorded eventId) : (s.record eventId event).Consistent := by
  refine ⟨h.toSound.record hnew, fun d' hd' hnone => ?_⟩
  obtain ⟨d, hd, rfl⟩ := List.mem_map.mp hd'
  rw [(observe_keys event d).2.2] at hnone
  rw [observe_other (by rw [hnone, Option.bind_none])]
  exact h.waiting d hd hnone

theorem Effect.consistent (he : Effect Sender Reported pid w w') (h : w.store.Consistent) :
    w'.store.Consistent := by
  cases he with
  | idle => exact h
  | created d hsender hmessage hlast hsound =>
    refine ⟨⟨hsound, h.events⟩, fun d' hd' hnone => ?_⟩
    rcases List.mem_append.mp hd' with hd' | hd'
    · exact h.waiting d' hd' hnone
    · rw [List.mem_singleton.mp hd']
      exact hlast
  | found => exact ⟨⟨h.deliveries, h.events⟩, h.waiting⟩
  | sendCalled => exact h
  | touched deliveryId f hsender hunsent hf =>
    refine ⟨⟨SoundDeliveries.touched h.deliveries hf, h.events⟩, fun d' hd' hnone => ?_⟩
    rcases mem_updateRows.mp hd' with ⟨hd', -⟩ | ⟨d, hd, -, rfl⟩
    · exact h.waiting d' hd' hnone
    · rw [(hf d).2.2.2]
      exact h.waiting d hd ((hf d).2.2.1.symm.trans hnone)
  | sent deliveryId messageId now hsender hunsent hsound =>
    refine ⟨⟨hsound, h.events⟩, fun d' hd' hnone => ?_⟩
    rcases mem_updateRows.mp hd' with ⟨hd', -⟩ | ⟨d, -, -, rfl⟩
    · exact h.waiting d' hd' hnone
    · cases hnone
  | recorded eventId event hreported hnew => exact h.record hnew

end Effects

abbrev discipline (Sender : Nat → Prop) (Reported : String → WebhookEventPayload → Prop) :
    Discipline Store Event where
  inv w := w.store.Consistent
  effect := Effect Sender Reported
  idle _ _ := .idle
  kept _ _ _ he h := he.consistent h

section Requests
variable {Sender : Nat → Prop} {Reported : String → WebhookEventPayload → Prop} {pid : Nat}
  {w w' : World}

theorem discipline_logs (Sender : Nat → Prop) (Reported : String → WebhookEventPayload → Prop) :
    (discipline Sender Reported).Logs := fun _ _ _ he => he.trace

theorem Unsent.rely {deliveryId : Id} (h : Unsent pid deliveryId w)
    (hw : (discipline Sender Reported).contract.rely pid w w') : Unsent pid deliveryId w' :=
  fun messageId hmem => h messageId ((discipline_logs Sender Reported).own hw hmem)

theorem Unsent.advance {deliveryId : Id} (h : Unsent pid deliveryId w) {s : Store} {es : List Event}
    (hes : ∀ messageId, .sent deliveryId messageId ∉ es) :
    Unsent pid deliveryId (w.advance pid (s, es)) := by
  intro messageId hmem
  rcases List.mem_append.mp hmem with hmem | hmem
  · exact h messageId hmem
  · obtain ⟨e, he, heq⟩ := List.mem_map.mp hmem
    cases heq
    exact hes messageId he

/-! ## Deliveries -/

/-- An update of the row of a delivery, as long as the request has not noted the acceptance. -/
theorem touch_ensures {α : Type} {Q : Except EmailFailure α → World → Prop} {deliveryId : Id}
    {f : EmailDelivery → EmailDelivery} {k : EmailDelivery → Handler α} (hsender : Sender pid)
    (hf : Unaddressed f) (hunsent : Unsent pid deliveryId w)
    (hok : ∀ d w', Unsent pid deliveryId w' →
      Ensures (discipline Sender Reported).contract pid Q (k d) w')
    (hfail : ∀ e w', Unsent pid deliveryId w' → Q (.error e) w') :
    Ensures (discipline Sender Reported).contract pid Q (touch deliveryId f >>= k) w := by
  unfold touch Process.statement
  refine Ensures.atomically_quiet ((discipline Sender Reported).idle pid) (fun _ => rfl)
    (fun w₁ hw hinv i d s' h => ?_) fun w₁ hw hinv i e h w₂ hw' _ => ?_
  · obtain ⟨d₀, -, -, -, rfl⟩ := Table.update_ok.mp h
    have hunsent₁ := hunsent.rely hw
    have he : Effect Sender Reported pid w₁ _ := .touched deliveryId f hsender hunsent₁ hf
    exact ⟨he.consistent hinv, he, hok d _ (hunsent₁.advance fun _ h => by cases h)⟩
  · exact hfail e w₂ ((hunsent.rely hw).rely hw')

theorem unaddressed_startAttempt : Unaddressed EmailDelivery.startAttempt :=
  fun _ => ⟨rfl, rfl, rfl, rfl⟩

theorem unaddressed_markAttemptFailed (error : EmailProviderError) (isFinalAttempt : Bool)
    (now : Time) : Unaddressed (EmailDelivery.markAttemptFailed error isFinalAttempt now) :=
  fun _ => ⟨rfl, rfl, rfl, rfl⟩

theorem unaddressed_markUnexpectedFailure (code : String) (now : Time) :
    Unaddressed (EmailDelivery.markUnexpectedFailure code now) :=
  fun _ => ⟨rfl, rfl, rfl, rfl⟩

/-- What the end of an attempt says: a message was sent and noted, or nothing was noted. -/
def Attempted (pid : Nat) (deliveryId : Id) :
    Except EmailFailure (Option EmailDeliveryResult) → World → Prop
  | .ok (some result), w => ∃ messageId, result = ⟨some deliveryId, some messageId, .sent⟩ ∧
      (pid, .sent deliveryId messageId) ∈ w.trace
  | .ok none, w => Unsent pid deliveryId w
  | .error _, w => Unsent pid deliveryId w

theorem attempt_ensures (hsender : Sender pid) {deliveryId : Id} (hunsent : Unsent pid deliveryId w)
    (idempotencyKey : String) (message : EmailMessage) (number : Nat) :
    Ensures (discipline Sender Reported).contract pid (Attempted pid deliveryId)
      (attempt deliveryId idempotencyKey message number) w := by
  unfold attempt
  refine touch_ensures hsender unaddressed_startAttempt hunsent (fun _ w₁ hunsent₁ => ?_)
    fun _ _ h => h
  refine Ensures.handle (Ensures.mono (Q := Attempted pid deliveryId) ?_ fun r w₂ _ hr => ?_)
  · -- the provider, then the note in the row
    refine Ensures.atomically (fun w₂ hw hinv i messageId s' h => ?_) fun w₂ hw hinv i e h => ?_
    -- the call is a step of its own, which leaves the store as it is
    · have hs : s' = w₂.store := by
        cases ha : i.answer with
        | ok a =>
          rw [ha] at h
          exact (congrArg Prod.snd (Except.ok.inj h)).symm
        | error e =>
          rw [ha] at h
          cases h
      subst hs
      have hunsent₂ : Unsent pid deliveryId (w₂.advance pid
          (w₂.store, [.sendCalled message idempotencyKey (some messageId)])) :=
        (hunsent₁.rely hw).advance fun _ h => by simp at h
      refine ⟨hinv, .sendCalled message idempotencyKey (some messageId), ?_⟩
      refine Ensures.ask ((discipline Sender Reported).idle pid) fun now => ?_
      refine Ensures.atomically_quiet ((discipline Sender Reported).idle pid) (fun _ => rfl)
        (fun w₃ hw₃ hinv₃ i d s' h => ?_) fun w₃ hw₃ _ i e _ w₄ hw₄ _ => ?_
      · obtain ⟨d₀, -, hsound, -, rfl⟩ := Table.update_ok.mp h
        have he : Effect Sender Reported pid w₃ _ := .sent deliveryId messageId now hsender
          (hunsent₂.rely hw₃) ((deliveries_sound w₃.store _).mp hsound)
        refine ⟨he.consistent hinv₃, he, fun w₄ hw₄ _ => ⟨messageId, rfl, ?_⟩⟩
        exact (discipline_logs Sender Reported).mem hw₄
          (List.mem_append_right _ (List.mem_singleton_self _))
      · exact (hunsent₂.rely hw₃).rely hw₄
    · have hunsent₂ : Unsent pid deliveryId (w₂.advance pid
          (w₂.store, [.sendCalled message idempotencyKey none])) :=
        (hunsent₁.rely hw).advance fun _ h => by simp at h
      exact ⟨hinv, .sendCalled message idempotencyKey none, fun w₃ hw₃ _ => hunsent₂.rely hw₃⟩
  · cases r with
    | ok result =>
      intro w₃ hw₃ _
      cases result with
      | none => exact Unsent.rely hr hw₃
      | some result =>
        obtain ⟨messageId, hresult, hmem⟩ := hr
        exact ⟨messageId, hresult, (discipline_logs Sender Reported).mem hw₃ hmem⟩
    | error e =>
      refine Ensures.ask ((discipline Sender Reported).idle pid) fun now => ?_
      refine touch_ensures hsender (unaddressed_markAttemptFailed _ _ now) hr
        (fun _ w₃ hunsent₃ => ?_) fun _ _ h => h
      exact Ensures.rejectIf (fun _ _ hw _ => hunsent₃.rely hw) fun _ _ hw _ => hunsent₃.rely hw

/-- What the end of a delivery says. -/
def Delivered (pid : Nat) (deliveryId : Id) : Except EmailFailure EmailDeliveryResult → World → Prop
  | .ok result, w => result.status = .sent → ∃ messageId,
      result.providerMessageId = some messageId ∧ (pid, .sent deliveryId messageId) ∈ w.trace
  | .error _, w => Unsent pid deliveryId w

theorem attempts_ensures (hsender : Sender pid) {deliveryId : Id} (idempotencyKey : String)
    (message : EmailMessage) (remaining number : Nat) (hunsent : Unsent pid deliveryId w) :
    Ensures (discipline Sender Reported).contract pid (Delivered pid deliveryId)
      (attempts deliveryId idempotencyKey message remaining number) w := by
  induction remaining generalizing number w with
  | zero =>
    intro w' _ _ hsent
    cases hsent
  | succ remaining ih =>
    unfold attempts
    refine Ensures.bind ((attempt_ensures hsender hunsent idempotencyKey message number).mono
      fun r w₁ _ hr => ?_)
    cases r with
    | ok result =>
      cases result with
      | none => exact ih (number + 1) hr
      | some result =>
        obtain ⟨messageId, rfl, hmem⟩ := hr
        intro w₂ hw _ _
        exact ⟨messageId, rfl, (discipline_logs Sender Reported).mem hw hmem⟩
    | error e => exact fun w₂ hw _ => Unsent.rely hr hw

theorem attemptDelivery_ensures (hsender : Sender pid) {deliveryId : Id} (previousAttempts : Nat)
    (idempotencyKey : String) (message : EmailMessage) (hunsent : Unsent pid deliveryId w) :
    Ensures (discipline Sender Reported).contract pid (Delivered pid deliveryId)
      (attemptDelivery deliveryId previousAttempts idempotencyKey message) w :=
  attempts_ensures hsender idempotencyKey message _ _ hunsent

theorem deliver_keeps (env : Environment) (hsender : Sender pid) (hunused : w.Unused pid)
    (input : DeliveryInput) : (discipline Sender Reported).Keeps pid (deliver env input) w := by
  have hunsent : ∀ {w' : World} {deliveryId : Id}, w'.Unused pid → Unsent pid deliveryId w' :=
    fun hw' _ hmem => hw' _ hmem rfl
  unfold deliver
  -- the row is found or made first, and the request has reported nothing by then
  refine Keeps.learn (I := fun _ w' => w'.Unused pid) (Ensures.handle (Ensures.mono
    (Q := fun _ w' => w'.Unused pid) ?_ fun r w₁ _ hr => ?_)) fun found w₁ hunused₁ => ?_
  · refine Ensures.map ?_
    rw [← Process.bind_pure (Process.statement _)]
    unfold Process.statement
    refine Ensures.atomically_quiet ((discipline Sender Reported).idle pid) (fun _ => rfl)
      (fun w₁ hw hinv i d s' h => ?_) fun w₁ hw _ i e _ w₂ hw' _ => ?_
    · have hunused₁ := (discipline_logs Sender Reported).unused hw hunused
      have hquiet : ∀ s : Store, (w₁.advance pid (s, [])).Unused pid := by
        intro s x hx
        exact hunused₁ x (by simpa using hx)
      simp only [findOrCreate, Transaction.bind_ok, uuidv7_ok, Table.upsert_ok] at h
      obtain ⟨id, s₁, ⟨rfl, rfl⟩, ⟨-, hsound, rfl, rfl⟩ | ⟨d₀, -, -, rfl, rfl⟩⟩ := h
      · have he : Effect Sender Reported pid w₁ _ := .created _ hsender rfl rfl
          ((deliveries_sound _ _).mp hsound)
        exact ⟨he.consistent hinv, he,
          fun w₂ hw' _ => (discipline_logs Sender Reported).unused hw' (hquiet _)⟩
      -- the upsert leaves a row that is there as it is
      · have hsame : updateRows (fun d => d.idempotencyKey == idempotencyKey env input
            (env.toLowerCase (trim input.email))) (fun d => d) w₁.store.emailDeliveries =
            w₁.store.emailDeliveries := by
          simp [updateRows]
        have he : Effect Sender Reported pid w₁ _ := .found hsender
        have hstore : emailDeliveries.put (updateRows (fun d => d.idempotencyKey ==
            idempotencyKey env input (env.toLowerCase (trim input.email))) (fun d => d)
            (emailDeliveries.rows (HasIds.takeId w₁.store))) (HasIds.takeId w₁.store) =
            { w₁.store with nextId := w₁.store.nextId + 1 } := by
          simp only [emailDeliveries, HasIds.takeId, hsame]
        rw [hstore]
        exact ⟨he.consistent hinv, he,
          fun w₂ hw' _ => (discipline_logs Sender Reported).unused hw' (hquiet _)⟩
    · exact (discipline_logs Sender Reported).unused hw'
        ((discipline_logs Sender Reported).unused hw hunused)
  · cases r with
    | ok found => exact fun w₂ hw _ _ _ => (discipline_logs Sender Reported).unused hw hr
    | error e => exact fun w₂ hw _ _ _ => (discipline_logs Sender Reported).unused hw hr
  · cases found with
    | none => exact Keeps.pure _
    | some existing =>
      simp only
      split
      · exact Keeps.pure _
      · split
        · exact Keeps.pure _
        · refine Ensures.handle (Ensures.mono (Q := Delivered pid existing.id) ?_
            fun r w₂ _ hr => ?_)
          · refine Ensures.ofExcept (fun e _ w₂ hw _ => ?_) fun message _ => ?_
            · exact hunsent ((discipline_logs Sender Reported).unused hw hunused₁)
            · exact attemptDelivery_ensures hsender _ _ message (hunsent hunused₁)
          · cases r with
            | ok result => exact fun _ _ _ => True.intro
            | error e =>
              refine Keeps.bind (Ensures.handle (Ensures.mono (Q := fun _ _ => True) ?_
                fun r w₃ _ _ => ?_)) fun _ _ => Keeps.pure _
              · refine Ensures.ask ((discipline Sender Reported).idle pid) fun now => ?_
                exact touch_ensures hsender (unaddressed_markUnexpectedFailure _ now) hr
                  (fun _ _ _ => Keeps.pure _) fun _ _ _ => True.intro
              · cases r with
                | ok _ => exact fun _ _ _ => True.intro
                | error _ => exact Keeps.pure _

/-! ## Webhooks -/

/-- A webhook that has ended is recorded, now or before. -/
theorem recordEvent_ensures {eventId : String} {event : WebhookEventPayload}
    (hreported : Reported eventId event) :
    Ensures (discipline Sender Reported).contract pid (fun _ w => w.store.Recorded eventId)
      (recordEvent eventId event) w := by
  have hstable : ∀ {w w'}, (discipline Sender Reported).contract.rely pid w w' →
      w.store.Recorded eventId → w'.store.Recorded eventId := by
    intro w w' hw h
    refine Contract.concurrent_stable (I := fun w => w.store.Recorded eventId)
      (fun q w w' _ _ he h => ?_) hw h
    cases he with
    | recorded _ _ _ _ =>
      rw [World.advance_store, Store.Recorded, Store.record, List.map_append]
      exact List.mem_append_left _ h
    | _ => exact h
  unfold recordEvent
  rw [← Process.bind_pure (Process.atomically _ _)]
  refine Ensures.handle (Ensures.atomically (fun w₁ hw hinv i u s' h => ?_)
    fun w₁ hw hinv i e h => ?_)
  · obtain ⟨hnew, rfl⟩ := (record_ok hinv.toSound).mp h
    have he : Effect Sender Reported pid w₁ _ := .recorded eventId event hreported hnew
    refine ⟨he.consistent hinv, he, fun w₂ hw' _ w₃ hw'' _ => hstable hw'' (hstable hw' ?_)⟩
    simp [Store.Recorded, Store.record]
  · obtain ⟨hrecorded, rfl⟩ := record_error hinv.toSound h
    rw [World.advance_idle]
    exact ⟨hinv, .idle, fun w₂ hw' _ w₃ hw'' _ => hstable hw'' (hstable hw' hrecorded)⟩

/-- What the end of a request says. -/
def Ended (pid : Nat) : Request → Except EmailFailure Response → World → Prop
  | .attemptDelivery deliveryId _ _ _, .ok (.delivery result), w =>
    Delivered pid deliveryId (.ok result) w
  | .recordEvent eventId _, _, w => w.store.Recorded eventId
  | _, _, _ => True

theorem handler_ensures (env : Environment) (r : Request) (hunused : w.Unused pid)
    (hsender : (∀ eventId event, r ≠ .recordEvent eventId event) → Sender pid)
    (hreported : ∀ eventId event, r = .recordEvent eventId event → Reported eventId event) :
    Ensures (discipline Sender Reported).contract pid (Ended pid r) (handler env r) w := by
  cases r with
  | deliver input =>
    exact Ensures.map ((deliver_keeps env (hsender fun _ _ h => by cases h) hunused input).mono
      fun _ _ _ _ => True.intro)
  | attemptDelivery deliveryId previousAttempts idempotencyKey message =>
    refine Ensures.map ((attemptDelivery_ensures (hsender fun _ _ h => by cases h) previousAttempts
      idempotencyKey message fun _ hmem => hunused _ hmem rfl).mono fun r w _ hr => ?_)
    cases r with
    | ok result => exact hr
    | error e => exact True.intro
  | recordEvent eventId event =>
    exact Ensures.map ((recordEvent_ensures (hreported eventId event rfl)).mono fun _ _ _ h => h)

/-- Whatever is requested, in any interleaving, the store stays consistent. -/
theorem run_consistent (env : Environment) {s : Store} (hs : s.Consistent)
    (acts : List (Action Request Input)) :
    ((Config.init s : Email.Config).run (handler env) acts).world.store.Consistent := by
  have hmeets : Config.Meets (discipline (fun _ => True) fun _ _ => True).inv
      (discipline (fun _ => True) fun _ _ => True).effect (fun r pid => Ended pid r)
      (Config.init s : Email.Config) := Config.Meets.init hs
  exact (hmeets.run fun r _ pid w _ hunused => handler_ensures env r hunused
    (fun _ => True.intro) fun _ _ _ => True.intro).holds

theorem consistent_empty : Store.empty.Consistent :=
  ⟨⟨List.Pairwise.nil, List.nodup_nil⟩, fun _ h => by cases h⟩

end Requests
end ShipFlow.Email
