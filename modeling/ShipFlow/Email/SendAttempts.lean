import ShipFlow.Email.Effects
import ShipFlow.Interleaving.Serial

/-! Deliveries under one idempotency key, one after the other, each of which may crash between
any two of its actions. The budget of attempts is kept in the row, and a request counts on from
what it finds there. -/

namespace ShipFlow.Email
open Interleaving Relational

/-- How often the provider was called under the key. -/
def sends (key : String) (t : List (Nat × Event)) : Nat :=
  t.countP fun x => match x.2 with
    | .sendCalled _ idempotencyKey _ => idempotencyKey == key
    | _ => false

def Store.delivery? (s : Store) (key : String) : Option EmailDelivery :=
  s.emailDeliveries.find? fun d => d.idempotencyKey == key

/-- The row of the key has the id of a message. -/
def Store.Accepted (s : Store) (key : String) : Prop :=
  ∃ d, s.delivery? key = some d ∧ d.providerMessageId.isSome

instance (s : Store) (key : String) : Decidable (s.Accepted key) :=
  decidable_of_iff ((s.delivery? key).any fun d => d.providerMessageId.isSome) (by
    rw [Option.any_eq_true]
    rfl)

def Request.Delivers : Request → Prop
  | .deliver _ => True
  | _ => False

instance : DecidablePred Request.Delivers
  | .deliver _ => inferInstanceAs (Decidable True)
  | .attemptDelivery .. => inferInstanceAs (Decidable False)
  | .recordEvent .. => inferInstanceAs (Decidable False)

/-- A call of `deliver` with this key, or an event of the provider. -/
def Request.Under (env : Environment) (key : String) : Request → Prop
  | .deliver input => idempotencyKey env input (env.toLowerCase (trim input.email)) = key
  | .attemptDelivery .. => False
  | .recordEvent .. => True

instance (env : Environment) (key : String) : DecidablePred (Request.Under env key)
  | .deliver input => inferInstanceAs (Decidable
      (idempotencyKey env input (env.toLowerCase (trim input.email)) = key))
  | .attemptDelivery .. => inferInstanceAs (Decidable False)
  | .recordEvent .. => inferInstanceAs (Decidable True)

/-! ## The books -/

structure Account where
  id : Id
  attempts : Nat
  providerMessageId : Option String
  deriving DecidableEq, Repr

def EmailDelivery.account (d : EmailDelivery) : Account := ⟨d.id, d.attempts, d.providerMessageId⟩

/-- The calls of the provider, and what the row says of them. -/
def ledger (key : String) (w : World) : Nat × Option Account :=
  (sends key w.trace, (w.store.delivery? key).map EmailDelivery.account)

/-- The row accounts for every call of the provider. -/
structure Balanced (key : String) (w : World) : Prop where
  sound : w.store.Sound
  unsent : w.store.delivery? key = none → sends key w.trace = 0
  bounded : ∀ d, w.store.delivery? key = some d →
    sends key w.trace ≤ d.attempts ∧ d.attempts ≤ MAX_DELIVERY_ATTEMPTS
  accepted : ∀ d, w.store.delivery? key = some d → d.status = .sent ∨ d.status = .delivered →
    d.providerMessageId.isSome
  /-- an empty id is not taken for one, but no event can be about it either -/
  empty : ∀ d, w.store.delivery? key = some d → d.providerMessageId = some "" →
    d.status = .sent ∨ d.status = .delivered

/-- Once the row has the id of a message, the books are closed. -/
def bookkeeping (key : String) : Contract Store Event where
  rely _ w w' := ledger key w' = ledger key w
  inv := Balanced key
  guar _ w w' := w.store.Accepted key → ledger key w' = ledger key w
  rely_refl _ _ := rfl
  rely_trans _ _ _ _ h h' := h'.trans h

/-- What the end of a request says. -/
def Answered (key : String) : Request → Except EmailFailure Response → World → Prop
  | .deliver _, .ok (.delivery result), w => result.status = .sent → w.store.Accepted key
  | _, _, _ => True

/-- The row has taken `n` attempts and no message was accepted. -/
def Open (key : String) (deliveryId : Id) (n : Nat) (w : World) : Prop :=
  ∃ m ≤ n, ledger key w = (m, some ⟨deliveryId, n, none⟩)

section Books
variable {key : String} {pid n m : Nat} {w w' : World} {deliveryId : Id} {s : Store}
  {d : EmailDelivery} {f : EmailDelivery → EmailDelivery}

theorem ledger_some (h : ledger key w = (m, some ⟨deliveryId, n, none⟩)) :
    sends key w.trace = m ∧ ∃ d, w.store.delivery? key = some d ∧ d.id = deliveryId ∧
      d.attempts = n ∧ d.providerMessageId = none := by
  rw [ledger, Prod.mk.injEq, Option.map_eq_some_iff] at h
  obtain ⟨hsends, d, hd, haccount⟩ := h
  rw [EmailDelivery.account, Account.mk.injEq] at haccount
  exact ⟨hsends, d, hd, haccount⟩

theorem accepted_iff : w.store.Accepted key ↔
    ∃ a, (ledger key w).2 = some a ∧ a.providerMessageId.isSome := by
  rw [Store.Accepted, ledger]
  constructor
  · rintro ⟨d, hd, hsome⟩
    exact ⟨d.account, by rw [hd, Option.map_some], hsome⟩
  · rintro ⟨a, ha, hsome⟩
    obtain ⟨d, hd, rfl⟩ := Option.map_eq_some_iff.mp ha
    exact ⟨d, hd, hsome⟩

/-- The books are open as long as no message is accepted. -/
theorem Open.not_accepted (h : ledger key w = (m, some ⟨deliveryId, n, none⟩)) :
    ¬ w.store.Accepted key := by
  rw [accepted_iff, h]
  rintro ⟨a, ha, hsome⟩
  cases ha
  cases hsome

theorem sends_append (t t' : List (Nat × Event)) :
    sends key (t ++ t') = sends key t + sends key t' := List.countP_append

theorem delivery_touched (hf : ∀ d, (f d).idempotencyKey = d.idempotencyKey)
    (hd : s.delivery? key = some d) (hid : d.id = deliveryId) :
    (s.touched deliveryId f).delivery? key = some (f d) := by
  have hkey : ∀ d : EmailDelivery,
      ((f d).idempotencyKey == key) = (d.idempotencyKey == key) := fun d => by rw [hf d]
  unfold Store.delivery? at hd ⊢
  rw [Store.touched, find?_updateRows_map _ hkey, hd, Option.map_some, if_pos (beq_iff_eq.mpr hid)]

/-- An update of the open row that has nothing to do with the message. -/
theorem Balanced.touched (h : Balanced key w) (hd : w.store.delivery? key = some d)
    (hid : d.id = deliveryId) (hnone : d.providerMessageId = none) (hf : Unaddressed f)
    (hstatus : (f d).status ≠ .sent ∧ (f d).status ≠ .delivered)
    (hmore : d.attempts ≤ (f d).attempts) (hmax : (f d).attempts ≤ MAX_DELIVERY_ATTEMPTS) :
    Balanced key (w.advance pid (w.store.touched deliveryId f, [])) := by
  have hrow : (w.store.touched deliveryId f).delivery? key = some (f d) :=
    delivery_touched (fun d => (hf d).2.1) hd hid
  have hopen : (f d).providerMessageId = none := (hf d).2.2.1.trans hnone
  have htrace : sends key (w.advance pid (w.store.touched deliveryId f, [])).trace =
      sends key w.trace := by
    rw [World.advance_trace, List.map_nil, List.append_nil]
  constructor
  · exact ⟨SoundDeliveries.touched h.sound.deliveries hf, h.sound.events⟩
  · intro hmissing
    rw [World.advance_store, hrow] at hmissing
    cases hmissing
  · intro d' hd'
    rw [World.advance_store, hrow, Option.some.injEq] at hd'
    subst hd'
    rw [htrace]
    exact ⟨Nat.le_trans (h.bounded d hd).1 hmore, hmax⟩
  · intro d' hd' hs
    rw [World.advance_store, hrow, Option.some.injEq] at hd'
    subst hd'
    exact absurd hs (not_or.mpr hstatus)
  · intro d' hd' hempty
    rw [World.advance_store, hrow, Option.some.injEq] at hd'
    subst hd'
    rw [hopen] at hempty
    cases hempty

/-- An update of the row in the course of a delivery, one step of the request. -/
theorem touch_balanced {α : Type} {Q : Except EmailFailure α → World → Prop}
    {k : EmailDelivery → Handler α} {j : Nat} (hf : Unaddressed f)
    (hattempts : ∀ d, (f d).attempts = d.attempts + j)
    (hstatus : ∀ d, (f d).status ≠ .sent ∧ (f d).status ≠ .delivered)
    (h : ledger key w = (m, some ⟨deliveryId, n, none⟩)) (hn : n + j ≤ MAX_DELIVERY_ATTEMPTS)
    (hok : ∀ d w', ledger key w' = (m, some ⟨deliveryId, n + j, none⟩) →
      Ensures (bookkeeping key) pid Q (k d) w')
    (hfail : ∀ e w', ledger key w' = (m, some ⟨deliveryId, n, none⟩) → Q (.error e) w') :
    Ensures (bookkeeping key) pid Q (touch deliveryId f >>= k) w := by
  unfold touch Process.statement
  refine Ensures.atomically_quiet (fun _ _ => rfl) (fun _ => rfl) (fun w₁ hw hinv i d s' hupdate => ?_)
    fun w₁ hw hinv i e _ w₂ hw' _ => ?_
  · obtain ⟨d₀, -, -, -, rfl⟩ := Table.update_ok.mp hupdate
    have hledger : ledger key w₁ = (m, some ⟨deliveryId, n, none⟩) := hw.trans h
    obtain ⟨hsends, d, hd, hid, rfl, hnone⟩ := ledger_some hledger
    refine ⟨?_, fun haccepted => absurd haccepted (Open.not_accepted hledger), hok _ _ ?_⟩
    · exact hinv.touched hd hid hnone hf (hstatus d) (by rw [hattempts d]; omega)
        (by rw [hattempts d]; exact hn)
    · have hrow := delivery_touched (s := w₁.store) (fun d => (hf d).2.1) hd hid
      have haccount : (f d).account = ⟨deliveryId, d.attempts + j, none⟩ := by
        rw [EmailDelivery.account, (hf d).1, (hf d).2.2.1, hattempts d, hid, hnone]
      show ledger key (w₁.advance pid (w₁.store.touched deliveryId f, [])) = _
      rw [ledger, World.advance_trace, List.map_nil, List.append_nil, World.advance_store, hrow,
        Option.map_some, haccount, hsends]
  · exact hfail e w₂ (hw'.trans (hw.trans h))

/-- The provider is called once more, within the budget. -/
theorem Balanced.sendCalled (h : Balanced key w)
    (hledger : ledger key w = (m, some ⟨deliveryId, n, none⟩)) (hm : m < n) (pid : Nat)
    (message : EmailMessage) (messageId : Option String) :
    Balanced key (w.advance pid (w.store, [.sendCalled message key messageId])) ∧
      ledger key (w.advance pid (w.store, [.sendCalled message key messageId])) =
        (m + 1, some ⟨deliveryId, n, none⟩) := by
  have hsends : sends key (w.advance pid (w.store, [.sendCalled message key messageId])).trace =
      sends key w.trace + 1 := by
    rw [World.advance_trace, sends_append]
    simp [sends]
  obtain ⟨hcount, d, hd, hid, rfl, hnone⟩ := ledger_some hledger
  refine ⟨⟨h.sound, fun hmissing => ?_, fun d' hd' => ?_, h.accepted, h.empty⟩, ?_⟩
  · rw [World.advance_store, hd] at hmissing
    cases hmissing
  · rw [World.advance_store, hd, Option.some.injEq] at hd'
    subst hd'
    rw [hsends, hcount]
    exact ⟨hm, (h.bounded d hd).2⟩
  · rw [ledger, Prod.mk.injEq] at hledger ⊢
    exact ⟨by rw [hsends, hcount], hledger.2⟩

/-- The acceptance is noted in the open row. -/
theorem Balanced.markSent (h : Balanced key w)
    (hledger : ledger key w = (m, some ⟨deliveryId, n, none⟩)) (pid : Nat) {messageId : String}
    {now : Time} (hsound : SoundDeliveries
      (w.store.touched deliveryId (EmailDelivery.markSent messageId now)).emailDeliveries) :
    let w' := w.advance pid (w.store.touched deliveryId (EmailDelivery.markSent messageId now),
      [.sent deliveryId messageId])
    Balanced key w' ∧ w'.store.Accepted key := by
  intro w'
  obtain ⟨hcount, d, hd, hid, -, -⟩ := ledger_some hledger
  have hrow : w'.store.delivery? key = some (EmailDelivery.markSent messageId now d) :=
    delivery_touched (fun _ => rfl) hd hid
  have hsends : sends key w'.trace = sends key w.trace := by
    rw [World.advance_trace, sends_append]
    simp [sends]
  refine ⟨⟨⟨hsound, h.sound.events⟩, fun hmissing => ?_, fun d' hd' => ?_, fun d' hd' _ => ?_,
    fun d' hd' _ => ?_⟩, _, hrow, rfl⟩
  · rw [hrow] at hmissing
    cases hmissing
  · rw [hrow, Option.some.injEq] at hd'
    subst hd'
    rw [hsends]
    exact h.bounded d hd
  · rw [hrow, Option.some.injEq] at hd'
    subst hd'
    rfl
  · rw [hrow, Option.some.injEq] at hd'
    subst hd'
    exact .inl rfl

end Books

/-! ## The requests -/

section Requests
variable {key : String} {pid n : Nat} {w : World} {deliveryId : Id}

theorem unaddressed_attempts (error : EmailProviderError) (isFinalAttempt : Bool) (now : Time)
    (d : EmailDelivery) :
    (EmailDelivery.markAttemptFailed error isFinalAttempt now d).attempts = d.attempts + 0 ∧
      (EmailDelivery.markAttemptFailed error isFinalAttempt now d).status ≠ .sent ∧
      (EmailDelivery.markAttemptFailed error isFinalAttempt now d).status ≠ .delivered := by
  cases isFinalAttempt <;> simp [EmailDelivery.markAttemptFailed]

/-- What the call of the provider brings: the message was accepted, or `n` attempts are used
up. -/
def Called (key : String) (deliveryId : Id) (n : Nat) :
    Except EmailFailure (Option EmailDeliveryResult) → World → Prop
  | .ok (some _), w => w.store.Accepted key
  | _, w => Open key deliveryId n w

/-- What the end of an attempt says. An attempt may fail before it is counted. -/
def Spent (key : String) (deliveryId : Id) (n : Nat)
    (r : Except EmailFailure (Option EmailDeliveryResult)) (w : World) : Prop :=
  Called key deliveryId (n + 1) r w ∨ (∃ e, r = .error e) ∧ Open key deliveryId n w

theorem Open.of_ledger {w' : World} (h : Open key deliveryId n w)
    (hw : ledger key w' = ledger key w) : Open key deliveryId n w' := by
  obtain ⟨m, hm, hledger⟩ := h
  exact ⟨m, hm, hw.trans hledger⟩

theorem Accepted.of_ledger {w' : World} (h : w.store.Accepted key)
    (hw : ledger key w' = ledger key w) : w'.store.Accepted key := by
  rw [accepted_iff] at h ⊢
  rw [hw]
  exact h

/-- The row counts an attempt before the provider is called. -/
theorem attempt_spends (h : Open key deliveryId n w) (hn : n < MAX_DELIVERY_ATTEMPTS)
    (message : EmailMessage) (number : Nat) :
    Ensures (bookkeeping key) pid (Spent key deliveryId n)
      (attempt deliveryId key message number) w := by
  obtain ⟨m, hm, hledger⟩ := h
  unfold attempt
  refine touch_balanced (j := 1) unaddressed_startAttempt (fun _ => rfl) (fun _ => by
    simp [EmailDelivery.startAttempt]) hledger hn (fun _ w₁ hledger₁ => ?_)
    fun e w₁ hledger₁ => .inr ⟨⟨e, rfl⟩, m, hm, hledger₁⟩
  have hcalled : ∀ {r w₂ w₃}, ledger key w₃ = ledger key w₂ →
      Called key deliveryId (n + 1) r w₂ → Called key deliveryId (n + 1) r w₃ := by
    intro r w₂ w₃ hw hr
    rcases r with e | _ | result
    · exact Open.of_ledger hr hw
    · exact Open.of_ledger hr hw
    · exact Accepted.of_ledger hr hw
  refine Ensures.handle (Ensures.mono (Q := Called key deliveryId (n + 1)) ?_ fun r w₂ _ hr => ?_)
  · refine Ensures.atomically (fun w₂ hw hinv i messageId s' hsend => ?_)
      fun w₂ hw hinv i e hsend => ?_
    · have hs : s' = w₂.store := by
        cases ha : i.answer with
        | ok a =>
          rw [ha] at hsend
          exact (congrArg Prod.snd (Except.ok.inj hsend)).symm
        | error e =>
          rw [ha] at hsend
          cases hsend
      subst hs
      have hledger₂ := hw.trans hledger₁
      obtain ⟨hinv₂, hcount⟩ := hinv.sendCalled hledger₂ (by omega) pid message (some messageId)
      refine ⟨hinv₂, fun haccepted => absurd haccepted (Open.not_accepted hledger₂), ?_⟩
      refine Ensures.ask (fun _ _ => rfl) fun now => ?_
      refine Ensures.atomically_quiet (fun _ _ => rfl) (fun _ => rfl)
        (fun w₃ hw₃ hinv₃ i d s' hupdate => ?_) fun w₃ hw₃ _ i e _ w₄ hw₄ _ => ?_
      · obtain ⟨d₀, -, hsound, -, rfl⟩ := Table.update_ok.mp hupdate
        have hledger₃ := hw₃.trans hcount
        obtain ⟨hinv₄, haccepted⟩ := hinv₃.markSent hledger₃ pid
          ((deliveries_sound w₃.store _).mp hsound)
        refine ⟨hinv₄, fun hbefore => absurd hbefore (Open.not_accepted hledger₃), ?_⟩
        exact fun w₄ hw₄ _ => Accepted.of_ledger haccepted hw₄
      · -- the message has gone out, and the row stays open
        exact ⟨m + 1, by omega, hw₄.trans (hw₃.trans hcount)⟩
    · have hledger₂ := hw.trans hledger₁
      obtain ⟨hinv₂, hcount⟩ := hinv.sendCalled hledger₂ (by omega) pid message none
      refine ⟨hinv₂, fun haccepted => absurd haccepted (Open.not_accepted hledger₂), ?_⟩
      exact fun w₃ hw₃ _ => ⟨m + 1, by omega, hw₃.trans hcount⟩
  · cases r with
    | ok result => exact fun w₃ hw₃ _ => .inl (hcalled hw₃ hr)
    | error e =>
      obtain ⟨m', hm', hledger'⟩ := hr
      refine Ensures.ask (fun _ _ => rfl) fun now => ?_
      refine touch_balanced (j := 0) (unaddressed_markAttemptFailed _ _ now)
        (fun d => (unaddressed_attempts _ _ now d).1) (fun d => (unaddressed_attempts _ _ now d).2)
        hledger' hn (fun _ w₃ hledger₃ => ?_) fun e w₃ hledger₃ => .inl ⟨m', hm', hledger₃⟩
      have hopen : Open key deliveryId (n + 1) w₃ := ⟨m', hm', hledger₃⟩
      exact Ensures.rejectIf (fun _ w₄ hw₄ _ => .inl (hopen.of_ledger hw₄))
        fun _ w₄ hw₄ _ => .inl (hopen.of_ledger hw₄)

/-- The loop counts on from the attempts in the row and ends with the budget. -/
theorem attempts_spend (message : EmailMessage) (remaining number : Nat)
    (h : Open key deliveryId n w) (hn : n + remaining = MAX_DELIVERY_ATTEMPTS) :
    Ensures (bookkeeping key) pid (fun r w => match r with
      | .ok result => result.status = .sent → w.store.Accepted key
      | .error _ => ∃ n' ≤ MAX_DELIVERY_ATTEMPTS, Open key deliveryId n' w)
      (attempts deliveryId key message remaining number) w := by
  induction remaining generalizing n number w with
  | zero =>
    intro w' _ _ hsent
    cases hsent
  | succ remaining ih =>
    unfold attempts
    refine Ensures.bind ((attempt_spends h (by omega) message number).mono fun r w₁ _ hr => ?_)
    cases r with
    | ok result =>
      rcases hr with hr | ⟨⟨e, he⟩, -⟩
      · cases result with
        | none => exact ih (number + 1) hr (by omega)
        | some result => exact fun w₂ hw _ _ => Accepted.of_ledger hr hw
      · cases he
    | error e =>
      rcases hr with hr | ⟨-, hr⟩
      · exact fun w₂ hw _ => ⟨n + 1, by omega, hr.of_ledger hw⟩
      · exact fun w₂ hw _ => ⟨n, by omega, hr.of_ledger hw⟩

/-- What a delivery learns from the row that it finds or creates. -/
structure Found (key : String) (existing : EmailDelivery) (w : World) : Prop where
  noted : ∃ m ≤ existing.attempts, ledger key w = (m, some existing.account)
  bounded : existing.attempts ≤ MAX_DELIVERY_ATTEMPTS
  accepted : existing.status = .sent ∨ existing.status = .delivered →
    existing.providerMessageId.isSome
  empty : existing.providerMessageId = some "" →
    existing.status = .sent ∨ existing.status = .delivered

theorem Found.of_ledger {existing : EmailDelivery} {w' : World} (h : Found key existing w)
    (hw : ledger key w' = ledger key w) : Found key existing w' := by
  obtain ⟨m, hm, hledger⟩ := h.noted
  exact ⟨⟨m, hm, hw.trans hledger⟩, h.bounded, h.accepted, h.empty⟩

theorem Balanced.found {existing : EmailDelivery} (h : Balanced key w)
    (hd : w.store.delivery? key = some existing) : Found key existing w := by
  have hledger : ledger key w = (sends key w.trace, some existing.account) := by
    rw [ledger, hd, Option.map_some]
  exact ⟨⟨_, (h.bounded existing hd).1, hledger⟩, (h.bounded existing hd).2,
    h.accepted existing hd, h.empty existing hd⟩

/-- The row is found, or created while nothing has been sent. -/
theorem findOrCreate_found (hinv : Balanced key w) {category : EmailCategory}
    {provider email : String} {existing : EmailDelivery} {s' : Store}
    (h : findOrCreate category provider email key w.store = .ok (existing, s')) (pid : Nat) :
    Balanced key (w.advance pid (s', [])) ∧ Found key existing (w.advance pid (s', [])) ∧
      (w.store.Accepted key → ledger key (w.advance pid (s', [])) = ledger key w) := by
  have htrace : ∀ s : Store, (w.advance pid (s, [])).trace = w.trace := fun s => by
    rw [World.advance_trace, List.map_nil, List.append_nil]
  simp only [findOrCreate, Transaction.bind_ok, uuidv7_ok, Table.upsert_ok] at h
  obtain ⟨id, s₁, ⟨rfl, rfl⟩, ⟨hnone, hsound, rfl, rfl⟩ | ⟨d, hd, -, rfl, rfl⟩⟩ := h
  -- a new row: nothing has been sent under a key without one
  · have hzero : sends key w.trace = 0 := hinv.unsent hnone
    set created := EmailDelivery.create (HasIds.nextId w.store) category provider email key
      with hcreated
    have hrow : (w.advance pid (emailDeliveries.put
        (emailDeliveries.rows (HasIds.takeId w.store) ++ [created]) (HasIds.takeId w.store),
          [])).store.delivery? key = some created := by
      have hold : (HasIds.takeId w.store).emailDeliveries.find?
          (fun d => d.idempotencyKey == key) = none := hnone
      rw [World.advance_store, Store.delivery?]
      simp only [emailDeliveries, List.find?_append, hold, Option.none_or]
      simp [hcreated, EmailDelivery.create]
    have hbalanced : Balanced key (w.advance pid (emailDeliveries.put
        (emailDeliveries.rows (HasIds.takeId w.store) ++ [created]) (HasIds.takeId w.store), [])) := by
      refine ⟨⟨(deliveries_sound _ _).mp hsound, hinv.sound.events⟩, fun hmissing => ?_,
        fun d hd => ?_, fun d hd hstatus => ?_, fun d hd hempty => ?_⟩
      · rw [hrow] at hmissing
        cases hmissing
      · rw [hrow, Option.some.injEq] at hd
        rw [htrace, hzero, ← hd]
        exact ⟨Nat.zero_le _, Nat.zero_le _⟩
      · rw [hrow, Option.some.injEq] at hd
        rw [← hd] at hstatus
        simp [hcreated, EmailDelivery.create] at hstatus
      · rw [hrow, Option.some.injEq] at hd
        rw [← hd] at hempty
        cases hempty
    refine ⟨hbalanced, hbalanced.found hrow, fun haccepted => ?_⟩
    obtain ⟨d, hd, -⟩ := haccepted
    rw [Store.delivery?] at hd
    cases hnone.symm.trans hd
  -- the row is there, and the upsert leaves it as it is
  · have hsame : updateRows (fun d => d.idempotencyKey == key) (fun d => d)
        (emailDeliveries.rows (HasIds.takeId w.store)) = w.store.emailDeliveries := by
      simp [updateRows, emailDeliveries, HasIds.takeId]
    rw [hsame]
    have hrow : w.store.delivery? key = some existing := hd
    have hbalanced : Balanced key (w.advance pid
        (emailDeliveries.put w.store.emailDeliveries (HasIds.takeId w.store), [])) := by
      refine ⟨⟨hinv.sound.deliveries, hinv.sound.events⟩, ?_, ?_, hinv.accepted, hinv.empty⟩
      · rw [htrace]
        exact hinv.unsent
      · rw [htrace]
        exact hinv.bounded
    refine ⟨hbalanced, hbalanced.found hrow, fun _ => ?_⟩
    rw [ledger, htrace]
    rfl

theorem deliver_answers (env : Environment) {input : DeliveryInput}
    (hkey : idempotencyKey env input (env.toLowerCase (trim input.email)) = key) :
    Ensures (bookkeeping key) pid (fun r w => match r with
      | .ok result => result.status = .sent → w.store.Accepted key
      | .error _ => True) (deliver env input) w := by
  subst hkey
  set key := idempotencyKey env input (env.toLowerCase (trim input.email))
  unfold deliver
  refine Ensures.bind (Ensures.mono
    (Q := fun r w => ∀ existing, r = .ok (some existing) → Found key existing w)
    (Ensures.handle (Ensures.mono
      (Q := fun r w => ∀ existing, r = .ok (some existing) → Found key existing w)
      ?_ fun r w₁ _ hr => ?_)) fun r w₁ _ hr => ?_)
  · refine Ensures.map ?_
    rw [← Process.bind_pure (Process.statement _)]
    unfold Process.statement
    refine Ensures.atomically_quiet (fun _ _ => rfl) (fun _ => rfl)
      (fun w₁ _ hinv i existing s' h => ?_) fun _ _ _ _ _ _ _ _ _ _ h => by cases h
    obtain ⟨hbalanced, hfound, hguar⟩ := findOrCreate_found hinv h pid
    refine ⟨hbalanced, hguar, fun w₂ hw _ _ heq => ?_⟩
    cases heq
    exact hfound.of_ledger hw
  · rcases r with e | _ | existing
    · exact fun _ _ _ _ h => by cases h
    · exact fun _ _ _ _ h => by cases h
    · intro w₂ hw _ _ heq
      cases heq
      exact Found.of_ledger (hr existing rfl) hw
  · rcases r with e | _ | existing
    · exact fun _ _ _ => True.intro
    · exact fun _ _ _ hsent => by cases hsent
    · have hfound : Found key existing w₁ := hr existing rfl
      obtain ⟨m, hm, hledger⟩ := hfound.noted
      simp only
      split
      · -- found sent or delivered
        rename_i hstatus
        intro w₂ hw _ _
        refine Accepted.of_ledger (accepted_iff.mpr ⟨existing.account, ?_, ?_⟩) hw
        · rw [hledger]
        · exact hfound.accepted (by simpa using hstatus)
      · rename_i hstatus
        split
        · exact fun _ _ _ hsent => by cases hsent
        · rename_i hmore
          simp only [Bool.or_eq_true, decide_eq_true_eq, not_or, Nat.not_le] at hmore
          -- an identifier would have ended the delivery, and an empty one stands in sent rows only
          have hnone : existing.providerMessageId = none := by
            cases hid : existing.providerMessageId with
            | none => rfl
            | some messageId =>
              have hempty : messageId = "" := by simpa [hid] using hmore.1
              rw [hempty] at hid
              exact absurd (hfound.empty hid) (by simpa using hstatus)
          have hopen : Open key existing.id existing.attempts w₁ := by
            refine ⟨m, hm, hledger.trans ?_⟩
            rw [EmailDelivery.account, hnone]
          refine Ensures.handle (Ensures.mono (Q := fun r w => match r with
            | .ok result => result.status = .sent → w.store.Accepted key
            | .error _ => ∃ n ≤ MAX_DELIVERY_ATTEMPTS, Open key existing.id n w) ?_
            fun r w₂ _ hr => ?_)
          · refine Ensures.ofExcept (fun e _ w₂ hw _ => ?_) fun message _ => ?_
            · exact ⟨existing.attempts, hfound.bounded, hopen.of_ledger hw⟩
            · exact attempts_spend message _ _ hopen (by omega)
          · cases r with
            | ok result => exact fun w₃ hw _ hsent => Accepted.of_ledger (hr hsent) hw
            | error e =>
              obtain ⟨n, hn, m', hm', hledger'⟩ := hr
              refine Ensures.bind (Ensures.handle (Ensures.mono (Q := fun _ _ => True) ?_
                fun r w₃ _ _ => ?_))
              · refine Ensures.ask (fun _ _ => rfl) fun now => ?_
                refine touch_balanced (j := 0) (unaddressed_markUnexpectedFailure _ now)
                  (fun _ => rfl) (fun _ => by simp [EmailDelivery.markUnexpectedFailure]) hledger'
                  hn (fun _ _ _ _ _ _ => True.intro) fun _ _ _ => True.intro
              · rcases r with e | u
                · exact fun _ _ _ _ _ _ hsent => by cases hsent
                · exact fun _ _ _ _ _ _ hsent => by cases hsent

/-! ## The events of the provider -/

theorem observe_attempts (event : WebhookEventPayload) (d : EmailDelivery) :
    (d.observe event).attempts = d.attempts := by
  unfold EmailDelivery.observe
  split
  · split
    · unfold EmailDelivery.applyEvent
      simp only
      split
      · split <;> rfl
      · split <;> rfl
    · rfl
  · rfl

theorem observe_account (event : WebhookEventPayload) (d : EmailDelivery) :
    (d.observe event).account = d.account := by
  obtain ⟨hid, -, hmessage⟩ := observe_keys event d
  rw [EmailDelivery.account, EmailDelivery.account, hid, hmessage, observe_attempts]

/-- An event is about a row that has the id of its message. -/
theorem observe_status {event : WebhookEventPayload} {d : EmailDelivery}
    (h : d.observe event ≠ d) : ∃ messageId, d.providerMessageId = some messageId ∧
      messageId ≠ "" := by
  cases hid : d.providerMessageId with
  | none => exact absurd (observe_other (by rw [hid, Option.bind_none])) h
  | some messageId =>
    refine ⟨messageId, rfl, fun hempty => h (observe_other ?_)⟩
    rw [hid, Option.bind_some, WebhookEventPayload.entry, if_neg (fun hne => hne.1 hempty)]

theorem Balanced.record (h : Balanced key w) {eventId : String} {event : WebhookEventPayload}
    (hnew : ¬ w.store.Recorded eventId) (pid : Nat) :
    let w' := w.advance pid (w.store.record eventId event, [.eventRecorded eventId event])
    Balanced key w' ∧ ledger key w' = ledger key w := by
  intro w'
  have hsends : sends key w'.trace = sends key w.trace := by
    rw [World.advance_trace, sends_append]
    simp [sends]
  have hrow : w'.store.delivery? key = (w.store.delivery? key).map (EmailDelivery.observe event) := by
    have hkeys : (fun d : EmailDelivery => d.idempotencyKey == key) ∘ EmailDelivery.observe event =
        fun d => d.idempotencyKey == key := by
      funext d
      rw [Function.comp_apply, (observe_keys event d).2.1]
    show (w.store.emailDeliveries.map (EmailDelivery.observe event)).find? _ = _
    rw [List.find?_map, hkeys]
    rfl
  -- the event changes the status of a row, never its key, its attempts or its account
  have hfrom : ∀ d', w'.store.delivery? key = some d' → ∃ d, w.store.delivery? key = some d ∧
      d' = d.observe event := by
    intro d' hd'
    rw [hrow] at hd'
    obtain ⟨d, hd, hobserve⟩ := Option.map_eq_some_iff.mp hd'
    exact ⟨d, hd, hobserve.symm⟩
  refine ⟨⟨h.sound.record hnew, fun hnone => ?_, fun d' hd' => ?_, fun d' hd' hstatus => ?_,
    fun d' hd' hempty => ?_⟩, ?_⟩
  · rw [hrow, Option.map_eq_none_iff] at hnone
    rw [hsends]
    exact h.unsent hnone
  · obtain ⟨d, hd, rfl⟩ := hfrom d' hd'
    rw [hsends, observe_attempts]
    exact h.bounded d hd
  · obtain ⟨d, hd, rfl⟩ := hfrom d' hd'
    by_cases hsame : d.observe event = d
    · rw [hsame] at hstatus ⊢
      exact h.accepted d hd hstatus
    · obtain ⟨messageId, hid, -⟩ := observe_status hsame
      rw [(observe_keys event d).2.2, hid]
      rfl
  · obtain ⟨d, hd, rfl⟩ := hfrom d' hd'
    rw [(observe_keys event d).2.2] at hempty
    have hsame : d.observe event = d := by
      by_contra hsame
      obtain ⟨messageId, hid, hne⟩ := observe_status hsame
      rw [hid, Option.some.injEq] at hempty
      exact hne hempty
    rw [hsame]
    exact h.empty d hd hempty
  · rw [ledger, ledger, hsends, hrow, Option.map_map]
    congr 2
    funext d
    exact observe_account event d

theorem recordEvent_passive (eventId : String) (event : WebhookEventPayload) :
    Ensures (bookkeeping key).passive pid (fun _ _ => True) (recordEvent eventId event) w := by
  unfold recordEvent
  rw [← Process.bind_pure (Process.atomically _ _)]
  refine Ensures.handle (Ensures.atomically (fun w₁ _ hinv i u s' h => ?_)
    fun w₁ _ hinv i e h => ?_)
  · obtain ⟨hnew, rfl⟩ := (record_ok hinv.sound).mp h
    obtain ⟨hbalanced, hledger⟩ := hinv.record hnew pid
    exact ⟨hbalanced, fun _ => hledger, fun _ _ _ _ _ _ => True.intro⟩
  · obtain ⟨-, rfl⟩ := record_error hinv.sound h
    rw [World.advance_idle]
    exact ⟨hinv, fun _ => rfl, fun _ _ _ _ _ _ => True.intro⟩

/-! ## Runs -/

theorem bookkeeping_served (env : Environment) (key : String) :
    (bookkeeping key).Served Request.Delivers (Request.Under env key) (Answered key)
      (handler env) := by
  constructor
  · intro r hunder hdelivers pid w _
    cases r with
    | deliver input =>
      refine Ensures.map ((deliver_answers env hunder).mono fun r w _ hr => ?_)
      cases r with
      | ok result => exact hr
      | error e => exact True.intro
    | attemptDelivery => exact hunder.elim
    | recordEvent => exact hdelivers.elim
  · intro r hunder hdelivers pid w _
    cases r with
    | deliver input => exact absurd True.intro hdelivers
    | attemptDelivery => exact hunder.elim
    | recordEvent eventId event =>
      exact Ensures.map ((recordEvent_passive eventId event).mono fun _ _ _ _ => True.intro)

/-- Whatever happens next, the books of an accepted message stay as they are. -/
theorem accepted_moves {w' : World} (hmoves : (bookkeeping key).Moves w w')
    (h : w.store.Accepted key) : ledger key w' = ledger key w := by
  cases hmoves with
  | idle heq => rw [heq]
  | served pid hguar => exact hguar h
  | interfered hrely => exact hrely 0

theorem accepted_lasts {w' : World} (hmoves : Relation.ReflTransGen (bookkeeping key).Moves w w')
    (h : w.store.Accepted key) : ledger key w' = ledger key w := by
  induction hmoves with
  | refl => rfl
  | tail _ hmove ih => exact (accepted_moves hmove (Accepted.of_ledger h ih)).trans ih

theorem answered_stable (r : Request) (o : Except EmailFailure Response) {w' : World}
    (hmoves : (bookkeeping key).Moves w w') (h : Answered key r o w) : Answered key r o w' := by
  rcases r with input | _ | _
  · rcases o with e | result | _
    · exact True.intro
    · exact fun hsent => Accepted.of_ledger (h hsent) (accepted_moves hmoves (h hsent))
    · exact True.intro
  · exact True.intro
  · exact True.intro

/-- Deliveries under one key, one after the other and each of them cut short or not, call the
provider three times at most. The row keeps count, and once it has the id of a message no
other is sent. -/
theorem sends_bounded (env : Environment) {s : Store} (hs : s.Sound) {key : String}
    (hnew : s.delivery? key = none) {before after : List (Action Request Input)}
    (hunder : ∀ r, .request r ∈ before ++ after → r.Under env key)
    (hserial : OneByOne Request.Delivers [] (before ++ after)) :
    let c := (Config.init s : Email.Config).run (handler env) before
    let c' := (Config.init s : Email.Config).run (handler env) (before ++ after)
    sends key c.world.trace ≤ MAX_DELIVERY_ATTEMPTS ∧
    (∀ d, c.world.store.delivery? key = some d →
      sends key c.world.trace ≤ d.attempts ∧ d.attempts ≤ MAX_DELIVERY_ATTEMPTS) ∧
    (c.world.store.Accepted key → sends key c'.world.trace = sends key c.world.trace) ∧
    ∀ pid input result, c.outcome pid = some (.deliver input, .ok (.delivery result)) →
      result.status = .sent → c.world.store.Accepted key := by
  intro c c'
  have hserved := bookkeeping_served env key
  have hinit : Config.Serves (bookkeeping key) Request.Delivers (Answered key)
      (Config.init s : Email.Config) := by
    refine Config.Serves.init ⟨hs, fun _ => rfl, fun d hd => ?_, fun d hd => ?_, fun d hd => ?_⟩
    · cases hnew.symm.trans hd
    · cases hnew.symm.trans hd
    · cases hnew.symm.trans hd
  have hstable : ∀ r o w w', (bookkeeping key).inv w' → (bookkeeping key).Moves w w' →
      Answered key r o w → Answered key r o w' := fun r o _ _ _ => answered_stable r o
  -- the run up to the point in question and the rest of it are served alike
  obtain ⟨hbefore, hafter⟩ := OneByOne.append (handler env)
    (c := (Config.init s : Email.Config)) hserial
  obtain ⟨hserves, -⟩ := hinit.run hserved hstable
    (fun r hr => hunder r (List.mem_append_left _ hr)) hbefore
  obtain ⟨-, hmoves⟩ := hserves.run hserved hstable
    (fun r hr => hunder r (List.mem_append_right _ hr)) hafter
  rw [← Config.run_append] at hmoves
  refine ⟨?_, hserves.holds.bounded, fun haccepted => ?_, fun pid input result ho hsent => ?_⟩
  · cases hd : c.world.store.delivery? key with
    | none =>
      rw [hserves.holds.unsent hd]
      exact Nat.zero_le _
    | some d =>
      have hd' := hserves.holds.bounded d hd
      exact Nat.le_trans hd'.1 hd'.2
  · exact congrArg Prod.fst (accepted_lasts hmoves haccepted)
  · exact hserves.ended pid (.deliver input) _ ho True.intro hsent

/-- The first call crashes after its message has gone out. The second one is answered late and
then accepted, and the third one, which comes after a bounce, sends nothing. -/
theorem sends_bounded_crash :
    let env := Environment.transparent
    let input : DeliveryInput :=
      ⟨.passwordReset, "a@example.com", "token", none, none, none, none⟩
    let key := idempotencyKey env input "a@example.com"
    let late : Except EmailFailure String :=
      .error (.provider ⟨"rate_limit_exceeded", true, none⟩)
    let before : List (Action Request Input) :=
      [.request (.deliver input), .advance 0 ⟨1, late⟩, .advance 0 ⟨1, late⟩,
        .advance 0 ⟨1, .ok "first"⟩,
        .request (.deliver input), .advance 1 ⟨2, late⟩, .advance 1 ⟨2, late⟩,
        .advance 1 ⟨2, late⟩, .advance 1 ⟨2, late⟩, .advance 1 ⟨2, late⟩,
        .advance 1 ⟨3, late⟩, .advance 1 ⟨3, .ok "second"⟩, .advance 1 ⟨3, late⟩,
        .advance 1 ⟨3, late⟩]
    let after : List (Action Request Input) :=
      [.request (.recordEvent "event" ⟨"email.bounced", 4, some "second"⟩), .advance 2 ⟨5, late⟩,
        .request (.deliver input), .advance 3 ⟨6, late⟩, .advance 3 ⟨6, .ok "third"⟩]
    let c := (Config.init Store.empty : Email.Config).run (handler env) before
    let c' := (Config.init Store.empty : Email.Config).run (handler env) (before ++ after)
    sends key c.world.trace = 3 ∧ sends key c'.world.trace = sends key c.world.trace := by
  intro env input key late before after
  have hunder : ∀ r, .request r ∈ before ++ after → r.Under env key := by
    intro r hr
    simp only [before, after, List.mem_append, List.mem_cons, Action.request.injEq, reduceCtorEq,
      List.not_mem_nil, or_false, false_or] at hr
    rcases hr with (rfl | rfl) | rfl | rfl
    · decide +kernel
    · decide +kernel
    · exact True.intro
    · decide +kernel
  have hserial : OneByOne Request.Delivers [] (before ++ after) := by decide +kernel
  have haccepted : ((Config.init Store.empty : Email.Config).run (handler env)
    before).world.store.Accepted key := by decide +kernel
  have hbounded := sends_bounded env consistent_empty.toSound rfl hunder hserial
  exact ⟨by decide +kernel, hbounded.2.2.1 haccepted⟩

end Requests
end ShipFlow.Email
