import Mathlib.Data.List.Pairwise
import ShipFlow.Billing.Requests

/-! One live Checkout session or subscription per organization. -/

namespace ShipFlow.Billing
open Interleaving Interleaving.Discipline Relational

variable {Remote : Type} {env : Environment Remote}

/-! ## What Stripe holds -/

structure OpenSession where
  id : String
  organizationId : Id
  idempotencyKey : Id
  deriving DecidableEq, Repr

/-- How to read the state of Stripe: the Checkout sessions that can still be completed, the
idempotency keys that have been used for sessions, and the subscriptions that the
completed ones have led to. -/
structure StripeLedger (Remote : Type) where
  openSessions : Remote → List OpenSession
  usedKeys : Remote → List Id
  subscriptions : Remote → List StripeSubscription

def StripeSubscription.live (sub : StripeSubscription) : Bool :=
  sub.status != .canceled && sub.status != .incomplete_expired

namespace StripeLedger
variable (ledger : StripeLedger Remote)

def Live (remote : Remote) (organizationId : Id) : Prop :=
  ∃ sub ∈ ledger.subscriptions remote, sub.organizationId = some organizationId ∧ sub.live = true

instance (remote : Remote) (organizationId : Id) : Decidable (ledger.Live remote organizationId) :=
  inferInstanceAs (Decidable (∃ sub ∈ ledger.subscriptions remote,
    sub.organizationId = some organizationId ∧ sub.live = true))

/-- The session that a reservation is for is open. -/
def Opened (remote : Remote) (c : BillingCheckoutSession) : Prop :=
  ∃ session ∈ ledger.openSessions remote,
    session.organizationId = c.organizationId ∧ session.idempotencyKey = c.requestKey

instance (remote : Remote) (c : BillingCheckoutSession) : Decidable (ledger.Opened remote c) :=
  inferInstanceAs (Decidable (∃ session ∈ ledger.openSessions remote,
    session.organizationId = c.organizationId ∧ session.idempotencyKey = c.requestKey))

/-- The key has been used, for no other session than this one. -/
def Given (remote : Remote) (key : Id) (sessionId : String) : Prop :=
  key ∈ ledger.usedKeys remote ∧
    ∀ session ∈ ledger.openSessions remote, session.idempotencyKey = key → session.id = sessionId

/-- No session opens, no key is forgotten, and a subscription comes to life only by the
completion of a session, which is then no longer open. -/
def Happens (remote remote' : Remote) : Prop :=
  (∀ session ∈ ledger.openSessions remote', session ∈ ledger.openSessions remote) ∧
  (∀ key ∈ ledger.usedKeys remote, key ∈ ledger.usedKeys remote') ∧
  ∀ sub ∈ ledger.subscriptions remote', ∀ organizationId ∈ sub.organizationId, sub.live = true →
    ledger.Live remote organizationId ∨ ∃ session ∈ ledger.openSessions remote,
      session.organizationId = organizationId ∧ session ∉ ledger.openSessions remote'

instance (remote remote' : Remote) : Decidable (ledger.Happens remote remote') :=
  inferInstanceAs (Decidable (_ ∧ _ ∧ _))

/-- What Stripe promises: one idempotency key opens one session, which is also the one that
the call answers with, and no other call opens one. -/
structure Lawful (stripe : StripeApi Remote) : Prop where
  used : ∀ remote, ∀ session ∈ ledger.openSessions remote,
    session.idempotencyKey ∈ ledger.usedKeys remote
  same : ∀ remote, ∀ session ∈ ledger.openSessions remote,
    ∀ session' ∈ ledger.openSessions remote,
      session'.idempotencyKey = session.idempotencyKey → session'.id = session.id
  createCustomer : ∀ remote params key, ledger.Happens remote (stripe.createCustomer remote params key).2
  cancelSubscription : ∀ remote subscriptionId,
    ledger.Happens remote (stripe.cancelSubscription remote subscriptionId).2
  opens : ∀ remote params key,
    ∀ session ∈ ledger.openSessions (stripe.createCheckoutSession remote params key).2,
      session ∈ ledger.openSessions remote ∨ session.organizationId = params.client_reference_id ∧
        session.idempotencyKey = key ∧ key ∉ ledger.usedKeys remote
  answers : ∀ remote params key, ∀ session ∈ (stripe.createCheckoutSession remote params key).1,
    ledger.Given (stripe.createCheckoutSession remote params key).2 key session.id
  remembers : ∀ remote params key, ∀ key' ∈ ledger.usedKeys remote,
    key' ∈ ledger.usedKeys (stripe.createCheckoutSession remote params key).2
  sells : ∀ remote params key organizationId,
    ledger.Live (stripe.createCheckoutSession remote params key).2 organizationId →
      ledger.Live remote organizationId

/-- No two open sessions of an organization with different keys, and no open session
beside a live subscription. -/
def OneLive (remote : Remote) : Prop :=
  ∀ session ∈ ledger.openSessions remote,
    (∀ session' ∈ ledger.openSessions remote, session'.organizationId = session.organizationId →
      session'.idempotencyKey = session.idempotencyKey) ∧
    ¬ledger.Live remote session.organizationId

instance (remote : Remote) : Decidable (ledger.OneLive remote) :=
  inferInstanceAs (Decidable (∀ session ∈ ledger.openSessions remote, _ ∧ _))

section Promises
variable {ledger} {stripe : StripeApi Remote} {remote remote' : Remote} {key : Id}
  {sessionId : String}

theorem happens_refl (ledger : StripeLedger Remote) (remote : Remote) :
    ledger.Happens remote remote :=
  ⟨fun _ h => h, fun _ h => h, fun sub hsub _ horg hlive => .inl ⟨sub, hsub, horg, hlive⟩⟩

theorem Given.happens (h : ledger.Given remote key sessionId)
    (hhappens : ledger.Happens remote remote') : ledger.Given remote' key sessionId :=
  ⟨hhappens.2.1 _ h.1, fun session hsession => h.2 session (hhappens.1 session hsession)⟩

theorem Given.requested (h : ledger.Given remote key sessionId) (hlawful : ledger.Lawful stripe)
    (params : StripeCheckoutSessionParams) (key' : Id) :
    ledger.Given (stripe.createCheckoutSession remote params key').2 key sessionId := by
  refine ⟨hlawful.remembers _ _ _ _ h.1, fun session hsession hkey => ?_⟩
  rcases hlawful.opens _ _ _ session hsession with hold | ⟨-, hkey', hfresh⟩
  · exact h.2 session hold hkey
  · rw [← hkey', hkey] at hfresh
    exact absurd h.1 hfresh

end Promises
end StripeLedger

/-! ## Reservations -/

def Store.Reserved (s : Store Remote) (organizationId requestKey : Id) : Prop :=
  ∃ c ∈ s.checkoutSessions, c.organizationId = organizationId ∧ c.requestKey = requestKey

instance (s : Store Remote) (organizationId requestKey : Id) :
    Decidable (s.Reserved organizationId requestKey) :=
  inferInstanceAs (Decidable (∃ c ∈ s.checkoutSessions,
    c.organizationId = organizationId ∧ c.requestKey = requestKey))

/-- Stripe changes on its own as it promises, and reports the completion of no session that
can still be completed. -/
def Event.Promised (ledger : StripeLedger Remote) (remote remote' : Remote) : Event → Prop
  | .stripeChanged => ledger.Happens remote remote'
  | .released (.completed sessionId) =>
    ∀ session ∈ ledger.openSessions remote, session.id ≠ sessionId
  | _ => True

instance (ledger : StripeLedger Remote) (remote remote' : Remote) (e : Event) :
    Decidable (e.Promised ledger remote remote') := by
  unfold Event.Promised
  split <;> infer_instance

def StripeHappens (ledger : StripeLedger Remote) (w w' : World Remote) : Prop :=
  ∀ x ∈ w.newEvents w', x.2.Promised ledger w.store.stripe w'.store.stripe

instance (ledger : StripeLedger Remote) (w w' : World Remote) :
    Decidable (StripeHappens ledger w w') :=
  inferInstanceAs (Decidable (∀ x ∈ w.newEvents w', _))

def Event.statusChecked (organizationId : Id) : Event → Option (Option SubscriptionStatus)
  | .subscriptionChecked owner status => if owner == organizationId then some status else none
  | _ => none

/-- What the database and Stripe are like when a request takes this step. A reservation is
made for an organization whose live subscription, if it has one, the request has seen. Stripe
is asked for the session of a reservation that is still there, or once more for one that it has
given before. As long as a session is open, its reservation is filled in within five minutes, it
does not expire, and no call for it fails; and no subscription of its organization is synced. -/
def Event.InStep (ledger : StripeLedger Remote) (w : World Remote) (pid : Nat) : Event → Prop
  | .reserved reservation =>
    ledger.Live w.store.stripe reservation.organizationId → ∀ x ∈ w.trace, x.1 = pid →
      ∀ status ∈ x.2.statusChecked reservation.organizationId,
        status ∈ [some .active, some .trialing, some .pastDue, some .incomplete]
  | .checkoutRequested input idempotencyKey _ =>
    w.store.Reserved input.organizationId idempotencyKey ∨
      idempotencyKey ∈ ledger.usedKeys w.store.stripe
  | .released (.stale reservationId now) =>
    ∀ c ∈ w.store.checkoutSessions, c.id = reservationId → ledger.Opened w.store.stripe c →
      c.stripeSessionId ≠ none ∨ c.checkoutUrl ≠ none ∨ now - minutes 5 < c.createdAt
  | .released (.expired reservationId now) =>
    ∀ c ∈ w.store.checkoutSessions, c.id = reservationId → ledger.Opened w.store.stripe c →
      now < c.expiresAt
  | .released (.failed reservationId requestKey) =>
    ∀ c ∈ w.store.checkoutSessions, c.id = reservationId → c.requestKey = requestKey →
      ledger.Opened w.store.stripe c → c.stripeSessionId ≠ none
  | .synced row =>
    ∀ session ∈ ledger.openSessions w.store.stripe, session.organizationId ≠ row.organizationId
  | _ => True

instance (ledger : StripeLedger Remote) (w : World Remote) (pid : Nat) (e : Event) :
    Decidable (e.InStep ledger w pid) := by
  unfold Event.InStep
  split <;> infer_instance

/-- Every step finds the database in step with Stripe. -/
def InStep (ledger : StripeLedger Remote) (w w' : World Remote) : Prop :=
  ∀ x ∈ w.newEvents w', x.2.InStep ledger w x.1

instance (ledger : StripeLedger Remote) (w w' : World Remote) : Decidable (InStep ledger w w') :=
  inferInstanceAs (Decidable (∀ x ∈ w.newEvents w', _))

/-! ## The invariant -/

/-- The session that Stripe has given for a key. -/
def Event.given : Event → Option (Id × String)
  | .checkoutRequested _ idempotencyKey (some session) => some (idempotencyKey, session.sessionId)
  | _ => none

/-- Every open session is reserved, the reservations of an organization with a live
subscription are spent, and the recorded sessions are those that Stripe has given. -/
structure OneCheckout (ledger : StripeLedger Remote) (w : World Remote) : Prop where
  sound : SoundReservations w.store.checkoutSessions
  reserved : ∀ session ∈ ledger.openSessions w.store.stripe,
    w.store.Reserved session.organizationId session.idempotencyKey
  spent : ∀ c ∈ w.store.checkoutSessions, ledger.Live w.store.stripe c.organizationId →
    c.requestKey ∈ ledger.usedKeys w.store.stripe
  recorded : ∀ c ∈ w.store.checkoutSessions, ∀ sessionId ∈ c.stripeSessionId,
    ledger.Given w.store.stripe c.requestKey sessionId
  answered : ∀ x ∈ w.trace, ∀ given ∈ x.2.given,
    ledger.Given w.store.stripe given.1 given.2
  alone : ∀ session ∈ ledger.openSessions w.store.stripe,
    ¬ledger.Live w.store.stripe session.organizationId

section Steps
variable {ledger : StripeLedger Remote} {pid : Nat} {w w' : World Remote}

theorem BillingCheckoutSession.collides_comm (a b : BillingCheckoutSession) :
    a.collides b = b.collides a := by
  rw [Bool.eq_iff_iff]
  simp only [collides, Bool.or_eq_true, Bool.and_eq_true, beq_iff_eq]
  constructor
  · rintro (((h | h) | h) | ⟨h, h'⟩)
    · exact .inl (.inl (.inl h.symm))
    · exact .inl (.inl (.inr h.symm))
    · exact .inl (.inr h.symm)
    · exact .inr ⟨h' ▸ h, h'.symm⟩
  · rintro (((h | h) | h) | ⟨h, h'⟩)
    · exact .inl (.inl (.inl h.symm))
    · exact .inl (.inl (.inr h.symm))
    · exact .inl (.inr h.symm)
    · exact .inr ⟨h' ▸ h, h'.symm⟩

/-- An organization has one reservation. -/
theorem SoundReservations.unique {rows : List BillingCheckoutSession} (h : SoundReservations rows)
    {a b : BillingCheckoutSession} (ha : a ∈ rows) (hb : b ∈ rows)
    (horg : a.organizationId = b.organizationId) : a = b := by
  have : Std.Symm fun a b : BillingCheckoutSession => a.collides b = false :=
    ⟨fun a b hab => (b.collides_comm a).trans hab⟩
  by_contra hne
  have hapart := List.Pairwise.forall h ha hb hne
  simp [BillingCheckoutSession.collides, horg] at hapart

section Recording
variable {reservation c : BillingCheckoutSession} {id : Id} {interval : BillingInterval}
  {session : ProviderCheckoutSession} {expiresAt now : Time} {rows : List BillingCheckoutSession}

/-- A row after a session has been recorded is one of the rows before, or the session is
recorded in it. -/
theorem mem_recordIn
    (h : c ∈ recordIn reservation id interval session expiresAt now rows) :
    c ∈ rows ∨ c.requestKey = reservation.requestKey ∧
      c.stripeSessionId = some session.sessionId := by
  unfold recordIn upsertRows at h
  split at h
  · rcases List.mem_append.mp h with h | h
    · exact .inl h
    · rw [List.mem_singleton.mp h]
      exact .inr ⟨rfl, rfl⟩
  · rcases mem_updateRows.mp h with ⟨h, -⟩ | ⟨c₀, -, hkey, rfl⟩
    · exact .inl h
    · exact .inr ⟨by simpa using hkey, rfl⟩

theorem recordIn_keeps (h : c ∈ rows) :
    ∃ c' ∈ recordIn reservation id interval session expiresAt now rows,
      c'.organizationId = c.organizationId ∧ c'.requestKey = c.requestKey := by
  unfold recordIn upsertRows
  split
  · exact ⟨c, List.mem_append_left _ h, rfl, rfl⟩
  · by_cases hkey : c.requestKey = reservation.requestKey
    · exact ⟨_, mem_updateRows.mpr (.inr ⟨c, h, by simpa using hkey, rfl⟩), rfl, rfl⟩
    · exact ⟨c, mem_updateRows.mpr (.inl ⟨h, by simpa using hkey⟩), rfl, rfl⟩

end Recording

theorem OneCheckout.same_key (h : OneCheckout ledger w) {session : OpenSession}
    {c : BillingCheckoutSession} (hopen : session ∈ ledger.openSessions w.store.stripe)
    (hc : c ∈ w.store.checkoutSessions) (horg : c.organizationId = session.organizationId) :
    c.requestKey = session.idempotencyKey := by
  obtain ⟨c', hc', horg', hkey⟩ := h.reserved session hopen
  rw [h.sound.unique hc hc' (horg.trans horg'.symm), hkey]

theorem OneCheckout.oneLive (h : OneCheckout ledger w) : ledger.OneLive w.store.stripe := by
  refine fun session hopen => ⟨fun session' hopen' horg => ?_, h.alone session hopen⟩
  obtain ⟨c, hc, horg', hkey⟩ := h.reserved session' hopen'
  rw [← hkey]
  exact h.same_key hopen hc (horg'.trans horg)

/-- Stripe does what it promises while the table stays as it is. -/
theorem OneCheckout.happens (h : OneCheckout ledger w) {stripe : StripeApi Remote}
    (hlawful : ledger.Lawful stripe) (hhappens : ledger.Happens w.store.stripe w'.store.stripe)
    (hrows : w'.store.checkoutSessions = w.store.checkoutSessions)
    (htrace : ∀ x ∈ w'.trace, x ∈ w.trace ∨ x.2.given = none) : OneCheckout ledger w' := by
  obtain ⟨hopen, hused, hlive⟩ := id hhappens
  constructor
  · rw [hrows]
    exact h.sound
  · intro session hsession
    obtain ⟨c, hc, hkeys⟩ := h.reserved session (hopen session hsession)
    exact ⟨c, hrows ▸ hc, hkeys⟩
  · -- a subscription comes to life by a session of the organization, whose key is used
    rintro c hc ⟨sub, hsub, horg, hsublive⟩
    rw [hrows] at hc
    rcases hlive sub hsub _ horg hsublive with hold | ⟨session, hsession, horg', -⟩
    · exact hused _ (h.spent c hc hold)
    · rw [h.same_key hsession hc horg'.symm]
      exact hused _ (hlawful.used _ session hsession)
  · intro c hc sessionId hrecorded
    rw [hrows] at hc
    exact (h.recorded c hc sessionId hrecorded).happens hhappens
  · intro x hx given hgiven
    rcases htrace x hx with hx | hnone
    · exact (h.answered x hx given hgiven).happens hhappens
    · rw [hnone] at hgiven
      cases hgiven
  · rintro session hsession ⟨sub, hsub, horg, hsublive⟩
    have hbefore := hopen session hsession
    rcases hlive sub hsub _ horg hsublive with hold | ⟨completed, hcompleted, horg', hclosed⟩
    · exact h.alone session hbefore hold
    · -- the completed session is the one that is said to be open
      obtain ⟨c, hc, horgc, hkey⟩ := h.reserved session hbefore
      have hkeys : completed.idempotencyKey = session.idempotencyKey := by
        rw [← hkey, h.same_key hcompleted hc (horgc.trans horg'.symm)]
      have hid := hlawful.same _ session hbefore completed hcompleted hkeys
      have hsame : completed = session := by
        cases completed
        cases session
        simp only at horg' hkeys hid
        rw [horg', hkeys, hid]
      exact hclosed (hsame ▸ hsession)

/-- A session is asked for with a key that is reserved, or has been used before. -/
theorem OneCheckout.checkoutRequested (h : OneCheckout ledger w) {stripe : StripeApi Remote}
    (hlawful : ledger.Lawful stripe) {params : StripeCheckoutSessionParams} {key : Id}
    (hstripe : w'.store.stripe = (stripe.createCheckoutSession w.store.stripe params key).2)
    (hreserved : w.store.Reserved params.client_reference_id key ∨
      key ∈ ledger.usedKeys w.store.stripe)
    (hrows : w'.store.checkoutSessions = w.store.checkoutSessions)
    (htrace : ∀ x ∈ w'.trace, x ∈ w.trace ∨ ∀ given ∈ x.2.given, ∃ session,
      (stripe.createCheckoutSession w.store.stripe params key).1 = some session ∧
        given = (key, session.id)) : OneCheckout ledger w' := by
  constructor
  · rw [hrows]
    exact h.sound
  · intro session hsession
    rw [hstripe] at hsession
    rcases hlawful.opens _ _ _ session hsession with hold | ⟨horg, hkey, hfresh⟩
    · obtain ⟨c, hc, hkeys⟩ := h.reserved session hold
      exact ⟨c, hrows ▸ hc, hkeys⟩
    · obtain ⟨c, hc, hkeys⟩ := hreserved.resolve_right hfresh
      exact ⟨c, hrows ▸ hc, hkeys.1.trans horg.symm, hkeys.2.trans hkey.symm⟩
  · intro c hc hlive
    rw [hrows] at hc
    rw [hstripe] at hlive ⊢
    exact hlawful.remembers _ _ _ _ (h.spent c hc (hlawful.sells _ _ _ _ hlive))
  · intro c hc sessionId hrecorded
    rw [hrows] at hc
    rw [hstripe]
    exact (h.recorded c hc sessionId hrecorded).requested hlawful params key
  · intro x hx given hgiven
    rw [hstripe]
    rcases htrace x hx with hx | hnew
    · exact (h.answered x hx given hgiven).requested hlawful params key
    · obtain ⟨session, hsession, rfl⟩ := hnew given hgiven
      exact hlawful.answers _ _ _ session hsession
  · intro session hsession hlive
    rw [hstripe] at hsession hlive
    have hbefore := hlawful.sells _ _ _ _ hlive
    rcases hlawful.opens _ _ _ session hsession with hold | ⟨horg, hkey, hfresh⟩
    · exact h.alone session hold hbefore
    · -- the reservation of an organization with a live subscription is spent
      obtain ⟨c, hc, horgc, hkeyc⟩ := hreserved.resolve_right hfresh
      rw [horg, ← horgc] at hbefore
      exact hfresh (hkeyc ▸ h.spent c hc hbefore)

/-- The table changes while Stripe stays as it is. -/
theorem OneCheckout.table (h : OneCheckout ledger w)
    (hstripe : w'.store.stripe = w.store.stripe)
    (htrace : ∀ x ∈ w'.trace, x ∈ w.trace ∨ x.2.given = none)
    (hsound : SoundReservations w'.store.checkoutSessions)
    (hkept : ∀ c ∈ w.store.checkoutSessions, ledger.Opened w.store.stripe c →
      w'.store.Reserved c.organizationId c.requestKey)
    (hrows : ∀ c ∈ w'.store.checkoutSessions, c ∈ w.store.checkoutSessions ∨
      (ledger.Live w.store.stripe c.organizationId →
        c.requestKey ∈ ledger.usedKeys w.store.stripe) ∧
      ∀ sessionId ∈ c.stripeSessionId, ledger.Given w.store.stripe c.requestKey sessionId) :
    OneCheckout ledger w' := by
  constructor
  · exact hsound
  · intro session hsession
    rw [hstripe] at hsession
    obtain ⟨c, hc, horg, hkey⟩ := h.reserved session hsession
    have hopened : ledger.Opened w.store.stripe c := ⟨session, hsession, horg.symm, hkey.symm⟩
    rw [← horg, ← hkey]
    exact hkept c hc hopened
  · intro c hc
    rw [hstripe]
    rcases hrows c hc with hold | ⟨hspent, -⟩
    · exact h.spent c hold
    · exact hspent
  · intro c hc
    rw [hstripe]
    rcases hrows c hc with hold | ⟨-, hrecorded⟩
    · exact h.recorded c hold
    · exact hrecorded
  · intro x hx given hgiven
    rw [hstripe]
    rcases htrace x hx with hx | hnone
    · exact h.answered x hx given hgiven
    · rw [hnone] at hgiven
      cases hgiven
  · rw [hstripe]
    exact h.alone

/-- Rows are deleted whose sessions are not open. -/
theorem OneCheckout.filter (h : OneCheckout ledger w) {p : BillingCheckoutSession → Bool}
    (hstripe : w'.store.stripe = w.store.stripe)
    (htrace : ∀ x ∈ w'.trace, x ∈ w.trace ∨ x.2.given = none)
    (hrows : w'.store.checkoutSessions = w.store.checkoutSessions.filter fun c => !p c)
    (hp : ∀ c ∈ w.store.checkoutSessions, ledger.Opened w.store.stripe c → p c = false) :
    OneCheckout ledger w' := by
  refine h.table hstripe htrace ?_ (fun c hc hopened => ?_) fun c hc => ?_
  · rw [hrows]
    exact h.sound.filter _
  · refine ⟨c, ?_, rfl, rfl⟩
    rw [hrows]
    exact List.mem_filter.mpr ⟨hc, by simp [hp c hc hopened]⟩
  · rw [hrows] at hc
    exact .inl (List.mem_filter.mp hc).1

/-- Neither Stripe nor the reservations change. -/
theorem OneCheckout.elsewhere (h : OneCheckout ledger w)
    (hstripe : w'.store.stripe = w.store.stripe)
    (hrows : w'.store.checkoutSessions = w.store.checkoutSessions)
    (htrace : ∀ x ∈ w'.trace, x ∈ w.trace ∨ x.2.given = none) : OneCheckout ledger w' := by
  refine h.filter (p := fun _ => false) hstripe htrace ?_ fun _ _ _ => rfl
  rw [hrows]
  exact (List.filter_true _).symm

/-- No statement deletes the reservation of an open session. -/
theorem OneCheckout.release (h : OneCheckout ledger w) {release : Release}
    (hpromised : (Event.released release).Promised ledger w.store.stripe w'.store.stripe)
    (hstep : (Event.released release).InStep ledger w pid) :
    ∀ c ∈ w.store.checkoutSessions, ledger.Opened w.store.stripe c →
      release.selects c = false := by
  intro c hc hopened
  rw [Bool.eq_false_iff]
  intro hselects
  cases release with
  | stale reservationId now =>
    simp only [Release.selects, Bool.and_eq_true, beq_iff_eq, Option.isNone_iff_eq_none,
      decide_eq_true_eq] at hselects
    obtain ⟨⟨⟨hid, hsession⟩, hurl⟩, hcreated⟩ := hselects
    rcases hstep c hc hid hopened with hfilled | hfilled | hlater
    · exact hfilled hsession
    · exact hfilled hurl
    · exact Int.not_le.mpr hlater hcreated
  | expired reservationId now =>
    simp only [Release.selects, Bool.and_eq_true, beq_iff_eq, decide_eq_true_eq] at hselects
    exact Int.not_le.mpr (hstep c hc hselects.1 hopened) hselects.2
  | failed reservationId requestKey =>
    simp only [Release.selects, Bool.and_eq_true, beq_iff_eq, Option.isNone_iff_eq_none] at hselects
    obtain ⟨⟨hid, hkey⟩, hsession⟩ := hselects
    exact hstep c hc hid hkey hopened hsession
  | completed sessionId =>
    -- an open session of this reservation would be the one that has been completed
    obtain ⟨session, hsession, -, hkey⟩ := hopened
    have hrecorded : c.stripeSessionId = some sessionId := by simpa [Release.selects] using hselects
    exact hpromised session hsession ((h.recorded c hc sessionId hrecorded).2 session hsession hkey)

/-- A request that makes a reservation has seen no subscription that is live. -/
theorem Unsubscribed.not_live {c : BillingCheckoutSession} (h : Unsubscribed pid c.organizationId w)
    (hstep : (Event.reserved c).InStep ledger w pid) :
    ¬ledger.Live w.store.stripe c.organizationId := by
  intro hlive
  obtain ⟨status, hmem, hstatus⟩ := h
  have hseen := hstep hlive _ hmem rfl status (by simp [Event.statusChecked])
  simp only [List.mem_cons, List.not_mem_nil, or_false] at hseen
  rcases hseen with rfl | rfl | rfl | rfl <;> cases hstatus

theorem newCustomer_remote (stripe : StripeApi Remote) (remote : Remote) (input : CustomerInput)
    (key : String) : (stripe.newCustomer input key remote).2 =
      (stripe.createCustomer remote (StripeApi.customerParams input) key).2 := by
  unfold StripeApi.newCustomer
  split <;> rename_i h <;> rw [h]

theorem newCheckoutSession_remote (stripe : StripeApi Remote) (remote : Remote)
    (input : CheckoutInput) (key : Id) : (stripe.newCheckoutSession input key remote).2 =
      (stripe.createCheckoutSession remote (StripeApi.checkoutSessionParams input) key).2 := by
  unfold StripeApi.newCheckoutSession
  split <;> rename_i h <;> rw [h]

/-- A request is given the session that Stripe has answered with. -/
theorem newCheckoutSession_given {stripe : StripeApi Remote} {remote : Remote}
    {input : CheckoutInput} {key : Id} {given : Id × String}
    (h : given ∈ (Event.checkoutRequested input key
      (stripe.newCheckoutSession input key remote).1.toOption).given) :
    ∃ session, (stripe.createCheckoutSession remote
        (StripeApi.checkoutSessionParams input) key).1 = some session ∧
      given = (key, session.id) := by
  unfold StripeApi.newCheckoutSession at h
  split at h
  · cases h
  · rename_i session remote' heq
    refine ⟨session, by rw [heq], ?_⟩
    unfold StripeApi.mapCheckoutSession at h
    split at h
    · cases h
    · cases h
    · cases h
      rfl

theorem cancelSubscriptionNow_remote (stripe : StripeApi Remote) (remote : Remote)
    (subscriptionId : String) :
    (stripe.cancelSubscriptionNow subscriptionId remote).2 = remote ∨
      (stripe.cancelSubscriptionNow subscriptionId remote).2 =
        (stripe.cancelSubscription remote subscriptionId).2 := by
  unfold StripeApi.cancelSubscriptionNow
  split
  · exact .inl rfl
  · split
    · exact .inl rfl
    · right
      split <;> rename_i h <;> rw [h]

/-- Nothing is given by a step without an answer of Stripe. -/
theorem trace_quiet {s : Store Remote} {es : List Event} (hquiet : ∀ e ∈ es, e.given = none) :
    ∀ x ∈ (w.advance pid (s, es)).trace, x ∈ w.trace ∨ x.2.given = none := by
  intro x hx
  rw [World.advance_trace, List.mem_append] at hx
  refine hx.imp_right fun hnew => ?_
  obtain ⟨e, he, rfl⟩ := List.mem_map.mp hnew
  exact hquiet e he

/-- A call of Stripe opens a session only for a key that is reserved. -/
theorem OneCheckout.called (h : OneCheckout ledger w) (hlawful : ledger.Lawful env.stripe)
    {α : Type} (call : StripeCall α)
    (hstep : InStep ledger w (w.advance pid
      ({ w.store with stripe := (call.perform env.stripe w.store.stripe).2 },
        call.observed (call.perform env.stripe w.store.stripe).1))) :
    OneCheckout ledger (w.advance pid
      ({ w.store with stripe := (call.perform env.stripe w.store.stripe).2 },
        call.observed (call.perform env.stripe w.store.stripe).1)) := by
  cases call with
  | createCheckoutSession input key =>
    have hreserved := hstep (pid, .checkoutRequested input key
      (env.stripe.newCheckoutSession input key w.store.stripe).1.toOption) (by
        rw [World.newEvents_advance]
        exact List.mem_map_of_mem (List.mem_singleton_self _))
    refine h.checkoutRequested hlawful (newCheckoutSession_remote env.stripe _ input key) hreserved
      rfl fun x hx => ?_
    rw [World.advance_trace, List.mem_append] at hx
    refine hx.imp_right fun hnew given hgiven => ?_
    rw [List.mem_singleton.mp hnew] at hgiven
    exact newCheckoutSession_given hgiven
  | createCustomer input key =>
    refine h.happens hlawful ?_ rfl (trace_quiet fun e he => absurd he List.not_mem_nil)
    change ledger.Happens _ (env.stripe.newCustomer _ _ _).2
    rw [newCustomer_remote]
    exact hlawful.createCustomer _ _ _
  | cancelSubscriptionNow subscriptionId =>
    refine h.happens hlawful ?_ rfl (trace_quiet fun e he => absurd he List.not_mem_nil)
    change ledger.Happens _ (env.stripe.cancelSubscriptionNow _ _).2
    rcases cancelSubscriptionNow_remote env.stripe w.store.stripe subscriptionId with
      hremote | hremote
    · rw [hremote]
      exact ledger.happens_refl _
    · rw [hremote]
      exact hlawful.cancelSubscription _ _
  | retrieveSubscription subscriptionId =>
    exact h.happens hlawful (ledger.happens_refl _) rfl
      (trace_quiet fun e he => absurd he List.not_mem_nil)
  | resolveSubscriptionForCharge chargeId =>
    exact h.happens hlawful (ledger.happens_refl _) rfl
      (trace_quiet fun e he => absurd he List.not_mem_nil)

theorem Effect.oneCheckout (hlawful : ledger.Lawful env.stripe) (he : Effect env pid w w')
    (hhappens : StripeHappens ledger w w') (hstep : InStep ledger w w')
    (h : OneCheckout ledger w) : OneCheckout ledger w' := by
  cases he with
  | idle => exact h
  | stripeChanged remote =>
    exact h.happens hlawful (hhappens (pid, .stripeChanged) (by simp)) rfl
      (trace_quiet (by simp [Event.given]))
  | called call => exact h.called hlawful call hstep
  | reserved nextId c hsound hunrecorded hchecked =>
    have hdead := hchecked.not_live (hstep (pid, .reserved c) (by simp))
    refine h.table rfl (trace_quiet (by simp [Event.given])) hsound
      (fun c₀ hc₀ _ => ⟨c₀, List.mem_append_left _ hc₀, rfl, rfl⟩) fun c₀ hc₀ => ?_
    refine (List.mem_append.mp hc₀).imp_right fun hnew => ?_
    rw [List.mem_singleton.mp hnew]
    exact ⟨fun hlive => absurd hlive hdead, by simp [hunrecorded]⟩
  | recorded nextId reservation id interval session expiresAt now hsound hanswered =>
    -- the row may be gone, and then the upsert makes one for a key that has been used
    obtain ⟨input, hmem⟩ := hanswered
    have hgiven : ledger.Given w.store.stripe reservation.requestKey session.sessionId :=
      h.answered _ hmem (reservation.requestKey, session.sessionId) rfl
    refine h.table rfl (trace_quiet (by simp)) hsound (fun c hc _ => recordIn_keeps hc)
      fun c hc => (mem_recordIn hc).imp_right fun hrecorded => ?_
    rw [hrecorded.1, hrecorded.2]
    refine ⟨fun _ => hgiven.1, fun sessionId hid => ?_⟩
    cases hid
    exact hgiven
  | released release =>
    exact h.filter rfl (trace_quiet (by simp [Event.given])) rfl
      (h.release (hhappens (pid, .released release) (by simp))
        (hstep (pid, .released release) (by simp)))
  | synced row nextId customers notifications last hfound hlater =>
    refine h.filter rfl (trace_quiet (by simp [Event.given])) rfl fun c hc hopened => ?_
    obtain ⟨session, hsession, horg, -⟩ := hopened
    have hclosed := hstep (pid, .synced row) (by simp) session hsession
    exact beq_eq_false_iff_ne.mpr (horg ▸ hclosed)
  | checked organizationId status =>
    exact h.elsewhere rfl rfl (trace_quiet (by simp [Event.given]))
  | customers rows =>
    exact h.elsewhere rfl rfl (trace_quiet (by simp))
  | subscriptionRead organizationId =>
    exact h.elsewhere rfl rfl (trace_quiet (by simp [Event.given]))
  | notified nextId notifications =>
    exact h.elsewhere rfl rfl (trace_quiet (by simp))
  | processed rows =>
    exact h.elsewhere rfl rfl (trace_quiet (by simp))

end Steps

/-! ## Runs -/

/-- As long as Stripe keeps its promises and every step finds the database in step with it,
Stripe never holds two live sessions of an organization, or one beside a live
subscription. -/
theorem one_live_checkout (ledger : StripeLedger Remote) (env : Environment Remote)
    (hlawful : ledger.Lawful env.stripe) (s : Store Remote) (hs : OneCheckout ledger ⟨s, []⟩)
    (acts : List (Action (Request Remote) Input))
    (hhappens : Config.Along (StripeHappens ledger) (handler env)
      (Config.init s : Billing.Config Remote) acts)
    (hstep : Config.Along (InStep ledger) (handler env)
      (Config.init s : Billing.Config Remote) acts) :
    ledger.OneLive ((Config.init s : Billing.Config Remote).run (handler env) acts).world.store.stripe := by
  apply OneCheckout.oneLive
  refine Config.Meets.invariant (P := OneCheckout ledger)
    (fun r _ _ _ _ _ => handler_keeps env r) (Config.Meets.init True.intro) hs
    (fun pid w w' _ _ he hA h => ?_) (hhappens.and hstep)
  exact he.oneCheckout hlawful hA.1 hA.2 h

/-! ### A shop -/

/-- A Checkout session of a shop; the key makes its identifier. -/
structure ShopSession where
  organizationId : Id
  idempotencyKey : Id
  isOpen : Bool

/-- A Stripe account that keeps its sessions and its subscriptions. -/
structure Shop where
  sessions : List ShopSession
  subscriptions : List StripeSubscription

def ShopSession.held (session : ShopSession) : OpenSession :=
  ⟨s!"cs_{session.idempotencyKey}", session.organizationId, session.idempotencyKey⟩

def shopLedger : StripeLedger Shop where
  openSessions shop := (shop.sessions.filter ShopSession.isOpen).map ShopSession.held
  usedKeys shop := shop.sessions.map ShopSession.idempotencyKey
  subscriptions := Shop.subscriptions

def shopSession (key : Id) : StripeCheckoutSession :=
  ⟨s!"cs_{key}", some "cus_1", some 1, some 1, some "sub_1", some "https://stripe.test", some 86400⟩

/-- The only signed event is the completion of the session with the key 3. -/
def shop : StripeApi Shop where
  constructEvent rawBody _ _ :=
    if rawBody == "completed" then some ⟨"evt_1", 100, .checkoutSessionCompleted (shopSession 3)⟩
    else none
  createCustomer shop _ _ := (some "cus_1", shop)
  createCheckoutSession shop params key :=
    (some (shopSession key),
      if (shopLedger.usedKeys shop).contains key then shop
      else { shop with sessions := shop.sessions ++ [⟨params.client_reference_id, key, true⟩] })
  retrieveSubscription shop subscriptionId := shop.subscriptions.find? fun sub => sub.id == subscriptionId
  cancelSubscription shop _ := (none, shop)
  retrieveCharge _ _ := none
  listInvoicePayments _ _ := none
  retrieveInvoice _ _ := none

def acmeShop : Store Shop := acme ⟨[], []⟩

def checkout : Request Shop := .createCheckoutSession ⟨1, "Acme", "owner@example.org"⟩ .monthly

/-- The owner goes to Checkout and pays there, and Stripe reports the completed session. -/
def paid : List (Action (Request Shop) Input) :=
  [.request checkout] ++ advances 0 9 ⟨0⟩ ++
  [.request (.stripeChanges ⟨[⟨1, 3, false⟩], [proSubscription "sub_1" .active]⟩)] ++
  advances 1 1 ⟨0⟩ ++
  [.request (.webhook "completed" "")]

/-- The webhook is processed up to its end, and the owner comes back. -/
def orderly : List (Action (Request Shop) Input) :=
  paid ++ advances 2 12 ⟨0⟩ ++ [.request checkout] ++ advances 3 9 ⟨1⟩

/-- The owner comes back after the webhook has deleted the reservation and before it has
written the subscription. -/
def hasty : List (Action (Request Shop) Input) :=
  paid ++ advances 2 3 ⟨0⟩ ++ [.request checkout] ++ advances 3 9 ⟨1⟩

theorem held_of_open {shop : Shop} {session : OpenSession}
    (h : session ∈ shopLedger.openSessions shop) : ∃ x ∈ shop.sessions, x.held = session := by
  obtain ⟨x, hx, heq⟩ := List.mem_map.mp h
  exact ⟨x, List.mem_of_mem_filter hx, heq⟩

theorem shop_lawful : shopLedger.Lawful shop where
  used remote session hsession := by
    obtain ⟨x, hx, rfl⟩ := held_of_open hsession
    exact List.mem_map.mpr ⟨x, hx, rfl⟩
  same remote session hsession session' hsession' hkey := by
    obtain ⟨x, -, rfl⟩ := held_of_open hsession
    obtain ⟨x', -, rfl⟩ := held_of_open hsession'
    change x'.idempotencyKey = x.idempotencyKey at hkey
    rw [ShopSession.held, ShopSession.held, hkey]
  createCustomer remote _ _ := shopLedger.happens_refl remote
  cancelSubscription remote _ := shopLedger.happens_refl remote
  opens remote params key session hsession := by
    change session ∈ shopLedger.openSessions (if _ then _ else _) at hsession
    split at hsession
    · exact .inl hsession
    · rename_i hfresh
      simp only [shopLedger, List.filter_append, List.map_append, List.mem_append] at hsession
      refine hsession.imp_right fun h => ?_
      obtain rfl : session = ShopSession.held ⟨params.client_reference_id, key, true⟩ := by
        simpa using h
      exact ⟨rfl, rfl, by simpa using hfresh⟩
  answers remote params key session hsession := by
    cases hsession
    constructor
    · change key ∈ shopLedger.usedKeys (if _ then _ else _)
      split
      · rename_i hused
        simpa using hused
      · simp [shopLedger]
    · intro session hsession hkey
      obtain ⟨x, -, rfl⟩ := held_of_open hsession
      change x.idempotencyKey = key at hkey
      rw [ShopSession.held, hkey]
      rfl
  remembers remote params key key' hkey' := by
    change key' ∈ shopLedger.usedKeys (if _ then _ else _)
    split
    · exact hkey'
    · simp only [shopLedger, List.map_append]
      exact List.mem_append_left _ hkey'
  sells remote params key organizationId hlive := by
    change shopLedger.Live (if _ then _ else _) organizationId at hlive
    split at hlive
    · exact hlive
    · exact hlive

theorem acme_oneCheckout : OneCheckout shopLedger ⟨acmeShop, []⟩ := by
  constructor
  · exact List.Pairwise.nil
  · exact fun _ h => absurd h List.not_mem_nil
  · exact fun _ h => absurd h List.not_mem_nil
  · exact fun _ h => absurd h List.not_mem_nil
  · exact fun _ h => absurd h List.not_mem_nil
  · exact fun _ h => absurd h List.not_mem_nil

theorem one_live_checkout_orderly :
    Config.Along (InStep shopLedger) (handler (selling shop))
      (Config.init acmeShop : Billing.Config Shop) orderly ∧
    shopLedger.OneLive ((Config.init acmeShop : Billing.Config Shop).run (handler (selling shop))
      orderly).world.store.stripe := by
  have hhappens : Config.Along (StripeHappens shopLedger) (handler (selling shop))
      (Config.init acmeShop : Billing.Config Shop) orderly := by decide +kernel
  have hstep : Config.Along (InStep shopLedger) (handler (selling shop))
      (Config.init acmeShop : Billing.Config Shop) orderly := by decide +kernel
  exact ⟨hstep, one_live_checkout shopLedger (selling shop) shop_lawful acmeShop acme_oneCheckout
    orderly hhappens hstep⟩

/-- A second session is open beside the subscription that the first one has led to. -/
theorem checkout_beside_subscription :
    shopLedger.Lawful (selling shop).stripe ∧ OneCheckout shopLedger ⟨acmeShop, []⟩ ∧
    Config.Along (StripeHappens shopLedger) (handler (selling shop))
      (Config.init acmeShop : Billing.Config Shop) hasty ∧
    ¬shopLedger.OneLive ((Config.init acmeShop : Billing.Config Shop).run (handler (selling shop))
      hasty).world.store.stripe :=
  ⟨shop_lawful, acme_oneCheckout, by decide +kernel, by decide +kernel⟩

end ShipFlow.Billing
