import Mathlib.Data.List.Infix
import ShipFlow.Organizations.Ownership

/-! Invitations. A decision on an invitation should be final, and an acceptance should
go by what the invitation says when the membership is created. -/

namespace ShipFlow.Organizations
open Interleaving Relational

def Invitation.decided (i : Invitation) : Bool := i.status == .accepted || i.status == .revoked

/-- An invitation that is accepted or revoked stays so. -/
def DecisionsFinal (w w' : World) : Prop :=
  ∀ i ∈ w.store.invitations, i.decided = true →
    ∃ i' ∈ w'.store.invitations, i'.id = i.id ∧ i'.status = i.status

instance (w w' : World) : Decidable (DecisionsFinal w w') :=
  inferInstanceAs (Decidable (∀ i ∈ w.store.invitations, i.decided = true →
    ∃ i' ∈ w'.store.invitations, i'.id = i.id ∧ i'.status = i.status))

def Event.resent : Event → Option Id
  | .invitationResent invitationId => some invitationId
  | _ => none

/-- A membership that was created for an invitation, and the hash that was presented. -/
structure Acceptance where
  invitationId : Id
  membershipId : Id
  tokenHash : String

def Event.acceptance : Event → Option Acceptance
  | .invitationAccepted invitationId membershipId tokenHash =>
    some ⟨invitationId, membershipId, tokenHash⟩
  | _ => none

def Event.accepted (e : Event) : Option Id := e.acceptance.map Acceptance.invitationId

/-- A resend commits on an invitation on which nothing has been decided. -/
def ResendsOpen (w w' : World) : Prop :=
  ∀ e ∈ w.newEvents w', ∀ invitationId ∈ e.2.resent,
    ∀ i ∈ w.store.invitations, i.id = invitationId → i.decided = false

instance (w w' : World) : Decidable (ResendsOpen w w') :=
  inferInstanceAs (Decidable (∀ e ∈ w.newEvents w', ∀ invitationId ∈ e.2.resent,
    ∀ i ∈ w.store.invitations, i.id = invitationId → i.decided = false))

/-- How many memberships an invitation has yielded. -/
def acceptances (invitationId : Id) (trace : List (Nat × Event)) : Nat :=
  trace.countP fun e => e.2.accepted == some invitationId

@[simp] theorem acceptances_append (invitationId : Id) (trace trace' : List (Nat × Event)) :
    acceptances invitationId (trace ++ trace') =
      acceptances invitationId trace + acceptances invitationId trace' := List.countP_append

/-! ## Decisions -/

section Steps
variable {pid : Nat} {w w' : World}

/-- Updates of pending rows decide nothing that is decided. -/
theorem decisionsFinal_pending {p : Invitation → Bool} {f : Invitation → Invitation}
    (hpending : ∀ i, p i = true → i.status = .pending)
    (hinvitations : w'.store.invitations = updateRows p f w.store.invitations) :
    DecisionsFinal w w' := by
  intro i hi hdecided
  have hp : p i = false := by
    cases hp : p i with
    | false => rfl
    | true => simp [Invitation.decided, hpending i hp] at hdecided
  refine ⟨i, ?_, rfl, rfl⟩
  rw [hinvitations]
  exact mem_updateRows.mpr (.inl ⟨hi, hp⟩)

theorem decisionsFinal_same (h : w'.store.invitations = w.store.invitations) :
    DecisionsFinal w w' := by
  intro i hi _
  rw [h]
  exact ⟨i, hi, rfl, rfl⟩

theorem Invitation.open_pending {invitationId : Id} {now : Time} {i : Invitation}
    (h : i.open invitationId now = true) : i.id = invitationId ∧ i.status = .pending := by
  simp only [Invitation.open, Bool.and_eq_true, beq_iff_eq] at h
  exact h.1

/-- The check constraint keeps a revocation off an accepted row. -/
theorem decisionsFinal_revoked {invitationId : Id} {now : Time} (hn : Numbered w.store)
    (hvalid : ValidInvitations (updateRows (fun i => i.id == invitationId)
      (fun i => { i with status := .revoked, revokedAt := some now }) w.store.invitations))
    (hinvitations : w'.store.invitations = updateRows (fun i => i.id == invitationId)
      (fun i => { i with status := .revoked, revokedAt := some now }) w.store.invitations) :
    DecisionsFinal w w' := by
  intro i hi hdecided
  rw [hinvitations]
  cases hp : i.id == invitationId with
  | false => exact ⟨i, mem_updateRows.mpr (.inl ⟨hi, hp⟩), rfl, rfl⟩
  | true =>
    have hrow : { i with status := .revoked, revokedAt := some now } ∈
        updateRows (fun i => i.id == invitationId)
          (fun i => { i with status := .revoked, revokedAt := some now }) w.store.invitations :=
      mem_updateRows.mpr (.inr ⟨i, hi, hp, rfl⟩)
    refine ⟨_, hrow, rfl, ?_⟩
    have hnew := hvalid _ hrow
    have hold := hn.valid i hi
    simp only [Invitation.decided, Bool.or_eq_true, beq_iff_eq] at hdecided
    rcases hdecided with haccepted | hrevoked
    · simp only [Invitation.valid, haccepted, Bool.and_eq_true] at hold hnew
      have hsome := hold.2.1
      have hnone := hnew.2.1.1
      rw [Option.isNone_iff_eq_none.mp hnone] at hsome
      cases hsome
    · exact hrevoked.symm

theorem decisionsFinal_resent {invitationId userId : Id} {tokenHash : String} {expiresAt : Time}
    (hinvitations : w'.store.invitations = updateRows (fun i => i.id == invitationId)
      (fun i => i.renew userId tokenHash expiresAt) w.store.invitations) :
    DecisionsFinal w w' ↔
      ∀ i ∈ w.store.invitations, i.id = invitationId → i.decided = false := by
  constructor
  · intro hfinal i hi hid
    cases hdecided : i.decided with
    | false => rfl
    | true =>
      obtain ⟨i', hi', hid', hstatus⟩ := hfinal i hi hdecided
      rw [hinvitations] at hi'
      rcases mem_updateRows.mp hi' with ⟨-, hp⟩ | ⟨i₀, -, -, rfl⟩
      · rw [hid', hid, beq_self_eq_true] at hp
        cases hp
      · -- the resend has left the row pending
        have hpending : i.status = .pending := hstatus.symm
        simp [Invitation.decided, hpending] at hdecided
  · intro hopen i hi hdecided
    have hp : (i.id == invitationId) = false := by
      apply beq_eq_false_iff_ne.mpr
      intro hid
      rw [hopen i hi hid] at hdecided
      cases hdecided
    refine ⟨i, ?_, rfl, rfl⟩
    rw [hinvitations]
    exact mem_updateRows.mpr (.inl ⟨hi, hp⟩)

theorem resendsOpen_advance {s : Store} {e : Event} :
    ResendsOpen w (w.advance pid (s, [e])) ↔ ∀ invitationId ∈ e.resent,
      ∀ i ∈ w.store.invitations, i.id = invitationId → i.decided = false := by
  rw [ResendsOpen, World.newEvents_advance]
  simp only [List.map_cons, List.map_nil, List.forall_mem_singleton]

theorem resendsOpen_quiet {s : Store} : ResendsOpen w (w.advance pid (s, [])) := by
  simp [ResendsOpen]

theorem resendsOpen_other {s : Store} {e : Event} (h : e.resent = none) :
    ResendsOpen w (w.advance pid (s, [e])) := by
  rw [resendsOpen_advance, h]
  nofun

/-- The step of the induction, with the exact condition. -/
theorem Effect.final_iff (h : Effect pid w w') (hn : Numbered w.store) :
    DecisionsFinal w w' ↔ ResendsOpen w w' := by
  cases h with
  | idle => exact iff_of_true (decisionsFinal_same rfl) (by simp [ResendsOpen])
  | organizationCreated => exact iff_of_true (decisionsFinal_same rfl) (resendsOpen_other rfl)
  | organizationRenamed => exact iff_of_true (decisionsFinal_same rfl) resendsOpen_quiet
  | organizationDeleted organizationId now hvalid =>
    refine iff_of_true (decisionsFinal_pending (fun i hp => ?_) rfl) (resendsOpen_other rfl)
    rw [Bool.and_eq_true] at hp
    exact beq_iff_eq.mp hp.2
  | invitationsExpired p hpending hvalid =>
    exact iff_of_true (decisionsFinal_pending hpending rfl) resendsOpen_quiet
  | invitationCreated invitation hid horganization hvalid =>
    refine iff_of_true (fun i hi _ => ?_) (resendsOpen_other rfl)
    exact ⟨i, List.mem_append_left _ hi, rfl, rfl⟩
  -- the one step that writes a row whatever its status is
  | invitationResent invitationId userId tokenHash expiresAt hvalid =>
    rw [decisionsFinal_resent rfl, resendsOpen_advance]
    constructor
    · intro hopen id hid
      rwa [← Option.mem_some_iff.mp hid]
    · exact fun hopen => hopen invitationId rfl
  | invitationRevoked invitationId now hvalid =>
    exact iff_of_true (decisionsFinal_revoked hn hvalid rfl) (resendsOpen_other rfl)
  | invitationFound => exact iff_of_true (decisionsFinal_same rfl) (resendsOpen_other rfl)
  | invitationAccepted invitation userId now =>
    refine iff_of_true ?_ (resendsOpen_other rfl)
    exact decisionsFinal_pending (p := Invitation.open invitation.id now)
      (fun i hp => (Invitation.open_pending hp).2) rfl
  | memberRoleChanged => exact iff_of_true (decisionsFinal_same rfl) (resendsOpen_other rfl)
  | memberRemoved => exact iff_of_true (decisionsFinal_same rfl) (resendsOpen_other rfl)
  | memberLeft => exact iff_of_true (decisionsFinal_same rfl) (resendsOpen_other rfl)
  | ownershipTransferred => exact iff_of_true (decisionsFinal_same rfl) (resendsOpen_other rfl)

/-! ## Acceptances -/

/-- No invitation has been accepted twice, and the accepted ones are decided. -/
def AcceptedOnce (w : World) : Prop :=
  ∀ invitationId, acceptances invitationId w.trace ≤ 1 ∧
    (0 < acceptances invitationId w.trace → invitationId < w.store.nextId ∧
      ∀ i ∈ w.store.invitations, i.id = invitationId → i.status = .accepted)

theorem Effect.accepted_cases (h : Effect pid w w') (hn : Numbered w.store) :
    (∀ invitationId, acceptances invitationId (w.newEvents w') = 0) ∨
    ∃ accepted ∈ w.store.invitations, accepted.status = .pending ∧
      (∀ invitationId, acceptances invitationId (w.newEvents w') =
        if invitationId = accepted.id then 1 else 0) ∧
      ∀ i' ∈ w'.store.invitations, i'.id = accepted.id → i'.status = .accepted := by
  cases h with
  | idle => exact .inl fun _ => by simp [acceptances]
  | invitationAccepted invitation userId now nextId notifications hnext horganization hrole hknown
      hlookup hopen hvalid hsound =>
    obtain ⟨accepted, haccepted, hp⟩ := List.countP_pos_iff.mp (by rw [hopen]; exact Nat.one_pos)
    obtain ⟨hid, hpending⟩ := Invitation.open_pending hp
    refine .inr ⟨accepted, haccepted, hpending, fun invitationId => ?_, fun i' hi' hid' => ?_⟩
    · rw [World.newEvents_advance, hid]
      by_cases hsame : invitationId = invitation.id
      · simp [acceptances, Event.accepted, Event.acceptance, hsame]
      · simp [acceptances, Event.accepted, Event.acceptance, hsame, Ne.symm hsame]
    · rcases mem_updateRows.mp hi' with ⟨hi, hclosed⟩ | ⟨i, -, -, rfl⟩
      · rw [hn.invitations.inj hi haccepted hid', hp] at hclosed
        cases hclosed
      · rfl
  | _ => exact .inl fun _ => by simp [acceptances, Event.accepted, Event.acceptance]

/-- A decided row stays decided, so no second acceptance finds it open. -/
theorem Effect.acceptedOnce (h : Effect pid w w') (hn : Numbered w.store) (hn' : Numbered w'.store)
    (hfinal : DecisionsFinal w w') (honce : AcceptedOnce w) : AcceptedOnce w' := by
  intro invitationId
  obtain ⟨hcount, hrows⟩ := honce invitationId
  have hkept : (invitationId < w.store.nextId ∧
      ∀ i ∈ w.store.invitations, i.id = invitationId → i.status = .accepted) →
      invitationId < w'.store.nextId ∧
        ∀ i ∈ w'.store.invitations, i.id = invitationId → i.status = .accepted := by
    rintro ⟨hlt, haccepted⟩
    refine ⟨Nat.lt_of_lt_of_le hlt h.nextId_le, fun i' hi' hid' => ?_⟩
    rcases h.invitation_keys hi' with hfresh | ⟨i, hi, hid, -⟩
    · rw [hid'] at hfresh
      exact absurd hlt (Nat.not_lt.mpr hfresh)
    · have hstatus := haccepted i hi (hid.trans hid')
      obtain ⟨i'', hi'', hid'', hsame⟩ := hfinal i hi (by simp [Invitation.decided, hstatus])
      rw [hn'.invitations.inj hi' hi'' (hid.symm.trans hid''.symm), hsame, hstatus]
  rw [h.trace_eq, acceptances_append]
  -- what has been accepted stays so, and an acceptance finds its row pending
  rcases h.accepted_cases hn with hnone | ⟨accepted, haccepted, hpending, hone, hdecided⟩
  · rw [hnone, Nat.add_zero]
    exact ⟨hcount, fun hpos => hkept (hrows hpos)⟩
  · rw [hone]
    by_cases hsame : invitationId = accepted.id
    · have hzero : acceptances invitationId w.trace = 0 := by
        refine Nat.eq_zero_of_not_pos fun hpos => ?_
        have hstatus := (hrows hpos).2 accepted haccepted hsame.symm
        rw [hpending] at hstatus
        cases hstatus
      have hlt : invitationId < w'.store.nextId := by
        rw [hsame]
        exact Nat.lt_of_lt_of_le (hn.invitations.1 accepted haccepted) h.nextId_le
      rw [hzero, if_pos hsame]
      exact ⟨Nat.le_refl 1, fun _ => ⟨hlt, fun i hi hid => hdecided i hi (hid.trans hsame)⟩⟩
    · rw [if_neg hsame, Nat.add_zero]
      exact ⟨hcount, fun hpos => hkept (hrows hpos)⟩

end Steps

/-- Throughout a run the decisions are final, and no invitation yields two memberships,
if and only if every resend commits on an invitation that is still open to one. -/
theorem invitation_decisions_final (env : Environment) (s : Store) (hn : Numbered s)
    (acts : List (Action Request Input)) :
    (Config.Along DecisionsFinal (handler env) (Config.init s : Organizations.Config) acts ∧
      ∀ invitationId, acceptances invitationId
        ((Config.init s : Organizations.Config).run (handler env) acts).world.trace ≤ 1) ↔
      Config.Along ResendsOpen (handler env) (Config.init s : Organizations.Config) acts := by
  have halong :
      Config.Along DecisionsFinal (handler env) (Config.init s : Organizations.Config) acts ↔
        Config.Along ResendsOpen (handler env) (Config.init s : Organizations.Config) acts :=
    Config.Meets.along_iff (P := fun _ => True) (fun r _ _ _ _ _ => handler_keeps env r)
      (Config.Meets.init hn) True.intro
      (fun w _ _ => ⟨decisionsFinal_same rfl, by simp [ResendsOpen]⟩)
      fun pid w w' hn _ he _ => ⟨he.final_iff hn, fun _ => True.intro⟩
  rw [halong]
  refine and_iff_left_of_imp fun hopen invitationId => ?_
  have honce : AcceptedOnce ((Config.init s : Organizations.Config).run (handler env) acts).world := by
    refine Config.Meets.invariant (P := AcceptedOnce) (fun r _ _ _ _ _ => handler_keeps env r)
      (Config.Meets.init hn) ?_ (fun pid w w' hn hn' he hfinal honce => ?_) (halong.mpr hopen)
    · exact fun _ => ⟨Nat.zero_le 1, fun hpos => absurd hpos (Nat.lt_irrefl 0)⟩
    · exact he.acceptedOnce hn hn' hfinal honce
  exact (honce invitationId).1

/-- The owner resends the invitation while it is open. -/
def timelyResend : List (Action Request Input) :=
  [.request (.createOrganization ⟨0, "a@example.org", true⟩ "acme")] ++ advances 0 2 (.at 0 "") ++
  [.request (.createInvitation 2 0 ⟨"b@example.org", .member⟩)] ++ advances 1 8 (.at 0 "token") ++
  [.request (.resendInvitation 2 0 4)] ++ advances 2 9 (.at 0 "second") ++
  [.request (.acceptInvitation ⟨1, "b@example.org", true⟩ "second")] ++ advances 3 4 (.at 0 "")

theorem invitation_decisions_timely :
    Config.Along ResendsOpen (handler .transparent) (Config.init tester : Organizations.Config)
      timelyResend ∧
    Config.Along DecisionsFinal (handler .transparent) (Config.init tester : Organizations.Config)
      timelyResend ∧
    acceptances 4 ((Config.init tester : Organizations.Config).run (handler .transparent)
      timelyResend).world.trace = 1 := by
  have hopen : Config.Along ResendsOpen (handler .transparent)
      (Config.init tester : Organizations.Config) timelyResend := by
    decide +kernel
  have hfinal := (invitation_decisions_final .transparent tester (numbered_withUsers _ _)
    timelyResend).mpr hopen
  exact ⟨hopen, hfinal.1, by decide +kernel⟩

/-- The owner has seen the invitation pending and resends it after it is accepted; the new
member leaves and accepts it again. -/
def belatedResend : List (Action Request Input) :=
  [.request (.createOrganization ⟨0, "a@example.org", true⟩ "acme")] ++ advances 0 2 (.at 0 "") ++
  [.request (.createInvitation 2 0 ⟨"b@example.org", .member⟩)] ++ advances 1 8 (.at 0 "token") ++
  [.request (.resendInvitation 2 0 4)] ++ advances 2 4 (.at 0 "second") ++
  [.request (.acceptInvitation ⟨1, "b@example.org", true⟩ "token")] ++ advances 3 4 (.at 0 "") ++
  advances 2 5 (.at 0 "second") ++
  [.request (.leaveOrganization 2 1)] ++ advances 4 4 (.at 0 "") ++
  [.request (.acceptInvitation ⟨1, "b@example.org", true⟩ "second")] ++ advances 5 4 (.at 0 "")

theorem resend_reopens_invitation :
    ¬ Config.Along DecisionsFinal (handler .transparent)
      (Config.init tester : Organizations.Config) belatedResend ∧
    acceptances 4 ((Config.init tester : Organizations.Config).run (handler .transparent)
      belatedResend).world.trace = 2 := by
  decide +kernel

/-! ## The current invitation -/

/-- At the commit of an acceptance the invitation carries the presented hash, its
organization is not deleted, and the membership gets its role. -/
def AcceptsCurrent (w w' : World) : Prop :=
  ∀ e ∈ w.newEvents w', ∀ a ∈ e.2.acceptance,
    ∃ i ∈ w.store.invitations, i.id = a.invitationId ∧ i.tokenHash = a.tokenHash ∧
      (∃ o ∈ w.store.organizations, o.id = i.organizationId ∧ o.deletedAt = none) ∧
      ∃ m ∈ w'.store.memberships, m.id = a.membershipId ∧
        m.organizationId = i.organizationId ∧ m.role = i.role

instance (w w' : World) : Decidable (AcceptsCurrent w w') :=
  inferInstanceAs (Decidable (∀ e ∈ w.newEvents w', ∀ a ∈ e.2.acceptance,
    ∃ i ∈ w.store.invitations, i.id = a.invitationId ∧ i.tokenHash = a.tokenHash ∧
      (∃ o ∈ w.store.organizations, o.id = i.organizationId ∧ o.deletedAt = none) ∧
      ∃ m ∈ w'.store.memberships, m.id = a.membershipId ∧
        m.organizationId = i.organizationId ∧ m.role = i.role))

/-- No resend of the invitation commits between the lookup of an acceptance and its commit. -/
def NotRotated (w w' : World) : Prop :=
  ∀ e ∈ w.newEvents w', ∀ invitationId ∈ e.2.accepted, ∀ since ∈ w.trace.tails,
    since.head? = some (e.1, .invitationFound invitationId) →
      ∀ x ∈ since, x.2 ≠ .invitationResent invitationId

instance (w w' : World) : Decidable (NotRotated w w') :=
  inferInstanceAs (Decidable (∀ e ∈ w.newEvents w', ∀ invitationId ∈ e.2.accepted,
    ∀ since ∈ w.trace.tails, since.head? = some (e.1, .invitationFound invitationId) →
      ∀ x ∈ since, x.2 ≠ .invitationResent invitationId))

section Steps
variable {pid : Nat} {w w' : World}

theorem acceptsCurrent_other (h : ∀ e ∈ w.newEvents w', e.2.acceptance = none) :
    AcceptsCurrent w w' := by
  intro e he
  rw [h e he]
  nofun

/-- What an acceptance has looked up is still true of the row that it finds open. -/
theorem Invitation.LookedUp.current {invitation : Invitation} {accepted : Invitation}
    (h : invitation.LookedUp pid w) (hknown : invitation.Known w.store)
    (hrotated : ∀ since ∈ w.trace.tails,
      since.head? = some (pid, .invitationFound invitation.id) →
        ∀ x ∈ since, x.2 ≠ .invitationResent invitation.id)
    (haccepted : accepted ∈ w.store.invitations) (hid : accepted.id = invitation.id)
    (hpending : accepted.status = .pending) :
    accepted.tokenHash = invitation.tokenHash ∧
      ∃ o ∈ w.store.organizations, o.id = accepted.organizationId ∧ o.deletedAt = none := by
  obtain ⟨before, since, htrace, hsince⟩ := h
  have hquiet : ∀ q, (q, .invitationResent invitation.id) ∉ since := by
    intro q hmem
    have hsuffix : (pid, .invitationFound invitation.id) :: since ∈ w.trace.tails := by
      rw [htrace, List.mem_tails]
      exact List.suffix_append before _
    exact hrotated _ hsuffix rfl _ (List.mem_cons_of_mem _ hmem) rfl
  obtain ⟨htoken, hlive⟩ := hsince hquiet accepted haccepted hid
  obtain ⟨horg, -, -⟩ := hknown.2 accepted haccepted hid
  refine ⟨htoken, ?_⟩
  rw [horg]
  exact hlive hpending

theorem Effect.acceptsCurrent (h : Effect pid w w') (hrotated : NotRotated w w') :
    AcceptsCurrent w w' := by
  cases h with
  | idle => exact acceptsCurrent_other (by simp)
  | invitationAccepted invitation userId now nextId notifications hnext horganization hrole hknown
      hlookup hopen hvalid hsound =>
    obtain ⟨accepted, haccepted, hp⟩ := List.countP_pos_iff.mp (by rw [hopen]; exact Nat.one_pos)
    obtain ⟨hid, hpending⟩ := Invitation.open_pending hp
    have hquiet := hrotated (pid, .invitationAccepted invitation.id w.store.nextId
      invitation.tokenHash) (by simp) invitation.id rfl
    obtain ⟨htoken, hlive⟩ := hlookup.current hknown hquiet haccepted hid hpending
    obtain ⟨horg, hrole', -⟩ := hknown.2 accepted haccepted hid
    intro e he a ha
    simp only [World.newEvents_advance, List.map_cons, List.map_nil, List.mem_singleton] at he
    subst he
    cases ha
    refine ⟨accepted, haccepted, hid, htoken, hlive, _,
      List.mem_append_right _ (List.mem_singleton_self _), rfl, horg.symm, hrole'.symm⟩
  | _ => exact acceptsCurrent_other (by simp [Event.acceptance])

end Steps

/-- In a run in which no token is rotated under an acceptance, every acceptance goes by
the invitation as it is when the membership is created. -/
theorem acceptance_uses_current_invitation (env : Environment) (s : Store) (hn : Numbered s)
    (acts : List (Action Request Input))
    (hrotated : Config.Along NotRotated (handler env) (Config.init s : Organizations.Config) acts) :
    Config.Along AcceptsCurrent (handler env) (Config.init s : Organizations.Config) acts := by
  refine Config.Along.mp ?_ hrotated
  refine Config.Meets.along (P := fun _ => True) (fun r _ _ _ _ _ => handler_keeps env r)
    (Config.Meets.init hn) True.intro (fun w _ _ _ => ?_) (fun pid w w' _ _ he _ => ?_)
  · exact acceptsCurrent_other (by simp)
  · exact ⟨he.acceptsCurrent, True.intro⟩

theorem acceptance_uses_current_timely :
    Config.Along NotRotated (handler .transparent) (Config.init tester : Organizations.Config)
      timelyResend ∧
    Config.Along AcceptsCurrent (handler .transparent) (Config.init tester : Organizations.Config)
      timelyResend := by
  have hrotated : Config.Along NotRotated (handler .transparent)
      (Config.init tester : Organizations.Config) timelyResend := by
    decide +kernel
  exact ⟨hrotated, acceptance_uses_current_invitation .transparent tester (numbered_withUsers _ _)
    timelyResend hrotated⟩

/-- The invited user has looked the invitation up with the old token when the owner resends it. -/
def rotatedAcceptance : List (Action Request Input) :=
  [.request (.createOrganization ⟨0, "a@example.org", true⟩ "acme")] ++ advances 0 2 (.at 0 "") ++
  [.request (.createInvitation 2 0 ⟨"b@example.org", .member⟩)] ++ advances 1 8 (.at 0 "token") ++
  [.request (.acceptInvitation ⟨1, "b@example.org", true⟩ "token")] ++ advances 2 2 (.at 0 "") ++
  [.request (.resendInvitation 2 0 4)] ++ advances 3 9 (.at 0 "second") ++ advances 2 2 (.at 0 "")

theorem acceptance_uses_rotated_token :
    ¬ Config.Along AcceptsCurrent (handler .transparent)
      (Config.init tester : Organizations.Config)
      rotatedAcceptance := by
  decide +kernel

end ShipFlow.Organizations
