import Mathlib.Data.List.Pairwise
import ShipFlow.Organizations.Provenance

/-! Invitations and the members they would invite. Requests are performed one after the
other, each of them at one instant. -/

namespace ShipFlow.Organizations
open Interleaving Interleaving.Process Relational

/-- The e-mail address is that of a current member of the organization. -/
def Store.hasMember (s : Store) (organizationId : Id) (email : String) : Bool :=
  s.memberships.any fun m => m.organizationId == organizationId &&
    (s.findUser m.userId).any fun u => u.email == email

/-- No current member has an unexpired pending invitation. Time only closes invitations. -/
def Store.MembersUninvited (s : Store) (now : Time) : Prop :=
  ∀ i ∈ s.invitations, i.status = .pending → now < i.expiresAt →
    s.hasMember i.organizationId i.email = false

instance {s : Store} {now : Time} : Decidable (s.MembersUninvited now) :=
  inferInstanceAs (Decidable (∀ i ∈ s.invitations, i.status = .pending → now < i.expiresAt →
    s.hasMember i.organizationId i.email = false))

/-- Who accepts an invitation is a user of the store, as `AccessTokenGuard` has read it. -/
def Request.Authentic (users : List UserRecord) : Request → Prop
  | .acceptInvitation user _ =>
    ∃ u, users.find? (fun u => u.id == user.id) = some u ∧ u.email = user.email
  | _ => True

/-- A resend that goes through although its expired invitation is for a current member. -/
inductive Reinvites (env : Environment) (s : Store) (input : Input) : Request → Prop where
  | resendInvitation (organizationId userId : Id) (context : OrganizationContext)
      (invitation : Invitation)
      (hcontext : s.organizationContext organizationId userId = some context)
      (hcapable : assertCapabilities context.role [.invitationResend] = .ok ())
      (hassign : assertCanAssignMembershipRole context.role invitation.role = .ok ())
      (hinvitation : invitation ∈ s.invitations)
      (horganization : invitation.organizationId = organizationId)
      (hexpired : invitation.status = .expired)
      (hmember : s.hasMember organizationId invitation.email = true)
      (htoken : ∀ i ∈ s.invitations, i.id ≠ invitation.id →
        i.tokenHash ≠ env.hashOpaqueToken input.token) :
    Reinvites env s input (.resendInvitation organizationId userId invitation.id)

/-- The invariant. An invitation that is pending, whether overdue or not, is for somebody who
is not a member. -/
structure Separate (s : Store) : Prop where
  distinct : distinct invitations.collides s.invitations = true
  apart : ∀ i ∈ s.invitations, i.status = .pending → s.hasMember i.organizationId i.email = false

/-! ## Members -/

section Members
variable {s s' : Store} {organizationId : Id} {email : String}

theorem Store.hasMember_iff : s.hasMember organizationId email = true ↔
    ∃ m ∈ s.memberships, m.organizationId = organizationId ∧
      ∃ u, s.findUser m.userId = some u ∧ u.email = email := by
  simp only [Store.hasMember, List.any_eq_true, Bool.and_eq_true, beq_iff_eq, Option.any_eq_true]

/-- Members stay as long as the organization and the user of their membership do. -/
theorem hasMember_mono (husers : s'.users = s.users)
    (hmemberships : ∀ m' ∈ s'.memberships, ∃ m ∈ s.memberships,
      m.organizationId = m'.organizationId ∧ m.userId = m'.userId)
    (h : s.hasMember organizationId email = false) : s'.hasMember organizationId email = false := by
  rw [← Bool.not_eq_true] at h ⊢
  intro hmember
  apply h
  obtain ⟨m', hm', horg, u, hu, hemail⟩ := Store.hasMember_iff.mp hmember
  obtain ⟨m, hm, horg', huser⟩ := hmemberships m' hm'
  refine Store.hasMember_iff.mpr ⟨m, hm, horg'.trans horg, u, ?_, hemail⟩
  rw [huser, ← hu, Store.findUser, Store.findUser, husers]

end Members

/-! ## Invitations that are closed -/

/-- The rows are as before, except for some that are no longer pending. -/
def Settles (rows rows' : List Invitation) : Prop :=
  (distinct invitations.collides rows = true → distinct invitations.collides rows' = true) ∧
    ∀ i ∈ rows', i.status = .pending → i ∈ rows

theorem Settles.refl {rows : List Invitation} : Settles rows rows := ⟨id, fun _ hi _ => hi⟩

theorem Settles.trans {rows rows' rows'' : List Invitation} (h : Settles rows rows')
    (h' : Settles rows' rows'') : Settles rows rows'' :=
  ⟨fun hdistinct => h'.1 (h.1 hdistinct), fun i hi hp => h.2 i (h'.2 i hi hp) hp⟩

theorem settles_updateRows {rows : List Invitation} (p : Invitation → Bool)
    {f : Invitation → Invitation} (hid : ∀ i, (f i).id = i.id)
    (htoken : ∀ i, (f i).tokenHash = i.tokenHash) (hclosed : ∀ i, (f i).status ≠ .pending) :
    Settles rows (updateRows p f rows) := by
  constructor
  · refine distinct_updateRows_of_imp fun a b => ?_
    simp only [invitations, hid, htoken, hclosed, Bool.or_eq_true, Bool.and_eq_true, beq_iff_eq,
      and_false, or_false, false_and]
    tauto
  · intro i hi hp
    rcases mem_updateRows.mp hi with ⟨hi, -⟩ | ⟨i₀, -, -, rfl⟩
    · exact hi
    · exact absurd hp (hclosed i₀)

theorem Marked.settles {inputs : Nat → Input} {organizationId : Id} {rows rows' : List Invitation}
    (h : Marked inputs organizationId rows rows') : Settles rows rows' := by
  obtain ⟨p, rfl, -⟩ := h
  exact settles_updateRows p (fun _ => rfl) (fun _ => rfl) fun _ => by simp

theorem Separate.settle {s s' : Store} (h : Separate s) (husers : s'.users = s.users)
    (hmemberships : ∀ m' ∈ s'.memberships, ∃ m ∈ s.memberships,
      m.organizationId = m'.organizationId ∧ m.userId = m'.userId)
    (hinvitations : Settles s.invitations s'.invitations) : Separate s' := by
  refine ⟨hinvitations.1 h.distinct, fun i hi hp => ?_⟩
  exact hasMember_mono husers hmemberships (h.apart i (hinvitations.2 i hi hp) hp)

theorem Separate.marked {s : Store} {inputs : Nat → Input} {organizationId : Id}
    {rows : List Invitation} (h : Separate s) (hrows : Marked inputs organizationId s.invitations rows) :
    Separate { s with invitations := rows } :=
  h.settle rfl (fun m hm => ⟨m, hm, rfl, rfl⟩) hrows.settles

/-- An organization that is just founded has sent no invitations. -/
theorem Separate.found {s : Store} (h : Separate s) (hn : Numbered s) (nextId : Id)
    (o : Organization) (m : Membership) (hm : s.nextId ≤ m.organizationId) :
    Separate { s with
      nextId := nextId
      organizations := s.organizations ++ [o]
      memberships := s.memberships ++ [m] } := by
  refine ⟨h.distinct, fun i hi hp => ?_⟩
  have hold := h.apart i hi hp
  rw [← Bool.not_eq_true] at hold ⊢
  intro hmember
  apply hold
  obtain ⟨m', hm', horg, hemail⟩ := Store.hasMember_iff.mp hmember
  rcases List.mem_append.mp hm' with hm' | hm'
  · exact Store.hasMember_iff.mpr ⟨m', hm', horg, hemail⟩
  · rw [List.mem_singleton.mp hm'] at horg
    have hlt := hn.invitingOrganizations i hi
    rw [← horg] at hlt
    exact absurd hlt (Nat.not_lt.mpr hm)

theorem invitations_collides_comm (a b : Invitation) :
    invitations.collides a b = invitations.collides b a := by
  rw [Bool.eq_iff_iff]
  simp only [invitations, Bool.or_eq_true, Bool.and_eq_true, beq_iff_eq]
  grind

/-- Two invitations of a table do not collide. -/
theorem not_collides {rows : List Invitation} (h : distinct invitations.collides rows = true)
    {a b : Invitation} (ha : a ∈ rows) (hb : b ∈ rows) (hne : a ≠ b) :
    invitations.collides a b = false := by
  have hsymm : Std.Symm fun a b => invitations.collides a b = false :=
    ⟨fun x y hxy => by rw [invitations_collides_comm]; exact hxy⟩
  exact (distinct_iff_pairwise.mp h).forall ha hb hne

/-- There is one pending invitation for an address. -/
theorem pending_unique {rows : List Invitation} (h : distinct invitations.collides rows = true)
    {a b : Invitation} (ha : a ∈ rows) (hb : b ∈ rows)
    (horganization : a.organizationId = b.organizationId) (hemail : a.email = b.email)
    (hpending : a.status = .pending) (hpending' : b.status = .pending) : a = b := by
  by_contra hne
  have hfree := not_collides h ha hb hne
  simp [invitations, horganization, hemail, hpending, hpending'] at hfree

/-! ## What the transactions leave distinct -/

section Transactions
variable {s s' : Store} {expiresAt : Time} {tokenHash : String}

theorem addInvitation_distinct {organizationId userId : Id} {email : String}
    {role : MembershipRole} {r : Invitation × Option UserRecord}
    (h : addInvitation organizationId userId email role tokenHash expiresAt s = .ok (r, s')) :
    distinct invitations.collides s'.invitations = true := by
  simp only [addInvitation, Transaction.bind_ok, Transaction.pure_ok, Transaction.reads_ok] at h
  obtain ⟨_, _, -, _, _, hi, _, _, ⟨-, rfl⟩, -, rfl⟩ := h
  obtain ⟨hsound, -, rfl⟩ := Table.create_ok.mp hi
  exact (Bool.and_eq_true_iff.mp hsound).2

theorem renewInvitation_distinct {invitationId userId : Id} {r : Invitation × Option UserRecord}
    (h : renewInvitation invitationId userId tokenHash expiresAt s = .ok (r, s')) :
    distinct invitations.collides s'.invitations = true := by
  simp only [renewInvitation, Transaction.bind_ok, Transaction.pure_ok, Transaction.reads_ok] at h
  obtain ⟨_, _, hu, _, _, ⟨-, rfl⟩, -, rfl⟩ := h
  obtain ⟨_, -, hsound, -, rfl⟩ := Table.update_ok.mp hu
  exact (Bool.and_eq_true_iff.mp hsound).2

end Transactions

/-! ## Requests that open no invitation -/

/-- The requests that make an invitation pending or accept one. -/
def Request.opens : Request → Bool
  | .createInvitation _ _ _ => true
  | .resendInvitation _ _ _ => true
  | .acceptInvitation _ _ => true
  | _ => false

theorem Performed.separate {env : Environment} {inputs : Nat → Input} {s s' : Store} {r : Request}
    {es : List Event} (h : Performed env inputs s r s' es) (hn : Numbered s) (hs : Separate s)
    (husers : s'.users = s.users) (hopens : r.opens = false) : Separate s' := by
  have hsame : ∀ m ∈ s.memberships, ∃ m₀ ∈ s.memberships,
      m₀.organizationId = m.organizationId ∧ m₀.userId = m.userId := fun m hm => ⟨m, hm, rfl, rfl⟩
  cases h with
  | nothing _ _ _ _ _ _ _ hmemberships hinvitations _ =>
    exact hs.settle husers (by rw [hmemberships]; exact hsame) hinvitations.settles
  | organizationCreated user name slug => exact hs.found hn _ _ _ (Nat.le_refl _)
  | organizationRenamed => exact hs.settle rfl hsame .refl
  | organizationDeleted =>
    exact hs.settle rfl hsame (settles_updateRows _ (fun _ => rfl) (fun _ => rfl) fun _ => by simp)
  | invitationCreated => cases hopens
  | invitationResent => cases hopens
  | invitationRevoked _ _ _ _ _ _ _ _ hmarked =>
    exact hs.settle rfl hsame (hmarked.settles.trans
      (settles_updateRows _ (fun _ => rfl) (fun _ => rfl) fun _ => by simp))
  | invitationAccepted => cases hopens
  | memberRoleChanged =>
    refine hs.settle rfl (fun m hm => ?_) .refl
    obtain ⟨m₀, hm₀, -, horg, huser⟩ := mem_setRole hm
    exact ⟨m₀, hm₀, horg, huser⟩
  | memberRemoved =>
    exact hs.settle rfl (fun m hm => hsame m (List.mem_of_mem_filter hm)) .refl
  | memberLeft =>
    exact hs.settle rfl (fun m hm => hsame m (List.mem_of_mem_filter hm)) .refl
  | ownershipTransferred =>
    refine hs.settle rfl (fun m hm => ?_) .refl
    obtain ⟨m₁, hm₁, -, horg, huser⟩ := mem_setRole hm
    obtain ⟨m₀, hm₀, -, horg₀, huser₀⟩ := mem_setRole hm₁
    exact ⟨m₀, hm₀, horg₀.trans horg, huser₀.trans huser⟩

/-! ## Requests that open an invitation -/

section Requests
variable {env : Environment} {inputs : Nat → Input} {input : Input} {pid : Nat} {w : World}
  {organizationId userId : Id} {context : OrganizationContext}

/-- `createInvitation` looks for the address among the members. -/
theorem createInvitation_separate (hs : Separate w.store) (dto : CreateInvitationDto) :
    Ends (Drawn inputs) pid (fun _ w' => Separate w'.store)
      (createInvitation env context userId dto) w := by
  unfold createInvitation
  refine Ends.ofExcept (fun _ _ => hs) fun _ _ => ?_
  refine expireInvitations_ends (fun _ => hs) fun marked hmarked => ?_
  have hstopped := hs.marked hmarked
  refine Ends.query (Ends.rejectIf (fun _ => hstopped) fun hnew => Ends.ask fun i _ =>
    Ends.ask fun j _ => ?_)
  refine Ends.bind (Ends.handle ?_)
  rw [← Process.bind_pure (Process.atomically _ _)]
  refine Ends.commit (fun _ => rfl) (fun _ _ r s' h => ?_) fun _ _ e _ => ?_
  · have hdistinct := addInvitation_distinct h
    obtain ⟨hr, -, rfl⟩ := addInvitation_ok h
    have hcreated : Separate { w.store with
        nextId := w.store.nextId + 1
        invitations := marked ++ [r.1] } := by
      refine ⟨hdistinct, fun i hi hp => ?_⟩
      rcases List.mem_append.mp hi with hi | hi
      · exact hstopped.apart i hi hp
      · rw [List.mem_singleton.mp hi, hr]
        exact hnew
    exact sendOrganizationInvitation_ends (fun _ => hcreated) hcreated
  · change Ends _ _ _ (if e.isUniqueConstraintError then _ else _) _
    split
    · exact Ends.throw hstopped
    · exact Ends.throw hstopped

theorem Separate.accepted {s : Store} (hs : Separate s) (hn : Numbered s) {user : AuthenticatedUser}
    (huser : ∃ u, s.findUser user.id = some u ∧ u.email = user.email) {invitation : Invitation}
    (hmem : invitation ∈ s.invitations) (hemail : invitation.email = user.email) {now : Time}
    (hopen : s.invitations.countP (Invitation.open invitation.id now) = 1) (nextId : Id)
    (notifications : List Notification) :
    Separate { s with
      nextId := nextId
      notifications := notifications
      invitations := updateRows (Invitation.open invitation.id now)
        (Invitation.acceptedBy user.id now) s.invitations
      memberships := s.memberships ++
        [⟨s.nextId, invitation.organizationId, user.id, invitation.role⟩] } := by
  have hselected : Invitation.open invitation.id now invitation = true := by
    obtain ⟨i, hi, hp⟩ := List.countP_pos_iff.mp (by rw [hopen]; exact Nat.one_pos)
    have hid : i.id = invitation.id := by
      simp only [Invitation.open, Bool.and_eq_true, beq_iff_eq] at hp
      exact hp.1.1
    rw [← hn.invitations.inj hi hmem hid]
    rw [← hn.invitations.inj hi hmem hid] at hp
    exact hp
  have hpending : invitation.status = .pending := by
    simp only [Invitation.open, Bool.and_eq_true, beq_iff_eq] at hselected
    exact hselected.1.2
  have hsettles : Settles s.invitations (updateRows (Invitation.open invitation.id now)
      (Invitation.acceptedBy user.id now) s.invitations) :=
    settles_updateRows _ (fun _ => rfl) (fun _ => rfl) fun _ => by simp [Invitation.acceptedBy]
  refine ⟨hsettles.1 hs.distinct, fun i hi hp => ?_⟩
  have hold := hs.apart i (hsettles.2 i hi hp) hp
  rw [← Bool.not_eq_true] at hold ⊢
  intro hmember
  obtain ⟨m, hm, horg, u, hu, hmail⟩ := Store.hasMember_iff.mp hmember
  rcases List.mem_append.mp hm with hm | hm
  · exact hold (Store.hasMember_iff.mpr ⟨m, hm, horg, u, hu, hmail⟩)
  · rw [List.mem_singleton.mp hm] at horg hu
    obtain ⟨u', hu', hmail'⟩ := huser
    obtain rfl : u = u' := Option.some.inj (hu.symm.trans hu')
    -- a second pending invitation for the address would have collided with the first
    have hsame : i = invitation := pending_unique hs.distinct (hsettles.2 i hi hp) hmem horg.symm
      (by rw [← hmail, hmail', hemail]) hp hpending
    subst hsame
    rcases mem_updateRows.mp hi with ⟨-, hoff⟩ | ⟨i₀, -, -, heq⟩
    · rw [hselected] at hoff
      cases hoff
    · rw [← heq] at hp
      cases hp

/-- A token that a resend has written is that of no other invitation. -/
theorem renewed_token {organizationId : Id} {rows marked : List Invitation} {existing : Invitation}
    {tokenHash : String} {expiresAt : Time} (hmarked : Marked inputs organizationId rows marked)
    (hexisting : existing ∈ marked)
    (hdistinct : distinct invitations.collides (updateRows (fun k => k.id == existing.id)
      (fun k => k.renew userId tokenHash expiresAt) marked) = true) :
    ∀ i ∈ rows, i.id ≠ existing.id → i.tokenHash ≠ tokenHash := by
  obtain ⟨p, rfl, -⟩ := hmarked
  intro i hi hne htoken
  have hrenewed : existing.renew userId tokenHash expiresAt ∈
      updateRows (fun k => k.id == existing.id) (fun k => k.renew userId tokenHash expiresAt)
        (updateRows p (fun i => { i with status := .expired }) rows) :=
    mem_updateRows.mpr (.inr ⟨existing, hexisting, beq_self_eq_true _, rfl⟩)
  -- the other invitation, which may itself have been marked
  obtain ⟨i', hi', hid', htoken'⟩ : ∃ i' ∈ updateRows p (fun i => { i with status := .expired }) rows,
      i'.id = i.id ∧ i'.tokenHash = i.tokenHash := by
    cases hp : p i with
    | true => exact ⟨_, mem_updateRows.mpr (.inr ⟨i, hi, hp, rfl⟩), rfl, rfl⟩
    | false => exact ⟨i, mem_updateRows.mpr (.inl ⟨hi, hp⟩), rfl, rfl⟩
  have hother : i' ∈ updateRows (fun k => k.id == existing.id)
      (fun k => k.renew userId tokenHash expiresAt)
        (updateRows p (fun i => { i with status := .expired }) rows) := by
    refine mem_updateRows.mpr (.inl ⟨hi', ?_⟩)
    rw [hid']
    exact beq_false_of_ne hne
  have hfree := not_collides hdistinct hother hrenewed fun heq => hne (by rw [← hid', heq]; rfl)
  simp [invitations, Invitation.renew, htoken', htoken] at hfree

theorem resent_not_member {invitationId : Id} {marked : List Invitation} {existing : Invitation}
    {expiresAt : Time} (hs : Separate w.store)
    (hcontext : w.store.organizationContext organizationId userId = some context)
    (hcapable : assertCapabilities context.role [.invitationResend] = .ok ())
    (hassign : assertCanAssignMembershipRole context.role existing.role = .ok ())
    (hmarked : Marked inputs organizationId w.store.invitations marked)
    (hexisting : existing ∈ marked) (hid : existing.id = invitationId)
    (horg : existing.organizationId = organizationId)
    (hunanswered : (existing.status == .accepted || existing.status == .revoked) = false)
    (hdistinct : distinct invitations.collides (updateRows (fun k => k.id == existing.id)
      (fun k => k.renew userId (env.hashOpaqueToken input.token) expiresAt) marked) = true)
    (hgood : ¬ Reinvites env w.store input (.resendInvitation organizationId userId invitationId)) :
    w.store.hasMember existing.organizationId existing.email = false := by
  rw [← Bool.not_eq_true]
  intro hmember
  have htoken := renewed_token hmarked hexisting hdistinct
  have hexpired : existing.status = .expired := by
    cases hstatus : existing.status with
    | pending =>
      have hapart : w.store.hasMember existing.organizationId existing.email = false :=
        (hs.marked hmarked).apart existing hexisting hstatus
      rw [hmember] at hapart
      cases hapart
    | accepted => simp [hstatus] at hunanswered
    | revoked => simp [hstatus] at hunanswered
    | expired => rfl
  obtain ⟨p, rfl, hp⟩ := hmarked
  rcases mem_updateRows.mp hexisting with ⟨hmem, -⟩ | ⟨i, hi, hpi, rfl⟩
  · apply hgood
    rw [← hid]
    exact .resendInvitation organizationId userId context existing hcontext hcapable hassign hmem
      horg hexpired (by rw [← horg]; exact hmember) htoken
  · have hapart := hs.apart i hi (hp i hi hpi).2.1
    rw [hmember] at hapart
    cases hapart

/-- Whatever a resend makes pending was not for a member, unless it had expired before. -/
theorem resendInvitation_separate {invitationId : Id} (hn : Numbered w.store)
    (hs : Separate w.store)
    (hcontext : w.store.organizationContext organizationId userId = some context)
    (hid : context.organization.id = organizationId)
    (hcapable : assertCapabilities context.role [.invitationResend] = .ok ())
    (hgood : ¬ Reinvites env w.store input (.resendInvitation organizationId userId invitationId)) :
    Ends (Drawn fun _ => input) pid (fun _ w' => Separate w'.store)
      (resendInvitation env context invitationId userId) w := by
  unfold resendInvitation
  rw [hid]
  refine expireInvitations_ends (fun _ => hs) fun marked hmarked => ?_
  have hstopped := hs.marked hmarked
  have hkeyed := hmarked.keyed hn.invitations
  refine findInvitation_ends (fun _ => hstopped) fun existing hexisting hexistingId horg => ?_
  refine Ends.ofExcept (fun _ _ => hstopped) fun _ hassign => ?_
  refine Ends.rejectIf (fun _ => hstopped) fun hunanswered => Ends.query (Ends.rejectIf
    (fun _ => hstopped) fun _ => Ends.ask fun i hi => Ends.ask fun j _ => ?_)
  obtain ⟨_, rfl⟩ := hi
  refine Ends.commit (fun _ => rfl) (fun _ _ r s' h => ?_) fun _ _ e _ => hstopped
  have hdistinct := renewInvitation_distinct h
  obtain ⟨-, rfl⟩ := renewInvitation_ok h
  have hnotMember := resent_not_member hs hcontext hcapable hassign hmarked hexisting hexistingId
    horg hunanswered (by rw [hexistingId]; exact hdistinct) hgood
  have hresent : Separate { w.store with
      invitations := updateRows (fun k => k.id == invitationId)
        (fun k => k.renew userId (env.hashOpaqueToken i.token) (invitationExpiration j.now))
        marked } := by
    refine ⟨hdistinct, fun k hk hp => ?_⟩
    rcases mem_updateRows.mp hk with ⟨hk, -⟩ | ⟨k₀, hk₀, hp₀, rfl⟩
    · exact hstopped.apart k hk hp
    · rw [hkeyed.inj hk₀ hexisting ((beq_iff_eq.mp hp₀).trans hexistingId.symm)]
      exact hnotMember
  exact sendOrganizationInvitation_ends (fun _ => hresent) hresent

/-- An acceptance uses up the one pending invitation for the address of the new member. -/
theorem acceptInvitation_separate (hn : Numbered w.store) (hs : Separate w.store)
    {user : AuthenticatedUser} (huser : ∃ u, w.store.findUser user.id = some u ∧ u.email = user.email)
    (hnormal : normalizeEmail env user.email = user.email) (token : String) :
    Ends (Drawn inputs) pid (fun _ w' => Separate w'.store) (acceptInvitation env user token) w := by
  unfold acceptInvitation
  refine Ends.ofExcept (fun _ _ => hs) fun _ _ =>
    Ends.atomically (fun _ _ found s' h => ?_) fun i _ e h => by simp [Transaction.reads] at h
  obtain ⟨hfound, rfl⟩ := (Transaction.reads_ok _ _ _ _).mp h
  cases found with
  | none => exact Ends.throw hs
  | some found =>
    obtain ⟨invitation, organization⟩ := found
    obtain ⟨_, hi, hmap⟩ := Option.bind_eq_some_iff.mp hfound.symm
    obtain ⟨_, -, heq⟩ := Option.map_eq_some_iff.mp hmap
    cases heq
    have hmem : invitation ∈ w.store.invitations := List.mem_of_find?_eq_some hi
    refine Ends.rejectIf (fun _ => hs) fun _ => Ends.rejectIf (fun _ => hs) fun _ =>
      Ends.ask fun i _ => ?_
    split
    · refine Ends.statement (fun _ s' h => ?_) fun _ _ => hs
      obtain ⟨-, -, rfl⟩ := Table.updateMany_ok.mp h
      exact Ends.throw (hs.settle rfl (fun m hm => ⟨m, hm, rfl, rfl⟩)
        (settles_updateRows _ (fun _ => rfl) (fun _ => rfl) fun _ => by simp))
    · refine Ends.rejectIf (fun _ => hs) fun hsame => ?_
      rw [← Process.bind_pure (Process.atomically _ _)]
      refine Ends.commit (fun _ => rfl) (fun i _ r s' h => ?_) fun _ _ _ _ => hs
      obtain ⟨-, hopen, -, -, nextId, notifications, -, rfl⟩ := accept_ok h
      refine Ends.pure (hs.accepted hn huser hmem ?_ hopen nextId notifications)
      rw [← hnormal]
      simpa using hsame

/-! ## A resend that goes through -/

theorem canActivate_passes {α : Type} {I : Input → Prop} {capabilities : List Capability}
    {k : OrganizationContext → Handler α} {Q : Except Failure α → World → Prop}
    (hcontext : w.store.organizationContext organizationId userId = some context)
    (hcapable : assertCapabilities context.role capabilities = .ok ())
    (hk : Ends I pid Q (k context) w) :
    Ends I pid Q (canActivate organizationId userId capabilities >>= k) w := by
  rw [canActivate, resolve, Process.bind_assoc, Process.bind_assoc]
  refine Ends.query ?_
  rw [hcontext]
  change Ends _ _ _ ((Process.ofExcept (assertCapabilities context.role capabilities) >>=
    fun _ => pure context) >>= k) w
  rw [hcapable]
  exact hk

theorem expired_valid {s : Store} (hn : Numbered s) {p : Invitation → Bool}
    (hpending : ∀ i, p i = true → i.status = .pending) :
    ValidInvitations (updateRows p (fun i => { i with status := .expired }) s.invitations) := by
  intro i hi
  rcases mem_updateRows.mp hi with ⟨hi, -⟩ | ⟨i₀, hi₀, hp, rfl⟩
  · exact hn.valid i hi
  · have hvalid := hn.valid i₀ hi₀
    simp only [Invitation.valid, hpending i₀ hp] at hvalid
    exact hvalid

/-- Marking pending invitations violates no constraint. -/
theorem expired_sound {s : Store} (hn : Numbered s) (hs : Separate s) {p : Invitation → Bool}
    (hpending : ∀ i, p i = true → i.status = .pending) : invitations.sound s
      (updateRows p (fun i => { i with status := .expired }) s.invitations) = true := by
  have hsettles : Settles s.invitations
      (updateRows p (fun i => { i with status := .expired }) s.invitations) :=
    settles_updateRows p (fun _ => rfl) (fun _ => rfl) fun _ => by simp
  rw [Table.sound, hsettles.1 hs.distinct, Bool.and_true, List.all_eq_true]
  exact expired_valid hn hpending

theorem expireInvitations_passes {α : Type} {I : Input → Prop} {email : Option String}
    {k : Unit → Handler α} {Q : Except Failure α → World → Prop} (hn : Numbered w.store)
    (hs : Separate w.store)
    (hk : ∀ p : Invitation → Bool, (∀ i, p i = true → i.status = .pending) →
      Ends I pid Q (k ()) ⟨{ w.store with
        invitations := updateRows p (fun i => { i with status := .expired }) w.store.invitations },
        w.trace⟩) :
    Ends I pid Q (expireInvitations organizationId email >>= k) w := by
  rw [expireInvitations, Process.bind_assoc]
  refine Ends.ask fun i _ => ?_
  rw [Process.bind_assoc]
  have hpending : ∀ k : Invitation, (k.organizationId == organizationId && k.status == .pending &&
      decide (k.expiresAt ≤ i.now) && email.all fun email => email.isEmpty || k.email == email) = true →
      k.status = .pending := by
    intro k hp
    simp only [Bool.and_eq_true, beq_iff_eq] at hp
    exact hp.1.1.2
  refine Ends.statement (fun _ s' hu => ?_) fun e hu => ?_
  · obtain ⟨-, -, rfl⟩ := Table.updateMany_ok.mp hu
    exact hk _ hpending
  · have hok := (Table.updateMany_ok (ε := Failure)).mpr ⟨expired_sound hn hs hpending, rfl, rfl⟩
    cases hok.symm.trans hu

theorem findInvitation_passes {α : Type} {I : Input → Prop} {invitation : Invitation}
    {k : Invitation → Handler α} {Q : Except Failure α → World → Prop}
    (hkeyed : Keyed w.store.nextId Invitation.id w.store.invitations)
    (hmem : invitation ∈ w.store.invitations) (hk : Ends I pid Q (k invitation) w) :
    Ends I pid Q (findInvitation invitation.organizationId invitation.id >>= k) w := by
  rw [findInvitation, Process.bind_assoc]
  refine Ends.query ?_
  cases hfound : w.store.invitations.find? fun i =>
      i.id == invitation.id && i.organizationId == invitation.organizationId with
  | none =>
    have hnone := List.find?_eq_none.mp hfound invitation hmem
    simp at hnone
  | some existing =>
    have hkeys := List.find?_some hfound
    simp only [Bool.and_eq_true, beq_iff_eq] at hkeys
    rw [hkeyed.inj (List.mem_of_find?_eq_some hfound) hmem hkeys.1]
    exact hk

theorem invitationExpiration_lt (now : Time) : now < invitationExpiration now := by
  have hdays : 0 < days ORGANIZATION_INVITATION_TTL_DAYS := by decide
  rw [invitationExpiration]
  lia

theorem expired_token {rows : List Invitation} {invitationId : Id} {tokenHash : String}
    (p : Invitation → Bool)
    (h : ∀ i ∈ rows, i.id ≠ invitationId → i.tokenHash ≠ tokenHash) :
    ∀ i ∈ updateRows p (fun i => { i with status := .expired }) rows,
      i.id ≠ invitationId → i.tokenHash ≠ tokenHash := by
  intro i hi hne
  rcases mem_updateRows.mp hi with ⟨hi, -⟩ | ⟨i₀, hi₀, -, rfl⟩
  · exact h i hi hne
  · exact h i₀ hi₀ hne

theorem renewInvitation_passes {s : Store} {invitationId : Id} {tokenHash : String}
    {expiresAt : Time} (hmem : ∃ i ∈ s.invitations, i.id = invitationId)
    (hsound : invitations.sound s (updateRows (fun i => i.id == invitationId)
      (fun i => i.renew userId tokenHash expiresAt) s.invitations) = true) :
    ∃ r, renewInvitation invitationId userId tokenHash expiresAt s = .ok r := by
  obtain ⟨i, hi, hid⟩ := hmem
  have hsome : (s.invitations.find? fun i => i.id == invitationId).isSome := by
    rw [List.find?_isSome]
    exact ⟨i, hi, beq_iff_eq.mpr hid⟩
  obtain ⟨i, hi⟩ := Option.isSome_iff_exists.mp hsome
  have hupdate := (Table.update_ok (ε := Failure)).mpr ⟨i, hi, hsound, rfl, rfl⟩
  exact ⟨_, (Transaction.bind_ok _ _ _ _ _).mpr ⟨_, _, hupdate, rfl⟩⟩

/-- A renewed invitation with a token of its own violates no constraint. -/
theorem renewed_sound {s : Store} {rows : List Invitation} {invitation : Invitation}
    {tokenHash : String} {expiresAt : Time} (hvalid : ValidInvitations rows)
    (hkeyed : Keyed s.nextId Invitation.id rows)
    (hdistinct : distinct invitations.collides rows = true) (hmem : invitation ∈ rows)
    (hpending : ∀ i ∈ rows, i.status = .pending → ¬ (i.organizationId = invitation.organizationId ∧
      i.email = invitation.email))
    (htoken : ∀ i ∈ rows, i.id ≠ invitation.id → i.tokenHash ≠ tokenHash) :
    invitations.sound s (updateRows (fun i => i.id == invitation.id)
      (fun i => i.renew userId tokenHash expiresAt) rows) = true := by
  have hrenewed : ∀ a ∈ rows, ∀ b ∈ rows, a.id = invitation.id → b.id ≠ invitation.id →
      invitations.collides (a.renew userId tokenHash expiresAt) b = false := by
    intro a ha b hb hid hne
    obtain rfl := hkeyed.inj ha hmem hid
    have hopen := hpending b hb
    have hfresh := htoken b hb hne
    rw [← Bool.not_eq_true]
    simp only [invitations, Invitation.renew, Bool.or_eq_true, Bool.and_eq_true, beq_iff_eq]
    rintro ((hsame | hsame) | ⟨⟨⟨horg, hemail⟩, -⟩, hp⟩)
    · exact hne hsame.symm
    · exact hfresh hsame.symm
    · exact hopen hp ⟨horg.symm, hemail.symm⟩
  rw [Table.sound, Bool.and_eq_true, List.all_eq_true]
  constructor
  · intro i hi
    rcases mem_updateRows.mp hi with ⟨hi, -⟩ | ⟨i₀, hi₀, -, rfl⟩
    · exact hvalid i hi
    · have hrole := hvalid i₀ hi₀
      simp only [Invitation.valid, Bool.and_eq_true] at hrole
      simp [invitations, Invitation.valid, Invitation.renew, hrole.1]
  · rw [distinct_iff_pairwise, updateRows, List.pairwise_map]
    refine (distinct_iff_pairwise.mp hdistinct).imp_of_mem fun {a b} ha hb hab => ?_
    have hne : a.id ≠ b.id := by
      intro hsame
      simp [invitations, hsame] at hab
    cases hpa : a.id == invitation.id with
    | true =>
      have hpb : b.id ≠ invitation.id := fun hsame => hne ((beq_iff_eq.mp hpa).trans hsame.symm)
      rw [if_pos rfl, if_neg (by simpa using hpb)]
      exact hrenewed a ha b hb (beq_iff_eq.mp hpa) hpb
    | false =>
      have hpa' : a.id ≠ invitation.id := by simpa using hpa
      rw [if_neg (by simp)]
      split
      · next hpb =>
        rw [invitations_collides_comm]
        exact hrenewed b hb a ha (beq_iff_eq.mp hpb) hpa'
      · exact hab

/-- The way from an expired invitation for a member to one that is open again. -/
theorem reinvites_open {r : Request} (hn : Numbered w.store) (hs : Separate w.store)
    (h : Reinvites env w.store input r) :
    Ends (Drawn fun _ => input) pid (fun _ w' => ¬ w'.store.MembersUninvited input.now)
      (handler env r) w := by
  cases h with
  | resendInvitation organizationId userId context invitation hcontext hcapable hassign hmem horg
      hexpired hmember htoken =>
    subst horg
    refine canActivate_passes hcontext hcapable (Ends.map ?_)
    unfold resendInvitation
    rw [organizationContext_id hcontext]
    refine expireInvitations_passes hn hs fun p hp => ?_
    have hstopped : Separate { w.store with
        invitations := updateRows p (fun i => { i with status := .expired }) w.store.invitations } :=
      hs.settle rfl (fun m hm => ⟨m, hm, rfl, rfl⟩)
        (settles_updateRows _ (fun _ => rfl) (fun _ => rfl) fun _ => by simp)
    have hmarked : invitation ∈
        updateRows p (fun i => { i with status := .expired }) w.store.invitations := by
      refine mem_updateRows.mpr (.inl ⟨hmem, ?_⟩)
      rw [← Bool.not_eq_true]
      intro hpi
      rw [hp invitation hpi] at hexpired
      cases hexpired
    have hkeyed : Keyed w.store.nextId Invitation.id
        (updateRows p (fun i => { i with status := .expired }) w.store.invitations) :=
      hn.invitations.updateRows fun _ => rfl
    refine findInvitation_passes hkeyed hmarked ?_
    rw [hassign, hexpired]
    -- no other invitation for the address is pending, for its owner is a member
    have hnone : ∀ i ∈ updateRows p (fun i => { i with status := .expired }) w.store.invitations,
        i.status = .pending → ¬ (i.organizationId = invitation.organizationId ∧
          i.email = invitation.email) := by
      rintro i hi hpi ⟨horg, hemail⟩
      have hapart : w.store.hasMember i.organizationId i.email = false := hstopped.apart i hi hpi
      rw [horg, hemail, hmember] at hapart
      cases hapart
    refine Ends.ofExcept (fun _ h => by cases h) fun _ _ => Ends.rejectIf (fun h => by cases h)
      fun _ => Ends.query (Ends.rejectIf (fun h => ?_) fun _ => Ends.ask fun i hi =>
        Ends.ask fun j hj => ?_)
    · obtain ⟨i, hi, hconflict⟩ := List.any_eq_true.mp h
      simp only [Bool.and_eq_true, beq_iff_eq] at hconflict
      exact absurd hconflict.1.1 (hnone i hi hconflict.1.2)
    · obtain ⟨_, rfl⟩ := hi
      obtain ⟨_, rfl⟩ := hj
      refine Ends.commit (fun _ => rfl) (fun _ _ r s' h => ?_) fun _ _ e h => ?_
      · obtain ⟨-, rfl⟩ := renewInvitation_ok h
        have hopen : ¬ Store.MembersUninvited { w.store with
            invitations := updateRows (fun k => k.id == invitation.id)
              (fun k => k.renew userId (env.hashOpaqueToken j.token) (invitationExpiration j.now))
              (updateRows p (fun i => { i with status := .expired }) w.store.invitations) } j.now := by
          intro hclosed
          have hfalse : w.store.hasMember invitation.organizationId invitation.email = false :=
            hclosed (invitation.renew userId (env.hashOpaqueToken j.token) (invitationExpiration j.now))
              (mem_updateRows.mpr (.inr ⟨invitation, hmarked, beq_self_eq_true _, rfl⟩)) rfl
              (invitationExpiration_lt j.now)
          rw [hmember] at hfalse
          cases hfalse
        exact sendOrganizationInvitation_ends (fun _ => hopen) hopen
      · obtain ⟨s', h'⟩ := renewInvitation_passes ⟨invitation, hmarked, rfl⟩ (renewed_sound
          (expired_valid hn hp) hkeyed hstopped.distinct hmarked hnone (expired_token p htoken))
        cases h'.symm.trans h

end Requests

/-! ## Sequences -/

/-- The invariant of a sequence; none of the requests touches the users. -/
structure Uncontested (users : List UserRecord) (w : World) : Prop where
  users : w.store.users = users
  numbered : Numbered w.store
  separate : Separate w.store

section Sequences
variable {env : Environment} {users : List UserRecord} {w : World}

theorem Effect.users_eq {pid : Nat} {w w' : World} (h : Effect pid w w') :
    w'.store.users = w.store.users := by
  cases h with
  | _ => rfl

theorem perform_users (hn : Numbered w.store) (pid : Nat) (call : Call Request Input) :
    (perform (handler env) pid call w).after.store.users = w.store.users := by
  have hkeeps : discipline.Keeps pid (handler env call.request) w := handler_keeps env call.request
  have hpath : ∀ w', Relation.ReflTransGen (Effect pid) w w' → w'.store.users = w.store.users := by
    intro w' hw'
    induction hw' with
    | refl => rfl
    | tail _ hstep ih => exact hstep.users_eq.trans ih
  exact hpath _ (hkeeps.alone_guar hn call.inputs)

/-- A request that does not invite a member again leaves the members without invitations. -/
theorem perform_separate (h : Uncontested users w)
    (husers : ∀ u ∈ users, normalizeEmail env u.email = u.email) (pid : Nat) {r : Request}
    (input : Input) (hauthentic : r.Authentic users) (hgood : ¬ Reinvites env w.store input r) :
    Separate (perform (handler env) pid (Call.atOnce r input) w).after.store := by
  have halone : ∀ {r : Request}, Ends (Drawn fun _ => input) pid (fun _ w' => Separate w'.store)
      (handler env r) w → Separate (perform (handler env) pid (Call.atOnce r input) w).after.store :=
    fun hends => hends.alone fun n => ⟨n, rfl⟩
  cases hopens : r.opens with
  | false =>
    obtain ⟨-, es, -, hperformed⟩ := perform_performed env h.numbered pid (Call.atOnce r input)
    exact hperformed.separate h.numbered h.separate (perform_users h.numbered pid _) hopens
  | true =>
    cases r with
    | createInvitation organizationId userId dto =>
      exact halone (canActivate_ends (fun _ => h.separate) fun _ _ _ =>
        Ends.map (createInvitation_separate h.separate dto))
    | resendInvitation organizationId userId invitationId =>
      exact halone (canActivate_ends (fun _ => h.separate) fun _ hcontext hcapable =>
        Ends.map (resendInvitation_separate h.numbered h.separate hcontext
          (organizationContext_id hcontext) hcapable hgood))
    | acceptInvitation user token =>
      obtain ⟨u, hu, hemail⟩ := hauthentic
      have hfound : ∃ u, w.store.findUser user.id = some u ∧ u.email = user.email := by
        refine ⟨u, ?_, hemail⟩
        rw [Store.findUser, h.users]
        exact hu
      have hnormal : normalizeEmail env user.email = user.email := by
        rw [← hemail]
        exact husers u (List.mem_of_find?_eq_some hu)
      exact halone (Ends.map (acceptInvitation_separate h.numbered h.separate hfound hnormal token))
    | _ => cases hopens

/-- After any step the members have no open invitation, exactly if no step resends an expired
invitation to somebody who is a member by then. -/
theorem members_uninvited_iff (env : Environment) (nextId : Id) (users : List UserRecord)
    (husers : ∀ u ∈ users, normalizeEmail env u.email = u.email) (calls : List (Request × Input))
    (hcalls : ∀ call ∈ calls, call.1.Authentic users) :
    (∀ step ∈ history (handler env) 0 ⟨.withUsers nextId users, []⟩
        (calls.map fun call => Call.atOnce call.1 call.2),
      step.after.store.MembersUninvited (step.call.inputs 0).now) ↔
    ∀ step ∈ history (handler env) 0 ⟨.withUsers nextId users, []⟩
        (calls.map fun call => Call.atOnce call.1 call.2),
      ¬ Reinvites env step.before.store (step.call.inputs 0) step.call.request := by
  refine history_forall_iff (J := Uncontested users)
    (A := fun call => ∃ r input, call = Call.atOnce r input ∧ r.Authentic users)
    ?_ ?_ 0 ?_ ⟨rfl, numbered_withUsers nextId users, ⟨rfl, fun _ hi => absurd hi List.not_mem_nil⟩⟩
  · rintro pid w _ ⟨r, input, rfl, hauthentic⟩ hw hgood
    have hnumbered := (perform_performed env hw.numbered pid (Call.atOnce r input)).1
    exact ⟨(perform_users hw.numbered pid _).trans hw.users, hnumbered,
      perform_separate hw husers pid input hauthentic hgood⟩
  · rintro pid w _ ⟨r, input, rfl, hauthentic⟩ hw
    constructor
    · intro hclosed hbad
      have hends : Ends (Drawn fun _ => input) pid
          (fun _ w' => ¬ w'.store.MembersUninvited input.now) (handler env r) w :=
        reinvites_open hw.numbered hw.separate hbad
      exact hends.alone (fun n => ⟨n, rfl⟩) hclosed
    · intro hgood i hi hp _
      exact (perform_separate hw husers pid input hauthentic hgood).apart i hi hp
  · intro call hcall
    obtain ⟨c, hc, rfl⟩ := List.mem_map.mp hcall
    exact ⟨c.1, c.2, rfl, hcalls c hc⟩

end Sequences

/-- An owner, and somebody to invite. -/
def inviteeUsers : List UserRecord := [⟨0, "owner@example.com", none, none⟩,
  ⟨1, "member@example.com", none, none⟩]

/-- The first invitation is not answered; a second one is accepted. -/
def acceptedSecondCalls : List (Request × Input) :=
  [(.createOrganization ⟨0, "owner@example.com", true⟩ "Acme", Input.at 0 ""),
    (.createInvitation 2 0 ⟨"member@example.com", .member⟩, Input.at 0 "first"),
    (.createInvitation 2 0 ⟨"member@example.com", .member⟩, Input.at (days 8) "second"),
    (.acceptInvitation ⟨1, "member@example.com", true⟩ "second", Input.at (days 8) "")]

/-- The first invitation is sent again to the member. -/
def reinvitedCalls : List (Request × Input) :=
  acceptedSecondCalls ++ [(.resendInvitation 2 0 4, Input.at (days 9) "third")]

theorem inviteeUsers_normal :
    ∀ u ∈ inviteeUsers, normalizeEmail Environment.transparent u.email = u.email := by
  decide +kernel

theorem reinvitedCalls_authentic : ∀ call ∈ reinvitedCalls, call.1.Authentic inviteeUsers := by
  simp only [reinvitedCalls, acceptedSecondCalls, List.cons_append, List.nil_append,
    List.forall_mem_cons, Request.Authentic, inviteeUsers]
  simp

theorem members_uninvited_second :
    let steps := history (handler Environment.transparent) 0 ⟨.withUsers 2 inviteeUsers, []⟩
      (acceptedSecondCalls.map fun call => Call.atOnce call.1 call.2)
    steps.length = 4 ∧ ∀ step ∈ steps,
      ¬ Reinvites Environment.transparent step.before.store (step.call.inputs 0)
        step.call.request := by
  have hauthentic : ∀ call ∈ acceptedSecondCalls, call.1.Authentic inviteeUsers := fun call hcall =>
    reinvitedCalls_authentic call (List.mem_append_left _ hcall)
  refine ⟨by decide +kernel, ?_⟩
  exact (members_uninvited_iff Environment.transparent 2 inviteeUsers inviteeUsers_normal
    acceptedSecondCalls hauthentic).mp (by decide +kernel)

theorem member_reinvited :
    ¬ ∀ (env : Environment) (nextId : Id) (users : List UserRecord),
      (∀ u ∈ users, normalizeEmail env u.email = u.email) →
      ∀ calls : List (Request × Input), (∀ call ∈ calls, call.1.Authentic users) →
        ∀ step ∈ history (handler env) 0 ⟨.withUsers nextId users, []⟩
          (calls.map fun call => Call.atOnce call.1 call.2),
        step.after.store.MembersUninvited (step.call.inputs 0).now := by
  intro h
  have hrun := h Environment.transparent 2 inviteeUsers inviteeUsers_normal reinvitedCalls
    reinvitedCalls_authentic
  revert hrun
  decide +kernel

end ShipFlow.Organizations
