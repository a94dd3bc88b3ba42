import ShipFlow.Organizations.Operations

/-! Where privileges come from. Requests are performed one after the other, and the
record of what was performed tells who granted what. -/

namespace ShipFlow.Organizations
open Interleaving Relational

def MembershipRole.privileged (role : MembershipRole) : Bool := role == .admin || role == .owner

def Store.IsOwnerOf (s : Store) (organizationId userId : Id) : Prop :=
  ∃ m ∈ s.memberships, m.organizationId = organizationId ∧ m.userId = userId ∧ m.role = .owner

/-- The requests that manage other members and invitations. -/
def Request.manages : Request → Bool
  | .createInvitation _ _ _ => true
  | .resendInvitation _ _ _ => true
  | .revokeInvitation _ _ _ => true
  | .updateMemberRole _ _ _ _ => true
  | .removeMember _ _ _ => true
  | _ => false

/-- Admins, owners and their invitations stay as they are, up to overdue invitations. -/
def SparesPrivileged (inputs : Nat → Input) (s s' : Store) : Prop :=
  s'.memberships.filter (fun m => m.role.privileged) =
      s.memberships.filter (fun m => m.role.privileged) ∧
    ∃ organizationId, Marked inputs organizationId
      (s.invitations.filter fun i => i.role.privileged)
      (s'.invitations.filter fun i => i.role.privileged)

abbrev Performance := Interleaving.Step Request Input Store Event Failure Response

def Performance.events (step : Performance) : List (Nat × Event) := step.before.newEvents step.after

/-- The request was made by the owner of the organization at that time. -/
def Performance.ByOwner (step : Performance) (organizationId : Id) : Prop :=
  ∃ userId, step.call.request.actor = some (organizationId, userId) ∧
    step.before.store.IsOwnerOf organizationId userId

/-- The invitation was created and each time sent again by an owner. -/
def SentByOwners (past : List Performance) (i : Invitation) : Prop :=
  (∃ t ∈ past, ∃ e ∈ t.events, e.2 = .invitationCreated i.id) ∧
    ∀ t ∈ past, ∀ e ∈ t.events, e.2.sent = some i.id → t.ByOwner i.organizationId

/-- The ways in which a membership is made that of an admin. -/
inductive GrantsAdmin (env : Environment) (earlier : List Performance) (step : Performance)
    (m : Membership) : Prop where
  | roleChanged (userId : Id)
      (hrequest : step.call.request = .updateMemberRole m.organizationId userId m.id .admin)
      (howner : step.before.store.IsOwnerOf m.organizationId userId)
  | ownershipTransferred (membershipId : Id)
      (hrequest : step.call.request = .transferOwnership m.organizationId m.userId membershipId)
      (howner : step.before.store.IsOwnerOf m.organizationId m.userId)
  | invitationAccepted (user : AuthenticatedUser) (token : String) (invitation : Invitation)
      (hrequest : step.call.request = .acceptInvitation user token) (huser : m.userId = user.id)
      (hinvitation : invitation ∈ step.before.store.invitations)
      (htoken : invitation.tokenHash = env.hashOpaqueToken token)
      (hpending : invitation.status = .pending) (hrole : invitation.role = .admin)
      (horganization : invitation.organizationId = m.organizationId)
      (hsent : SentByOwners earlier invitation)

def Store.IsAdmin (s : Store) (membershipId : Id) : Prop :=
  ∃ m ∈ s.memberships, m.id = membershipId ∧ m.role = .admin

/-- A step of the past made the membership that of an admin, and it has been so since. -/
def MadeAdmin (env : Environment) (past : List Performance) (m : Membership) : Prop :=
  ∃ earlier step later, past = earlier ++ step :: later ∧
    ¬ step.before.store.IsAdmin m.id ∧ GrantsAdmin env earlier step m ∧
    ∀ t ∈ step :: later, t.after.store.IsAdmin m.id

/-- Whoever is an owner after the step was so before, has founded the organization or
was given it by its owner. -/
def GrantsOwner (step : Performance) : Prop :=
  ∀ m ∈ step.after.store.memberships, m.role = .owner →
    m ∈ step.before.store.memberships ∨
    (∃ user name, step.call.request = .createOrganization user name ∧ m.userId = user.id) ∨
    ∃ userId, step.call.request = .transferOwnership m.organizationId userId m.id ∧
      step.before.store.IsOwnerOf m.organizationId userId

/-! ## The roles of actors -/

theorem organizationContext_role {s : Store} {organizationId userId : Id}
    {context : OrganizationContext}
    (h : s.organizationContext organizationId userId = some context) :
    ∃ m ∈ s.memberships, m.id = context.membershipId ∧ m.organizationId = organizationId ∧
      m.userId = userId ∧ m.role = context.role := by
  obtain ⟨m, hm, hcontext⟩ := Option.bind_eq_some_iff.mp h
  obtain ⟨o, ho, rfl⟩ := Option.map_eq_some_iff.mp hcontext
  have hkeys := List.find?_some hm
  simp only [Bool.and_eq_true, beq_iff_eq] at hkeys
  exact ⟨m, List.mem_of_find?_eq_some hm, rfl, hkeys.1.1, hkeys.1.2, rfl⟩

theorem isOwnerOf_context {s : Store} {organizationId userId : Id} {context : OrganizationContext}
    (h : s.organizationContext organizationId userId = some context)
    (howner : context.role = .owner) : s.IsOwnerOf organizationId userId := by
  obtain ⟨m, hm, -, horg, huser, hrole⟩ := organizationContext_role h
  exact ⟨m, hm, horg, huser, hrole.trans howner⟩

/-- Only an owner assigns the role of an admin. -/
theorem assign_privileged {actorRole assignedRole : MembershipRole} {u : Unit}
    (h : assertCanAssignMembershipRole actorRole assignedRole = .ok u)
    (hprivileged : assignedRole.privileged = true) : actorRole = .owner := by
  cases assignedRole with
  | owner => exact absurd rfl (assertCanAssignMembershipRole_ok h)
  | admin =>
    cases actorRole with
    | owner => rfl
    | admin => cases h
    | member => cases h
    | viewer => cases h
  | member => cases hprivileged
  | viewer => cases hprivileged

theorem assertCapabilities_ok {role : MembershipRole} {capability : Capability} {u : Unit}
    (h : assertCapabilities role [capability] = .ok u) : hasCapability role capability = true := by
  cases hcapable : hasCapability role capability with
  | true => rfl
  | false =>
    simp only [assertCapabilities, List.any_cons, hcapable, List.any_nil] at h
    cases h

theorem assertCanManageMembership_ok {actorRole targetRole : MembershipRole}
    {actorMembershipId targetId : Id} {capability : Capability} {u : Unit}
    (h : assertCanManageMembership actorRole actorMembershipId targetId targetRole capability =
      .ok u) : hasCapability actorRole capability = true ∧ targetRole ≠ .owner ∧
      ¬ (actorRole = .admin ∧ targetRole = .admin) := by
  unfold assertCanManageMembership at h
  cases hcapable : assertCapabilities actorRole [capability] with
  | error e =>
    rw [hcapable] at h
    cases h
  | ok u =>
    rw [hcapable] at h
    refine ⟨assertCapabilities_ok hcapable, ?_, ?_⟩
    · rintro rfl
      cases h
    · rintro ⟨rfl, rfl⟩
      cases hself : actorMembershipId == targetId with
      | true =>
        simp only [hself] at h
        cases h
      | false =>
        simp only [hself] at h
        cases h

/-- Only an owner manages an admin, and nobody manages the owner. -/
theorem manage_privileged {actorRole targetRole : MembershipRole} {actorMembershipId targetId : Id}
    {capability : Capability} {u : Unit}
    (hcapability : ∀ role, hasCapability role capability = true → role = .owner ∨ role = .admin)
    (h : assertCanManageMembership actorRole actorMembershipId targetId targetRole capability =
      .ok u) (hprivileged : targetRole.privileged = true) : actorRole = .owner := by
  obtain ⟨hcapable, howner, hadmin⟩ := assertCanManageMembership_ok h
  have htarget : targetRole = .admin := by
    simp only [MembershipRole.privileged, Bool.or_eq_true, beq_iff_eq] at hprivileged
    exact hprivileged.resolve_right howner
  rcases hcapability actorRole hcapable with hactor | hactor
  · exact hactor
  · exact absurd ⟨hactor, htarget⟩ hadmin

theorem changeRole_capable (role : MembershipRole)
    (h : hasCapability role .membershipChangeRole = true) : role = .owner ∨ role = .admin := by
  cases role with
  | owner => exact .inl rfl
  | admin => exact .inr rfl
  | member => cases h
  | viewer => cases h

theorem remove_capable (role : MembershipRole)
    (h : hasCapability role .membershipRemove = true) : role = .owner ∨ role = .admin := by
  cases role with
  | owner => exact .inl rfl
  | admin => exact .inr rfl
  | member => cases h
  | viewer => cases h

/-! ## What a request may touch -/

theorem Marked.filter {inputs : Nat → Input} {organizationId : Id} {rows rows' : List Invitation}
    (h : Marked inputs organizationId rows rows') (q : MembershipRole → Bool) :
    Marked inputs organizationId (rows.filter fun i => q i.role) (rows'.filter fun i => q i.role) := by
  obtain ⟨p, rfl, hp⟩ := h
  exact ⟨p, filter_updateRows _ fun _ => rfl, fun i hi => hp i (List.mem_of_mem_filter hi)⟩

theorem Marked.keyed {inputs : Nat → Input} {organizationId : Id} {rows rows' : List Invitation}
    {n : Id} (h : Marked inputs organizationId rows rows') (hkeyed : Keyed n Invitation.id rows) :
    Keyed n Invitation.id rows' := by
  obtain ⟨p, rfl, -⟩ := h
  exact hkeyed.updateRows fun _ => rfl

section Steps
variable {env : Environment} {inputs : Nat → Input} {s s' : Store} {r : Request} {es : List Event}
  {organizationId userId : Id}

/-- An update of rows below the privileged roles leaves the privileged ones. -/
theorem spares_update {ρ : Type} {n : Id} {key : ρ → Id} {role : ρ → MembershipRole} {rows : List ρ}
    {target : ρ} {f : ρ → ρ} {id : Id} (hkeyed : Keyed n key rows) (htarget : target ∈ rows)
    (hid : key target = id) (hbefore : (role target).privileged = false)
    (hafter : ∀ r, key r = id → role r = role target → (role (f r)).privileged = false) :
    (updateRows (fun r => key r == id) f rows).filter (fun r => (role r).privileged) =
      rows.filter fun r => (role r).privileged := by
  apply filter_updateRows_off
  intro r hr hp
  have hkey : key r = id := beq_iff_eq.mp hp
  have hsame : r = target := hkeyed.inj hr htarget (hkey.trans hid.symm)
  subst hsame
  exact ⟨hbefore, hafter r hkey rfl⟩

theorem Performed.sparesPrivileged (h : Performed env inputs s r s' es) (hn : Numbered s)
    (hmanages : r.manages = true) (hactor : r.actor = some (organizationId, userId))
    (hactorRole : ¬ s.IsOwnerOf organizationId userId) : SparesPrivileged inputs s s' := by
  have hrole : ∀ context, s.organizationContext organizationId userId = some context →
      context.role ≠ .owner := fun context hcontext howner =>
    hactorRole (isOwnerOf_context hcontext howner)
  -- whoever is not the owner may neither assign a privileged role nor manage one
  cases h with
  | nothing _ _ _ _ _ _ _ hmemberships hinvitations _ =>
    exact ⟨by rw [hmemberships], _, hinvitations.filter _⟩
  | organizationCreated => cases hmanages
  | organizationRenamed => cases hmanages
  | organizationDeleted => cases hmanages
  | invitationCreated _ _ dto context marked invitation hcontext hassign hmarked hid horg hrole' =>
    cases hactor
    have hlow : invitation.role.privileged = false := by
      rw [hrole', ← Bool.not_eq_true]
      exact fun hprivileged => hrole context hcontext (assign_privileged hassign hprivileged)
    refine ⟨rfl, organizationId, ?_⟩
    rw [List.filter_append, List.filter_singleton, hlow, cond_false, List.append_nil]
    exact hmarked.filter _
  | invitationResent _ _ _ context marked existing tokenHash expiresAt hcontext hmarked hexisting hid horg
      hassign =>
    cases hactor
    have hlow : existing.role.privileged = false := by
      rw [← Bool.not_eq_true]
      exact fun hprivileged => hrole context hcontext (assign_privileged hassign hprivileged)
    refine ⟨rfl, organizationId, ?_⟩
    have hafter : ∀ i : Invitation, i.role = existing.role → i.role.privileged = false := by
      intro i hi
      rw [hi, hlow]
    have hsame := spares_update (f := fun i => i.renew userId tokenHash expiresAt)
      (hmarked.keyed hn.invitations) hexisting hid hlow fun i _ hi => hafter i hi
    rw [hsame]
    exact hmarked.filter _
  | invitationRevoked _ _ _ context marked existing now hcontext hmarked hexisting hid horg hassign =>
    cases hactor
    have hlow : existing.role.privileged = false := by
      rw [← Bool.not_eq_true]
      exact fun hprivileged => hrole context hcontext (assign_privileged hassign hprivileged)
    refine ⟨rfl, organizationId, ?_⟩
    have hafter : ∀ i : Invitation, i.role = existing.role → i.role.privileged = false := by
      intro i hi
      rw [hi, hlow]
    have hsame := spares_update (f := fun i => { i with status := .revoked, revokedAt := some now })
      (hmarked.keyed hn.invitations) hexisting hid hlow fun i _ hi => hafter i hi
    rw [hsame]
    exact hmarked.filter _
  | invitationAccepted => cases hmanages
  | memberRoleChanged _ _ membershipId role context target nextId notifications hcontext htarget hid
      horg hmanage hassign hnext =>
    cases hactor
    have hlow : target.role.privileged = false := by
      rw [← Bool.not_eq_true]
      exact fun hprivileged => hrole context hcontext
        (manage_privileged changeRole_capable hmanage hprivileged)
    have hnew : role.privileged = false := by
      rw [← Bool.not_eq_true]
      exact fun hprivileged => hrole context hcontext (assign_privileged hassign hprivileged)
    exact ⟨spares_update hn.memberships htarget hid hlow fun _ _ _ => hnew, organizationId, .refl⟩
  | memberRemoved _ _ membershipId context target nextId notifications hcontext htarget hid horg
      hmanage hnext =>
    cases hactor
    refine ⟨filter_filter_off _ fun m hm hprivileged => ?_, organizationId, .refl⟩
    have hne : m.id ≠ membershipId := by
      intro hsame
      rw [hn.memberships.inj hm htarget (hsame.trans hid.symm)] at hprivileged
      exact hrole context hcontext (manage_privileged remove_capable hmanage hprivileged)
    simpa using hne
  | memberLeft => cases hmanages
  | ownershipTransferred => cases hmanages

/-! ## Where a role comes from -/

theorem Performed.membership_keys (h : Performed env inputs s r s' es) {m : Membership}
    (hm : m ∈ s'.memberships) : s.nextId ≤ m.id ∨ ∃ m₀ ∈ s.memberships,
      m₀.id = m.id ∧ m₀.organizationId = m.organizationId ∧ m₀.userId = m.userId := by
  cases h with
  | nothing _ _ _ _ _ _ _ hmemberships _ _ =>
    rw [hmemberships] at hm
    exact .inr ⟨m, hm, rfl, rfl, rfl⟩
  | organizationCreated user name slug =>
    rcases List.mem_append.mp hm with hm | hm
    · exact .inr ⟨m, hm, rfl, rfl, rfl⟩
    · rw [List.mem_singleton.mp hm]
      exact .inl (Nat.le_succ _)
  | invitationAccepted =>
    rcases List.mem_append.mp hm with hm | hm
    · exact .inr ⟨m, hm, rfl, rfl, rfl⟩
    · rw [List.mem_singleton.mp hm]
      exact .inl (Nat.le_refl _)
  | memberRoleChanged => exact .inr (mem_setRole hm)
  | memberRemoved => exact .inr ⟨m, List.mem_of_mem_filter hm, rfl, rfl, rfl⟩
  | memberLeft => exact .inr ⟨m, List.mem_of_mem_filter hm, rfl, rfl, rfl⟩
  | ownershipTransferred =>
    obtain ⟨m₁, hm₁, hid, horg, huser⟩ := mem_setRole hm
    obtain ⟨m₀, hm₀, hid₀, horg₀, huser₀⟩ := mem_setRole hm₁
    exact .inr ⟨m₀, hm₀, hid₀.trans hid, horg₀.trans horg, huser₀.trans huser⟩
  | _ => exact .inr ⟨m, hm, rfl, rfl, rfl⟩

theorem Performed.admin_cases (h : Performed env inputs s r s' es) (hn : Numbered s)
    {m : Membership} (hm : m ∈ s'.memberships) (hrole : m.role = .admin) :
    m ∈ s.memberships ∨
    (∃ userId, r = .updateMemberRole m.organizationId userId m.id .admin ∧
      s.IsOwnerOf m.organizationId userId) ∨
    (∃ membershipId, r = .transferOwnership m.organizationId m.userId membershipId ∧
      s.IsOwnerOf m.organizationId m.userId) ∨
    ∃ user token, r = .acceptInvitation user token ∧ m.userId = user.id ∧
      ∃ i ∈ s.invitations, i.tokenHash = env.hashOpaqueToken token ∧ i.status = .pending ∧
        i.role = .admin ∧ i.organizationId = m.organizationId := by
  cases h with
  | nothing _ _ _ _ _ _ _ hmemberships _ _ =>
    rw [hmemberships] at hm
    exact .inl hm
  | organizationCreated user name slug =>
    rcases List.mem_append.mp hm with hm | hm
    · exact .inl hm
    · rw [List.mem_singleton.mp hm] at hrole
      cases hrole
  | invitationAccepted user token invitation now nextId notifications hinvitation htoken hpending
      hrole' hnext =>
    rcases List.mem_append.mp hm with hm | hm
    · exact .inl hm
    · obtain rfl := List.mem_singleton.mp hm
      exact .inr (.inr (.inr ⟨user, token, rfl, rfl, invitation, hinvitation, htoken, hpending,
        hrole, rfl⟩))
  | memberRoleChanged organizationId userId membershipId role context target nextId notifications
      hcontext htarget hid horg hmanage hassign hnext =>
    rcases mem_updateRows.mp hm with ⟨hm, -⟩ | ⟨m₀, hm₀, hp, rfl⟩
    · exact .inl hm
    · have hid₀ : m₀.id = membershipId := beq_iff_eq.mp hp
      -- the update selects the row whose role was checked, and no other
      have hsame : m₀ = target := hn.memberships.inj hm₀ htarget (hid₀.trans hid.symm)
      have hadmin : role = .admin := hrole
      have howner : context.role = .owner := by
        rw [hadmin] at hassign
        exact assign_privileged hassign rfl
      refine .inr (.inl ⟨userId, ?_, ?_⟩)
      · rw [← hid₀, ← horg, hsame, hadmin]
      · change s.IsOwnerOf m₀.organizationId userId
        rw [hsame, horg]
        exact isOwnerOf_context hcontext howner
  | memberRemoved => exact .inl (List.mem_of_mem_filter hm)
  | memberLeft => exact .inl (List.mem_of_mem_filter hm)
  | ownershipTransferred organizationId userId membershipId context target nextId notifications
      hcontext howner htarget hid horg hother hnext =>
    rcases mem_updateRows.mp hm with ⟨hm, -⟩ | ⟨m₁, -, -, rfl⟩
    · rcases mem_updateRows.mp hm with ⟨hm, -⟩ | ⟨m₀, hm₀, hp, rfl⟩
      · exact .inl hm
      · -- the previous owner is the actor
        obtain ⟨previous, hprevious, hpid, hporg, hpuser, -⟩ := organizationContext_role hcontext
        have hid₀ : m₀.id = context.membershipId := beq_iff_eq.mp hp
        obtain rfl := hn.memberships.inj hm₀ hprevious (hid₀.trans hpid.symm)
        refine .inr (.inr (.inl ⟨membershipId, ?_, ?_⟩))
        · rw [← hporg, ← hpuser]
        · change s.IsOwnerOf m₀.organizationId m₀.userId
          rw [hporg, hpuser]
          exact isOwnerOf_context hcontext howner
    · cases hrole
  | _ => exact .inl hm

theorem Performed.owner_cases (h : Performed env inputs s r s' es) (hn : Numbered s)
    {m : Membership} (hm : m ∈ s'.memberships) (hrole : m.role = .owner) :
    m ∈ s.memberships ∨
    (∃ user name, r = .createOrganization user name ∧ m.userId = user.id) ∨
    ∃ userId, r = .transferOwnership m.organizationId userId m.id ∧
      s.IsOwnerOf m.organizationId userId := by
  cases h with
  | nothing _ _ _ _ _ _ _ hmemberships _ _ =>
    rw [hmemberships] at hm
    exact .inl hm
  | organizationCreated user name slug =>
    rcases List.mem_append.mp hm with hm | hm
    · exact .inl hm
    · obtain rfl := List.mem_singleton.mp hm
      exact .inr (.inl ⟨user, name, rfl, rfl⟩)
  | invitationAccepted user token invitation now nextId notifications hinvitation htoken hpending
      hrole' hnext =>
    rcases List.mem_append.mp hm with hm | hm
    · exact .inl hm
    · obtain rfl := List.mem_singleton.mp hm
      exact absurd hrole hrole'
  | memberRoleChanged organizationId userId membershipId role context target nextId notifications
      hcontext htarget hid horg hmanage hassign hnext =>
    rcases mem_updateRows.mp hm with ⟨hm, -⟩ | ⟨m₀, hm₀, hp, rfl⟩
    · exact .inl hm
    -- nobody can assign the owner role
    · exact absurd hrole (assertCanAssignMembershipRole_ok hassign)
  | memberRemoved => exact .inl (List.mem_of_mem_filter hm)
  | memberLeft => exact .inl (List.mem_of_mem_filter hm)
  | ownershipTransferred organizationId userId membershipId context target nextId notifications
      hcontext howner htarget hid horg hother hnext =>
    rcases mem_updateRows.mp hm with ⟨hm, -⟩ | ⟨m₁, hm₁, hp, rfl⟩
    · rcases mem_updateRows.mp hm with ⟨hm, -⟩ | ⟨m₀, -, -, rfl⟩
      · exact .inl hm
      · cases hrole
    · obtain ⟨m₀, hm₀, hid₀, horg₀, -⟩ := mem_setRole hm₁
      have hid₁ : m₁.id = membershipId := beq_iff_eq.mp hp
      obtain rfl := hn.memberships.inj hm₀ htarget (hid₀.trans (hid₁.trans hid.symm))
      refine .inr (.inr ⟨userId, ?_, ?_⟩)
      · rw [← hid₁, ← horg, horg₀]
      · change s.IsOwnerOf m₁.organizationId userId
        rw [← horg₀, horg]
        exact isOwnerOf_context hcontext howner
  | _ => exact .inl hm

/-! ## Where an invitation comes from -/

theorem Performed.invitation_keys (h : Performed env inputs s r s' es) {i' : Invitation}
    (hi' : i' ∈ s'.invitations) : (s.nextId ≤ i'.id ∧ .invitationCreated i'.id ∈ es) ∨
      ∃ i ∈ s.invitations, i.id = i'.id ∧ i.organizationId = i'.organizationId ∧ i.role = i'.role := by
  have hupdated : ∀ (rows : List Invitation) (p : Invitation → Bool) (f : Invitation → Invitation),
      i' ∈ updateRows p f rows → (∀ i, (f i).id = i.id ∧ (f i).organizationId = i.organizationId ∧
        (f i).role = i.role) →
      ∃ i ∈ rows, i.id = i'.id ∧ i.organizationId = i'.organizationId ∧ i.role = i'.role := by
    intro rows p f hmem hf
    rcases mem_updateRows.mp hmem with ⟨hi, -⟩ | ⟨i, hi, -, rfl⟩
    · exact ⟨i', hi, rfl, rfl, rfl⟩
    · obtain ⟨hid, horg, hrole⟩ := hf i
      exact ⟨i, hi, hid.symm, horg.symm, hrole.symm⟩
  -- marking keeps the keys, and an operation may mark before it writes
  have hmarked : ∀ {organizationId} {rows : List Invitation},
      Marked inputs organizationId s.invitations rows → ∀ i ∈ rows,
        ∃ i₀ ∈ s.invitations, i₀.id = i.id ∧ i₀.organizationId = i.organizationId ∧
          i₀.role = i.role := by
    rintro _ rows ⟨p, rfl, -⟩ i hi
    rcases mem_updateRows.mp hi with ⟨hi, -⟩ | ⟨i₀, hi₀, -, rfl⟩
    · exact ⟨i, hi, rfl, rfl, rfl⟩
    · exact ⟨i₀, hi₀, rfl, rfl, rfl⟩
  cases h with
  | nothing _ _ _ _ _ _ _ _ hinvitations _ => exact .inr (hmarked hinvitations i' hi')
  | organizationDeleted => exact .inr (hupdated _ _ _ hi' fun _ => ⟨rfl, rfl, rfl⟩)
  | invitationCreated _ _ dto context marked invitation hcontext hassign hmarks hid horg hrole =>
    rcases List.mem_append.mp hi' with hi | hi
    · exact .inr (hmarked hmarks i' hi)
    · obtain rfl := List.mem_singleton.mp hi
      exact .inl ⟨Nat.le_of_eq hid.symm, List.mem_singleton_self _⟩
  | invitationResent _ _ _ _ _ _ _ _ _ hmarks =>
    obtain ⟨i₁, hi₁, hid₁, horg₁, hrole₁⟩ := hupdated _ _ _ hi' fun _ => ⟨rfl, rfl, rfl⟩
    obtain ⟨i, hi, hid, horg, hrole⟩ := hmarked hmarks i₁ hi₁
    exact .inr ⟨i, hi, hid.trans hid₁, horg.trans horg₁, hrole.trans hrole₁⟩
  | invitationRevoked _ _ _ _ _ _ _ _ hmarks =>
    obtain ⟨i₁, hi₁, hid₁, horg₁, hrole₁⟩ := hupdated _ _ _ hi' fun _ => ⟨rfl, rfl, rfl⟩
    obtain ⟨i, hi, hid, horg, hrole⟩ := hmarked hmarks i₁ hi₁
    exact .inr ⟨i, hi, hid.trans hid₁, horg.trans horg₁, hrole.trans hrole₁⟩
  | invitationAccepted => exact .inr (hupdated _ _ _ hi' fun _ => ⟨rfl, rfl, rfl⟩)
  | _ => exact .inr ⟨i', hi', rfl, rfl, rfl⟩

/-- An invitation for an admin is only sent by the owner. -/
theorem Performed.sent_cases (h : Performed env inputs s r s' es) (hn : Numbered s) {e : Event}
    (he : e ∈ es) {invitationId : Id} (hsent : e.sent = some invitationId) :
    invitationId < s'.nextId ∧ ∀ i' ∈ s'.invitations, i'.id = invitationId → i'.role = .admin →
      ∃ userId, r.actor = some (i'.organizationId, userId) ∧
        s.IsOwnerOf i'.organizationId userId := by
  cases h with
  | nothing _ _ _ _ _ _ _ _ _ hquiet =>
    rw [hquiet e he] at hsent
    cases hsent
  | invitationCreated organizationId userId dto context marked invitation hcontext hassign hmarks hid
      horg hrole =>
    obtain rfl := List.mem_singleton.mp he
    cases hsent
    refine ⟨by simp [hid], fun i' hi' hid' hadmin => ⟨userId, ?_⟩⟩
    -- the identifier is fresh, so the row is the one that has just been added
    have hsame : i' = invitation := by
      rcases List.mem_append.mp hi' with hi | hi
      · have hlt := (hmarks.keyed hn.invitations).1 i' hi
        rw [hid', hid] at hlt
        exact absurd hlt (Nat.lt_irrefl _)
      · exact List.mem_singleton.mp hi
    subst hsame
    rw [horg]
    refine ⟨rfl, isOwnerOf_context hcontext (assign_privileged hassign ?_)⟩
    rw [← hrole, hadmin]
    rfl
  | invitationResent organizationId userId invitationId' context marked existing tokenHash expiresAt
      hcontext hmarks hexisting hid horg hassign =>
    obtain rfl := List.mem_singleton.mp he
    cases hsent
    have hkeyed := hmarks.keyed hn.invitations
    refine ⟨by rw [← hid]; exact hkeyed.1 existing hexisting, fun i' hi' hid' hadmin =>
      ⟨userId, ?_⟩⟩
    have hsame : i'.organizationId = existing.organizationId ∧ i'.role = existing.role := by
      rcases mem_updateRows.mp hi' with ⟨hi, hp⟩ | ⟨i, hi, hp, rfl⟩
      · rw [hid', beq_self_eq_true] at hp
        cases hp
      · rw [hkeyed.inj hi hexisting ((beq_iff_eq.mp hp).trans hid.symm)]
        exact ⟨rfl, rfl⟩
    rw [hsame.1, horg]
    refine ⟨rfl, isOwnerOf_context hcontext (assign_privileged hassign ?_)⟩
    rw [← hsame.2, hadmin]
    rfl
  | organizationRenamed => cases he
  | invitationAccepted =>
    simp only [List.mem_cons, List.not_mem_nil, or_false] at he
    rcases he with rfl | rfl
    · cases hsent
    · cases hsent
  | _ =>
    obtain rfl := List.mem_singleton.mp he
    cases hsent

theorem Performed.nextId_le (h : Performed env inputs s r s' es) : s.nextId ≤ s'.nextId := by
  cases h with
  | nothing _ _ _ _ _ hnext => exact Nat.le_of_eq hnext.symm
  | organizationCreated => exact Nat.le_add_right _ 2
  | invitationCreated => exact Nat.le_succ _
  | invitationAccepted _ _ _ _ nextId _ _ _ _ _ hnext => exact Nat.le_of_succ_le hnext
  | memberRoleChanged _ _ _ _ _ _ _ _ _ _ _ _ _ _ hnext => exact hnext
  | memberRemoved _ _ _ _ _ _ _ _ _ _ _ _ hnext => exact hnext
  | ownershipTransferred _ _ _ _ _ _ _ _ _ _ _ _ _ hnext => exact hnext
  | _ => exact Nat.le_refl _

end Steps

/-! ## Sequences -/

section Sequences
variable (env : Environment)

theorem perform_performed {w : World} (hn : Numbered w.store) (pid : Nat) (call : Call Request Input) :
    Numbered (perform (handler env) pid call w).after.store ∧
      ∃ es, (perform (handler env) pid call w).after.trace = w.trace ++ es.map (fun e => (pid, e)) ∧
        Performed env call.inputs w.store call.request
          (perform (handler env) pid call w).after.store es := by
  have hkeeps : discipline.Keeps pid (handler env call.request) w := handler_keeps env call.request
  have hkept := hkeeps.alone hn call.inputs
  have hends : Process.Ends (Drawn call.inputs) pid
      (fun _ => PerformedIn env call.inputs pid w call.request) (handler env call.request) w :=
    handler_ends call.request fun _ => hn
  have hdone := hends.alone fun n => ⟨n, rfl⟩
  exact ⟨hkept.1, hdone⟩

/-- Whatever the record does not explain is not there. -/
structure Accounted (past : List Performance) (w : World) : Prop where
  numbered : Numbered w.store
  sent : ∀ t ∈ past, ∀ e ∈ t.events, ∀ invitationId, e.2.sent = some invitationId →
    invitationId < w.store.nextId
  created : ∀ i ∈ w.store.invitations, ∃ t ∈ past, ∃ e ∈ t.events, e.2 = .invitationCreated i.id
  byOwners : ∀ i ∈ w.store.invitations, i.role = .admin →
    ∀ t ∈ past, ∀ e ∈ t.events, e.2.sent = some i.id → t.ByOwner i.organizationId
  admins : ∀ m ∈ w.store.memberships, m.role = .admin → MadeAdmin env past m

end Sequences

section Sequences
variable {env : Environment} {past : List Performance} {w : World}

/-- A membership that already was an admin's is explained by the same step as before. -/
theorem MadeAdmin.extend {m : Membership} (h : MadeAdmin env past m) {step : Performance}
    (hadmin : step.after.store.IsAdmin m.id) : MadeAdmin env (past ++ [step]) m := by
  obtain ⟨earlier, grant, later, rfl, hbefore, hgrant, hsince⟩ := h
  refine ⟨earlier, grant, later ++ [step], by simp, hbefore, hgrant, fun t ht => ?_⟩
  rw [← List.cons_append, List.mem_append, List.mem_singleton] at ht
  rcases ht with ht | rfl
  · exact hsince t ht
  · exact hadmin

theorem Accounted.step (h : Accounted env past w) {step : Performance} {pid : Nat} {es : List Event}
    (hbefore : step.before = w) (hn' : Numbered step.after.store)
    (htrace : step.after.trace = w.trace ++ es.map fun e => (pid, e))
    (hperformed : Performed env step.call.inputs w.store step.call.request step.after.store es) :
    Accounted env (past ++ [step]) step.after := by
  have hevents : step.events = es.map fun e => (pid, e) := by
    rw [Performance.events, World.newEvents, htrace, hbefore, List.drop_left]
  -- what the step itself sends, it sends on the authority of the owner
  have hnew : ∀ e ∈ step.events, ∀ invitationId, e.2.sent = some invitationId →
      invitationId < step.after.store.nextId ∧ ∀ i' ∈ step.after.store.invitations,
        i'.id = invitationId → i'.role = .admin → step.ByOwner i'.organizationId := by
    intro e he invitationId hsent
    rw [hevents, List.mem_map] at he
    obtain ⟨e, he, rfl⟩ := he
    obtain ⟨hlt, hby⟩ := hperformed.sent_cases h.numbered he hsent
    refine ⟨hlt, fun i' hi' hid' hadmin => ?_⟩
    obtain ⟨userId, hactor, howner⟩ := hby i' hi' hid' hadmin
    exact ⟨userId, hactor, by rw [hbefore]; exact howner⟩
  refine ⟨hn', ?_, ?_, ?_, ?_⟩
  · intro t ht e he invitationId hsent
    rcases List.mem_append.mp ht with ht | ht
    · exact Nat.lt_of_lt_of_le (h.sent t ht e he invitationId hsent) hperformed.nextId_le
    · rw [List.mem_singleton.mp ht] at he
      exact (hnew e he invitationId hsent).1
  · intro i' hi'
    rcases hperformed.invitation_keys hi' with ⟨-, hcreated⟩ | ⟨i, hi, hid, -⟩
    · refine ⟨step, by simp, (pid, .invitationCreated i'.id), ?_, rfl⟩
      rw [hevents]
      exact List.mem_map_of_mem hcreated
    · obtain ⟨t, ht, e, he, hcreated⟩ := h.created i hi
      exact ⟨t, List.mem_append_left _ ht, e, he, by rw [hcreated, hid]⟩
  · intro i' hi' hadmin t ht e he hsent
    rcases List.mem_append.mp ht with ht | ht
    · rcases hperformed.invitation_keys hi' with ⟨hfresh, -⟩ | ⟨i, hi, hid, horg, hrole⟩
      · exact absurd (h.sent t ht e he _ hsent) (Nat.not_lt.mpr hfresh)
      · rw [← horg]
        exact h.byOwners i hi (hrole.trans hadmin) t ht e he (by rw [hsent, hid])
    · rw [List.mem_singleton.mp ht] at he ⊢
      exact (hnew e he _ hsent).2 i' hi' rfl hadmin
  · intro m hm hadmin
    have hafter : step.after.store.IsAdmin m.id := ⟨m, hm, rfl, hadmin⟩
    by_cases hwas : w.store.IsAdmin m.id
    · obtain ⟨x, hx, hxid, hxrole⟩ := hwas
      have hsame : x = m := by
        rcases hperformed.membership_keys hm with hfresh | ⟨m₀, hm₀, hid₀, horg₀, huser₀⟩
        · rw [← hxid] at hfresh
          exact absurd (h.numbered.memberships.1 x hx) (Nat.not_lt.mpr hfresh)
        · obtain rfl := h.numbered.memberships.inj hx hm₀ (hxid.trans hid₀.symm)
          cases x
          cases m
          simp_all
      rw [← hsame] at hafter ⊢
      exact (h.admins x hx hxrole).extend hafter
    · refine ⟨past, step, [], rfl, by rw [hbefore]; exact hwas, ?_, by simpa using hafter⟩
      rcases hperformed.admin_cases h.numbered hm hadmin with hold | ⟨userId, hrequest, howner⟩ |
        ⟨membershipId, hrequest, howner⟩ | ⟨user, token, hrequest, huser, i, hi, htoken, hpending,
          hrole, horg⟩
      · exact absurd ⟨m, hold, rfl, hadmin⟩ hwas
      · exact .roleChanged userId hrequest (by rw [hbefore]; exact howner)
      · exact .ownershipTransferred membershipId hrequest
          (by rw [hbefore]; exact howner)
      · exact .invitationAccepted user token i hrequest huser
          (by rw [hbefore]; exact hi) htoken hpending hrole horg ⟨h.created i hi, h.byOwners i hi hrole⟩

end Sequences

theorem accounted_withUsers (env : Environment) (nextId : Id) (users : List UserRecord) :
    Accounted env [] ⟨.withUsers nextId users, []⟩ where
  numbered := numbered_withUsers nextId users
  sent _ h := absurd h List.not_mem_nil
  created _ h := absurd h List.not_mem_nil
  byOwners _ h := absurd h List.not_mem_nil
  admins _ h := absurd h List.not_mem_nil

/-- Privileges come from owners. Whoever manages members and invitations without being the
owner leaves admins and owners alone; every admin was made one by an owner, or by an
invitation that only owners have sent; and ownership only passes on by a transfer. -/
theorem privilege_provenance (env : Environment) (nextId : Id) (users : List UserRecord)
    (calls : List (Call Request Input)) :
    (∀ step ∈ history (handler env) 0 ⟨.withUsers nextId users, []⟩ calls,
      step.call.request.manages = true → ∀ organizationId userId,
        step.call.request.actor = some (organizationId, userId) →
        ¬ step.before.store.IsOwnerOf organizationId userId →
          SparesPrivileged step.call.inputs step.before.store step.after.store) ∧
    (∀ m ∈ (lastWorld ⟨.withUsers nextId users, []⟩
        (history (handler env) 0 ⟨.withUsers nextId users, []⟩ calls)).store.memberships,
      m.role = .admin →
        MadeAdmin env (history (handler env) 0 ⟨.withUsers nextId users, []⟩ calls) m) ∧
    ∀ step ∈ history (handler env) 0 ⟨.withUsers nextId users, []⟩ calls, GrantsOwner step := by
  have hall : Accounted env (history (handler env) 0 ⟨.withUsers nextId users, []⟩ calls)
      (lastWorld ⟨.withUsers nextId users, []⟩
        (history (handler env) 0 ⟨.withUsers nextId users, []⟩ calls)) ∧
      ∀ step ∈ history (handler env) 0 ⟨.withUsers nextId users, []⟩ calls,
        ∃ es, Numbered step.before.store ∧ Performed env step.call.inputs step.before.store
          step.call.request step.after.store es := by
    refine history_induction (P := fun past w => Accounted env past w ∧ ∀ step ∈ past,
        ∃ es, Numbered step.before.store ∧ Performed env step.call.inputs step.before.store
          step.call.request step.after.store es)
      ⟨accounted_withUsers env nextId users, fun _ h => absurd h List.not_mem_nil⟩ ?_
    rintro pid past w call rest - ⟨haccounted, hsteps⟩
    obtain ⟨hn', es, htrace, hperformed⟩ := perform_performed env haccounted.numbered pid call
    refine ⟨haccounted.step rfl hn' htrace hperformed, fun step hstep => ?_⟩
    rcases List.mem_append.mp hstep with hstep | hstep
    · exact hsteps step hstep
    · rw [List.mem_singleton.mp hstep]
      exact ⟨es, haccounted.numbered, hperformed⟩
  · obtain ⟨haccounted, hsteps⟩ := hall
    refine ⟨fun step hstep hmanages organizationId userId hactor hrole => ?_,
      haccounted.admins, fun step hstep m hm howner => ?_⟩
    · obtain ⟨es, hn, hperformed⟩ := hsteps step hstep
      exact hperformed.sparesPrivileged hn hmanages hactor hrole
    · obtain ⟨es, hn, hperformed⟩ := hsteps step hstep
      exact hperformed.owner_cases hn hm howner

end ShipFlow.Organizations
