import ShipFlow.Interleaving.Discipline
import ShipFlow.Organizations.Transactions

/-! Everything one atomic action of an organization request can do, and that the
requests do nothing else, whatever the others do in between. -/

namespace ShipFlow.Organizations
open Interleaving Interleaving.Discipline Relational

/-- The membership may be gone by now; its identifier still stands for this member of
this organization. -/
def Membership.Known (x : Membership) (s : Store) : Prop :=
  x.id < s.nextId ∧ ∀ m ∈ s.memberships, m.id = x.id →
    m.organizationId = x.organizationId ∧ m.userId = x.userId

/-- An acceptance has looked the invitation up by the hash of its token. Unless a resend
has committed since, the row still carries this hash, and it is pending only as long
as its organization is not deleted. -/
def Invitation.LookedUp (invitation : Invitation) (pid : Nat) (w : World) : Prop :=
  ∃ before since, w.trace = before ++ (pid, .invitationFound invitation.id) :: since ∧
    ((∀ q, (q, .invitationResent invitation.id) ∉ since) →
      ∀ i ∈ w.store.invitations, i.id = invitation.id → i.tokenHash = invitation.tokenHash ∧
        (i.status = .pending → ∃ o ∈ w.store.organizations,
          o.id = invitation.organizationId ∧ o.deletedAt = none))

/-- What never changes in an invitation. -/
def Invitation.Known (invitation : Invitation) (s : Store) : Prop :=
  invitation.id < s.nextId ∧ ∀ i ∈ s.invitations, i.id = invitation.id →
    i.organizationId = invitation.organizationId ∧ i.role = invitation.role ∧
      i.email = invitation.email

inductive Effect (pid : Nat) (w : World) : World → Prop where
  | idle : Effect pid w w
  | organizationCreated (userId : Id) (name slug : String)
      (hsound : SoundMemberships (w.store.memberships ++
        [⟨w.store.nextId + 1, w.store.nextId, userId, .owner⟩])) :
    Effect pid w (w.advance pid
      ({ w.store with
          nextId := w.store.nextId + 2
          organizations := w.store.organizations ++ [⟨w.store.nextId, userId, name, slug, none⟩]
          memberships := w.store.memberships ++
            [⟨w.store.nextId + 1, w.store.nextId, userId, .owner⟩] },
        [.organizationCreated w.store.nextId (w.store.nextId + 1) userId]))
  | organizationRenamed (organizationId : Id) (name : String) :
    Effect pid w (w.advance pid
      ({ w.store with
          organizations := updateRows (fun o => o.id == organizationId)
            (fun o => { o with name := name }) w.store.organizations }, []))
  | organizationDeleted (organizationId : Id) (now : Time)
      (hvalid : ValidInvitations (updateRows
        (fun i => i.organizationId == organizationId && i.status == .pending)
        (fun i => { i with status := .revoked, revokedAt := some now }) w.store.invitations)) :
    Effect pid w (w.advance pid
      ({ w.store with
          invitations := updateRows
            (fun i => i.organizationId == organizationId && i.status == .pending)
            (fun i => { i with status := .revoked, revokedAt := some now }) w.store.invitations
          organizations := updateRows (fun o => o.id == organizationId)
            (fun o => { o with deletedAt := some now }) w.store.organizations },
        [.organizationDeleted organizationId]))
  | invitationsExpired (p : Invitation → Bool) (hpending : ∀ i, p i = true → i.status = .pending)
      (hvalid : ValidInvitations (updateRows p (fun i => { i with status := .expired })
        w.store.invitations)) :
    Effect pid w (w.advance pid
      ({ w.store with
          invitations := updateRows p (fun i => { i with status := .expired })
            w.store.invitations }, []))
  | invitationCreated (invitation : Invitation) (hid : invitation.id = w.store.nextId)
      (horganization : invitation.organizationId < w.store.nextId)
      (hvalid : ValidInvitations (w.store.invitations ++ [invitation])) :
    Effect pid w (w.advance pid
      ({ w.store with
          nextId := w.store.nextId + 1
          invitations := w.store.invitations ++ [invitation] },
        [.invitationCreated invitation.id]))
  | invitationResent (invitationId userId : Id) (tokenHash : String) (expiresAt : Time)
      (hvalid : ValidInvitations (updateRows (fun i => i.id == invitationId)
        (fun i => i.renew userId tokenHash expiresAt) w.store.invitations)) :
    Effect pid w (w.advance pid
      ({ w.store with
          invitations := updateRows (fun i => i.id == invitationId)
            (fun i => i.renew userId tokenHash expiresAt) w.store.invitations },
        [.invitationResent invitationId]))
  | invitationRevoked (invitationId : Id) (now : Time)
      (hvalid : ValidInvitations (updateRows (fun i => i.id == invitationId)
        (fun i => { i with status := .revoked, revokedAt := some now }) w.store.invitations)) :
    Effect pid w (w.advance pid
      ({ w.store with
          invitations := updateRows (fun i => i.id == invitationId)
            (fun i => { i with status := .revoked, revokedAt := some now }) w.store.invitations },
        [.invitationRevoked invitationId]))
  | invitationFound (invitationId : Id) :
    Effect pid w (w.advance pid (w.store, [.invitationFound invitationId]))
  | invitationAccepted (invitation : Invitation) (userId : Id) (now : Time)
      (nextId : Id) (notifications : List Notification) (hnext : w.store.nextId + 1 ≤ nextId)
      (horganization : invitation.organizationId < w.store.nextId)
      (hrole : invitation.role ≠ .owner) (hknown : invitation.Known w.store)
      (hlookup : invitation.LookedUp pid w)
      (hopen : w.store.invitations.countP (Invitation.open invitation.id now) = 1)
      (hvalid : ValidInvitations (updateRows (Invitation.open invitation.id now)
        (Invitation.acceptedBy userId now) w.store.invitations))
      (hsound : SoundMemberships (w.store.memberships ++
        [⟨w.store.nextId, invitation.organizationId, userId, invitation.role⟩])) :
    Effect pid w (w.advance pid
      ({ w.store with
          nextId := nextId
          notifications := notifications
          invitations := updateRows (Invitation.open invitation.id now)
            (Invitation.acceptedBy userId now) w.store.invitations
          memberships := w.store.memberships ++
            [⟨w.store.nextId, invitation.organizationId, userId, invitation.role⟩] },
        [.invitationAccepted invitation.id w.store.nextId invitation.tokenHash]))
  | memberRoleChanged (membershipId : Id) (role : MembershipRole) (nextId : Id)
      (notifications : List Notification) (hnext : w.store.nextId ≤ nextId)
      (hrole : role ≠ .owner)
      (hsound : SoundMemberships (updateRows (fun m => m.id == membershipId)
        (fun m => { m with role := role }) w.store.memberships)) :
    Effect pid w (w.advance pid
      ({ w.store with
          nextId := nextId
          notifications := notifications
          memberships := updateRows (fun m => m.id == membershipId)
            (fun m => { m with role := role }) w.store.memberships },
        [.memberRoleChanged membershipId role]))
  | memberRemoved (membershipId : Id) (nextId : Id) (notifications : List Notification)
      (hnext : w.store.nextId ≤ nextId) :
    Effect pid w (w.advance pid
      ({ w.store with
          nextId := nextId
          notifications := notifications
          memberships := w.store.memberships.filter fun m => !(m.id == membershipId) },
        [.memberRemoved membershipId]))
  | memberLeft (membershipId : Id) :
    Effect pid w (w.advance pid
      ({ w.store with
          memberships := w.store.memberships.filter fun m => !(m.id == membershipId) },
        [.memberLeft membershipId]))
  | ownershipTransferred (previous target : Membership) (nextId : Id)
      (notifications : List Notification) (hnext : w.store.nextId ≤ nextId)
      (hprevious : previous.Known w.store) (htarget : target.Known w.store)
      (horganization : previous.organizationId = target.organizationId)
      (hother : previous.userId ≠ target.userId)
      (hmem : ∃ m ∈ w.store.memberships, m.id = target.id)
      (hsound : SoundMemberships (transferred previous.id target.id w.store.memberships)) :
    Effect pid w (w.advance pid
      ({ w.store with
          nextId := nextId
          notifications := notifications
          memberships := transferred previous.id target.id w.store.memberships
          organizations := updateRows (fun o => o.id == target.organizationId)
            (fun o => { o with ownerId := target.userId }) w.store.organizations },
        [.ownershipTransferred target.organizationId previous.id target.id]))

/-! ## Keys -/

/-- Every primary key is unique and `uuidv7()` is ahead of all of them; the constraints
of the three tables hold. -/
structure Numbered (s : Store) : Prop where
  organizations : Keyed s.nextId Organization.id s.organizations
  memberships : Keyed s.nextId Membership.id s.memberships
  tenants : Below s.nextId Membership.organizationId s.memberships
  invitations : Keyed s.nextId Invitation.id s.invitations
  invitingOrganizations : Below s.nextId Invitation.organizationId s.invitations
  sound : SoundMemberships s.memberships
  valid : ValidInvitations s.invitations

theorem numbered_withUsers (nextId : Id) (users : List UserRecord) :
    Numbered (Store.withUsers nextId users) := by
  constructor <;> simp [Store.withUsers, Keyed, Below, SoundMemberships, ValidInvitations, distinct]

theorem SoundMemberships.filter {rows : List Membership} (h : SoundMemberships rows)
    (p : Membership → Bool) : SoundMemberships (rows.filter p) :=
  distinct_iff_pairwise.mpr ((distinct_iff_pairwise.mp h).sublist List.filter_sublist)

namespace Numbered
variable {s : Store}

theorem later (h : Numbered s) (nextId : Id) (notifications : List Notification)
    (hle : s.nextId ≤ nextId) :
    Numbered { s with nextId := nextId, notifications := notifications } :=
  ⟨h.organizations.mono hle, h.memberships.mono hle, h.tenants.mono hle, h.invitations.mono hle,
    h.invitingOrganizations.mono hle, h.sound, h.valid⟩

theorem updateOrganizations (h : Numbered s) (p : Organization → Bool)
    {f : Organization → Organization} (hf : ∀ o, (f o).id = o.id) :
    Numbered { s with organizations := updateRows p f s.organizations } :=
  { h with organizations := h.organizations.updateRows hf }

theorem updateInvitations (h : Numbered s) (p : Invitation → Bool) {f : Invitation → Invitation}
    (hvalid : ValidInvitations (updateRows p f s.invitations))
    (hf : ∀ i, (f i).id = i.id ∧ (f i).organizationId = i.organizationId) :
    Numbered { s with invitations := updateRows p f s.invitations } :=
  { h with
    invitations := h.invitations.updateRows fun i => (hf i).1
    invitingOrganizations := h.invitingOrganizations.updateRows fun i => (hf i).2
    valid := hvalid }

theorem updateMemberships (h : Numbered s) (p : Membership → Bool) {f : Membership → Membership}
    (hsound : SoundMemberships (updateRows p f s.memberships))
    (hf : ∀ m, (f m).id = m.id ∧ (f m).organizationId = m.organizationId) :
    Numbered { s with memberships := updateRows p f s.memberships } :=
  { h with
    memberships := h.memberships.updateRows fun m => (hf m).1
    tenants := h.tenants.updateRows fun m => (hf m).2
    sound := hsound }

theorem removeMemberships (h : Numbered s) (p : Membership → Bool) :
    Numbered { s with memberships := s.memberships.filter p } :=
  { h with
    memberships := h.memberships.filter p
    tenants := h.tenants.filter p
    sound := h.sound.filter p }

end Numbered

theorem Effect.numbered {pid : Nat} {w w' : World} (h : Effect pid w w') (hn : Numbered w.store) :
    Numbered w'.store := by
  cases h with
  | idle => exact hn
  | organizationCreated userId name slug hsound =>
    exact { hn.later (w.store.nextId + 2) w.store.notifications (by lia) with
      organizations := hn.organizations.concat (by simp) (by simp)
      memberships := hn.memberships.concat (by simp) (by simp)
      tenants := hn.tenants.concat (by simp) (by simp)
      sound := hsound }
  | organizationRenamed organizationId name => exact hn.updateOrganizations _ fun _ => rfl
  | organizationDeleted organizationId now hvalid =>
    have hi := hn.updateInvitations _ hvalid fun _ => ⟨rfl, rfl⟩
    exact hi.updateOrganizations _ fun _ => rfl
  | invitationsExpired p hpending hvalid => exact hn.updateInvitations _ hvalid fun _ => ⟨rfl, rfl⟩
  | invitationCreated invitation hid horganization hvalid =>
    exact { hn.later (w.store.nextId + 1) w.store.notifications (by lia) with
      invitations := hn.invitations.concat (Nat.le_of_eq hid.symm) (by simp [hid])
      invitingOrganizations := hn.invitingOrganizations.concat (by simp) (Nat.lt_succ_of_lt horganization)
      valid := hvalid }
  | invitationResent invitationId userId tokenHash expiresAt hvalid =>
    exact hn.updateInvitations _ hvalid fun _ => ⟨rfl, rfl⟩
  | invitationRevoked invitationId now hvalid =>
    exact hn.updateInvitations _ hvalid fun _ => ⟨rfl, rfl⟩
  | invitationFound invitationId => exact hn
  | invitationAccepted invitation userId now nextId notifications hnext horganization hrole hknown
      hlookup hopen hvalid hsound =>
    have hi := hn.updateInvitations _ hvalid fun _ => ⟨rfl, rfl⟩
    have hle : w.store.nextId ≤ nextId := Nat.le_of_succ_le hnext
    exact { hi.later nextId notifications hle with
      memberships := hn.memberships.concat (Nat.le_refl _) hnext
      tenants := hn.tenants.concat hle (Nat.lt_of_lt_of_le horganization hle)
      sound := hsound }
  | memberRoleChanged membershipId role nextId notifications hnext hrole hsound =>
    exact (hn.updateMemberships _ hsound fun _ => ⟨rfl, rfl⟩).later nextId notifications hnext
  | memberRemoved membershipId nextId notifications hnext =>
    exact (hn.removeMemberships _).later nextId notifications hnext
  | memberLeft membershipId => exact hn.removeMemberships _
  | ownershipTransferred previous target nextId notifications hnext hprevious htarget horganization
      hother hmem hsound =>
    have hm := hn.later nextId notifications hnext
    refine { hm with
      organizations := hm.organizations.updateRows ?_
      memberships := Keyed.updateRows (Keyed.updateRows hm.memberships ?_) ?_
      tenants := Below.updateRows (Below.updateRows hm.tenants ?_) ?_
      sound := hsound }
    all_goals exact fun _ => rfl

theorem Effect.nextId_le {pid : Nat} {w w' : World} (h : Effect pid w w') :
    w.store.nextId ≤ w'.store.nextId := by
  cases h with
  | idle => exact Nat.le_refl _
  | organizationCreated => exact Nat.le_add_right _ 2
  | organizationRenamed => exact Nat.le_refl _
  | organizationDeleted => exact Nat.le_refl _
  | invitationsExpired => exact Nat.le_refl _
  | invitationCreated => exact Nat.le_succ _
  | invitationResent => exact Nat.le_refl _
  | invitationRevoked => exact Nat.le_refl _
  | invitationFound => exact Nat.le_refl _
  | invitationAccepted _ _ _ nextId notifications hnext => exact Nat.le_of_succ_le hnext
  | memberRoleChanged _ _ nextId notifications hnext => exact hnext
  | memberRemoved _ nextId notifications hnext => exact hnext
  | memberLeft => exact Nat.le_refl _
  | ownershipTransferred _ _ nextId notifications hnext => exact hnext

abbrev discipline : Discipline Store Event where
  inv w := Numbered w.store
  effect := Effect
  idle _ _ := .idle
  kept _ _ _ he hn := he.numbered hn

/-! ## What a request knows -/

theorem mem_setRole {p : Membership → Bool} {role : MembershipRole} {rows : List Membership}
    {m : Membership} (hm : m ∈ updateRows p (fun m => { m with role := role }) rows) :
    ∃ m₀ ∈ rows, m₀.id = m.id ∧ m₀.organizationId = m.organizationId ∧ m₀.userId = m.userId := by
  rcases mem_updateRows.mp hm with ⟨hm, -⟩ | ⟨m₀, hm₀, -, rfl⟩
  · exact ⟨m, hm, rfl, rfl, rfl⟩
  · exact ⟨m₀, hm₀, rfl, rfl, rfl⟩

/-- A membership stays with its member and its organization as long as it exists. -/
theorem Effect.membership_keys {pid : Nat} {w w' : World} (h : Effect pid w w') {m : Membership}
    (hm : m ∈ w'.store.memberships) : w.store.nextId ≤ m.id ∨ ∃ m₀ ∈ w.store.memberships,
      m₀.id = m.id ∧ m₀.organizationId = m.organizationId ∧ m₀.userId = m.userId := by
  cases h with
  | organizationCreated userId name slug hsound =>
    rcases List.mem_append.mp hm with hm | hm
    · exact .inr ⟨m, hm, rfl, rfl, rfl⟩
    · rw [List.mem_singleton.mp hm]
      exact .inl (Nat.le_succ _)
  | invitationAccepted invitation userId now nextId notifications hnext horganization hrole hknown
      hlookup hopen hvalid hsound =>
    rcases List.mem_append.mp hm with hm | hm
    · exact .inr ⟨m, hm, rfl, rfl, rfl⟩
    · rw [List.mem_singleton.mp hm]
      exact .inl (Nat.le_refl _)
  | memberRoleChanged membershipId role nextId notifications hnext hrole hsound =>
    exact .inr (mem_setRole hm)
  | memberRemoved membershipId nextId notifications hnext =>
    exact .inr ⟨m, List.mem_of_mem_filter hm, rfl, rfl, rfl⟩
  | memberLeft membershipId => exact .inr ⟨m, List.mem_of_mem_filter hm, rfl, rfl, rfl⟩
  | ownershipTransferred previous target nextId notifications hnext hprevious htarget horganization
      hother hmem hsound =>
    obtain ⟨m₁, hm₁, hid, horg, huser⟩ := mem_setRole hm
    obtain ⟨m₀, hm₀, hid₀, horg₀, huser₀⟩ := mem_setRole hm₁
    exact .inr ⟨m₀, hm₀, hid₀.trans hid, horg₀.trans horg, huser₀.trans huser⟩
  | _ => exact .inr ⟨m, hm, rfl, rfl, rfl⟩

theorem Membership.known_of_mem {s : Store} (hn : Numbered s) {x : Membership}
    (hx : x ∈ s.memberships) : x.Known s := by
  refine ⟨hn.memberships.1 x hx, fun m hm hid => ?_⟩
  rw [hn.memberships.inj hm hx hid]
  exact ⟨rfl, rfl⟩

theorem Membership.known_stable (x : Membership) : discipline.Stable fun w => x.Known w.store := by
  intro q w w' _ _ he h
  refine ⟨Nat.lt_of_lt_of_le h.1 he.nextId_le, fun m hm hid => ?_⟩
  rcases he.membership_keys hm with hfresh | ⟨m₀, hm₀, hid₀, horg, huser⟩
  · rw [hid] at hfresh
    exact absurd h.1 (Nat.not_lt.mpr hfresh)
  · obtain ⟨horg', huser'⟩ := h.2 m₀ hm₀ (hid₀.trans hid)
    exact ⟨horg.symm.trans horg', huser.symm.trans huser'⟩

def OrganizationContext.membership (context : OrganizationContext) (userId : Id) : Membership :=
  ⟨context.membershipId, context.organization.id, userId, context.role⟩

/-- What a resolved context still tells after other requests have acted. -/
def OrganizationContext.Known (context : OrganizationContext) (userId : Id) (s : Store) : Prop :=
  context.organization.id < s.nextId ∧ (context.membership userId).Known s

theorem OrganizationContext.known_stable (context : OrganizationContext) (userId : Id) :
    discipline.Stable fun w => context.Known userId w.store :=
  fun q w w' hn hn' he h => ⟨Nat.lt_of_lt_of_le h.1 he.nextId_le,
    Membership.known_stable _ q w w' hn hn' he h.2⟩

theorem Store.organizationContext_known {s : Store} (hn : Numbered s) {organizationId userId : Id}
    {context : OrganizationContext} (h : s.organizationContext organizationId userId = some context) :
    context.Known userId s := by
  obtain ⟨m, hm, hcontext⟩ := Option.bind_eq_some_iff.mp h
  obtain ⟨o, ho, rfl⟩ := Option.map_eq_some_iff.mp hcontext
  have hmem : m ∈ s.memberships := List.mem_of_find?_eq_some hm
  have hkeys := List.find?_some hm
  simp only [Bool.and_eq_true, beq_iff_eq] at hkeys
  have hid : o.id = m.organizationId := by simpa using List.find?_some ho
  have hknown := Membership.known_of_mem hn hmem
  refine ⟨hn.organizations.1 o (List.mem_of_find?_eq_some ho), hknown.1, fun m' hm' hid' => ?_⟩
  obtain ⟨horg, huser⟩ := hknown.2 m' hm' hid'
  exact ⟨horg.trans hid.symm, huser.trans hkeys.1.2⟩

/-! ## What an acceptance knows -/

theorem Effect.trace_eq {pid : Nat} {w w' : World} (h : Effect pid w w') :
    w'.trace = w.trace ++ w.newEvents w' := by
  cases h with
  | idle => simp
  | _ => simp [World.newEvents]

/-- Nothing but the token, the status and the dates of an invitation ever changes. -/
theorem Effect.invitation_keys {pid : Nat} {w w' : World} (h : Effect pid w w') {i' : Invitation}
    (hi' : i' ∈ w'.store.invitations) : w.store.nextId ≤ i'.id ∨ ∃ i ∈ w.store.invitations,
      i.id = i'.id ∧ i.organizationId = i'.organizationId ∧ i.role = i'.role ∧ i.email = i'.email := by
  have hupdated : ∀ (p : Invitation → Bool) (f : Invitation → Invitation),
      i' ∈ updateRows p f w.store.invitations →
      (∀ i, (f i).id = i.id ∧ (f i).organizationId = i.organizationId ∧ (f i).role = i.role ∧
        (f i).email = i.email) →
      ∃ i ∈ w.store.invitations, i.id = i'.id ∧ i.organizationId = i'.organizationId ∧
        i.role = i'.role ∧ i.email = i'.email := by
    intro p f hmem hf
    rcases mem_updateRows.mp hmem with ⟨hi, -⟩ | ⟨i, hi, -, rfl⟩
    · exact ⟨i', hi, rfl, rfl, rfl, rfl⟩
    · obtain ⟨hid, horg, hrole, hemail⟩ := hf i
      exact ⟨i, hi, hid.symm, horg.symm, hrole.symm, hemail.symm⟩
  cases h with
  | organizationDeleted => exact .inr (hupdated _ _ hi' fun _ => ⟨rfl, rfl, rfl, rfl⟩)
  | invitationsExpired => exact .inr (hupdated _ _ hi' fun _ => ⟨rfl, rfl, rfl, rfl⟩)
  | invitationCreated invitation hid horganization hvalid =>
    rcases List.mem_append.mp hi' with hi | hi
    · exact .inr ⟨i', hi, rfl, rfl, rfl, rfl⟩
    · rw [List.mem_singleton.mp hi, hid]
      exact .inl (Nat.le_refl _)
  | invitationResent => exact .inr (hupdated _ _ hi' fun _ => ⟨rfl, rfl, rfl, rfl⟩)
  | invitationRevoked => exact .inr (hupdated _ _ hi' fun _ => ⟨rfl, rfl, rfl, rfl⟩)
  | invitationAccepted => exact .inr (hupdated _ _ hi' fun _ => ⟨rfl, rfl, rfl, rfl⟩)
  | _ => exact .inr ⟨i', hi', rfl, rfl, rfl, rfl⟩

theorem Invitation.known_of_mem {s : Store} (hn : Numbered s) {x : Invitation}
    (hx : x ∈ s.invitations) : x.Known s := by
  refine ⟨hn.invitations.1 x hx, fun i hi hid => ?_⟩
  rw [hn.invitations.inj hi hx hid]
  exact ⟨rfl, rfl, rfl⟩

theorem Invitation.known_stable (x : Invitation) : discipline.Stable fun w => x.Known w.store := by
  intro q w w' _ _ he h
  refine ⟨Nat.lt_of_lt_of_le h.1 he.nextId_le, fun i' hi' hid' => ?_⟩
  rcases he.invitation_keys hi' with hfresh | ⟨i, hi, hid, horg, hrole, hemail⟩
  · rw [hid'] at hfresh
    exact absurd h.1 (Nat.not_lt.mpr hfresh)
  · obtain ⟨horg₀, hrole₀, hemail₀⟩ := h.2 i hi (hid.trans hid')
    exact ⟨horg.symm.trans horg₀, hrole.symm.trans hrole₀, hemail.symm.trans hemail₀⟩

/-- A row that is still pending was so before, with the same token, unless it was resent. -/
theorem Effect.invitation_pending {pid : Nat} {w w' : World} (h : Effect pid w w')
    {invitation i' : Invitation} (hlt : invitation.id < w.store.nextId)
    (hresent : ∀ q, (q, .invitationResent invitation.id) ∉ w.newEvents w')
    (hi' : i' ∈ w'.store.invitations) (hid : i'.id = invitation.id) :
    ∃ i ∈ w.store.invitations, i.id = invitation.id ∧ i.tokenHash = i'.tokenHash ∧
      (i'.status = .pending → i = i') := by
  have hupdated : ∀ (p : Invitation → Bool) (f : Invitation → Invitation),
      i' ∈ updateRows p f w.store.invitations →
      (∀ i, (f i).id = i.id ∧ (f i).tokenHash = i.tokenHash ∧ (f i).status ≠ .pending) →
      ∃ i ∈ w.store.invitations, i.id = invitation.id ∧ i.tokenHash = i'.tokenHash ∧
        (i'.status = .pending → i = i') := by
    intro p f hmem hf
    rcases mem_updateRows.mp hmem with ⟨hi, -⟩ | ⟨i, hi, -, rfl⟩
    · exact ⟨i', hi, hid, rfl, fun _ => rfl⟩
    · obtain ⟨hid', htoken, hstatus⟩ := hf i
      exact ⟨i, hi, hid'.symm.trans hid, htoken.symm, fun h => absurd h hstatus⟩
  cases h with
  | organizationDeleted => exact hupdated _ _ hi' fun _ => ⟨rfl, rfl, nofun⟩
  | invitationsExpired => exact hupdated _ _ hi' fun _ => ⟨rfl, rfl, nofun⟩
  | invitationCreated created hcreated horganization hvalid =>
    rcases List.mem_append.mp hi' with hi | hi
    · exact ⟨i', hi, hid, rfl, fun _ => rfl⟩
    · rw [List.mem_singleton.mp hi, hcreated] at hid
      exact absurd hlt (by rw [hid]; exact Nat.lt_irrefl _)
  | invitationResent invitationId userId tokenHash expiresAt hvalid =>
    rcases mem_updateRows.mp hi' with ⟨hi, -⟩ | ⟨i, hi, hp, rfl⟩
    · exact ⟨i', hi, hid, rfl, fun _ => rfl⟩
    -- the step would be a resend of this very invitation
    · have hsame : i.id = invitationId := beq_iff_eq.mp hp
      rw [← hid, show (i.renew userId tokenHash expiresAt).id = invitationId from hsame] at hresent
      exact absurd (by simp) (hresent pid)
  | invitationRevoked => exact hupdated _ _ hi' fun _ => ⟨rfl, rfl, nofun⟩
  | invitationAccepted => exact hupdated _ _ hi' fun _ => ⟨rfl, rfl, nofun⟩
  | _ => exact ⟨i', hi', hid, rfl, fun _ => rfl⟩

/-- An organization is deleted together with its pending invitations. -/
theorem Effect.organization_live {pid : Nat} {w w' : World} (h : Effect pid w w')
    {i : Invitation} (hi : i ∈ w.store.invitations) (hi' : i ∈ w'.store.invitations)
    (hn : Numbered w'.store) (hpending : i.status = .pending) {o : Organization}
    (ho : o ∈ w.store.organizations) (hid : o.id = i.organizationId) (hlive : o.deletedAt = none) :
    ∃ o' ∈ w'.store.organizations, o'.id = o.id ∧ o'.deletedAt = none := by
  have hupdated : ∀ (p : Organization → Bool) (f : Organization → Organization),
      (∀ o, (f o).id = o.id ∧ (f o).deletedAt = o.deletedAt) →
      ∃ o' ∈ updateRows p f w.store.organizations, o'.id = o.id ∧ o'.deletedAt = none := by
    intro p f hf
    obtain ⟨hid', hdeleted⟩ := hf o
    cases hp : p o with
    | false => exact ⟨o, mem_updateRows.mpr (.inl ⟨ho, hp⟩), rfl, hlive⟩
    | true => exact ⟨f o, mem_updateRows.mpr (.inr ⟨o, ho, hp, rfl⟩), hid', hdeleted.trans hlive⟩
  cases h with
  | organizationCreated => exact ⟨o, List.mem_append_left _ ho, rfl, hlive⟩
  | organizationRenamed => exact hupdated _ _ fun _ => ⟨rfl, rfl⟩
  | organizationDeleted organizationId now hvalid =>
    -- a deletion revokes what is pending, and this invitation is pending after the step
    have hother : o.id ≠ organizationId := by
      intro heq
      have hselected : (i.organizationId == organizationId && i.status == .pending) = true := by
        simp [← hid, heq, hpending]
      have hrevoked : { i with status := .revoked, revokedAt := some now } ∈ updateRows
          (fun i => i.organizationId == organizationId && i.status == .pending)
          (fun i => { i with status := .revoked, revokedAt := some now }) w.store.invitations :=
        mem_updateRows.mpr (.inr ⟨i, hi, hselected, rfl⟩)
      have hsame := hn.invitations.inj hi' hrevoked rfl
      rw [hsame] at hpending
      cases hpending
    exact ⟨o, mem_updateRows.mpr (.inl ⟨ho, by simpa using hother⟩), rfl, hlive⟩
  | ownershipTransferred => exact hupdated _ _ fun _ => ⟨rfl, rfl⟩
  | _ => exact ⟨o, ho, rfl, hlive⟩

theorem Invitation.lookedUp_stable (invitation : Invitation) (pid : Nat) :
    discipline.Stable fun w => invitation.Known w.store ∧ invitation.LookedUp pid w := by
  rintro q w w' hn hn' he ⟨hknown, before, since, htrace, hsince⟩
  refine ⟨Invitation.known_stable invitation q w w' hn hn' he hknown, before,
    since ++ w.newEvents w', ?_, fun hresent i' hi' hid => ?_⟩
  · rw [he.trace_eq, htrace, List.append_assoc, List.cons_append]
  · have hold : ∀ p, (p, .invitationResent invitation.id) ∉ since :=
      fun p hmem => hresent p (List.mem_append_left _ hmem)
    have hnew : ∀ p, (p, .invitationResent invitation.id) ∉ w.newEvents w' :=
      fun p hmem => hresent p (List.mem_append_right _ hmem)
    obtain ⟨i, hi, hid₀, htoken, hsame⟩ := he.invitation_pending hknown.1 hnew hi' hid
    obtain ⟨htoken₀, hlive⟩ := hsince hold i hi hid₀
    refine ⟨htoken.symm.trans htoken₀, fun hpending => ?_⟩
    obtain rfl := hsame hpending
    obtain ⟨o, ho, horg, hdeleted⟩ := hlive hpending
    have hkeys := hknown.2 i hi hid₀
    obtain ⟨o', ho', hid', hdeleted'⟩ :=
      he.organization_live hi hi' hn' hpending ho (horg.trans hkeys.1.symm) hdeleted
    exact ⟨o', ho', hid'.trans horg, hdeleted'⟩

section Steps
variable {α : Type} {pid : Nat} {w : World}

theorem resolve_then {organizationId userId : Id} {k : OrganizationContext → Handler α}
    (hk : ∀ context w', context.Known userId w'.store → discipline.Keeps pid (k context) w') :
    discipline.Keeps pid (resolve organizationId userId >>= k) w := by
  rw [resolve, Process.bind_assoc]
  refine Keeps.query fun w' hn => ?_
  cases hfound : w'.store.organizationContext organizationId userId with
  | none => exact Keeps.throw _
  | some context => exact hk context w' (Store.organizationContext_known hn hfound)

theorem canActivate_then {organizationId userId : Id} {capabilities : List Capability}
    {k : OrganizationContext → Handler α}
    (hk : ∀ context w', context.Known userId w'.store → discipline.Keeps pid (k context) w') :
    discipline.Keeps pid (canActivate organizationId userId capabilities >>= k) w := by
  rw [canActivate, Process.bind_assoc]
  refine resolve_then fun context w' hknown => ?_
  rw [Process.bind_assoc]
  exact Keeps.ofExcept fun _ _ => hk context w' hknown

theorem findMembershipById_then {organizationId membershipId : Id} {k : Membership → Handler α}
    {I : World → Prop} (hI : discipline.Stable I) (hi : I w)
    (hk : ∀ target w', target.id = membershipId → target.organizationId = organizationId →
      target.Known w'.store → I w' → discipline.Keeps pid (k target) w') :
    discipline.Keeps pid (findMembershipById organizationId membershipId >>= k) w := by
  rw [findMembershipById, Process.bind_assoc]
  refine Keeps.query_known hI hi fun w' hn hi' => ?_
  cases hfound : w'.store.memberships.find? fun m =>
      m.id == membershipId && m.organizationId == organizationId with
  | none => exact Keeps.throw _
  | some target =>
    have hkeys := List.find?_some hfound
    simp only [Bool.and_eq_true, beq_iff_eq] at hkeys
    have hknown := Membership.known_of_mem hn (List.mem_of_find?_eq_some hfound)
    exact hk target w' hkeys.1 hkeys.2 hknown hi'

end Steps

end ShipFlow.Organizations
