import ShipFlow.Organizations.OrganizationsService

/-! What a committed transaction of the organization service leaves behind. -/

namespace ShipFlow.Organizations
open Interleaving Relational

section Tables
variable (s : Store)

@[simp] theorem nextId_eq : HasIds.nextId s = s.nextId := rfl
@[simp] theorem takeId_eq : HasIds.takeId s = { s with nextId := s.nextId + 1 } := rfl

@[simp] theorem organizations_rows : organizations.rows s = s.organizations := rfl
@[simp] theorem organizations_put (rows : List Organization) :
    organizations.put rows s = { s with organizations := rows } := rfl

@[simp] theorem memberships_rows : memberships.rows s = s.memberships := rfl
@[simp] theorem memberships_put (rows : List Membership) :
    memberships.put rows s = { s with memberships := rows } := rfl

@[simp] theorem invitations_rows : invitations.rows s = s.invitations := rfl
@[simp] theorem invitations_put (rows : List Invitation) :
    invitations.put rows s = { s with invitations := rows } := rfl

end Tables

/-- The unique indexes of the memberships. -/
def SoundMemberships (rows : List Membership) : Prop := distinct memberships.collides rows = true

/-- The check constraints of the invitations. -/
def ValidInvitations (rows : List Invitation) : Prop := ∀ i ∈ rows, i.valid = true

theorem memberships_sound (s : Store) (rows : List Membership) :
    memberships.sound s rows = true ↔ SoundMemberships rows := by
  have hadmits : rows.all (memberships.admits s) = true := List.all_eq_true.mpr fun _ _ => rfl
  rw [Table.sound, hadmits, Bool.true_and]
  rfl

theorem invitations_sound {s : Store} {rows : List Invitation}
    (h : invitations.sound s rows = true) : ValidInvitations rows :=
  fun _ hi => Table.sound.admits h hi

variable {s s' : Store} {u : Unit} {now expiresAt : Time} {tokenHash : String}

theorem writeNotification_frame {input : WriteNotificationInput}
    (h : writeNotification now input s = .ok (u, s')) :
    ∃ nextId rows, s.nextId ≤ nextId ∧ s' = { s with nextId := nextId, notifications := rows } := by
  rcases writeNotification_ok h with rfl | ⟨rows, rfl⟩
  · exact ⟨s'.nextId, s'.notifications, Nat.le_refl _, rfl⟩
  · exact ⟨s.nextId + 1, rows, Nat.le_succ _, rfl⟩

theorem notifyMemberChange_ok {context : OrganizationContext} {target : Membership}
    {notification : WriteNotificationInput} {ownerMessage : String}
    (h : notifyMemberChange context target now notification ownerMessage s = .ok (u, s')) :
    ∃ nextId rows, s.nextId ≤ nextId ∧ s' = { s with nextId := nextId, notifications := rows } := by
  simp only [notifyMemberChange, Transaction.bind_ok] at h
  obtain ⟨_, s₁, hfirst, h⟩ := h
  obtain ⟨n₁, rows₁, hle₁, rfl⟩ := writeNotification_frame hfirst
  split at h
  · obtain ⟨n₂, rows₂, hle₂, rfl⟩ := writeNotification_frame h
    exact ⟨n₂, rows₂, Nat.le_trans hle₁ hle₂, rfl⟩
  · obtain ⟨-, rfl⟩ := (Transaction.pure_ok _ _ _ _).mp h
    exact ⟨n₁, rows₁, hle₁, rfl⟩

theorem createWithOwner_ok {userId : Id} {name slug : String}
    {r : OrganizationRecord × Membership} (h : createWithOwner userId name slug s = .ok (r, s')) :
    r.1.id = s.nextId ∧ r.2 = ⟨s.nextId + 1, s.nextId, userId, .owner⟩ ∧
      SoundMemberships (s.memberships ++ [⟨s.nextId + 1, s.nextId, userId, .owner⟩]) ∧
      s' = { s with
        nextId := s.nextId + 2
        organizations := s.organizations ++ [⟨s.nextId, userId, name, slug, none⟩]
        memberships := s.memberships ++ [⟨s.nextId + 1, s.nextId, userId, .owner⟩] } := by
  simp only [createWithOwner, Transaction.bind_ok, Transaction.pure_ok, Transaction.reads_ok] at h
  obtain ⟨_, _, hid, _, _, ho, _, _, hid', _, _, hm, _, _, ⟨rfl, rfl⟩, rfl, rfl⟩ := h
  obtain ⟨rfl, rfl⟩ := uuidv7_ok.mp hid
  obtain ⟨-, rfl, rfl⟩ := Table.create_ok.mp ho
  obtain ⟨rfl, rfl⟩ := uuidv7_ok.mp hid'
  obtain ⟨hsound, rfl, rfl⟩ := Table.create_ok.mp hm
  exact ⟨rfl, rfl, (memberships_sound _ _).mp hsound, rfl⟩

theorem renameOrganization_ok {organizationId : Id} {name : String} {r : OrganizationRecord}
    (h : renameOrganization organizationId name s = .ok (r, s')) :
    s' = { s with
      organizations := updateRows (fun o => o.id == organizationId) (fun o => { o with name := name })
        s.organizations } := by
  simp only [renameOrganization, Transaction.bind_ok, Transaction.reads_ok] at h
  obtain ⟨_, _, hu, -, rfl⟩ := h
  obtain ⟨_, -, -, -, rfl⟩ := Table.update_ok.mp hu
  rfl

theorem markDeleted_ok {organizationId : Id} (h : markDeleted organizationId now s = .ok (u, s')) :
    ValidInvitations (updateRows (fun i => i.organizationId == organizationId && i.status == .pending)
        (fun i => { i with status := .revoked, revokedAt := some now }) s.invitations) ∧
      s' = { s with
        invitations := updateRows
          (fun i => i.organizationId == organizationId && i.status == .pending)
          (fun i => { i with status := .revoked, revokedAt := some now }) s.invitations
        organizations := updateRows (fun o => o.id == organizationId)
          (fun o => { o with deletedAt := some now }) s.organizations } := by
  simp only [markDeleted, Transaction.bind_ok, Transaction.pure_ok] at h
  obtain ⟨_, _, hi, _, _, ho, -, rfl⟩ := h
  obtain ⟨hsound, -, rfl⟩ := Table.updateMany_ok.mp hi
  obtain ⟨_, -, -, -, rfl⟩ := Table.update_ok.mp ho
  exact ⟨invitations_sound hsound, rfl⟩

theorem addInvitation_ok {organizationId userId : Id} {email : String} {role : MembershipRole}
    {r : Invitation × Option UserRecord}
    (h : addInvitation organizationId userId email role tokenHash expiresAt s = .ok (r, s')) :
    r.1 = ⟨s.nextId, organizationId, userId, none, email, role, .pending, tokenHash, expiresAt,
        none, none⟩ ∧
      ValidInvitations (s.invitations ++ [r.1]) ∧
      s' = { s with nextId := s.nextId + 1, invitations := s.invitations ++ [r.1] } := by
  simp only [addInvitation, Transaction.bind_ok, Transaction.pure_ok, Transaction.reads_ok] at h
  obtain ⟨_, _, hid, _, _, hi, _, _, ⟨rfl, rfl⟩, rfl, rfl⟩ := h
  obtain ⟨rfl, rfl⟩ := uuidv7_ok.mp hid
  obtain ⟨hsound, rfl, rfl⟩ := Table.create_ok.mp hi
  exact ⟨rfl, invitations_sound hsound, rfl⟩

/-- An invitation as a resend leaves it. -/
def Invitation.renew (userId : Id) (tokenHash : String) (expiresAt : Time) (i : Invitation) :
    Invitation :=
  { i with
    invitedById := userId
    status := .pending
    tokenHash := tokenHash
    expiresAt := expiresAt
    acceptedAt := none
    acceptedById := none
    revokedAt := none }

theorem renewInvitation_ok {invitationId userId : Id} {r : Invitation × Option UserRecord}
    (h : renewInvitation invitationId userId tokenHash expiresAt s = .ok (r, s')) :
    ValidInvitations (updateRows (fun i => i.id == invitationId)
        (fun i => i.renew userId tokenHash expiresAt) s.invitations) ∧
      s' = { s with
        invitations := updateRows (fun i => i.id == invitationId)
          (fun i => i.renew userId tokenHash expiresAt) s.invitations } := by
  simp only [renewInvitation, Transaction.bind_ok, Transaction.pure_ok, Transaction.reads_ok] at h
  obtain ⟨_, _, hu, _, _, ⟨-, rfl⟩, -, rfl⟩ := h
  obtain ⟨_, -, hsound, -, rfl⟩ := Table.update_ok.mp hu
  exact ⟨invitations_sound hsound, rfl⟩

/-- The rows an acceptance selects, and what it makes of them. -/
def Invitation.open (invitationId : Id) (now : Time) (i : Invitation) : Bool :=
  i.id == invitationId && i.status == .pending && decide (now < i.expiresAt)

def Invitation.acceptedBy (userId : Id) (now : Time) (i : Invitation) : Invitation :=
  { i with status := .accepted, acceptedById := some userId, acceptedAt := some now }

theorem accept_ok {user : AuthenticatedUser} {invitation : Invitation} {organization : Organization}
    {r : MembershipRecord} (h : accept user invitation organization now s = .ok (r, s')) :
    r.id = s.nextId ∧ s.invitations.countP (Invitation.open invitation.id now) = 1 ∧
      ValidInvitations (updateRows (Invitation.open invitation.id now)
        (Invitation.acceptedBy user.id now) s.invitations) ∧
      SoundMemberships (s.memberships ++
        [⟨s.nextId, invitation.organizationId, user.id, invitation.role⟩]) ∧
      ∃ nextId notifications, s.nextId + 1 ≤ nextId ∧ s' = { s with
        nextId := nextId
        notifications := notifications
        invitations := updateRows (Invitation.open invitation.id now)
          (Invitation.acceptedBy user.id now) s.invitations
        memberships := s.memberships ++
          [⟨s.nextId, invitation.organizationId, user.id, invitation.role⟩] } := by
  simp only [accept, Transaction.bind_ok, Transaction.reads_ok, Transaction.rejectIf_ok,
    Table.findFirst_ok] at h
  obtain ⟨_, _, ⟨-, rfl⟩, _, _, ⟨-, rfl⟩, n, _, hi, _, _, ⟨hn, rfl⟩, _, _, hid, _, _, hm, _, _, hw,
    rfl, rfl⟩ := h
  obtain ⟨hvalid, rfl, rfl⟩ := Table.updateMany_ok.mp hi
  obtain ⟨rfl, rfl⟩ := uuidv7_ok.mp hid
  obtain ⟨hsound, rfl, rfl⟩ := Table.create_ok.mp hm
  obtain ⟨nextId, rows, hle, rfl⟩ := writeNotification_frame hw
  exact ⟨rfl, bne_eq_false_iff_eq.mp hn, invitations_sound hvalid, (memberships_sound _ _).mp hsound,
    nextId, rows, hle, rfl⟩

theorem changeRole_ok {context : OrganizationContext} {target : Membership} {membershipId : Id}
    {role : MembershipRole} {operationId : String} {r : MembershipRecord}
    (h : changeRole context target membershipId role operationId now s = .ok (r, s')) :
    SoundMemberships (updateRows (fun m => m.id == membershipId) (fun m => { m with role := role })
        s.memberships) ∧
      ∃ nextId notifications, s.nextId ≤ nextId ∧ s' = { s with
        nextId := nextId
        notifications := notifications
        memberships := updateRows (fun m => m.id == membershipId) (fun m => { m with role := role })
          s.memberships } := by
  simp only [changeRole, Transaction.bind_ok, Transaction.pure_ok, Transaction.reads_ok] at h
  obtain ⟨_, _, hu, _, _, ⟨-, rfl⟩, _, _, hw, -, rfl⟩ := h
  obtain ⟨_, -, hsound, -, rfl⟩ := Table.update_ok.mp hu
  obtain ⟨nextId, rows, hle, rfl⟩ := notifyMemberChange_ok hw
  exact ⟨(memberships_sound _ _).mp hsound, nextId, rows, hle, rfl⟩

theorem deleteMembership_ok {context : OrganizationContext} {target : Membership}
    {membershipId : Id} {operationId : String}
    (h : deleteMembership context target membershipId operationId now s = .ok (u, s')) :
    ∃ nextId notifications, s.nextId ≤ nextId ∧ s' = { s with
      nextId := nextId
      notifications := notifications
      memberships := s.memberships.filter fun m => !(m.id == membershipId) } := by
  simp only [deleteMembership, Transaction.bind_ok] at h
  obtain ⟨_, _, hd, hw⟩ := h
  obtain ⟨-, rfl⟩ := Table.delete_ok.mp hd
  obtain ⟨nextId, rows, hle, rfl⟩ := notifyMemberChange_ok hw
  exact ⟨nextId, rows, hle, rfl⟩

/-- The memberships after the two updates of a transfer. -/
def transferred (previousId targetId : Id) (rows : List Membership) : List Membership :=
  updateRows (fun m => m.id == targetId) (fun m => { m with role := .owner })
    (updateRows (fun m => m.id == previousId) (fun m => { m with role := .admin }) rows)

theorem transfer_ok {context : OrganizationContext} {userId : Id} {target : Membership}
    {operationId : String} (h : transfer context userId target operationId now s = .ok (u, s')) :
    (∃ m ∈ s.memberships, m.id = target.id) ∧
      SoundMemberships (transferred context.membershipId target.id s.memberships) ∧
      ∃ nextId notifications, s.nextId ≤ nextId ∧ s' = { s with
        nextId := nextId
        notifications := notifications
        memberships := transferred context.membershipId target.id s.memberships
        organizations := updateRows (fun o => o.id == context.organization.id)
          (fun o => { o with ownerId := target.userId }) s.organizations } := by
  simp only [transfer, Transaction.bind_ok] at h
  obtain ⟨_, _, hdemote, _, _, hpromote, _, _, ho, hw⟩ := h
  obtain ⟨_, -, -, -, rfl⟩ := Table.update_ok.mp hdemote
  obtain ⟨m, hm, hsound, -, rfl⟩ := Table.update_ok.mp hpromote
  obtain ⟨_, -, -, -, rfl⟩ := Table.update_ok.mp ho
  obtain ⟨nextId, rows, hle, rfl⟩ := writeNotification_frame hw
  refine ⟨?_, (memberships_sound _ _).mp hsound, nextId, rows, hle, rfl⟩
  have hid : m.id = target.id := by simpa using List.find?_some hm
  rcases mem_updateRows.mp (List.mem_of_find?_eq_some hm) with ⟨hmem, -⟩ | ⟨m₀, hmem, -, rfl⟩
  · exact ⟨m, hmem, hid⟩
  · exact ⟨m₀, hmem, hid⟩

end ShipFlow.Organizations
