import ShipFlow.Organizations.Store

/-! `OrganizationContextService`, `AuthorizationService` and the guard in front of
the organization routes. -/

namespace ShipFlow.Organizations
open Interleaving Relational

inductive Capability where
  | organizationRead
  | organizationUpdate
  | organizationDelete
  | organizationLeave
  | membershipRead
  | membershipChangeRole
  | membershipRemove
  | invitationRead
  | invitationCreate
  | invitationResend
  | invitationRevoke
  | ownershipTransfer
  | billingRead
  | billingManage
  | notificationRead
  | notificationManage
  | fileRead
  | fileUpload
  | fileDelete
  deriving DecidableEq, Repr

def ROLE_CAPABILITIES : MembershipRole → List Capability
  | .owner => [.organizationRead, .organizationUpdate, .organizationDelete, .organizationLeave,
      .membershipRead, .membershipChangeRole, .membershipRemove, .invitationRead,
      .invitationCreate, .invitationResend, .invitationRevoke, .ownershipTransfer, .billingRead,
      .billingManage, .notificationRead, .notificationManage, .fileRead, .fileUpload, .fileDelete]
  | .admin => [.organizationRead, .organizationUpdate, .organizationLeave, .membershipRead,
      .membershipChangeRole, .membershipRemove, .invitationRead, .invitationCreate,
      .invitationResend, .invitationRevoke, .notificationRead, .notificationManage, .fileRead,
      .fileUpload, .fileDelete]
  | .member => [.organizationRead, .organizationLeave, .membershipRead, .notificationRead,
      .notificationManage, .fileRead, .fileUpload, .fileDelete]
  | .viewer => [.organizationRead, .organizationLeave, .membershipRead, .notificationRead,
      .notificationManage, .fileRead]

def capabilitiesFor (role : MembershipRole) : List Capability := ROLE_CAPABILITIES role

def hasCapability (role : MembershipRole) (capability : Capability) : Bool :=
  (ROLE_CAPABILITIES role).contains capability

def assertCapabilities (role : MembershipRole) (capabilities : List Capability) :
    Except Failure Unit :=
  if capabilities.any fun capability => !hasCapability role capability then
    throw (.http .forbidden "Required organization capability is missing")
  else return ()

def assertCanAssignMembershipRole (actorRole assignedRole : MembershipRole) :
    Except Failure Unit :=
  let ownerCanAssign := actorRole == .owner && assignedRole != .owner
  let adminCanAssign := actorRole == .admin &&
    (assignedRole == .member || assignedRole == .viewer)
  if !ownerCanAssign && !adminCanAssign then
    throw (.http .forbidden "This membership role cannot be assigned")
  else return ()

def assertCanManageMembership (actorRole : MembershipRole) (actorMembershipId targetMembershipId : Id)
    (targetRole : MembershipRole) (capability : Capability) : Except Failure Unit := do
  assertCapabilities actorRole [capability]
  if targetRole == .owner then
    throw (.http .conflict "Ownership must be changed through an ownership transfer")
  if actorMembershipId == targetMembershipId then
    throw (.http .badRequest "Use the leave endpoint for your membership")
  if actorRole == .admin && targetRole == .admin then
    throw (.http .forbidden "Admins cannot manage other admins")

def assertCanLeaveOrganization (role : MembershipRole) : Except Failure Unit := do
  assertCapabilities role [.organizationLeave]
  if role == .owner then
    throw (.http .conflict "Transfer ownership before leaving the organization")

/-- Nobody assigns the role of the owner. -/
theorem assertCanAssignMembershipRole_ok {actorRole assignedRole : MembershipRole} {u : Unit}
    (h : assertCanAssignMembershipRole actorRole assignedRole = .ok u) : assignedRole ≠ .owner := by
  rintro rfl
  cases actorRole <;> cases h

structure OrganizationContext where
  membershipId : Id
  role : MembershipRole
  organization : OrganizationRecord
  deriving DecidableEq, Repr

def Store.organizationContext (s : Store) (organizationId userId : Id) :
    Option OrganizationContext :=
  (s.memberships.find? fun m => m.organizationId == organizationId && m.userId == userId &&
      (s.findOrganization m.organizationId).any fun o => o.deletedAt.isNone).bind fun m =>
    (s.findOrganization m.organizationId).map fun o => ⟨m.id, m.role, s.organizationRecord o⟩

def resolve (organizationId userId : Id) : Handler OrganizationContext := do
  let found ← Process.query fun s : Store => s.organizationContext organizationId userId
  match found with
  | none => throw (.http .notFound "Organization not found")
  | some context => return context

def findMembershipById (organizationId membershipId : Id) : Handler Membership := do
  let found ← Process.query fun s : Store =>
    s.memberships.find? fun m => m.id == membershipId && m.organizationId == organizationId
  match found with
  | none => throw (.http .notFound "Membership not found")
  | some membership => return membership

/-- `OrganizationAuthorizationGuard`. -/
def canActivate (organizationId userId : Id) (capabilities : List Capability) :
    Handler OrganizationContext := do
  let context ← resolve organizationId userId
  Process.ofExcept (assertCapabilities context.role capabilities)
  return context

end ShipFlow.Organizations
