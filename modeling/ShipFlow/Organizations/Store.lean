import ShipFlow.Notifications

/-! The tenancy tables: organizations, memberships and invitations. -/

namespace ShipFlow.Organizations
open Interleaving Relational

inductive MembershipRole where
  | owner
  | admin
  | member
  | viewer
  deriving DecidableEq, Repr

def MembershipRole.name : MembershipRole → String
  | .owner => "OWNER"
  | .admin => "ADMIN"
  | .member => "MEMBER"
  | .viewer => "VIEWER"

def MembershipRole.toLowerCase : MembershipRole → String
  | .owner => "owner"
  | .admin => "admin"
  | .member => "member"
  | .viewer => "viewer"

inductive InvitationStatus where
  | pending
  | accepted
  | revoked
  | expired
  deriving DecidableEq, Repr

structure UserRecord where
  id : Id
  email : String
  displayName : Option String
  avatarUrl : Option String
  deriving DecidableEq, Repr

structure Organization where
  id : Id
  ownerId : Id
  name : String
  slug : String
  deletedAt : Option Time
  deriving DecidableEq, Repr

structure Membership where
  id : Id
  organizationId : Id
  userId : Id
  role : MembershipRole
  deriving DecidableEq, Repr

structure Invitation where
  id : Id
  organizationId : Id
  invitedById : Id
  acceptedById : Option Id
  email : String
  role : MembershipRole
  status : InvitationStatus
  tokenHash : String
  expiresAt : Time
  acceptedAt : Option Time
  revokedAt : Option Time
  deriving DecidableEq, Repr

structure Store where
  nextId : Id
  users : List UserRecord
  organizations : List Organization
  memberships : List Membership
  invitations : List Invitation
  notifications : List Notification
  notificationPreferences : List NotificationPreference
  deriving Repr

def Store.withUsers (nextId : Id) (users : List UserRecord) : Store :=
  ⟨nextId, users, [], [], [], [], []⟩

/-- The characters of the class `[a-z0-9]`. -/
def isSlugChar (c : Char) : Bool := ('a' ≤ c && c ≤ 'z') || ('0' ≤ c && c ≤ '9')

/-- The expression `^[a-z0-9]+(?:-[a-z0-9]+)*$`; the flag says whether the last
character belongs to the class. -/
def matchesSlugFormat (inWord : Bool) : List Char → Bool
  | [] => inWord
  | c :: cs =>
    if isSlugChar c then matchesSlugFormat true cs
    else c == '-' && inWord && matchesSlugFormat false cs

/-- `organizations_slug_format_check`, and the width of the column. -/
def Organization.validSlug (o : Organization) : Bool :=
  matchesSlugFormat false o.slug.toList && o.slug.length ≤ 63

/-- The texts that a column of type `VARCHAR(width)` holds. PostgreSQL refuses the character NUL
in a text. -/
def isVarchar (width : Nat) (text : String) : Bool :=
  text.length ≤ width && !text.toList.contains (Char.ofNat 0)

def Organization.valid (o : Organization) : Bool := o.validSlug && isVarchar 120 o.name

def organizations : Table Store Organization where
  rows := Store.organizations
  put rows s := { s with organizations := rows }
  admits _ o := o.valid
  collides a b := a.id == b.id || a.slug == b.slug

/-- The unique indexes of the memberships, with
`memberships_one_owner_per_organization_key`. -/
def memberships : Table Store Membership where
  rows := Store.memberships
  put rows s := { s with memberships := rows }
  admits _ _ := true
  collides a b := a.id == b.id ||
    (a.organizationId == b.organizationId &&
      (a.userId == b.userId || (a.role == .owner && b.role == .owner)))

/-- `invitations_role_check` and `invitations_status_check`, which lets the account that
accepted an invitation be deleted. -/
def Invitation.valid (i : Invitation) : Bool :=
  i.role != .owner &&
  match i.status with
  | .accepted => i.acceptedAt.isSome && i.revokedAt.isNone
  | .revoked => i.acceptedAt.isNone && i.acceptedById.isNone && i.revokedAt.isSome
  | .pending | .expired => i.acceptedAt.isNone && i.acceptedById.isNone && i.revokedAt.isNone

/-- The unique indexes of the invitations, with
`invitations_pending_organization_email_key`. -/
def invitations : Table Store Invitation where
  rows := Store.invitations
  put rows s := { s with invitations := rows }
  admits _ i := i.valid
  collides a b := a.id == b.id || a.tokenHash == b.tokenHash ||
    (a.organizationId == b.organizationId && a.email == b.email &&
      a.status == .pending && b.status == .pending)

instance : HasNotifications Store where
  nextId := Store.nextId
  takeId s := { s with nextId := s.nextId + 1 }
  notifications :=
    { rows := Store.notifications
      put := fun rows s => { s with notifications := rows }
      admits := fun _ _ => true
      collides := Notification.collides }
  notificationPreferences := Store.notificationPreferences

/-! ## Selections -/

structure OrganizationRecord where
  id : Id
  name : String
  slug : String
  ownerId : Id
  owner : Option UserRecord
  memberCount : Nat
  deriving DecidableEq, Repr

structure MembershipRecord where
  id : Id
  organizationId : Id
  role : MembershipRole
  user : Option UserRecord
  deriving DecidableEq, Repr

def Store.findUser (s : Store) (userId : Id) : Option UserRecord :=
  s.users.find? fun u => u.id == userId

def Store.findOrganization (s : Store) (organizationId : Id) : Option Organization :=
  s.organizations.find? fun o => o.id == organizationId

def Store.organizationRecord (s : Store) (o : Organization) : OrganizationRecord where
  id := o.id
  name := o.name
  slug := o.slug
  ownerId := o.ownerId
  owner := s.findUser o.ownerId
  memberCount := s.memberships.countP fun m => m.organizationId == o.id

def Store.membershipRecord (s : Store) (m : Membership) : MembershipRecord :=
  ⟨m.id, m.organizationId, m.role, s.findUser m.userId⟩

/-- What a request draws from outside the store: the clock, an opaque token,
`randomUUID()`, and whether the mail went out. -/
structure Input where
  now : Time
  token : String
  operationId : String
  deliveryFailure : Option String

/-- What a request does to the members and invitations of an organization. -/
inductive Event where
  | organizationCreated (organizationId membershipId userId : Id)
  | organizationDeleted (organizationId : Id)
  | invitationCreated (invitationId : Id)
  | invitationResent (invitationId : Id)
  | invitationRevoked (invitationId : Id)
  | invitationFound (invitationId : Id)
  | invitationAccepted (invitationId membershipId : Id) (tokenHash : String)
  | memberRoleChanged (membershipId : Id) (role : MembershipRole)
  | memberRemoved (membershipId : Id)
  | memberLeft (membershipId : Id)
  | ownershipTransferred (organizationId previousMembershipId membershipId : Id)
  deriving DecidableEq, Repr

abbrev Tx := Transaction Store Failure
abbrev Handler := Process Input Store Event Failure
abbrev World := Interleaving.World Store Event

end ShipFlow.Organizations
