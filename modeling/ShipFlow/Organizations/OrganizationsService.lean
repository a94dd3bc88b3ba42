import ShipFlow.Interleaving.Pool
import ShipFlow.Organizations.Authorization

/-! `OrganizationsService`: the requests that change an organization, its members
or its invitations. -/

namespace ShipFlow.Organizations
open Interleaving Relational

structure Environment where
  normalizeNfkd : String → String
  toLowerCase : String → String
  hashOpaqueToken : String → String
  invitationUrl : (token : String) → String
  isPublicDemo : Bool

structure AuthenticatedUser where
  id : Id
  email : String
  emailVerified : Bool
  deriving DecidableEq, Repr

structure CreateInvitationDto where
  email : String
  role : MembershipRole
  deriving DecidableEq, Repr

structure OrganizationResponse where
  id : Id
  name : String
  slug : String
  ownerId : Id
  owner : Option UserRecord
  membershipId : Id
  currentUserRole : MembershipRole
  currentUserCapabilities : List Capability
  memberCount : Nat
  deriving DecidableEq, Repr

structure InvitationResponse where
  id : Id
  organizationId : Id
  email : String
  role : MembershipRole
  status : InvitationStatus
  invitedBy : Option UserRecord
  expiresAt : Time
  acceptedAt : Option Time
  revokedAt : Option Time
  invitationUrl : Option String
  deriving DecidableEq, Repr

def ORGANIZATION_INVITATION_TTL_DAYS : Int := 7

variable (env : Environment)

def toOrganizationResponse (organization : OrganizationRecord) (membershipId : Id)
    (currentUserRole : MembershipRole) : OrganizationResponse where
  id := organization.id
  name := organization.name
  slug := organization.slug
  ownerId := organization.ownerId
  owner := organization.owner
  membershipId := membershipId
  currentUserRole := currentUserRole
  currentUserCapabilities := capabilitiesFor currentUserRole
  memberCount := organization.memberCount

def toInvitationResponse (invitation : Invitation) (invitedBy : Option UserRecord)
    (token : String) : InvitationResponse where
  id := invitation.id
  organizationId := invitation.organizationId
  email := invitation.email
  role := invitation.role
  status := invitation.status
  invitedBy := invitedBy
  expiresAt := invitation.expiresAt
  acceptedAt := invitation.acceptedAt
  revokedAt := invitation.revokedAt
  invitationUrl := if env.isPublicDemo then some (env.invitationUrl token) else none

def requireVerifiedEmail (user : AuthenticatedUser) : Except Failure Unit :=
  if !user.emailVerified then throw (.http .forbidden "Email verification is required")
  else return ()

def normalizeEmail (email : String) : String := env.toLowerCase (trim email)

def invitationExpiration (now : Time) : Time := now + days ORGANIZATION_INVITATION_TTL_DAYS

/-! ## Slugs -/

def isCombiningMark (c : Char) : Bool := 0x300 ≤ c.toNat && c.toNat ≤ 0x36f

/-- `replace(/[^a-z0-9]+/g, '-')`; the flag says whether a hyphen was just written. -/
def hyphenate (hyphen : Bool) : List Char → List Char
  | [] => []
  | c :: cs =>
    if isSlugChar c then c :: hyphenate false cs
    else if hyphen then hyphenate true cs
    else '-' :: hyphenate true cs

def trimHyphensRight (cs : List Char) : List Char :=
  (cs.reverse.dropWhile fun c => c == '-').reverse

def trimHyphens (cs : List Char) : List Char :=
  trimHyphensRight (cs.dropWhile fun c => c == '-')

def slugify (name : String) : List Char :=
  let folded := env.toLowerCase
    (String.ofList ((env.normalizeNfkd name).toList.filter fun c => !isCombiningMark c))
  let slug := trimHyphens (hyphenate false folded.toList)
  if slug.isEmpty then "organization".toList else slug

def slugWithSuffix (baseSlug : List Char) (suffix : Nat) : String :=
  let suffixText := if suffix = 1 then [] else '-' :: (toString suffix).toList
  -- the base makes room for the suffix, and loses a hyphen it would then end with
  String.ofList (trimHyphensRight (baseSlug.take (63 - suffixText.length)) ++ suffixText)

/-! ## Organizations -/

def createWithOwner (userId : Id) (name slug : String) :
    Tx (OrganizationRecord × Membership) := do
  let id ← uuidv7
  let organization ← organizations.create ⟨id, userId, name, slug, none⟩
  let membershipId ← uuidv7
  let membership ← memberships.create ⟨membershipId, organization.id, userId, .owner⟩
  let record ← Transaction.reads fun s : Store => s.organizationRecord organization
  return ({ record with memberCount := 1 }, membership)

def createWithFirstSlug (userId : Id) (name : String) (baseSlug : List Char) :
    List Nat → Handler OrganizationResponse
  | [] => throw (.http .conflict "A unique organization slug is unavailable")
  | suffix :: suffixes => do
    let result ← tryCatch
      (some <$> Process.atomically
        (fun _ => createWithOwner userId name (slugWithSuffix baseSlug suffix)) fun
        | .ok (organization, membership) =>
          [.organizationCreated organization.id membership.id userId]
        | .error _ => [])
      -- any unique index counts as a slug that is taken
      fun error => if error.isUniqueConstraintError then pure none else throw error
    match result with
    | some (organization, membership) =>
      return toOrganizationResponse organization membership.id membership.role
    | none => createWithFirstSlug userId name baseSlug suffixes

def createOrganization (user : AuthenticatedUser) (name : String) :
    Handler OrganizationResponse := do
  Process.ofExcept (requireVerifiedEmail user)
  createWithFirstSlug user.id name (slugify env name) ((List.range 100).map fun n => n + 1)

def getOrganization (context : OrganizationContext) : OrganizationResponse :=
  toOrganizationResponse context.organization context.membershipId context.role

def renameOrganization (organizationId : Id) (name : String) : Tx OrganizationRecord := do
  let organization ← organizations.update (fun o => o.id == organizationId) fun o =>
    { o with name := name }
  Transaction.reads fun s : Store => s.organizationRecord organization

def updateOrganization (context : OrganizationContext) (name : String) :
    Handler OrganizationResponse := do
  let organization ← Process.statement (renameOrganization context.organization.id name)
  return toOrganizationResponse organization context.membershipId context.role

def markDeleted (organizationId : Id) (now : Time) : Tx Unit := do
  let _ ← invitations.updateMany
    (fun i => i.organizationId == organizationId && i.status == .pending)
    fun i => { i with status := .revoked, revokedAt := some now }
  let _ ← organizations.update (fun o => o.id == organizationId) fun o =>
    { o with deletedAt := some now }
  return ()

def deleteOrganization (context : OrganizationContext) : Handler String := do
  let organizationId := context.organization.id
  let now ← Process.ask Input.now
  Process.atomically (fun _ => markDeleted organizationId now) fun
    | .ok _ => [.organizationDeleted organizationId]
    | .error _ => []
  return "Organization deleted"

/-! ## Invitations -/

def expireInvitations (organizationId : Id) (email : Option String) : Handler Unit := do
  let now ← Process.ask Input.now
  let _ ← Process.statement <| invitations.updateMany
    (fun i => i.organizationId == organizationId && i.status == .pending &&
      -- an empty address is spread into no condition
      i.expiresAt ≤ now && email.all fun email => email.isEmpty || i.email == email)
    fun i => { i with status := .expired }
  return ()

def findInvitation (organizationId invitationId : Id) : Handler Invitation := do
  let found ← Process.query fun s : Store =>
    s.invitations.find? fun i => i.id == invitationId && i.organizationId == organizationId
  match found with
  | none => throw (.http .notFound "Invitation not found")
  | some invitation => return invitation

/-- `TransactionalEmailDelivery`: the mail is accepted or the call throws. -/
def sendOrganizationInvitation : Handler Unit := do
  if env.isPublicDemo then
    return ()
  else
    let failure ← Process.ask Input.deliveryFailure
    match failure with
    | none => return ()
    | some message => throw (.error message)

def addInvitation (organizationId userId : Id) (email : String) (role : MembershipRole)
    (tokenHash : String) (expiresAt : Time) : Tx (Invitation × Option UserRecord) := do
  let id ← uuidv7
  let invitation ← invitations.create
    ⟨id, organizationId, userId, none, email, role, .pending, tokenHash, expiresAt, none, none⟩
  let invitedBy ← Transaction.reads fun s : Store => s.findUser userId
  return (invitation, invitedBy)

def createInvitation (context : OrganizationContext) (userId : Id) (dto : CreateInvitationDto) :
    Handler InvitationResponse := do
  let organizationId := context.organization.id
  Process.ofExcept (assertCanAssignMembershipRole context.role dto.role)
  let email := normalizeEmail env dto.email
  expireInvitations organizationId (some email)
  let existingMembership ← Process.query fun s : Store =>
    s.memberships.any fun m => m.organizationId == organizationId &&
      (s.findUser m.userId).any fun u => u.email == email
  Process.rejectIf existingMembership
    (.http .conflict "This user is already an organization member")
  let token ← Process.ask Input.token
  let now ← Process.ask Input.now
  let (invitation, invitedBy) ← tryCatch
    (Process.atomically
      (fun _ => addInvitation organizationId userId email dto.role (env.hashOpaqueToken token)
        (invitationExpiration now)) fun
      | .ok (invitation, _) => [.invitationCreated invitation.id]
      | .error _ => [])
    fun error =>
      if error.isUniqueConstraintError then
        throw (.http .conflict "A pending invitation already exists for this email")
      else throw error
  -- the mail follows the commit, and the invitation stays if it fails
  sendOrganizationInvitation env
  return toInvitationResponse env invitation invitedBy token

def renewInvitation (invitationId userId : Id) (tokenHash : String) (expiresAt : Time) :
    Tx (Invitation × Option UserRecord) := do
  let invitation ← invitations.update (fun i => i.id == invitationId) fun i =>
    { i with
      invitedById := userId
      status := .pending
      tokenHash := tokenHash
      expiresAt := expiresAt
      acceptedAt := none
      acceptedById := none
      revokedAt := none }
  let invitedBy ← Transaction.reads fun s : Store => s.findUser userId
  return (invitation, invitedBy)

def resendInvitation (context : OrganizationContext) (invitationId userId : Id) :
    Handler InvitationResponse := do
  let organizationId := context.organization.id
  expireInvitations organizationId none
  let existing ← findInvitation organizationId invitationId
  Process.ofExcept (assertCanAssignMembershipRole context.role existing.role)
  Process.rejectIf (existing.status == .accepted || existing.status == .revoked)
    (.http .conflict "This invitation cannot be resent")
  let conflictingInvitation ← Process.query fun s : Store =>
    s.invitations.any fun i => i.organizationId == organizationId && i.email == existing.email &&
      i.status == .pending && i.id != invitationId
  Process.rejectIf conflictingInvitation
    (.http .conflict "A pending invitation already exists for this email")
  let token ← Process.ask Input.token
  let now ← Process.ask Input.now
  let (invitation, invitedBy) ← Process.atomically
    -- by the id alone, whatever has become of the row since it was read
    (fun _ => renewInvitation invitationId userId (env.hashOpaqueToken token)
      (invitationExpiration now)) fun
    | .ok _ => [.invitationResent invitationId]
    | .error _ => []
  sendOrganizationInvitation env
  return toInvitationResponse env invitation invitedBy token

def revokeInvitation (context : OrganizationContext) (invitationId : Id) : Handler String := do
  let organizationId := context.organization.id
  expireInvitations organizationId none
  let invitation ← findInvitation organizationId invitationId
  Process.ofExcept (assertCanAssignMembershipRole context.role invitation.role)
  Process.rejectIf (invitation.status != .pending)
    (.http .conflict "Only pending invitations can be revoked")
  let now ← Process.ask Input.now
  let _ ← Process.atomically
    -- by the id alone, as in a resend
    (fun _ => invitations.update (fun i => i.id == invitationId) fun i =>
      { i with status := .revoked, revokedAt := some now }) fun
    | .ok _ => [.invitationRevoked invitationId]
    | .error _ => []
  return "Invitation revoked"

def accept (user : AuthenticatedUser) (invitation : Invitation) (organization : Organization)
    (now : Time) : Tx MembershipRecord := do
  let existingMembership ← memberships.findFirst fun m =>
    m.organizationId == invitation.organizationId && m.userId == user.id
  Transaction.rejectIf existingMembership.isSome
    (.http .conflict "This user is already an organization member")
  -- open and not expired, with whatever token hash it has by now
  let accepted ← invitations.updateMany
    (fun i => i.id == invitation.id && i.status == .pending && decide (now < i.expiresAt))
    fun i => { i with status := .accepted, acceptedById := some user.id, acceptedAt := some now }
  Transaction.rejectIf (accepted != 1) (.http .conflict "Invitation is no longer available")
  let membershipId ← uuidv7
  let membership ← memberships.create
    ⟨membershipId, invitation.organizationId, user.id, invitation.role⟩
  writeNotification now
    { userId := organization.ownerId
      organizationId := some invitation.organizationId
      category := .organization
      type := .organizationInvitationAccepted
      title := "Invitation accepted"
      message := s!"A new member joined {organization.name}."
      actionPath := none
      dedupeKey := s!"invitation-accepted:{invitation.id}"
      metadata := [("invitationId", some (toString invitation.id)),
        ("membershipId", some (toString membership.id)),
        ("memberUserId", some (toString user.id)), ("role", some membership.role.name)]
      createdAt := none }
  Transaction.reads fun s : Store => s.membershipRecord membership

def Store.invitationOf (s : Store) (tokenHash : String) : Option (Invitation × Organization) :=
  (s.invitations.find? fun i => i.tokenHash == tokenHash).bind fun i =>
    (s.findOrganization i.organizationId).map fun o => (i, o)

def acceptInvitation (user : AuthenticatedUser) (token : String) : Handler MembershipRecord := do
  Process.ofExcept (requireVerifiedEmail user)
  let tokenHash := env.hashOpaqueToken token
  let found ← Process.atomically
    (fun _ => Transaction.reads fun s : Store => s.invitationOf tokenHash) fun
    | .ok (some (invitation, _)) => [.invitationFound invitation.id]
    | _ => []
  match found with
  | none => throw (.http .badRequest "Invalid invitation token")
  | some (invitation, organization) =>
    Process.rejectIf (organization.deletedAt.isSome || invitation.status == .revoked)
      (.http .notFound "Invitation not found")
    Process.rejectIf (invitation.status == .accepted)
      (.http .conflict "Invitation has already been accepted")
    let clock ← Process.ask Input.now
    if invitation.status == .expired || invitation.expiresAt ≤ clock then
      -- the mark stays, though the request fails
      let _ ← Process.statement <| invitations.updateMany
        (fun i => i.id == invitation.id && i.status == .pending)
        fun i => { i with status := .expired }
      throw (.http .gone "Invitation has expired")
    else
      Process.rejectIf (invitation.email != normalizeEmail env user.email)
        (.http .forbidden "Invitation email does not match the authenticated user")
      Process.atomically (fun i => accept user invitation organization i.now) fun
        | .ok membership => [.invitationAccepted invitation.id membership.id tokenHash]
        | .error _ => []

/-! ## Members -/

/-- The member is told, and so is the owner unless the owner acted. -/
def notifyMemberChange (context : OrganizationContext) (target : Membership) (now : Time)
    (notification : WriteNotificationInput) (ownerMessage : String) : Tx Unit := do
  writeNotification now { notification with userId := target.userId }
  if context.role != .owner && context.organization.ownerId != target.userId then
    writeNotification now
      { notification with userId := context.organization.ownerId, message := ownerMessage }
  else return ()

def changeRole (context : OrganizationContext) (target : Membership) (membershipId : Id)
    (role : MembershipRole) (operationId : String) (now : Time) : Tx MembershipRecord := do
  let updated ← memberships.update (fun m => m.id == membershipId) fun m => { m with role := role }
  let record ← Transaction.reads fun s : Store => s.membershipRecord updated
  notifyMemberChange context target now
    { userId := target.userId
      organizationId := some context.organization.id
      category := .organization
      type := .organizationRoleChanged
      title := "Organization role changed"
      message := s!"Your role in {context.organization.name} is now {role.toLowerCase}."
      actionPath := none
      dedupeKey := s!"role-changed:{operationId}"
      metadata := [("membershipId", some (toString membershipId)), ("role", some role.name)]
      createdAt := none }
    s!"A member role in {context.organization.name} was changed to {role.toLowerCase}."
  return record

def updateMemberRole (context : OrganizationContext) (membershipId : Id) (role : MembershipRole) :
    Handler MembershipRecord := do
  let target ← findMembershipById context.organization.id membershipId
  Process.ofExcept (assertCanManageMembership context.role context.membershipId target.id
    target.role .membershipChangeRole)
  Process.ofExcept (assertCanAssignMembershipRole context.role role)
  let operationId ← Process.ask Input.operationId
  Process.atomically (fun i => changeRole context target membershipId role operationId i.now) fun
    | .ok _ => [.memberRoleChanged membershipId role]
    | .error _ => []

def deleteMembership (context : OrganizationContext) (target : Membership) (membershipId : Id)
    (operationId : String) (now : Time) : Tx Unit := do
  memberships.delete fun m => m.id == membershipId
  notifyMemberChange context target now
    { userId := target.userId
      organizationId := some context.organization.id
      category := .organization
      type := .organizationMemberRemoved
      title := "Organization membership removed"
      message := s!"Your membership in {context.organization.name} was removed."
      actionPath := none
      dedupeKey := s!"member-removed:{operationId}"
      metadata := [("membershipId", some (toString membershipId))]
      createdAt := none }
    s!"A member was removed from {context.organization.name}."

def removeMember (context : OrganizationContext) (membershipId : Id) : Handler String := do
  let target ← findMembershipById context.organization.id membershipId
  Process.ofExcept (assertCanManageMembership context.role context.membershipId target.id
    target.role .membershipRemove)
  let operationId ← Process.ask Input.operationId
  Process.atomically (fun i => deleteMembership context target membershipId operationId i.now) fun
    | .ok _ => [.memberRemoved membershipId]
    | .error _ => []
  return "Member removed"

def leaveOrganization (context : OrganizationContext) : Handler String := do
  Process.ofExcept (assertCanLeaveOrganization context.role)
  Process.atomically (fun _ => memberships.delete fun m => m.id == context.membershipId) fun
    | .ok _ => [.memberLeft context.membershipId]
    | .error _ => []
  return "Organization left"

def transfer (context : OrganizationContext) (userId : Id) (target : Membership)
    (operationId : String) (now : Time) : Tx Unit := do
  let _ ← memberships.update (fun m => m.id == context.membershipId) fun m =>
    { m with role := .admin }
  let _ ← memberships.update (fun m => m.id == target.id) fun m => { m with role := .owner }
  let _ ← organizations.update (fun o => o.id == context.organization.id) fun o =>
    { o with ownerId := target.userId }
  writeNotification now
    { userId := target.userId
      organizationId := some context.organization.id
      category := .organization
      type := .organizationOwnershipTransferred
      title := "Organization ownership transferred"
      message := s!"You are now the Owner of {context.organization.name}."
      actionPath := none
      dedupeKey := s!"ownership-transferred:{operationId}"
      metadata := [("previousOwnerUserId", some (toString userId))]
      createdAt := none }

def transferOwnership (context : OrganizationContext) (userId membershipId : Id) :
    Handler OrganizationResponse := do
  let organizationId := context.organization.id
  let target ← findMembershipById organizationId membershipId
  Process.rejectIf (target.userId == userId)
    (.http .badRequest "The target member already owns this organization")
  let operationId ← Process.ask Input.operationId
  Process.atomically (fun i => transfer context userId target operationId i.now) fun
    | .ok _ => [.ownershipTransferred organizationId context.membershipId target.id]
    | .error _ => []
  let updatedContext ← resolve organizationId userId
  return getOrganization updatedContext

/-! ## The routes -/

inductive Request where
  | createOrganization (user : AuthenticatedUser) (name : String)
  | getOrganization (organizationId userId : Id)
  | updateOrganization (organizationId userId : Id) (name : String)
  | deleteOrganization (organizationId userId : Id)
  | createInvitation (organizationId userId : Id) (dto : CreateInvitationDto)
  | resendInvitation (organizationId userId invitationId : Id)
  | revokeInvitation (organizationId userId invitationId : Id)
  | acceptInvitation (user : AuthenticatedUser) (token : String)
  | updateMemberRole (organizationId userId membershipId : Id) (role : MembershipRole)
  | removeMember (organizationId userId membershipId : Id)
  | leaveOrganization (organizationId userId : Id)
  | transferOwnership (organizationId userId membershipId : Id)
  deriving DecidableEq, Repr

inductive Response where
  | organization (response : OrganizationResponse)
  | invitation (response : InvitationResponse)
  | membership (response : MembershipRecord)
  | message (text : String)
  deriving DecidableEq, Repr

def handler : Request → Handler Response
  | .createOrganization user name => .organization <$> createOrganization env user name
  | .getOrganization organizationId userId => do
    let context ← canActivate organizationId userId [.organizationRead]
    return .organization (getOrganization context)
  | .updateOrganization organizationId userId name => do
    let context ← canActivate organizationId userId [.organizationUpdate]
    .organization <$> updateOrganization context name
  | .deleteOrganization organizationId userId => do
    let context ← canActivate organizationId userId [.organizationDelete]
    .message <$> deleteOrganization context
  | .createInvitation organizationId userId dto => do
    let context ← canActivate organizationId userId [.invitationCreate]
    .invitation <$> createInvitation env context userId dto
  | .resendInvitation organizationId userId invitationId => do
    let context ← canActivate organizationId userId [.invitationResend]
    .invitation <$> resendInvitation env context invitationId userId
  | .revokeInvitation organizationId userId invitationId => do
    let context ← canActivate organizationId userId [.invitationRevoke]
    .message <$> revokeInvitation context invitationId
  | .acceptInvitation user token => .membership <$> acceptInvitation env user token
  | .updateMemberRole organizationId userId membershipId role => do
    let context ← canActivate organizationId userId [.membershipChangeRole]
    .membership <$> updateMemberRole context membershipId role
  | .removeMember organizationId userId membershipId => do
    let context ← canActivate organizationId userId [.membershipRemove]
    .message <$> removeMember context membershipId
  | .leaveOrganization organizationId userId => do
    let context ← canActivate organizationId userId [.organizationLeave]
    .message <$> leaveOrganization context
  | .transferOwnership organizationId userId membershipId => do
    let context ← canActivate organizationId userId [.ownershipTransfer]
    .organization <$> transferOwnership context userId membershipId

abbrev Config := Interleaving.Config Request Input Store Event Failure Response

def advances (pid n : Nat) (i : Input) : List (Action Request Input) :=
  List.replicate n (.advance pid i)

/-- An environment for tests. -/
def Environment.transparent : Environment where
  normalizeNfkd := id
  toLowerCase := id
  hashOpaqueToken := id
  invitationUrl := id
  isPublicDemo := true

def Input.at (now : Time) (token : String) : Input := ⟨now, token, token, none⟩

end ShipFlow.Organizations
