import ShipFlow.Interleaving.Isolation
import ShipFlow.Organizations.Requests

/-! What an organization request does to the three tables when it runs alone, and on
whose authority. -/

namespace ShipFlow.Organizations
open Interleaving Interleaving.Process Relational

/-- The organization and the user of a request that the guard lets through. -/
def Request.actor : Request → Option (Id × Id)
  | .createOrganization _ _ => none
  | .getOrganization organizationId userId => some (organizationId, userId)
  | .updateOrganization organizationId userId _ => some (organizationId, userId)
  | .deleteOrganization organizationId userId => some (organizationId, userId)
  | .createInvitation organizationId userId _ => some (organizationId, userId)
  | .resendInvitation organizationId userId _ => some (organizationId, userId)
  | .revokeInvitation organizationId userId _ => some (organizationId, userId)
  | .acceptInvitation _ _ => none
  | .updateMemberRole organizationId userId _ _ => some (organizationId, userId)
  | .removeMember organizationId userId _ => some (organizationId, userId)
  | .leaveOrganization organizationId userId => some (organizationId, userId)
  | .transferOwnership organizationId userId _ => some (organizationId, userId)

def Request.organizationId (r : Request) : Option Id := r.actor.map Prod.fst

/-- The invitation that an event creates or sends again. -/
def Event.sent : Event → Option Id
  | .invitationCreated invitationId => some invitationId
  | .invitationResent invitationId => some invitationId
  | _ => none

/-- At most overdue invitations of the organization were marked as expired. -/
def Marked (inputs : Nat → Input) (organizationId : Id) (rows rows' : List Invitation) : Prop :=
  ∃ p : Invitation → Bool, rows' = updateRows p (fun i => { i with status := .expired }) rows ∧
    ∀ i ∈ rows, p i = true → i.organizationId = organizationId ∧ i.status = .pending ∧
      ∃ n, i.expiresAt ≤ (inputs n).now

theorem Marked.refl {inputs : Nat → Input} {organizationId : Id} {rows : List Invitation} :
    Marked inputs organizationId rows rows :=
  ⟨fun _ => false, (updateRows_eq_self fun _ _ => rfl).symm, nofun⟩

inductive Performed (env : Environment) (inputs : Nat → Input) (s : Store) :
    Request → Store → List Event → Prop where
  | nothing (r : Request) (s' : Store) (es : List Event) (organizationId : Id)
      (hscope : ∀ o ∈ r.organizationId, o = organizationId)
      (hnext : s'.nextId = s.nextId) (horganizations : s'.organizations = s.organizations)
      (hmemberships : s'.memberships = s.memberships)
      (hinvitations : Marked inputs organizationId s.invitations s'.invitations)
      (hquiet : ∀ e ∈ es, e.sent = none) : Performed env inputs s r s' es
  | organizationCreated (user : AuthenticatedUser) (name slug : String) :
    Performed env inputs s (.createOrganization user name)
      { s with
        nextId := s.nextId + 2
        organizations := s.organizations ++ [⟨s.nextId, user.id, name, slug, none⟩]
        memberships := s.memberships ++ [⟨s.nextId + 1, s.nextId, user.id, .owner⟩] }
      [.organizationCreated s.nextId (s.nextId + 1) user.id]
  | organizationRenamed (organizationId userId : Id) (name : String) :
    Performed env inputs s (.updateOrganization organizationId userId name)
      { s with
        organizations := updateRows (fun o => o.id == organizationId)
          (fun o => { o with name := name }) s.organizations } []
  | organizationDeleted (organizationId userId : Id) (now : Time) :
    Performed env inputs s (.deleteOrganization organizationId userId)
      { s with
        invitations := updateRows
          (fun i => i.organizationId == organizationId && i.status == .pending)
          (fun i => { i with status := .revoked, revokedAt := some now }) s.invitations
        organizations := updateRows (fun o => o.id == organizationId)
          (fun o => { o with deletedAt := some now }) s.organizations }
      [.organizationDeleted organizationId]
  | invitationCreated (organizationId userId : Id) (dto : CreateInvitationDto)
      (context : OrganizationContext) (marked : List Invitation) (invitation : Invitation)
      (hcontext : s.organizationContext organizationId userId = some context)
      (hassign : assertCanAssignMembershipRole context.role dto.role = .ok ())
      (hmarked : Marked inputs organizationId s.invitations marked)
      (hid : invitation.id = s.nextId) (horganization : invitation.organizationId = organizationId)
      (hrole : invitation.role = dto.role) :
    Performed env inputs s (.createInvitation organizationId userId dto)
      { s with nextId := s.nextId + 1, invitations := marked ++ [invitation] }
      [.invitationCreated invitation.id]
  | invitationResent (organizationId userId invitationId : Id) (context : OrganizationContext)
      (marked : List Invitation) (existing : Invitation) (tokenHash : String) (expiresAt : Time)
      (hcontext : s.organizationContext organizationId userId = some context)
      (hmarked : Marked inputs organizationId s.invitations marked)
      (hexisting : existing ∈ marked) (hid : existing.id = invitationId)
      (horganization : existing.organizationId = organizationId)
      (hassign : assertCanAssignMembershipRole context.role existing.role = .ok ()) :
    Performed env inputs s (.resendInvitation organizationId userId invitationId)
      { s with
        invitations := updateRows (fun i => i.id == invitationId)
          (fun i => i.renew userId tokenHash expiresAt) marked }
      [.invitationResent invitationId]
  | invitationRevoked (organizationId userId invitationId : Id) (context : OrganizationContext)
      (marked : List Invitation) (existing : Invitation) (now : Time)
      (hcontext : s.organizationContext organizationId userId = some context)
      (hmarked : Marked inputs organizationId s.invitations marked)
      (hexisting : existing ∈ marked) (hid : existing.id = invitationId)
      (horganization : existing.organizationId = organizationId)
      (hassign : assertCanAssignMembershipRole context.role existing.role = .ok ()) :
    Performed env inputs s (.revokeInvitation organizationId userId invitationId)
      { s with
        invitations := updateRows (fun i => i.id == invitationId)
          (fun i => { i with status := .revoked, revokedAt := some now }) marked }
      [.invitationRevoked invitationId]
  | invitationAccepted (user : AuthenticatedUser) (token : String) (invitation : Invitation)
      (now : Time) (nextId : Id) (notifications : List Notification)
      (hinvitation : invitation ∈ s.invitations)
      (htoken : invitation.tokenHash = env.hashOpaqueToken token)
      (hpending : invitation.status = .pending) (hrole : invitation.role ≠ .owner)
      (hnext : s.nextId + 1 ≤ nextId) :
    Performed env inputs s (.acceptInvitation user token)
      { s with
        nextId := nextId
        notifications := notifications
        invitations := updateRows (Invitation.open invitation.id now)
          (Invitation.acceptedBy user.id now) s.invitations
        memberships := s.memberships ++
          [⟨s.nextId, invitation.organizationId, user.id, invitation.role⟩] }
      [.invitationFound invitation.id,
        .invitationAccepted invitation.id s.nextId (env.hashOpaqueToken token)]
  | memberRoleChanged (organizationId userId membershipId : Id) (role : MembershipRole)
      (context : OrganizationContext) (target : Membership) (nextId : Id)
      (notifications : List Notification)
      (hcontext : s.organizationContext organizationId userId = some context)
      (htarget : target ∈ s.memberships) (hid : target.id = membershipId)
      (horganization : target.organizationId = organizationId)
      (hmanage : assertCanManageMembership context.role context.membershipId target.id target.role
        .membershipChangeRole = .ok ())
      (hassign : assertCanAssignMembershipRole context.role role = .ok ())
      (hnext : s.nextId ≤ nextId) :
    Performed env inputs s (.updateMemberRole organizationId userId membershipId role)
      { s with
        nextId := nextId
        notifications := notifications
        memberships := updateRows (fun m => m.id == membershipId) (fun m => { m with role := role })
          s.memberships }
      [.memberRoleChanged membershipId role]
  | memberRemoved (organizationId userId membershipId : Id) (context : OrganizationContext)
      (target : Membership) (nextId : Id) (notifications : List Notification)
      (hcontext : s.organizationContext organizationId userId = some context)
      (htarget : target ∈ s.memberships) (hid : target.id = membershipId)
      (horganization : target.organizationId = organizationId)
      (hmanage : assertCanManageMembership context.role context.membershipId target.id target.role
        .membershipRemove = .ok ())
      (hnext : s.nextId ≤ nextId) :
    Performed env inputs s (.removeMember organizationId userId membershipId)
      { s with
        nextId := nextId
        notifications := notifications
        memberships := s.memberships.filter fun m => !(m.id == membershipId) }
      [.memberRemoved membershipId]
  | memberLeft (organizationId userId : Id) (context : OrganizationContext)
      (hcontext : s.organizationContext organizationId userId = some context) :
    Performed env inputs s (.leaveOrganization organizationId userId)
      { s with memberships := s.memberships.filter fun m => !(m.id == context.membershipId) }
      [.memberLeft context.membershipId]
  | ownershipTransferred (organizationId userId membershipId : Id) (context : OrganizationContext)
      (target : Membership) (nextId : Id) (notifications : List Notification)
      (hcontext : s.organizationContext organizationId userId = some context)
      (howner : context.role = .owner) (htarget : target ∈ s.memberships)
      (hid : target.id = membershipId) (horganization : target.organizationId = organizationId)
      (hother : target.userId ≠ userId) (hnext : s.nextId ≤ nextId) :
    Performed env inputs s (.transferOwnership organizationId userId membershipId)
      { s with
        nextId := nextId
        notifications := notifications
        memberships := transferred context.membershipId membershipId s.memberships
        organizations := updateRows (fun o => o.id == organizationId)
          (fun o => { o with ownerId := target.userId }) s.organizations }
      [.ownershipTransferred organizationId context.membershipId membershipId]

/-- The request has come from `w` to `w'`. -/
def PerformedIn (env : Environment) (inputs : Nat → Input) (pid : Nat) (w : World) (r : Request)
    (w' : World) : Prop :=
  ∃ es, w'.trace = w.trace ++ es.map (fun e => (pid, e)) ∧
    Performed env inputs w.store r w'.store es

section Requests
variable {env : Environment} {inputs : Nat → Input} {pid : Nat} {w : World} {r : Request}

theorem PerformedIn.idle : PerformedIn env inputs pid w r w := by
  refine ⟨[], by simp, .nothing r w.store [] (r.organizationId.getD 0) ?_ rfl rfl rfl .refl nofun⟩
  intro o ho
  rw [Option.mem_def.mp ho]
  rfl

/-- The request has at most marked overdue invitations. -/
theorem PerformedIn.marked {w' : World} {organizationId : Id}
    (hscope : r.organizationId = some organizationId) (htrace : w'.trace = w.trace)
    (hstore : w'.store = { w.store with invitations := w'.store.invitations })
    (hmarked : Marked inputs organizationId w.store.invitations w'.store.invitations) :
    PerformedIn env inputs pid w r w' := by
  refine ⟨[], by simp [htrace], .nothing r w'.store [] organizationId ?_ ?_ ?_ ?_ hmarked nofun⟩
  · intro o ho
    rw [hscope] at ho
    exact (Option.mem_some_iff.mp ho).symm
  · rw [hstore]
  · rw [hstore]
  · rw [hstore]

end Requests

/-- The requests run on these inputs. -/
abbrev Drawn (inputs : Nat → Input) (i : Input) : Prop := ∃ n, i = inputs n

section Requests
variable {env : Environment} {inputs : Nat → Input} {pid : Nat} {w : World} {α : Type}
  {organizationId userId : Id} {context : OrganizationContext}

theorem canActivate_ends {capabilities : List Capability} {k : OrganizationContext → Handler α}
    {Q : Except Failure α → World → Prop} (hfail : ∀ e, Q (.error e) w)
    (hk : ∀ context, w.store.organizationContext organizationId userId = some context →
      assertCapabilities context.role capabilities = .ok () →
      Ends (Drawn inputs) pid Q (k context) w) :
    Ends (Drawn inputs) pid Q (canActivate organizationId userId capabilities >>= k) w := by
  rw [canActivate, resolve, Process.bind_assoc, Process.bind_assoc]
  refine Ends.query ?_
  cases hfound : w.store.organizationContext organizationId userId with
  | none => exact hfail _
  | some context =>
    change Ends _ _ _ ((Process.ofExcept (assertCapabilities context.role capabilities) >>=
      fun _ => pure context) >>= k) w
    rw [Process.bind_assoc]
    refine Ends.ofExcept (fun e _ => hfail e) fun _ h => ?_
    exact hk context hfound h

theorem findMembershipById_ends {membershipId : Id} {k : Membership → Handler α}
    {Q : Except Failure α → World → Prop} (hfail : ∀ e, Q (.error e) w)
    (hk : ∀ target ∈ w.store.memberships, target.id = membershipId →
      target.organizationId = organizationId → Ends (Drawn inputs) pid Q (k target) w) :
    Ends (Drawn inputs) pid Q (findMembershipById organizationId membershipId >>= k) w := by
  rw [findMembershipById, Process.bind_assoc]
  refine Ends.query ?_
  cases hfound : w.store.memberships.find? fun m =>
      m.id == membershipId && m.organizationId == organizationId with
  | none => exact hfail _
  | some target =>
    have hkeys := List.find?_some hfound
    simp only [Bool.and_eq_true, beq_iff_eq] at hkeys
    exact hk target (List.mem_of_find?_eq_some hfound) hkeys.1 hkeys.2

theorem findInvitation_ends {invitationId : Id} {k : Invitation → Handler α}
    {Q : Except Failure α → World → Prop} (hfail : ∀ e, Q (.error e) w)
    (hk : ∀ existing ∈ w.store.invitations, existing.id = invitationId →
      existing.organizationId = organizationId → Ends (Drawn inputs) pid Q (k existing) w) :
    Ends (Drawn inputs) pid Q (findInvitation organizationId invitationId >>= k) w := by
  rw [findInvitation, Process.bind_assoc]
  refine Ends.query ?_
  cases hfound : w.store.invitations.find? fun i =>
      i.id == invitationId && i.organizationId == organizationId with
  | none => exact hfail _
  | some existing =>
    have hkeys := List.find?_some hfound
    simp only [Bool.and_eq_true, beq_iff_eq] at hkeys
    exact hk existing (List.mem_of_find?_eq_some hfound) hkeys.1 hkeys.2

theorem expireInvitations_ends {email : Option String} {k : Unit → Handler α}
    {Q : Except Failure α → World → Prop} (hfail : ∀ e, Q (.error e) w)
    (hk : ∀ marked, Marked inputs organizationId w.store.invitations marked →
      Ends (Drawn inputs) pid Q (k ()) ⟨{ w.store with invitations := marked }, w.trace⟩) :
    Ends (Drawn inputs) pid Q (expireInvitations organizationId email >>= k) w := by
  rw [expireInvitations, Process.bind_assoc]
  refine Ends.ask fun i ⟨n, hi⟩ => ?_
  rw [Process.bind_assoc]
  refine Ends.statement (fun _ s' hu => ?_) fun e _ => hfail e
  obtain ⟨-, -, rfl⟩ := Table.updateMany_ok.mp hu
  refine hk _ ⟨_, rfl, fun i hi' hp => ?_⟩
  simp only [Bool.and_eq_true, beq_iff_eq, decide_eq_true_eq] at hp
  exact ⟨hp.1.1.1, hp.1.1.2, n, by rw [← hi]; exact hp.1.2⟩

theorem sendOrganizationInvitation_ends {k : Unit → Handler α}
    {Q : Except Failure α → World → Prop} (hfail : ∀ e, Q (.error e) w)
    (hk : Ends (Drawn inputs) pid Q (k ()) w) :
    Ends (Drawn inputs) pid Q (sendOrganizationInvitation env >>= k) w := by
  unfold sendOrganizationInvitation
  split
  · exact hk
  · rw [Process.bind_assoc]
    refine Ends.ask fun i _ => ?_
    cases i.deliveryFailure with
    | none => exact hk
    | some message => exact hfail _

/-! ## Organizations -/

theorem createWithFirstSlug_ends {user : AuthenticatedUser} {name : String}
    (baseSlug : List Char) (suffixes : List Nat) :
    Ends (Drawn inputs) pid
      (fun _ => PerformedIn env inputs pid w (.createOrganization user name))
      (createWithFirstSlug user.id name baseSlug suffixes) w := by
  induction suffixes with
  | nil => exact Ends.throw .idle
  | cons suffix suffixes ih =>
    rw [createWithFirstSlug]
    refine Ends.bind (Ends.handle (Ends.map ?_))
    rw [← Process.bind_pure (Process.atomically _ _)]
    refine Ends.commit (fun _ => rfl) (fun i _ r s' h => ?_) fun i _ e _ => ?_
    · obtain ⟨hid, hmembership, -, rfl⟩ := createWithOwner_ok h
      obtain ⟨organization, membership⟩ := r
      simp only at hid hmembership
      exact ⟨_, by simp [hid, hmembership], .organizationCreated user name _⟩
    · change Ends _ _ _ (if e.isUniqueConstraintError then pure none else throw e) w
      split
      · exact ih
      · exact Ends.throw .idle

theorem updateOrganization_ends {name : String} (hid : context.organization.id = organizationId) :
    Ends (Drawn inputs) pid
      (fun _ => PerformedIn env inputs pid w (.updateOrganization organizationId userId name))
      (updateOrganization context name) w := by
  unfold updateOrganization
  refine Ends.statement (fun r s' h => ?_) fun e _ => .idle
  rw [renameOrganization_ok h, hid]
  exact ⟨[], by simp, .organizationRenamed organizationId userId name⟩

theorem deleteOrganization_ends (hid : context.organization.id = organizationId) :
    Ends (Drawn inputs) pid
      (fun _ => PerformedIn env inputs pid w (.deleteOrganization organizationId userId))
      (deleteOrganization context) w := by
  unfold deleteOrganization
  refine Ends.ask fun i _ => Ends.commit (fun _ => rfl) (fun _ _ _ s' h => ?_) fun _ _ e _ => .idle
  obtain ⟨-, rfl⟩ := markDeleted_ok h
  rw [hid]
  exact ⟨_, rfl, .organizationDeleted organizationId userId i.now⟩

/-! ## Invitations -/

theorem createInvitation_ends {dto : CreateInvitationDto}
    (hcontext : w.store.organizationContext organizationId userId = some context)
    (hid : context.organization.id = organizationId) :
    Ends (Drawn inputs) pid
      (fun _ => PerformedIn env inputs pid w (.createInvitation organizationId userId dto))
      (createInvitation env context userId dto) w := by
  unfold createInvitation
  rw [hid]
  refine Ends.ofExcept (fun _ _ => .idle) fun _ hassign => ?_
  refine expireInvitations_ends (fun _ => .idle) fun marked hmarked => ?_
  have hstopped : PerformedIn env inputs pid w (.createInvitation organizationId userId dto)
      ⟨{ w.store with invitations := marked }, w.trace⟩ := .marked rfl rfl rfl hmarked
  refine Ends.query (Ends.rejectIf (fun _ => hstopped) fun _ => Ends.ask fun i _ =>
    Ends.ask fun j _ => ?_)
  refine Ends.bind (Ends.handle ?_)
  rw [← Process.bind_pure (Process.atomically _ _)]
  refine Ends.commit (fun _ => rfl) (fun _ _ r s' h => ?_) fun _ _ e _ => ?_
  · obtain ⟨hr, -, rfl⟩ := addInvitation_ok h
    have hcreated : PerformedIn env inputs pid w (.createInvitation organizationId userId dto)
        ⟨{ w.store with nextId := w.store.nextId + 1, invitations := marked ++ [r.1] },
          w.trace ++ [(pid, .invitationCreated r.1.id)]⟩ :=
      ⟨_, rfl, .invitationCreated organizationId userId dto context marked r.1 hcontext hassign
        hmarked (by rw [hr]) (by rw [hr]) (by rw [hr])⟩
    exact sendOrganizationInvitation_ends (fun _ => hcreated) hcreated
  -- whether or not the error is a conflict, the marked invitations are all that is left
  · change Ends _ _ _ (if e.isUniqueConstraintError then _ else _) _
    split
    · exact Ends.throw hstopped
    · exact Ends.throw hstopped

theorem resendInvitation_ends {invitationId : Id}
    (hcontext : w.store.organizationContext organizationId userId = some context)
    (hid : context.organization.id = organizationId) :
    Ends (Drawn inputs) pid
      (fun _ => PerformedIn env inputs pid w (.resendInvitation organizationId userId invitationId))
      (resendInvitation env context invitationId userId) w := by
  unfold resendInvitation
  rw [hid]
  refine expireInvitations_ends (fun _ => .idle) fun marked hmarked => ?_
  have hstopped : PerformedIn env inputs pid w
      (.resendInvitation organizationId userId invitationId)
      ⟨{ w.store with invitations := marked }, w.trace⟩ := .marked rfl rfl rfl hmarked
  refine findInvitation_ends (fun _ => hstopped) fun existing hexisting hexistingId horg => ?_
  refine Ends.ofExcept (fun _ _ => hstopped) fun _ hassign => ?_
  refine Ends.rejectIf (fun _ => hstopped) fun _ => Ends.query (Ends.rejectIf (fun _ => hstopped)
    fun _ => Ends.ask fun i _ => Ends.ask fun j _ => ?_)
  refine Ends.commit (fun _ => rfl) (fun _ _ r s' h => ?_) fun _ _ e _ => hstopped
  obtain ⟨-, rfl⟩ := renewInvitation_ok h
  have hresent : PerformedIn env inputs pid w
      (.resendInvitation organizationId userId invitationId)
      ⟨{ w.store with
          invitations := updateRows (fun k => k.id == invitationId)
            (fun k => k.renew userId (env.hashOpaqueToken i.token) (invitationExpiration j.now))
            marked }, w.trace ++ [(pid, .invitationResent invitationId)]⟩ :=
    ⟨_, rfl, .invitationResent organizationId userId invitationId context marked existing _ _
      hcontext hmarked hexisting hexistingId horg hassign⟩
  exact sendOrganizationInvitation_ends (fun _ => hresent) hresent

theorem revokeInvitation_ends {invitationId : Id}
    (hcontext : w.store.organizationContext organizationId userId = some context)
    (hid : context.organization.id = organizationId) :
    Ends (Drawn inputs) pid
      (fun _ => PerformedIn env inputs pid w (.revokeInvitation organizationId userId invitationId))
      (revokeInvitation context invitationId) w := by
  unfold revokeInvitation
  rw [hid]
  refine expireInvitations_ends (fun _ => .idle) fun marked hmarked => ?_
  have hstopped : PerformedIn env inputs pid w
      (.revokeInvitation organizationId userId invitationId)
      ⟨{ w.store with invitations := marked }, w.trace⟩ := .marked rfl rfl rfl hmarked
  refine findInvitation_ends (fun _ => hstopped) fun existing hexisting hexistingId horg => ?_
  refine Ends.ofExcept (fun _ _ => hstopped) fun _ hassign => Ends.rejectIf (fun _ => hstopped)
    fun _ => Ends.ask fun i _ => ?_
  refine Ends.commit (fun _ => rfl) (fun _ _ r s' h => ?_) fun _ _ e _ => hstopped
  obtain ⟨_, -, -, -, rfl⟩ := Table.update_ok.mp h
  exact ⟨_, rfl, .invitationRevoked organizationId userId invitationId context marked existing
    i.now hcontext hmarked hexisting hexistingId horg hassign⟩

theorem acceptInvitation_ends (hn : Numbered w.store) (user : AuthenticatedUser) (token : String) :
    Ends (Drawn inputs) pid (fun _ => PerformedIn env inputs pid w (.acceptInvitation user token))
      (acceptInvitation env user token) w := by
  unfold acceptInvitation
  refine Ends.ofExcept (fun _ _ => .idle) fun _ _ =>
    Ends.atomically (fun _ _ found s' h => ?_) fun i _ e h => by simp [Transaction.reads] at h
  obtain ⟨hfound, rfl⟩ := (Transaction.reads_ok _ _ _ _).mp h
  cases found with
  | none =>
    simp only [World.advance_idle]
    exact Ends.throw .idle
  | some found =>
    obtain ⟨invitation, organization⟩ := found
    obtain ⟨_, hi, hmap⟩ := Option.bind_eq_some_iff.mp hfound.symm
    obtain ⟨_, -, heq⟩ := Option.map_eq_some_iff.mp hmap
    cases heq
    have hmem : invitation ∈ w.store.invitations := List.mem_of_find?_eq_some hi
    have htoken : invitation.tokenHash = env.hashOpaqueToken token := by
      simpa using List.find?_some hi
    have hrole : invitation.role ≠ .owner := by
      have hvalid := hn.valid invitation hmem
      simp only [Invitation.valid, Bool.and_eq_true, bne_iff_ne] at hvalid
      exact hvalid.1
    have hmarked : ∀ s' : Store, s' = { w.store with invitations := s'.invitations } →
        Marked inputs invitation.organizationId w.store.invitations s'.invitations →
        PerformedIn env inputs pid w (.acceptInvitation user token)
          ⟨s', w.trace ++ [(pid, .invitationFound invitation.id)]⟩ := by
      intro s' hs' hrows
      refine ⟨[.invitationFound invitation.id], rfl, .nothing _ _ _ invitation.organizationId ?_
        ?_ ?_ ?_ hrows (by simp [Event.sent])⟩
      · intro _ hreminds
        cases hreminds
      · rw [hs']
      · rw [hs']
      · rw [hs']
    have hseen := hmarked w.store rfl .refl
    refine Ends.rejectIf (fun _ => hseen) fun _ => Ends.rejectIf (fun _ => hseen) fun _ =>
      Ends.ask fun i hdrawn => ?_
    obtain ⟨n, hin⟩ := hdrawn
    split
    -- an expired invitation is marked in a statement of its own, before the refusal
    · next hexpired =>
      refine Ends.statement (fun _ s' h => ?_) fun _ _ => hseen
      obtain ⟨-, -, rfl⟩ := Table.updateMany_ok.mp h
      refine Ends.throw (hmarked _ rfl ⟨_, rfl, fun i' hi' hp => ?_⟩)
      simp only [Bool.and_eq_true, beq_iff_eq] at hp
      obtain rfl := hn.invitations.inj hi' hmem hp.1
      refine ⟨rfl, hp.2, n, ?_⟩
      simpa [hp.2, hin] using hexpired
    · refine Ends.rejectIf (fun _ => hseen) fun _ => ?_
      rw [← Process.bind_pure (Process.atomically _ _)]
      refine Ends.commit (fun _ => rfl) (fun i _ r s' h => ?_) fun _ _ _ _ => hseen
      -- the transaction counts the rows that it has closed: the invitation was still open
      obtain ⟨hid, hopen, -, -, nextId, notifications, hnext, rfl⟩ := accept_ok h
      obtain ⟨i', hi', hp⟩ := List.countP_pos_iff.mp (by rw [hopen]; exact Nat.one_pos)
      have hpending : invitation.status = .pending := by
        simp only [Invitation.open, Bool.and_eq_true, beq_iff_eq] at hp
        rw [← hn.invitations.inj hi' hmem hp.1.1]
        exact hp.1.2
      refine Ends.pure ⟨_, ?_, .invitationAccepted user token invitation i.now nextId notifications
        hmem htoken hpending hrole hnext⟩
      simp [hid]

/-! ## Members -/

theorem updateMemberRole_ends {membershipId : Id} {role : MembershipRole}
    (hcontext : w.store.organizationContext organizationId userId = some context)
    (hid : context.organization.id = organizationId) :
    Ends (Drawn inputs) pid (fun _ =>
        PerformedIn env inputs pid w (.updateMemberRole organizationId userId membershipId role))
      (updateMemberRole context membershipId role) w := by
  unfold updateMemberRole
  rw [hid]
  refine findMembershipById_ends (fun _ => .idle) fun target htarget htargetId horg => ?_
  refine Ends.ofExcept (fun _ _ => .idle) fun _ hmanage => Ends.ofExcept (fun _ _ => .idle)
    fun _ hassign => Ends.ask fun _ _ => ?_
  rw [← Process.bind_pure (Process.atomically _ _)]
  refine Ends.commit (fun _ => rfl) (fun i _ r s' h => ?_) fun _ _ _ _ => .idle
  obtain ⟨-, nextId, notifications, hnext, rfl⟩ := changeRole_ok h
  exact Ends.pure ⟨_, rfl, .memberRoleChanged organizationId userId membershipId role context target
    nextId notifications hcontext htarget htargetId horg hmanage hassign hnext⟩

theorem removeMember_ends {membershipId : Id}
    (hcontext : w.store.organizationContext organizationId userId = some context)
    (hid : context.organization.id = organizationId) :
    Ends (Drawn inputs) pid (fun _ =>
        PerformedIn env inputs pid w (.removeMember organizationId userId membershipId))
      (removeMember context membershipId) w := by
  unfold removeMember
  rw [hid]
  refine findMembershipById_ends (fun _ => .idle) fun target htarget htargetId horg => ?_
  refine Ends.ofExcept (fun _ _ => .idle) fun _ hmanage => Ends.ask fun _ _ => ?_
  refine Ends.commit (fun _ => rfl) (fun i _ _ s' h => ?_) fun _ _ _ _ => .idle
  obtain ⟨nextId, notifications, hnext, rfl⟩ := deleteMembership_ok h
  exact ⟨_, rfl, .memberRemoved organizationId userId membershipId context target nextId
    notifications hcontext htarget htargetId horg hmanage hnext⟩

theorem leaveOrganization_ends
    (hcontext : w.store.organizationContext organizationId userId = some context) :
    Ends (Drawn inputs) pid
      (fun _ => PerformedIn env inputs pid w (.leaveOrganization organizationId userId))
      (leaveOrganization context) w := by
  unfold leaveOrganization
  refine Ends.ofExcept (fun _ _ => .idle) fun _ _ => ?_
  refine Ends.commit (fun _ => rfl) (fun i _ _ s' h => ?_) fun _ _ _ _ => .idle
  obtain ⟨-, rfl⟩ := Table.delete_ok.mp h
  exact ⟨_, rfl, .memberLeft organizationId userId context hcontext⟩

theorem transferOwnership_ends {membershipId : Id}
    (hcontext : w.store.organizationContext organizationId userId = some context)
    (hid : context.organization.id = organizationId) (howner : context.role = .owner) :
    Ends (Drawn inputs) pid (fun _ =>
        PerformedIn env inputs pid w (.transferOwnership organizationId userId membershipId))
      (transferOwnership context userId membershipId) w := by
  unfold transferOwnership
  rw [hid]
  refine findMembershipById_ends (fun _ => .idle) fun target htarget htargetId horg => ?_
  refine Ends.rejectIf (fun _ => .idle) fun hother => Ends.ask fun _ _ => ?_
  have hne : target.userId ≠ userId := by simpa using hother
  refine Ends.commit (fun _ => rfl) (fun i _ _ s' h => ?_) fun _ _ _ _ => .idle
  obtain ⟨-, -, nextId, notifications, hnext, rfl⟩ := transfer_ok h
  rw [hid, htargetId]
  have hdone : Performed env inputs w.store
      (.transferOwnership organizationId userId membershipId) _ _ :=
    .ownershipTransferred organizationId userId membershipId context target nextId notifications
      hcontext howner htarget htargetId horg hne hnext
  rw [resolve, Process.bind_assoc]
  refine Ends.query ?_
  split
  · exact Ends.throw ⟨_, rfl, hdone⟩
  · exact Ends.pure ⟨_, rfl, hdone⟩

/-! ## The service -/

theorem organizationContext_id {s : Store}
    (h : s.organizationContext organizationId userId = some context) :
    context.organization.id = organizationId := by
  obtain ⟨m, hm, hcontext⟩ := Option.bind_eq_some_iff.mp h
  obtain ⟨o, ho, rfl⟩ := Option.map_eq_some_iff.mp hcontext
  have hkeys := List.find?_some hm
  simp only [Bool.and_eq_true, beq_iff_eq] at hkeys
  have hid : o.id = m.organizationId := by simpa using List.find?_some ho
  exact hid.trans hkeys.1.1

theorem transfer_owner {role : MembershipRole} {u : Unit}
    (h : assertCapabilities role [.ownershipTransfer] = .ok u) : role = .owner := by
  cases role with
  | owner => rfl
  | admin => cases h
  | member => cases h
  | viewer => cases h

theorem handler_ends (r : Request) (hn : r.organizationId = none → Numbered w.store) :
    Ends (Drawn inputs) pid (fun _ => PerformedIn env inputs pid w r) (handler env r) w := by
  cases r with
  | createOrganization user name =>
    exact Ends.map (Ends.ofExcept (fun _ _ => .idle) fun _ _ => createWithFirstSlug_ends _ _)
  | getOrganization organizationId userId =>
    exact canActivate_ends (fun _ => .idle) fun _ _ _ => Ends.pure .idle
  | updateOrganization organizationId userId name =>
    exact canActivate_ends (fun _ => .idle) fun _ h _ =>
      Ends.map (updateOrganization_ends (organizationContext_id h))
  | deleteOrganization organizationId userId =>
    exact canActivate_ends (fun _ => .idle) fun _ h _ =>
      Ends.map (deleteOrganization_ends (organizationContext_id h))
  | createInvitation organizationId userId dto =>
    exact canActivate_ends (fun _ => .idle) fun _ h _ =>
      Ends.map (createInvitation_ends h (organizationContext_id h))
  | resendInvitation organizationId userId invitationId =>
    exact canActivate_ends (fun _ => .idle) fun _ h _ =>
      Ends.map (resendInvitation_ends h (organizationContext_id h))
  | revokeInvitation organizationId userId invitationId =>
    exact canActivate_ends (fun _ => .idle) fun _ h _ =>
      Ends.map (revokeInvitation_ends h (organizationContext_id h))
  | acceptInvitation user token => exact Ends.map (acceptInvitation_ends (hn rfl) user token)
  | updateMemberRole organizationId userId membershipId role =>
    exact canActivate_ends (fun _ => .idle) fun _ h _ =>
      Ends.map (updateMemberRole_ends h (organizationContext_id h))
  | removeMember organizationId userId membershipId =>
    exact canActivate_ends (fun _ => .idle) fun _ h _ =>
      Ends.map (removeMember_ends h (organizationContext_id h))
  | leaveOrganization organizationId userId =>
    exact canActivate_ends (fun _ => .idle) fun _ h _ => Ends.map (leaveOrganization_ends h)
  | transferOwnership organizationId userId membershipId =>
    exact canActivate_ends (fun _ => .idle) fun _ h hcapable =>
      Ends.map (transferOwnership_ends h (organizationContext_id h) (transfer_owner hcapable))

end Requests

end ShipFlow.Organizations
