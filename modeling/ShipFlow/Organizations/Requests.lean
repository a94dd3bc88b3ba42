import ShipFlow.Organizations.Effects

/-! Every action of an organization request is an effect, whatever the other
requests do in between. -/

namespace ShipFlow.Organizations
open Interleaving Interleaving.Discipline Relational

variable {pid : Nat} {w : World} {context : OrganizationContext} {userId : Id}

/-! ## Members -/

theorem updateMemberRole_keeps (membershipId : Id) (role : MembershipRole) :
    discipline.Keeps pid (updateMemberRole context membershipId role) w := by
  unfold updateMemberRole
  refine findMembershipById_then discipline.stable_true True.intro fun target w' _ _ _ _ =>
    Keeps.ofExcept fun _ _ => Keeps.ofExcept fun _ hassign => Keeps.ask fun operationId => ?_
  rw [← Process.bind_pure (Process.atomically _ _)]
  refine Keeps.commit (fun _ => rfl) (fun w' i r s' h => ?_) fun _ _ => Keeps.pure _
  obtain ⟨hsound, nextId, notifications, hnext, rfl⟩ := changeRole_ok h
  exact .memberRoleChanged membershipId role nextId notifications hnext
    (assertCanAssignMembershipRole_ok hassign) hsound

theorem removeMember_keeps (membershipId : Id) :
    discipline.Keeps pid (removeMember context membershipId) w := by
  unfold removeMember
  refine findMembershipById_then discipline.stable_true True.intro fun target w' _ _ _ _ =>
    Keeps.ofExcept fun _ _ => Keeps.ask fun operationId => ?_
  refine Keeps.commit (fun _ => rfl) (fun w' i _ s' h => ?_) fun _ _ => Keeps.pure _
  obtain ⟨nextId, notifications, hnext, rfl⟩ := deleteMembership_ok h
  exact .memberRemoved membershipId nextId notifications hnext

theorem leaveOrganization_keeps : discipline.Keeps pid (leaveOrganization context) w := by
  unfold leaveOrganization
  refine Keeps.ofExcept fun _ _ => ?_
  refine Keeps.commit (fun _ => rfl) (fun w' i _ s' h => ?_) fun _ _ => Keeps.pure _
  obtain ⟨-, rfl⟩ := Table.delete_ok.mp h
  exact .memberLeft context.membershipId

theorem transferOwnership_keeps (hknown : context.Known userId w.store) (membershipId : Id) :
    discipline.Keeps pid (transferOwnership context userId membershipId) w := by
  unfold transferOwnership
  refine findMembershipById_then (context.known_stable userId) hknown
    fun target w' _ horganization htarget hcontext => Keeps.rejectIf fun hother =>
      Keeps.ask fun operationId => ?_
  have hboth : discipline.Stable fun w => context.Known userId w.store ∧ target.Known w.store :=
    fun q w w' hn hn' he h => ⟨context.known_stable userId q w w' hn hn' he h.1,
      target.known_stable q w w' hn hn' he h.2⟩
  refine Keeps.commit_known hboth ⟨hcontext, htarget⟩ (fun _ => rfl)
    (fun w' i _ s' _ hknown' h => ?_) fun _ w' => ?_
  · obtain ⟨hmem, hsound, nextId, notifications, hnext, rfl⟩ := transfer_ok h
    have heffect : Effect pid w' _ := .ownershipTransferred (context.membership userId) target
      nextId notifications hnext hknown'.1.2 hknown'.2 horganization.symm
      (fun heq => by simp [← heq, OrganizationContext.membership] at hother) hmem hsound
    rw [horganization] at heffect
    exact heffect
  · exact resolve_then fun _ _ _ => Keeps.pure _

/-! ## Organizations -/

variable (env : Environment)

theorem createWithFirstSlug_keeps (name : String) (baseSlug : List Char) (suffixes : List Nat) :
    discipline.Keeps pid (createWithFirstSlug userId name baseSlug suffixes) w := by
  induction suffixes generalizing w with
  | nil => exact Keeps.throw _
  | cons suffix suffixes ih =>
    rw [createWithFirstSlug]
    refine Keeps.bind (Keeps.handle (Keeps.map ?_) fun e w' => ?_) fun r w' => ?_
    · rw [← Process.bind_pure (Process.atomically _ _)]
      refine Keeps.commit (fun _ => rfl) (fun w' i r s' h => ?_) fun _ _ => Keeps.pure _
      obtain ⟨hid, hmembership, hsound, rfl⟩ := createWithOwner_ok h
      obtain ⟨organization, membership⟩ := r
      simp only at hid hmembership
      simp only [hid, hmembership]
      exact .organizationCreated userId name _ hsound
    · split
      · exact Keeps.pure _
      · exact Keeps.throw _
    · cases r with
      | some r => exact Keeps.pure _
      | none => exact ih

theorem createOrganization_keeps (user : AuthenticatedUser) (name : String) :
    discipline.Keeps pid (createOrganization env user name) w :=
  Keeps.ofExcept fun _ _ => createWithFirstSlug_keeps _ _ _

theorem updateOrganization_keeps (name : String) :
    discipline.Keeps pid (updateOrganization context name) w := by
  unfold updateOrganization
  refine Keeps.commit (fun _ => rfl) (fun w' i r s' h => ?_) fun _ _ => Keeps.pure _
  rw [renameOrganization_ok h]
  exact .organizationRenamed context.organization.id name

theorem deleteOrganization_keeps : discipline.Keeps pid (deleteOrganization context) w := by
  unfold deleteOrganization
  refine Keeps.ask fun now => Keeps.commit (fun _ => rfl) (fun w' i _ s' h => ?_) fun _ _ =>
    Keeps.pure _
  obtain ⟨hvalid, rfl⟩ := markDeleted_ok h
  exact .organizationDeleted context.organization.id now hvalid

/-! ## Invitations -/

theorem expireInvitations_keeps (organizationId : Id) (email : Option String) :
    discipline.Keeps pid (expireInvitations organizationId email) w := by
  unfold expireInvitations
  refine Keeps.ask fun now => Keeps.commit (fun _ => rfl) (fun w' i _ s' h => ?_) fun _ _ =>
    Keeps.pure _
  obtain ⟨hsound, -, rfl⟩ := Table.updateMany_ok.mp h
  refine .invitationsExpired _ (fun i hp => ?_) (invitations_sound hsound)
  simp only [Bool.and_eq_true, beq_iff_eq] at hp
  exact hp.1.1.2

theorem findInvitation_keeps (organizationId invitationId : Id) :
    discipline.Keeps pid (findInvitation organizationId invitationId) w := by
  unfold findInvitation
  refine Keeps.query fun w' _ => ?_
  split
  · exact Keeps.throw _
  · exact Keeps.pure _

theorem sendOrganizationInvitation_keeps :
    discipline.Keeps pid (sendOrganizationInvitation env) w := by
  unfold sendOrganizationInvitation
  split
  · exact Keeps.pure _
  · refine Keeps.ask fun failure => ?_
    cases failure with
    | none => exact Keeps.pure _
    | some message => exact Keeps.throw _

theorem createInvitation_keeps (hknown : context.Known userId w.store) (dto : CreateInvitationDto) :
    discipline.Keeps pid (createInvitation env context userId dto) w := by
  unfold createInvitation
  refine Keeps.ofExcept fun _ _ => ?_
  refine Keeps.frame (context.known_stable userId) (expireInvitations_keeps _ _) hknown
    fun _ w₁ hknown => ?_
  refine Keeps.query_known (context.known_stable userId) hknown fun w₂ _ hknown => ?_
  refine Keeps.rejectIf fun _ => Keeps.ask fun token => Keeps.ask fun now => ?_
  refine Keeps.bind (Keeps.handle ?_ fun e w' => ?_) fun r w' =>
    Keeps.bind (sendOrganizationInvitation_keeps env) fun _ _ => Keeps.pure _
  · rw [← Process.bind_pure (Process.atomically _ _)]
    refine Keeps.commit_known (context.known_stable userId) hknown (fun _ => rfl)
      (fun w' i r s' _ hknown' h => ?_) fun _ _ => Keeps.pure _
    obtain ⟨hr, hvalid, rfl⟩ := addInvitation_ok h
    have horganization : r.1.organizationId < w'.store.nextId := by
      rw [hr]
      exact hknown'.1
    exact .invitationCreated r.1 (by rw [hr]) horganization hvalid
  · split
    · exact Keeps.throw _
    · exact Keeps.throw _

theorem resendInvitation_keeps (invitationId : Id) :
    discipline.Keeps pid (resendInvitation env context invitationId userId) w := by
  unfold resendInvitation
  refine Keeps.bind (expireInvitations_keeps _ _) fun _ w₁ =>
    Keeps.bind (findInvitation_keeps _ _) fun existing w₂ => Keeps.ofExcept fun _ _ =>
      Keeps.rejectIf fun _ => Keeps.query fun w₃ _ => Keeps.rejectIf fun _ =>
        Keeps.ask fun token => Keeps.ask fun now => ?_
  refine Keeps.commit (fun _ => rfl) (fun w' i r s' h => ?_) fun _ _ =>
    Keeps.bind (sendOrganizationInvitation_keeps env) fun _ _ => Keeps.pure _
  obtain ⟨hvalid, rfl⟩ := renewInvitation_ok h
  exact .invitationResent invitationId userId _ _ hvalid

theorem revokeInvitation_keeps (invitationId : Id) :
    discipline.Keeps pid (revokeInvitation context invitationId) w := by
  unfold revokeInvitation
  refine Keeps.bind (expireInvitations_keeps _ _) fun _ w₁ =>
    Keeps.bind (findInvitation_keeps _ _) fun invitation w₂ => Keeps.ofExcept fun _ _ =>
      Keeps.rejectIf fun _ => Keeps.ask fun now => ?_
  refine Keeps.commit (fun _ => rfl) (fun w' i r s' h => ?_) fun _ _ => Keeps.pure _
  obtain ⟨_, -, hsound, -, rfl⟩ := Table.update_ok.mp h
  exact .invitationRevoked invitationId now (invitations_sound hsound)

/-- An acceptance that finds its invitation, in an organization that is not deleted. -/
theorem lookedUp_found {tokenHash : String} {invitation : Invitation} {organization : Organization}
    (hn : Numbered w.store)
    (hfound : w.store.invitationOf tokenHash = some (invitation, organization))
    (hlive : organization.deletedAt = none) :
    invitation.LookedUp pid (w.advance pid (w.store, [.invitationFound invitation.id])) := by
  obtain ⟨i, hi, hmap⟩ := Option.bind_eq_some_iff.mp hfound
  obtain ⟨o, ho, heq⟩ := Option.map_eq_some_iff.mp hmap
  cases heq
  have horg : organization.id = invitation.organizationId := by simpa using List.find?_some ho
  refine ⟨w.trace, [], by simp, fun _ i' hi' hid => ?_⟩
  obtain rfl := hn.invitations.inj hi' (List.mem_of_find?_eq_some hi) hid
  exact ⟨rfl, fun _ => ⟨organization, List.mem_of_find?_eq_some ho, horg, hlive⟩⟩

theorem acceptInvitation_keeps (user : AuthenticatedUser) (token : String) :
    discipline.Keeps pid (acceptInvitation env user token) w := by
  unfold acceptInvitation
  refine Keeps.ofExcept fun _ _ => Ensures.atomically (fun w₁ _ hn i found s' hm => ?_)
    fun w₁ _ _ i e hm => by simp [Transaction.reads] at hm
  obtain ⟨hfound, rfl⟩ := (Transaction.reads_ok _ _ _ _).mp hm
  cases found with
  | none =>
    simp only [World.advance_idle]
    exact ⟨hn, .idle, Keeps.throw _⟩
  | some found =>
    obtain ⟨invitation, organization⟩ := found
    have hmem : invitation ∈ w₁.store.invitations := by
      obtain ⟨i, hi, hmap⟩ := Option.bind_eq_some_iff.mp hfound.symm
      obtain ⟨o, -, heq⟩ := Option.map_eq_some_iff.mp hmap
      cases heq
      exact List.mem_of_find?_eq_some hi
    have htoken : invitation.tokenHash = env.hashOpaqueToken token := by
      obtain ⟨i, hi, hmap⟩ := Option.bind_eq_some_iff.mp hfound.symm
      obtain ⟨o, -, heq⟩ := Option.map_eq_some_iff.mp hmap
      cases heq
      simpa using List.find?_some hi
    have hrole : invitation.role ≠ .owner := by
      have hvalid := hn.valid invitation hmem
      simp only [Invitation.valid, Bool.and_eq_true, bne_iff_ne] at hvalid
      exact hvalid.1
    have hstable : discipline.Stable fun w => invitation.organizationId < w.store.nextId ∧
        invitation.Known w.store ∧ invitation.LookedUp pid w :=
      fun q w w' hn hn' he h => ⟨Nat.lt_of_lt_of_le h.1 he.nextId_le,
        invitation.lookedUp_stable pid q w w' hn hn' he h.2⟩
    refine ⟨hn, .invitationFound invitation.id, ?_⟩
    refine Keeps.rejectIf fun hrejected => Keeps.rejectIf fun _ => Keeps.ask fun clock => ?_
    have hlive : organization.deletedAt = none := by
      simp only [Bool.or_eq_false_iff] at hrejected
      simpa using hrejected.1
    split
    · refine Keeps.commit (fun _ => rfl) (fun w' i _ s' h => ?_) fun _ _ => Keeps.throw _
      obtain ⟨hsound, -, rfl⟩ := Table.updateMany_ok.mp h
      refine .invitationsExpired _ (fun i hp => ?_) (invitations_sound hsound)
      simp only [Bool.and_eq_true, beq_iff_eq] at hp
      exact hp.2
    · refine Keeps.rejectIf fun _ => ?_
      rw [← Process.bind_pure (Process.atomically _ _)]
      refine Keeps.commit_known hstable ⟨hn.invitingOrganizations invitation hmem,
        Invitation.known_of_mem hn hmem, lookedUp_found hn hfound.symm hlive⟩ (fun _ => rfl)
        (fun w' i r s' _ hknown h => ?_) fun _ _ => Keeps.pure _
      obtain ⟨hid, hopen, hvalid, hsound, nextId, notifications, hnext, rfl⟩ := accept_ok h
      simp only [hid, ← htoken]
      exact .invitationAccepted invitation user.id i.now nextId notifications hnext hknown.1 hrole
        hknown.2.1 hknown.2.2 hopen hvalid hsound

/-! ## The service -/

theorem handler_keeps (r : Request) : discipline.Keeps pid (handler env r) w := by
  cases r with
  | createOrganization user name => exact Keeps.map (createOrganization_keeps env user name)
  | getOrganization organizationId userId => exact canActivate_then fun _ _ _ => Keeps.pure _
  | updateOrganization organizationId userId name =>
    exact canActivate_then fun _ _ _ => Keeps.map (updateOrganization_keeps name)
  | deleteOrganization organizationId userId =>
    exact canActivate_then fun _ _ _ => Keeps.map deleteOrganization_keeps
  | createInvitation organizationId userId dto =>
    exact canActivate_then fun _ _ hknown => Keeps.map (createInvitation_keeps env hknown dto)
  | resendInvitation organizationId userId invitationId =>
    exact canActivate_then fun _ _ _ => Keeps.map (resendInvitation_keeps env invitationId)
  | revokeInvitation organizationId userId invitationId =>
    exact canActivate_then fun _ _ _ => Keeps.map (revokeInvitation_keeps invitationId)
  | acceptInvitation user token => exact Keeps.map (acceptInvitation_keeps env user token)
  | updateMemberRole organizationId userId membershipId role =>
    exact canActivate_then fun _ _ _ => Keeps.map (updateMemberRole_keeps membershipId role)
  | removeMember organizationId userId membershipId =>
    exact canActivate_then fun _ _ _ => Keeps.map (removeMember_keeps membershipId)
  | leaveOrganization organizationId userId =>
    exact canActivate_then fun _ _ _ => Keeps.map leaveOrganization_keeps
  | transferOwnership organizationId userId membershipId =>
    exact canActivate_then fun _ _ hknown => Keeps.map (transferOwnership_keeps hknown membershipId)

end ShipFlow.Organizations
