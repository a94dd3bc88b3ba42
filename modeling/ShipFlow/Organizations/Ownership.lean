import ShipFlow.Organizations.Requests

/-! Owners. An organization that is not deleted should have exactly one owner
membership, the one of the user its row names. -/

namespace ShipFlow.Organizations
open Interleaving Relational

def Membership.owns (organizationId : Id) (m : Membership) : Bool :=
  m.organizationId == organizationId && m.role == .owner

def Store.owners (s : Store) (organizationId : Id) : List Membership :=
  s.memberships.filter (Membership.owns organizationId)

def ExactlyOneOwner (s : Store) : Prop :=
  ∀ o ∈ s.organizations, o.deletedAt = none →
    ∃ m, s.owners o.id = [m] ∧ m.userId = o.ownerId

/-- The membership is the owner's in an organization that is not deleted. -/
def Store.IsOwner (s : Store) (membershipId : Id) : Prop :=
  ∃ o ∈ s.organizations, o.deletedAt = none ∧ ∃ m ∈ s.owners o.id, m.id = membershipId

instance (s : Store) (membershipId : Id) : Decidable (s.IsOwner membershipId) :=
  inferInstanceAs (Decidable (∃ o ∈ s.organizations, o.deletedAt = none ∧
    ∃ m ∈ s.owners o.id, m.id = membershipId))

/-- The membership whose role or whose row an event takes away. -/
def Event.ended : Event → Option Id
  | .memberRoleChanged membershipId _ => some membershipId
  | .memberRemoved membershipId => some membershipId
  | .memberLeft membershipId => some membershipId
  | _ => none

/-- A changed, removed or leaving member is, at the commit, not the owner. -/
def SparesOwner (w w' : World) : Prop :=
  ∀ e ∈ w.newEvents w', ∀ membershipId ∈ e.2.ended, ¬ w.store.IsOwner membershipId

instance (w w' : World) : Decidable (SparesOwner w w') :=
  inferInstanceAs (Decidable (∀ e ∈ w.newEvents w', ∀ membershipId ∈ e.2.ended,
    ¬ w.store.IsOwner membershipId))

theorem sparesOwner_advance {w : World} {pid : Nat} {s : Store} {e : Event} :
    SparesOwner w (w.advance pid (s, [e])) ↔ ∀ membershipId ∈ e.ended, ¬ w.store.IsOwner membershipId := by
  rw [SparesOwner, World.newEvents_advance]
  simp only [List.map_cons, List.map_nil, List.forall_mem_singleton]

/-- The partial unique index rules two owners out. -/
theorem owner_unique {rows : List Membership} {organizationId : Id} {m : Membership}
    (hsound : SoundMemberships rows) (hm : m ∈ rows.filter (Membership.owns organizationId)) :
    rows.filter (Membership.owns organizationId) = [m] := by
  have hpairs : (rows.filter (Membership.owns organizationId)).Pairwise
      fun a b => memberships.collides a b = false :=
    (distinct_iff_pairwise.mp hsound).sublist List.filter_sublist
  have howns : ∀ a ∈ rows.filter (Membership.owns organizationId),
      a.organizationId = organizationId ∧ a.role = .owner := by
    intro a ha
    have ha' := (List.mem_filter.mp ha).2
    simpa [Membership.owns] using ha'
  generalize rows.filter (Membership.owns organizationId) = owners at hm hpairs howns
  match owners with
  | [] => cases hm
  | [a] => rw [List.mem_singleton.mp hm]
  | a :: b :: rest =>
    have hcollides := (List.pairwise_cons.mp hpairs).1 b List.mem_cons_self
    obtain ⟨ha, har⟩ := howns a List.mem_cons_self
    obtain ⟨hb, hbr⟩ := howns b (List.mem_cons_of_mem _ List.mem_cons_self)
    simp [memberships, ha, hb, har, hbr] at hcollides

/-- Organizations and owners stay the same. -/
theorem ExactlyOneOwner.congr {s s' : Store} (h : ExactlyOneOwner s)
    (horganizations : ∀ o ∈ s'.organizations, o.deletedAt = none →
      ∃ o₀ ∈ s.organizations, o₀.deletedAt = none ∧ o₀.id = o.id ∧ o₀.ownerId = o.ownerId)
    (howners : ∀ o ∈ s'.organizations, o.deletedAt = none → s'.owners o.id = s.owners o.id) :
    ExactlyOneOwner s' := by
  intro o ho hlive
  obtain ⟨o₀, ho₀, hlive₀, hid, howner⟩ := horganizations o ho hlive
  obtain ⟨m, hm, huser⟩ := h o₀ ho₀ hlive₀
  refine ⟨m, ?_, huser.trans howner⟩
  rw [howners o ho hlive, ← hid]
  exact hm

/-- Taking a membership away leaves every owner in place if and only if it was not one. -/
theorem ExactlyOneOwner.end_iff {s s' : Store} {membershipId : Id} (h : ExactlyOneOwner s)
    (horganizations : s'.organizations = s.organizations)
    (hlost : ∀ m ∈ s'.memberships, m.role = .owner → m ∈ s.memberships ∧ m.id ≠ membershipId)
    (hkept : ∀ organizationId, (∀ m ∈ s.owners organizationId, m.id ≠ membershipId) →
      s'.owners organizationId = s.owners organizationId) :
    ExactlyOneOwner s' ↔ ¬ s.IsOwner membershipId := by
  constructor
  · rintro h' ⟨o, ho, hlive, m, hm, rfl⟩
    -- the owner afterwards would be a second one before
    obtain ⟨m₀, hm₀, -⟩ := h o ho hlive
    obtain ⟨m', hm', -⟩ := h' o (horganizations ▸ ho) hlive
    have hmem : m' ∈ s'.owners o.id := by
      rw [hm']
      exact List.mem_singleton_self m'
    obtain ⟨hrow, howns⟩ := List.mem_filter.mp hmem
    have hrole : m'.role = .owner := by
      simp only [Membership.owns, Bool.and_eq_true, beq_iff_eq] at howns
      exact howns.2
    obtain ⟨hold, hne⟩ := hlost m' hrow hrole
    have hsame : m' ∈ s.owners o.id := List.mem_filter.mpr ⟨hold, howns⟩
    rw [hm₀, List.mem_singleton] at hm hsame
    exact hne (by rw [hsame, hm])
  · intro hspared
    apply h.congr
    · intro o ho hlive
      rw [horganizations] at ho
      exact ⟨o, ho, hlive, rfl, rfl⟩
    · intro o ho hlive
      rw [horganizations] at ho
      exact hkept o.id fun m hm hid => hspared ⟨o, ho, hlive, m, hm, hid⟩

section Steps
variable {pid : Nat} {w : World}

theorem roleChanged_iff {membershipId nextId : Id} {role : MembershipRole}
    {notifications : List Notification} (h : ExactlyOneOwner w.store) (hrole : role ≠ .owner) :
    ExactlyOneOwner { w.store with
        nextId := nextId
        notifications := notifications
        memberships := updateRows (fun m => m.id == membershipId) (fun m => { m with role := role })
          w.store.memberships } ↔ ¬ w.store.IsOwner membershipId := by
  refine h.end_iff rfl ?_ ?_
  · intro m hm howner
    rcases mem_updateRows.mp hm with ⟨hm, hp⟩ | ⟨m₀, -, -, rfl⟩
    · exact ⟨hm, by simpa using hp⟩
    · exact absurd howner hrole
  · intro organizationId hspared
    apply filter_updateRows_off
    intro m hm hp
    have hid : m.id = membershipId := by simpa using hp
    refine ⟨?_, by simp [Membership.owns, hrole]⟩
    cases howns : m.owns organizationId with
    | true => exact absurd hid (hspared m (List.mem_filter.mpr ⟨hm, howns⟩))
    | false => rfl

theorem removed_iff {membershipId : Id} (h : ExactlyOneOwner w.store) (nextId : Id)
    (notifications : List Notification) :
    ExactlyOneOwner { w.store with
        nextId := nextId
        notifications := notifications
        memberships := w.store.memberships.filter fun m => !(m.id == membershipId) } ↔
      ¬ w.store.IsOwner membershipId := by
  refine h.end_iff rfl ?_ ?_
  · intro m hm _
    obtain ⟨hm, hp⟩ := List.mem_filter.mp hm
    exact ⟨hm, by simpa using hp⟩
  · intro organizationId hspared
    apply filter_filter_off
    intro m hm howns
    have hne := hspared m (List.mem_filter.mpr ⟨hm, howns⟩)
    simpa using hne

/-- A new organization comes with its owner and touches no other. -/
theorem ExactlyOneOwner.create {s : Store} (h : ExactlyOneOwner s) (hn : Numbered s) (userId : Id)
    (name slug : String) : ExactlyOneOwner { s with
      nextId := s.nextId + 2
      organizations := s.organizations ++ [⟨s.nextId, userId, name, slug, none⟩]
      memberships := s.memberships ++ [⟨s.nextId + 1, s.nextId, userId, .owner⟩] } := by
  intro o ho hlive
  simp only [Store.owners, List.filter_append]
  rcases List.mem_append.mp ho with ho | ho
  · have hne : s.nextId ≠ o.id := (Nat.ne_of_lt (hn.organizations.1 o ho)).symm
    have hother : Membership.owns o.id ⟨s.nextId + 1, s.nextId, userId, .owner⟩ = false := by
      simp [Membership.owns, hne]
    rw [List.filter_singleton, hother, cond_false, List.append_nil]
    exact h o ho hlive
  · rw [List.mem_singleton] at ho
    subst ho
    have hnone : s.memberships.filter (Membership.owns s.nextId) = [] := by
      refine List.filter_eq_nil_iff.mpr fun m hm howns => ?_
      simp only [Membership.owns, Bool.and_eq_true, beq_iff_eq] at howns
      exact absurd howns.1 (Nat.ne_of_lt (hn.tenants m hm))
    refine ⟨⟨s.nextId + 1, s.nextId, userId, .owner⟩, ?_, rfl⟩
    rw [hnone]
    simp [Membership.owns]

theorem ExactlyOneOwner.join {s : Store} (h : ExactlyOneOwner s) {m : Membership}
    (hrole : m.role ≠ .owner) (nextId : Id) (notifications : List Notification)
    (invitations : List Invitation) : ExactlyOneOwner { s with
      nextId := nextId
      notifications := notifications
      invitations := invitations
      memberships := s.memberships ++ [m] } := by
  apply h.congr
  · exact fun o ho hlive => ⟨o, ho, hlive, rfl, rfl⟩
  · intro o _ _
    simp [Store.owners, Membership.owns, List.filter_append, hrole]

theorem setRole_mem {rows : List Membership} {m : Membership} (p : Membership → Bool)
    (role : MembershipRole) (hm : m ∈ rows) :
    ∃ m₁ ∈ updateRows p (fun m => { m with role := role }) rows,
      m₁.id = m.id ∧ m₁.organizationId = m.organizationId ∧ m₁.userId = m.userId := by
  cases hp : p m with
  | true => exact ⟨_, mem_updateRows.mpr (.inr ⟨m, hm, hp, rfl⟩), rfl, rfl, rfl⟩
  | false => exact ⟨m, mem_updateRows.mpr (.inl ⟨hm, hp⟩), rfl, rfl, rfl⟩

/-- Whoever the transfer starts from, it ends with the target as the only owner. -/
theorem ExactlyOneOwner.transfer {s : Store} (h : ExactlyOneOwner s) {previous target : Membership}
    {nextId : Id} {notifications : List Notification} (hprevious : previous.Known s)
    (htarget : target.Known s) (horganization : previous.organizationId = target.organizationId)
    (hmem : ∃ m ∈ s.memberships, m.id = target.id)
    (hsound : SoundMemberships (transferred previous.id target.id s.memberships)) :
    ExactlyOneOwner { s with
      nextId := nextId
      notifications := notifications
      memberships := transferred previous.id target.id s.memberships
      organizations := updateRows (fun o => o.id == target.organizationId)
        (fun o => { o with ownerId := target.userId }) s.organizations } := by
  intro o ho hlive
  rcases mem_updateRows.mp ho with ⟨ho, hp⟩ | ⟨o₀, ho₀, hp, rfl⟩
  · -- the rows of another organization stay
    have hne : o.id ≠ target.organizationId := by simpa using hp
    have hother : ∀ m : Membership, m.organizationId = target.organizationId →
        m.owns o.id = false := by
      intro m hm
      simp [Membership.owns, hm, hne.symm]
    have hsame : (transferred previous.id target.id s.memberships).filter (Membership.owns o.id) =
        s.owners o.id := by
      rw [transferred, filter_updateRows_off, filter_updateRows_off]
      · rfl
      · intro m hm hp
        have horg := (hprevious.2 m hm (by simpa using hp)).1.trans horganization
        exact ⟨hother m horg, hother _ horg⟩
      · intro m hm hp
        obtain ⟨m₀, hm₀, hid₀, horg₀, -⟩ := mem_setRole hm
        have hid : m.id = target.id := by simpa using hp
        have horg := horg₀.symm.trans (htarget.2 m₀ hm₀ (hid₀.trans hid)).1
        exact ⟨hother m horg, hother _ horg⟩
    rw [Store.owners, hsame]
    exact h o ho hlive
  · have ho : o₀.id = target.organizationId := by simpa using hp
    -- the target owns it now, and the index admits no second owner
    obtain ⟨m, hm, hid⟩ := hmem
    obtain ⟨horg, huser⟩ := htarget.2 m hm hid
    obtain ⟨m₁, hm₁, hid₁, horg₁, huser₁⟩ := setRole_mem (fun m => m.id == previous.id) .admin hm
    have hmem₁ : { m₁ with role := .owner } ∈ transferred previous.id target.id s.memberships :=
      mem_updateRows.mpr (.inr ⟨m₁, hm₁, by simp [hid₁, hid], rfl⟩)
    have howns : Membership.owns o₀.id { m₁ with role := .owner } = true := by
      simp [Membership.owns, horg₁, horg, ho]
    exact ⟨_, owner_unique hsound (List.mem_filter.mpr ⟨hmem₁, howns⟩), huser₁.trans huser⟩

/-- The step of the induction, with the exact condition. -/
theorem Effect.owner_iff {w' : World} (he : Effect pid w w') (hn : Numbered w.store)
    (h : ExactlyOneOwner w.store) : ExactlyOneOwner w'.store ↔ SparesOwner w w' := by
  cases he with
  | idle => exact iff_of_true h (by simp [SparesOwner])
  | organizationCreated userId name slug hsound =>
    rw [sparesOwner_advance]
    exact iff_of_true (h.create hn userId name slug) (by simp [Event.ended])
  | organizationRenamed organizationId name =>
    refine iff_of_true (h.congr (fun o ho hlive => ?_) fun _ _ _ => rfl)
      (by simp [SparesOwner])
    rcases mem_updateRows.mp ho with ⟨ho, -⟩ | ⟨o₀, ho₀, -, rfl⟩
    · exact ⟨o, ho, hlive, rfl, rfl⟩
    · exact ⟨o₀, ho₀, hlive, rfl, rfl⟩
  | organizationDeleted organizationId now hvalid =>
    rw [sparesOwner_advance]
    refine iff_of_true (h.congr (fun o ho hlive => ?_) fun _ _ _ => rfl) (by simp [Event.ended])
    rcases mem_updateRows.mp ho with ⟨ho, -⟩ | ⟨o₀, -, -, rfl⟩
    · exact ⟨o, ho, hlive, rfl, rfl⟩
    · cases hlive
  | invitationsExpired p hpending hvalid => exact iff_of_true h (by simp [SparesOwner])
  | invitationCreated invitation hid horganization hvalid =>
    rw [sparesOwner_advance]
    exact iff_of_true h (by simp [Event.ended])
  | invitationResent invitationId userId tokenHash expiresAt hvalid =>
    rw [sparesOwner_advance]
    exact iff_of_true h (by simp [Event.ended])
  | invitationRevoked invitationId now hvalid =>
    rw [sparesOwner_advance]
    exact iff_of_true h (by simp [Event.ended])
  | invitationFound invitationId =>
    rw [sparesOwner_advance]
    exact iff_of_true h (by simp [Event.ended])
  | invitationAccepted invitation userId now nextId notifications hnext horganization hrole hknown
      hlookup hopen hvalid hsound =>
    rw [sparesOwner_advance]
    exact iff_of_true (h.join hrole nextId notifications _) (by simp [Event.ended])
  -- the next three write by the id of a membership alone
  | memberRoleChanged membershipId role nextId notifications hnext hrole hsound =>
    rw [sparesOwner_advance]
    simpa [Event.ended] using roleChanged_iff h hrole
  | memberRemoved membershipId nextId notifications hnext =>
    rw [sparesOwner_advance]
    simpa [Event.ended] using removed_iff h nextId notifications
  | memberLeft membershipId =>
    rw [sparesOwner_advance]
    simpa [Event.ended] using removed_iff h w.store.nextId w.store.notifications
  | ownershipTransferred previous target nextId notifications hnext hprevious htarget horganization
      hother hmem hsound =>
    rw [sparesOwner_advance]
    exact iff_of_true (h.transfer hprevious htarget horganization hmem hsound)
      (by simp [Event.ended])

end Steps

/-! ## Runs -/

/-- Every organization keeps exactly one owner throughout a run if and only if no
commit of the run takes the role or the membership of an owner. -/
theorem exactly_one_owner (env : Environment) (s : Store) (hn : Numbered s)
    (h : ExactlyOneOwner s) (acts : List (Action Request Input)) :
    (∀ before after, acts = before ++ after → ExactlyOneOwner
        ((Config.init s : Organizations.Config).run (handler env) before).world.store) ↔
      Config.Along SparesOwner (handler env) (Config.init s : Organizations.Config) acts := by
  refine Config.Meets.invariant_iff (fun r _ _ _ _ _ => handler_keeps env r) (Config.Meets.init hn) h
    (fun w => ?_) fun pid w w' hn _ he h => he.owner_iff hn h
  simp [SparesOwner]

def tester : Store := .withUsers 2
  [⟨0, "a@example.org", none, none⟩, ⟨1, "b@example.org", none, none⟩]

theorem exactlyOneOwner_tester : ExactlyOneOwner tester := by
  intro o ho
  cases ho

/-- An organization with a member. -/
def founded : List (Action Request Input) :=
  [.request (.createOrganization ⟨0, "a@example.org", true⟩ "acme")] ++ advances 0 2 (.at 0 "") ++
  [.request (.createInvitation 2 0 ⟨"b@example.org", .member⟩)] ++ advances 1 8 (.at 0 "token") ++
  [.request (.acceptInvitation ⟨1, "b@example.org", true⟩ "token")] ++ advances 2 4 (.at 0 "")

/-- The owner hands the organization over and leaves it. -/
def orderlyLeave : List (Action Request Input) :=
  founded ++ [.request (.transferOwnership 2 0 5)] ++ advances 3 6 (.at 0 "transfer") ++
  [.request (.leaveOrganization 2 0)] ++ advances 4 4 (.at 0 "")

theorem exactly_one_owner_orderly :
    Config.Along SparesOwner (handler .transparent) (Config.init tester : Organizations.Config)
      orderlyLeave ∧
    ExactlyOneOwner ((Config.init tester : Organizations.Config).run (handler .transparent)
      orderlyLeave).world.store := by
  have halong : Config.Along SparesOwner (handler .transparent)
      (Config.init tester : Organizations.Config) orderlyLeave := by
    decide +kernel
  have hall := (exactly_one_owner .transparent tester (numbered_withUsers _ _)
    exactlyOneOwner_tester orderlyLeave).mpr halong
  exact ⟨halong, hall orderlyLeave [] (List.append_nil _).symm⟩

/-- A member is about to leave when the owner makes it the owner. -/
def overtakenLeave : List (Action Request Input) :=
  founded ++ [.request (.leaveOrganization 2 1)] ++ advances 3 1 (.at 0 "") ++
  [.request (.transferOwnership 2 0 5)] ++ advances 4 6 (.at 0 "transfer") ++
    advances 3 1 (.at 0 "")

theorem leave_orphans_organization :
    ¬ ExactlyOneOwner ((Config.init tester : Organizations.Config).run (handler .transparent)
      overtakenLeave).world.store := by
  intro h
  have horganizations : ((Config.init tester : Organizations.Config).run (handler .transparent)
      overtakenLeave).world.store.organizations = [⟨2, 1, "acme", "acme", none⟩] := by
    decide +kernel
  have howners : ((Config.init tester : Organizations.Config).run (handler .transparent)
      overtakenLeave).world.store.owners 2 = [] := by
    decide +kernel
  obtain ⟨m, hm, -⟩ := h ⟨2, 1, "acme", "acme", none⟩ (by simp [horganizations]) rfl
  rw [howners] at hm
  cases hm

end ShipFlow.Organizations
