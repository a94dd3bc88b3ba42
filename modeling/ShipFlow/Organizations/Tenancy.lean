import ShipFlow.Organizations.Operations
import ShipFlow.Relational.Tenancy

/-! The organizations share the tables. A request of one of them changes no row of another,
and its answer is decided by the rows of its own organization and by the users. -/

namespace ShipFlow.Organizations
open Interleaving Interleaving.Process Relational

def Organization.of (organizationId : Id) (o : Organization) : Bool := o.id == organizationId

def Membership.of (organizationId : Id) (m : Membership) : Bool :=
  m.organizationId == organizationId

def Invitation.of (organizationId : Id) (i : Invitation) : Bool :=
  i.organizationId == organizationId

/-- The constraints of the tables hold, and `uuidv7()` is ahead of what it has to be. -/
structure Consistent (s : Store) : Prop where
  organizations : organizations.sound s s.organizations = true
  memberships : memberships.sound s s.memberships = true
  invitations : invitations.sound s s.invitations = true
  notifications : distinct Notification.collides s.notifications = true
  invitationIds : Below s.nextId Invitation.id s.invitations
  notificationIds : Below s.nextId Notification.id s.notifications

/-- The two stores have the same users, preferences and rows of the organization. -/
structure Agree (organizationId : Id) (s t : Store) : Prop where
  users : s.users = t.users
  notificationPreferences : s.notificationPreferences = t.notificationPreferences
  organizations : s.organizations.filter (Organization.of organizationId) =
    t.organizations.filter (Organization.of organizationId)
  memberships : s.memberships.filter (Membership.of organizationId) =
    t.memberships.filter (Membership.of organizationId)
  invitations : s.invitations.filter (Invitation.of organizationId) =
    t.invitations.filter (Invitation.of organizationId)

/-- No organization, membership or invitation of another organization has changed. -/
structure Untouched (organizationId : Id) (s₀ s : Store) : Prop where
  organizations : others (Organization.of organizationId) s.organizations =
    others (Organization.of organizationId) s₀.organizations
  memberships : others (Membership.of organizationId) s.memberships =
    others (Membership.of organizationId) s₀.memberships
  invitations : others (Invitation.of organizationId) s.invitations =
    others (Invitation.of organizationId) s₀.invitations

/-- The store has come from `s₀` to `s`, and the rows of the other organizations with it. -/
structure Confined (organizationId : Id) (s₀ s : Store) : Prop
    extends Untouched organizationId s₀ s where
  consistent : Consistent s
  nextId : s₀.nextId ≤ s.nextId

structure Beside (organizationId : Id) (s₀ t₀ s t : Store) : Prop where
  agree : Agree organizationId s t
  left : Confined organizationId s₀ s
  right : Confined organizationId t₀ t

theorem Confined.refl {s : Store} (hs : Consistent s) (organizationId : Id) :
    Confined organizationId s s := ⟨⟨rfl, rfl, rfl⟩, hs, Nat.le_refl _⟩

/-! ## The tables -/

section Tables
variable {X : Id} {s₀ t₀ s t : Store}

theorem organizations_plain : organizations.Plain := by
  refine ⟨fun a b => ?_, fun _ _ _ => rfl⟩
  change (a.id == b.id || a.slug == b.slug) = (b.id == a.id || b.slug == a.slug)
  rw [BEq.comm (a := a.id), BEq.comm (a := a.slug)]

theorem memberships_plain : memberships.Plain := by
  refine ⟨fun a b => ?_, fun _ _ _ => rfl⟩
  simp only [memberships]
  rw [BEq.comm (a := a.id), BEq.comm (a := a.organizationId), BEq.comm (a := a.userId),
    Bool.and_comm (a.role == .owner)]

theorem invitations_plain : invitations.Plain := by
  refine ⟨fun a b => ?_, fun _ _ _ => rfl⟩
  simp only [invitations]
  rw [BEq.comm (a := a.id), BEq.comm (a := a.tokenHash), BEq.comm (a := a.organizationId),
    BEq.comm (a := a.email), Bool.and_right_comm]

theorem Consistent.later (h : Consistent s) {nextId : Id} {notifications : List Notification}
    (hle : s.nextId ≤ nextId) (hdistinct : distinct Notification.collides notifications = true)
    (hbelow : Below nextId Notification.id notifications) :
    Consistent { s with nextId := nextId, notifications := notifications } :=
  ⟨h.organizations, h.memberships, h.invitations, hdistinct, h.invitationIds.mono hle, hbelow⟩

theorem organizations_tenanted :
    organizations.Tenanted (Organization.of X) Organization.id (Beside X s₀ t₀) where
  plain := organizations_plain
  agree _ _ h := h.agree.organizations
  sound _ _ h := ⟨h.left.consistent.organizations, h.right.consistent.organizations⟩
  put _ _ _ _ h hrows hrows' hsound hsound' hagree _ _ :=
    { agree := { h.agree with organizations := hagree }
      left := { h.left with
        consistent := { h.left.consistent with organizations := hsound }
        organizations := hrows.kept.trans h.left.organizations }
      right := { h.right with
        consistent := { h.right.consistent with organizations := hsound' }
        organizations := hrows'.kept.trans h.right.organizations } }

theorem memberships_tenanted :
    memberships.Tenanted (Membership.of X) Membership.id (Beside X s₀ t₀) where
  plain := memberships_plain
  agree _ _ h := h.agree.memberships
  sound _ _ h := ⟨h.left.consistent.memberships, h.right.consistent.memberships⟩
  put _ _ _ _ h hrows hrows' hsound hsound' hagree _ _ :=
    { agree := { h.agree with memberships := hagree }
      left := { h.left with
        consistent := { h.left.consistent with memberships := hsound }
        memberships := hrows.kept.trans h.left.memberships }
      right := { h.right with
        consistent := { h.right.consistent with memberships := hsound' }
        memberships := hrows'.kept.trans h.right.memberships } }

/-- Rows whose identifiers were there before are below the same bound. -/
theorem below_of_keys {ρ : Type} {key : ρ → Nat} {n : Nat} {rows rows' : List ρ}
    (h : Below n key rows) (hkey : ∀ a ∈ rows', ∃ a₀ ∈ rows, key a₀ = key a) :
    Below n key rows' := by
  intro a ha
  obtain ⟨a₀, ha₀, hk⟩ := hkey a ha
  exact hk ▸ h a₀ ha₀

theorem invitations_tenanted :
    invitations.Tenanted (Invitation.of X) Invitation.id (Beside X s₀ t₀) where
  plain := invitations_plain
  agree _ _ h := h.agree.invitations
  sound _ _ h := ⟨h.left.consistent.invitations, h.right.consistent.invitations⟩
  put _ _ _ _ h hrows hrows' hsound hsound' hagree hkey hkey' :=
    { agree := { h.agree with invitations := hagree }
      left := { h.left with
        consistent := { h.left.consistent with
          invitations := hsound
          invitationIds := below_of_keys h.left.consistent.invitationIds hkey }
        invitations := hrows.kept.trans h.left.invitations }
      right := { h.right with
        consistent := { h.right.consistent with
          invitations := hsound'
          invitationIds := below_of_keys h.right.consistent.invitationIds hkey' }
        invitations := hrows'.kept.trans h.right.invitations } }

/-- Every notification is written: its identifier is new, and an old one with the same key
is left as it is. -/
theorem writeNotification_commits (hs : Consistent s) (now : Time) (input : WriteNotificationInput) :
    ∃ nextId notifications, s.nextId ≤ nextId ∧
      writeNotification now input s =
        .ok ((), { s with nextId := nextId, notifications := notifications }) ∧
      distinct Notification.collides notifications = true ∧
      Below nextId Notification.id notifications := by
  have hsound : ∀ rows, (HasNotifications.notifications (σ := Store)).sound
      { s with nextId := s.nextId + 1 } rows = distinct Notification.collides rows := by
    intro rows
    have hall : (rows.all fun _ => true) = true := List.all_eq_true.mpr fun _ _ => rfl
    change (rows.all (fun _ => true) && distinct Notification.collides rows) = _
    rw [hall, Bool.true_and]
  -- a user who has switched the category off gets no row
  cases hdisabled : (input.category == .organization &&
      (s.notificationPreferences.find? fun p => p.userId == input.userId).any
        fun p => !p.organizationEnabled) with
  | true =>
    refine ⟨s.nextId, s.notifications, Nat.le_refl _, ?_, hs.notifications, hs.notificationIds⟩
    simp only [writeNotification, Transaction.bind_ok, Transaction.reads_ok]
    refine ⟨true, s, ⟨hdisabled.symm, rfl⟩, ?_⟩
    rfl
  | false =>
    cases hfind : s.notifications.find? fun n =>
        n.userId == input.userId && n.dedupeKey == input.dedupeKey with
    | none =>
      let createdAt := notificationCreatedAt input.createdAt now
      let notification : Notification :=
        ⟨s.nextId, input.userId, input.organizationId, input.category, input.type, input.title,
          input.message, input.actionPath, input.metadata, input.dedupeKey,
          createdAt + days NOTIFICATION_RETENTION_DAYS, createdAt⟩
      have hdistinct : distinct Notification.collides (s.notifications ++ [notification]) = true := by
        refine distinct_append.mpr ⟨hs.notifications, rfl, fun n hn n' hn' => ?_⟩
        rw [List.mem_singleton.mp hn']
        have hid : (n.id == s.nextId) = false := by
          simpa using Nat.ne_of_lt (hs.notificationIds n hn)
        have hkey := List.find?_eq_none.mp hfind n hn
        simpa [Notification.collides, notification, hid] using hkey
      refine ⟨s.nextId + 1, s.notifications ++ [notification], Nat.le_succ _, ?_, hdistinct,
        hs.notificationIds.concat (Nat.le_succ _) (Nat.lt_succ_self _)⟩
      simp only [writeNotification, Transaction.bind_ok, Transaction.reads_ok]
      refine ⟨false, s, ⟨hdisabled.symm, rfl⟩, ?_⟩
      simp only [Bool.false_eq_true, if_false, Transaction.bind_ok, Transaction.pure_ok]
      refine ⟨s.nextId, _, uuidv7_ok.mpr ⟨rfl, rfl⟩, notification, _,
        Table.upsert_ok.mpr (.inl ⟨hfind, ?_, rfl, rfl⟩), trivial, rfl⟩
      exact (hsound _).trans hdistinct
    -- the upsert leaves a notification of this key as it is
    | some n =>
      have hrows : updateRows (fun n => n.userId == input.userId && n.dedupeKey == input.dedupeKey)
          (fun n => n) s.notifications = s.notifications := by
        simp [updateRows]
      refine ⟨s.nextId + 1, s.notifications, Nat.le_succ _, ?_, hs.notifications,
        hs.notificationIds.mono (Nat.le_succ _)⟩
      simp only [writeNotification, Transaction.bind_ok, Transaction.reads_ok]
      refine ⟨false, s, ⟨hdisabled.symm, rfl⟩, ?_⟩
      simp only [Bool.false_eq_true, if_false, Transaction.bind_ok, Transaction.pure_ok]
      refine ⟨s.nextId, _, uuidv7_ok.mpr ⟨rfl, rfl⟩, n, _,
        Table.upsert_ok.mpr (.inr ⟨n, hfind, ?_, rfl, rfl⟩), trivial, ?_⟩
      · exact (hsound _).trans (hrows.symm ▸ hs.notifications)
      · exact congrArg (fun rows => { s with nextId := s.nextId + 1, notifications := rows }) hrows.symm

theorem Beside.later (h : Beside X s₀ t₀ s t) {n m : Id} {notifications notifications' : List Notification}
    (hn : s.nextId ≤ n) (hm : t.nextId ≤ m)
    (hs : distinct Notification.collides notifications = true ∧ Below n Notification.id notifications)
    (ht : distinct Notification.collides notifications' = true ∧
      Below m Notification.id notifications') :
    Beside X s₀ t₀ { s with nextId := n, notifications := notifications }
      { t with nextId := m, notifications := notifications' } where
  agree := { h.agree with }
  left := { h.left with
    consistent := h.left.consistent.later hn hs.1 hs.2
    nextId := Nat.le_trans h.left.nextId hn }
  right := { h.right with
    consistent := h.right.consistent.later hm ht.1 ht.2
    nextId := Nat.le_trans h.right.nextId hm }

theorem writeNotification_coupled (h : Beside X s₀ t₀ s t) (now : Time)
    (input : WriteNotificationInput) :
    Transaction.Coupled (fun _ s' _ t' => Beside X s₀ t₀ s' t') (writeNotification now input)
      (writeNotification now input) s t := by
  obtain ⟨n, notifications, hn, hs, hdistinct, hbelow⟩ :=
    writeNotification_commits h.left.consistent now input
  obtain ⟨m, notifications', hm, ht, hdistinct', hbelow'⟩ :=
    writeNotification_commits h.right.consistent now input
  exact .inr ⟨(), _, (), _, hs, ht, h.later hn hm ⟨hdistinct, hbelow⟩ ⟨hdistinct', hbelow'⟩⟩

theorem notifyMemberChange_coupled (h : Beside X s₀ t₀ s t) (context : OrganizationContext)
    (target : Membership) (now : Time) (notification : WriteNotificationInput)
    (ownerMessage : String) :
    Transaction.Coupled (fun _ s' _ t' => Beside X s₀ t₀ s' t')
      (notifyMemberChange context target now notification ownerMessage)
      (notifyMemberChange context target now notification ownerMessage) s t := by
  unfold notifyMemberChange
  refine (writeNotification_coupled h now _).bind fun _ s' _ t' h' => ?_
  split
  · exact writeNotification_coupled h' now _
  · exact .pure h'

/-! ## Selections -/

theorem findUser_agree (h : Agree X s t) (userId : Id) : s.findUser userId = t.findUser userId := by
  rw [Store.findUser, h.users, Store.findUser]

theorem findOrganization_agree (h : Agree X s t) : s.findOrganization X = t.findOrganization X :=
  find?_agree h.organizations (fun _ hp => hp) (fun _ hp => hp) fun _ _ => rfl

theorem membershipRecord_agree (h : Agree X s t) (m : Membership) :
    s.membershipRecord m = t.membershipRecord m := by
  rw [Store.membershipRecord, findUser_agree h, Store.membershipRecord]

theorem organizationRecord_agree (h : Agree X s t) {o : Organization} (ho : o.id = X) :
    s.organizationRecord o = t.organizationRecord o := by
  have hcount : (s.memberships.countP fun m => m.organizationId == o.id) =
      t.memberships.countP fun m => m.organizationId == o.id := by
    rw [ho]
    exact countP_agree h.memberships (fun _ hp => hp) (fun _ hp => hp) fun _ _ => rfl
  rw [Store.organizationRecord, Store.organizationRecord, findUser_agree h, hcount]

theorem organizationContext_agree (h : Agree X s t) (userId : Id) :
    s.organizationContext X userId = t.organizationContext X userId := by
  have hlive : ∀ m : Membership, Membership.of X m = true →
      s.findOrganization m.organizationId = t.findOrganization m.organizationId := by
    intro m hm
    rw [show m.organizationId = X from beq_iff_eq.mp hm]
    exact findOrganization_agree h
  have hselected : ∀ (u : Store) (m : Membership), (m.organizationId == X && m.userId == userId &&
      (u.findOrganization m.organizationId).any fun o => o.deletedAt.isNone) = true →
      Membership.of X m = true := by
    intro u m hp
    simp only [Bool.and_eq_true] at hp
    exact hp.1.1
  -- only memberships of the organization are looked at, so both stores find the same one
  have hfind := find?_agree h.memberships (hselected s) (hselected t) fun m hm => by
    rw [hlive m hm]
  unfold Store.organizationContext
  rw [hfind]
  cases hm : t.memberships.find? fun m => m.organizationId == X && m.userId == userId &&
      (t.findOrganization m.organizationId).any fun o => o.deletedAt.isNone with
  | none => rfl
  | some m =>
    have hfound := List.find?_some hm
    have hmine := hselected t m hfound
    rw [Option.bind_some, Option.bind_some, hlive m hmine]
    cases ho : t.findOrganization m.organizationId with
    | none => rfl
    | some o =>
      have hid : o.id = m.organizationId := by simpa using List.find?_some ho
      rw [Option.map_some, Option.map_some,
        organizationRecord_agree h (hid.trans (beq_iff_eq.mp hmine))]

end Tables

/-! ## Other organizations -/

section Frame
variable {env : Environment} {inputs : Nat → Input} {X : Id} {s s' : Store} {r : Request}
  {es : List Event}

theorem Consistent.ownedMembership (h : Consistent s) {m : Membership} (hm : m ∈ s.memberships)
    (hmine : Membership.of X m = true) :
    Owned (Membership.of X) Membership.id m.id s.memberships :=
  memberships_plain.owned h.memberships
    (fun a b hid => by simp [ShipFlow.Organizations.memberships, hid]) hm hmine

theorem Consistent.ownedInvitation (h : Consistent s) {i : Invitation} (hi : i ∈ s.invitations)
    (hmine : Invitation.of X i = true) :
    Owned (Invitation.of X) Invitation.id i.id s.invitations :=
  invitations_plain.owned h.invitations
    (fun a b hid => by simp [ShipFlow.Organizations.invitations, hid]) hi hmine

theorem Store.organizationContext_own {userId : Id} {context : OrganizationContext}
    (hs : Consistent s) (h : s.organizationContext X userId = some context) :
    Owned (Membership.of X) Membership.id context.membershipId s.memberships := by
  obtain ⟨m, hm, hcontext⟩ := Option.bind_eq_some_iff.mp h
  obtain ⟨o, -, rfl⟩ := Option.map_eq_some_iff.mp hcontext
  have hkeys := List.find?_some hm
  simp only [Bool.and_eq_true] at hkeys
  exact hs.ownedMembership (List.mem_of_find?_eq_some hm) hkeys.1.1

theorem Marked.others {rows rows' : List Invitation} (h : Marked inputs X rows rows') :
    others (Invitation.of X) rows' = others (Invitation.of X) rows := by
  obtain ⟨p, rfl, hp⟩ := h
  refine filter_updateRows_off _ fun i hi hsel => ?_
  have hmine : Invitation.of X i = true := beq_iff_eq.mpr (hp i hi hsel).1
  exact ⟨by simp [hmine], by simp [Invitation.of, (hp i hi hsel).1]⟩

theorem Marked.owned {rows rows' : List Invitation} (h : Marked inputs X rows rows')
    {i : Invitation} (hi : i ∈ rows')
    (hown : ∀ i₀ ∈ rows, Invitation.of X i₀ = true →
      Owned (Invitation.of X) Invitation.id i₀.id rows) (hmine : i.organizationId = X) :
    Owned (Invitation.of X) Invitation.id i.id rows' := by
  have hothers := h.others
  obtain ⟨p, rfl, -⟩ := h
  rcases mem_updateRows.mp hi with ⟨hi, -⟩ | ⟨i₀, hi₀, -, rfl⟩
  · exact (hown i hi (beq_iff_eq.mpr hmine)).of_others hothers
  · exact (hown i₀ hi₀ (beq_iff_eq.mpr hmine)).of_others hothers

theorem Performed.untouched (h : Performed env inputs s r s' es) (hr : r.organizationId = some X)
    (hs : Consistent s) : Untouched X s s' := by
  cases h with
  | nothing _ _ _ organizationId hscope hnext horganizations hmemberships hinvitations hquiet =>
    have hid : X = organizationId := hscope X hr
    refine ⟨by rw [horganizations], by rw [hmemberships], ?_⟩
    rw [hid]
    exact hinvitations.others
  | organizationCreated user name slug => cases hr
  | organizationRenamed organizationId userId name =>
    obtain rfl : organizationId = X := Option.some.inj hr
    exact ⟨others_updateRows (fun _ _ hp => hp) fun _ => rfl, rfl, rfl⟩
  | organizationDeleted organizationId userId now =>
    obtain rfl : organizationId = X := Option.some.inj hr
    exact ⟨others_updateRows (fun _ _ hp => hp) fun _ => rfl, rfl,
      others_updateRows (fun _ _ hp => (Bool.and_eq_true_iff.mp hp).1) fun _ => rfl⟩
  | invitationCreated organizationId userId dto context marked invitation hcontext hassign hmarked
      hid horganization hrole =>
    obtain rfl : organizationId = X := Option.some.inj hr
    refine ⟨rfl, rfl, ?_⟩
    have hmine : Invitation.of organizationId invitation = true := beq_iff_eq.mpr horganization
    exact (others_concat hmine).trans hmarked.others
  | invitationResent organizationId userId invitationId context marked existing tokenHash expiresAt
      hcontext hmarked hexisting hid horganization hassign =>
    obtain rfl : organizationId = X := Option.some.inj hr
    -- the row is written by its id alone, which the scoped lookup has found
    have hown := hmarked.owned hexisting (fun _ hi => hs.ownedInvitation hi) horganization
    rw [hid] at hown
    refine ⟨rfl, rfl, Eq.trans (others_updateRows ?_ ?_) hmarked.others⟩
    · exact fun i hi hp => hown i hi (beq_iff_eq.mp hp)
    · exact fun _ => rfl
  | invitationRevoked organizationId userId invitationId context marked existing now hcontext
      hmarked hexisting hid horganization hassign =>
    obtain rfl : organizationId = X := Option.some.inj hr
    have hown := hmarked.owned hexisting (fun _ hi => hs.ownedInvitation hi) horganization
    rw [hid] at hown
    refine ⟨rfl, rfl, Eq.trans (others_updateRows ?_ ?_) hmarked.others⟩
    · exact fun i hi hp => hown i hi (beq_iff_eq.mp hp)
    · exact fun _ => rfl
  | invitationAccepted => cases hr
  | memberRoleChanged organizationId userId membershipId role context target nextId notifications
      hcontext htarget hid horganization hmanage hassign hnext =>
    obtain rfl : organizationId = X := Option.some.inj hr
    have hown := hs.ownedMembership htarget (beq_iff_eq.mpr horganization)
    rw [hid] at hown
    exact ⟨rfl, others_updateRows (fun m hm hp => hown m hm (beq_iff_eq.mp hp)) fun _ => rfl, rfl⟩
  | memberRemoved organizationId userId membershipId context target nextId notifications hcontext
      htarget hid horganization hmanage hnext =>
    obtain rfl : organizationId = X := Option.some.inj hr
    have hown := hs.ownedMembership htarget (beq_iff_eq.mpr horganization)
    rw [hid] at hown
    exact ⟨rfl, others_filter fun m hm hp => hown m hm (by simpa using hp), rfl⟩
  | memberLeft organizationId userId context hcontext =>
    obtain rfl : organizationId = X := Option.some.inj hr
    have hown := Store.organizationContext_own hs hcontext
    exact ⟨rfl, others_filter fun m hm hp => hown m hm (by simpa using hp), rfl⟩
  | ownershipTransferred organizationId userId membershipId context target nextId notifications
      hcontext howner htarget hid horganization hother hnext =>
    obtain rfl : organizationId = X := Option.some.inj hr
    have hown := hs.ownedMembership htarget (beq_iff_eq.mpr horganization)
    rw [hid] at hown
    have hprevious := Store.organizationContext_own hs hcontext
    -- the second update is about the rows as the first one has left them
    have hfirst : others (Membership.of organizationId) (updateRows
        (fun m => m.id == context.membershipId) (fun m => { m with role := .admin })
        s.memberships) = others (Membership.of organizationId) s.memberships :=
      others_updateRows (fun m hm hp => hprevious m hm (beq_iff_eq.mp hp)) fun _ => rfl
    refine ⟨others_updateRows (fun _ _ hp => hp) fun _ => rfl, ?_, rfl⟩
    refine Eq.trans (others_updateRows ?_ ?_) hfirst
    · exact fun m hm hp => hown.of_others hfirst m hm (beq_iff_eq.mp hp)
    · exact fun _ => rfl

end Frame

/-! ## Answers -/

/-- An answer, but for the identifier that the request has generated. -/
inductive Answer where
  | given (outcome : Except Failure Response)
  | invited (response : InvitationResponse)

def Answer.withId (id : Id) : Answer → Except Failure Response
  | .given outcome => outcome
  | .invited response => .ok (.invitation { response with id := id })

/-- The two outcomes are the same up to identifiers that neither store had seen. -/
def SameUpToId (s₀ t₀ : Store) (r r' : Except Failure Response) : Prop :=
  ∃ (answer : Answer) (a b : Id), s₀.nextId ≤ a ∧ t₀.nextId ≤ b ∧
    r = answer.withId a ∧ r' = answer.withId b

/-- No other organization has handed out the token that the request draws. -/
def Input.Unused (env : Environment) (organizationId : Id) (s : Store) (i : Input) : Prop :=
  ∀ invitation ∈ s.invitations, Invitation.of organizationId invitation = false →
    invitation.tokenHash ≠ env.hashOpaqueToken i.token

def Isolated (organizationId : Id) (s₀ t₀ : Store) (r : Except Failure Response) (s : Store)
    (r' : Except Failure Response) (t : Store) : Prop :=
  Confined organizationId s₀ s ∧ Confined organizationId t₀ t ∧ SameUpToId s₀ t₀ r r'

/-- The two outcomes are the same, and the stores still agree. -/
def Same {α : Type} (organizationId : Id) (s₀ t₀ : Store) (r : Except Failure α) (s : Store)
    (r' : Except Failure α) (t : Store) : Prop :=
  r = r' ∧ Beside organizationId s₀ t₀ s t

section Requests
variable {env : Environment} {X userId : Id} {s₀ t₀ s t : Store} {α : Type} {I : Input → Prop}
  {context : OrganizationContext}

theorem Same.isolated {r r' : Except Failure Response} (h : Same X s₀ t₀ r s r' t) :
    Isolated X s₀ t₀ r s r' t := by
  obtain ⟨rfl, h⟩ := h
  exact ⟨h.left, h.right, .given r, _, _, Nat.le_refl _, Nat.le_refl _, rfl, rfl⟩

/-- The membership of the identifier, if there is one, is one of the organization. -/
abbrev OwnMembership (X : Id) (s₀ t₀ : Store) (membershipId : Id) : Prop :=
  Owned (Membership.of X) Membership.id membershipId s₀.memberships ∧
    Owned (Membership.of X) Membership.id membershipId t₀.memberships

abbrev OwnInvitation (X : Id) (s₀ t₀ : Store) (invitationId : Id) : Prop :=
  Owned (Invitation.of X) Invitation.id invitationId s₀.invitations ∧
    Owned (Invitation.of X) Invitation.id invitationId t₀.invitations

theorem Confined.ownMembership (h : Confined X s₀ s) {m : Membership} (hm : m ∈ s.memberships)
    (hmine : Membership.of X m = true) :
    Owned (Membership.of X) Membership.id m.id s₀.memberships := by
  exact (h.consistent.ownedMembership hm hmine).of_others h.memberships.symm

theorem Confined.ownInvitation (h : Confined X s₀ s) {i : Invitation} (hi : i ∈ s.invitations)
    (hmine : Invitation.of X i = true) :
    Owned (Invitation.of X) Invitation.id i.id s₀.invitations := by
  exact (h.consistent.ownedInvitation hi hmine).of_others h.invitations.symm

theorem Beside.ownMembership (h : Beside X s₀ t₀ s t) {m : Membership} (hm : m ∈ s.memberships)
    (hmine : Membership.of X m = true) : OwnMembership X s₀ t₀ m.id :=
  ⟨h.left.ownMembership hm hmine,
    h.right.ownMembership (mem_agree h.agree.memberships hm hmine) hmine⟩

theorem Beside.ownInvitation (h : Beside X s₀ t₀ s t) {i : Invitation} (hi : i ∈ s.invitations)
    (hmine : Invitation.of X i = true) : OwnInvitation X s₀ t₀ i.id :=
  ⟨h.left.ownInvitation hi hmine,
    h.right.ownInvitation (mem_agree h.agree.invitations hi hmine) hmine⟩

theorem canActivate_coupled (h : Beside X s₀ t₀ s t) {capabilities : List Capability}
    {k : OrganizationContext → Handler α}
    {V : Except Failure α → Store → Except Failure α → Store → Prop}
    (hfail : ∀ e, V (.error e) s (.error e) t)
    (hk : ∀ context, context.organization.id = X → OwnMembership X s₀ t₀ context.membershipId →
      Coupled I V (k context) s (k context) t) :
    Coupled I V (canActivate X userId capabilities >>= k) s
      (canActivate X userId capabilities >>= k) t := by
  rw [canActivate, resolve, Process.bind_assoc, Process.bind_assoc]
  refine Coupled.query ?_
  rw [← organizationContext_agree h.agree userId]
  cases hfound : s.organizationContext X userId with
  | none => exact hfail _
  | some context =>
    change Coupled I V ((Process.ofExcept (assertCapabilities context.role capabilities) >>=
      fun _ => pure context) >>= k) s ((Process.ofExcept
        (assertCapabilities context.role capabilities) >>= fun _ => pure context) >>= k) t
    rw [Process.bind_assoc]
    refine Coupled.ofExcept (fun e => hfail e) fun _ _ => hk context (organizationContext_id hfound) ?_
    obtain ⟨m, hm, hcontext⟩ := Option.bind_eq_some_iff.mp hfound
    obtain ⟨o, -, rfl⟩ := Option.map_eq_some_iff.mp hcontext
    have hkeys := List.find?_some hm
    simp only [Bool.and_eq_true] at hkeys
    exact h.ownMembership (List.mem_of_find?_eq_some hm) hkeys.1.1

/-! ## Updates of the tenant -/

theorem Confined.updateOrganizations (h : Confined X s₀ s) {p : Organization → Bool}
    {f : Organization → Organization} (hp : ∀ o, p o = true → Organization.of X o = true)
    (hf : ∀ o, (f o).id = o.id ∧ (f o).slug = o.slug) :
    Table.Tenanted.Updates ShipFlow.Organizations.organizations (Organization.of X) p
      Organization.id f s := by
  refine .of_keys organizations_plain h.consistent.organizations (fun o _ => hp o) (fun o => ?_)
    (fun o => (hf o).1) fun a b _ _ => ?_
  · simp only [Organization.of, (hf o).1]
  · simp only [ShipFlow.Organizations.organizations, (hf a).1, (hf a).2]

theorem Confined.updateMemberships (h : Confined X s₀ s) {membershipId : Id}
    {f : Membership → Membership}
    (hown : Owned (Membership.of X) Membership.id membershipId s₀.memberships)
    (hf : ∀ m, (f m).id = m.id ∧ (f m).organizationId = m.organizationId) :
    Table.Tenanted.Updates ShipFlow.Organizations.memberships (Membership.of X)
      (fun m => m.id == membershipId) Membership.id f s := by
  refine .of_keys memberships_plain h.consistent.memberships (fun m hm hp => ?_) (fun m => ?_)
    (fun m => (hf m).1) fun a b ha hb => ?_
  · exact hown.of_others h.memberships m hm (beq_iff_eq.mp hp)
  · simp only [Membership.of, (hf m).2]
  · have hne : (a.organizationId == b.organizationId) = false := by
      simp only [Membership.of, beq_iff_eq, beq_eq_false_iff_ne] at ha hb ⊢
      rw [ha]
      exact Ne.symm hb
    simp only [ShipFlow.Organizations.memberships, (hf a).1, (hf a).2, hne, Bool.false_and]

/-- An invitation collides with one of another organization on its identifier or its token. -/
theorem invitations_collides {a b : Invitation} (ha : Invitation.of X a = true)
    (hb : Invitation.of X b = false) :
    invitations.collides a b = (a.id == b.id || a.tokenHash == b.tokenHash) := by
  have hne : (a.organizationId == b.organizationId) = false := by
    simp only [Invitation.of, beq_iff_eq, beq_eq_false_iff_ne] at ha hb ⊢
    rw [ha]
    exact Ne.symm hb
  simp [invitations, hne]

theorem Confined.updateInvitations (h : Confined X s₀ s) {p : Invitation → Bool}
    {f : Invitation → Invitation}
    (hp : ∀ i ∈ s.invitations, p i = true → Invitation.of X i = true)
    (hf : ∀ i, (f i).id = i.id ∧ (f i).organizationId = i.organizationId ∧
      (f i).tokenHash = i.tokenHash) :
    Table.Tenanted.Updates ShipFlow.Organizations.invitations (Invitation.of X) p
      Invitation.id f s := by
  have htenant : ∀ i, Invitation.of X (f i) = Invitation.of X i := by
    intro i
    simp only [Invitation.of, (hf i).2.1]
  refine .of_keys invitations_plain h.consistent.invitations hp htenant (fun i => (hf i).1)
    fun a b ha hb => ?_
  rw [invitations_collides ((htenant a).trans ha) hb, invitations_collides ha hb, (hf a).1,
    (hf a).2.2]

theorem Confined.unused (h : Confined X s₀ s) {i : Input} (hi : i.Unused env X s₀) :
    i.Unused env X s := by
  intro invitation hinvitation hother
  have hmem : invitation ∈ others (Invitation.of X) s₀.invitations :=
    h.invitations ▸ mem_others.mpr ⟨hinvitation, hother⟩
  exact hi invitation (mem_others.mp hmem).1 hother

/-- A resend gives the invitation a token that no other organization has. -/
theorem Confined.renewInvitations (h : Confined X s₀ s) {invitationId : Id} {i : Input}
    (hown : Owned (Invitation.of X) Invitation.id invitationId s₀.invitations)
    (hi : i.Unused env X s₀) (expiresAt : Time) :
    Table.Tenanted.Updates ShipFlow.Organizations.invitations (Invitation.of X)
      (fun i => i.id == invitationId) Invitation.id
      (fun i' => i'.renew userId (env.hashOpaqueToken i.token) expiresAt) s where
  selects i' hi' hp := hown.of_others h.invitations i' hi' (beq_iff_eq.mp hp)
  tenant _ := rfl
  key _ := rfl
  apart a ha hp b hb hother := by
    have hmine := hown.of_others h.invitations a ha (beq_iff_eq.mp hp)
    have hold := (Table.Rewrites.refl invitations_plain h.consistent.invitations).apart a ha hmine b
      hb hother
    rw [invitations_collides hmine hother, Bool.or_eq_false_iff] at hold
    have hmine' : Invitation.of X (a.renew userId (env.hashOpaqueToken i.token) expiresAt) = true :=
      hmine
    rw [invitations_collides hmine' hother, Bool.or_eq_false_iff]
    refine ⟨hold.1, ?_⟩
    simpa [Invitation.renew] using Ne.symm (h.unused hi b hb hother)

/-! ## Organizations -/

theorem updateOrganization_coupled (h : Beside X s₀ t₀ s t) (hid : context.organization.id = X)
    (name : String) :
    Coupled I (Same X s₀ t₀) (updateOrganization context name) s
      (updateOrganization context name) t := by
  unfold updateOrganization renameOrganization
  rw [hid]
  refine Coupled.statement (fun e => ⟨rfl, h⟩) ?_
  refine (organizations_tenanted.update h (h.left.updateOrganizations (fun _ hp => hp) ?_)
    (h.right.updateOrganizations (fun _ hp => hp) ?_)).bind ?_
  · exact fun _ => ⟨rfl, rfl⟩
  · exact fun _ => ⟨rfl, rfl⟩
  · rintro o s' _ t' ⟨rfl, hmine, h'⟩
    have hrecord := organizationRecord_agree h'.agree (beq_iff_eq.mp hmine)
    refine .inr ⟨_, _, _, _, rfl, rfl, Coupled.pure ⟨?_, h'⟩⟩
    exact congrArg (fun r => Except.ok (toOrganizationResponse r context.membershipId context.role)) hrecord

theorem deleteOrganization_coupled (h : Beside X s₀ t₀ s t) (hid : context.organization.id = X) :
    Coupled I (Same X s₀ t₀) (deleteOrganization context) s (deleteOrganization context) t := by
  unfold deleteOrganization markDeleted
  rw [hid]
  refine Coupled.ask fun i _ => Coupled.atomically (fun e => ⟨rfl, h⟩) fun _ _ => ?_
  have hp : ∀ i : Invitation, (i.organizationId == X && i.status == .pending) = true →
      Invitation.of X i = true := fun i hp => (Bool.and_eq_true_iff.mp hp).1
  refine (invitations_tenanted.updateMany h (h.left.updateInvitations (fun i _ => hp i) ?_)
    (h.right.updateInvitations (fun i _ => hp i) ?_)).bind ?_
  · exact fun _ => ⟨rfl, rfl, rfl⟩
  · exact fun _ => ⟨rfl, rfl, rfl⟩
  · rintro n s' _ t' ⟨rfl, h'⟩
    refine (organizations_tenanted.update h' (h'.left.updateOrganizations (fun _ hp => hp) ?_)
      (h'.right.updateOrganizations (fun _ hp => hp) ?_)).bind ?_
    · exact fun _ => ⟨rfl, rfl⟩
    · exact fun _ => ⟨rfl, rfl⟩
    · rintro o s'' _ t'' ⟨rfl, -, h''⟩
      exact .pure (Coupled.pure ⟨rfl, h''⟩)

/-! ## Invitations -/

theorem expireInvitations_coupled (h : Beside X s₀ t₀ s t) {email : Option String}
    {k : Unit → Handler α} {V : Except Failure α → Store → Except Failure α → Store → Prop}
    (hfail : ∀ e, V (.error e) s (.error e) t)
    (hk : ∀ s' t', Beside X s₀ t₀ s' t' → Coupled I V (k ()) s' (k ()) t') :
    Coupled I V (expireInvitations X email >>= k) s (expireInvitations X email >>= k) t := by
  rw [expireInvitations, Process.bind_assoc]
  refine Coupled.ask fun i _ => ?_
  rw [Process.bind_assoc]
  refine Coupled.statement hfail ?_
  have hp : ∀ i' : Invitation, (i'.organizationId == X && i'.status == .pending &&
      i'.expiresAt ≤ i.now && email.all fun email => email.isEmpty || i'.email == email) = true →
      Invitation.of X i' = true := by
    intro i' hp
    simp only [Bool.and_eq_true] at hp
    exact hp.1.1.1
  refine (invitations_tenanted.updateMany h (h.left.updateInvitations (fun i _ => hp i) ?_)
    (h.right.updateInvitations (fun i _ => hp i) ?_)).mono ?_
  · exact fun _ => ⟨rfl, rfl, rfl⟩
  · exact fun _ => ⟨rfl, rfl, rfl⟩
  · rintro n s' _ t' ⟨rfl, h'⟩
    exact hk s' t' h'

theorem findInvitation_coupled (h : Beside X s₀ t₀ s t) {invitationId : Id}
    {k : Invitation → Handler α} {V : Except Failure α → Store → Except Failure α → Store → Prop}
    (hfail : ∀ e, V (.error e) s (.error e) t)
    (hk : ∀ existing, OwnInvitation X s₀ t₀ invitationId → Coupled I V (k existing) s (k existing) t) :
    Coupled I V (findInvitation X invitationId >>= k) s (findInvitation X invitationId >>= k) t := by
  rw [findInvitation, Process.bind_assoc]
  refine Coupled.query ?_
  have hp : ∀ i : Invitation, (i.id == invitationId && i.organizationId == X) = true →
      Invitation.of X i = true := fun i hp => (Bool.and_eq_true_iff.mp hp).2
  rw [← find?_agree h.agree.invitations hp hp fun _ _ => rfl]
  cases hfound : s.invitations.find? fun i => i.id == invitationId && i.organizationId == X with
  | none => exact hfail _
  | some existing =>
    have hkeys := List.find?_some hfound
    simp only [Bool.and_eq_true, beq_iff_eq] at hkeys
    have hown := h.ownInvitation (List.mem_of_find?_eq_some hfound) (beq_iff_eq.mpr hkeys.2)
    rw [hkeys.1] at hown
    exact hk existing hown

theorem sendOrganizationInvitation_coupled {k : Unit → Handler α}
    {V : Except Failure α → Store → Except Failure α → Store → Prop}
    (hfail : ∀ e, V (.error e) s (.error e) t) {k' : Unit → Handler α}
    (hk : Coupled I V (k ()) s (k' ()) t) :
    Coupled I V (sendOrganizationInvitation env >>= k) s
      (sendOrganizationInvitation env >>= k') t := by
  unfold sendOrganizationInvitation
  split
  · exact hk
  · rw [Process.bind_assoc, Process.bind_assoc]
    refine Coupled.ask fun i _ => ?_
    cases i.deliveryFailure with
    | none => exact hk
    | some message => exact hfail _

theorem resendInvitation_coupled (h : Beside X s₀ t₀ s t) (hid : context.organization.id = X)
    (invitationId : Id) :
    Coupled (fun i => i.Unused env X s₀ ∧ i.Unused env X t₀) (Same X s₀ t₀)
      (resendInvitation env context invitationId userId) s
      (resendInvitation env context invitationId userId) t := by
  unfold resendInvitation
  rw [hid]
  refine expireInvitations_coupled h (fun e => ⟨rfl, h⟩) fun s t h => ?_
  refine findInvitation_coupled h (fun e => ⟨rfl, h⟩) fun existing hown => ?_
  refine Coupled.ofExcept (fun e => ⟨rfl, h⟩) fun _ _ => Coupled.rejectIf ⟨rfl, h⟩ fun _ => ?_
  refine Coupled.query ?_
  have hp : ∀ i : Invitation, (i.organizationId == X && i.email == existing.email &&
      i.status == .pending && i.id != invitationId) = true → Invitation.of X i = true := by
    intro i hp
    simp only [Bool.and_eq_true] at hp
    exact hp.1.1.1
  rw [← any_agree h.agree.invitations hp hp fun _ _ => rfl]
  refine Coupled.rejectIf ⟨rfl, h⟩ fun _ => Coupled.ask fun i hi => Coupled.ask fun i' _ =>
    Coupled.atomically (fun e => ⟨rfl, h⟩) fun _ _ => ?_
  unfold renewInvitation
  refine (invitations_tenanted.update h (h.left.renewInvitations hown.1 hi.1 _)
    (h.right.renewInvitations hown.2 hi.2 _)).bind ?_
  rintro invitation s' _ t' ⟨rfl, -, h'⟩
  refine .inr ⟨_, _, _, _, rfl, rfl, ?_⟩
  refine sendOrganizationInvitation_coupled (fun e => ⟨rfl, h'⟩) (Coupled.pure ⟨?_, h'⟩)
  exact congrArg (fun u => Except.ok (toInvitationResponse env invitation u _))
    (findUser_agree h'.agree userId)

theorem revokeInvitation_coupled (h : Beside X s₀ t₀ s t) (hid : context.organization.id = X)
    (invitationId : Id) :
    Coupled I (Same X s₀ t₀) (revokeInvitation context invitationId) s
      (revokeInvitation context invitationId) t := by
  unfold revokeInvitation
  rw [hid]
  refine expireInvitations_coupled h (fun e => ⟨rfl, h⟩) fun s t h => ?_
  refine findInvitation_coupled h (fun e => ⟨rfl, h⟩) fun invitation hown => ?_
  refine Coupled.ofExcept (fun e => ⟨rfl, h⟩) fun _ _ => Coupled.rejectIf ⟨rfl, h⟩ fun _ => ?_
  refine Coupled.ask fun i _ => Coupled.atomically (fun e => ⟨rfl, h⟩) fun _ _ => ?_
  refine (invitations_tenanted.update h (h.left.updateInvitations (fun i hi hp => ?_) ?_)
    (h.right.updateInvitations (fun i hi hp => ?_) ?_)).mono ?_
  · exact hown.1.of_others h.left.invitations i hi (beq_iff_eq.mp hp)
  · exact fun _ => ⟨rfl, rfl, rfl⟩
  · exact hown.2.of_others h.right.invitations i hi (beq_iff_eq.mp hp)
  · exact fun _ => ⟨rfl, rfl, rfl⟩
  · rintro i s' _ t' ⟨rfl, -, h'⟩
    exact Coupled.pure ⟨rfl, h'⟩

theorem Confined.addInvitation (h : Confined X s₀ s) {invitation : Invitation}
    (hid : invitation.id = s.nextId) (hmine : Invitation.of X invitation = true)
    (hsound : ShipFlow.Organizations.invitations.sound s (s.invitations ++ [invitation]) = true) :
    Confined X s₀
      { s with nextId := s.nextId + 1, invitations := s.invitations ++ [invitation] } where
  consistent :=
    { h.consistent with
      invitations := hsound
      invitationIds := h.consistent.invitationIds.concat (Nat.le_succ _) (by simp [hid])
      notificationIds := h.consistent.notificationIds.mono (Nat.le_succ _) }
  nextId := Nat.le_succ_of_le h.nextId
  organizations := h.organizations
  memberships := h.memberships
  invitations := (others_concat hmine).trans h.invitations

/-- The identifier of a new invitation is in no row. -/
theorem Consistent.invitation_fresh (h : Consistent s) {i : Invitation} (hi : i ∈ s.invitations) :
    (i.id == s.nextId) = false := by
  simpa using Nat.ne_of_lt (h.invitationIds i hi)

/-- A new invitation; the two stores agree no longer, as its identifiers differ. -/
theorem addInvitation_coupled (h : Beside X s₀ t₀ s t) {i : Input} (hi : i.Unused env X s₀)
    (hi' : i.Unused env X t₀) (email : String) (role : MembershipRole) (expiresAt : Time) :
    Transaction.Coupled (fun r s' r' t' => Confined X s₀ s' ∧ Confined X t₀ t' ∧ r.2 = r'.2 ∧
        r'.1 = { r.1 with id := r'.1.id } ∧ s₀.nextId ≤ r.1.id ∧ t₀.nextId ≤ r'.1.id)
      (addInvitation X userId email role (env.hashOpaqueToken i.token) expiresAt)
      (addInvitation X userId email role (env.hashOpaqueToken i.token) expiresAt) s t := by
  let invitation (id : Id) : Invitation := ⟨id, X, userId, none, email, role, .pending,
    env.hashOpaqueToken i.token, expiresAt, none, none⟩
  have hmine : ∀ id, Invitation.of X (invitation id) = true := fun id => beq_self_eq_true X
  -- a row of another organization has neither the fresh id nor the hash of the fresh token
  have hapart : ∀ {u₀ u}, Confined X u₀ u → i.Unused env X u₀ → ∀ b ∈ u.invitations,
      Invitation.of X b = false → invitations.collides b (invitation u.nextId) = false := by
    intro u₀ u hu hunused b hb hother
    rw [invitations_plain.symm, invitations_collides (hmine u.nextId) hother, Bool.or_eq_false_iff]
    refine ⟨?_, ?_⟩
    · rw [BEq.comm]
      exact hu.consistent.invitation_fresh hb
    · simpa [invitation] using Ne.symm (hu.unused hunused b hb hother)
  have hsame : ∀ b ∈ s.invitations.filter (Invitation.of X),
      invitations.collides b (invitation s.nextId) = invitations.collides b (invitation t.nextId) := by
    intro b hb
    have hs := h.left.consistent.invitation_fresh (List.mem_of_mem_filter hb)
    rw [h.agree.invitations] at hb
    have ht := h.right.consistent.invitation_fresh (List.mem_of_mem_filter hb)
    simp [invitations, invitation, hs, ht]
  unfold addInvitation
  refine uuidv7_coupled ?_
  refine Transaction.Coupled.bind (Table.create_coupled h.left.consistent.invitations
    h.right.consistent.invitations h.agree.invitations rfl hsame (hapart h.left hi)
    (hapart h.right hi')) ?_
  rintro _ s' _ t' ⟨rfl, rfl, hsound, rfl, hsound', rfl⟩
  exact .inr ⟨_, _, _, _, rfl, rfl, h.left.addInvitation rfl (hmine _) hsound,
    h.right.addInvitation rfl (hmine _) hsound', findUser_agree h.agree userId, rfl, h.left.nextId,
    h.right.nextId⟩

theorem createInvitation_coupled (h : Beside X s₀ t₀ s t) (hid : context.organization.id = X)
    (dto : CreateInvitationDto) :
    Coupled (fun i => i.Unused env X s₀ ∧ i.Unused env X t₀) (Isolated X s₀ t₀)
      (.invitation <$> createInvitation env context userId dto) s
      (.invitation <$> createInvitation env context userId dto) t := by
  refine Coupled.map ?_
  unfold createInvitation
  rw [hid]
  refine Coupled.ofExcept (fun e => Same.isolated ⟨rfl, h⟩) fun _ _ => ?_
  refine expireInvitations_coupled h (fun e => Same.isolated ⟨rfl, h⟩) fun s t h => ?_
  refine Coupled.query ?_
  have hmember : ∀ (u : Store) (m : Membership), (m.organizationId == X &&
      (u.findUser m.userId).any fun u => u.email == normalizeEmail env dto.email) = true →
      Membership.of X m = true := fun u m hp => (Bool.and_eq_true_iff.mp hp).1
  rw [any_agree h.agree.memberships (hmember s) (hmember t) fun m _ => by
    rw [findUser_agree h.agree]]
  refine Coupled.rejectIf (Same.isolated ⟨rfl, h⟩) fun _ => ?_
  refine Coupled.ask fun i hi => Coupled.ask fun i' _ => Coupled.bind (Coupled.handle ?_)
  rw [← Process.bind_pure (Process.atomically _ _)]
  refine Coupled.atomically (fun e => ?_) fun _ _ => ?_
  -- the insert fails in both runs or in neither, and the catch block sees the same error
  · change Coupled _ _ (if e.isUniqueConstraintError then _ else _) s
      (if e.isUniqueConstraintError then _ else _) t
    split
    · exact Coupled.throw (Same.isolated ⟨rfl, h⟩)
    · exact Coupled.throw (Same.isolated ⟨rfl, h⟩)
  · refine (addInvitation_coupled h hi.1 hi.2 _ dto.role _).mono ?_
    rintro ⟨invitation, invitedBy⟩ s' ⟨invitation', invitedBy'⟩ t' ⟨hs, ht, hby, hsame, hfresh, hfresh'⟩
    refine Coupled.pure (sendOrganizationInvitation_coupled (fun e => ?_) (Coupled.pure ?_))
    · exact ⟨hs, ht, .given (.error e), _, _, Nat.le_refl _, Nat.le_refl _, rfl, rfl⟩
    · refine ⟨hs, ht, .invited (toInvitationResponse env invitation invitedBy i.token), _, _, hfresh,
        hfresh', rfl, ?_⟩
      simp only at hby hsame
      rw [← hby, hsame]
      rfl

/-! ## Members -/

theorem findMembershipById_coupled (h : Beside X s₀ t₀ s t) {membershipId : Id}
    {k : Membership → Handler α} {V : Except Failure α → Store → Except Failure α → Store → Prop}
    (hfail : ∀ e, V (.error e) s (.error e) t)
    (hk : ∀ target, target.id = membershipId → OwnMembership X s₀ t₀ membershipId →
      Coupled I V (k target) s (k target) t) :
    Coupled I V (findMembershipById X membershipId >>= k) s
      (findMembershipById X membershipId >>= k) t := by
  rw [findMembershipById, Process.bind_assoc]
  refine Coupled.query ?_
  have hp : ∀ m : Membership, (m.id == membershipId && m.organizationId == X) = true →
      Membership.of X m = true := fun m hp => (Bool.and_eq_true_iff.mp hp).2
  rw [← find?_agree h.agree.memberships hp hp fun _ _ => rfl]
  cases hfound : s.memberships.find? fun m => m.id == membershipId && m.organizationId == X with
  | none => exact hfail _
  | some target =>
    have hkeys := List.find?_some hfound
    simp only [Bool.and_eq_true, beq_iff_eq] at hkeys
    have hown := h.ownMembership (List.mem_of_find?_eq_some hfound) (beq_iff_eq.mpr hkeys.2)
    rw [hkeys.1] at hown
    exact hk target hkeys.1 hown

theorem updateMemberRole_coupled (h : Beside X s₀ t₀ s t) (hid : context.organization.id = X)
    (membershipId : Id) (role : MembershipRole) :
    Coupled I (Same X s₀ t₀) (updateMemberRole context membershipId role) s
      (updateMemberRole context membershipId role) t := by
  unfold updateMemberRole
  rw [hid]
  refine findMembershipById_coupled h (fun e => ⟨rfl, h⟩) fun target _ hown => ?_
  refine Coupled.ofExcept (fun e => ⟨rfl, h⟩) fun _ _ => Coupled.ofExcept (fun e => ⟨rfl, h⟩)
    fun _ _ => Coupled.ask fun operationId _ => ?_
  rw [← Process.bind_pure (Process.atomically _ _)]
  refine Coupled.atomically (fun e => ⟨rfl, h⟩) fun i _ => ?_
  unfold changeRole
  refine Transaction.Coupled.bind (memberships_tenanted.update h (h.left.updateMemberships hown.1 fun _ => ⟨rfl, rfl⟩)
    (h.right.updateMemberships hown.2 fun _ => ⟨rfl, rfl⟩)) ?_
  rintro updated s' _ t' ⟨rfl, -, h'⟩
  refine Transaction.Coupled.reads_bind ?_
  rw [membershipRecord_agree h'.agree]
  refine (notifyMemberChange_coupled h' context target _ _ _).bind fun _ s'' _ t'' h'' => ?_
  exact .pure (Coupled.pure ⟨rfl, h''⟩)

theorem removeMember_coupled (h : Beside X s₀ t₀ s t) (hid : context.organization.id = X)
    (membershipId : Id) :
    Coupled I (Same X s₀ t₀) (removeMember context membershipId) s
      (removeMember context membershipId) t := by
  unfold removeMember
  rw [hid]
  refine findMembershipById_coupled h (fun e => ⟨rfl, h⟩) fun target _ hown => ?_
  refine Coupled.ofExcept (fun e => ⟨rfl, h⟩) fun _ _ => Coupled.ask fun operationId _ => ?_
  refine Coupled.atomically (fun e => ⟨rfl, h⟩) fun i _ => ?_
  unfold deleteMembership
  refine Transaction.Coupled.bind (memberships_tenanted.delete h (fun m hm hp => ?_)
    fun m hm hp => ?_) ?_
  · exact hown.1.of_others h.left.memberships m hm (beq_iff_eq.mp hp)
  · exact hown.2.of_others h.right.memberships m hm (beq_iff_eq.mp hp)
  · intro _ s' _ t' h'
    refine (notifyMemberChange_coupled h' context target _ _ _).mono fun _ s'' _ t'' h'' => ?_
    exact Coupled.pure ⟨rfl, h''⟩

theorem leaveOrganization_coupled (h : Beside X s₀ t₀ s t)
    (hown : OwnMembership X s₀ t₀ context.membershipId) :
    Coupled I (Same X s₀ t₀) (leaveOrganization context) s (leaveOrganization context) t := by
  unfold leaveOrganization
  refine Coupled.ofExcept (fun e => ⟨rfl, h⟩) fun _ _ => Coupled.atomically (fun e => ⟨rfl, h⟩)
    fun _ _ => ?_
  refine Transaction.Coupled.mono (memberships_tenanted.delete h (fun m hm hp => ?_)
    fun m hm hp => ?_) ?_
  · exact hown.1.of_others h.left.memberships m hm (beq_iff_eq.mp hp)
  · exact hown.2.of_others h.right.memberships m hm (beq_iff_eq.mp hp)
  · exact fun _ s' _ t' h' => Coupled.pure ⟨rfl, h'⟩

theorem resolve_coupled (h : Beside X s₀ t₀ s t) :
    Coupled I (Same X s₀ t₀) (resolve X userId) s (resolve X userId) t := by
  unfold resolve
  refine Coupled.query ?_
  rw [← organizationContext_agree h.agree userId]
  cases s.organizationContext X userId with
  | none => exact Coupled.throw ⟨rfl, h⟩
  | some context => exact Coupled.pure ⟨rfl, h⟩

theorem transferOwnership_coupled (h : Beside X s₀ t₀ s t) (hid : context.organization.id = X)
    (hcontext : OwnMembership X s₀ t₀ context.membershipId) (membershipId : Id) :
    Coupled I (Same X s₀ t₀) (transferOwnership context userId membershipId) s
      (transferOwnership context userId membershipId) t := by
  unfold transferOwnership
  rw [hid]
  refine findMembershipById_coupled h (fun e => ⟨rfl, h⟩) fun target htarget hown => ?_
  refine Coupled.rejectIf ⟨rfl, h⟩ fun _ => Coupled.ask fun operationId _ => ?_
  refine Coupled.atomically (fun e => ⟨rfl, h⟩) fun i _ => ?_
  unfold transfer
  rw [hid, htarget]
  refine Transaction.Coupled.bind (memberships_tenanted.update h (h.left.updateMemberships hcontext.1 fun _ => ⟨rfl, rfl⟩)
    (h.right.updateMemberships hcontext.2 fun _ => ⟨rfl, rfl⟩)) ?_
  rintro _ s₁ _ t₁ ⟨-, -, h₁⟩
  refine Transaction.Coupled.bind (memberships_tenanted.update h₁ (h₁.left.updateMemberships hown.1 fun _ => ⟨rfl, rfl⟩)
    (h₁.right.updateMemberships hown.2 fun _ => ⟨rfl, rfl⟩)) ?_
  rintro _ s₂ _ t₂ ⟨-, -, h₂⟩
  refine (organizations_tenanted.update h₂ (h₂.left.updateOrganizations (fun _ hp => hp) ?_)
    (h₂.right.updateOrganizations (fun _ hp => hp) ?_)).bind ?_
  · exact fun _ => ⟨rfl, rfl⟩
  · exact fun _ => ⟨rfl, rfl⟩
  · rintro _ s₃ _ t₃ ⟨-, -, h₃⟩
    refine (writeNotification_coupled h₃ _ _).mono fun _ s₄ _ t₄ h₄ => Coupled.bind ?_
    refine (resolve_coupled h₄).mono ?_
    rintro (e | context) s₅ _ t₅ ⟨rfl, h₅⟩
    · exact ⟨rfl, h₅⟩
    · exact Coupled.pure ⟨rfl, h₅⟩

/-! ## The service -/

theorem handler_coupled (h : Beside X s₀ t₀ s t) (r : Request) (hr : r.organizationId = some X) :
    Coupled (fun i => i.Unused env X s₀ ∧ i.Unused env X t₀) (Isolated X s₀ t₀) (handler env r) s
      (handler env r) t := by
  have hfail : ∀ e, Isolated X s₀ t₀ (.error e) s (.error e) t := fun e => Same.isolated ⟨rfl, h⟩
  have hmap : ∀ {β : Type} {g : β → Response} {p : Handler β}, Coupled
      (fun i => i.Unused env X s₀ ∧ i.Unused env X t₀) (Same X s₀ t₀) p s p t →
      Coupled (fun i => i.Unused env X s₀ ∧ i.Unused env X t₀) (Isolated X s₀ t₀) (g <$> p) s
        (g <$> p) t := by
    intro β g p hp
    refine Coupled.map (hp.mono ?_)
    rintro r s' _ t' ⟨rfl, h'⟩
    exact Same.isolated ⟨rfl, h'⟩
  -- the guard resolves the context, and the operation goes on from a membership of the organization
  cases r with
  | createOrganization user name => cases hr
  | acceptInvitation user token => cases hr
  | getOrganization organizationId userId =>
    obtain rfl : organizationId = X := Option.some.inj hr
    exact canActivate_coupled h hfail fun context _ _ => Coupled.pure (Same.isolated ⟨rfl, h⟩)
  | updateOrganization organizationId userId name =>
    obtain rfl : organizationId = X := Option.some.inj hr
    exact canActivate_coupled h hfail fun context hid _ => hmap (updateOrganization_coupled h hid name)
  | deleteOrganization organizationId userId =>
    obtain rfl : organizationId = X := Option.some.inj hr
    exact canActivate_coupled h hfail fun context hid _ => hmap (deleteOrganization_coupled h hid)
  | createInvitation organizationId userId dto =>
    obtain rfl : organizationId = X := Option.some.inj hr
    exact canActivate_coupled h hfail fun context hid _ => createInvitation_coupled h hid dto
  | resendInvitation organizationId userId invitationId =>
    obtain rfl : organizationId = X := Option.some.inj hr
    exact canActivate_coupled h hfail fun context hid _ =>
      hmap (resendInvitation_coupled h hid invitationId)
  | revokeInvitation organizationId userId invitationId =>
    obtain rfl : organizationId = X := Option.some.inj hr
    exact canActivate_coupled h hfail fun context hid _ =>
      hmap (revokeInvitation_coupled h hid invitationId)
  | updateMemberRole organizationId userId membershipId role =>
    obtain rfl : organizationId = X := Option.some.inj hr
    exact canActivate_coupled h hfail fun context hid _ =>
      hmap (updateMemberRole_coupled h hid membershipId role)
  | removeMember organizationId userId membershipId =>
    obtain rfl : organizationId = X := Option.some.inj hr
    exact canActivate_coupled h hfail fun context hid _ =>
      hmap (removeMember_coupled h hid membershipId)
  | leaveOrganization organizationId userId =>
    obtain rfl : organizationId = X := Option.some.inj hr
    exact canActivate_coupled h hfail fun context _ hown => hmap (leaveOrganization_coupled h hown)
  | transferOwnership organizationId userId membershipId =>
    obtain rfl : organizationId = X := Option.some.inj hr
    exact canActivate_coupled h hfail fun context hid hown =>
      hmap (transferOwnership_coupled h hid hown membershipId)

/-- A request run to its end, with no other one in between. -/
def Request.run (env : Environment) (inputs : Nat → Input) (r : Request) (s : Store) :
    Except Failure Response × World := (handler env r).alone 0 inputs ⟨s, []⟩

variable {inputs : Nat → Input}

theorem Request.run_untouched (hs : Consistent s) {r : Request} (hr : r.organizationId = some X) :
    Untouched X s (r.run env inputs s).2.store := by
  have hends : Ends (Drawn inputs) 0 (fun _ => PerformedIn env inputs 0 ⟨s, []⟩ r) (handler env r)
      ⟨s, []⟩ := by
    refine handler_ends r fun hnone => ?_
    rw [hr] at hnone
    cases hnone
  obtain ⟨es, -, hperformed⟩ := hends.alone fun n => ⟨n, rfl⟩
  exact hperformed.untouched hr hs

theorem Request.run_sameUpToId (hs : Consistent s) (ht : Consistent t) (h : Agree X s t)
    {r : Request} (hr : r.organizationId = some X) (hunused : ∀ n, (inputs n).Unused env X s)
    (hunused' : ∀ n, (inputs n).Unused env X t) :
    SameUpToId s t (r.run env inputs s).1 (r.run env inputs t).1 := by
  have hbeside : Beside X s t s t := ⟨h, .refl hs X, .refl ht X⟩
  have hrun : Isolated X s t (r.run env inputs s).1 (r.run env inputs s).2.store
      (r.run env inputs t).1 (r.run env inputs t).2.store :=
    Coupled.alone (fun n => ⟨hunused n, hunused' n⟩) (handler_coupled hbeside r hr)
  exact hrun.2.2

end Requests

end ShipFlow.Organizations
