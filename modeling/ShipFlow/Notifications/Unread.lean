import ShipFlow.Notifications.CursorWalk

/-! Unread notifications: their count, their pages, and what marking them as read does. -/

namespace ShipFlow.Notifications
open Interleaving Relational

/-- A write, if the operation is one, is made by the given time. -/
def Operation.Before (cutoff : Time) : Operation → Prop
  | .write now _ => now ≤ cutoff
  | _ => True

section Unread
variable {p : Platform} {now cutoff : Time} {userId : Id} {organizationId : Option Id} {s : Store}

theorem notificationCreatedAt_le (createdAt : Option Time) (now : Time) :
    notificationCreatedAt createdAt now ≤ now := by
  unfold notificationCreatedAt
  split
  · split
    · assumption
    · exact le_rfl
  · exact le_rfl

theorem activeWhere_iff {n : StoredNotification} : activeWhere now userId organizationId n = true ↔
    n.userId = userId ∧ (∀ id ∈ organizationId, n.organizationId = some id) ∧ n.createdAt ≤ now ∧
      now < n.expiresAt := by
  cases organizationId with
  | none => simp [activeWhere, and_assoc]
  | some id => simp [activeWhere, and_assoc]

/-- What has been written by some time has begun by then. -/
theorem operate_before (h : Healthy s) (hs : ∀ n ∈ s.notifications, n.createdAt ≤ cutoff)
    {operations : List Operation} (hdated : ∀ operation ∈ operations, operation.Dated)
    (hbefore : ∀ operation ∈ operations, operation.Before cutoff) :
    ∀ n ∈ (operate s operations).notifications, n.createdAt ≤ cutoff := by
  induction operations generalizing s with
  | nil => exact hs
  | cons operation operations ih =>
    obtain ⟨hstep, hsteps⟩ := run_steps h (hdated operation List.mem_cons_self)
    refine ih hstep (fun n' hn' => ?_) (fun o ho => hdated o (List.mem_cons_of_mem operation ho))
      fun o ho => hbefore o (List.mem_cons_of_mem operation ho)
    rcases hsteps.rows n' hn' with ⟨n, hn, hkept⟩ | ⟨now, input, rfl, rfl⟩
    · rw [hkept.createdAt_eq]
      exact hs n hn
    · exact (notificationCreatedAt_le input.createdAt now).trans
        (hbefore (.write now input) List.mem_cons_self)

/-- What `markAllRead` selects is what `unreadCount` counts. -/
theorem markAllRead_selects (n : StoredNotification) :
    (n.userId == userId && organizationId.all (fun id => n.organizationId == some id) &&
      n.readAt.isNone && cutoff < n.expiresAt && n.createdAt ≤ cutoff) =
      (activeWhere cutoff userId organizationId n && n.readAt.isNone) := by
  rw [Bool.eq_iff_iff]
  simp only [activeWhere, Bool.and_eq_true]
  tauto

theorem marked_healthy (h : Healthy s) :
    let s' := notifications.put (updateRows
      (fun n => activeWhere cutoff userId organizationId n && n.readAt.isNone)
      (fun n => { n with readAt := some cutoff }) s.notifications) s
    Healthy s' ∧ Steps (.markAllRead cutoff userId organizationId) s s' := by
  refine h.update _ fun n _ hn => ⟨rfl, .inl rfl, fun t ht => ?_⟩
  rw [Bool.and_eq_true, Option.isNone_iff_eq_none] at hn
  rw [hn.2] at ht
  cases ht

theorem markAllRead_ok (h : Healthy s) : markAllRead cutoff userId organizationId s = .ok
    (unreadCount cutoff userId organizationId s, notifications.put (updateRows
      (fun n => activeWhere cutoff userId organizationId n && n.readAt.isNone)
      (fun n => { n with readAt := some cutoff }) s.notifications) s) := by
  refine Table.updateMany_ok.mpr ?_
  rw [funext (@markAllRead_selects cutoff userId organizationId)]
  exact ⟨(marked_healthy h).1.sound, rfl, rfl⟩

/-- Marking all notifications as read marks as many as were counted unread, and none of
another user. Afterwards, whatever happens, only a notification that is written later can be
unread. -/
theorem mark_all_read (earlier later : List Operation) (cutoff now : Time) (userId : Id)
    (organizationId : Option Id) (hdated : ∀ operation ∈ earlier ++ later, operation.Dated)
    (hbefore : ∀ operation ∈ earlier, operation.Before cutoff) (hnow : cutoff ≤ now) :
    ∃ s', markAllRead cutoff userId organizationId (operate .empty earlier) =
        .ok (unreadCount cutoff userId organizationId (operate .empty earlier), s') ∧
      s'.notifications.filter (fun n => n.userId != userId) =
        (operate .empty earlier).notifications.filter (fun n => n.userId != userId) ∧
      ∀ n ∈ (operate s' later).notifications,
        activeWhere now userId organizationId n = true → n.readAt = none →
        ∀ m ∈ (operate .empty earlier).notifications, m.id ≠ n.id := by
  have hearlier : ∀ o ∈ earlier, o.Dated := fun o ho => hdated o (List.mem_append_left _ ho)
  have hlater : ∀ o ∈ later, o.Dated := fun o ho => hdated o (List.mem_append_right _ ho)
  have h := (operate_since healthy_empty hearlier).1
  have hcreated : ∀ n ∈ (operate .empty earlier).notifications, n.createdAt ≤ cutoff :=
    operate_before healthy_empty (fun n hn => absurd hn List.not_mem_nil) hearlier hbefore
  generalize operate .empty earlier = s at h hcreated
  obtain ⟨hmarked, hsteps⟩ := @marked_healthy cutoff userId organizationId _ h
  refine ⟨_, markAllRead_ok h, ?_, ?_⟩
  · refine filter_updateRows_off _ fun n _ hn => ?_
    simp only [activeWhere, Bool.and_eq_true, beq_iff_eq] at hn
    simp [hn.1.1.1.1]
  · intro n hn hactive hunread m hm hid
    have hlt : n.id < s.nextId := hid ▸ h.keyed.1 m hm
    obtain ⟨n₁, hn₁, hkept⟩ := (operate_since hmarked hlater).2.kept n hn hlt
    have hunread₁ : n₁.readAt = none := by
      cases hread : n₁.readAt with
      | none => rfl
      | some t =>
        have := hkept.read t hread
        rw [hunread] at this
        cases this
    rcases mem_updateRows.mp hn₁ with ⟨hn₁, hunmarked⟩ | ⟨r, -, -, rfl⟩
    · -- it was there and active, so it was marked
      have hmarked : activeWhere cutoff userId organizationId n₁ = true := by
        rw [activeWhere_iff] at hactive ⊢
        obtain ⟨huser, horganization, -, hexpires⟩ := hactive
        have hsame := hkept.same
        refine ⟨?_, fun id hidOrg => ?_, hcreated n₁ hn₁, ?_⟩
        · rw [← huser, hsame]
        · have hn := horganization id hidOrg
          rcases hkept.organization with heq | hnone
          · rw [← heq, hn]
          · rw [hnone] at hn
            cases hn
        · rw [hsame] at hexpires
          exact hnow.trans_lt hexpires
      rw [hmarked, hunread₁] at hunmarked
      cases hunmarked
    · cases hunread₁

theorem moments_replicate (query : NotificationListQueryDto) (n : Nat) :
    moments userId query s (List.replicate n ([], now)) =
      List.replicate n (s.notifications.filter (matching now userId query)) := by
  induction n with
  | zero => rfl
  | succ n ih => exact congrArg (_ :: ·) ih

/-- The unread notifications that a client gets page by page are as many as it is told that
there are, for every size of the pages. -/
theorem unread_walk (p : Platform) (earlier : List Operation) (now : Time) (userId : Id)
    (organizationId : Option Id) (limit pages : Nat) (hlimit : 0 < limit)
    (hp : p.Sound (operate .empty earlier).nextId)
    (hdated : ∀ operation ∈ earlier, operation.Dated)
    (henough : unreadCount now userId organizationId (operate .empty earlier) ≤ (pages + 1) * limit) :
    ∃ visits, follow p userId ⟨limit, none, true, organizationId⟩ none (operate .empty earlier)
        (List.replicate (pages + 1) ([], now)) = .ok visits ∧
      (∃ v ∈ visits, v.response.nextCursor = none) ∧
      (visits.flatMap fun v => v.response.items).length =
        unreadCount now userId organizationId (operate .empty earlier) := by
  have h := (operate_since healthy_empty hdated).1
  generalize operate .empty earlier = s at hp h henough
  have hquiet : (List.replicate (pages + 1) (([] : List Operation), now)).flatMap Prod.fst = [] :=
    List.flatMap_eq_nil_iff.mpr fun round hround => by rw [List.eq_of_mem_replicate hround]
  obtain ⟨visits, hvisits, hwalks⟩ := @follow_spec p userId ⟨limit, none, true, organizationId⟩ s
    (List.replicate (pages + 1) ([], now)) _ hp h
    (fun o ho => absurd (hquiet ▸ ho) List.not_mem_nil) (by rw [hquiet]; exact le_rfl) none none rfl
  rw [moments_replicate, Option.map_none] at hwalks
  have hkeys := position_nodup hp h le_rfl (matching now userId ⟨limit, none, true, organizationId⟩)
  have hbelow : (Keyset.below (position p) none
      (s.notifications.filter (matching now userId ⟨limit, none, true, organizationId⟩))).length =
      unreadCount now userId organizationId s := by
    rw [Keyset.length_below_none, ← List.countP_eq_length_filter]
    rfl
  have hend := Keyset.walk_replicate_ends hkeys (hbelow ▸ henough)
  refine ⟨visits, hvisits, hwalks.ended.mpr hend, ?_⟩
  rw [hwalks.items, List.length_map, Keyset.walk_replicate hlimit hkeys hend, hbelow]

end Unread

/-! Three notices of which one has been read. -/

def oneRead : List Operation := threeNotices ++ [.markRead 2500 7 1]

theorem oneRead_dated : ∀ operation ∈ oneRead, operation.Dated := by
  simp [oneRead, threeNotices, Operation.Dated, IsDate, securityNotice]

theorem mark_all_read_later :
    unreadCount 3000 7 none (operate .empty oneRead) = 2 ∧
    ∃ s', markAllRead 3000 7 none (operate .empty oneRead) = .ok (2, s') ∧
      ∀ n ∈ (operate s' [.write 4000 (securityNotice "d")]).notifications,
        activeWhere 5000 7 none n = true → n.readAt = none →
        ∀ m ∈ (operate .empty oneRead).notifications, m.id ≠ n.id := by
  have hcount : unreadCount 3000 7 none (operate .empty oneRead) = 2 := by decide +kernel
  have hdated : ∀ operation ∈ oneRead ++ [.write 4000 (securityNotice "d")], operation.Dated := by
    intro o ho
    rcases List.mem_append.mp ho with ho | ho
    · exact oneRead_dated o ho
    · rw [List.mem_singleton.mp ho]
      simp [Operation.Dated, IsDate, securityNotice]
  obtain ⟨s', hmark, -, hlater⟩ := mark_all_read oneRead [.write 4000 (securityNotice "d")] 3000 5000
    7 none hdated (by simp [oneRead, threeNotices, Operation.Before]) (by decide)
  rw [hcount] at hmark
  exact ⟨hcount, s', hmark, hlater⟩

theorem unread_walk_two_pages :
    ∃ visits, follow groupedPlatform 7 ⟨1, none, true, none⟩ none (operate .empty oneRead)
        (List.replicate 2 ([], 3000)) = .ok visits ∧
      (∃ v ∈ visits, v.response.nextCursor = none) ∧
      (visits.flatMap fun v => v.response.items).length = 2 := by
  have hcount : unreadCount 3000 7 none (operate .empty oneRead) = 2 := by decide +kernel
  have hgiven : (operate .empty oneRead).nextId = 3 := by decide +kernel
  have hsound : groupedPlatform.Sound (operate .empty oneRead).nextId := by
    rw [hgiven]
    exact ⟨by decide, by decide, by decide +kernel⟩
  have hwalk := unread_walk groupedPlatform oneRead 3000 7 none 1 1 (by decide) hsound oneRead_dated
    (by rw [hcount])
  rwa [hcount] at hwalk

end ShipFlow.Notifications
