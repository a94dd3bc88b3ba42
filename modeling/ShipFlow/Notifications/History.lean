import ShipFlow.Notifications.NotificationsService

/-! What happens to the notifications of a store over its history. -/

namespace ShipFlow.Notifications
open Interleaving Relational

inductive Operation where
  | write (now : Time) (input : WriteNotificationInput)
  | markRead (now : Time) (userId notificationId : Id)
  | markAllRead (cutoff : Time) (userId : Id) (organizationId : Option Id)
  | updatePreferences (userId : Id) (organizationEnabled : Bool)
  | prune (now : Time)
  /-- The database deletes the notifications of a user with the user. -/
  | deleteUser (userId : Id)
  /-- The notifications of a deleted organization stay without it. -/
  | deleteOrganization (organizationId : Id)

def deleteUser (userId : Id) : Transaction Store Failure Nat :=
  notifications.deleteMany fun n => n.userId == userId

def deleteOrganization (organizationId : Id) : Transaction Store Failure Nat :=
  notifications.updateMany (fun n => n.organizationId == some organizationId) fun n =>
    { n with organizationId := none }

/-- The store after a transaction; one that fails leaves it as it was. -/
def committed {α : Type} (m : Transaction Store Failure α) (s : Store) : Store :=
  match m s with
  | .ok (_, s') => s'
  | .error _ => s

def run : Operation → Store → Store
  | .write now input => committed (writeNotification now input)
  | .markRead now userId notificationId => committed (markRead now userId notificationId)
  | .markAllRead cutoff userId organizationId => committed (markAllRead cutoff userId organizationId)
  | .updatePreferences userId enabled => committed (updatePreferences userId enabled)
  | .prune now => committed (prune now)
  | .deleteUser userId => committed (deleteUser userId)
  | .deleteOrganization organizationId => committed (deleteOrganization organizationId)

def operate (s : Store) (operations : List Operation) : Store :=
  operations.foldl (fun s operation => run operation s) s

/-- The clock and the time an input asks for are dates. -/
def Operation.Dated : Operation → Prop
  | .write now input => IsDate now ∧ ∀ t ∈ input.createdAt, IsDate t
  | _ => True

/-- The notification that a write adds. -/
def written (now : Time) (input : WriteNotificationInput) (id : Id) : StoredNotification where
  id := id
  userId := input.userId
  organizationId := input.organizationId
  category := input.category
  type := input.type
  title := input.title
  message := input.message
  actionPath := input.actionPath
  metadata := input.metadata
  dedupeKey := input.dedupeKey
  createdAt := notificationCreatedAt input.createdAt now
  expiresAt := notificationCreatedAt input.createdAt now + days NOTIFICATION_RETENTION_DAYS
  readAt := none

/-- A notification and what became of it. -/
structure Kept (n n' : StoredNotification) : Prop where
  same : n'.toNotification = { n.toNotification with organizationId := n'.organizationId }
  organization : n'.organizationId = n.organizationId ∨ n'.organizationId = none
  read : ∀ t ∈ n.readAt, n'.readAt = some t

structure Since (s s' : Store) : Prop where
  ids : s.nextId ≤ s'.nextId
  kept : ∀ n' ∈ s'.notifications, n'.id < s.nextId → ∃ n ∈ s.notifications, Kept n n'

/-- What one operation makes of the notifications: it keeps them, leaves some out and adds the
one that it writes. -/
structure Steps (operation : Operation) (s s' : Store) : Prop where
  ids : s.nextId ≤ s'.nextId
  rows : ∀ n' ∈ s'.notifications, (∃ n ∈ s.notifications, Kept n n') ∨
    ∃ now input, operation = .write now input ∧ n' = written now input s.nextId

structure Healthy (s : Store) : Prop where
  keyed : Keyed s.nextId (fun n => n.id) s.notifications
  sound : notifications.sound s s.notifications = true
  dated : ∀ n ∈ s.notifications, IsDate n.createdAt

section Kept
variable {n n' n'' : StoredNotification} {s s' s'' : Store}

theorem Kept.refl (n : StoredNotification) : Kept n n := ⟨rfl, .inl rfl, fun _ ht => ht⟩

theorem Kept.id_eq (h : Kept n n') : n'.id = n.id := by
  rw [h.same]

theorem Kept.createdAt_eq (h : Kept n n') : n'.createdAt = n.createdAt := by
  rw [h.same]

theorem Kept.trans (h : Kept n n') (h' : Kept n' n'') : Kept n n'' := by
  refine ⟨?_, ?_, fun t ht => h'.read t (h.read t ht)⟩
  · rw [h'.same, h.same]
  · rcases h'.organization with h' | h'
    · exact h'.symm ▸ h.organization
    · exact .inr h'

theorem Since.refl (s : Store) : Since s s := ⟨le_rfl, fun n hn _ => ⟨n, hn, .refl n⟩⟩

theorem Steps.refl (operation : Operation) (s : Store) : Steps operation s s :=
  ⟨le_rfl, fun n hn => .inl ⟨n, hn, .refl n⟩⟩

theorem Steps.since {operation : Operation} (h : Steps operation s s') : Since s s' := by
  refine ⟨h.ids, fun n' hn' hlt => ?_⟩
  rcases h.rows n' hn' with hkept | ⟨now, input, -, rfl⟩
  · exact hkept
  · exact absurd hlt (Nat.lt_irrefl s.nextId)

theorem Since.trans (h : Since s s') (h' : Since s' s'') : Since s s'' := by
  refine ⟨h.ids.trans h'.ids, fun n'' hn'' hlt => ?_⟩
  obtain ⟨n', hn', hkept'⟩ := h'.kept n'' hn'' (hlt.trans_le h.ids)
  obtain ⟨n, hn, hkept⟩ := h.kept n' hn' (hkept'.id_eq ▸ hlt)
  exact ⟨n, hn, hkept.trans hkept'⟩

end Kept

/-! ## Operations -/

section Step
variable {s s' : Store} {p : StoredNotification → Bool} {f : StoredNotification → StoredNotification}

theorem healthy_empty : Healthy Store.empty :=
  ⟨⟨fun _ hn => absurd hn List.not_mem_nil, List.nodup_nil⟩, rfl,
    fun _ hn => absurd hn List.not_mem_nil⟩

/-- Updates that keep the notifications. -/
theorem Healthy.update (operation : Operation) (h : Healthy s)
    (hf : ∀ n ∈ s.notifications, p n = true → Kept n (f n)) :
    Healthy (notifications.put (updateRows p f s.notifications) s) ∧
      Steps operation s (notifications.put (updateRows p f s.notifications) s) := by
  have hall : ∀ n ∈ s.notifications, Kept n (if p n then f n else n) := fun n hn => by
    cases hp : p n with
    | true => exact hf n hn hp
    | false => exact .refl n
  -- every row after the update is one from before, as far as it is kept
  have hmem : ∀ n' ∈ updateRows p f s.notifications, ∃ n ∈ s.notifications, Kept n n' := by
    intro n' hn'
    obtain ⟨n, hn, rfl⟩ := List.mem_map.mp hn'
    exact ⟨n, hn, hall n hn⟩
  refine ⟨⟨⟨?_, ?_⟩, ?_, ?_⟩, le_rfl, fun n' hn' => .inl (hmem n' hn')⟩
  · intro n' hn'
    obtain ⟨n, hn, hkept⟩ := hmem n' hn'
    change n'.id < s.nextId
    rw [hkept.id_eq]
    exact h.keyed.1 n hn
  · have hmap : (updateRows p f s.notifications).map (fun n => n.id) =
        s.notifications.map fun n => n.id := by
      rw [updateRows, List.map_map]
      exact List.map_congr_left fun n hn => (hall n hn).id_eq
    exact hmap.symm ▸ h.keyed.2
  · have hsound := h.sound
    simp only [Table.sound, notifications, List.all_eq_true, Bool.and_eq_true, distinct_iff_pairwise,
      implies_true, true_and] at hsound ⊢
    refine List.pairwise_map.mpr (hsound.imp_of_mem fun {a b} ha hb hab => ?_)
    rw [(hall a ha).same, (hall b hb).same]
    exact hab
  · intro n' hn'
    obtain ⟨n, hn, hkept⟩ := hmem n' hn'
    exact hkept.createdAt_eq ▸ h.dated n hn

theorem Healthy.filter (operation : Operation) (h : Healthy s) (q : StoredNotification → Bool) :
    Healthy (notifications.put (s.notifications.filter q) s) ∧
      Steps operation s (notifications.put (s.notifications.filter q) s) := by
  have hsound := h.sound
  simp only [Table.sound, notifications, List.all_eq_true, Bool.and_eq_true, distinct_iff_pairwise,
    implies_true, true_and] at hsound
  refine ⟨⟨h.keyed.filter q, ?_, fun n hn => h.dated n (List.mem_of_mem_filter hn)⟩, le_rfl,
    fun n hn => .inl ⟨n, List.mem_of_mem_filter hn, .refl n⟩⟩
  simp only [Table.sound, notifications, List.all_eq_true, Bool.and_eq_true, distinct_iff_pairwise,
    implies_true, true_and]
  exact hsound.filter q

theorem readAt_eq (h : Healthy s) {n : StoredNotification} (hn : n ∈ s.notifications) :
    s.readAt n.id = n.readAt := by
  have hfind : s.notifications.find? (fun m => m.id == n.id) = some n := by
    obtain ⟨m, hm⟩ : ∃ m, s.notifications.find? (fun m => m.id == n.id) = some m :=
      Option.isSome_iff_exists.mp (List.find?_isSome.mpr ⟨n, hn, beq_self_eq_true n.id⟩)
    have hid : m.id = n.id := by simpa using List.find?_some hm
    rw [hm, h.keyed.inj (List.mem_of_find?_eq_some hm) hn hid]
  rw [Store.readAt, hfind]
  rfl

theorem readAt_new (h : Healthy s) : s.readAt s.nextId = none := by
  have hnone : s.notifications.find? (fun m => m.id == s.nextId) = none := by
    refine List.find?_eq_none.mpr fun m hm heq => ?_
    have hlt : m.id < s.nextId := h.keyed.1 m hm
    have hid : m.id = s.nextId := by simpa using heq
    exact Nat.ne_of_lt hlt hid
  rw [Store.readAt, hnone]
  rfl

/-- The rows of the writer with their read marks are the rows of the store. -/
theorem rows_readAt (h : Healthy s) :
    (s.notifications.map StoredNotification.toNotification).map
      (fun n => ({ n with readAt := s.readAt n.id } : StoredNotification)) = s.notifications := by
  rw [List.map_map]
  conv_rhs => rw [← List.map_id s.notifications]
  refine List.map_congr_left fun n hn => ?_
  change ({ n.toNotification with readAt := s.readAt n.id } : StoredNotification) = n
  rw [readAt_eq h hn]

/-- A write leaves the notifications as they were or adds one. -/
theorem writeNotification_rows (h : Healthy s) {now : Time} {input : WriteNotificationInput}
    {u : Unit} (hwrite : writeNotification now input s = .ok (u, s')) :
    (s'.notifications = s.notifications ∧ s.nextId ≤ s'.nextId) ∨
      (s'.notifications = s.notifications ++ [written now input s.nextId] ∧
        s'.nextId = s.nextId + 1 ∧
        notifications.sound s (s.notifications ++ [written now input s.nextId]) = true) := by
  simp only [writeNotification, Transaction.bind_ok, Transaction.reads_ok] at hwrite
  obtain ⟨disabled, s₁, ⟨-, hs⟩, hwrite⟩ := hwrite
  subst s₁
  cases disabled with
  | true =>
    simp only [if_true, Transaction.pure_ok] at hwrite
    exact .inl ⟨by rw [hwrite.2], by rw [hwrite.2]⟩
  | false =>
    simp only [Bool.false_eq_true, if_false, Transaction.bind_ok, Transaction.pure_ok] at hwrite
    obtain ⟨id, _, hid, _, s₂, hup, -, rfl⟩ := hwrite
    obtain ⟨rfl, rfl⟩ := uuidv7_ok.mp hid
    rcases Table.upsert_ok.mp hup with ⟨-, hsound, -, rfl⟩ | ⟨_, -, -, -, rfl⟩
    · have hpairwise : ((s.notifications.map StoredNotification.toNotification) ++
          [(written now input s.nextId).toNotification]).Pairwise
          fun a b => Notification.collides a b = false := Table.sound.pairwise hsound
      refine .inr ⟨?_, rfl, ?_⟩
      · have hnew : ({ (written now input s.nextId).toNotification with
            readAt := s.readAt s.nextId } : StoredNotification) = written now input s.nextId := by
          rw [readAt_new h]
          rfl
        change ((s.notifications.map StoredNotification.toNotification) ++
          [(written now input s.nextId).toNotification]).map
            (fun n => ({ n with readAt := s.readAt n.id } : StoredNotification)) = _
        rw [List.map_append, rows_readAt h]
        exact congrArg (fun n => s.notifications ++ [n]) hnew
      · simp only [Table.sound, notifications, List.all_eq_true, Bool.and_eq_true,
          distinct_iff_pairwise, implies_true, true_and]
        rwa [← List.map_singleton, ← List.map_append, List.pairwise_map] at hpairwise
    · refine .inl ⟨?_, Nat.le_succ _⟩
      -- the row that is found is written back unchanged
      have hsame : updateRows (fun n => n.userId == input.userId && n.dedupeKey == input.dedupeKey)
          (fun n => n) (s.notifications.map StoredNotification.toNotification) =
          s.notifications.map StoredNotification.toNotification := by
        simp [updateRows]
      change (updateRows _ (fun n => n) (s.notifications.map StoredNotification.toNotification)).map
        (fun n => ({ n with readAt := s.readAt n.id } : StoredNotification)) = _
      rw [hsame, rows_readAt h]

theorem run_steps (h : Healthy s) {operation : Operation} (hdated : operation.Dated) :
    Healthy (run operation s) ∧ Steps operation s (run operation s) := by
  -- a transaction that fails leaves the store as it is
  have hcommitted {α : Type} {m : Transaction Store Failure α}
      (hm : ∀ a s', m s = .ok (a, s') → Healthy s' ∧ Steps operation s s') :
      Healthy (committed m s) ∧ Steps operation s (committed m s) := by
    unfold committed
    split
    · next a s' hok => exact hm a s' hok
    · exact ⟨h, .refl _ s⟩
  cases operation with
  | write now input =>
    refine hcommitted fun u s' hok => ?_
    rcases writeNotification_rows h hok with ⟨hrows, hids⟩ | ⟨hrows, hids, hsound⟩
    · refine ⟨⟨hrows ▸ h.keyed.mono hids, hrows ▸ h.sound, hrows ▸ h.dated⟩, hids, ?_⟩
      rw [hrows]
      exact fun n hn => .inl ⟨n, hn, .refl n⟩
    · refine ⟨⟨?_, hrows ▸ hsound, ?_⟩, hids ▸ Nat.le_succ _, ?_⟩
      · rw [hrows, hids]
        exact h.keyed.concat (Nat.le_refl _) (Nat.lt_succ_self _)
      · rw [hrows]
        intro n hn
        rcases List.mem_append.mp hn with hn | hn
        · exact h.dated n hn
        · rw [List.mem_singleton.mp hn]
          change IsDate (notificationCreatedAt input.createdAt now)
          unfold notificationCreatedAt
          split
          · next t ht =>
            split
            · exact hdated.2 t ht
            · exact hdated.1
          · exact hdated.1
      · rw [hrows]
        intro n hn
        rcases List.mem_append.mp hn with hn | hn
        · exact .inl ⟨n, hn, .refl n⟩
        · exact .inr ⟨now, input, rfl, List.mem_singleton.mp hn⟩
  | markRead now userId notificationId =>
    refine hcommitted fun a s' hok => ?_
    simp only [markRead, Transaction.bind_ok, Table.findFirst_ok] at hok
    obtain ⟨found, s₁, ⟨hfound, hs⟩, hok⟩ := hok
    subst s₁
    cases found with
    | none => exact absurd hok (by simp)
    | some notification =>
      cases hread : notification.readAt.isSome with
      | true =>
        simp only [hread, if_true, Transaction.pure_ok] at hok
        rw [hok.2]
        exact ⟨h, .refl _ s⟩
      | false =>
        simp only [hread, Bool.false_eq_true, if_false, Transaction.bind_ok, Table.update_ok,
          Transaction.pure_ok] at hok
        obtain ⟨_, s₂, ⟨-, -, -, -, rfl⟩, -, rfl⟩ := hok
        have hmem := List.mem_of_find?_eq_some hfound.symm
        refine h.update _ fun n hn hid => ⟨rfl, .inl rfl, fun t ht => ?_⟩
        have hunread : notification.readAt = none := by simpa using hread
        rw [h.keyed.inj hn hmem (eq_of_beq hid), hunread] at ht
        cases ht
  | markAllRead cutoff userId organizationId =>
    refine hcommitted fun a s' hok => ?_
    simp only [markAllRead, Table.updateMany_ok] at hok
    rw [hok.2.2]
    refine h.update _ fun n _ hn => ⟨rfl, .inl rfl, fun t ht => ?_⟩
    simp only [Bool.and_eq_true, Option.isNone_iff_eq_none] at hn
    rw [hn.1.1.2] at ht
    cases ht
  | updatePreferences userId enabled =>
    refine hcommitted fun a s' hok => ?_
    simp only [updatePreferences, Transaction.bind_ok, Transaction.pure_ok] at hok
    obtain ⟨_, s₁, hup, -, rfl⟩ := hok
    rcases Table.upsert_ok.mp hup with ⟨-, -, -, rfl⟩ | ⟨_, -, -, -, rfl⟩
    · exact ⟨⟨h.keyed, h.sound, h.dated⟩, le_rfl, fun n hn => .inl ⟨n, hn, .refl n⟩⟩
    · exact ⟨⟨h.keyed, h.sound, h.dated⟩, le_rfl, fun n hn => .inl ⟨n, hn, .refl n⟩⟩
  | prune now =>
    refine @hcommitted _ (prune now) fun a s' hok => ?_
    rw [(Table.deleteMany_ok.mp hok).2]
    exact h.filter _ _
  | deleteUser userId =>
    refine @hcommitted _ (deleteUser userId) fun a s' hok => ?_
    rw [(Table.deleteMany_ok.mp hok).2]
    exact h.filter _ _
  | deleteOrganization organizationId =>
    refine @hcommitted _ (deleteOrganization organizationId) fun a s' hok => ?_
    rw [(Table.updateMany_ok.mp hok).2.2]
    exact h.update _ fun n _ _ => ⟨rfl, .inr rfl, fun t ht => ht⟩

theorem operate_since (h : Healthy s) {operations : List Operation}
    (hdated : ∀ operation ∈ operations, operation.Dated) :
    Healthy (operate s operations) ∧ Since s (operate s operations) := by
  induction operations generalizing s with
  | nil => exact ⟨h, .refl s⟩
  | cons operation operations ih =>
    obtain ⟨hstep, hsteps⟩ := run_steps h (hdated operation List.mem_cons_self)
    obtain ⟨hrest, hsince'⟩ := ih hstep fun o ho => hdated o (List.mem_cons_of_mem operation ho)
    exact ⟨hrest, hsteps.since.trans hsince'⟩

theorem Healthy.distinct (h : Healthy s) : s.notifications.Pairwise fun a b =>
    ¬ (a.userId = b.userId ∧ a.dedupeKey = b.dedupeKey) := by
  have hpairwise := Table.sound.pairwise h.sound
  refine hpairwise.imp fun {a b} hab hsame => ?_
  simp only [notifications, Notification.collides, hsame.1, hsame.2, beq_self_eq_true, Bool.and_self,
    Bool.or_true, Bool.true_eq_false] at hab

theorem operate_append (s : Store) (operations operations' : List Operation) :
    operate s (operations ++ operations') = operate (operate s operations) operations' :=
  List.foldl_append

/-- A notification is written once. Over every history there is at most one of a user and a
deduplication key; writing it again changes nothing; and as long as it is there its text, its
time and its read mark stay, and at most it loses its organization. -/
theorem notifications_written_once (earlier later : List Operation)
    (hdated : ∀ operation ∈ earlier ++ later, operation.Dated) :
    (∀ n ∈ (operate .empty earlier).notifications,
      ∀ n' ∈ (operate .empty (earlier ++ later)).notifications, n'.id = n.id → Kept n n') ∧
    ((operate .empty earlier).notifications.Pairwise fun a b =>
      ¬ (a.userId = b.userId ∧ a.dedupeKey = b.dedupeKey)) ∧
    ∀ now input, (∃ n ∈ (operate .empty earlier).notifications,
        n.userId = input.userId ∧ n.dedupeKey = input.dedupeKey) →
      (run (.write now input) (operate .empty earlier)).notifications =
        (operate .empty earlier).notifications := by
  have h := (operate_since healthy_empty fun o ho => hdated o (List.mem_append_left _ ho)).1
  rw [operate_append]
  generalize operate .empty earlier = s at h
  refine ⟨fun n hn n' hn' hid => ?_, h.distinct, fun now input hthere => ?_⟩
  · obtain ⟨-, hsince⟩ := operate_since h fun o ho => hdated o (List.mem_append_right _ ho)
    obtain ⟨m, hm, hkept⟩ := hsince.kept n' hn' (hid ▸ h.keyed.1 n hn)
    rwa [h.keyed.inj hn hm (hid.symm.trans hkept.id_eq)]
  · obtain ⟨n, hn, huser, hkey⟩ := hthere
    rw [run, committed]
    split
    · next u s' hwrite =>
      rcases writeNotification_rows h hwrite with ⟨hrows, -⟩ | ⟨-, -, hsound⟩
      · exact hrows
      · -- the unique index does not let a second one in
        have hfree := (Table.sound_append.mp hsound).2.2 n hn _ (List.mem_singleton_self _)
        simp [notifications, Notification.collides, written, huser, hkey] at hfree
    · rfl

end Step

theorem notifications_written_once_read :
    let notice : WriteNotificationInput :=
      ⟨7, none, .security, .passwordChanged, "Password changed", "", none, [], "a", none⟩
    (run (.write 3000 notice) (operate .empty [.write 1000 notice, .markRead 2000 7 0])).notifications =
      [{ written 1000 notice 0 with readAt := some 2000 }] := by
  intro notice
  obtain ⟨-, -, hagain⟩ := notifications_written_once [.write 1000 notice, .markRead 2000 7 0] []
    (by simp [Operation.Dated, IsDate, notice])
  rw [hagain 3000 notice ⟨{ written 1000 notice 0 with readAt := some 2000 }, by decide, rfl, rfl⟩]
  rfl

end ShipFlow.Notifications
