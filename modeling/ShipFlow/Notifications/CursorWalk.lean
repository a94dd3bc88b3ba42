import ShipFlow.Notifications.Cursors
import ShipFlow.Notifications.History
import ShipFlow.Relational.Keyset

/-! Following `nextCursor` through the notifications of a user. -/

namespace ShipFlow.Notifications
open Interleaving Relational Script

/-- Of the identifiers that have been given out, the database has generated no UUID twice, and
the library takes their UUIDs for what they are. -/
structure Platform.Sound (p : Platform) (given : Nat) : Prop where
  injective : ∀ a < given, ∀ b < given, p.uuid a = p.uuid b → a = b
  bounded : ∀ id < given, p.uuid id < 2 ^ 128
  isUUID : ∀ id < given, p.isUUID (text (String.ofList (uuidText (p.uuid id)))) = true

/-- The notifications that a query asks for. -/
def matching (now : Time) (userId : Id) (query : NotificationListQueryDto) (n : StoredNotification) :
    Bool :=
  activeWhere now userId query.organizationId n && (!query.unreadOnly || n.readAt.isNone)

/-- The order of the notifications: by time, then by identifier. -/
def position (p : Platform) (n : StoredNotification) : Time ×ₗ Nat := toLex (n.createdAt, p.uuid n.id)

def cursorAt (k : Time ×ₗ Nat) : Text :=
  encodeCursor ⟨(ofLex k).1, text (String.ofList (uuidText (ofLex k).2))⟩

section List
variable {p : Platform} {now : Time} {userId : Id} {query : NotificationListQueryDto} {s : Store}

theorem cursorAt_position (n : StoredNotification) : cursorAt (position p n) =
    encodeCursor ⟨n.createdAt, text (String.ofList (uuidText (p.uuid n.id)))⟩ := rfl

theorem cursorPosition_cursorAt {given : Nat} (hp : p.Sound given) {n : StoredNotification}
    (hid : n.id < given) (hn : IsDate n.createdAt) :
    cursorPosition p (some (cursorAt (position p n))) = .ok (some (n.createdAt, p.uuid n.id)) := by
  have hdecode := decodeCursor_encodeCursor hn (hp.isUUID n.id hid)
  have hne : (cursorAt (position p n)).isEmpty = false := by
    rw [List.isEmpty_eq_false_iff]
    exact List.ne_nil_of_length_pos (length_encodeCursor hn).1
  rw [cursorPosition, hne, if_neg Bool.false_ne_true, cursorAt_position, hdecode]
  simp only [bind, Except.bind, pure, Except.pure, uuidValue_uuidText (hp.bounded n.id hid)]

theorem newestFirst_iff {a b : StoredNotification} :
    newestFirst p a b ↔ position p b ≤ position p a := by
  rw [position, position, Prod.Lex.le_iff]
  rfl

theorem afterCursor_eq {createdAt : Time} {id : Nat} {n : StoredNotification} :
    afterCursor p createdAt id n = decide (position p n < toLex (createdAt, id)) := by
  rw [Bool.eq_iff_iff, decide_eq_true_iff, position, Prod.Lex.lt_iff]
  simp [afterCursor]

/-- The list is a page of the matching notifications in their order. -/
theorem list_eq {after : Option (Time × Nat)}
    (hcursor : cursorPosition p query.cursor = .ok after) :
    list p now userId query s = .ok
      { items := (Keyset.page (position p) query.limit (after.map toLex)
          (s.notifications.filter (matching now userId query))).1.map toResponse
        nextCursor := (Keyset.page (position p) query.limit (after.map toLex)
          (s.notifications.filter (matching now userId query))).2.map cursorAt } := by
  -- the cursor is one more condition on the rows
  have hfilter : (s.notifications.filter fun n =>
      activeWhere now userId query.organizationId n && (!query.unreadOnly || n.readAt.isNone) &&
        after.all fun k => afterCursor p k.1 k.2 n) =
      (s.notifications.filter (matching now userId query)).filter fun n =>
        (after.map toLex).all fun k => position p n < k := by
    rw [List.filter_filter]
    refine List.filter_congr fun n _ => ?_
    rw [Bool.and_comm]
    cases after with
    | none => rfl
    | some k =>
      obtain ⟨createdAt, id⟩ := k
      simp only [Option.all_some, Option.map_some, afterCursor_eq]
      rfl
  have hsort (rows : List StoredNotification) : rows.insertionSort (newestFirst p) =
      rows.insertionSort fun a b => position p b ≤ position p a := by
    have hrel : newestFirst p = fun a b => position p b ≤ position p a := by
      funext a b
      exact propext newestFirst_iff
    congr!
  rw [list, hcursor]
  change Except.ok _ = _
  rw [hfilter, hsort]
  rw [Keyset.page, Keyset.below]
  generalize ((List.filter (fun n => (Option.map toLex after).all fun k => decide (position p n < k))
    (s.notifications.filter (matching now userId query))).insertionSort
      fun a b => position p b ≤ position p a) = sorted
  by_cases hmore : query.limit < (sorted.take (query.limit + 1)).length
  · simp only [hmore, if_true, Option.map_map]
    rfl
  · simp only [hmore, if_false]
    rfl

end List

/-! ## Following the cursor -/

/-- A page request: the clock, the store that it finds and the response. -/
structure Visit where
  now : Time
  store : Store
  response : NotificationListResponse

/-- The page requests of a client that follows `nextCursor` until it is null. Between two of
them operations change the store. -/
def follow (p : Platform) (userId : Id) (query : NotificationListQueryDto) :
    Option Text → Store → List (List Operation × Time) → Except Failure (List Visit)
  | _, _, [] => .ok []
  | cursor, s, (operations, now) :: later => do
    let s := operate s operations
    let response ← list p now userId { query with cursor := cursor } s
    match response.nextCursor with
    | none => return [⟨now, s, response⟩]
    | some next => do
      let visits ← follow p userId query (some next) s later
      return ⟨now, s, response⟩ :: visits

/-- What the query asks for at each of the page requests. -/
def moments (userId : Id) (query : NotificationListQueryDto) :
    Store → List (List Operation × Time) → List (List StoredNotification)
  | _, [] => []
  | s, (operations, now) :: later =>
    (operate s operations).notifications.filter (matching now userId query) ::
      moments userId query (operate s operations) later

section Follow
variable {p : Platform} {userId : Id} {query : NotificationListQueryDto} {s : Store}
  {rounds : List (List Operation × Time)} {given : Nat}

theorem position_nodup (hp : p.Sound given) (h : Healthy s) (hgiven : s.nextId ≤ given) (q : StoredNotification → Bool) :
    ((s.notifications.filter q).map (position p)).Nodup := by
  have hids := (h.keyed.filter q).2
  rw [List.Nodup, List.pairwise_map] at hids ⊢
  refine hids.imp_of_mem fun {a b} ha hb hne heq => hne ?_
  have hpair : (a.createdAt, p.uuid a.id) = (b.createdAt, p.uuid b.id) := toLex.injective heq
  exact hp.injective _ ((h.keyed.1 a (List.mem_of_mem_filter ha)).trans_le hgiven) _
    ((h.keyed.1 b (List.mem_of_mem_filter hb)).trans_le hgiven) (Prod.mk.inj hpair).2

/-- Each moment is a part of a healthy store. -/
theorem moments_store (h : Healthy s)
    (hdated : ∀ operation ∈ rounds.flatMap Prod.fst, operation.Dated)
    (hgiven : (operate s (rounds.flatMap Prod.fst)).nextId ≤ given) :
    ∀ rows ∈ moments userId query s rounds, ∃ s' q, Healthy s' ∧ s'.nextId ≤ given ∧
      rows = s'.notifications.filter q := by
  induction rounds generalizing s with
  | nil => exact fun rows hrows => absurd hrows List.not_mem_nil
  | cons round later ih =>
    obtain ⟨operations, now⟩ := round
    rw [List.flatMap_cons] at hdated hgiven
    rw [operate_append] at hgiven
    have hs := (operate_since h fun o ho => hdated o (List.mem_append_left _ ho)).1
    have hlater : ∀ o ∈ later.flatMap Prod.fst, o.Dated :=
      fun o ho => hdated o (List.mem_append_right _ ho)
    intro rows hrows
    rcases List.mem_cons.mp hrows with rfl | hrows
    · exact ⟨_, _, hs, (operate_since hs hlater).2.ids.trans hgiven, rfl⟩
    · exact ih hs hlater hgiven rows hrows

/-- A notification of a later moment that was there before is what became of it. -/
theorem moments_kept (h : Healthy s)
    (hdated : ∀ operation ∈ rounds.flatMap Prod.fst, operation.Dated) :
    ∀ rows ∈ moments userId query s rounds, ∀ n' ∈ rows, n'.id < s.nextId →
      ∃ n ∈ s.notifications, Kept n n' := by
  induction rounds generalizing s with
  | nil => exact fun rows hrows => absurd hrows List.not_mem_nil
  | cons round later ih =>
    obtain ⟨operations, now⟩ := round
    rw [List.flatMap_cons] at hdated
    obtain ⟨hs, hsince⟩ := operate_since h fun o ho => hdated o (List.mem_append_left _ ho)
    intro rows hrows n' hn' hlt
    rcases List.mem_cons.mp hrows with rfl | hrows
    · exact hsince.kept n' (List.mem_of_mem_filter hn') hlt
    · obtain ⟨n, hn, hkept⟩ := ih hs (fun o ho => hdated o (List.mem_append_right _ ho)) rows hrows
        n' hn' (hlt.trans_le hsince.ids)
      obtain ⟨m, hm, hkept'⟩ := hsince.kept n hn (hkept.id_eq ▸ hlt)
      exact ⟨m, hm, hkept'.trans hkept⟩

/-- A notification has the same position at all moments. -/
theorem moments_position (h : Healthy s)
    (hdated : ∀ operation ∈ rounds.flatMap Prod.fst, operation.Dated) :
    ∀ rows ∈ moments userId query s rounds, ∀ rows' ∈ moments userId query s rounds,
      ∀ n ∈ rows, ∀ n' ∈ rows', n.id = n'.id → position p n = position p n' := by
  have hsame {s : Store} (h : Healthy s) {n m n' : StoredNotification} (hn : n ∈ s.notifications)
      (hm : m ∈ s.notifications) (hkept : Kept m n') (hid : n.id = n'.id) :
      position p n = position p n' := by
    rw [h.keyed.inj hn hm (hid.trans hkept.id_eq), position, position, hkept.id_eq,
      hkept.createdAt_eq]
  induction rounds generalizing s with
  | nil => exact fun rows hrows => absurd hrows List.not_mem_nil
  | cons round later ih =>
    obtain ⟨operations, now⟩ := round
    rw [List.flatMap_cons] at hdated
    have hs := (operate_since h fun o ho => hdated o (List.mem_append_left _ ho)).1
    have hlater : ∀ o ∈ later.flatMap Prod.fst, o.Dated :=
      fun o ho => hdated o (List.mem_append_right _ ho)
    have hfirst : ∀ n ∈ (operate s operations).notifications, ∀ rows' ∈ moments userId query
        (operate s operations) later, ∀ n' ∈ rows', n.id = n'.id → position p n = position p n' := by
      intro n hn rows' hrows' n' hn' hid
      obtain ⟨m, hm, hkept⟩ := moments_kept hs hlater rows' hrows' n' hn' (hid ▸ hs.keyed.1 n hn)
      exact hsame hs hn hm hkept hid
    intro rows hrows rows' hrows' n hn n' hn' hid
    -- both rows are of this moment, or one of them is later, or both
    rcases List.mem_cons.mp hrows with rfl | hrows
    · rcases List.mem_cons.mp hrows' with rfl | hrows'
      · exact hsame hs (List.mem_of_mem_filter hn) (List.mem_of_mem_filter hn') (.refl n') hid
      · exact hfirst n (List.mem_of_mem_filter hn) rows' hrows' n' hn' hid
    · rcases List.mem_cons.mp hrows' with rfl | hrows'
      · exact (hfirst n' (List.mem_of_mem_filter hn') rows hrows n hn hid.symm).symm
      · exact ih hs hlater rows hrows rows' hrows' n hn n' hn' hid

/-- A page has no more notifications than asked for, all of them asked for, and the cursor of
the next one is within the bounds of a request. -/
structure Visit.Shows (v : Visit) (userId : Id) (query : NotificationListQueryDto) : Prop where
  length : v.response.items.length ≤ query.limit
  items : ∀ item ∈ v.response.items, ∃ n ∈ v.store.notifications,
    matching v.now userId query n = true ∧ toResponse n = item
  cursor : ∀ c ∈ v.response.nextCursor, 0 < c.length ∧ c.length ≤ 500

theorem shows_page (h : Healthy s) {now : Time} {after : Option (Time ×ₗ Nat)} :
    Visit.Shows ⟨now, s,
      { items := (Keyset.page (position p) query.limit after
          (s.notifications.filter (matching now userId query))).1.map toResponse
        nextCursor := (Keyset.page (position p) query.limit after
          (s.notifications.filter (matching now userId query))).2.map cursorAt }⟩ userId query := by
  refine ⟨?_, fun item hitem => ?_, fun c hc => ?_⟩
  · rw [List.length_map]
    exact Keyset.page_length _ _ _ _
  · obtain ⟨n, hn, rfl⟩ := List.mem_map.mp hitem
    obtain ⟨hmem, hmatching⟩ := List.mem_filter.mp (Keyset.mem_page hn).1
    exact ⟨n, hmem, hmatching, rfl⟩
  · obtain ⟨k, hk, rfl⟩ := Option.map_eq_some_iff.mp hc
    obtain ⟨n, hn, rfl⟩ := Keyset.page_last hk
    exact length_encodeCursor (h.dated n (List.mem_of_mem_filter (Keyset.mem_page hn).1))

/-- The pages are those of a walk through the moments. -/
structure Walks (p : Platform) (userId : Id) (query : NotificationListQueryDto)
    (after : Option (Time ×ₗ Nat)) (moments : List (List StoredNotification))
    (visits : List Visit) : Prop where
  items : visits.flatMap (fun v => v.response.items) =
    (Keyset.walk (position p) query.limit after moments).1.flatten.map toResponse
  ended : (∃ v ∈ visits, v.response.nextCursor = none) ↔
    (Keyset.walk (position p) query.limit after moments).2 = true
  rows : visits.map (fun v => v.store.notifications.filter (matching v.now userId query)) =
    moments.take (Keyset.walk (position p) query.limit after moments).1.length
  shows : ∀ v ∈ visits, v.Shows userId query

/-- The requests succeed, and their pages are those of a walk through the moments. -/
theorem follow_spec (hp : p.Sound given) (h : Healthy s)
    (hdated : ∀ operation ∈ rounds.flatMap Prod.fst, operation.Dated)
    (hgiven : (operate s (rounds.flatMap Prod.fst)).nextId ≤ given) {cursor : Option Text}
    {after : Option (Time × Nat)} (hcursor : cursorPosition p cursor = .ok after) :
    ∃ visits, follow p userId query cursor s rounds = .ok visits ∧
      Walks p userId query (after.map toLex) (moments userId query s rounds) visits := by
  induction rounds generalizing s cursor after with
  | nil => exact ⟨[], rfl, rfl, by simp [moments, Keyset.walk], rfl, fun v hv => by cases hv⟩
  | cons round later ih =>
    obtain ⟨operations, now⟩ := round
    rw [List.flatMap_cons] at hdated hgiven
    rw [operate_append] at hgiven
    have hs := (operate_since h fun o ho => hdated o (List.mem_append_left _ ho)).1
    have hlater : ∀ o ∈ later.flatMap Prod.fst, o.Dated :=
      fun o ho => hdated o (List.mem_append_right _ ho)
    have hlist := @list_eq p now userId { query with cursor := cursor } (operate s operations) after
      hcursor
    have hshows := @shows_page p userId query (operate s operations) hs now (after.map toLex)
    change list p now userId { query with cursor := cursor } (operate s operations) = .ok
      { items := (Keyset.page (position p) query.limit (after.map toLex)
          ((operate s operations).notifications.filter (matching now userId query))).1.map toResponse
        nextCursor := (Keyset.page (position p) query.limit (after.map toLex)
          ((operate s operations).notifications.filter (matching now userId query))).2.map cursorAt }
      at hlist
    have hwalk := Keyset.walk_cons (position p) query.limit (after.map toLex)
      ((operate s operations).notifications.filter (matching now userId query))
      (moments userId query (operate s operations) later)
    rw [follow, moments]
    simp only [hlist, bind, Except.bind, pure, Except.pure]
    -- without a next key the walk has ended; otherwise it goes on after the last row
    cases hk : (Keyset.page (position p) query.limit (after.map toLex)
      ((operate s operations).notifications.filter (matching now userId query))).2 with
    | none =>
      rw [hk] at hshows hwalk
      refine ⟨_, rfl, ?_, ?_, ?_, ?_⟩
      · simp [hwalk]
      · simp [hwalk]
      · simp [hwalk]
      · intro v hv
        rw [List.mem_singleton.mp hv]
        exact hshows
    | some k =>
      rw [hk] at hshows hwalk
      obtain ⟨n, hn, rfl⟩ := Keyset.page_last hk
      have hmem := List.mem_of_mem_filter (Keyset.mem_page hn).1
      have hid : n.id < given :=
        (hs.keyed.1 n hmem).trans_le ((operate_since hs hlater).2.ids.trans hgiven)
      obtain ⟨visits, hvisits, hrest⟩ := ih hs hlater hgiven
        (cursorPosition_cursorAt hp hid (hs.dated n hmem))
      have hended : (∃ v ∈ visits, v.response.nextCursor = none) ↔
          (Keyset.walk (position p) query.limit (some (position p n))
            (moments userId query (operate s operations) later)).2 = true := hrest.ended
      simp only [Option.map_some, hvisits]
      refine ⟨_, rfl, ?_, ?_, ?_, ?_⟩
      · rw [List.flatMap_cons, hrest.items, hwalk, List.flatten_cons, List.map_append]
        rfl
      · rw [hwalk]
        simpa using hended
      · rw [List.map_cons, hrest.rows, hwalk]
        rfl
      · intro v hv
        rcases List.mem_cons.mp hv with rfl | hv
        · exact hshows
        · exact hrest.shows v hv

/-- The order of the responses, as that of the notifications. -/
def responsePosition (p : Platform) (r : NotificationResponse) : Time ×ₗ Nat :=
  toLex (r.createdAt, p.uuid r.id)

/-- A client that follows `nextCursor` from the first page on never gets an error. Whatever
happens to the notifications between its requests, it gets them newest first and none of them
twice; and once it has come to the end it has got every notification that the query asked for
at each of its requests. -/
theorem notification_walk (p : Platform) (earlier : List Operation) (userId : Id)
    (query : NotificationListQueryDto) (hlimit : 0 < query.limit)
    (rounds : List (List Operation × Time))
    (hp : p.Sound (operate .empty (earlier ++ rounds.flatMap Prod.fst)).nextId)
    (hdated : ∀ operation ∈ earlier ++ rounds.flatMap Prod.fst, operation.Dated) :
    ∃ visits, follow p userId query none (operate .empty earlier) rounds = .ok visits ∧
      (visits.flatMap fun v => v.response.items).Pairwise
        (fun a b => responsePosition p b < responsePosition p a) ∧
      (visits.flatMap fun v => v.response.items.map NotificationResponse.id).Nodup ∧
      (∀ v ∈ visits, v.Shows userId query) ∧
      ((∃ v ∈ visits, v.response.nextCursor = none) → ∀ id,
        (∀ v ∈ visits, ∃ n ∈ v.store.notifications,
          n.id = id ∧ matching v.now userId query n = true) →
        (visits.flatMap fun v => v.response.items.map NotificationResponse.id).count id = 1) := by
  have hs := (operate_since healthy_empty fun o ho => hdated o (List.mem_append_left _ ho)).1
  have hlater : ∀ o ∈ rounds.flatMap Prod.fst, o.Dated :=
    fun o ho => hdated o (List.mem_append_right _ ho)
  rw [operate_append] at hp
  obtain ⟨visits, hvisits, hwalks⟩ := @follow_spec p userId query _ rounds _ hp hs hlater
    le_rfl none none rfl
  rw [Option.map_none] at hwalks
  have hstore := @moments_store userId query _ rounds _ hs hlater le_rfl
  have hnodup : ∀ rows ∈ moments userId query (operate .empty earlier) rounds,
      (rows.map (position p)).Nodup := fun rows hrows => by
    obtain ⟨s', q, hs', hle, rfl⟩ := hstore rows hrows
    exact position_nodup hp hs' hle q
  obtain ⟨hpairwise, -⟩ := @Keyset.walk_pairwise _ _ _ (position p) query.limit none _ hnodup
  have hids : (visits.flatMap fun v => v.response.items.map NotificationResponse.id) =
      (Keyset.walk (position p) query.limit none (moments userId query (operate .empty earlier)
        rounds)).1.flatten.map fun n => n.id := by
    rw [← List.map_flatMap, hwalks.items, List.map_map]
    rfl
  have hdistinct : (visits.flatMap fun v => v.response.items.map NotificationResponse.id).Nodup := by
    rw [hids, List.Nodup, List.pairwise_map]
    refine hpairwise.imp_of_mem fun {a b} ha hb hlt hid => ?_
    obtain ⟨rows, hrows, ha⟩ := Keyset.mem_walk ha
    obtain ⟨rows', hrows', hb⟩ := Keyset.mem_walk hb
    have hsame := @moments_position p userId query _ rounds hs hlater rows hrows rows' hrows' a ha b
      hb hid
    exact absurd hlt (hsame ▸ lt_irrefl _)
  refine ⟨visits, hvisits, ?_, hdistinct, hwalks.shows, fun hend id hthere => ?_⟩
  · rw [hwalks.items, List.pairwise_map]
    exact hpairwise
  · -- the notification is there under one position at all requests
    have hrows (v : Visit) (hv : v ∈ visits) :
        v.store.notifications.filter (matching v.now userId query) ∈
          (moments userId query (operate .empty earlier) rounds).take
            (Keyset.walk (position p) query.limit none
              (moments userId query (operate .empty earlier) rounds)).1.length :=
      hwalks.rows ▸ List.mem_map_of_mem hv
    have hwalkEnd := hwalks.ended.mp hend
    obtain ⟨v₀, hv₀, -⟩ := hend
    obtain ⟨n₀, hn₀, hid₀, hmatching₀⟩ := hthere v₀ hv₀
    obtain ⟨n, hn, hposition⟩ := Keyset.walk_complete hlimit hnodup hwalkEnd
      (fun k (hk : k ∈ none) => by cases hk) (k := position p n₀) fun rows hmem => by
        rw [← hwalks.rows] at hmem
        obtain ⟨v, hv, rfl⟩ := List.mem_map.mp hmem
        obtain ⟨m, hm, hidm, hmatching⟩ := hthere v hv
        refine ⟨m, List.mem_filter.mpr ⟨hm, hmatching⟩, ?_⟩
        exact @moments_position p userId query _ rounds hs hlater _
          (List.mem_of_mem_take (hrows v hv)) _ (List.mem_of_mem_take (hrows v₀ hv₀)) m
          (List.mem_filter.mpr ⟨hm, hmatching⟩) n₀ (List.mem_filter.mpr ⟨hn₀, hmatching₀⟩)
          (hidm.trans hid₀.symm)
    have hid : n.id = id := by
      have hpair : (n.createdAt, p.uuid n.id) = (n₀.createdAt, p.uuid n₀.id) :=
        toLex.injective hposition
      have hgivenId : ∀ rows ∈ moments userId query (operate .empty earlier) rounds, ∀ n ∈ rows,
          n.id < (operate (operate .empty earlier) (rounds.flatMap Prod.fst)).nextId := by
        intro rows hrows n hn
        obtain ⟨s', q, hs', hle, rfl⟩ := hstore rows hrows
        exact (hs'.keyed.1 n (List.mem_of_mem_filter hn)).trans_le hle
      obtain ⟨rows, hrows', hn⟩ := Keyset.mem_walk hn
      rw [← hid₀]
      exact hp.injective _ (hgivenId rows hrows' n hn) _
        (hgivenId _ (List.mem_of_mem_take (hrows v₀ hv₀)) n₀
          (List.mem_filter.mpr ⟨hn₀, hmatching₀⟩)) (Prod.mk.inj hpair).2
    exact List.count_eq_one_of_mem hdistinct (hids ▸ List.mem_map.mpr ⟨n, hn, hid⟩)

end Follow
/-! A client that reads two pages. Between them one notification is marked as read and a new
one comes. -/

/-- A platform that takes 32 hexadecimal digits in their groups for a UUID. -/
def groupedPlatform : Platform where
  uuid id := 0x0198a7b2c3d470008000000000000000 + id
  isUUID t := ((scalarValues t).map fun c => if (Encoding.hexValue c).isSome then 'x' else c) ==
    "xxxxxxxx-xxxx-xxxx-xxxx-xxxxxxxxxxxx".toList
  parseDate _ := none

def securityNotice (dedupeKey : String) : WriteNotificationInput where
  userId := 7
  organizationId := none
  category := .security
  type := .passwordChanged
  title := "Password changed"
  message := "Your password was changed."
  actionPath := none
  metadata := []
  dedupeKey := dedupeKey
  createdAt := none

def threeNotices : List Operation :=
  [.write 1000 (securityNotice "a"), .write 2000 (securityNotice "b"),
    .write 2000 (securityNotice "c")]

def twoRounds : List (List Operation × Time) :=
  [([], 3000), ([.markRead 3500 7 1, .write 4000 (securityNotice "d")], 4000)]

theorem notification_walk_two_pages :
    (follow groupedPlatform 7 ⟨2, none, false, none⟩ none (operate .empty threeNotices)
      twoRounds).toOption.map (fun visits =>
        visits.map fun v => v.response.items.map NotificationResponse.id) = some [[2, 1], [0]] ∧
    ∃ visits, follow groupedPlatform 7 ⟨2, none, false, none⟩ none (operate .empty threeNotices)
        twoRounds = .ok visits ∧
      (visits.flatMap fun v => v.response.items.map NotificationResponse.id).Nodup := by
  have hgiven : (operate .empty (threeNotices ++ twoRounds.flatMap Prod.fst)).nextId = 4 := by
    decide +kernel
  have hsound : groupedPlatform.Sound
      (operate .empty (threeNotices ++ twoRounds.flatMap Prod.fst)).nextId := by
    rw [hgiven]
    exact ⟨by decide, by decide, by decide +kernel⟩
  have hdated : ∀ operation ∈ threeNotices ++ twoRounds.flatMap Prod.fst, operation.Dated := by
    simp [threeNotices, twoRounds, Operation.Dated, IsDate, securityNotice]
  obtain ⟨visits, hvisits, -, hnodup, -⟩ := notification_walk groupedPlatform threeNotices 7
    ⟨2, none, false, none⟩ (by decide) twoRounds hsound hdated
  exact ⟨by decide +kernel, visits, hvisits, hnodup⟩

end ShipFlow.Notifications
