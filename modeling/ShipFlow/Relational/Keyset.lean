import Mathlib.Data.List.Sort
import Mathlib.Data.List.Nodup

/-! Pages of a changing set of rows, from the greatest key downwards. The next page starts
below the last key of the one before, and one row more than a page holds is read to see
whether there is a next page. -/

namespace Relational.Keyset
variable {ρ κ : Type} [LinearOrder κ] (key : ρ → κ)

/-- The rows below the given key, from the greatest key downwards. -/
def below (after : Option κ) (rows : List ρ) : List ρ :=
  (rows.filter fun r => after.all fun k => key r < k).insertionSort fun a b => key b ≤ key a

/-- The rows of a page, and the key after which the next one starts. -/
def page (limit : Nat) (after : Option κ) (rows : List ρ) : List ρ × Option κ :=
  let records := (below key after rows).take (limit + 1)
  if limit < records.length then
    (records.take limit, ((records.take limit).getLast?).map key)
  else (records, none)

/-- The pages of a walk, each over the rows of its own moment, and whether it came to an end. -/
def walk (limit : Nat) : Option κ → List (List ρ) → List (List ρ) × Bool
  | _, [] => ([], false)
  | after, rows :: later =>
    match page key limit after rows with
    | (items, none) => ([items], true)
    | (items, some k) =>
      let rest := walk limit (some k) later
      (items :: rest.1, rest.2)

section Page
variable {key : ρ → κ} {limit : Nat} {after : Option κ} {rows : List ρ} {r : ρ} {k : κ}

theorem mem_below : r ∈ below key after rows ↔ r ∈ rows ∧ ∀ k ∈ after, key r < k := by
  rw [below, List.mem_insertionSort, List.mem_filter]
  cases after with
  | none => simp
  | some k => simp

theorem length_below_none : (below key none rows).length = rows.length := by
  simp [below]

theorem pairwise_below (hkeys : (rows.map key).Nodup) :
    (below key after rows).Pairwise fun a b => key b < key a := by
  have hle : (below key after rows).Pairwise fun a b => key b ≤ key a := by
    have htotal : Std.Total fun a b : ρ => key b ≤ key a := ⟨fun a b => le_total (key b) (key a)⟩
    have htrans : IsTrans ρ fun a b => key b ≤ key a := ⟨fun _ _ _ hab hbc => hbc.trans hab⟩
    exact List.pairwise_insertionSort _ _
  have hne : (below key after rows).Pairwise fun a b => key a ≠ key b := by
    have hsub : ((rows.filter fun r => after.all fun k => key r < k).map key).Nodup :=
      hkeys.sublist (List.Sublist.map key List.filter_sublist)
    rw [below]
    exact List.pairwise_map.mp (((List.perm_insertionSort _ _).map key).nodup_iff.mpr hsub)
  exact (hle.and hne).imp fun hab => lt_of_le_of_ne hab.1 (Ne.symm hab.2)

/-- A page is the front of what is left; after the last page nothing is left. -/
theorem page_eq (key : ρ → κ) (limit : Nat) (after : Option κ) (rows : List ρ) :
    (page key limit after rows).1 = (below key after rows).take limit ∧
    ((page key limit after rows).2 = none → (below key after rows).length ≤ limit ∨ limit = 0) ∧
    ∀ k ∈ (page key limit after rows).2,
      ((below key after rows).take limit).getLast?.map key = some k := by
  unfold page
  simp only [List.length_take, List.take_take, Nat.min_eq_left (Nat.le_succ limit)]
  split
  · refine ⟨rfl, fun hnone => .inr ?_, fun k hk => hk⟩
    rename_i hlonger
    rw [Option.map_eq_none_iff, List.getLast?_eq_none_iff, List.take_eq_nil_iff] at hnone
    rcases hnone with hzero | hempty
    · exact hzero
    · rw [hempty] at hlonger
      simp at hlonger
  · rename_i hshort
    have hle : (below key after rows).length ≤ limit := by omega
    refine ⟨?_, fun _ => .inl hle, fun k hk => by cases hk⟩
    rw [List.take_of_length_le hle, List.take_of_length_le (Nat.le_succ_of_le hle)]

theorem page_none (hlimit : 0 < limit) (h : (page key limit after rows).2 = none) :
    (page key limit after rows).1 = below key after rows := by
  obtain ⟨hitems, hlast, -⟩ := page_eq key limit after rows
  rw [hitems]
  exact List.take_of_length_le ((hlast h).resolve_right (Nat.ne_of_gt hlimit))

theorem mem_page (h : r ∈ (page key limit after rows).1) : r ∈ rows ∧ ∀ k ∈ after, key r < k := by
  rw [(page_eq key limit after rows).1] at h
  exact mem_below.mp (List.mem_of_mem_take h)

/-- There is a next page only if there are more rows than one page holds. -/
theorem page_more (hk : (page key limit after rows).2 = some k) :
    limit < (below key after rows).length := by
  by_contra hle
  have hshort : ¬ limit < ((below key after rows).take (limit + 1)).length := by
    rw [List.length_take]
    omega
  simp only [page, if_neg hshort] at hk
  cases hk

/-- The next page starts after a row of this one. -/
theorem page_last (hk : (page key limit after rows).2 = some k) :
    ∃ r ∈ (page key limit after rows).1, key r = k := by
  obtain ⟨hitems, -, hnext⟩ := page_eq key limit after rows
  obtain ⟨last, hlast, hkey⟩ := Option.map_eq_some_iff.mp (hnext k hk)
  exact ⟨last, hitems ▸ List.mem_of_getLast? hlast, hkey⟩

theorem page_length (key : ρ → κ) (limit : Nat) (after : Option κ) (rows : List ρ) :
    (page key limit after rows).1.length ≤ limit := by
  rw [(page_eq key limit after rows).1]
  exact List.length_take_le limit _

theorem page_pairwise (hkeys : (rows.map key).Nodup) :
    (page key limit after rows).1.Pairwise fun a b => key b < key a := by
  rw [(page_eq key limit after rows).1]
  exact (pairwise_below hkeys).sublist (List.take_sublist _ _)

/-- The key after which the next page starts is the least of the page. -/
theorem page_next (hkeys : (rows.map key).Nodup) (hk : (page key limit after rows).2 = some k) :
    ∀ a ∈ (page key limit after rows).1, k ≤ key a := by
  have hpairwise : (page key limit after rows).1.Pairwise fun a b => key b < key a :=
    page_pairwise hkeys
  obtain ⟨hitems, -, hnext⟩ := page_eq key limit after rows
  obtain ⟨last, hlast, rfl⟩ := Option.map_eq_some_iff.mp (hnext k hk)
  rw [← hitems] at hlast
  obtain ⟨front, hfront⟩ := List.getLast?_eq_some_iff.mp hlast
  rw [hfront] at hpairwise ⊢
  intro a ha
  rcases List.mem_append.mp ha with ha | ha
  · exact le_of_lt ((List.pairwise_append.mp hpairwise).2.2 a ha last (List.mem_singleton_self _))
  · rw [List.mem_singleton.mp ha]

/-- A row that is not on its page comes after it. -/
theorem mem_page_or_next (hkeys : (rows.map key).Nodup) (hr : r ∈ rows)
    (hafter : ∀ k ∈ after, key r < k) (hk : (page key limit after rows).2 = some k) :
    r ∈ (page key limit after rows).1 ∨ key r < k := by
  have hpairwise : (below key after rows).Pairwise fun a b => key b < key a := pairwise_below hkeys
  obtain ⟨hitems, -, hnext⟩ := page_eq key limit after rows
  have hmem : r ∈ below key after rows := mem_below.mpr ⟨hr, hafter⟩
  rw [← List.take_append_drop limit (below key after rows)] at hmem hpairwise
  rcases List.mem_append.mp hmem with hmem | hmem
  · exact .inl (hitems ▸ hmem)
  · obtain ⟨last, hlast, rfl⟩ := Option.map_eq_some_iff.mp (hnext k hk)
    exact .inr ((List.pairwise_append.mp hpairwise).2.2 last (List.mem_of_getLast? hlast) r hmem)

/-- What is left after a page is what was left before it, without the page. -/
theorem below_next (hkeys : (rows.map key).Nodup) (hk : (page key limit after rows).2 = some k) :
    below key (some k) rows = (below key after rows).drop limit := by
  have hpairwise : (below key after rows).Pairwise fun a b => key b < key a := pairwise_below hkeys
  have hleast := page_next hkeys hk
  obtain ⟨hitems, -, hnext⟩ := page_eq key limit after rows
  obtain ⟨last, hlast, rfl⟩ := Option.map_eq_some_iff.mp (hnext k hk)
  have hmem := List.mem_of_getLast? hlast
  rw [hitems] at hleast
  -- both lists are sorted by the key, so it is enough that they have the same rows
  refine List.Pairwise.eq_of_mem_iff (pairwise_below hkeys)
    (hpairwise.sublist (List.drop_sublist limit _)) fun {r} => ?_
  rw [← List.take_append_drop limit (below key after rows), List.pairwise_append] at hpairwise
  constructor
  · intro hr
    obtain ⟨hrow, hlt⟩ := mem_below.mp hr
    have hlast' := (mem_below.mp (List.mem_of_mem_take hmem)).2
    have hbefore : r ∈ below key after rows :=
      mem_below.mpr ⟨hrow, fun k' hk' => (hlt _ rfl).trans (hlast' k' hk')⟩
    rw [← List.take_append_drop limit (below key after rows)] at hbefore
    rcases List.mem_append.mp hbefore with htake | hdrop
    · exact absurd (hlt _ rfl) (not_lt.mpr (hleast r htake))
    · exact hdrop
  · intro hr
    refine mem_below.mpr ⟨(mem_below.mp (List.mem_of_mem_drop hr)).1, fun k' hk' => ?_⟩
    cases hk'
    exact hpairwise.2.2 last hmem r hr

end Page

section Walk
variable {key : ρ → κ} {limit : Nat} {after : Option κ} {moments : List (List ρ)} {k : κ}

theorem walk_cons (key : ρ → κ) (limit : Nat) (after : Option κ) (rows : List ρ)
    (later : List (List ρ)) :
    walk key limit after (rows :: later) = match (page key limit after rows).2 with
      | none => ([(page key limit after rows).1], true)
      | some k => ((page key limit after rows).1 :: (walk key limit (some k) later).1,
          (walk key limit (some k) later).2) := by
  rw [walk]
  rcases page key limit after rows with ⟨items, _ | k⟩
  · rfl
  · rfl

/-- The walk shows every row at most once and goes strictly downwards, whatever happens to
the rows between its pages. -/
theorem walk_pairwise (hkeys : ∀ rows ∈ moments, (rows.map key).Nodup) :
    ((walk key limit after moments).1.flatten.Pairwise fun a b => key b < key a) ∧
      ∀ r ∈ (walk key limit after moments).1.flatten, ∀ k ∈ after, key r < k := by
  induction moments generalizing after with
  | nil => exact ⟨List.Pairwise.nil, fun r hr => absurd hr List.not_mem_nil⟩
  | cons rows later ih =>
    have hrows := hkeys rows List.mem_cons_self
    rw [walk_cons]
    cases hk : (page key limit after rows).2 with
    | none =>
      simp only [List.flatten_cons, List.flatten_nil, List.append_nil]
      exact ⟨page_pairwise hrows, fun r hr => (mem_page hr).2⟩
    | some k =>
      obtain ⟨hpairwise, hbelow⟩ := @ih (some k) fun rows' h =>
        hkeys rows' (List.mem_cons_of_mem rows h)
      simp only [List.flatten_cons]
      constructor
      -- the rest of the walk is below the last row of the page
      · refine List.pairwise_append.mpr ⟨page_pairwise hrows, hpairwise, fun a ha b hb => ?_⟩
        exact (hbelow b hb k rfl).trans_le (page_next hrows hk a ha)
      · intro r hr k' hk'
        rcases List.mem_append.mp hr with hr | hr
        · exact (mem_page hr).2 k' hk'
        · obtain ⟨hitems, -, hnext⟩ := page_eq key limit after rows
          obtain ⟨last, hlast, rfl⟩ := Option.map_eq_some_iff.mp (hnext k hk)
          have hmem : last ∈ (page key limit after rows).1 := hitems ▸ List.mem_of_getLast? hlast
          exact (hbelow r hr _ rfl).trans ((mem_page hmem).2 k' hk')

theorem mem_walk {r : ρ} (h : r ∈ (walk key limit after moments).1.flatten) :
    ∃ rows ∈ moments, r ∈ rows := by
  induction moments generalizing after with
  | nil => cases h
  | cons rows later ih =>
    rw [walk_cons] at h
    cases hk : (page key limit after rows).2 with
    | none =>
      rw [hk, List.flatten_cons, List.flatten_nil, List.append_nil] at h
      exact ⟨rows, List.mem_cons_self, (mem_page h).1⟩
    | some k =>
      rw [hk, List.flatten_cons] at h
      rcases List.mem_append.mp h with h | h
      · exact ⟨rows, List.mem_cons_self, (mem_page h).1⟩
      · obtain ⟨rows', hrows', hr⟩ := ih h
        exact ⟨rows', List.mem_cons_of_mem rows hrows', hr⟩

/-- A walk that has come to an end has shown every key that was there at each of its pages. -/
theorem walk_complete (hlimit : 0 < limit) (hkeys : ∀ rows ∈ moments, (rows.map key).Nodup)
    (hend : (walk key limit after moments).2 = true) (hafter : ∀ k' ∈ after, k < k')
    (hthere : ∀ rows ∈ moments.take (walk key limit after moments).1.length,
      ∃ r ∈ rows, key r = k) :
    ∃ r ∈ (walk key limit after moments).1.flatten, key r = k := by
  induction moments generalizing after with
  | nil => cases hend
  | cons rows later ih =>
    rw [walk_cons] at hend hthere ⊢
    cases hk : (page key limit after rows).2 with
    | none =>
      rw [hk] at hthere
      obtain ⟨r, hr, rfl⟩ := hthere rows (by simp)
      refine ⟨r, ?_, rfl⟩
      simp only [List.flatten_cons, List.flatten_nil, List.append_nil]
      rw [page_none hlimit hk]
      exact mem_below.mpr ⟨hr, hafter⟩
    | some k' =>
      rw [hk] at hend hthere
      simp only [List.length_cons, List.take_succ_cons] at hend hthere
      obtain ⟨r, hr, hrk⟩ := hthere rows List.mem_cons_self
      -- the row is on this page, or below its last key and so for the rest of the walk
      rcases mem_page_or_next (hkeys rows List.mem_cons_self) hr (fun k hk => hrk ▸ hafter k hk) hk
        with hmem | hlt
      · exact ⟨r, List.mem_append_left _ hmem, hrk⟩
      · rw [hrk] at hlt
        obtain ⟨r', hr', hrk'⟩ := @ih (some k')
          (fun rows' h => hkeys rows' (List.mem_cons_of_mem rows h)) hend
          (fun k hk => by cases hk; exact hlt)
          fun rows' h => hthere rows' (List.mem_cons_of_mem rows h)
        exact ⟨r', List.mem_append_right _ hr', hrk'⟩

/-- Over rows that do not change, the pages put together are all rows in their order. -/
theorem walk_replicate (hlimit : 0 < limit) {rows : List ρ} (hkeys : (rows.map key).Nodup) {n : Nat}
    (hend : (walk key limit after (List.replicate n rows)).2 = true) :
    (walk key limit after (List.replicate n rows)).1.flatten = below key after rows := by
  induction n generalizing after with
  | zero => cases hend
  | succ n ih =>
    rw [List.replicate_succ, walk_cons] at hend ⊢
    cases hk : (page key limit after rows).2 with
    | none =>
      simp only [List.flatten_cons, List.flatten_nil, List.append_nil]
      exact page_none hlimit hk
    | some k =>
      rw [hk] at hend
      simp only [List.flatten_cons]
      rw [ih hend, below_next hkeys hk, (page_eq key limit after rows).1, List.take_append_drop]

/-- Over rows that do not change, as many pages as it takes to hold the rows are enough. -/
theorem walk_replicate_ends {rows : List ρ} (hkeys : (rows.map key).Nodup) {n : Nat}
    (hlength : (below key after rows).length ≤ (n + 1) * limit) :
    (walk key limit after (List.replicate (n + 1) rows)).2 = true := by
  induction n generalizing after with
  | zero =>
    rw [List.replicate_succ, walk_cons]
    cases hk : (page key limit after rows).2 with
    | none => rfl
    | some k =>
      have hmore := page_more hk
      omega
  | succ n ih =>
    rw [List.replicate_succ, walk_cons]
    cases hk : (page key limit after rows).2 with
    | none => rfl
    | some k =>
      refine @ih (some k) ?_
      rw [below_next hkeys hk, List.length_drop, Nat.sub_le_iff_le_add]
      calc (below key after rows).length
        _ ≤ (n + 1 + 1) * limit := hlength
        _ = (n + 1) * limit + limit := Nat.succ_mul _ _

end Walk
end Relational.Keyset
