import ShipFlow.Relational.Table

/-! Rows that can be used once. A conditional update uses a row and makes it
dead; the list of the keys used so far never repeats one. -/

namespace Relational
variable {ρ : Type} {n m : Nat} {key : ρ → Nat} {live p : ρ → Bool} {f : ρ → ρ}
  {rows rows' : List ρ} {used : List Nat} {r : ρ}

structure SpentOnce (n : Nat) (key : ρ → Nat) (live : ρ → Bool) (rows : List ρ)
    (used : List Nat) : Prop where
  nodup : used.Nodup
  given : Below n id used
  spent : ∀ r ∈ rows, key r ∈ used → live r = false

namespace SpentOnce

theorem nil : SpentOnce n key live rows [] := by
  refine ⟨List.nodup_nil, ?_, ?_⟩
  · intro k hk
    cases hk
  · intro r _ hk
    cases hk

theorem of_eq {used' : List Nat} (h : SpentOnce n key live rows used) (hu : used' = used) :
    SpentOnce n key live rows used' := by
  rwa [hu]

theorem later (h : SpentOnce n key live rows used) (hnm : n ≤ m) :
    SpentOnce m key live rows used := ⟨h.nodup, h.given.mono hnm, h.spent⟩

theorem filter (h : SpentOnce n key live rows used) (q : ρ → Bool) :
    SpentOnce n key live (rows.filter q) used :=
  ⟨h.nodup, h.given, fun r hr => h.spent r (List.mem_of_mem_filter hr)⟩

theorem updateRows (h : SpentOnce n key live rows used) (hkey : ∀ r, key (f r) = key r)
    (hlive : ∀ r, live r = false → live (f r) = false) :
    SpentOnce n key live (updateRows p f rows) used := by
  refine ⟨h.nodup, h.given, fun r' hr' hk => ?_⟩
  rcases mem_updateRows.mp hr' with ⟨hr, -⟩ | ⟨r, hr, -, rfl⟩
  · exact h.spent r' hr hk
  · exact hlive r (h.spent r hr (hkey r ▸ hk))

/-- New rows have new keys. -/
theorem append (h : SpentOnce n key live rows used) (hfresh : ∀ r ∈ rows', n ≤ key r) :
    SpentOnce n key live (rows ++ rows') used := by
  refine ⟨h.nodup, h.given, fun r hr hk => ?_⟩
  rcases List.mem_append.mp hr with hr | hr
  · exact h.spent r hr hk
  · have hlt := h.given _ hk
    have hle := hfresh r hr
    simp only [id] at hlt
    omega

/-- A live row has not been used before. -/
theorem not_mem_of_live (h : SpentOnce n key live rows used) (hr : r ∈ rows)
    (hlive : live r = true) : key r ∉ used := fun hk => by
  rw [h.spent r hr hk] at hlive
  cases hlive

/-- The conditional update that uses a row. -/
theorem use (h : SpentOnce n key live rows used) (hn : Keyed n key rows) (hr : r ∈ rows)
    (hlive : live r = true) (hp : p r = true)
    (hdead : ∀ r, live (f r) = false) :
    SpentOnce n key live (Relational.updateRows p f rows) (used ++ [key r]) := by
  have hnew := h.not_mem_of_live hr hlive
  refine ⟨h.nodup.append (List.nodup_singleton _) (by simpa using hnew), ?_, fun r' hr' hk => ?_⟩
  · intro k hk
    rcases List.mem_append.mp hk with hk | hk
    · exact h.given k hk
    · rw [List.mem_singleton.mp hk]
      exact hn.1 r hr
  · rcases mem_updateRows.mp hr' with ⟨hr', hp'⟩ | ⟨r₀, -, -, rfl⟩
    · rcases List.mem_append.mp hk with hk | hk
      · exact h.spent r' hr' hk
      · rw [hn.inj hr' hr (List.mem_singleton.mp hk), hp] at hp'
        cases hp'
    · exact hdead r₀

end SpentOnce

/-- What an action does to a table of single-use rows, with the keys it uses: it deletes
rows, issues one, or spends one. -/
inductive SpendStep (n : Nat) (key : ρ → Nat) (live : ρ → Bool) (rows rows' : List ρ) :
    List Nat → Prop where
  | kept (q : ρ → Bool) (h : rows' = rows.filter q) : SpendStep n key live rows rows' []
  | issued (q : ρ → Bool) (r : ρ) (hfresh : n ≤ key r) (hlive : live r = true)
      (h : rows' = rows.filter q ++ [r]) : SpendStep n key live rows rows' []
  | spent (p q : ρ → Bool) (f : ρ → ρ) (r : ρ) (hr : r ∈ rows) (hlive : live r = true)
      (hp : p r = true) (honly : ∀ r' ∈ rows, p r' = true → key r' = key r)
      (hkey : ∀ r, key (f r) = key r) (hdead : ∀ r, live (f r) = false) (hq : q (f r) = true)
      (h : rows' = (updateRows p f rows).filter q) : SpendStep n key live rows rows' [key r]

namespace SpendStep
variable {step : List Nat}

theorem same (h : rows' = rows) : SpendStep n key live rows rows' [] := by
  refine .kept (fun _ => true) ?_
  rw [h, List.filter_true]

/-- Exactly the rows whose keys are used die and stay. -/
theorem spent_iff (h : SpendStep n key live rows rows' step) (hn : Keyed n key rows) (hr : r ∈ rows)
    (hlive : live r = true) : (∃ r' ∈ rows', key r' = key r ∧ live r' = false) ↔ key r ∈ step := by
  have hold : ∀ r' ∈ rows, key r' = key r → live r' ≠ false := by
    intro r' hr' hk hdead
    rw [hn.inj hr' hr hk, hlive] at hdead
    cases hdead
  cases h with
  | kept q h =>
    refine iff_of_false ?_ List.not_mem_nil
    rintro ⟨r', hr', hk, hdead⟩
    rw [h] at hr'
    exact hold r' (List.mem_of_mem_filter hr') hk hdead
  | issued q new hfresh hnew h =>
    refine iff_of_false ?_ List.not_mem_nil
    rintro ⟨r', hr', hk, hdead⟩
    rw [h] at hr'
    rcases List.mem_append.mp hr' with hr' | hr'
    · exact hold r' (List.mem_of_mem_filter hr') hk hdead
    · rw [List.mem_singleton.mp hr', hnew] at hdead
      cases hdead
  | spent p q f used hused hlive' hp honly hkey hdead hq h =>
    rw [List.mem_singleton]
    constructor
    · rintro ⟨r', hr', hk, hdead'⟩
      rw [h] at hr'
      rcases mem_updateRows.mp (List.mem_of_mem_filter hr') with ⟨hr', -⟩ | ⟨r₀, hr₀, hp₀, rfl⟩
      · exact absurd hdead' (hold r' hr' hk)
      · rw [← hk, hkey]
        exact honly r₀ hr₀ hp₀
    · intro hk
      have hsame := hn.inj hr hused hk
      subst hsame
      refine ⟨f r, ?_, hkey r, hdead r⟩
      rw [h]
      exact List.mem_filter.mpr ⟨mem_updateRows.mpr (.inr ⟨r, hr, hp, rfl⟩), hq⟩

/-- A row that is live after the action is an old one, or has a new key. -/
theorem live_old (h : SpendStep n key live rows rows' step) (hr : r ∈ rows')
    (hlive : live r = true) : r ∈ rows ∨ n ≤ key r := by
  cases h with
  | kept q h =>
    rw [h] at hr
    exact .inl (List.mem_of_mem_filter hr)
  | issued q new hfresh hnew h =>
    rw [h] at hr
    rcases List.mem_append.mp hr with hr | hr
    · exact .inl (List.mem_of_mem_filter hr)
    · rw [List.mem_singleton.mp hr]
      exact .inr hfresh
  | spent p q f used hused hlive' hp honly hkey hdead hq h =>
    rw [h] at hr
    rcases mem_updateRows.mp (List.mem_of_mem_filter hr) with ⟨hr, -⟩ | ⟨r₀, -, -, rfl⟩
    · exact .inl hr
    · rw [hdead] at hlive
      cases hlive

end SpendStep

theorem SpentOnce.step {new : List Nat} (h : SpentOnce n key live rows used)
    (hs : SpendStep n key live rows rows' new) (hn : Keyed n key rows) (hnm : n ≤ m) :
    SpentOnce m key live rows' (used ++ new) := by
  cases hs with
  | kept q h' =>
    rw [h', List.append_nil]
    exact (h.filter q).later hnm
  | issued q r hfresh hlive h' =>
    rw [h', List.append_nil]
    refine ((h.filter q).append fun r' hr' => ?_).later hnm
    rw [List.mem_singleton.mp hr']
    exact hfresh
  | spent p q f r hr hlive hp honly hkey hdead hq h' =>
    rw [h']
    exact ((h.use hn hr hlive hp hdead).filter q).later hnm

/-- Every owner has at most one live row. -/
def OneEach (owner : ρ → Nat) (live : ρ → Bool) (rows : List ρ) : Prop :=
  ∀ k, rows.countP (fun r => owner r == k && live r) ≤ 1

namespace OneEach
variable {owner : ρ → Nat}

theorem filter (h : OneEach owner live rows) (q : ρ → Bool) : OneEach owner live (rows.filter q) :=
  fun k => Nat.le_trans List.filter_sublist.countP_le (h k)

theorem updateRows (h : OneEach owner live rows) (hdead : ∀ r, live (f r) = false) :
    OneEach owner live (updateRows p f rows) := by
  refine fun k => Nat.le_trans (countP_updateRows_le fun r _ _ hq => ?_) (h k)
  rw [hdead, Bool.and_false] at hq
  cases hq

/-- A row is issued after the other live rows of its owner are gone. -/
theorem issue (h : OneEach owner live rows)
    (hnone : ∀ r' ∈ rows, owner r' = owner r → live r' = false) :
    OneEach owner live (rows ++ [r]) := by
  intro k
  rw [List.countP_append]
  by_cases hk : owner r = k
  · have hzero : rows.countP (fun r' => owner r' == k && live r') = 0 := by
      rw [List.countP_eq_zero]
      intro r' hr' hp
      simp only [Bool.and_eq_true, beq_iff_eq] at hp
      rw [hnone r' hr' (hp.1.trans hk.symm)] at hp
      cases hp.2
    rw [hzero, Nat.zero_add]
    exact List.countP_le_length
  · have hzero : [r].countP (fun r' => owner r' == k && live r') = 0 := by
      simp [hk]
    rw [hzero, Nat.add_zero]
    exact h k

end OneEach

/-- The row that an update of exactly one row selects. -/
theorem exists_of_countP_eq_one (h : rows.countP p = 1) : ∃ r ∈ rows, p r = true := by
  apply List.countP_pos_iff.mp
  omega

end Relational
