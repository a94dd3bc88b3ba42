import Mathlib.Data.List.Pairwise
import ShipFlow.Interleaving.Coupling
import ShipFlow.Relational.Table

/-! A table that several tenants share. What a statement on the rows of one tenant answers,
and whether it commits, is decided by the rows of this tenant. -/

namespace Relational
open Interleaving
variable {σ ρ ε : Type}

section Rows
variable {mine p p' : ρ → Bool} {f : ρ → ρ} {r : ρ} {rows rows' : List ρ}

/-- Two tables with the same rows of a tenant answer the tenant's selections alike. -/
theorem filter_agree (h : rows.filter mine = rows'.filter mine)
    (hp : ∀ r, p r = true → mine r = true) (hp' : ∀ r, p' r = true → mine r = true)
    (heq : ∀ r, mine r = true → p r = p' r) : rows.filter p = rows'.filter p' := by
  have hsub : ∀ (q : ρ → Bool) (l : List ρ), (∀ r, q r = true → mine r = true) →
      l.filter q = (l.filter mine).filter q :=
    fun q l hq => (filter_filter_off q fun r _ => hq r).symm
  rw [hsub p rows hp, hsub p' rows' hp', h]
  refine List.filter_congr fun r hr => ?_
  exact heq r (List.of_mem_filter hr)

theorem find?_agree (h : rows.filter mine = rows'.filter mine)
    (hp : ∀ r, p r = true → mine r = true) (hp' : ∀ r, p' r = true → mine r = true)
    (heq : ∀ r, mine r = true → p r = p' r) : rows.find? p = rows'.find? p' := by
  rw [← List.head?_filter, ← List.head?_filter, filter_agree h hp hp' heq]

theorem countP_agree (h : rows.filter mine = rows'.filter mine)
    (hp : ∀ r, p r = true → mine r = true) (hp' : ∀ r, p' r = true → mine r = true)
    (heq : ∀ r, mine r = true → p r = p' r) : rows.countP p = rows'.countP p' := by
  rw [List.countP_eq_length_filter, List.countP_eq_length_filter, filter_agree h hp hp' heq]

theorem any_agree (h : rows.filter mine = rows'.filter mine)
    (hp : ∀ r, p r = true → mine r = true) (hp' : ∀ r, p' r = true → mine r = true)
    (heq : ∀ r, mine r = true → p r = p' r) : rows.any p = rows'.any p' := by
  rw [← List.isSome_find?, ← List.isSome_find?, find?_agree h hp hp' heq]

/-- Both tables have a row that one of them has among those of the tenant. -/
theorem mem_agree (h : rows.filter mine = rows'.filter mine) (hr : r ∈ rows)
    (hmine : mine r = true) : r ∈ rows' := by
  have hmem : r ∈ rows.filter mine := List.mem_filter.mpr ⟨hr, hmine⟩
  rw [h] at hmem
  exact List.mem_of_mem_filter hmem

end Rows

/-- The rows of the other tenants. -/
def others (mine : ρ → Bool) (rows : List ρ) : List ρ := rows.filter fun r => !mine r

theorem mem_others {mine : ρ → Bool} {rows : List ρ} {r : ρ} :
    r ∈ others mine rows ↔ r ∈ rows ∧ mine r = false := by
  simp [others]

theorem others_updateRows {mine p : ρ → Bool} {f : ρ → ρ} {rows : List ρ}
    (hp : ∀ r ∈ rows, p r = true → mine r = true) (hf : ∀ r, mine (f r) = mine r) :
    others mine (updateRows p f rows) = others mine rows := by
  refine filter_updateRows_off _ fun r hr hsel => ?_
  rw [hf, hp r hr hsel]
  exact ⟨rfl, rfl⟩

theorem others_filter {mine p : ρ → Bool} {rows : List ρ}
    (hp : ∀ r ∈ rows, p r = false → mine r = true) :
    others mine (rows.filter p) = others mine rows := by
  refine filter_filter_off _ fun r hr hother => ?_
  by_contra hdeleted
  rw [hp r hr (by simpa using hdeleted)] at hother
  cases hother

theorem others_concat {mine : ρ → Bool} {r : ρ} {rows : List ρ} (hr : mine r = true) :
    others mine (rows ++ [r]) = others mine rows := by
  rw [others, others, List.filter_append]
  simp [hr]

/-- The row with this key, if there is one, belongs to the tenant. -/
def Owned (mine : ρ → Bool) (key : ρ → Nat) (id : Nat) (rows : List ρ) : Prop :=
  ∀ r ∈ rows, key r = id → mine r = true

theorem Owned.of_others {mine : ρ → Bool} {key : ρ → Nat} {id : Nat} {rows rows' : List ρ}
    (h : Owned mine key id rows) (heq : others mine rows' = others mine rows) :
    Owned mine key id rows' := by
  intro r hr hkey
  by_contra hother
  have hmem : r ∈ others mine rows := heq ▸ mem_others.mpr ⟨hr, by simpa using hother⟩
  exact hother (h r (mem_others.mp hmem).1 hkey)

/-- The indexes compare two rows alike in either order, and a check constraint looks at
nothing but its row. -/
structure Table.Plain (t : Table σ ρ) : Prop where
  symm : ∀ a b, t.collides a b = t.collides b a
  admits : ∀ s s' r, t.admits s r = t.admits s' r

/-- The rows `rows` come from those of `s` by changing rows of the tenant only, and these
collide with no row of another tenant. -/
structure Table.Rewrites (t : Table σ ρ) (mine : ρ → Bool) (s : σ) (rows : List ρ) : Prop where
  kept : others mine rows = others mine (t.rows s)
  apart : ∀ a ∈ rows, mine a = true → ∀ b ∈ t.rows s, mine b = false → t.collides a b = false

namespace Table
variable {t : Table σ ρ} {mine p : ρ → Bool} {f : ρ → ρ} {r : ρ} {rows rows' : List ρ} {s s' : σ}

/-- Two rows that an index would tell apart are one. -/
theorem Plain.inj (h : t.Plain) (hs : t.sound s rows = true) {a b : ρ} (ha : a ∈ rows)
    (hb : b ∈ rows) (hab : t.collides a b = true) : a = b := by
  have : Std.Symm fun a b => t.collides a b = false := ⟨fun a b hf => (h.symm b a).trans hf⟩
  by_contra hne
  rw [(Table.sound.pairwise hs).forall ha hb hne] at hab
  cases hab

theorem Plain.owned {key : ρ → Nat} (h : t.Plain) (hs : t.sound s rows = true)
    (hkey : ∀ a b, key a = key b → t.collides a b = true) (hr : r ∈ rows) (hmine : mine r = true) :
    Owned mine key (key r) rows := by
  intro r' hr' hid
  rw [h.inj hs hr' hr (hkey r' r hid)]
  exact hmine

theorem distinct_split (mine : ρ → Bool) (h : t.Plain) : distinct t.collides rows = true ↔
    distinct t.collides (rows.filter mine) = true ∧ distinct t.collides (others mine rows) = true ∧
      ∀ a ∈ rows.filter mine, ∀ b ∈ others mine rows, t.collides a b = false := by
  rw [← distinct_append, distinct_iff_pairwise, distinct_iff_pairwise]
  refine ((List.filter_append_perm mine rows).pairwise_iff fun {a b} hab => ?_).symm
  rw [h.symm]
  exact hab

theorem Rewrites.refl (h : t.Plain) (hs : t.sound s (t.rows s) = true) :
    t.Rewrites mine s (t.rows s) := by
  rw [sound, Bool.and_eq_true, distinct_split mine h] at hs
  refine ⟨rfl, fun a ha hmine b hb hother => ?_⟩
  exact hs.2.2.2 a (List.mem_filter.mpr ⟨ha, hmine⟩) b (mem_others.mpr ⟨hb, hother⟩)

theorem Rewrites.updateRows (h : t.Rewrites mine s rows)
    (hp : ∀ r ∈ rows, p r = true → mine r = true) (hf : ∀ r, mine (f r) = mine r)
    (hapart : ∀ a ∈ rows, p a = true → ∀ b ∈ t.rows s, mine b = false →
      t.collides (f a) b = false) : t.Rewrites mine s (updateRows p f rows) := by
  refine ⟨?_, fun a ha hmine b hb hother => ?_⟩
  · exact (others_updateRows hp hf).trans h.kept
  · rcases mem_updateRows.mp ha with ⟨ha, -⟩ | ⟨r, hr, hsel, rfl⟩
    · exact h.apart a ha hmine b hb hother
    · exact hapart r hr hsel b hb hother

theorem Rewrites.filter (h : t.Rewrites mine s rows)
    (hp : ∀ r ∈ rows, p r = false → mine r = true) : t.Rewrites mine s (rows.filter p) :=
  ⟨(others_filter hp).trans h.kept, fun a ha => h.apart a (List.mem_of_mem_filter ha)⟩

/-- Whether the new rows satisfy the constraints shows in the rows of the tenant. -/
theorem Rewrites.sound_eq (h : t.Rewrites mine s rows) (hplain : t.Plain)
    (hs : t.sound s (t.rows s) = true) :
    rows.all (t.admits s) = (rows.filter mine).all (t.admits s) ∧
      distinct t.collides rows = distinct t.collides (rows.filter mine) := by
  rw [sound, Bool.and_eq_true, List.all_eq_true] at hs
  obtain ⟨hadmits, hdistinct⟩ := hs
  have hothers : ∀ r ∈ rows, mine r = false → r ∈ t.rows s := by
    intro r hr hother
    have hmem : r ∈ others mine (t.rows s) := h.kept ▸ mem_others.mpr ⟨hr, hother⟩
    exact (mem_others.mp hmem).1
  constructor
  · rw [Bool.eq_iff_iff, List.all_eq_true, List.all_eq_true]
    refine ⟨fun hall r hr => hall r (List.mem_of_mem_filter hr), fun hall r hr => ?_⟩
    cases hmine : mine r with
    | true => exact hall r (List.mem_filter.mpr ⟨hr, hmine⟩)
    | false => exact hadmits r (hothers r hr hmine)
  · rw [Bool.eq_iff_iff, distinct_split mine hplain, h.kept]
    refine ⟨fun hd => hd.1, fun hd => ⟨hd, ((distinct_split mine hplain).mp hdistinct).2.1, ?_⟩⟩
    intro a ha b hb
    obtain ⟨ha, hmine⟩ := List.mem_filter.mp ha
    obtain ⟨hb, hother⟩ := mem_others.mp hb
    exact h.apart a ha hmine b hb hother

section Coupled
variable [Failures ε]

/-- The two tables `rows` and `rows'` with the same rows of a tenant are committed together
or not at all. -/
theorem commit_coupled (hplain : t.Plain) (hs : t.sound s (t.rows s) = true)
    (hs' : t.sound s' (t.rows s') = true) (h : t.Rewrites mine s rows)
    (h' : t.Rewrites mine s' rows') (hrows : rows.filter mine = rows'.filter mine) :
    Transaction.Coupled (fun _ s₁ _ s₁' => t.sound s rows = true ∧ s₁ = t.put rows s ∧
      t.sound s' rows' = true ∧ s₁' = t.put rows' s')
      (t.commit rows : Transaction σ ε Unit) (t.commit rows') s s' := by
  obtain ⟨hall, hdistinct⟩ := h.sound_eq hplain hs
  obtain ⟨hall', hdistinct'⟩ := h'.sound_eq hplain hs'
  have hadmits : rows.all (t.admits s) = rows'.all (t.admits s') := by
    rw [hall, hall', hrows]
    congr 1
    funext r
    exact hplain.admits s s' r
  rw [← hrows, ← hdistinct] at hdistinct'
  -- the same constraint refuses both writes, or both are made
  cases ha : rows.all (t.admits s) with
  | false =>
    refine .inl ⟨Failures.checkViolation, ?_, ?_⟩
    · simp [commit, ha]
    · simp [commit, ← hadmits, ha]
  | true =>
    cases hd : distinct t.collides rows with
    | false =>
      refine .inl ⟨Failures.uniqueViolation, ?_, ?_⟩
      · simp [commit, ha, hd]
      · simp [commit, ← hadmits, ha, hdistinct', hd]
    | true =>
      refine .inr ⟨(), t.put rows s, (), t.put rows' s', ?_, ?_, ?_, rfl, ?_, rfl⟩
      · simp [commit, ha, hd]
      · simp [commit, ← hadmits, ha, hdistinct', hd]
      · simp [sound, ha, hd]
      · simp [sound, ← hadmits, ha, hdistinct', hd]

/-- Whether a new row commits, which collides with no row of another tenant. -/
theorem concat_sound (hs : t.sound s (t.rows s) = true) (r : ρ)
    (hapart : ∀ b ∈ t.rows s, mine b = false → t.collides b r = false) :
    (t.rows s ++ [r]).all (t.admits s) = t.admits s r ∧
      distinct t.collides (t.rows s ++ [r]) =
        ((t.rows s).filter mine).all fun b => !t.collides b r := by
  rw [sound, Bool.and_eq_true] at hs
  constructor
  · simp [List.all_append, hs.1]
  · rw [Bool.eq_iff_iff, distinct_append, List.all_eq_true]
    constructor
    · rintro ⟨-, -, hnone⟩ b hb
      simp [hnone b (List.mem_of_mem_filter hb) r (List.mem_singleton_self r)]
    · refine fun hnone => ⟨hs.2, rfl, fun b hb r' hr' => ?_⟩
      rw [List.mem_singleton.mp hr']
      cases hmine : mine b with
      | true => simpa using hnone b (List.mem_filter.mpr ⟨hb, hmine⟩)
      | false => exact hapart b hb hmine

theorem create_eq (s : σ) (r : ρ) : (t.create r : Transaction σ ε ρ) s =
    if (t.rows s ++ [r]).all (t.admits s) then
      if distinct t.collides (t.rows s ++ [r]) then .ok (r, t.put (t.rows s ++ [r]) s)
      else .error Failures.uniqueViolation
    else .error Failures.checkViolation := by
  simp only [create, commit, bind, StateT.bind, Except.bind]
  cases (t.rows s ++ [r]).all (t.admits s) with
  | false => rfl
  | true =>
    cases distinct t.collides (t.rows s ++ [r]) with
    | false => rfl
    | true => rfl

/-- Two new rows of a tenant that the indexes do not tell apart from its other rows. -/
theorem create_coupled {r r' : ρ} (hs : t.sound s (t.rows s) = true)
    (hs' : t.sound s' (t.rows s') = true)
    (hagree : (t.rows s).filter mine = (t.rows s').filter mine)
    (hadmits : t.admits s r = t.admits s' r')
    (hcollides : ∀ b ∈ (t.rows s).filter mine, t.collides b r = t.collides b r')
    (hapart : ∀ b ∈ t.rows s, mine b = false → t.collides b r = false)
    (hapart' : ∀ b ∈ t.rows s', mine b = false → t.collides b r' = false) :
    Transaction.Coupled (fun b s₁ b' s₁' => b = r ∧ b' = r' ∧ t.sound s (t.rows s ++ [r]) = true ∧
      s₁ = t.put (t.rows s ++ [r]) s ∧ t.sound s' (t.rows s' ++ [r']) = true ∧
      s₁' = t.put (t.rows s' ++ [r']) s') (t.create r : Transaction σ ε ρ) (t.create r') s s' := by
  obtain ⟨hall, hdistinct⟩ := concat_sound hs r hapart
  obtain ⟨hall', hdistinct'⟩ := concat_sound hs' r' hapart'
  -- no row of another tenant collides, so the rows that agree decide
  have hsame : distinct t.collides (t.rows s' ++ [r']) = distinct t.collides (t.rows s ++ [r]) := by
    rw [hdistinct, hdistinct', ← hagree, Bool.eq_iff_iff, List.all_eq_true, List.all_eq_true]
    constructor
    · exact fun h b hb => by rw [hcollides b hb]; exact h b hb
    · exact fun h b hb => by rw [← hcollides b hb]; exact h b hb
  unfold Transaction.Coupled
  rw [create_eq, create_eq, hall, hall', hsame, ← hadmits]
  cases ha : t.admits s r with
  | false => exact .inl ⟨Failures.checkViolation, rfl, rfl⟩
  | true =>
    cases hd : distinct t.collides (t.rows s ++ [r]) with
    | false => exact .inl ⟨Failures.uniqueViolation, rfl, rfl⟩
    | true =>
      refine .inr ⟨r, _, r', _, rfl, rfl, rfl, rfl, ?_, rfl, ?_, rfl⟩
      · rw [sound, hall, ha, hd, Bool.and_self]
      · rw [sound, hall', ← hadmits, ha, hsame, hd, Bool.and_self]

end Coupled
end Table

/-- A relation between two stores with the same rows of a tenant in this table, which holds
after every change of these rows that brings in no new key. -/
structure Table.Tenanted {κ : Type} (t : Table σ ρ) (mine : ρ → Bool) (key : ρ → κ)
    (P : σ → σ → Prop) : Prop where
  plain : t.Plain
  agree : ∀ s s', P s s' → (t.rows s).filter mine = (t.rows s').filter mine
  sound : ∀ s s', P s s' → t.sound s (t.rows s) = true ∧ t.sound s' (t.rows s') = true
  put : ∀ s s' rows rows', P s s' → t.Rewrites mine s rows → t.Rewrites mine s' rows' →
    t.sound s rows = true → t.sound s' rows' = true → rows.filter mine = rows'.filter mine →
    (∀ a ∈ rows, ∃ a₀ ∈ t.rows s, key a₀ = key a) →
    (∀ a ∈ rows', ∃ a₀ ∈ t.rows s', key a₀ = key a) → P (t.put rows s) (t.put rows' s')

namespace Table.Tenanted
variable {κ : Type} {t : Table σ ρ} {mine p : ρ → Bool} {key : ρ → κ} {f : ρ → ρ}
  {P : σ → σ → Prop} {s s' : σ} [Failures ε]

/-- The update of a tenant that leaves the keys of its rows alone. -/
structure Updates {κ : Type} (t : Table σ ρ) (mine p : ρ → Bool) (key : ρ → κ) (f : ρ → ρ)
    (s : σ) : Prop where
  selects : ∀ r ∈ t.rows s, p r = true → mine r = true
  apart : ∀ a ∈ t.rows s, p a = true → ∀ b ∈ t.rows s, mine b = false →
    t.collides (f a) b = false
  tenant : ∀ r, mine (f r) = mine r
  key : ∀ r, key (f r) = key r

omit [Failures ε] in
/-- An update that leaves alone what rows of two tenants can collide on. -/
theorem Updates.of_keys (hplain : t.Plain) (hs : t.sound s (t.rows s) = true)
    (hp : ∀ r ∈ t.rows s, p r = true → mine r = true) (htenant : ∀ r, mine (f r) = mine r)
    (hkey : ∀ r, key (f r) = key r)
    (hkeys : ∀ a b, mine a = true → mine b = false → t.collides (f a) b = t.collides a b) :
    Updates t mine p key f s := by
  refine ⟨hp, fun a ha hsel b hb hother => ?_, htenant, hkey⟩
  have hmine := hp a ha hsel
  rw [hkeys a b hmine hother]
  exact (Rewrites.refl hplain hs).apart a ha hmine b hb hother

omit [Failures ε] in
theorem updateRows_key (hf : ∀ r, key (f r) = key r) {rows : List ρ} :
    ∀ a ∈ updateRows p f rows, ∃ a₀ ∈ rows, key a₀ = key a := by
  intro a ha
  rcases mem_updateRows.mp ha with ⟨ha, -⟩ | ⟨r, hr, -, rfl⟩
  · exact ⟨a, ha, rfl⟩
  · exact ⟨r, hr, (hf r).symm⟩

theorem commit (h : t.Tenanted mine key P) (hP : P s s') {rows rows' : List ρ}
    (hrows : t.Rewrites mine s rows) (hrows' : t.Rewrites mine s' rows')
    (hagree : rows.filter mine = rows'.filter mine)
    (hkey : ∀ a ∈ rows, ∃ a₀ ∈ t.rows s, key a₀ = key a)
    (hkey' : ∀ a ∈ rows', ∃ a₀ ∈ t.rows s', key a₀ = key a) :
    Transaction.Coupled (fun _ s₁ _ s₁' => P s₁ s₁') (t.commit rows : Transaction σ ε Unit)
      (t.commit rows') s s' := by
  obtain ⟨hs, hs'⟩ := h.sound s s' hP
  refine (commit_coupled h.plain hs hs' hrows hrows' hagree).mono fun _ s₁ _ s₁' hcommit => ?_
  obtain ⟨hsound, rfl, hsound', rfl⟩ := hcommit
  exact h.put s s' rows rows' hP hrows hrows' hsound hsound' hagree hkey hkey'

theorem commit_update (h : t.Tenanted mine key P) (hP : P s s')
    (hu : Updates t mine p key f s) (hu' : Updates t mine p key f s') :
    Transaction.Coupled (fun _ s₁ _ s₁' => P s₁ s₁')
      (t.commit (updateRows p f (t.rows s)) : Transaction σ ε Unit)
      (t.commit (updateRows p f (t.rows s'))) s s' := by
  obtain ⟨hs, hs'⟩ := h.sound s s' hP
  refine h.commit hP ?_ ?_ ?_ (updateRows_key hu.key) (updateRows_key hu'.key)
  · exact (Rewrites.refl h.plain hs).updateRows hu.selects hu.tenant hu.apart
  · exact (Rewrites.refl h.plain hs').updateRows hu'.selects hu'.tenant hu'.apart
  · rw [filter_updateRows mine hu.tenant, filter_updateRows mine hu.tenant, h.agree s s' hP]

omit [Failures ε] in
/-- The selections of an update find the same rows in both stores. -/
theorem selected (h : t.Tenanted mine key P) (hP : P s s')
    (hp : ∀ r ∈ t.rows s, p r = true → mine r = true)
    (hp' : ∀ r ∈ t.rows s', p r = true → mine r = true) :
    (t.rows s).filter p = (t.rows s').filter p := by
  rw [← filter_filter_off p hp, ← filter_filter_off p hp', h.agree s s' hP]

theorem update (h : t.Tenanted mine key P) (hP : P s s') (hu : Updates t mine p key f s)
    (hu' : Updates t mine p key f s') :
    Transaction.Coupled (fun r s₁ r' s₁' => r = r' ∧ mine r = true ∧ P s₁ s₁')
      (t.update p f : Transaction σ ε ρ) (t.update p f) s s' := by
  have hfind : (t.rows s).find? p = (t.rows s').find? p := by
    rw [← List.head?_filter, ← List.head?_filter, h.selected hP hu.selects hu'.selects]
  unfold Transaction.Coupled Table.update
  cases hr : (t.rows s).find? p with
  | none =>
    rw [← hfind, hr]
    exact .inl ⟨Failures.recordNotFound, rfl, rfl⟩
  | some r =>
    rw [← hfind, hr]
    have hmine : mine (f r) = true := by
      rw [hu.tenant]
      exact hu.selects r (List.mem_of_find?_eq_some hr) (List.find?_some hr)
    exact (h.commit_update hP hu hu').bind fun _ s₁ _ s₁' hP₁ => .pure ⟨rfl, hmine, hP₁⟩

theorem updateMany (h : t.Tenanted mine key P) (hP : P s s') (hu : Updates t mine p key f s)
    (hu' : Updates t mine p key f s') :
    Transaction.Coupled (fun n s₁ n' s₁' => n = n' ∧ P s₁ s₁')
      (t.updateMany p f : Transaction σ ε Nat) (t.updateMany p f) s s' := by
  have hcount : (t.rows s).countP p = (t.rows s').countP p := by
    rw [List.countP_eq_length_filter, List.countP_eq_length_filter,
      h.selected hP hu.selects hu'.selects]
  unfold Transaction.Coupled Table.updateMany
  exact (h.commit_update hP hu hu').bind fun _ s₁ _ s₁' hP₁ => .pure ⟨hcount, hP₁⟩

omit [Failures ε] in
theorem sound_filter {rows : List ρ} (hs : t.sound s rows = true) (q : ρ → Bool) :
    t.sound s (rows.filter q) = true := by
  rw [Table.sound, Bool.and_eq_true, List.all_eq_true] at hs ⊢
  refine ⟨fun r hr => hs.1 r (List.mem_of_mem_filter hr), ?_⟩
  exact distinct_iff_pairwise.mpr ((distinct_iff_pairwise.mp hs.2).sublist List.filter_sublist)

theorem delete (h : t.Tenanted mine key P) (hP : P s s')
    (hp : ∀ r ∈ t.rows s, p r = true → mine r = true)
    (hp' : ∀ r ∈ t.rows s', p r = true → mine r = true) :
    Transaction.Coupled (fun _ s₁ _ s₁' => P s₁ s₁') (t.delete p : Transaction σ ε Unit)
      (t.delete p) s s' := by
  obtain ⟨hs, hs'⟩ := h.sound s s' hP
  have hfind : (t.rows s).find? p = (t.rows s').find? p := by
    rw [← List.head?_filter, ← List.head?_filter, h.selected hP hp hp']
  unfold Transaction.Coupled Table.delete
  cases hr : (t.rows s).find? p with
  | none =>
    rw [← hfind, hr]
    exact .inl ⟨Failures.recordNotFound, rfl, rfl⟩
  | some r =>
    rw [← hfind, hr]
    refine .inr ⟨(), _, (), _, rfl, rfl, h.put s s' _ _ hP ?_ ?_ (sound_filter hs _)
      (sound_filter hs' _) ?_ ?_ ?_⟩
    · exact (Rewrites.refl h.plain hs).filter fun r hr hdeleted => hp r hr (by simpa using hdeleted)
    · exact (Rewrites.refl h.plain hs').filter fun r hr hdeleted =>
        hp' r hr (by simpa using hdeleted)
    · rw [List.filter_comm, h.agree s s' hP, List.filter_comm]
    · exact fun a ha => ⟨a, List.mem_of_mem_filter ha, rfl⟩
    · exact fun a ha => ⟨a, List.mem_of_mem_filter ha, rfl⟩

end Table.Tenanted
end Relational
