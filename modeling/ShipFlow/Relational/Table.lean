import Mathlib.Algebra.GroupWithZero.Nat
import Mathlib.Data.List.Nodup
import ShipFlow.Interleaving.Process

/-! Tables of a relational store and the statements an object-relational
mapper issues on them. A statement commits only if the table it leaves
satisfies its check constraints and its unique indexes. -/

namespace Relational
open Interleaving

class Failures (ε : Type) where
  uniqueViolation : ε
  checkViolation : ε
  recordNotFound : ε

structure Table (σ ρ : Type) where
  rows : σ → List ρ
  put : List ρ → σ → σ
  admits : σ → ρ → Bool
  collides : ρ → ρ → Bool

/-- No two rows collide on a unique index. -/
def distinct {ρ : Type} (collides : ρ → ρ → Bool) : List ρ → Bool
  | [] => true
  | r :: rs => rs.all (fun r' => !collides r r') && distinct collides rs

def updateRows {ρ : Type} (p : ρ → Bool) (f : ρ → ρ) (rows : List ρ) : List ρ :=
  rows.map fun r => if p r then f r else r

def upsertRows {ρ : Type} (p : ρ → Bool) (r : ρ) (f : ρ → ρ) (rows : List ρ) : List ρ :=
  match rows.find? p with
  | none => rows ++ [r]
  | some _ => updateRows p f rows

section Rows
variable {ρ : Type} {collides : ρ → ρ → Bool} {p : ρ → Bool} {f : ρ → ρ} {r r' : ρ}
  {rows rows' : List ρ}

theorem distinct_iff_pairwise :
    distinct collides rows = true ↔ rows.Pairwise fun a b => collides a b = false := by
  induction rows with
  | nil => simp [distinct]
  | cons r rs ih => simp [distinct, ih]

theorem distinct_append :
    distinct collides (rows ++ rows') = true ↔ distinct collides rows = true ∧
      distinct collides rows' = true ∧ ∀ a ∈ rows, ∀ b ∈ rows', collides a b = false := by
  simp only [distinct_iff_pairwise, List.pairwise_append]

theorem distinct_updateRows
    (h : ∀ a b, collides (f a) b = collides a b ∧ collides a (f b) = collides a b) :
    distinct collides (updateRows p f rows) = distinct collides rows := by
  have hsame : ∀ a b, collides (if p a then f a else a) (if p b then f b else b) = collides a b := by
    intro a b
    split
    · split
      · rw [(h a _).1, (h a b).2]
      · exact (h a b).1
    · split
      · exact (h a b).2
      · rfl
  induction rows with
  | nil => rfl
  | cons r rs ih =>
    simp only [updateRows, List.map_cons, distinct] at ih ⊢
    rw [ih, List.all_map]
    congr 2
    funext r'
    exact congrArg not (hsame r r')

/-- An update that makes no rows collide. -/
theorem distinct_updateRows_of_imp
    (h : ∀ a b, (collides (f a) b = true → collides a b = true) ∧
      (collides a (f b) = true → collides a b = true))
    (hrows : distinct collides rows = true) : distinct collides (updateRows p f rows) = true := by
  rw [distinct_iff_pairwise] at hrows ⊢
  rw [updateRows, List.pairwise_map]
  refine hrows.imp fun {a b} hab => ?_
  rw [← Bool.not_eq_true] at hab ⊢
  intro hcollides
  apply hab
  -- undo the update on the left and then on the right
  have hleft : collides a (if p b then f b else b) = true := by
    split at hcollides
    · exact (h a _).1 hcollides
    · exact hcollides
  split at hleft
  · exact (h a b).2 hleft
  · exact hleft

theorem mem_updateRows : r' ∈ updateRows p f rows ↔
    (r' ∈ rows ∧ p r' = false) ∨ ∃ r ∈ rows, p r = true ∧ f r = r' := by
  simp only [updateRows, List.mem_map]
  constructor
  · rintro ⟨r, hr, rfl⟩
    cases hp : p r with
    | true => exact .inr ⟨r, hr, hp, by simp⟩
    | false => exact .inl (by simpa using ⟨hr, hp⟩)
  · rintro (⟨hr, hp⟩ | ⟨r, hr, hp, rfl⟩)
    · exact ⟨r', hr, by simp [hp]⟩
    · exact ⟨r, hr, by simp [hp]⟩

theorem updateRows_map {β : Type} (g : ρ → β) (h : ∀ r, p r = true → g (f r) = g r) :
    (updateRows p f rows).map g = rows.map g := by
  simp only [updateRows, List.map_map]
  refine List.map_congr_left fun r _ => ?_
  cases hp : p r with
  | true => simp [hp, h r hp]
  | false => simp [hp]

theorem updateRows_append : updateRows p f (rows ++ rows') =
    updateRows p f rows ++ updateRows p f rows' := List.map_append

theorem filter_updateRows (q : ρ → Bool) (h : ∀ r, q (f r) = q r) :
    (updateRows p f rows).filter q = updateRows p f (rows.filter q) := by
  simp only [updateRows, List.filter_map]
  congr 1
  refine List.filter_congr fun r _ => ?_
  simp only [Function.comp_apply]
  split
  · exact h r
  · rfl

/-- Updates outside of a selection leave it as it is. -/
theorem filter_updateRows_off (q : ρ → Bool)
    (h : ∀ r ∈ rows, p r = true → q r = false ∧ q (f r) = false) :
    (updateRows p f rows).filter q = rows.filter q := by
  induction rows with
  | nil => rfl
  | cons r rs ih =>
    have hrs := ih fun r' hr' => h r' (List.mem_cons_of_mem _ hr')
    simp only [updateRows, List.map_cons, List.filter_cons] at hrs ⊢
    rw [hrs]
    cases hp : p r with
    | false => simp
    | true =>
      obtain ⟨hq, hqf⟩ := h r List.mem_cons_self hp
      simp [hq, hqf]

theorem filter_filter_off (q : ρ → Bool) (h : ∀ r ∈ rows, q r = true → p r = true) :
    (rows.filter p).filter q = rows.filter q := by
  rw [List.filter_filter]
  refine List.filter_congr fun r hr => ?_
  cases hq : q r with
  | true => rw [h r hr hq, Bool.and_true]
  | false => rw [Bool.false_and]

/-- An update that brings no row into a selection does not make it larger. -/
theorem countP_updateRows_le {q : ρ → Bool}
    (h : ∀ r ∈ rows, p r = true → q (f r) = true → q r = true) :
    (updateRows p f rows).countP q ≤ rows.countP q := by
  rw [updateRows, List.countP_map]
  refine List.countP_mono_left fun r hr hq => ?_
  rw [Function.comp_apply] at hq
  cases hp : p r with
  | true => exact h r hr hp (by simpa [hp] using hq)
  | false => simpa [hp] using hq

theorem sum_filter_le {q q' : ρ → Bool} (size : ρ → Nat) (h : ∀ r ∈ rows, q' r = true → q r = true) :
    ((rows.filter q').map size).sum ≤ ((rows.filter q).map size).sum := by
  induction rows with
  | nil => exact Nat.le_refl 0
  | cons r rs ih =>
    have hrs := ih fun r' hr' => h r' (List.mem_cons_of_mem r hr')
    have hr := h r List.mem_cons_self
    simp only [List.filter_cons]
    cases hq' : q' r with
    | true => simpa [hr hq'] using hrs
    | false =>
      cases hq : q r with
      | true => simpa using Nat.le_add_left_of_le hrs
      | false => simpa using hrs

theorem sum_updateRows_le {q : ρ → Bool} (size : ρ → Nat) (hsize : ∀ r, size (f r) = size r)
    (h : ∀ r ∈ rows, p r = true → q (f r) = true → q r = true) :
    (((updateRows p f rows).filter q).map size).sum ≤ ((rows.filter q).map size).sum := by
  have hmap : ((updateRows p f rows).filter q).map size =
      (rows.filter fun r => q (if p r then f r else r)).map size := by
    rw [updateRows, List.filter_map, List.map_map]
    refine List.map_congr_left fun r _ => ?_
    rw [Function.comp_apply]
    split
    · exact hsize r
    · rfl
  rw [hmap]
  refine sum_filter_le size fun r hr hq => ?_
  cases hp : p r with
  | true => exact h r hr hp (by simpa [hp] using hq)
  | false => simpa [hp] using hq

theorem updateRows_eq_self (h : ∀ r ∈ rows, p r = false) : updateRows p f rows = rows := by
  conv_rhs => rw [← List.map_id rows]
  exact List.map_congr_left fun r hr => by simp [h r hr]

theorem find?_updateRows (h : ∀ r, p r = true → p (f r) = true) :
    (updateRows p f rows).find? p = (rows.find? p).map f := by
  induction rows with
  | nil => rfl
  | cons r rs ih =>
    cases hp : p r with
    | true => simp [updateRows, hp, h r hp]
    | false => simpa [updateRows, hp] using ih

/-- A search for what the update leaves as it is. -/
theorem find?_updateRows_map (q : ρ → Bool) (h : ∀ r, q (f r) = q r) :
    (updateRows p f rows).find? q = (rows.find? q).map fun r => if p r then f r else r := by
  have hq : (q ∘ fun r => if p r then f r else r) = q := by
    funext r
    rw [Function.comp_apply]
    split
    · exact h r
    · rfl
  rw [updateRows, List.find?_map, hq]

theorem find?_updateRows_off (q : ρ → Bool) (h : ∀ r, p r = true → q r = false ∧ q (f r) = false) :
    (updateRows p f rows).find? q = rows.find? q := by
  rw [← List.head?_filter, ← List.head?_filter, filter_updateRows_off q fun r _ => h r]

/-- Where the filter selects the row that is put, it finds the result of the upsert. -/
theorem find?_upsertRows (hr : p r = true) (h : ∀ r, p r = true → p (f r) = true) :
    (upsertRows p r f rows).find? p = some (((rows.find? p).map f).getD r) := by
  unfold upsertRows
  cases hfind : rows.find? p with
  | none => simp [List.find?_append, hfind, hr]
  | some r₀ =>
    simp only [Option.map_some, Option.getD_some]
    rw [find?_updateRows h, hfind, Option.map_some]

theorem find?_upsertRows_off (q : ρ → Bool) (hr : q r = false)
    (h : ∀ r, p r = true → q r = false ∧ q (f r) = false) :
    (upsertRows p r f rows).find? q = rows.find? q := by
  unfold upsertRows
  split
  · simp [List.find?_append, hr]
  · exact find?_updateRows_off q h

/-- All numbers that `key` reads off the rows have been given out. -/
def Below (n : Nat) (key : ρ → Nat) (rows : List ρ) : Prop := ∀ r ∈ rows, key r < n

instance {n : Nat} {key : ρ → Nat} {rows : List ρ} : Decidable (Below n key rows) :=
  inferInstanceAs (Decidable (∀ r ∈ rows, key r < n))

/-- A primary key whose values come from a counter that stands at `n`. -/
def Keyed (n : Nat) (key : ρ → Nat) (rows : List ρ) : Prop :=
  Below n key rows ∧ (rows.map key).Nodup

section Keys
variable {n m : Nat} {key : ρ → Nat}

theorem Below.mono (h : Below n key rows) (hnm : n ≤ m) : Below m key rows :=
  fun r hr => Nat.lt_of_lt_of_le (h r hr) hnm

theorem Below.filter (h : Below n key rows) (q : ρ → Bool) : Below n key (rows.filter q) :=
  fun r hr => h r (List.mem_of_mem_filter hr)

theorem Below.append (h : Below n key rows) (h' : Below n key rows') :
    Below n key (rows ++ rows') := by
  intro r hr
  rcases List.mem_append.mp hr with hr | hr
  · exact h r hr
  · exact h' r hr

theorem Below.concat (h : Below n key rows) (hnm : n ≤ m) (hr : key r < m) :
    Below m key (rows ++ [r]) := by
  refine (h.mono hnm).append fun r' hr' => ?_
  rwa [List.mem_singleton.mp hr']

theorem Below.updateRows (h : Below n key rows) (hf : ∀ r, key (f r) = key r) :
    Below n key (updateRows p f rows) := by
  intro r' hr'
  rcases mem_updateRows.mp hr' with ⟨hr, -⟩ | ⟨r, hr, -, rfl⟩
  · exact h r' hr
  · exact hf r ▸ h r hr

theorem Keyed.mono (h : Keyed n key rows) (hnm : n ≤ m) : Keyed m key rows := ⟨h.1.mono hnm, h.2⟩

theorem Keyed.filter (h : Keyed n key rows) (q : ρ → Bool) : Keyed n key (rows.filter q) :=
  ⟨h.1.filter q, h.2.sublist (List.Sublist.map key List.filter_sublist)⟩

theorem Keyed.updateRows (h : Keyed n key rows) (hf : ∀ r, key (f r) = key r) :
    Keyed n key (updateRows p f rows) :=
  ⟨h.1.updateRows hf, by rw [updateRows_map key fun r _ => hf r]; exact h.2⟩

theorem Keyed.append (h : Keyed n key rows) (hnm : n ≤ m)
    (hfresh : ∀ r ∈ rows', n ≤ key r ∧ key r < m) (hnodup : (rows'.map key).Nodup) :
    Keyed m key (rows ++ rows') := by
  refine ⟨(h.1.mono hnm).append fun r hr => (hfresh r hr).2, ?_⟩
  rw [List.map_append, List.nodup_append]
  refine ⟨h.2, hnodup, ?_⟩
  rintro _ hk _ hk' rfl
  obtain ⟨r, hr, hkr⟩ := List.mem_map.mp hk
  obtain ⟨r', hr', hkr'⟩ := List.mem_map.mp hk'
  have hlt := h.1 r hr
  have hle := (hfresh r' hr').1
  omega

theorem Keyed.concat (h : Keyed n key rows) (hr : n ≤ key r) (hm : key r < m) :
    Keyed m key (rows ++ [r]) := by
  refine h.append (by omega) (fun r' hr' => ?_) (by simp)
  rw [List.mem_singleton.mp hr']
  exact ⟨hr, hm⟩

/-- A primary key identifies its row. -/
theorem Keyed.inj (h : Keyed n key rows) (hr : r ∈ rows) (hr' : r' ∈ rows)
    (hk : key r = key r') : r = r' :=
  List.inj_on_of_nodup_map h.2 hr hr' hk

/-- A filter that selects one row and goes by its key counts one row. -/
theorem Keyed.countP_eq_one {p : ρ → Bool} (h : Keyed n key rows) (hr : r ∈ rows)
    (hp : p r = true) (honly : ∀ r' ∈ rows, p r' = true → key r' = key r) : rows.countP p = 1 := by
  have hone : rows.countP (fun r' => key r' == key r) = 1 := by
    have hcount := List.count_eq_one_of_mem h.2 (List.mem_map_of_mem hr)
    rwa [List.count, List.countP_map] at hcount
  have hle : rows.countP p ≤ rows.countP (fun r' => key r' == key r) := by
    refine List.countP_mono_left fun r' hr' hp' => ?_
    simpa using honly r' hr' hp'
  have hpos : 0 < rows.countP p := List.countP_pos_iff.mpr ⟨r, hr, hp⟩
  omega

/-- The key `k` was given out, and the row that had it, if it is still there, has the value
`v` in this column. -/
def Fixed {β : Type} (n : Nat) (key : ρ → Nat) (column : ρ → β) (k : Nat) (v : β)
    (rows : List ρ) : Prop :=
  k < n ∧ ∀ r ∈ rows, key r = k → column r = v

section Fixed
variable {β : Type} {column : ρ → β} {k : Nat} {v : β}

theorem Keyed.fixed (h : Keyed n key rows) (hr : r ∈ rows) :
    Fixed n key column (key r) (column r) rows :=
  ⟨h.1 r hr, fun _ hr' hk => congrArg column (h.inj hr' hr hk)⟩

theorem Fixed.mono (h : Fixed n key column k v rows) (hnm : n ≤ m) : Fixed m key column k v rows :=
  ⟨Nat.lt_of_lt_of_le h.1 hnm, h.2⟩

theorem Fixed.filter (h : Fixed n key column k v rows) (q : ρ → Bool) :
    Fixed n key column k v (rows.filter q) :=
  ⟨h.1, fun r hr => h.2 r (List.mem_of_mem_filter hr)⟩

theorem Fixed.updateRows (h : Fixed n key column k v rows)
    (hf : ∀ r, key (f r) = key r ∧ column (f r) = column r) :
    Fixed n key column k v (updateRows p f rows) := by
  refine ⟨h.1, fun r' hr' hk => ?_⟩
  rcases mem_updateRows.mp hr' with ⟨hr, -⟩ | ⟨r, hr, -, rfl⟩
  · exact h.2 r' hr hk
  · rw [(hf r).2]
    exact h.2 r hr ((hf r).1.symm.trans hk)

/-- A new row has a new key. -/
theorem Fixed.concat (h : Fixed n key column k v rows) (hnm : n ≤ m) (hr : n ≤ key r) :
    Fixed m key column k v (rows ++ [r]) := by
  refine ⟨Nat.lt_of_lt_of_le h.1 hnm, fun r' hr' hk => ?_⟩
  rcases List.mem_append.mp hr' with hr' | hr'
  · exact h.2 r' hr' hk
  · rw [List.mem_singleton.mp hr'] at hk
    have hlt := h.1
    omega

end Fixed

end Keys

end Rows

namespace Table
variable {σ ρ ε : Type} [Failures ε] (t : Table σ ρ)

/-- The rows satisfy the constraints of the table. -/
def sound (s : σ) (rows : List ρ) : Bool := rows.all (t.admits s) && distinct t.collides rows

def commit (rows : List ρ) : Transaction σ ε Unit := fun s =>
  if rows.all (t.admits s) then
    if distinct t.collides rows then .ok ((), t.put rows s)
    else .error Failures.uniqueViolation
  else .error Failures.checkViolation

def findFirst (p : ρ → Bool) : Transaction σ ε (Option ρ) :=
  Transaction.reads fun s => (t.rows s).find? p

def count (p : ρ → Bool) : Transaction σ ε Nat :=
  Transaction.reads fun s => (t.rows s).countP p

def create (r : ρ) : Transaction σ ε ρ := fun s =>
  (do t.commit (t.rows s ++ [r]); return r) s

def createMany (rs : List ρ) : Transaction σ ε Nat := fun s =>
  (do t.commit (t.rows s ++ rs); return rs.length) s

def updateMany (p : ρ → Bool) (f : ρ → ρ) : Transaction σ ε Nat := fun s =>
  (do t.commit (updateRows p f (t.rows s)); return (t.rows s).countP p) s

/-- Updates the row that a unique filter selects; there must be one. -/
def update (p : ρ → Bool) (f : ρ → ρ) : Transaction σ ε ρ := fun s =>
  match (t.rows s).find? p with
  | none => .error Failures.recordNotFound
  | some r => (do t.commit (updateRows p f (t.rows s)); return f r) s

def upsert (p : ρ → Bool) (r : ρ) (f : ρ → ρ) : Transaction σ ε ρ := fun s =>
  match (t.rows s).find? p with
  | none => t.create r s
  | some _ => t.update p f s

def deleteMany (p : ρ → Bool) : Transaction σ ε Nat := fun s =>
  .ok ((t.rows s).countP p, t.put ((t.rows s).filter fun r => !p r) s)

/-- Deletes the row that a unique filter selects; there must be one. -/
def delete (p : ρ → Bool) : Transaction σ ε Unit := fun s =>
  match (t.rows s).find? p with
  | none => .error Failures.recordNotFound
  | some _ => .ok ((), t.put ((t.rows s).filter fun r => !p r) s)

variable {t} {p : ρ → Bool} {f : ρ → ρ} {r r' : ρ} {rows rs : List ρ} {s s' : σ} {n : Nat}
  {u : Unit} {o : Option ρ}

@[simp] theorem commit_ok : (t.commit rows : Transaction σ ε Unit) s = .ok (u, s') ↔
    t.sound s rows = true ∧ s' = t.put rows s := by
  unfold commit sound
  cases rows.all (t.admits s) <;> cases distinct t.collides rows <;> simp [eq_comm]

theorem commit_error {e : ε} (h : (t.commit rows : Transaction σ ε Unit) s = .error e) :
    e = Failures.uniqueViolation ∨ e = Failures.checkViolation := by
  unfold commit at h
  split at h
  · split at h
    · cases h
    · exact .inl (Except.error.inj h).symm
  · exact .inr (Except.error.inj h).symm

/-- Where every row is admitted, only a unique index can be violated. -/
theorem commit_error_unique {e : ε} (hadmits : ∀ r ∈ rows, t.admits s r = true)
    (h : (t.commit rows : Transaction σ ε Unit) s = .error e) : e = Failures.uniqueViolation := by
  unfold commit at h
  rw [List.all_eq_true.mpr hadmits, if_pos rfl] at h
  split at h
  · cases h
  · exact (Except.error.inj h).symm

omit [Failures ε] in
@[simp] theorem findFirst_ok : (t.findFirst p : Transaction σ ε _) s = .ok (o, s') ↔
    o = (t.rows s).find? p ∧ s' = s := by
  simp [findFirst]

omit [Failures ε] in
@[simp] theorem count_ok : (t.count p : Transaction σ ε _) s = .ok (n, s') ↔
    n = (t.rows s).countP p ∧ s' = s := by
  simp [count]

@[simp] theorem create_ok : (t.create r : Transaction σ ε _) s = .ok (r', s') ↔
    t.sound s (t.rows s ++ [r]) = true ∧ r' = r ∧ s' = t.put (t.rows s ++ [r]) s := by
  simp only [create, Transaction.bind_ok, commit_ok, Transaction.pure_ok]
  constructor
  · rintro ⟨_, _, ⟨h, hs⟩, hr, hs'⟩
    exact ⟨h, hr, hs' ▸ hs⟩
  · rintro ⟨h, hr, hs⟩
    exact ⟨(), _, ⟨h, rfl⟩, hr, hs⟩

@[simp] theorem createMany_ok : (t.createMany rs : Transaction σ ε _) s = .ok (n, s') ↔
    t.sound s (t.rows s ++ rs) = true ∧ n = rs.length ∧ s' = t.put (t.rows s ++ rs) s := by
  simp only [createMany, Transaction.bind_ok, commit_ok, Transaction.pure_ok]
  constructor
  · rintro ⟨_, _, ⟨h, hs⟩, hr, hs'⟩
    exact ⟨h, hr, hs' ▸ hs⟩
  · rintro ⟨h, hr, hs⟩
    exact ⟨(), _, ⟨h, rfl⟩, hr, hs⟩

@[simp] theorem updateMany_ok : (t.updateMany p f : Transaction σ ε _) s = .ok (n, s') ↔
    t.sound s (updateRows p f (t.rows s)) = true ∧ n = (t.rows s).countP p ∧
      s' = t.put (updateRows p f (t.rows s)) s := by
  simp only [updateMany, Transaction.bind_ok, commit_ok, Transaction.pure_ok]
  constructor
  · rintro ⟨_, _, ⟨h, hs⟩, hr, hs'⟩
    exact ⟨h, hr, hs' ▸ hs⟩
  · rintro ⟨h, hr, hs⟩
    exact ⟨(), _, ⟨h, rfl⟩, hr, hs⟩

@[simp] theorem update_ok : (t.update p f : Transaction σ ε _) s = .ok (r', s') ↔
    ∃ r, (t.rows s).find? p = some r ∧ t.sound s (updateRows p f (t.rows s)) = true ∧
      r' = f r ∧ s' = t.put (updateRows p f (t.rows s)) s := by
  unfold update
  cases hf : (t.rows s).find? p with
  | none => simp
  | some r =>
    simp only [Transaction.bind_ok, commit_ok, Transaction.pure_ok, Option.some.injEq]
    constructor
    · rintro ⟨_, _, ⟨h, hs⟩, hr, hs'⟩
      exact ⟨r, rfl, h, hr, hs' ▸ hs⟩
    · rintro ⟨_, rfl, h, hr, hs⟩
      exact ⟨(), _, ⟨h, rfl⟩, hr, hs⟩

@[simp] theorem upsert_ok : (t.upsert p r f : Transaction σ ε _) s = .ok (r', s') ↔
    ((t.rows s).find? p = none ∧ t.sound s (t.rows s ++ [r]) = true ∧ r' = r ∧
      s' = t.put (t.rows s ++ [r]) s) ∨
    ∃ r₀, (t.rows s).find? p = some r₀ ∧ t.sound s (updateRows p f (t.rows s)) = true ∧
      r' = f r₀ ∧ s' = t.put (updateRows p f (t.rows s)) s := by
  unfold upsert
  cases hf : (t.rows s).find? p with
  | none => simp
  | some r₀ => simp [hf]

theorem upsert_rows : (∃ r', (t.upsert p r f : Transaction σ ε _) s = .ok (r', s')) ↔
    t.sound s (upsertRows p r f (t.rows s)) = true ∧ s' = t.put (upsertRows p r f (t.rows s)) s := by
  simp only [upsert_ok, upsertRows]
  cases hf : (t.rows s).find? p with
  | none => simp
  | some r₀ => simp

omit [Failures ε] in
@[simp] theorem deleteMany_ok : (t.deleteMany p : Transaction σ ε _) s = .ok (n, s') ↔
    n = (t.rows s).countP p ∧ s' = t.put ((t.rows s).filter fun r => !p r) s := by
  simp [deleteMany, eq_comm]

@[simp] theorem delete_ok : (t.delete p : Transaction σ ε _) s = .ok (u, s') ↔
    (∃ r, (t.rows s).find? p = some r) ∧ s' = t.put ((t.rows s).filter fun r => !p r) s := by
  unfold delete
  cases hf : (t.rows s).find? p with
  | none => simp
  | some r => simp [eq_comm]

theorem sound_append : t.sound s (rows ++ rs) = true ↔
    t.sound s rows = true ∧ t.sound s rs = true ∧
      ∀ a ∈ rows, ∀ b ∈ rs, t.collides a b = false := by
  simp only [sound, List.all_append, Bool.and_eq_true, distinct_append]
  tauto

theorem sound.admits (h : t.sound s rows = true) (hr : r ∈ rows) : t.admits s r = true := by
  rw [sound, Bool.and_eq_true, List.all_eq_true] at h
  exact h.1 r hr

theorem sound.pairwise (h : t.sound s rows = true) :
    rows.Pairwise fun a b => t.collides a b = false := by
  rw [sound, Bool.and_eq_true, distinct_iff_pairwise] at h
  exact h.2

end Table
end Relational
