import Mathlib.Data.List.Infix
import ShipFlow.Billing.Requests

/-! Deliveries for one organization that overtake each other. -/

namespace ShipFlow.Billing
open Interleaving Interleaving.Discipline Relational

variable {Remote : Type} {env : Environment Remote}

/-- The date of no row decreases, and no sync overwrites a row that was written for a
later event. -/
def NeverRegresses (w w' : World Remote) : Prop :=
  (∀ organizationId, ∀ last ∈ w.store.lastEventAt organizationId,
    ∃ last' ∈ w'.store.lastEventAt organizationId, last ≤ last') ∧
  ∀ x ∈ w.newEvents w', ∀ organizationId, ∀ createdAt ∈ x.2.syncedAt organizationId,
    ∀ last ∈ w.store.lastEventAt organizationId, last ≤ createdAt

/-- No sync for a later event commits between the moment at which a delivery reads the row
of the organization and the moment at which it writes the row. -/
def SyncsInOrder (w w' : World Remote) : Prop :=
  ∀ x ∈ w.newEvents w', ∀ organizationId, ∀ createdAt ∈ x.2.syncedAt organizationId,
    ∀ since ∈ w.trace.tails, since.head? = some (x.1, .subscriptionRead organizationId) →
      ∀ y ∈ since, ∀ createdAt' ∈ y.2.syncedAt organizationId, createdAt' ≤ createdAt

/-- The row of an organization is as late as every sync of the run so far. -/
def UpToDate (w : World Remote) : Prop :=
  ∀ organizationId, ∀ x ∈ w.trace, ∀ createdAt ∈ x.2.syncedAt organizationId,
    ∃ last ∈ w.store.lastEventAt organizationId, createdAt ≤ last

section Steps
variable {pid : Nat} {w w' : World Remote}

theorem neverRegresses_same (hsame : ∀ organizationId,
      w'.store.lastEventAt organizationId = w.store.lastEventAt organizationId)
    (hquiet : ∀ x ∈ w.newEvents w', ∀ organizationId, x.2.syncedAt organizationId = none) :
    NeverRegresses w w' := by
  constructor
  · intro organizationId last hlast
    rw [hsame organizationId]
    exact ⟨last, hlast, Int.le_refl last⟩
  · intro x hx organizationId createdAt hcreated
    rw [hquiet x hx organizationId] at hcreated
    cases hcreated

theorem syncsInOrder_same
    (hquiet : ∀ x ∈ w.newEvents w', ∀ organizationId, x.2.syncedAt organizationId = none) :
    SyncsInOrder w w' := by
  intro x hx organizationId createdAt hcreated
  rw [hquiet x hx organizationId] at hcreated
  cases hcreated

/-- An effect either leaves all dates alone or is a sync of one organization, which has
found the row of this organization out of date. -/
theorem Effect.dates (he : Effect env pid w w') :
    (∀ x ∈ w.newEvents w', ∀ organizationId, x.2.syncedAt organizationId = none) ∨
    ∃ row last, w.newEvents w' = [(pid, .synced row)] ∧ Found pid row.organizationId last w ∧
      ∀ t ∈ last, t < row.lastStripeEventCreatedAt := by
  cases he with
  | synced row nextId customers notifications last hfound hlater =>
    exact .inr ⟨row, last, by simp, hfound, hlater⟩
  | called call =>
    refine .inl fun x hx organizationId => ?_
    rw [World.newEvents_advance] at hx
    obtain ⟨e, he, rfl⟩ := List.mem_map.mp hx
    exact call.observed_syncedAt _ organizationId e he
  | idle => exact .inl (by simp)
  | _ => exact .inl (by simp [Event.syncedAt])

/-- What a delivery has found is as late as its event, unless a later sync came between. -/
theorem Found.le {owner : Id} {last : Option Time} {createdAt : Time} (h : Found pid owner last w)
    (hlater : ∀ t ∈ last, t < createdAt)
    (horder : ∀ since ∈ w.trace.tails, since.head? = some (pid, .subscriptionRead owner) →
      ∀ y ∈ since, ∀ createdAt' ∈ y.2.syncedAt owner, createdAt' ≤ createdAt) :
    ∀ t ∈ w.store.lastEventAt owner, t ≤ createdAt := by
  obtain ⟨before, since, htrace, hlast⟩ := h
  intro t ht
  rw [hlast, lastSynced] at ht
  have htail : (pid, .subscriptionRead owner) :: since ∈ w.trace.tails := by
    rw [List.mem_tails, htrace]
    exact List.suffix_append _ _
  cases hsynced : (since.filterMap fun x => x.2.syncedAt owner).getLast? with
  | none =>
    rw [hsynced, Option.none_or] at ht
    exact Int.le_of_lt (hlater t ht)
  | some createdAt' =>
    rw [hsynced, Option.some_or] at ht
    cases ht
    obtain ⟨y, hy, hy'⟩ := List.mem_filterMap.mp (List.mem_of_getLast? hsynced)
    exact horder _ htail rfl y (List.mem_cons_of_mem _ hy) _ hy'

theorem Effect.neverRegresses_iff (he : Effect env pid w w') (h : UpToDate w) :
    (NeverRegresses w w' ↔ SyncsInOrder w w') ∧ (NeverRegresses w w' → UpToDate w') := by
  have hrow : ∀ organizationId, w'.store.lastEventAt organizationId =
      lastSynced organizationId (w.store.lastEventAt organizationId) (w.newEvents w') :=
    he.lastEventAt
  have htrace := he.trace_eq
  rcases he.dates with hquiet | ⟨row, last, hnew, hfound, hlater⟩
  · have hsame : ∀ organizationId,
        w'.store.lastEventAt organizationId = w.store.lastEventAt organizationId := by
      intro organizationId
      have hnone : (w.newEvents w').filterMap (fun x => x.2.syncedAt organizationId) = [] :=
        List.filterMap_eq_nil_iff.mpr fun x hx => hquiet x hx organizationId
      rw [hrow, lastSynced, hnone, List.getLast?_nil, Option.none_or]
    refine ⟨iff_of_true (neverRegresses_same hsame hquiet) (syncsInOrder_same hquiet), fun _ => ?_⟩
    intro organizationId x hx createdAt hcreated
    rw [hsame]
    rw [htrace] at hx
    rcases List.mem_append.mp hx with hx | hx
    · exact h organizationId x hx createdAt hcreated
    · rw [hquiet x hx organizationId] at hcreated
      cases hcreated
  · have hown : w'.store.lastEventAt row.organizationId = some row.lastStripeEventCreatedAt := by
      rw [hrow, hnew]
      simp [lastSynced, Event.syncedAt]
    have hother : ∀ organizationId, organizationId ≠ row.organizationId →
        w'.store.lastEventAt organizationId = w.store.lastEventAt organizationId := by
      intro organizationId hne
      rw [hrow, hnew]
      simp [lastSynced, Event.syncedAt, hne.symm]
    have hregress : NeverRegresses w w' ↔
        ∀ t ∈ w.store.lastEventAt row.organizationId, t ≤ row.lastStripeEventCreatedAt := by
      constructor
      · rintro ⟨-, hover⟩
        exact hover (pid, .synced row) (by simp [hnew]) row.organizationId _
          (by simp [Event.syncedAt])
      · intro hle
        constructor
        · intro organizationId t ht
          by_cases howner : organizationId = row.organizationId
          · subst howner
            exact ⟨_, hown, hle t ht⟩
          · rw [hother organizationId howner]
            exact ⟨t, ht, Int.le_refl t⟩
        · intro x hx organizationId c hc t ht
          rw [hnew, List.mem_singleton] at hx
          subst hx
          simp only [Event.syncedAt, Option.mem_def, Option.ite_none_right_eq_some,
            Option.some.injEq, beq_iff_eq] at hc
          obtain ⟨rfl, rfl⟩ := hc
          exact hle t ht
    refine ⟨⟨fun hnever => ?_, fun horder => ?_⟩, fun hnever => ?_⟩
    · -- every sync so far is at most as late as the row, which is not later than this one
      have hle := hregress.mp hnever
      intro x hx organizationId c hc since hsince hhead y hy c' hc'
      rw [hnew, List.mem_singleton] at hx
      subst hx
      simp only [Event.syncedAt, Option.mem_def, Option.ite_none_right_eq_some,
        Option.some.injEq, beq_iff_eq] at hc
      obtain ⟨rfl, rfl⟩ := hc
      obtain ⟨t, ht, hct⟩ := h row.organizationId y (((List.mem_tails _ _).mp hsince).subset hy) c' hc'
      exact Int.le_trans hct (hle t ht)
    · refine hregress.mpr (hfound.le hlater fun since hsince hhead y hy c' hc' => ?_)
      exact horder (pid, .synced row) (by simp [hnew]) row.organizationId _
        (by simp [Event.syncedAt]) since hsince hhead y hy c' hc'
    · have hle := hregress.mp hnever
      intro organizationId x hx c hc
      rw [htrace, hnew] at hx
      by_cases howner : organizationId = row.organizationId
      · subst howner
        refine ⟨_, hown, ?_⟩
        rcases List.mem_append.mp hx with hx | hx
        · obtain ⟨t, ht, hct⟩ := h _ x hx c hc
          exact Int.le_trans hct (hle t ht)
        · rw [List.mem_singleton.mp hx] at hc
          simp only [Event.syncedAt, beq_self_eq_true, if_true, Option.mem_some_iff] at hc
          exact Int.le_of_eq hc.symm
      · rw [hother organizationId howner]
        rcases List.mem_append.mp hx with hx | hx
        · exact h organizationId x hx c hc
        · rw [List.mem_singleton.mp hx] at hc
          simp [Event.syncedAt, Ne.symm howner] at hc

end Steps

/-! ## Runs -/

/-- The rows never regress in a run if and only if no delivery is overtaken by a later one
between its read and its write of the row. -/
theorem subscription_never_regresses (env : Environment Remote) (s : Store Remote)
    (acts : List (Action (Request Remote) Input)) :
    Config.Along NeverRegresses (handler env) (Config.init s : Billing.Config Remote) acts ↔
      Config.Along SyncsInOrder (handler env) (Config.init s : Billing.Config Remote) acts := by
  refine Config.Meets.along_iff (P := UpToDate) (fun r _ _ _ _ _ => handler_keeps env r)
    (Config.Meets.init True.intro) ?_ (fun w _ _ => ?_) fun pid w w' _ _ he h =>
      he.neverRegresses_iff h
  · simp [UpToDate, Config.init]
  · have hquiet : ∀ x ∈ w.newEvents w, ∀ organizationId, x.2.syncedAt organizationId = none := by
      simp
    exact ⟨neverRegresses_same (fun _ => rfl) hquiet, syncsInOrder_same hquiet⟩

/-- Two changes of a subscription, reported one after the other. -/
def twoEvents : StripeApi (List StripeSubscription) := signing
  [("earlier", ⟨"evt_1", 100, .invoice .paid ⟨"in_1", some "sub_1"⟩⟩),
   ("later", ⟨"evt_2", 200, .invoice .paid ⟨"in_2", some "sub_1"⟩⟩)]

/-- The delivery of the earlier event has read the row when that of the later one writes it. -/
def overtaken : List (Action (Request (List StripeSubscription)) Input) :=
  [.request (.webhook "earlier" "")] ++ advances 0 6 ⟨0⟩ ++
  [.request (.webhook "later" "")] ++ advances 1 8 ⟨0⟩ ++ advances 0 2 ⟨0⟩

theorem subscription_regresses :
    ¬Config.Along NeverRegresses (handler (selling twoEvents))
      (Config.init (acme [proSubscription "sub_1" .active]) : Billing.Config _) overtaken := by
  intro h
  have hdate : Config.Along (fun w w' => ∀ last ∈ w.store.lastEventAt 1,
      ∃ last' ∈ w'.store.lastEventAt 1, last ≤ last') (handler (selling twoEvents))
      (Config.init (acme [proSubscription "sub_1" .active]) : Billing.Config _) overtaken :=
    h.mono fun w w' hnever => hnever.1 1
  revert hdate
  decide +kernel

end ShipFlow.Billing
