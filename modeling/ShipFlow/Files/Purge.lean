import ShipFlow.Files.Requests

/-! The end of a file. A purged row stays purged until maintenance deletes it, whatever
writes other requests had prepared before. -/

namespace ShipFlow.Files
open Interleaving Interleaving.Discipline Relational

/-- A purged row is still there and purged, or its audit period had expired on the clock
of the maintenance run that deleted it. -/
def PurgedStays (w w' : World) : Prop :=
  ∀ f ∈ w.store.storedFiles, f.status = .purged → f.purgedAt.isSome = true ∧
    ((∃ f' ∈ w'.store.storedFiles, f'.id = f.id ∧ f'.status = .purged ∧ f'.purgedAt.isSome = true) ∨
      ∃ e ∈ w.newEvents w', ∃ now, e.2 = .audited now ∧
        f.auditExpiresAt.any (fun auditExpiresAt => auditExpiresAt ≤ now) = true)

/-- No update clears the time of the purge. -/
theorem Transition.apply_purgedAt (t : Transition) {f : StoredFile} (h : f.purgedAt.isSome = true) :
    (t.apply f).purgedAt.isSome = true := by
  cases t with
  | reservationDropped => rfl
  | purged => rfl
  | _ => exact h

/-- `stored_files_lifecycle_check` leaves the time of the purge to purged rows. -/
theorem StoredFile.valid_purged {f : StoredFile} (h : f.valid = true) :
    f.status = .purged ↔ f.purgedAt.isSome = true := by
  have hlifecycle : f.lifecycleCheck = true := by
    simp only [StoredFile.valid, Bool.and_eq_true] at h
    exact h.2
  unfold StoredFile.lifecycleCheck at hlifecycle
  split at hlifecycle <;> simp_all

theorem Transition.purged_rejected (t : Transition) {f : StoredFile} (hvalid : f.valid = true)
    (hpurged : f.status = .purged) (hback : (t.apply f).status ≠ .purged) :
    (t.apply f).valid = false := by
  apply Bool.eq_false_iff.mpr
  intro hvalid'
  have hpurgedAt := (StoredFile.valid_purged hvalid).mp hpurged
  exact hback ((StoredFile.valid_purged hvalid').mpr (t.apply_purgedAt hpurgedAt))

section Steps
variable {env : Environment} {pid : Nat} {w w' : World}

theorem Effect.soundFiles (he : Effect env pid w w') (h : SoundFiles w.store.storedFiles) :
    SoundFiles w'.store.storedFiles := by
  cases he with
  | reserved file hid hstatus hmalware hsound => exact hsound
  | updated t hallowed hsound => exact hsound
  | audited p now hpurged =>
    refine ⟨fun f hf => h.1 f (List.mem_of_mem_filter hf), ?_⟩
    exact distinct_iff_pairwise.mpr ((distinct_iff_pairwise.mp h.2).sublist List.filter_sublist)
  | _ => exact h

theorem Effect.purgedStays (he : Effect env pid w w') (h : SoundFiles w.store.storedFiles) :
    PurgedStays w w' := by
  intro f hf hpurged
  have hpurgedAt := (StoredFile.valid_purged (h.1 f hf)).mp hpurged
  refine ⟨hpurgedAt, ?_⟩
  cases he with
  | reserved file hid hstatus hmalware hsound =>
    exact .inl ⟨f, List.mem_append_left _ hf, rfl, hpurged, hpurgedAt⟩
  | updated t hallowed hsound =>
    cases hselected : t.selects f with
    | false => exact .inl ⟨f, mem_updateRows.mpr (.inl ⟨hf, hselected⟩), rfl, hpurged, hpurgedAt⟩
    | true =>
      have hmem : t.apply f ∈ updateRows t.selects t.apply w.store.storedFiles :=
        mem_updateRows.mpr (.inr ⟨f, hf, hselected, rfl⟩)
      have hpurgedAt' := t.apply_purgedAt hpurgedAt
      have hpurged' := (StoredFile.valid_purged (hsound.1 _ hmem)).mpr hpurgedAt'
      exact .inl ⟨_, hmem, (t.apply_keys f).1, hpurged', hpurgedAt'⟩
  | audited p now hp =>
    cases hselected : p f with
    | false =>
      have hmem : f ∈ w.store.storedFiles.filter fun f => !p f :=
        List.mem_filter.mpr ⟨hf, by simp [hselected]⟩
      exact .inl ⟨f, hmem, rfl, hpurged, hpurgedAt⟩
    | true => exact .inr ⟨(pid, .audited now), by simp, now, rfl, (hp f hselected).2⟩
  | _ => exact .inl ⟨f, hf, rfl, hpurged, hpurgedAt⟩

end Steps

/-- In every run a purged row stays purged until maintenance deletes it after its audit
period; a write that would bring a purged file back violates the check constraint. -/
theorem purged_absorbing (env : Environment) (nextId : Id) (users : List FileUploader)
    (plans : List Billing.Plan) (subscriptions : List Billing.Subscription)
    (acts : List (Action Request Input)) :
    Config.Along PurgedStays (handler env)
      (Config.init (Store.empty nextId users plans subscriptions) : Files.Config) acts ∧
    ∀ (t : Transition) (f : StoredFile), f.valid = true → f.status = .purged →
      (t.apply f).status ≠ .purged → (t.apply f).valid = false := by
  refine ⟨?_, fun t f hvalid hpurged hback => t.purged_rejected hvalid hpurged hback⟩
  apply Config.Meets.along (P := fun w => SoundFiles w.store.storedFiles)
    (fun r _ _ _ _ _ => handler_keeps env r)
    (Config.Meets.init (recorded_empty nextId users plans subscriptions))
  · exact ⟨by simp [Config.init, Store.empty], rfl⟩
  · intro w _ hsound
    have hidle : Effect env 0 w w := .idle
    exact hidle.purgedStays hsound
  · intro pid w w' _ _ he hsound
    exact ⟨he.purgedStays hsound, he.soundFiles hsound⟩

end ShipFlow.Files
