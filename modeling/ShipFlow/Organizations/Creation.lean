import ShipFlow.Organizations.Effects
import ShipFlow.Organizations.Slugs

/-! What becomes of `createOrganization` with no other request in between. -/

namespace ShipFlow.Organizations
open Interleaving Interleaving.Process Relational

section Transaction
variable {s : Store} {slug : String}

end Transaction

/-! ## The slugs in turn -/

/-- What becomes of errors, in any store: the transactions for the slugs run in turn as long as
they fail on a unique index, and any other error of one is the outcome. -/
structure FailsUnchanged (w : World) (userId : Id) (name : String) (slugs : List String)
    (r : Except Failure OrganizationResponse) (w' : World) : Prop where
  unchanged : ∀ e, r = .error e → w' = w
  source : ∀ e, r = .error e → e = .http .conflict "A unique organization slug is unavailable" ∨
    e.isUniqueConstraintError = false ∧
      ∃ slug ∈ slugs, createWithOwner userId name slug w.store = .error e
  exhausted : (∀ slug ∈ slugs, createWithOwner userId name slug w.store = .error .uniqueConstraint) →
    r = .error (.http .conflict "A unique organization slug is unavailable")
  rethrown : ∀ before slug after e, slugs = before ++ slug :: after →
    (∀ taken ∈ before, createWithOwner userId name taken w.store = .error .uniqueConstraint) →
    createWithOwner userId name slug w.store = .error e → e.isUniqueConstraintError = false →
      r = .error e

section Slugs
variable {I : Input → Prop} {pid : Nat} {w w' : World} {userId : Id} {name slug : String}
  {slugs : List String} {r : Except Failure OrganizationResponse} {response : OrganizationResponse}

/-- The attempt commits, and there is no error to speak of. -/
theorem FailsUnchanged.commit {x : (OrganizationRecord × Membership) × Store}
    (hok : createWithOwner userId name slug w.store = .ok x) :
    FailsUnchanged w userId name (slug :: slugs) (.ok response) w' := by
  have hsucceeds (e : Failure) : createWithOwner userId name slug w.store ≠ .error e := by
    rw [hok]
    intro h
    cases h
  refine ⟨fun e he => absurd he (by simp), fun e he => absurd he (by simp), fun hall => ?_, ?_⟩
  · exact absurd (hall slug List.mem_cons_self) (hsucceeds _)
  · intro before later after e heq hbefore herror
    cases before with
    | nil =>
      cases heq
      exact absurd herror (hsucceeds e)
    | cons taken before =>
      obtain ⟨rfl, -⟩ := List.cons.inj heq
      exact absurd (hbefore _ List.mem_cons_self) (hsucceeds _)

/-- The slug is taken, and the outcome is that of the rest. -/
theorem FailsUnchanged.retry {e : Failure}
    (he : createWithOwner userId name slug w.store = .error e)
    (hunique : e.isUniqueConstraintError = true) (h : FailsUnchanged w userId name slugs r w') :
    FailsUnchanged w userId name (slug :: slugs) r w' := by
  refine ⟨h.unchanged, fun e' he' => ?_, fun hall => ?_, ?_⟩
  · refine (h.source e' he').imp_right fun ⟨hother, later, hlater, hfailed⟩ => ?_
    exact ⟨hother, later, List.mem_cons_of_mem _ hlater, hfailed⟩
  · exact h.exhausted fun later hlater => hall later (List.mem_cons_of_mem _ hlater)
  · intro before later after e' heq hbefore herror hother
    cases before with
    | nil =>
      cases heq
      rw [he] at herror
      cases herror
      rw [hunique] at hother
      cases hother
    | cons taken before =>
      obtain ⟨-, heq⟩ := List.cons.inj heq
      exact h.rethrown before later after e' heq
        (fun s hs => hbefore s (List.mem_cons_of_mem _ hs)) herror hother

/-- Any other error ends the loop. -/
theorem FailsUnchanged.stop {e : Failure}
    (he : createWithOwner userId name slug w.store = .error e)
    (hother : e.isUniqueConstraintError = false) :
    FailsUnchanged w userId name (slug :: slugs) (.error e) w := by
  have hnot_taken : createWithOwner userId name slug w.store ≠ .error .uniqueConstraint := by
    rw [he]
    intro h
    cases h
    cases hother
  refine ⟨fun _ _ => rfl, fun e' he' => .inr ?_, fun hall => ?_, ?_⟩
  · cases he'
    exact ⟨hother, slug, List.mem_cons_self, he⟩
  · exact absurd (hall slug List.mem_cons_self) hnot_taken
  · intro before later after e' heq hbefore herror _
    cases before with
    | nil =>
      cases heq
      rw [he] at herror
      cases herror
      rfl
    | cons taken before =>
      obtain ⟨rfl, -⟩ := List.cons.inj heq
      exact absurd (hbefore _ List.mem_cons_self) hnot_taken

end Slugs

/-- The slugs for a name, in the order in which they are tried. -/
def candidates (env : Environment) (name : String) : List String :=
  (List.range 100).map fun n => slugWithSuffix (slugify env name) (n + 1)

section Names
variable {env : Environment} {user : AuthenticatedUser} {name : String} {pid : Nat}
  {inputs : Nat → Input} {w : World}

end Names

/-- One account, and an organization that has the first candidate for the name `acme`. -/
def acme : World :=
  ⟨{ Store.withUsers 3 [⟨0, "a", none, none⟩] with
      organizations := [⟨1, 0, "acme", "acme", none⟩]
      memberships := [⟨2, 1, 0, .owner⟩] }, []⟩

end ShipFlow.Organizations
