import ShipFlow.Files.Tenancy
import ShipFlow.Organizations.Tenancy

/-! The tenants of the backend are isolated from each other. -/

namespace ShipFlow
open Interleaving Relational

/-- A request of an organization leaves every organization, membership, invitation and file of
another one as it is, and its outcome, up to the identifiers it generates, does not depend on
the rows of other organizations. -/
theorem tenant_isolation (organizationId : Id) :
    (∀ (env : Organizations.Environment) (inputs : Nat → Organizations.Input)
        (r : Organizations.Request) (s : Organizations.Store),
      r.organizationId = some organizationId → Organizations.Consistent s →
      Organizations.Untouched organizationId s (r.run env inputs s).2.store) ∧
    (∀ (env : Organizations.Environment) (inputs : Nat → Organizations.Input)
        (r : Organizations.Request) (s t : Organizations.Store),
      r.organizationId = some organizationId → Organizations.Consistent s →
      Organizations.Consistent t → Organizations.Agree organizationId s t →
      (∀ n, (inputs n).Unused env organizationId s ∧ (inputs n).Unused env organizationId t) →
      Organizations.SameUpToId s t (r.run env inputs s).1 (r.run env inputs t).1) ∧
    (∀ (env : Files.Environment) (inputs : Nat → Files.Input) (r : Files.Request)
        (s : Files.Store),
      r.organizationId = some organizationId → Files.Consistent s →
      Files.Untouched organizationId s (r.run env inputs s).2.store) ∧
    (∀ (env : Files.Environment) (inputs : Nat → Files.Input) (r : Files.Request)
        (s t : Files.Store),
      r.organizationId = some organizationId → Files.Consistent s → Files.Consistent t →
      Files.Agree organizationId s t →
      Files.SameUpToId env s t (r.run env inputs s).1 (r.run env inputs t).1) := by
  refine ⟨fun env inputs r s hr hs => ?_, fun env inputs r s t hr hs ht hagree hunused => ?_,
    fun env inputs r s hr hs => ?_, fun env inputs r s t hr hs ht hagree => ?_⟩
  · exact Organizations.Request.run_untouched hs hr
  · exact Organizations.Request.run_sameUpToId hs ht hagree hr (fun n => (hunused n).1)
      fun n => (hunused n).2
  · exact Files.Request.run_untouched hs hr
  · exact (Files.Request.run_isolated hs ht hagree hr).2.2

/-- Two stores that differ in the rows of the second organization. -/
def tenantRows (rows : Bool) : Organizations.Store where
  nextId := if rows then 20 else 50
  users := [⟨10, "owner@one.example", none, none⟩, ⟨11, "owner@two.example", none, none⟩]
  organizations := [⟨1, 10, "One", "one", none⟩] ++ if rows then [⟨2, 11, "Two", "two", none⟩] else []
  memberships := [⟨3, 1, 10, .owner⟩] ++ if rows then [⟨4, 2, 11, .owner⟩] else []
  invitations := if rows then
    [⟨5, 2, 11, none, "guest@example", .member, .pending, "other", 100, none, none⟩] else []
  notifications := []
  notificationPreferences := [⟨10, true⟩]

def tenantChecksum : String := "0000000000000000000000000000000000000000000000000000000000000000"

def tenantFile (id organizationId : Id) (objectKey : String) : Files.StoredFile where
  id := id
  organizationId := organizationId
  uploadedById := 10
  storageProvider := .s3
  objectKey := objectKey
  originalName := "a.txt"
  declaredMimeType := "text/plain"
  detectedMimeType := none
  sizeBytes := 1
  checksumSha256 := tenantChecksum
  status := .pending
  malwareStatus := .pending
  scanAttempts := 0
  reservationExpiresAt := 900000
  uploadedAt := none
  scanCompletedAt := none
  deletedAt := none
  purgeAfter := none
  purgedAt := none
  auditExpiresAt := none
  lastLifecycleError := none
  createdAt := 0

def tenantFiles (rows : Bool) : Files.Store where
  nextId := if rows then 20 else 50
  users := [⟨10, none⟩]
  plans := [Files.freePlan, Files.proPlan]
  subscriptions := [Files.proSubscription 1] ++ if rows then [Files.proSubscription 2] else []
  storedFiles := [tenantFile 3 1 "first"] ++ if rows then [tenantFile 4 2 "second"] else []
  objects := [⟨"first", [65], none, 0⟩] ++ if rows then [⟨"second", [66], none, 0⟩] else []

theorem tenantRows_consistent (rows : Bool) : Organizations.Consistent (tenantRows rows) := by
  cases rows <;> constructor <;> decide +kernel

theorem tenantFiles_consistent (rows : Bool) : Files.Consistent (tenantFiles rows) := by
  refine ⟨?_, ?_, fun f hf organizationId id _ heq => ?_⟩
  · cases rows <;> decide +kernel
  · cases rows <;> decide +kernel
  · have hheads : ∀ f ∈ (tenantFiles rows).storedFiles, f.objectKey.toList.head? ≠ some 'o' := by
      cases rows <;> decide +kernel
    have hhead : (toString "objects/").toList.head? = some 'o' := by decide +kernel
    exact hheads f hf (by rw [heq]; simp [String.toList_append, hhead])

theorem tenant_isolation_first :
    Organizations.Untouched 1 (tenantRows true) ((Organizations.Request.removeMember 1 10 3).run
        Organizations.Environment.transparent (fun _ => .at 0 "token") (tenantRows true)).2.store ∧
      Organizations.SameUpToId (tenantRows true) (tenantRows false)
        ((Organizations.Request.createInvitation 1 10 ⟨"guest@example", .member⟩).run
          Organizations.Environment.transparent (fun _ => .at 0 "token") (tenantRows true)).1
        ((Organizations.Request.createInvitation 1 10 ⟨"guest@example", .member⟩).run
          Organizations.Environment.transparent (fun _ => .at 0 "token") (tenantRows false)).1 ∧
      Files.Untouched 1 (tenantFiles true) ((Files.Request.deleteFile 1 3).run
        Files.Environment.transparent (fun _ => .at 0 none) (tenantFiles true)).2.store ∧
      Files.SameUpToId Files.Environment.transparent (tenantFiles true) (tenantFiles false)
        ((Files.Request.completeUpload 1 3).run Files.Environment.transparent
          (fun _ => .at 0 none) (tenantFiles true)).1
        ((Files.Request.completeUpload 1 3).run Files.Environment.transparent
          (fun _ => .at 0 none) (tenantFiles false)).1 ∧
      Files.SameUpToId Files.Environment.transparent (tenantFiles true) (tenantFiles false)
        ((Files.Request.initiateUpload 1 10 ⟨"b.txt", "text/plain", 1, tenantChecksum⟩).run
          Files.Environment.transparent (fun _ => .at 0 none) (tenantFiles true)).1
        ((Files.Request.initiateUpload 1 10 ⟨"b.txt", "text/plain", 1, tenantChecksum⟩).run
          Files.Environment.transparent (fun _ => .at 0 none) (tenantFiles false)).1 := by
  obtain ⟨hrows, hsame, hfiles, hsame'⟩ := tenant_isolation 1
  have hagree : Files.Agree 1 (tenantFiles true) (tenantFiles false) := by
    refine ⟨rfl, rfl, ?_, ?_, ?_⟩
    · decide +kernel
    · decide +kernel
    · decide +kernel
  refine ⟨hrows _ _ _ _ rfl (tenantRows_consistent true), hsame _ _ _ _ _ rfl
    (tenantRows_consistent true) (tenantRows_consistent false) ?_ fun _ => ⟨?_, ?_⟩,
    hfiles _ _ _ _ rfl (tenantFiles_consistent true), hsame' _ _ _ _ _ rfl
    (tenantFiles_consistent true) (tenantFiles_consistent false) hagree, hsame' _ _ _ _ _ rfl
    (tenantFiles_consistent true) (tenantFiles_consistent false) hagree⟩
  · constructor <;> decide +kernel
  · unfold Organizations.Input.Unused
    decide +kernel
  · unfold Organizations.Input.Unused
    decide +kernel

end ShipFlow
