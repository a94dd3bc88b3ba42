import ShipFlow.Auth.SecondFactor
import ShipFlow.Auth.IssuedCodes

/-! Backup codes over whole runs: whose codes the rows of a credential are, and what a code
resolves to until it is spent or replaced. -/

namespace ShipFlow.Auth
open Interleaving Relational

/-! ## The record of issues -/

/-- The requests that stored codes, each with the credential, in the order of the commits. -/
def issues (t : List (Nat × Event)) : List (Nat × Id) :=
  t.filterMap fun e => e.2.issue.map fun credentialId => (e.1, credentialId)

/-- The last request that stored codes for the credential. -/
def lastIssuer (credentialId : Id) (t : List (Nat × Event)) : Option Nat :=
  ((issues t).filter fun x => x.2 == credentialId).getLast?.map Prod.fst

section Issues
variable {t t' : List (Nat × Event)} {pid credentialId : Nat}

theorem issues_append : issues (t ++ t') = issues t ++ issues t' := List.filterMap_append

theorem mem_issues : (pid, credentialId) ∈ issues t ↔
    ∃ e, (pid, e) ∈ t ∧ e.issue = some credentialId := by
  simp only [issues, List.mem_filterMap, Option.map_eq_some_iff, Prod.mk.injEq]
  constructor
  · rintro ⟨⟨q, e⟩, hmem, _, hissue, rfl, rfl⟩
    exact ⟨e, hmem, hissue⟩
  · rintro ⟨e, hmem, hissue⟩
    exact ⟨(pid, e), hmem, credentialId, hissue, rfl, rfl⟩

theorem mem_issues_of_lastIssuer (h : lastIssuer credentialId t = some pid) :
    (pid, credentialId) ∈ issues t := by
  obtain ⟨x, hx, rfl⟩ := Option.map_eq_some_iff.mp h
  have hmem := List.mem_filter.mp (List.mem_of_getLast? hx)
  have hid : x.2 = credentialId := by simpa using hmem.2
  rw [← hid]
  exact hmem.1

theorem lastIssuer_append : lastIssuer credentialId (t ++ t') =
    (lastIssuer credentialId t').or (lastIssuer credentialId t) := by
  rw [lastIssuer, issues_append, List.filter_append, List.getLast?_append, Option.map_or]
  rfl

theorem lastIssuer_eq_none (h : ∀ e ∈ t, e.2.issue ≠ some credentialId) :
    lastIssuer credentialId t = none := by
  have hnone : (issues t).filter (fun x => x.2 == credentialId) = [] := by
    refine List.filter_eq_nil_iff.mpr fun x hx hid => ?_
    obtain ⟨e, he, hissue⟩ := mem_issues.mp hx
    exact h _ he (by rw [hissue, beq_iff_eq.mp hid])
  rw [lastIssuer, hnone]
  rfl

theorem exists_lastIssuer (h : (pid, credentialId) ∈ issues t) :
    ∃ q, lastIssuer credentialId t = some q := by
  have hmem : (pid, credentialId) ∈ (issues t).filter fun x => x.2 == credentialId :=
    List.mem_filter.mpr ⟨h, beq_self_eq_true credentialId⟩
  rw [lastIssuer]
  cases hlast : ((issues t).filter fun x => x.2 == credentialId).getLast? with
  | none =>
    rw [List.getLast?_eq_none_iff.mp hlast] at hmem
    cases hmem
  | some x => exact ⟨x.1, rfl⟩

end Issues

/-! ## What an action does to the codes of a credential -/

/-- There is an enabled credential with this identifier. -/
def Store.EnabledCredential (s : Store) (credentialId : Id) : Prop :=
  ∃ c ∈ s.twoFactorCredentials, c.id = credentialId ∧ c.enabledAt.isSome

/-- The credential gets no new codes, and it loses none while it is enabled. -/
structure CodesKept (credentialId : Id) (s s' : Store) : Prop where
  sublist : (s'.issuedCodes credentialId).Sublist (s.issuedCodes credentialId)
  enabled : s'.EnabledCredential credentialId →
    s.EnabledCredential credentialId ∧ s'.issuedCodes credentialId = s.issuedCodes credentialId

section Steps
variable {env : Environment} {pid : Nat} {w w' : World} {s s' : Store} {credentialId : Id}

theorem CodesKept.of_eq (hcodes : s'.issuedCodes credentialId = s.issuedCodes credentialId)
    (henabled : s'.EnabledCredential credentialId → s.EnabledCredential credentialId) :
    CodesKept credentialId s s' :=
  ⟨hcodes ▸ List.Sublist.refl _, fun h => ⟨henabled h, hcodes⟩⟩

theorem Store.spend_enabledCredential (credential : TwoFactorCredential) (proof : SecondFactorProof) (now : Time)
    (h : (s.spend credential proof now).EnabledCredential credentialId) :
    s.EnabledCredential credentialId := by
  obtain ⟨c, hc, hid, henabled⟩ := h
  cases proof with
  | backupCode backupCodeId => exact ⟨c, hc, hid, henabled⟩
  | totp timeStep =>
    rcases mem_updateRows.mp hc with ⟨hc, -⟩ | ⟨c₀, hc₀, -, rfl⟩
    · exact ⟨c, hc, hid, henabled⟩
    · exact ⟨c₀, hc₀, hid, henabled⟩

/-- Every action keeps the codes of a credential for which it issues none. -/
theorem Effect.codesKept (h : Effect env pid w w') (hn : Numbered w.store)
    (hother : ∀ e ∈ w.newEvents w', e.2.issue ≠ some credentialId) :
    CodesKept credentialId w.store w'.store := by
  cases h with
  | setupBegun userId secret rows p huser hcodes hrows =>
    refine ⟨List.Sublist.map _ (List.Sublist.filter _ List.filter_sublist), ?_⟩
    rintro ⟨c, hc, rfl, henabled⟩
    -- only a credential of another user can be enabled after the setup has begun
    have hkept : c ∈ w.store.twoFactorCredentials ∧ c.userId ≠ userId := by
      rcases hrows with ⟨hnone, rfl⟩ | rfl
      · rcases List.mem_append.mp hc with hc | hc
        · exact ⟨hc, hnone c hc⟩
        · rw [List.mem_singleton.mp hc] at henabled
          cases henabled
      · rcases mem_updateRows.mp hc with ⟨hc, hp⟩ | ⟨c₀, -, -, rfl⟩
        · exact ⟨hc, by simpa using hp⟩
        · cases henabled
    refine ⟨⟨c, hkept.1, rfl, henabled⟩, ?_⟩
    unfold Store.issuedCodes
    congr 1
    refine filter_filter_off _ fun code _ hcode => ?_
    have hcode' : code.credentialId = c.id := by simpa using hcode
    by_contra hp
    obtain ⟨c₂, hc₂, huser₂, hid₂⟩ := hcodes code (by simpa using hp)
    exact hkept.2 (hn.credentials.inj hkept.1 hc₂ (hid₂.trans hcode').symm ▸ huser₂)
  | twoFactorEnabled credential secret timeStep codeHashes now hknown hsecret hkept hpending =>
    have hne : credentialId ≠ credential.id := fun heq =>
      hother (pid, .twoFactorEnabled credential.userId credential.id timeStep) (by simp)
        (congrArg some heq.symm)
    refine .of_eq ?_ ?_
    · unfold Store.issuedCodes
      rw [World.advance_store, issuedCodes_replaced codeHashes hne]
    · rintro ⟨c, hc, hid, henabled⟩
      rcases mem_updateRows.mp hc with ⟨hc, -⟩ | ⟨c₀, -, hp, rfl⟩
      · exact ⟨c, hc, hid, henabled⟩
      · simp only [Bool.and_eq_true, beq_iff_eq] at hp
        exact absurd (hid.symm.trans hp.1) hne
  | backupCodesRegenerated credential proof codeHashes now hspent =>
    -- codes are replaced for the credential that the event names, and for no other
    have hne : credentialId ≠ credential.id := fun heq =>
      hother (pid, .backupCodesRegenerated credential.id) (by simp) (congrArg some heq.symm)
    refine .of_eq ?_ fun h => Store.spend_enabledCredential credential proof now h
    rw [← Store.spend_issuedCodes (s := w.store) credential proof now]
    unfold Store.issuedCodes
    rw [World.advance_store, issuedCodes_replaced codeHashes hne]
  | twoFactorDisabled credential proof now hknown hspent =>
    have hcodes := Store.spend_issuedCodes (s := w.store) credential proof now credentialId
    refine ⟨?_, ?_⟩
    · rw [← hcodes]
      exact List.Sublist.map _ (List.Sublist.filter _ List.filter_sublist)
    · rintro ⟨c, hc, rfl, henabled⟩
      obtain ⟨hc, hid⟩ := List.mem_filter.mp hc
      refine ⟨Store.spend_enabledCredential credential proof now ⟨c, hc, rfl, henabled⟩, ?_⟩
      rw [← hcodes]
      unfold Store.issuedCodes
      congr 1
      refine filter_filter_off _ fun code _ hcode => ?_
      have hcode' : code.credentialId = c.id := by simpa using hcode
      rw [hcode']
      exact hid
  | challengeConsumed challenge credential proof tokenHash expiresAt now hanswered hlive hspent
      hsound =>
    exact .of_eq (Store.spend_issuedCodes credential proof now credentialId)
      fun h => Store.spend_enabledCredential credential proof now h
  | _ => exact .of_eq rfl id

/-! ## Consumed codes -/

/-- A code is consumed only by a request that was accepted for it. -/
def ConsumedByUse (rows : List TwoFactorBackupCode) (used : List Id) : Prop :=
  ∀ row ∈ rows, row.consumedAt.isSome → row.id ∈ used

namespace ConsumedByUse
variable {rows : List TwoFactorBackupCode} {used : List Id}

theorem filter (h : ConsumedByUse rows used) (p : TwoFactorBackupCode → Bool) :
    ConsumedByUse (rows.filter p) used := fun row hrow => h row (List.mem_of_mem_filter hrow)

theorem replace (h : ConsumedByUse rows used) (p : TwoFactorBackupCode → Bool)
    (credentialId first : Id) (codeHashes : List String) :
    ConsumedByUse (rows.filter p ++ backupCodeRows credentialId first codeHashes) used := by
  intro row hrow hconsumed
  rcases List.mem_append.mp hrow with hrow | hrow
  · exact h.filter p row hrow hconsumed
  · rw [(mem_backupCodeRows hrow).2.2.2] at hconsumed
    cases hconsumed

theorem spend (h : ConsumedByUse s.twoFactorBackupCodes used) (credential : TwoFactorCredential)
    (proof : SecondFactorProof) (now : Time) :
    ConsumedByUse (s.spend credential proof now).twoFactorBackupCodes (used ++ proof.codes) := by
  intro row hrow hconsumed
  cases proof with
  | totp timeStep => exact List.mem_append_left _ (h row hrow hconsumed)
  | backupCode backupCodeId =>
    rcases mem_updateRows.mp hrow with ⟨hrow, -⟩ | ⟨row₀, -, hp, rfl⟩
    · exact List.mem_append_left _ (h row hrow hconsumed)
    · simp only [Bool.and_eq_true, beq_iff_eq] at hp
      exact List.mem_append_right _ (List.mem_singleton.mpr hp.1.1)

end ConsumedByUse

theorem Effect.consumedByUse (h : Effect env pid w w')
    (hc : ConsumedByUse w.store.twoFactorBackupCodes (acceptedCodes w.trace)) :
    ConsumedByUse w'.store.twoFactorBackupCodes (acceptedCodes w'.trace) := by
  have hmono : ∀ used used' : List Id, used' = used →
      ConsumedByUse w'.store.twoFactorBackupCodes used →
      ConsumedByUse w'.store.twoFactorBackupCodes used' := by
    rintro used _ rfl h
    exact h
  cases h with
  | setupBegun userId secret rows p huser hcodes hrows =>
    exact hmono _ _ (by simp [acceptedCodes, acceptedCode]) (hc.filter p)
  | twoFactorEnabled credential secret timeStep codeHashes now hknown hsecret hkept hpending =>
    exact hmono _ _ (by simp [acceptedCodes, acceptedCode]) (hc.replace _ _ _ codeHashes)
  | backupCodesRegenerated credential proof codeHashes now hspent =>
    exact hmono _ _ (acceptedCodes_proof pid _ _ _ rfl)
      ((hc.spend credential proof now).replace _ _ _ codeHashes)
  | twoFactorDisabled credential proof now hknown hspent =>
    exact hmono _ _ (acceptedCodes_proof pid _ _ _ rfl) ((hc.spend credential proof now).filter _)
  | challengeConsumed challenge credential proof tokenHash expiresAt now hanswered hlive hspent hsound =>
    exact hmono _ _ (acceptedCodes_proof pid _ _ _ rfl) (hc.spend credential proof now)
  | _ => exact hmono _ _ (by simp [acceptedCodes, acceptedCode]) hc

end Steps
end ShipFlow.Auth
