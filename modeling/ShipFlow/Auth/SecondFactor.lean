import ShipFlow.Interleaving.Atomicity
import ShipFlow.Auth.Requests

/-! Single use of the second factor: authenticator time steps, backup codes and
login challenges, and requests that fail without a trace. -/

namespace ShipFlow.Auth
open Interleaving Relational

/-! ## What was accepted -/

def acceptedStep (credentialId : Id) : Nat × Event → Option Nat
  | (_, .secondFactorAccepted id (.totp timeStep)) => if id = credentialId then some timeStep else none
  | _ => none

/-- The time steps accepted for a credential, in the order of the commits. -/
def acceptedSteps (credentialId : Id) (t : List (Nat × Event)) : List Nat :=
  t.filterMap (acceptedStep credentialId)

def acceptedCode : Nat × Event → Option Id
  | (_, .secondFactorAccepted _ (.backupCode backupCodeId)) => some backupCodeId
  | _ => none

def acceptedCodes (t : List (Nat × Event)) : List Id := t.filterMap acceptedCode

def answeredChallenge : Nat × Event → Option Id
  | (_, .sessionCreated _ _ (.challenge challengeId)) => some challengeId
  | _ => none

/-- The challenges that created a session. -/
def answeredChallenges (t : List (Nat × Event)) : List Id := t.filterMap answeredChallenge

/-! ## Time steps -/

def periodStep (credentialId : Id) (steps : List Nat) : Nat × Event → List Nat
  | (_, .twoFactorEnabled _ id timeStep) => if id = credentialId then [timeStep] else steps
  | (_, .secondFactorAccepted id (.totp timeStep)) =>
    if id = credentialId ∧ steps ≠ [] then steps ++ [timeStep] else steps
  | _ => steps

/-- The time steps used since the credential was last enabled. -/
def periodSteps (credentialId : Id) (t : List (Nat × Event)) : List Nat :=
  t.foldl (periodStep credentialId) []

theorem periodSteps_append (credentialId : Id) (t t' : List (Nat × Event)) :
    periodSteps credentialId (t ++ t') =
      t'.foldl (periodStep credentialId) (periodSteps credentialId t) := List.foldl_append

theorem foldl_periodStep {credentialId : Id} {t : List (Nat × Event)} {steps : List Nat}
    (hsteps : steps ≠ [])
    (h : ∀ q userId timeStep, (q, .twoFactorEnabled userId credentialId timeStep) ∉ t) :
    t.foldl (periodStep credentialId) steps = steps ++ acceptedSteps credentialId t := by
  induction t generalizing steps with
  | nil => simp [acceptedSteps]
  | cons x t ih =>
    have ht : ∀ q userId timeStep, (q, .twoFactorEnabled userId credentialId timeStep) ∉ t :=
      fun q userId timeStep hmem => h q userId timeStep (List.mem_cons_of_mem _ hmem)
    rw [List.foldl_cons]
    obtain ⟨q, e⟩ := x
    -- the period goes on until the credential is enabled again
    cases e with
    | twoFactorEnabled userId id timeStep =>
      have hne : id ≠ credentialId := by
        rintro rfl
        exact h q userId timeStep List.mem_cons_self
      simp only [periodStep, hne, if_false]
      exact ih hsteps ht
    | secondFactorAccepted id proof =>
      cases proof with
      | totp timeStep =>
        by_cases hid : id = credentialId
        · have hcons : steps ++ [timeStep] ≠ [] := by simp
          simp only [periodStep, hid, hsteps, ne_eq, not_false_iff, and_self, if_true]
          rw [ih hcons ht]
          simp [acceptedSteps, acceptedStep]
        · simp only [periodStep, hid, false_and, if_false]
          rw [ih hsteps ht]
          simp [acceptedSteps, acceptedStep, hid]
      | backupCode backupCodeId => exact ih hsteps ht
    | _ => exact ih hsteps ht

/-- The steps advance, and the last one is on record while the credential is enabled. -/
def Advancing (rows : List TwoFactorCredential) (credentialId : Id) (steps : List Nat) : Prop :=
  steps.Pairwise (· < ·) ∧ ∀ c ∈ rows, c.id = credentialId → c.enabledAt.isSome → steps ≠ [] →
    c.lastUsedTimeStep = steps.getLast?

namespace Advancing
variable {rows : List TwoFactorCredential} {credentialId : Id} {steps : List Nat}

theorem nil : Advancing rows credentialId [] :=
  ⟨List.Pairwise.nil, fun _ _ _ _ h => absurd rfl h⟩

theorem filter (h : Advancing rows credentialId steps) (p : TwoFactorCredential → Bool) :
    Advancing (rows.filter p) credentialId steps :=
  ⟨h.1, fun c hc => h.2 c (List.mem_of_mem_filter hc)⟩

/-- A credential that waits for its confirmation has no time step on record. -/
theorem begin (h : Advancing rows credentialId steps) {rows' : List TwoFactorCredential}
    (hrows : ∀ c ∈ rows', c ∈ rows ∨ c.enabledAt = none) :
    Advancing rows' credentialId steps := by
  refine ⟨h.1, fun c hc hid henabled hne => ?_⟩
  rcases hrows c hc with hc | hnone
  · exact h.2 c hc hid henabled hne
  · rw [hnone] at henabled
    cases henabled

theorem snoc {timeStep last : Nat} (h : steps.Pairwise (· < ·)) (hlast : steps.getLast? = some last)
    (hlt : last < timeStep) : (steps ++ [timeStep]).Pairwise (· < ·) := by
  rw [List.pairwise_append]
  refine ⟨h, List.pairwise_singleton _ _, fun x hx y hy => ?_⟩
  rw [List.mem_singleton.mp hy]
  obtain ⟨init, rfl⟩ := List.getLast?_eq_some_iff.mp hlast
  rcases List.mem_append.mp hx with hx | hx
  · have hxl := (List.pairwise_append.mp h).2.2 x hx last (by simp)
    omega
  · rw [List.mem_singleton.mp hx]
    exact hlt

theorem spend {s : Store} {credential : TwoFactorCredential} {proof : SecondFactorProof}
    {now : Time} (pid : Nat) (h : Advancing s.twoFactorCredentials credentialId steps)
    (hn : Keyed s.nextId TwoFactorCredential.id s.twoFactorCredentials)
    (hspent : s.unspent credential proof = 1) :
    Advancing (s.spend credential proof now).twoFactorCredentials credentialId
      (periodStep credentialId steps (pid, .secondFactorAccepted credential.id proof)) := by
  cases proof with
  | backupCode backupCodeId => exact h
  | totp timeStep =>
    obtain ⟨c₀, hc₀, hp⟩ := exists_of_countP_eq_one hspent
    have hp' := hp
    simp only [Bool.and_eq_true, beq_iff_eq] at hp'
    obtain ⟨⟨hid₀, henabled₀⟩, hlast₀⟩ := hp'
    by_cases hid : credential.id = credentialId
    -- without a period there is no last step to compare with
    · by_cases hne : steps = []
      · subst hne
        simpa [periodStep] using nil
      · have hrecord := h.2 c₀ hc₀ (hid₀.trans hid) henabled₀ hne
        have hnext : ∃ last, steps.getLast? = some last ∧ last < timeStep := by
          cases hl : steps.getLast? with
          | none => exact absurd (List.getLast?_eq_none_iff.mp hl) hne
          | some last =>
            rw [hrecord, hl] at hlast₀
            exact ⟨last, rfl, by simpa using hlast₀⟩
        obtain ⟨last, hlast, hlt⟩ := hnext
        simp only [periodStep, hid, hne, ne_eq, not_false_iff, and_self, if_true]
        refine ⟨snoc h.1 hlast hlt, fun c hc hcid henabled _ => ?_⟩
        rw [List.getLast?_concat]
        rcases mem_updateRows.mp hc with ⟨hc, hnp⟩ | ⟨c₁, -, -, rfl⟩
        · -- the claim selected the only row of the credential
          have heq := hn.inj hc hc₀ (hcid.trans (hid₀.trans hid).symm)
          rw [heq, hp] at hnp
          cases hnp
        · rfl
    · simp only [periodStep, hid, false_and, if_false]
      refine ⟨h.1, fun c hc hcid henabled hne => ?_⟩
      rcases mem_updateRows.mp hc with ⟨hc, -⟩ | ⟨c₁, -, hp₁, rfl⟩
      · exact h.2 c hc hcid henabled hne
      · simp only [Bool.and_eq_true, beq_iff_eq] at hp₁
        exact absurd (hp₁.1.1.symm.trans hcid) hid

theorem enable {n : Id} {credential : TwoFactorCredential} {timeStep : Nat} {now : Time}
    (pid : Nat) (userId : Id) (h : Advancing rows credentialId steps) (hn : Keyed n TwoFactorCredential.id rows)
    (hpending : rows.countP (fun c => c.id == credential.id && c.enabledAt.isNone) = 1) :
    Advancing (updateRows (fun c => c.id == credential.id && c.enabledAt.isNone)
        (fun c => { c with enabledAt := some now, lastUsedTimeStep := some timeStep }) rows)
      credentialId
      (periodStep credentialId steps (pid, .twoFactorEnabled userId credential.id timeStep)) := by
  obtain ⟨c₀, hc₀, hp⟩ := exists_of_countP_eq_one hpending
  have hp' := hp
  simp only [Bool.and_eq_true, beq_iff_eq] at hp'
  by_cases hid : credential.id = credentialId
  · simp only [periodStep, hid, if_true]
    refine ⟨List.pairwise_singleton _ _, fun c hc hcid _ _ => ?_⟩
    rcases mem_updateRows.mp hc with ⟨hc, hnp⟩ | ⟨c₁, -, -, rfl⟩
    · have heq := hn.inj hc hc₀ (hcid.trans (hp'.1.trans hid).symm)
      rw [hid] at hp
      rw [heq, hp] at hnp
      cases hnp
    · rfl
  · simp only [periodStep, hid, if_false]
    refine ⟨h.1, fun c hc hcid henabled hne => ?_⟩
    rcases mem_updateRows.mp hc with ⟨hc, -⟩ | ⟨c₁, -, hp₁, rfl⟩
    · exact h.2 c hc hcid henabled hne
    · simp only [Bool.and_eq_true, beq_iff_eq] at hp₁
      exact absurd (hp₁.1.symm.trans hcid) hid

end Advancing

theorem Effect.advancing {pid : Nat} {w w' : World} (h : Effect env pid w w') (hn : Numbered w.store)
    {credentialId : Id}
    (ha : Advancing w.store.twoFactorCredentials credentialId (periodSteps credentialId w.trace)) :
    Advancing w'.store.twoFactorCredentials credentialId
      (periodSteps credentialId w'.trace) := by
  cases h with
  | idle => exact ha
  | setupBegun userId secret rows p huser hcodes hrows =>
    rw [World.advance_trace, periodSteps_append]
    -- the row that the setup writes is not enabled
    refine ha.begin fun c hc => ?_
    rcases hrows with ⟨-, rfl⟩ | rfl
    · rcases List.mem_append.mp hc with hc | hc
      · exact .inl hc
      · rw [List.mem_singleton.mp hc]
        exact .inr rfl
    · rcases mem_updateRows.mp hc with ⟨hc, -⟩ | ⟨c₁, -, -, rfl⟩
      · exact .inl hc
      · exact .inr rfl
  | twoFactorEnabled credential secret timeStep codeHashes now hknown hsecret hkept hpending =>
    rw [World.advance_trace, periodSteps_append]
    exact ha.enable pid credential.userId hn.credentials hpending
  | backupCodesRegenerated credential proof codeHashes now hspent =>
    rw [World.advance_trace, periodSteps_append]
    exact ha.spend pid hn.credentials hspent
  | twoFactorDisabled credential proof now hknown hspent =>
    rw [World.advance_trace, periodSteps_append]
    exact (ha.spend pid hn.credentials hspent).filter _
  | challengeConsumed challenge credential proof tokenHash expiresAt now hanswered hlive hspent hsound =>
    rw [World.advance_trace, periodSteps_append]
    exact ha.spend pid hn.credentials hspent
  | _ =>
    rw [World.advance_trace, periodSteps_append]
    exact ha

/-! ## Backup codes -/

def TwoFactorBackupCode.unused (c : TwoFactorBackupCode) : Bool := c.consumedAt.isNone

abbrev CodesOnce (nextId : Id) (rows : List TwoFactorBackupCode) (used : List Id) : Prop :=
  SpentOnce nextId TwoFactorBackupCode.id TwoFactorBackupCode.unused rows used

/-- The backup code that a proof names. -/
def SecondFactorProof.codes : SecondFactorProof → List Id
  | .totp _ => []
  | .backupCode backupCodeId => [backupCodeId]

theorem CodesOnce.spend {s : Store} {used : List Id} {credential : TwoFactorCredential}
    {proof : SecondFactorProof} {now : Time}
    (h : CodesOnce s.nextId s.twoFactorBackupCodes used)
    (hn : Keyed s.nextId TwoFactorBackupCode.id s.twoFactorBackupCodes)
    (hspent : s.unspent credential proof = 1) :
    CodesOnce s.nextId (s.spend credential proof now).twoFactorBackupCodes
      (used ++ proof.codes) := by
  cases proof with
  | totp timeStep =>
    rw [SecondFactorProof.codes, List.append_nil]
    exact h
  | backupCode backupCodeId =>
    obtain ⟨c, hc, hp⟩ := exists_of_countP_eq_one hspent
    have hp' := hp
    simp only [Bool.and_eq_true, beq_iff_eq] at hp'
    obtain ⟨⟨rfl, -⟩, hunused⟩ := hp'
    refine SpentOnce.use h hn hc hunused hp ?_
    exact fun _ => rfl

theorem CodesOnce.replace {n : Id} {rows : List TwoFactorBackupCode} {used : List Id}
    (h : CodesOnce n rows used) (p : TwoFactorBackupCode → Bool) (credentialId : Id)
    (codeHashes : List String) :
    CodesOnce (n + codeHashes.length) (rows.filter p ++ backupCodeRows credentialId n codeHashes)
      used := by
  refine ((h.filter p).append fun c hc => ?_).later (Nat.le_add_right _ _)
  exact (mem_backupCodeRows hc).1

theorem acceptedCodes_proof (pid : Nat) (t : List (Nat × Event)) (credentialId : Id)
    (proof : SecondFactorProof) {e : Event} (he : acceptedCode (pid, e) = none) :
    acceptedCodes (t ++ [.secondFactorAccepted credentialId proof, e].map fun e => (pid, e)) =
      acceptedCodes t ++ proof.codes := by
  simp only [acceptedCodes, List.filterMap_append, List.map_cons, List.map_nil,
    List.filterMap_cons, he]
  cases proof with
  | totp timeStep => rfl
  | backupCode backupCodeId => rfl

theorem Effect.codesOnce {pid : Nat} {w w' : World} (h : Effect env pid w w') (hn : Numbered w.store)
    (hc : CodesOnce w.store.nextId w.store.twoFactorBackupCodes (acceptedCodes w.trace)) :
    CodesOnce w'.store.nextId w'.store.twoFactorBackupCodes (acceptedCodes w'.trace) := by
  have hle := h.nextId_le
  cases h with
  | setupBegun userId secret rows p huser hcodes hrows =>
    exact ((hc.filter p).later hle).of_eq (by simp [acceptedCodes, acceptedCode])
  | twoFactorEnabled credential secret timeStep codeHashes now hknown hsecret hkept hpending =>
    exact (hc.replace _ credential.id codeHashes).of_eq (by simp [acceptedCodes, acceptedCode])
  | backupCodesRegenerated credential proof codeHashes now hspent =>
    exact ((hc.spend hn.backupCodes hspent).replace _ credential.id codeHashes).of_eq
      (acceptedCodes_proof pid _ _ _ rfl)
  | twoFactorDisabled credential proof now hknown hspent =>
    exact ((hc.spend hn.backupCodes hspent).filter _).of_eq (acceptedCodes_proof pid _ _ _ rfl)
  | challengeConsumed challenge credential proof tokenHash expiresAt now hanswered hlive hspent hsound =>
    exact ((hc.spend hn.backupCodes hspent).later hle).of_eq (acceptedCodes_proof pid _ _ _ rfl)
  | _ => exact (hc.later hle).of_eq (by simp [acceptedCodes, acceptedCode])

/-! ## Login challenges -/

def TwoFactorChallenge.unused (c : TwoFactorChallenge) : Bool := c.consumedAt.isNone

abbrev ChallengesOnce (w : World) : Prop :=
  SpentOnce w.store.nextId TwoFactorChallenge.id TwoFactorChallenge.unused
    w.store.twoFactorChallenges (answeredChallenges w.trace)

theorem Effect.challengesOnce {pid : Nat} {w w' : World} (h : Effect env pid w w')
    (hn : Numbered w.store) (hc : ChallengesOnce w) : ChallengesOnce w' := by
  have hle := h.nextId_le
  unfold ChallengesOnce at hc ⊢
  cases h with
  | everythingRevoked userId now =>
    exact (hc.filter _).of_eq (by simp [answeredChallenges])
  | passwordChanged token passwordHash now nextId notifications hnext hknown hlive =>
    exact ((hc.filter _).later hle).of_eq (by simp [answeredChallenges, answeredChallenge])
  | twoFactorDisabled credential proof now hknown hspent =>
    exact (hc.filter _).of_eq (by simp [answeredChallenges, answeredChallenge])
  | challengeCreated userId tokenHash expiresAt now context =>
    refine SpentOnce.of_eq (((hc.filter _).append fun c hmem => ?_).later hle)
      (by simp [answeredChallenges, answeredChallenge])
    simp [List.mem_singleton.mp hmem]
  | challengeConsumed challenge credential proof tokenHash expiresAt now hanswered hlive hspent hsound =>
    obtain ⟨c, hmem, hp⟩ := exists_of_countP_eq_one hlive
    have hp' := hp
    simp only [Bool.and_eq_true, beq_iff_eq] at hp'
    obtain ⟨⟨hid, hunused⟩, -⟩ := hp'
    refine SpentOnce.of_eq (SpentOnce.later (SpentOnce.use hc hn.challenges hmem hunused hp ?_) hle)
      ?_
    · exact fun _ => rfl
    · simp only [World.advance_trace, answeredChallenges, List.filterMap_append, hid]
      rfl
  | _ => exact (hc.later hle).of_eq (by simp [answeredChallenges, answeredChallenge])

/-! ## Failing requests -/

section AllOrNothing
open Process
variable (env : Environment)

theorem decryptCredential_readOnly (credential : TwoFactorCredential) :
    (decryptCredential env credential).ReadOnly := by
  unfold decryptCredential
  split
  · exact True.intro
  · exact True.intro

theorem resolveSecondFactor_readOnly (credential : TwoFactorCredential) (code : String) :
    (resolveSecondFactor env credential code).ReadOnly := by
  unfold resolveSecondFactor
  split
  · exact (decryptCredential_readOnly env credential).bind fun _ =>
      (readOnly_ask _).bind fun _ => True.intro
  · split
    · exact (readOnly_query _).bind fun _ => True.intro
    · exact True.intro

theorem verifyStepUp_readOnly (userId : Id) (dto : TwoFactorStepUp) :
    (verifyStepUp env userId dto).ReadOnly := by
  unfold verifyStepUp
  refine (readOnly_query _).bind fun found => ?_
  split
  · refine (readOnly_rejectIf _ _).bind fun _ => (readOnly_rejectIf _ _).bind fun _ =>
      (resolveSecondFactor_readOnly env _ _).bind fun found => ?_
    split
    · exact True.intro
    · exact True.intro
  · exact True.intro

theorem verifyLoginChallenge_allOrNothing (challengeToken code : String) :
    (verifyLoginChallenge env challengeToken code).AllOrNothing := by
  unfold verifyLoginChallenge
  refine .bind (readOnly_ask _) fun now => .bind (readOnly_query _) fun found => ?_
  split
  · refine .bind (readOnly_rejectIf _ _) fun _ => .bind (readOnly_query _) fun found => ?_
    split
    · refine .bind (readOnly_rejectIf _ _) fun _ =>
        .bind (resolveSecondFactor_readOnly env _ _) fun found => ?_
      split
      · refine .bind (readOnly_ask _) fun refreshToken => .bind (readOnly_ask _) fun expiresAt => ?_
        exact allOrNothing_atomically fun _ _ _ => ⟨rfl, True.intro⟩
      · exact True.intro
    · exact True.intro
  · exact True.intro

theorem regenerateBackupCodes_allOrNothing (userId : Id) (dto : TwoFactorStepUp) :
    (regenerateBackupCodes env userId dto).AllOrNothing := by
  unfold regenerateBackupCodes
  refine .bind (verifyStepUp_readOnly env userId dto) fun x => ?_
  refine .bind (readOnly_ask _) fun draws => .bind (readOnly_ask _) fun now => ?_
  exact allOrNothing_atomically fun _ => True.intro

theorem disable_allOrNothing (userId : Id) (dto : TwoFactorStepUp) :
    (disable env userId dto).AllOrNothing := by
  unfold disable
  refine .bind (verifyStepUp_readOnly env userId dto) fun x => .bind (readOnly_ask _) fun now => ?_
  exact allOrNothing_atomically fun _ => True.intro

/-- The requests that spend a second factor. -/
def Request.spendsSecondFactor : Request → Bool
  | .verifyLoginChallenge _ _ => true
  | .regenerateBackupCodes _ _ => true
  | .disable _ _ => true
  | _ => false

theorem handler_allOrNothing {r : Request} (h : r.spendsSecondFactor = true) :
    (handler env r).AllOrNothing := by
  cases r with
  | verifyLoginChallenge challengeToken code =>
    exact (verifyLoginChallenge_allOrNothing env challengeToken code).map _
  | regenerateBackupCodes userId dto => exact (regenerateBackupCodes_allOrNothing env userId dto).map _
  | disable userId dto => exact (disable_allOrNothing env userId dto).map _
  | _ => cases h

end AllOrNothing

/-! ## Runs -/

structure SecondFactorOnce (w : World) : Prop where
  steps : ∀ credentialId, Advancing w.store.twoFactorCredentials credentialId
    (periodSteps credentialId w.trace)
  codes : CodesOnce w.store.nextId w.store.twoFactorBackupCodes (acceptedCodes w.trace)
  challenges : ChallengesOnce w

theorem run_secondFactorOnce (env : Environment) {s : Store} (hn : Numbered s)
    (acts : List (Action Request Input)) :
    SecondFactorOnce ((Config.init s : Auth.Config).run (handler env) acts).world := by
  refine Config.Meets.invariant (fun r _ _ _ _ hnew => handler_ensures env r hnew)
    (Config.Meets.init hn) (A := fun _ _ => True) (P := SecondFactorOnce)
    ⟨fun _ => Advancing.nil, SpentOnce.nil, SpentOnce.nil⟩ ?_ (Config.Along.trivial acts)
  rintro pid w w' hn - he - h
  exact ⟨fun id => he.advancing hn (h.steps id), he.codesOnce hn h.codes,
    he.challengesOnce hn h.challenges⟩

/-- Over every run: the time steps accepted while a credential stays enabled increase
from the one it was confirmed with, no backup code is accepted twice, no challenge
creates two sessions, and a request that spends a second factor and fails changed
nothing. -/
theorem second_factor_single_use (env : Environment) (s : Store) (hn : Numbered s)
    (acts : List (Action Request Input)) :
    (∀ t t' p userId credentialId timeStep,
      ((Config.init s : Auth.Config).run (handler env) acts).world.trace =
        t ++ (p, .twoFactorEnabled userId credentialId timeStep) :: t' →
      (∀ q u step, (q, .twoFactorEnabled u credentialId step) ∉ t') →
      (timeStep :: acceptedSteps credentialId t').Pairwise (· < ·)) ∧
    (acceptedCodes ((Config.init s : Auth.Config).run (handler env) acts).world.trace).Nodup ∧
    (answeredChallenges ((Config.init s : Auth.Config).run (handler env) acts).world.trace).Nodup ∧
    ∀ before after pid i r e, acts = before ++ .advance pid i :: after →
      r.spendsSecondFactor = true →
      ((Config.init s : Auth.Config).run (handler env) acts).outcome pid = some (r, .error e) →
      ((Config.init s : Auth.Config).run (handler env) (before ++ [.advance pid i])).world.store =
        ((Config.init s : Auth.Config).run (handler env) before).world.store := by
  have honce := run_secondFactorOnce env hn acts
  refine ⟨fun t t' p userId credentialId timeStep htrace hperiod => ?_, honce.codes.nodup,
    honce.challenges.nodup, ?_⟩
  · have hsteps := (honce.steps credentialId).1
    rw [htrace, periodSteps_append, List.foldl_cons] at hsteps
    simp only [periodStep, if_true] at hsteps
    rwa [foldl_periodStep (by simp) hperiod] at hsteps
  · rintro before after pid i r e rfl hr hout
    exact Config.unchanged_of_failed (handler_allOrNothing env hr) hout

/-- Setup, a login that answers its challenge, and the answered challenge again. -/
def challengeRun : List (Action Request Input) :=
  [.request (.register ⟨"a@example.org", "password", none⟩ ⟨none, none⟩)] ++
    advances 0 12 (.at 0 "first") ++
  [.request (.beginSetup 0)] ++ advances 1 8 (.at 0 "") ++
  [.request (.confirmSetup 0 "123456")] ++ advances 2 8 (.at 30000 "") ++
  [.request (.login ⟨"a@example.org", "password"⟩ ⟨none, none⟩)] ++
    advances 3 8 (.at 60000 "challenge") ++
  [.request (.verifyLoginChallenge "challenge" "123456")] ++ advances 4 12 (.at 60000 "second") ++
  [.request (.verifyLoginChallenge "challenge" "123456")]

theorem second_factor_single_use_replay :
    (∃ t t', ((Config.init Store.empty : Auth.Config).run (handler .transparent)
        (challengeRun ++ advances 5 12 (.at 60000 "third"))).world.trace =
          t ++ (2, .twoFactorEnabled 0 4 1) :: t' ∧
      acceptedSteps 4 t' = [2] ∧ (1 :: acceptedSteps 4 t').Pairwise (· < ·)) ∧
    ((Config.init Store.empty : Auth.Config).run (handler .transparent)
      (challengeRun ++ [.advance 5 (.at 60000 "third")])).world.store =
        ((Config.init Store.empty : Auth.Config).run (handler .transparent)
          challengeRun).world.store := by
  have h := second_factor_single_use .transparent Store.empty numbered_empty
    (challengeRun ++ advances 5 12 (.at 60000 "third"))
  have htrace : ((Config.init Store.empty : Auth.Config).run (handler .transparent)
      (challengeRun ++ advances 5 12 (.at 60000 "third"))).world.trace =
      [(0, .emailVerificationIssued 0 1), (0, .sessionCreated 0 2 .registration),
        (1, .setupBegun 0), (2, .setupFound 4), (2, .setupVerified 4 "secret" 1)] ++
      (2, .twoFactorEnabled 0 4 1) ::
        [(3, .loginFound 0), (3, .passwordVerified 0 "password"), (3, .challengeCreated 0 5),
          (4, .secondFactorAccepted 4 (.totp 2)), (4, .sessionCreated 0 6 (.challenge 5))] := by
    decide +kernel
  constructor
  · exact ⟨_, _, htrace, by decide, h.1 _ _ _ _ _ _ htrace (by simp)⟩
  · refine h.2.2.2 challengeRun (advances 5 11 (.at 60000 "third")) 5 _
      (.verifyLoginChallenge "challenge" "123456")
      (.http .unauthorized "Invalid or expired two-factor challenge") rfl rfl ?_
    decide +kernel

end ShipFlow.Auth
