import ShipFlow.Auth.TwoFactorSessions

/-! The setup of the second factor. Which runs leave an enabled credential alone until
its owner disables it, and which enable the secret that was confirmed. -/

namespace ShipFlow.Auth
open Interleaving Relational

/-! ## Enabled credentials -/

/-- The backup codes of a credential, whether they are consumed or not. -/
def Store.issuedCodes (s : Store) (credentialId : Id) : List (Id × String) :=
  (s.twoFactorBackupCodes.filter fun c => c.credentialId == credentialId).map fun c =>
    (c.id, c.codeHash)

/-- The action did this to the credential with an accepted second factor. -/
def Accepted (credentialId : Id) (e : Event) (w w' : World) : Prop :=
  ∃ q proof, (q, .secondFactorAccepted credentialId proof) ∈ w.newEvents w' ∧
    (q, e) ∈ w.newEvents w'

/-- A later version of the credential, still enabled with the same secret. -/
structure TwoFactorCredential.Continues (c c' : TwoFactorCredential) : Prop where
  id : c'.id = c.id
  userId : c'.userId = c.userId
  secret : c'.secret = c.secret
  enabledAt : c'.enabledAt = c.enabledAt
  lastUsedTimeStep : ∀ last, c.lastUsedTimeStep = some last →
    ∃ last', c'.lastUsedTimeStep = some last' ∧ last ≤ last'

theorem TwoFactorCredential.Continues.refl (c : TwoFactorCredential) : c.Continues c :=
  ⟨rfl, rfl, rfl, rfl, fun last h => ⟨last, h, Nat.le_refl last⟩⟩

theorem TwoFactorCredential.Continues.trans {c c' c'' : TwoFactorCredential}
    (h : c.Continues c') (h' : c'.Continues c'') : c.Continues c'' := by
  refine ⟨h'.id.trans h.id, h'.userId.trans h.userId, h'.secret.trans h.secret,
    h'.enabledAt.trans h.enabledAt, fun last hlast => ?_⟩
  obtain ⟨last', hlast', hle⟩ := h.lastUsedTimeStep last hlast
  obtain ⟨last'', hlast'', hle'⟩ := h'.lastUsedTimeStep last' hlast'
  exact ⟨last'', hlast'', Nat.le_trans hle hle'⟩

/-- An enabled credential stays as it is but for its time step and its backup codes, which
are replaced with an accepted second factor, or it is disabled with one. -/
def EnabledKept (w w' : World) : Prop :=
  ∀ c ∈ w.store.twoFactorCredentials, c.enabledAt.isSome →
    (∃ c' ∈ w'.store.twoFactorCredentials, c.Continues c' ∧
      (w'.store.issuedCodes c.id = w.store.issuedCodes c.id ∨
        Accepted c.id (.backupCodesRegenerated c.id) w w')) ∨
    Accepted c.id (.twoFactorDisabled c.userId c.id) w w'

/-- The user for whom an action begins a setup. -/
def Event.setupUser : Event → Option Id
  | .setupBegun userId => some userId
  | _ => none

/-- A setup that begins finds no enabled credential of its user. -/
def SetupFindsPending (w w' : World) : Prop :=
  ∀ e ∈ w.newEvents w', ∀ userId ∈ e.2.setupUser, ¬ w.store.TwoFactorEnabled userId

instance (w w' : World) : Decidable (SetupFindsPending w w') :=
  inferInstanceAs (Decidable (∀ e ∈ w.newEvents w', ∀ userId ∈ e.2.setupUser,
    ¬ w.store.TwoFactorEnabled userId))

section Steps
variable {env : Environment} {pid : Nat} {w w' : World} {s : Store} {c : TwoFactorCredential}

theorem Store.spend_continues (hc : c ∈ s.twoFactorCredentials) (credential : TwoFactorCredential)
    (proof : SecondFactorProof) (now : Time) :
    ∃ c' ∈ (s.spend credential proof now).twoFactorCredentials, c.Continues c' := by
  cases proof with
  | backupCode backupCodeId => exact ⟨c, hc, .refl c⟩
  | totp timeStep =>
    cases hp : c.id == credential.id && c.enabledAt.isSome &&
        (c.lastUsedTimeStep.all fun last => decide (last < timeStep)) with
    | false => exact ⟨c, mem_updateRows.mpr (.inl ⟨hc, hp⟩), .refl c⟩
    | true =>
      refine ⟨_, mem_updateRows.mpr (.inr ⟨c, hc, hp, rfl⟩), rfl, rfl, rfl, rfl, fun last hlast => ?_⟩
      simp only [hlast, Option.all_some, Bool.and_eq_true, decide_eq_true_eq] at hp
      exact ⟨timeStep, rfl, Nat.le_of_lt hp.2⟩

theorem Store.spend_issuedCodes (credential : TwoFactorCredential) (proof : SecondFactorProof)
    (now : Time) (credentialId : Id) :
    (s.spend credential proof now).issuedCodes credentialId = s.issuedCodes credentialId := by
  cases proof with
  | totp timeStep => rfl
  | backupCode backupCodeId =>
    have hcolumn : ∀ c : TwoFactorBackupCode,
        ({ c with consumedAt := some now }.credentialId == credentialId) =
          (c.credentialId == credentialId) := fun _ => rfl
    unfold Store.issuedCodes Store.spend
    rw [filter_updateRows _ hcolumn]
    exact updateRows_map _ fun _ _ => rfl

/-- The codes of one credential are no codes of another. -/
theorem issuedCodes_replaced {rows : List TwoFactorBackupCode} {credentialId other first : Id}
    (codeHashes : List String) (hne : credentialId ≠ other) :
    ((rows.filter fun c => !(c.credentialId == other)) ++ backupCodeRows other first codeHashes).filter
      (fun c => c.credentialId == credentialId) = rows.filter fun c => c.credentialId == credentialId := by
  have hnew : (backupCodeRows other first codeHashes).filter
      (fun c => c.credentialId == credentialId) = [] := by
    refine List.filter_eq_nil_iff.mpr fun c hc hid => hne ?_
    rw [← (mem_backupCodeRows hc).2.2.1]
    exact (by simpa using hid : c.credentialId = credentialId).symm
  rw [List.filter_append, hnew, List.append_nil]
  refine filter_filter_off _ fun c _ hid => ?_
  have hid' : c.credentialId = credentialId := by simpa using hid
  simpa [hid'] using hne

/-- Every action but a setup of the user keeps an enabled credential. -/
theorem Effect.enabledKept (h : Effect env pid w w') (hn : Numbered w.store)
    (hsetup : SetupFindsPending w w') : EnabledKept w w' := by
  intro c hc henabled
  cases h with
  | setupBegun userId secret rows p huser hcodes hrows =>
    have hpending := hsetup (pid, .setupBegun userId) (by simp) userId rfl
    -- an enabled credential of this user would have been found
    have hother : c.userId ≠ userId := fun heq => hpending ⟨c, hc, heq, henabled⟩
    have hkept : c ∈ rows := by
      rcases hrows with ⟨-, rfl⟩ | rfl
      · exact List.mem_append_left _ hc
      · exact mem_updateRows.mpr (.inl ⟨hc, by simpa using hother⟩)
    refine .inl ⟨c, hkept, .refl c, .inl ?_⟩
    unfold Store.issuedCodes
    congr 1
    refine filter_filter_off _ fun code _ hcode => ?_
    have hcode' : code.credentialId = c.id := by simpa using hcode
    by_contra hp
    obtain ⟨c₂, hc₂, huser₂, hid₂⟩ := hcodes code (by simpa using hp)
    exact hother (hn.credentials.inj hc hc₂ (hid₂.trans hcode').symm ▸ huser₂)
  | twoFactorEnabled credential secret timeStep codeHashes now hknown hsecret hkept hpending =>
    obtain ⟨c₀, hc₀, hp₀⟩ := exists_of_countP_eq_one hpending
    simp only [Bool.and_eq_true, beq_iff_eq, Option.isNone_iff_eq_none] at hp₀
    have hne : c.id ≠ credential.id := fun heq => by
      have hsame := hn.credentials.inj hc hc₀ (heq.trans hp₀.1.symm)
      rw [hsame, hp₀.2] at henabled
      cases henabled
    refine .inl ⟨c, mem_updateRows.mpr (.inl ⟨hc, by simp [hne]⟩), .refl c, .inl ?_⟩
    unfold Store.issuedCodes
    rw [World.advance_store, issuedCodes_replaced codeHashes hne]
  | backupCodesRegenerated credential proof codeHashes now hspent =>
    obtain ⟨c', hc', hcontinues⟩ := Store.spend_continues hc credential proof now
    refine .inl ⟨c', hc', hcontinues, ?_⟩
    by_cases hid : c.id = credential.id
    · exact .inr ⟨pid, proof, by simp [hid], by simp [hid]⟩
    · left
      rw [← Store.spend_issuedCodes (s := w.store) credential proof now]
      unfold Store.issuedCodes
      rw [World.advance_store, issuedCodes_replaced codeHashes hid]
  | twoFactorDisabled credential proof now hknown hspent =>
    by_cases hid : c.id = credential.id
    · right
      -- it is this credential that is disabled, by a proof of its own
      have huser := hknown.2 c hc hid
      exact ⟨pid, proof, by simp [hid], by simp [hid, huser]⟩
    · obtain ⟨c', hc', hcontinues⟩ := Store.spend_continues hc credential proof now
      have hid' : c'.id ≠ credential.id := hcontinues.id ▸ hid
      refine .inl ⟨c', List.mem_filter.mpr ⟨hc', by simpa using hid'⟩, hcontinues, .inl ?_⟩
      rw [← Store.spend_issuedCodes (s := w.store) credential proof now]
      unfold Store.issuedCodes
      congr 1
      refine filter_filter_off _ fun code _ hcode => ?_
      have hcode' : code.credentialId = c.id := by simpa using hcode
      simpa [hcode'] using hid
  | challengeConsumed challenge credential proof tokenHash expiresAt now hanswered hlive hspent
      hsound =>
    obtain ⟨c', hc', hcontinues⟩ := Store.spend_continues hc credential proof now
    exact .inl ⟨c', hc', hcontinues, .inl (Store.spend_issuedCodes credential proof now c.id)⟩
  | _ => exact .inl ⟨c, hc, .refl c, .inl rfl⟩

theorem Event.setupUser_eq {e : Event} {userId : Id} (h : e.setupUser = some userId) :
    e = .setupBegun userId := by
  cases e with
  | setupBegun begun => rw [Option.some.inj h]
  | _ => cases h

/-- A setup leaves its user no enabled credential. -/
theorem Effect.begins (h : Effect env pid w w') {q userId : Nat}
    (he : (q, .setupBegun userId) ∈ w.newEvents w') :
    w.newEvents w' = [(pid, .setupBegun userId)] ∧ ¬ w'.store.TwoFactorEnabled userId := by
  cases h with
  | setupBegun begun secret rows p hlt hcodes hrows =>
    rw [World.newEvents_advance] at he ⊢
    simp only [List.map_cons, List.map_nil, List.mem_singleton, Prod.mk.injEq,
      Event.setupBegun.injEq] at he
    obtain ⟨-, rfl⟩ := he
    refine ⟨rfl, ?_⟩
    rintro ⟨c, hc, huser, henabled⟩
    rcases hrows with ⟨hnone, rfl⟩ | rfl
    · rcases List.mem_append.mp hc with hc | hc
      · exact hnone c hc huser
      · rw [List.mem_singleton.mp hc] at henabled
        cases henabled
    · rcases mem_updateRows.mp hc with ⟨-, hp⟩ | ⟨_, -, -, rfl⟩
      · simp [huser] at hp
      · cases henabled
  | idle => simp at he
  | _ =>
    rw [World.newEvents_advance] at he
    simp at he

/-- A setup that finds an enabled credential of its user ends its enabled state. -/
theorem Effect.enabledKept_iff (h : Effect env pid w w') (hn : Numbered w.store) :
    EnabledKept w w' ↔ SetupFindsPending w w' := by
  refine ⟨fun hkept => ?_, h.enabledKept hn⟩
  rintro ⟨q, e⟩ he userId huser ⟨c, hc, hcu, henabled⟩
  have heq : e = .setupBegun userId := Event.setupUser_eq huser
  subst heq
  obtain ⟨hnew, hnone⟩ := h.begins he
  rcases hkept c hc henabled with ⟨c', hc', hcontinues, -⟩ | ⟨_, _, -, hdisabled⟩
  · exact hnone ⟨c', hc', hcontinues.userId.trans hcu, hcontinues.enabledAt ▸ henabled⟩
  · rw [hnew] at hdisabled
    simp at hdisabled

end Steps

/-! ## Confirmed secrets -/

/-- The credential that an action enables, with the secret its code was checked against. -/
def Event.confirmedSecret : Event → Option (Id × String)
  | .setupVerified credentialId secret _ => some (credentialId, secret)
  | _ => none

/-- A credential that an action enables keeps the secret that the code was checked against. -/
def ConfirmsSecret (env : Environment) (w w' : World) : Prop :=
  ∀ e ∈ w.newEvents w', ∀ x ∈ e.2.confirmedSecret,
    ∀ c ∈ w'.store.twoFactorCredentials, c.id = x.1 →
      c.enabledAt.isSome ∧ env.decryptSecret c.secret c.userId = some x.2

/-- The user and the credential that an action enables. -/
def Event.enabledCredential : Event → Option (Id × Id)
  | .twoFactorEnabled userId credentialId _ => some (userId, credentialId)
  | _ => none

/-- No setup of the user has begun since the request that enables the credential read it. -/
def NoSetupBetween (w w' : World) : Prop :=
  ∀ e ∈ w.newEvents w', ∀ x ∈ e.2.enabledCredential,
    ∀ y ∈ sinceSetupFound e.1 x.2 w.trace, y.2.setupUser ≠ some x.1

instance (w w' : World) : Decidable (NoSetupBetween w w') :=
  inferInstanceAs (Decidable (∀ e ∈ w.newEvents w', ∀ x ∈ e.2.enabledCredential,
    ∀ y ∈ sinceSetupFound e.1 x.2 w.trace, y.2.setupUser ≠ some x.1))

section Steps
variable {env : Environment} {pid : Nat} {w w' : World}

theorem Effect.confirmsSecret (h : Effect env pid w w') (hn : Numbered w.store)
    (hbetween : NoSetupBetween w w') : ConfirmsSecret env w w' := by
  rintro ⟨q, e⟩ he ⟨credentialId, secret⟩ hx c' hc' hid
  have heq : ∃ timeStep, e = .setupVerified credentialId secret timeStep := by
    cases e with
    | setupVerified id s timeStep =>
      obtain ⟨rfl, rfl⟩ := Prod.mk.inj (Option.some.inj hx)
      exact ⟨timeStep, rfl⟩
    | _ => cases hx
  obtain ⟨timeStep, rfl⟩ := heq
  cases h with
  | twoFactorEnabled credential plain step codeHashes now hknown hsecret hunreplaced hpending =>
    have hsame : credentialId = credential.id ∧ secret = plain := by
      rw [World.newEvents_advance] at he
      simp only [List.map_cons, List.map_nil, List.mem_cons, Prod.mk.injEq, reduceCtorEq, and_false,
        Event.setupVerified.injEq, List.not_mem_nil, or_false] at he
      exact ⟨he.2.1, he.2.2.1⟩
    obtain ⟨rfl, rfl⟩ := hsame
    -- without a setup in between the row still has the secret that was read
    have hstored : ∀ c ∈ w.store.twoFactorCredentials, c.id = credential.id →
        c.secret = credential.secret := by
      rcases hunreplaced.2 with ⟨q', hbegun⟩ | hstored
      · have hnone := hbetween (pid, .twoFactorEnabled credential.userId credential.id step) (by simp)
          (credential.userId, credential.id) rfl _ hbegun
        exact absurd rfl hnone
      · exact hstored
    obtain ⟨c₀, hc₀, hp₀⟩ := exists_of_countP_eq_one hpending
    have hp := hp₀
    simp only [Bool.and_eq_true, beq_iff_eq] at hp
    rcases mem_updateRows.mp hc' with ⟨hc, hskipped⟩ | ⟨c, hc, hselected, rfl⟩
    · rw [hn.credentials.inj hc hc₀ (hid.trans hp.1.symm), hp₀] at hskipped
      cases hskipped
    · refine ⟨rfl, ?_⟩
      have huser : c.userId = credential.userId := hknown.2 c hc hid
      change env.decryptSecret c.secret c.userId = some secret
      rw [hstored c hc hid, huser, hsecret]
  | idle => simp at he
  | _ =>
    rw [World.newEvents_advance] at he
    simp at he

end Steps
/-! ## Runs -/

/-- In every run the enabled credentials are kept exactly if every setup that begins finds
no enabled credential of its user. -/
theorem enabled_credential_kept (env : Environment) (s : Store) (hn : Numbered s)
    (acts : List (Action Request Input)) :
    Config.Along EnabledKept (handler env) (Config.init s : Auth.Config) acts ↔
      Config.Along SetupFindsPending (handler env) (Config.init s : Auth.Config) acts := by
  refine Config.Meets.along_iff (fun r _ _ _ _ hnew => handler_ensures env r hnew)
    (Config.Meets.init hn) (P := fun _ => True) True.intro (fun w _ _ => ?_) ?_
  · refine ⟨fun c hc _ => ?_, by simp [SetupFindsPending]⟩
    exact .inl ⟨c, hc, .refl c, .inl rfl⟩
  · exact fun pid w w' hn _ he _ => ⟨he.enabledKept_iff hn, fun _ => True.intro⟩

/-- A credential keeps its secret until it is disabled. -/
theorem enabled_until_disabled (env : Environment) {c : TwoFactorCredential}
    (henabled : c.enabledAt.isSome) {config : Auth.Config}
    (hc : c ∈ config.world.store.twoFactorCredentials) {acts : List (Action Request Input)}
    (hkept : Config.Along EnabledKept (handler env) config acts)
    (hdisabled : Config.Along (fun w w' => ∀ e ∈ w.newEvents w',
      ∀ userId, e.2 ≠ .twoFactorDisabled userId c.id) (handler env) config acts) :
    ∃ c' ∈ (config.run (handler env) acts).world.store.twoFactorCredentials, c.Continues c' := by
  induction acts generalizing config c with
  | nil => exact ⟨c, hc, .refl c⟩
  | cons a as ih =>
    rcases hkept.1 c hc henabled with ⟨c₁, hc₁, hcontinues, -⟩ | ⟨q, _, -, hend⟩
    · have henabled₁ : c₁.enabledAt.isSome := hcontinues.enabledAt ▸ henabled
      have hdisabled₁ := hdisabled.2
      rw [← hcontinues.id] at hdisabled₁
      obtain ⟨c', hc', hcontinues'⟩ := ih henabled₁ hc₁ hkept.2 hdisabled₁
      exact ⟨c', hc', hcontinues.trans hcontinues'⟩
    · exact absurd rfl (hdisabled.1 _ hend _)

/-- A setup that began while the second factor was pending, and commits after it was enabled. -/
def overtakingSetup : List (Action Request Input) :=
  [.request (.register ⟨"a@example.org", "password", none⟩ ⟨none, none⟩)] ++
    advances 0 12 (.at 0 "first") ++
  [.request (.beginSetup 0)] ++ advances 1 8 (.at 0 "") ++
  [.request (.beginSetup 0)] ++ advances 2 3 (.at 0 "") ++
  [.request (.confirmSetup 0 "123456")] ++ advances 3 8 (.at 30000 "")

theorem setup_undoes_enabled :
    ¬ EnabledKept
      ((Config.init Store.empty : Auth.Config).run (handler .transparent) overtakingSetup).world
      ((Config.init Store.empty : Auth.Config).run (handler .transparent)
        (overtakingSetup ++ [.advance 2 (.at 30000 "")])).world := by
  intro hkept
  have hbefore : ((Config.init Store.empty : Auth.Config).run (handler .transparent)
      overtakingSetup).world.store.twoFactorCredentials =
      [⟨4, 0, ⟨"secret", "", "", 1⟩, some 30000, some 1⟩] := by
    decide +kernel
  have hafter : ((Config.init Store.empty : Auth.Config).run (handler .transparent)
      (overtakingSetup ++ [.advance 2 (.at 30000 "")])).world.store.twoFactorCredentials =
      [⟨4, 0, ⟨"secret", "", "", 1⟩, none, none⟩] := by
    decide +kernel
  have hnew : (((Config.init Store.empty : Auth.Config).run (handler .transparent)
      overtakingSetup).world.newEvents ((Config.init Store.empty : Auth.Config).run
        (handler .transparent) (overtakingSetup ++ [.advance 2 (.at 30000 "")])).world) =
      [(2, .setupBegun 0)] := by
    decide +kernel
  have hmem := List.mem_singleton_self (⟨4, 0, ⟨"secret", "", "", 1⟩, some 30000, some 1⟩ :
    TwoFactorCredential)
  rw [← hbefore] at hmem
  rcases hkept _ hmem rfl with ⟨c', hc', hcontinues, -⟩ | ⟨q, _, -, hend⟩
  · rw [hafter] at hc'
    have henabledAt := hcontinues.enabledAt
    rw [List.mem_singleton.mp hc'] at henabledAt
    cases henabledAt
  · rw [hnew] at hend
    simp at hend

theorem enabled_credential_kept_guarded :
    Config.Along EnabledKept (handler .transparent) (Config.init Store.empty : Auth.Config)
      overtakingSetup := by
  refine (enabled_credential_kept .transparent Store.empty numbered_empty overtakingSetup).mpr ?_
  decide +kernel

/-- In every run in which no setup of the user begins between the read and the commit of
a confirmation, a credential is enabled only with the secret that was confirmed. -/
theorem enabled_secret_confirmed (env : Environment) (s : Store) (hn : Numbered s)
    (acts : List (Action Request Input))
    (hbetween : Config.Along NoSetupBetween (handler env) (Config.init s : Auth.Config) acts) :
    Config.Along (ConfirmsSecret env) (handler env) (Config.init s : Auth.Config) acts := by
  refine Config.Along.mp (A := NoSetupBetween) ?_ hbetween
  refine Config.Meets.along (fun r _ _ _ _ hnew => handler_ensures env r hnew)
    (Config.Meets.init hn) (P := fun _ => True) True.intro (fun w _ _ _ => ?_) ?_
  · simp [ConfirmsSecret]
  · exact fun pid w w' hn _ he _ => ⟨fun h => he.confirmsSecret hn h, True.intro⟩

theorem enabled_secret_confirmed_guarded :
    Config.Along NoSetupBetween (handler .transparent) (Config.init Store.empty : Auth.Config)
      guardedRun ∧
    Config.Along (ConfirmsSecret .transparent) (handler .transparent)
      (Config.init Store.empty : Auth.Config) guardedRun := by
  have hbetween : Config.Along NoSetupBetween (handler .transparent)
      (Config.init Store.empty : Auth.Config) guardedRun := by
    decide +kernel
  exact ⟨hbetween, enabled_secret_confirmed .transparent Store.empty numbered_empty _ hbetween⟩

/-- A second setup replaces the secret after the code for the first one was checked. -/
def replacedSetup : List (Action Request Input) :=
  [.request (.register ⟨"a@example.org", "password", none⟩ ⟨none, none⟩)] ++
    advances 0 12 (.at 0 "first") ++
  [.request (.beginSetup 0)] ++ advances 1 8 (.at 0 "") ++
  [.request (.confirmSetup 0 "123456")] ++ advances 2 4 (.at 30000 "") ++
  [.request (.beginSetup 0)] ++ advances 3 8 { Input.at 30000 "" with secret := "another" }

theorem unconfirmed_secret_enabled :
    ¬ ConfirmsSecret .transparent
      ((Config.init Store.empty : Auth.Config).run (handler .transparent) replacedSetup).world
      ((Config.init Store.empty : Auth.Config).run (handler .transparent)
        (replacedSetup ++ [.advance 2 (.at 30000 "")])).world := by
  intro hconfirms
  have hafter : ((Config.init Store.empty : Auth.Config).run (handler .transparent)
      (replacedSetup ++ [.advance 2 (.at 30000 "")])).world.store.twoFactorCredentials =
      [⟨4, 0, ⟨"another", "", "", 1⟩, some 30000, some 1⟩] := by
    decide +kernel
  have hnew : (((Config.init Store.empty : Auth.Config).run (handler .transparent)
      replacedSetup).world.newEvents ((Config.init Store.empty : Auth.Config).run
        (handler .transparent) (replacedSetup ++ [.advance 2 (.at 30000 "")])).world) =
      [(2, .setupVerified 4 "secret" 1), (2, .twoFactorEnabled 0 4 1)] := by
    decide +kernel
  have hverified := hconfirms (2, .setupVerified 4 "secret" 1) (by rw [hnew]; simp) (4, "secret") rfl
    ⟨4, 0, ⟨"another", "", "", 1⟩, some 30000, some 1⟩ (by rw [hafter]; simp) rfl
  exact absurd hverified.2 (by decide)

end ShipFlow.Auth
