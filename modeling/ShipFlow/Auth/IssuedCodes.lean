import ShipFlow.Interleaving.Acting
import ShipFlow.Auth.BackupCodes
import ShipFlow.Auth.TwoFactorSetup

/-! Backup codes from the request that returns them to the request that spends them. -/

namespace ShipFlow.Auth
open Interleaving Relational

/-! ## The requests that issue codes -/

/-- The user to whom a request returns backup codes. -/
def Request.codesFor : Request → Option Id
  | .confirmSetup userId _ => some userId
  | .regenerateBackupCodes userId _ => some userId
  | _ => none

/-- The process issues no codes. -/
abbrev Quiet {α : Type} (p : Handler α) : Prop := p.Observes fun e => e.issue = none

/-- The action issues no codes, or it is the last one of a request that draws codes,
stores their hashes and responds with the codes. -/
def Issues (env : Environment) (userId : Id) {α : Type} (respond : List String → α)
    (inputs : List Input) (_ : Store) (result : Store × List Event) (rest : Handler α) : Prop :=
  (∀ e ∈ result.2, e.issue = none) ∨
  ∃ credentialId codes, result.2.filterMap Event.issue = [credentialId] ∧
    (∃ i ∈ inputs, codes = collectBackupCodes [] i.codes) ∧ rest = .done (respond codes) ∧
    (result.1.issuedCodes credentialId).map Prod.snd = codes.map (issuedHash env userId)

section Quiet
open Process
variable (env : Environment)

theorem deliver_quiet : Quiet deliver := by
  refine Observes.ask fun failure => ?_
  cases failure with
  | none => exact Every.pure ()
  | some message => exact Every.throw _

theorem buildAuthentication_quiet (user : User) (refreshToken : String) (expiresAt : Time) :
    Quiet (buildAuthentication env user refreshToken expiresAt) :=
  Observes.ask fun _ => Every.pure _

theorem decryptCredential_quiet (credential : TwoFactorCredential) :
    Quiet (decryptCredential env credential) := by
  unfold decryptCredential
  split
  · exact Every.pure _
  · exact Every.throw _

theorem resolveSecondFactor_quiet (credential : TwoFactorCredential) (code : String) :
    Quiet (resolveSecondFactor env credential code) := by
  unfold resolveSecondFactor
  split
  · exact (decryptCredential_quiet env credential).bind fun secret =>
      Observes.ask fun now => Every.pure _
  · split
    · exact Observes.query fun _ => Every.pure _
    · exact Every.pure none

theorem verifyStepUp_quiet (userId : Id) (dto : TwoFactorStepUp) :
    Quiet (verifyStepUp env userId dto) := by
  unfold verifyStepUp
  refine Observes.query fun found => ?_
  split
  · refine Every.rejectIf <| Every.rejectIf <|
      (resolveSecondFactor_quiet env _ _).bind fun found => ?_
    split
    · exact Every.pure _
    · exact Every.throw _
  · exact Every.throw _

theorem createLoginChallenge_quiet (userId : Id) (context : ClientContext) :
    Quiet (createLoginChallenge env userId context) := by
  refine Observes.ask fun token => Observes.ask fun now =>
    Observes.atomically (fun r => ?_) fun _ => Every.pure _
  cases r with
  | ok challengeId => simp [Event.issue]
  | error e => simp

theorem completeFirstFactor_quiet (user : User) (context : ClientContext) :
    Quiet (completeFirstFactor env user context) := by
  refine Observes.query fun enabled => ?_
  split
  · exact (createLoginChallenge_quiet env _ _).bind fun _ => Every.pure _
  · refine Observes.ask fun refreshToken => Observes.ask fun expiresAt => Observes.ask fun now =>
      Observes.atomically (fun r => ?_) fun _ =>
        (buildAuthentication_quiet env _ _ _).bind fun _ => Every.pure _
    cases r with
    | ok sessionId => simp [Event.issue]
    | error e => simp

theorem register_quiet (dto : RegisterDto) (context : ClientContext) :
    Quiet (register env dto context) := by
  refine Observes.ask fun salt => Observes.ask fun refreshToken => Observes.ask fun token =>
    Observes.ask fun expiresAt => Observes.ask fun verificationExpiresAt => Observes.ask fun now => ?_
  refine Every.bind (Every.handle ?_ fun e => ?_) fun registration =>
    deliver_quiet.bind fun _ => buildAuthentication_quiet env _ _ _
  · rw [← Process.bind_pure (Process.atomically _ _)]
    refine Observes.atomically (fun r => ?_) fun _ => Every.pure _
    cases r with
    | ok r => simp [Event.issue]
    | error e => simp
  · split
    · exact Every.throw _
    · exact Every.throw _

theorem login_quiet (dto : LoginDto) (context : ClientContext) :
    Quiet (login env dto context) := by
  refine Observes.atomically (fun r => ?_) fun found => ?_
  · split
    · simp [Event.issue]
    · simp
  split
  · rename_i user
    refine Observes.atomically (fun r => ?_) fun valid =>
      Every.rejectIf (completeFirstFactor_quiet env user context)
    split
    · cases user.passwordHash with
      | none => simp
      | some passwordHash => simp [Event.issue]
    · simp
  · exact Every.throw _

theorem authenticateOAuth_quiet (profile : OAuthProfile) (context : ClientContext) :
    Quiet (authenticateOAuth env profile context) := by
  refine Observes.ask fun now => Observes.atomically (fun r => ?_) fun user =>
    completeFirstFactor_quiet env user context
  cases r with
  | ok user => simp [Event.issue]
  | error e => simp

theorem revokeTokenFamily_quiet (tokenFamilyId : Id) : Quiet (revokeTokenFamily tokenFamilyId) :=
  Observes.ask fun _ => Observes.atomically (fun _ _ h => absurd h List.not_mem_nil) fun _ =>
    Every.pure _

theorem refresh_quiet (refreshToken : String) (context : ClientContext) :
    Quiet (refresh env refreshToken context) := by
  refine Observes.atomically (fun r => ?_) fun found => ?_
  · split
    · split
      · simp [Event.issue]
      · simp
    · simp
  split
  · split
    · split
      · exact (revokeTokenFamily_quiet _).bind fun _ => Every.throw _
      · exact Every.throw _
    · refine Observes.ask fun clock => Every.rejectIf <| Observes.ask fun token =>
        Observes.ask fun expiresAt => Observes.ask fun now =>
          Every.bind (Every.handle ?_ fun e => ?_) fun _ => buildAuthentication_quiet env _ _ _
      · rw [← Process.bind_pure (Process.atomically _ _)]
        refine Observes.atomically (fun r => ?_) fun _ => Every.pure _
        cases r with
        | ok replacementId => simp [Event.issue]
        | error e =>
          simp only
          split
          · simp [Event.issue]
          · simp
      · split
        · exact (revokeTokenFamily_quiet _).bind fun _ => Every.throw _
        · exact Every.throw _
  · exact Every.throw _

theorem logout_quiet (refreshToken : Option String) : Quiet (logout env refreshToken) := by
  unfold logout
  split
  · exact Every.pure _
  · refine Observes.ask fun now => Observes.atomically (fun r => ?_) fun _ => Every.pure _
    cases r with
    | ok n => simp [Event.issue]
    | error e => simp

theorem logoutAll_quiet (userId : Id) : Quiet (logoutAll userId) :=
  Observes.ask fun _ => Observes.atomically (fun _ _ h => absurd h List.not_mem_nil) fun _ =>
    Every.pure _

theorem updateProfile_quiet (userId : Id) (displayName : String) :
    Quiet (updateProfile userId displayName) :=
  Observes.atomically (fun _ _ h => absurd h List.not_mem_nil) fun _ => Every.pure _

theorem requestEmailVerification_quiet (userId : Id) :
    Quiet (requestEmailVerification env userId) := by
  refine Observes.query fun found => ?_
  split
  · exact Every.pure _
  · refine Observes.ask fun token => Observes.ask fun expiresAt =>
      Observes.atomically (fun r => ?_) fun _ => deliver_quiet.bind fun _ => Every.pure _
    cases r with
    | ok tokenId => simp [Event.issue]
    | error e => simp

theorem confirmEmailVerification_quiet (token : String) :
    Quiet (confirmEmailVerification env token) := by
  refine Observes.query fun found => Observes.ask fun clock => ?_
  split
  · refine Observes.atomically (fun r => ?_) fun _ => Every.pure _
    cases r with
    | ok _ => simp [Event.issue]
    | error e => simp
  · exact Every.throw _

theorem forgotPassword_quiet (email : String) : Quiet (forgotPassword env email) := by
  refine Observes.query fun found => ?_
  split
  · exact Every.pure _
  · refine Observes.ask fun token => Observes.ask fun expiresAt =>
      Observes.atomically (fun r => ?_) fun _ => deliver_quiet.bind fun _ => Every.pure _
    cases r with
    | ok tokenId => simp [Event.issue]
    | error e => simp

theorem resetPassword_quiet (dto : ResetPasswordDto) : Quiet (resetPassword env dto) := by
  refine Observes.query fun found => Observes.ask fun clock => ?_
  split
  · refine Observes.ask fun salt => Observes.ask fun now =>
      Observes.atomically (fun r => ?_) fun _ => Every.pure _
    cases r with
    | ok _ => simp [Event.issue]
    | error e => simp
  · exact Every.throw _

theorem beginSetup_quiet (userId : Id) : Quiet (beginSetup env userId) := by
  refine Observes.query fun found => ?_
  split
  · refine Every.rejectIf <| Observes.ask fun secret => Observes.ask fun vector =>
      Observes.atomically (fun r => ?_) fun _ => Every.pure _
    cases r with
    | ok _ => simp [Event.issue]
    | error e => simp
  · exact Every.throw _

theorem disable_quiet (userId : Id) (dto : TwoFactorStepUp) : Quiet (disable env userId dto) := by
  refine (verifyStepUp_quiet env userId dto).bind fun x => Observes.ask fun now =>
    Observes.atomically (fun r => ?_) fun _ => Every.pure _
  cases r with
  | ok _ => simp [Event.issue]
  | error e => simp

theorem verifyLoginChallenge_quiet (challengeToken code : String) :
    Quiet (verifyLoginChallenge env challengeToken code) := by
  refine Observes.ask fun now => Observes.query fun found => ?_
  split
  · refine Every.rejectIf <| Observes.query fun found => ?_
    split
    · refine Every.rejectIf <| (resolveSecondFactor_quiet env _ _).bind fun found => ?_
      split
      · refine Observes.ask fun refreshToken => Observes.ask fun expiresAt =>
          Observes.atomically (fun r => ?_) fun _ => buildAuthentication_quiet env _ _ _
        cases r with
        | ok sessionId => simp [Event.issue]
        | error e => simp
      · exact Every.throw _
    · exact Every.throw _
  · exact Every.throw _

theorem handler_quiet {r : Request} (h : r.codesFor = none) : Quiet (handler env r) := by
  cases r with
  | register dto context => exact (register_quiet env dto context).map
  | login dto context => exact (login_quiet env dto context).map
  | authenticateOAuth profile context => exact (authenticateOAuth_quiet env profile context).map
  | refresh refreshToken context => exact (refresh_quiet env refreshToken context).map
  | logout refreshToken => exact (logout_quiet env refreshToken).map
  | logoutAll userId => exact (logoutAll_quiet userId).map
  | updateProfile userId displayName => exact (updateProfile_quiet userId displayName).map
  | requestEmailVerification userId => exact (requestEmailVerification_quiet env userId).map
  | confirmEmailVerification token => exact (confirmEmailVerification_quiet env token).map
  | forgotPassword email => exact (forgotPassword_quiet env email).map
  | resetPassword dto => exact (resetPassword_quiet env dto).map
  | beginSetup userId => exact (beginSetup_quiet env userId).map
  | disable userId dto => exact (disable_quiet env userId dto).map
  | verifyLoginChallenge challengeToken code =>
    exact (verifyLoginChallenge_quiet env challengeToken code).map
  | _ => cases h

end Quiet

section Issuers
open Process
variable {env : Environment} {userId : Id}

theorem Issues.of_quiet {α : Type} {respond : List String → α} (inputs : List Input) (s : Store)
    (result : Store × List Event) (rest : Handler α) (h : ∀ e ∈ result.2, e.issue = none) :
    Issues env userId respond inputs s result rest := .inl h

theorem backupCodeRows_hashes (credentialId first : Id) (codeHashes : List String) :
    (backupCodeRows credentialId first codeHashes).map TwoFactorBackupCode.codeHash = codeHashes := by
  induction codeHashes generalizing first with
  | nil => rfl
  | cons codeHash codeHashes ih => rw [backupCodeRows, List.map_cons, ih]

/-- The rows that replace the codes of a credential are its codes. -/
theorem issuedCodes_of_replaced {s : Store} {rows : List TwoFactorBackupCode} {credentialId first : Id}
    {codeHashes : List String}
    (h : s.twoFactorBackupCodes = (rows.filter fun c => !(c.credentialId == credentialId)) ++
      backupCodeRows credentialId first codeHashes) :
    (s.issuedCodes credentialId).map Prod.snd = codeHashes := by
  have hold : (rows.filter fun c => !(c.credentialId == credentialId)).filter
      (fun c => c.credentialId == credentialId) = [] := by
    refine List.filter_eq_nil_iff.mpr fun c hc => ?_
    simpa using (List.mem_filter.mp hc).2
  have hnew : (backupCodeRows credentialId first codeHashes).filter
      (fun c => c.credentialId == credentialId) = backupCodeRows credentialId first codeHashes :=
    List.filter_eq_self.mpr fun c hc => beq_iff_eq.mpr (mem_backupCodeRows hc).2.2.1
  rw [Store.issuedCodes, h, List.filter_append, hold, hnew, List.nil_append, List.map_map]
  exact backupCodeRows_hashes credentialId first codeHashes

theorem confirmSetup_issues (code : String) (inputs : List Input) :
    (confirmSetup env userId code).Acts (Issues env userId id) inputs := by
  refine Acts.atomically (fun i s found s' _ => ⟨.inl ?_, ?_⟩) fun i s e _ => .inl (by simp)
  · split
    · simp [Event.issue]
    · simp
  · cases found with
    | none => exact True.intro
    | some credential =>
      refine Acts.rejectIf <| (decryptCredential_quiet env credential).acts_bind Issues.of_quiet
        fun secret inputs' _ => Acts.ask (fun _ _ _ => .inl (by simp)) fun clock => ?_
      split
      · refine Acts.ask (fun _ _ _ => .inl (by simp)) fun drawn =>
          Acts.ask (fun _ _ _ => .inl (by simp)) fun now => Acts.atomically
            (fun i s _ s' h => ⟨.inr ⟨credential.id, collectBackupCodes [] drawn.codes, ?_, ?_, rfl, ?_⟩,
              True.intro⟩) fun i s e _ => .inl (by simp)
        · rfl
        · exact ⟨drawn, by simp, rfl⟩
        · obtain ⟨-, rfl⟩ := enableCredential_ok h
          exact issuedCodes_of_replaced rfl
      · exact True.intro

theorem regenerateBackupCodes_issues (dto : TwoFactorStepUp) (inputs : List Input) :
    (regenerateBackupCodes env userId dto).Acts (Issues env userId id) inputs := by
  refine (verifyStepUp_quiet env userId dto).acts_bind Issues.of_quiet fun x inputs' _ =>
    Acts.ask (fun _ _ _ => .inl (by simp)) fun drawn =>
      Acts.ask (fun _ _ _ => .inl (by simp)) fun now => Acts.atomically
        (fun i s _ s' h => ⟨.inr ⟨x.1.id, collectBackupCodes [] drawn.codes, ?_, ?_, rfl, ?_⟩,
          True.intro⟩) fun i s e _ => .inl (by simp)
  · rfl
  · exact ⟨drawn, by simp, rfl⟩
  · obtain ⟨-, rfl⟩ := regenerate_ok h
    exact issuedCodes_of_replaced rfl

/-- What an action of a request does to backup codes. -/
def Request.Issues (env : Environment) (r : Request) (inputs : List Input) (s : Store)
    (result : Store × List Event) (rest : Handler Response) : Prop :=
  (∀ e ∈ result.2, e.issue = none) ∨
    ∃ userId ∈ r.codesFor, Auth.Issues env userId Response.backupCodes inputs s result rest

theorem handler_issues (r : Request) (inputs : List Input) :
    (handler env r).Acts (r.Issues env) inputs := by
  cases h : r.codesFor with
  | none => exact (handler_quiet env h).acts fun _ _ _ _ hquiet => .inl hquiet
  | some userId =>
    have hmap : ∀ inputs s result rest, Issues env userId id inputs s result rest →
        r.Issues env inputs s result (Response.backupCodes <$> rest) := by
      intro inputs s result rest hissues
      refine .inr ⟨userId, h, ?_⟩
      rcases hissues with hquiet | ⟨credentialId, codes, hone, hdrawn, rfl, hstored⟩
      · exact .inl hquiet
      · exact .inr ⟨credentialId, codes, hone, hdrawn, rfl, hstored⟩
    cases r with
    | confirmSetup u code =>
      cases h
      exact Acts.map (confirmSetup_issues code inputs) hmap
    | regenerateBackupCodes u dto =>
      cases h
      exact Acts.map (regenerateBackupCodes_issues dto inputs) hmap
    | _ => cases h

/-- A request that returned backup codes has stored them for a credential of its user. -/
def IssuedTo (r : Request) (pid : Nat) (o : Except Failure Response) (w : World) : Prop :=
  ∀ userId codes, r.codesFor = some userId → o = .ok (.backupCodes codes) → IssuedFor pid userId w

theorem handler_issued {pid : Nat} {w : World} (r : Request) (hnew : w.Unused pid) :
    Ensures (contract env) pid (fun o w => IssuedTo r pid o w) (handler env r) w := by
  have hresponse : ∀ (o : Except Failure (List String)) codes,
      o.map Response.backupCodes = .ok (.backupCodes codes) → o = .ok codes := by
    intro o codes h
    cases o with
    | ok codes' =>
      cases h
      rfl
    | error e => cases h
  cases r with
  | confirmSetup userId code =>
    refine Ensures.map ((confirmSetup_ensures env userId code).mono fun o w' _ h u codes hu ho => ?_)
    cases hu
    exact h codes (hresponse o codes ho)
  | regenerateBackupCodes userId dto =>
    refine Ensures.map ((regenerateBackupCodes_ensures env userId dto).mono
      fun o w' _ h u codes hu ho => ?_)
    cases hu
    exact h codes (hresponse o codes ho)
  | _ => exact (handler_ensures env _ hnew).mono fun _ _ _ _ u codes hu => by cases hu

end Issuers
end ShipFlow.Auth
