import ShipFlow.Relational.Spent
import ShipFlow.Auth.Effects

/-! The session table seen on its own: an effect leaves it alone, revokes live
sessions, opens a session in a new family, or rotates a live session. -/

namespace ShipFlow.Auth
open Interleaving Relational

def Session.live (x : Session) : Bool := x.revokedAt.isNone

def rotationOf : Nat × Event → Option Id
  | (_, .sessionCreated _ _ (.rotation sessionId)) => some sessionId
  | _ => none

/-- The sessions rotated so far, in the order of the commits. -/
def rotations (trace : List (Nat × Event)) : List Id := trace.filterMap rotationOf

inductive SessionStep (w w' : World) : Prop where
  | same (h : w'.store.sessions = w.store.sessions) (ht : rotations w'.trace = rotations w.trace)
  | revoked (p : Session → Bool) (now : Time) (reason : SessionRevocationReason)
      (hreason : reason ≠ .rotated)
      (h : w'.store.sessions = updateRows (fun x => p x && x.revokedAt.isNone)
        (fun x => x.revoke now reason) w.store.sessions)
      (ht : rotations w'.trace = rotations w.trace)
  | opened (x : Session) (hlive : x.revokedAt = none) (hlast : x.replacedById = none)
      (hid : w.store.nextId ≤ x.id) (hfamily : w.store.nextId ≤ x.tokenFamilyId)
      (h : w'.store.sessions = w.store.sessions ++ [x])
      (ht : rotations w'.trace = rotations w.trace)
  | rotated (old x : Session) (now : Time) (hold : old ∈ w.store.sessions)
      (holdLive : old.revokedAt = none) (hlive : x.revokedAt = none) (hlast : x.replacedById = none)
      (hid : w.store.nextId ≤ x.id) (huser : x.userId = old.userId)
      (hfamily : x.tokenFamilyId = old.tokenFamilyId)
      (h : w'.store.sessions = updateRows (fun y => y.id == old.id && y.revokedAt.isNone)
        (fun y => y.replace now x.id) w.store.sessions ++ [x])
      (ht : rotations w'.trace = rotations w.trace ++ [old.id])

/-- The session a rotation replaces is stored and live. -/
theorem rotated_live {s : Store} {session : Session} {tokenHash : String} {expiresAt : Time}
    {context : ClientContext} (hn : Numbered s) (hknown : session.Known s)
    (hlive : (s.sessions ++ [Session.issue s.nextId session.userId tokenHash session.tokenFamilyId
        expiresAt context]).countP (fun x => x.id == session.id && x.revokedAt.isNone) = 1) :
    ∃ x ∈ s.sessions, x.id = session.id ∧ x.userId = session.userId ∧
      x.tokenFamilyId = session.tokenFamilyId ∧ x.revokedAt = none := by
  obtain ⟨y, hy, hid, huser, hfamily⟩ := hknown
  obtain ⟨z, hz, hp⟩ := exists_of_countP_eq_one hlive
  simp only [Bool.and_eq_true, beq_iff_eq, Option.isNone_iff_eq_none] at hp
  rcases List.mem_append.mp hz with hz | hz
  · have hzy := hn.sessions.inj hz hy (hp.1.trans hid.symm)
    exact ⟨y, hy, hid, huser, hfamily, hzy ▸ hp.2⟩
  · have hlt := hn.sessions.1 y hy
    have hzid := hp.1
    rw [List.mem_singleton.mp hz] at hzid
    simp only [Session.issue] at hzid
    lia

variable {env : Environment}

theorem Effect.sessionStep {pid : Nat} {w w' : World} (h : Effect env pid w w')
    (hn : Numbered w.store) : SessionStep w w' := by
  cases h with
  | accountCreated user _ _ tokenHash expiresAt context huser hunverified hsound =>
    exact .opened _ rfl rfl (by simp [Session.issue]) (by simp [Session.issue]) rfl
      (by simp [rotations, rotationOf])
  | signedIn userId tokenHash expiresAt now context hsound =>
    exact .opened _ rfl rfl (by simp [Session.issue]) (by simp [Session.issue]) rfl
      (by simp [rotations, rotationOf])
  | rotated session tokenHash expiresAt now context hknown hlive hsound =>
    obtain ⟨z, hz, hid, huser, hfamily, hzlive⟩ := rotated_live hn hknown hlive
    have hlt := hn.sessions.1 z hz
    let x := Session.issue w.store.nextId session.userId tokenHash session.tokenFamilyId expiresAt
      context
    refine .rotated z x now hz hzlive rfl rfl (Nat.le_refl _) huser.symm hfamily.symm ?_ ?_
    · simp only [World.advance_store, updateRows_append, ← hid]
      congr 1
      -- the update does not select the row that it comes with
      refine updateRows_eq_self fun r hr => ?_
      have hne : w.store.nextId ≠ z.id := by lia
      rw [List.mem_singleton.mp hr]
      simp [Session.issue, hne]
    · simp [rotations, rotationOf, hid]
  | sessionsRevoked p now reason hreason =>
    exact .revoked p now reason hreason rfl (by simp [rotations])
  | loggedOut tokenHash now =>
    exact .revoked _ now _ (by simp) rfl (by simp [rotations, rotationOf])
  | everythingRevoked userId now =>
    exact .revoked _ now _ (by simp) rfl (by simp [rotations])
  | passwordChanged token passwordHash now nextId notifications hnext hknown hlive =>
    exact .revoked _ now _ (by simp) rfl (by simp [rotations, rotationOf])
  | twoFactorEnabled credential secret timeStep codeHashes now hknown hsecret hkept hpending =>
    exact .revoked _ now _ (by simp) rfl (by simp [rotations, rotationOf])
  | twoFactorDisabled credential proof now hknown hspent =>
    exact .revoked _ now _ (by simp) rfl (by simp [rotations, rotationOf])
  | challengeConsumed challenge credential proof tokenHash expiresAt now hanswered hlive hspent hsound =>
    exact .opened _ rfl rfl (by simp [Session.issue]) (by simp [Session.issue]) rfl
      (by simp [rotations, rotationOf])
  | _ => exact .same rfl (by simp [rotations, rotationOf])

/-! ## What later effects cannot undo -/

/-- Sessions are not deleted, and keep what neither revocation nor rotation sets. -/
theorem SessionStep.kept {β : Type} {g : Session → β} {w w' : World} (hs : SessionStep w w')
    (hrevoke : ∀ (x : Session) now reason, g (x.revoke now reason) = g x)
    (hreplace : ∀ (x : Session) now id, g (x.replace now id) = g x) {y : Session}
    (hy : y ∈ w.store.sessions) : ∃ y' ∈ w'.store.sessions, g y' = g y := by
  cases hs with
  | same hs => exact ⟨y, by rwa [hs], rfl⟩
  | revoked p now reason _ hs =>
    rw [hs]
    cases hp : p y && y.revokedAt.isNone with
    | true => exact ⟨_, mem_updateRows.mpr (.inr ⟨y, hy, hp, rfl⟩), hrevoke y now reason⟩
    | false => exact ⟨y, mem_updateRows.mpr (.inl ⟨hy, hp⟩), rfl⟩
  | opened z _ _ _ _ hs => exact ⟨y, by rw [hs]; exact List.mem_append_left _ hy, rfl⟩
  | rotated old z now _ _ _ _ _ _ _ hs =>
    rw [hs]
    cases hp : y.id == old.id && y.revokedAt.isNone with
    | true =>
      refine ⟨y.replace now z.id, List.mem_append_left _ ?_, hreplace y now z.id⟩
      exact mem_updateRows.mpr (.inr ⟨y, hy, hp, rfl⟩)
    | false =>
      refine ⟨y, List.mem_append_left _ ?_, rfl⟩
      exact mem_updateRows.mpr (.inl ⟨hy, hp⟩)

theorem Session.Known.step {x : Session} {w w' : World} (h : x.Known w.store)
    (hs : SessionStep w w') : x.Known w'.store := by
  obtain ⟨y, hy, hid, huser, hfamily⟩ := h
  obtain ⟨y', hy', hsame⟩ := hs.kept (g := fun x => (x.id, x.userId, x.tokenFamilyId))
    (fun _ _ _ => rfl) (fun _ _ _ => rfl) hy
  simp only [Prod.mk.injEq] at hsame
  exact ⟨y', hy', hsame.1.trans hid, hsame.2.1.trans huser, hsame.2.2.trans hfamily⟩

/-- A family that has sessions, none of them live. -/
def Store.Dead (s : Store) (tokenFamilyId : Id) : Prop :=
  (∃ x ∈ s.sessions, x.tokenFamilyId = tokenFamilyId) ∧
    ∀ x ∈ s.sessions, x.tokenFamilyId = tokenFamilyId → x.live = false

theorem Dead.step {family : Id} {w w' : World} (h : w.store.Dead family) (hn : Numbered w.store)
    (hs : SessionStep w w') : w'.store.Dead family := by
  obtain ⟨⟨y, hy, hfamily⟩, hdead⟩ := h
  have hknown : y.Known w'.store := Session.Known.step ⟨y, hy, rfl, rfl, rfl⟩ hs
  obtain ⟨y', hy', -, -, hfamily'⟩ := hknown
  refine ⟨⟨y', hy', hfamily'.trans hfamily⟩, fun x hx hxf => ?_⟩
  cases hs with
  | same hs => exact hdead x (by rwa [hs] at hx) hxf
  | revoked p now reason _ hs =>
    rw [hs] at hx
    rcases mem_updateRows.mp hx with ⟨hx, -⟩ | ⟨x₀, -, -, rfl⟩
    · exact hdead x hx hxf
    · rfl
  | opened z _ _ _ hfresh hs =>
    rw [hs] at hx
    rcases List.mem_append.mp hx with hx | hx
    · exact hdead x hx hxf
    · -- the family of a new session is a new identifier
      rw [List.mem_singleton.mp hx] at hxf
      have hlt := hn.families y hy
      lia
  | rotated old z now hold holdLive _ _ _ _ hfam hs =>
    rw [hs] at hx
    rcases List.mem_append.mp hx with hx | hx
    · rcases mem_updateRows.mp hx with ⟨hx, -⟩ | ⟨x₀, -, -, rfl⟩
      · exact hdead x hx hxf
      · rfl
    · -- a rotation needs a live session of the family
      rw [List.mem_singleton.mp hx, hfam] at hxf
      have hfalse := hdead old hold hxf
      simp [Session.live, holdLive] at hfalse

/-! ## Who owns a credential -/

theorem Store.spend_credential_keys {s : Store} {credential c' : TwoFactorCredential}
    {proof : SecondFactorProof} {now : Time}
    (h : c' ∈ (s.spend credential proof now).twoFactorCredentials) :
    ∃ c ∈ s.twoFactorCredentials, c.id = c'.id ∧ c.userId = c'.userId ∧ c.secret = c'.secret := by
  cases proof with
  | totp timeStep =>
    rcases mem_updateRows.mp h with ⟨hc, -⟩ | ⟨c, hc, -, rfl⟩
    · exact ⟨c', hc, rfl, rfl, rfl⟩
    · exact ⟨c, hc, rfl, rfl, rfl⟩
  | backupCode backupCodeId => exact ⟨c', h, rfl, rfl, rfl⟩

theorem Effect.credential_keys {pid : Nat} {w w' : World} (h : Effect env pid w w')
    {c' : TwoFactorCredential} (hc' : c' ∈ w'.store.twoFactorCredentials) :
    (∃ c ∈ w.store.twoFactorCredentials, c.id = c'.id ∧ c.userId = c'.userId ∧
        (c.secret = c'.secret ∨ (pid, .setupBegun c'.userId) ∈ w.newEvents w')) ∨
      c'.id = w.store.nextId := by
  have hspend : ∀ {credential : TwoFactorCredential} {proof : SecondFactorProof} {now : Time}
      {P : Prop}, c' ∈ (w.store.spend credential proof now).twoFactorCredentials →
      ∃ c ∈ w.store.twoFactorCredentials, c.id = c'.id ∧ c.userId = c'.userId ∧
        (c.secret = c'.secret ∨ P) := by
    intro credential proof now P hc
    obtain ⟨c, hc, hid, huser, hsecret⟩ := Store.spend_credential_keys hc
    exact ⟨c, hc, hid, huser, .inl hsecret⟩
  cases h with
  | setupBegun userId secret rows p huser hcodes hrows =>
    -- a setup adds a row, or overwrites that of the user
    rcases hrows with ⟨-, rfl⟩ | rfl
    · rcases List.mem_append.mp hc' with hc | hc
      · exact .inl ⟨c', hc, rfl, rfl, .inl rfl⟩
      · exact .inr (by rw [List.mem_singleton.mp hc])
    · rcases mem_updateRows.mp hc' with ⟨hc, -⟩ | ⟨c, hc, hp, rfl⟩
      · exact .inl ⟨c', hc, rfl, rfl, .inl rfl⟩
      · have huser : c.userId = userId := by simpa using hp
        exact .inl ⟨c, hc, rfl, rfl, .inr (by simp [huser])⟩
  | twoFactorEnabled credential secret timeStep codeHashes now hknown hsecret hkept hpending =>
    rcases mem_updateRows.mp hc' with ⟨hc, -⟩ | ⟨c, hc, -, rfl⟩
    · exact .inl ⟨c', hc, rfl, rfl, .inl rfl⟩
    · exact .inl ⟨c, hc, rfl, rfl, .inl rfl⟩
  | backupCodesRegenerated credential proof codeHashes now hspent => exact .inl (hspend hc')
  | twoFactorDisabled credential proof now hknown hspent =>
    exact .inl (hspend (List.mem_of_mem_filter hc'))
  | challengeConsumed challenge credential proof tokenHash expiresAt now hanswered hlive hspent
      hsound =>
    exact .inl (hspend hc')
  | _ => exact .inl ⟨c', hc', rfl, rfl, .inl rfl⟩

theorem Effect.nextId_le {pid : Nat} {w w' : World} (h : Effect env pid w w') :
    w.store.nextId ≤ w'.store.nextId := by
  cases h with
  | oauthLinked profile email now user nextId users accounts hnext h => exact hnext
  | passwordChanged token passwordHash now nextId notifications hnext hknown hlive => exact hnext
  | _ => first | exact Nat.le_refl _ | exact Nat.le_add_right _ _

theorem EmailVerificationToken.Known.effect {x : EmailVerificationToken} {pid : Nat} {w w' : World}
    (h : x.Known w.store) (he : Effect env pid w w') : x.Known w'.store := by
  have hle := he.nextId_le
  unfold EmailVerificationToken.Known at h ⊢
  cases he with
  | accountCreated => exact h.concat hle (Nat.le_succ _)
  | verificationTokenReplaced userId email tokenHash expiresAt huser =>
    exact (h.filter _).concat hle (Nat.le_refl _)
  | emailVerified token now verifiedAt hknown hlive => exact h.updateRows fun _ => ⟨rfl, rfl⟩
  | _ => exact h.mono hle

theorem PasswordResetToken.Known.effect {x : PasswordResetToken} {pid : Nat} {w w' : World}
    (h : x.Known w.store) (he : Effect env pid w w') : x.Known w'.store := by
  have hle := he.nextId_le
  unfold PasswordResetToken.Known at h ⊢
  cases he with
  | resetTokenReplaced userId tokenHash expiresAt huser =>
    exact (h.filter _).concat hle (Nat.le_refl _)
  | passwordChanged token passwordHash now nextId notifications hnext hknown hlive =>
    refine Fixed.filter (Fixed.updateRows (h.mono hle) ?_) _
    exact fun _ => ⟨rfl, rfl⟩
  | _ => exact h.mono hle

theorem TwoFactorChallenge.Known.effect {x : TwoFactorChallenge} {pid : Nat} {w w' : World}
    (h : x.Known w.store) (he : Effect env pid w w') : x.Known w'.store := by
  have hle := he.nextId_le
  unfold TwoFactorChallenge.Known at h ⊢
  cases he with
  | everythingRevoked userId now => exact h.filter _
  | passwordChanged token passwordHash now nextId notifications hnext hknown hlive =>
    exact (h.mono hle).filter _
  | twoFactorDisabled credential proof now hknown hspent => exact h.filter _
  | challengeCreated userId tokenHash expiresAt now context =>
    exact (h.filter _).concat hle (Nat.le_refl _)
  | challengeConsumed challenge credential proof tokenHash expiresAt now hanswered hlive hspent
      hsound =>
    exact Fixed.updateRows (h.mono hle) fun _ => ⟨rfl, rfl⟩
  | _ => exact h.mono hle

theorem TwoFactorCredential.Known.effect {x : TwoFactorCredential} {pid : Nat} {w w' : World}
    (h : x.Known w.store) (he : Effect env pid w w') : x.Known w'.store := by
  obtain ⟨hlt, husers⟩ := h
  refine ⟨Nat.lt_of_lt_of_le hlt he.nextId_le, fun c' hc' hid => ?_⟩
  rcases he.credential_keys hc' with ⟨c, hc, hcid, huser, -⟩ | hfresh
  · exact huser ▸ husers c hc (hcid.trans hid)
  · lia

theorem TwoFactorCredential.Unreplaced.effect {x : TwoFactorCredential} {pid q : Nat}
    {w w' : World} (h : x.Unreplaced pid w) (hknown : x.Known w.store) (he : Effect env q w w') :
    x.Unreplaced pid w' := by
  have hknown' := hknown.effect he
  obtain ⟨hfound, hkept⟩ := h
  obtain ⟨es, hes⟩ := he.trace
  have hmem : ∃ y ∈ w.trace, (y == (pid, Event.setupFound x.id)) = true :=
    ⟨_, hfound, beq_self_eq_true _⟩
  unfold Unreplaced sinceSetupFound
  rw [hes, since_append_of_mem hmem]
  refine ⟨List.mem_append_left _ hfound, ?_⟩
  rcases hkept with ⟨p, hbegun⟩ | hsecret
  · exact .inl ⟨p, List.mem_append_left _ hbegun⟩
  · by_cases hbegun : (q, .setupBegun x.userId) ∈ w.newEvents w'
    · refine .inl ⟨q, List.mem_append_right _ ?_⟩
      rwa [World.newEvents, hes, List.drop_left] at hbegun
    · refine .inr fun c' hc' hid => ?_
      have huser := hknown'.2 c' hc' hid
      rcases he.credential_keys hc' with ⟨c, hc, hcid, -, hsame | hnew⟩ | hfresh
      · exact hsame.symm.trans (hsecret c hc (hcid.trans hid))
      · exact absurd (huser ▸ hnew) hbegun
      · have hlt := hknown.1
        lia

end ShipFlow.Auth
