import Mathlib.Data.List.Nodup
import Mathlib.Data.List.Pairwise
import ShipFlow.Interleaving.Serial
import ShipFlow.Auth.CodeLifetime

/-! Backup codes end to end: from the request that hands them out to the request that
spends them, over whole runs. -/

namespace ShipFlow.Auth
open Interleaving Relational

/-! ## Codes that requests have returned -/

/-- The request has returned these codes to this user. -/
def Returned (c : Auth.Config) (pid : Nat) (userId : Id) (codes : List String) : Prop :=
  ∃ r : Request, r.codesFor = some userId ∧ c.outcome pid = some (r, .ok (.backupCodes codes))

section Returned
variable {env : Environment} {c : Auth.Config} {pid : Nat} {userId userId' : Id}
  {codes codes' : List String}

theorem Returned.unique (h : Returned c pid userId codes) (h' : Returned c pid userId' codes') :
    userId = userId' ∧ codes = codes' := by
  obtain ⟨r, hr, ho⟩ := h
  obtain ⟨r', hr', ho'⟩ := h'
  rw [ho, Option.some.injEq, Prod.mk.injEq] at ho'
  obtain ⟨rfl, ho'⟩ := ho'
  rw [hr, Option.some.injEq] at hr'
  cases ho'
  exact ⟨hr', rfl⟩

theorem Returned.act (h : Returned c pid userId codes) (a : Action Request Input) :
    Returned (c.act (handler env) a) pid userId codes := by
  obtain ⟨r, hr, ho⟩ := h
  have hpool := Config.outcome_eq_some.mp ho
  refine ⟨r, hr, Config.outcome_eq_some.mpr ?_⟩
  rcases Config.act_pool (handler env) hpool a with hsame | ⟨i, act, next, -, hstep, -⟩
  · exact hsame
  · cases hstep

theorem Returned.run (h : Returned c pid userId codes) (acts : List (Action Request Input)) :
    Returned (c.run (handler env) acts) pid userId codes := by
  induction acts generalizing c with
  | nil => exact h
  | cons a acts ih => exact ih (h.act a)

/-- A request that has returned does not act any more. -/
theorem Returned.ended (h : Returned c pid userId codes) {r : Request}
    {f : Input → Store → Store × List Event} {next : Input → Store → Handler Response}
    (hp : c.pool[pid]? = some (r, .step f next)) : False := by
  obtain ⟨r', -, ho⟩ := h
  rw [Config.outcome_eq_some.mp ho] at hp
  cases hp

end Returned

/-! ## The rows of a credential are the codes last handed out for it -/

def CodesStored (env : Environment) (c : Auth.Config) (credentialId : Id) : Prop :=
  match lastIssuer credentialId c.world.trace with
  | none => c.world.store.issuedCodes credentialId = [] ∧
      ¬ c.world.store.EnabledCredential credentialId
  | some pid => ∃ userId codes, Returned c pid userId codes ∧
      ((c.world.store.issuedCodes credentialId).map Prod.snd).Sublist
        (codes.map (issuedHash env userId)) ∧
      (c.world.store.EnabledCredential credentialId →
        (c.world.store.issuedCodes credentialId).map Prod.snd = codes.map (issuedHash env userId))

/-- What the requests have returned accounts for all stored codes. -/
structure Accounted (env : Environment) (acts : List (Action Request Input)) (c : Auth.Config) :
    Prop where
  stored : ∀ credentialId, CodesStored env c credentialId
  returned : ∀ pid credentialId, (pid, credentialId) ∈ issues c.world.trace →
    ∃ userId i, .advance pid i ∈ acts ∧ Returned c pid userId (collectBackupCodes [] i.codes)
  once : ((issues c.world.trace).map Prod.fst).Nodup

section Accounted
variable {env : Environment} {acts : List (Action Request Input)} {c : Auth.Config} {pid : Nat}
  {userId credentialId : Id} {codes : List String}

theorem CodesStored.keep {c' : Auth.Config} {new : List (Nat × Event)}
    (h : CodesStored env c credentialId) (htrace : c'.world.trace = c.world.trace ++ new)
    (hnew : ∀ e ∈ new, e.2.issue ≠ some credentialId)
    (hkept : CodesKept credentialId c.world.store c'.world.store)
    (hreturned : ∀ q u codes, Returned c q u codes → Returned c' q u codes) :
    CodesStored env c' credentialId := by
  unfold CodesStored at h ⊢
  rw [htrace, lastIssuer_append, lastIssuer_eq_none hnew, Option.none_or]
  cases hlast : lastIssuer credentialId c.world.trace with
  | none =>
    rw [hlast] at h
    refine ⟨List.sublist_nil.mp ?_, fun henabled => h.2 (hkept.enabled henabled).1⟩
    rw [← h.1]
    exact hkept.sublist
  | some pid =>
    rw [hlast] at h
    obtain ⟨userId, codes, hret, hsub, heq⟩ := h
    refine ⟨userId, codes, hreturned pid userId codes hret,
      (hkept.sublist.map Prod.snd).trans hsub, fun henabled => ?_⟩
    obtain ⟨hbefore, hsame⟩ := hkept.enabled henabled
    rw [hsame]
    exact heq hbefore

theorem accounted_empty : Accounted env [] (Config.init Store.empty : Auth.Config) := by
  refine ⟨fun credentialId => ⟨rfl, ?_⟩, ?_, List.nodup_nil⟩
  · rintro ⟨c, hc, -⟩
    exact absurd hc List.not_mem_nil
  · intro pid credentialId h
    exact absurd h List.not_mem_nil

theorem issues_map (pid : Nat) (es : List Event) :
    issues (es.map fun e => (pid, e)) = (es.filterMap Event.issue).map fun id => (pid, id) := by
  rw [issues, List.filterMap_map, List.map_filterMap]
  rfl

/-- An action that issues no codes keeps the account. -/
theorem Accounted.quiet {c' : Auth.Config} {a : Action Request Input} {new : List (Nat × Event)}
    (h : Accounted env acts c) (htrace : c'.world.trace = c.world.trace ++ new)
    (hnew : issues new = [])
    (hkept : ∀ credentialId, CodesKept credentialId c.world.store c'.world.store)
    (hreturned : ∀ q u codes, Returned c q u codes → Returned c' q u codes) :
    Accounted env (acts ++ [a]) c' := by
  have hissues : issues c'.world.trace = issues c.world.trace := by
    rw [htrace, issues_append, hnew, List.append_nil]
  refine ⟨fun id => (h.stored id).keep htrace (fun e he hissue => ?_) (hkept id) hreturned, ?_, ?_⟩
  · have hmem : (e.1, id) ∈ issues new := mem_issues.mpr ⟨e.2, he, hissue⟩
    rw [hnew] at hmem
    exact absurd hmem List.not_mem_nil
  · intro q id hmem
    rw [hissues] at hmem
    obtain ⟨userId, i, hi, hret⟩ := h.returned q id hmem
    exact ⟨userId, i, List.mem_append_left _ hi, hreturned q _ _ hret⟩
  · rw [hissues]
    exact h.once

/-- An action that issues codes for one credential, and with which its request returns. -/
theorem Accounted.issue {c' : Auth.Config} {a : Action Request Input} {new : List (Nat × Event)}
    {drawn : Input} (h : Accounted env acts c) (htrace : c'.world.trace = c.world.trace ++ new)
    (hnew : issues new = [(pid, credentialId)])
    (hrunning : ∀ u codes, ¬ Returned c pid u codes)
    (hdrawn : .advance pid drawn ∈ acts ++ [a])
    (hret : Returned c' pid userId (collectBackupCodes [] drawn.codes))
    (hstored : (c'.world.store.issuedCodes credentialId).map Prod.snd =
      (collectBackupCodes [] drawn.codes).map (issuedHash env userId))
    (hkept : ∀ id ≠ credentialId, CodesKept id c.world.store c'.world.store)
    (hreturned : ∀ q u codes, Returned c q u codes → Returned c' q u codes) :
    Accounted env (acts ++ [a]) c' := by
  have hissues : issues c'.world.trace = issues c.world.trace ++ [(pid, credentialId)] := by
    rw [htrace, issues_append, hnew]
  refine ⟨fun id => ?_, ?_, ?_⟩
  -- the codes of this credential are the new ones, and those of the others are kept
  · by_cases hid : id = credentialId
    · subst hid
      have hlast : lastIssuer id c'.world.trace = some pid := by
        rw [lastIssuer, hissues, List.filter_append]
        simp
      rw [CodesStored, hlast]
      exact ⟨userId, _, hret, hstored ▸ List.Sublist.refl _, fun _ => hstored⟩
    · refine (h.stored id).keep htrace (fun e he hissue => hid ?_) (hkept id hid) hreturned
      have hmem : (e.1, id) ∈ issues new := mem_issues.mpr ⟨e.2, he, hissue⟩
      rw [hnew] at hmem
      exact congrArg Prod.snd (List.mem_singleton.mp hmem)
  · intro q id hmem
    rw [hissues] at hmem
    rcases List.mem_append.mp hmem with hmem | hmem
    · obtain ⟨u, k, hk, hret'⟩ := h.returned q id hmem
      exact ⟨u, k, List.mem_append_left _ hk, hreturned q u _ hret'⟩
    · cases List.mem_singleton.mp hmem
      exact ⟨userId, drawn, hdrawn, hret⟩
  · rw [hissues, List.map_append]
    refine h.once.append (List.nodup_singleton _) ?_
    intro q hq hq'
    obtain rfl : q = pid := by simpa using hq'
    obtain ⟨x, hx, rfl⟩ := List.mem_map.mp hq
    obtain ⟨u, k, -, hret'⟩ := h.returned x.1 x.2 hx
    exact hrunning u _ hret'

theorem Accounted.act {a : Action Request Input}
    (hc : c = (Config.init Store.empty : Auth.Config).run (handler env) acts)
    (h : Accounted env acts c) : Accounted env (acts ++ [a]) (c.act (handler env) a) := by
  have hmeets : c.Meets (fun w => Numbered w.store) (Effect env)
      (fun r pid _ w => Finished r pid w) := hc ▸ run_meets env numbered_empty acts
  have hreturned : ∀ q u codes, Returned c q u codes →
      Returned (c.act (handler env) a) q u codes := fun q u codes hret => hret.act a
  have hsame : ∀ id, CodesKept id c.world.store c.world.store :=
    fun id => .of_eq rfl fun henabled => henabled
  rcases Config.act_cases (handler env) c a with ⟨r, rfl⟩ | hidle | ⟨pid, i, r, f, next, rfl, hp⟩
  · exact h.quiet (List.append_nil _).symm rfl hsame hreturned
  · rw [hidle] at hreturned ⊢
    exact h.quiet (List.append_nil _).symm rfl hsame hreturned
  · obtain ⟨-, heffect, -⟩ := hmeets.advance hp i
    have hact : Config.act (handler env) c (.advance pid i) = _ := Config.act_advance hp i
    have hkept : ∀ id, (∀ e ∈ (f i c.world.store).2, e.issue ≠ some id) →
        CodesKept id c.world.store (f i c.world.store).1 := by
      intro id hother
      refine heffect.codesKept hmeets.holds fun x hx => ?_
      rw [World.newEvents_advance] at hx
      obtain ⟨e, he, rfl⟩ := List.mem_map.mp hx
      exact hother e he
    rw [hact] at hreturned ⊢
    have hquiet : (∀ e ∈ (f i c.world.store).2, e.issue = none) →
        Accounted env (acts ++ [.advance pid i])
          ⟨c.world.advance pid (f i c.world.store), c.pool.set pid (r, next i c.world.store)⟩ := by
      intro hnone
      refine h.quiet rfl ?_ (fun id => hkept id fun e he => by simp [hnone e he]) hreturned
      rw [issues_map, List.filterMap_eq_nil_iff.mpr hnone, List.map_nil]
    -- an action issues nothing, or it is that with which a request hands out its codes
    rcases Config.step_acts handler_issues Store.empty acts (hc ▸ hp) i c.world.store with
      hnone | ⟨userId, hr, hnone | ⟨credentialId, codes, hone, ⟨drawn, hdrawn, rfl⟩, hdone, hstored⟩⟩
    · exact hquiet hnone
    · exact hquiet hnone
    · refine h.issue rfl ?_ (fun u codes hret => hret.ended hp) ?_ ?_ hstored
        (fun id hid => hkept id fun e he hissue => hid ?_) hreturned
      · rw [issues_map, hone, List.map_singleton]
      · rcases List.mem_cons.mp hdrawn with rfl | hdrawn
        · exact List.mem_append_right _ (List.mem_singleton_self _)
        · exact List.mem_append_left _ (Config.mem_offered hdrawn)
      · refine ⟨r, hr, Config.outcome_eq_some.mpr ?_⟩
        rw [List.getElem?_set_self (List.getElem?_eq_some_iff.mp hp).1, hdone]
      · have hmem : id ∈ (f i c.world.store).2.filterMap Event.issue :=
          List.mem_filterMap.mpr ⟨e, he, hissue⟩
        rw [hone] at hmem
        exact List.mem_singleton.mp hmem

theorem run_accounted (env : Environment) (acts : List (Action Request Input)) :
    Accounted env acts ((Config.init Store.empty : Auth.Config).run (handler env) acts) := by
  induction acts using List.reverseRecOn with
  | nil => exact accounted_empty
  | append_singleton acts a ih =>
    rw [Config.run_append, Config.run_cons, Config.run_nil]
    exact ih.act rfl

end Accounted

/-! ## Random codes -/

/-- The codes that the random source yields to an action. -/
def drawnBy : Action Request Input → List String
  | .request _ => []
  | .advance _ i => i.codes

/-- Every code that is drawn in the course of these actions is one that `createCode` makes,
and none is drawn twice. -/
structure RandomCodes (acts : List (Action Request Input)) : Prop where
  created : ∀ code ∈ acts.flatMap drawnBy, ∃ randomInt, code = createCode randomInt
  fresh : (acts.flatMap drawnBy).Nodup

theorem mem_collectBackupCodes {code : String} {codes draws : List String}
    (h : code ∈ collectBackupCodes codes draws) : code ∈ codes ∨ code ∈ draws := by
  induction draws generalizing codes with
  | nil => exact .inl h
  | cons draw draws ih =>
    rw [collectBackupCodes] at h
    split at h
    · rcases ih h with h | h
      · split at h
        · exact .inl h
        · rcases List.mem_append.mp h with h | h
          · exact .inl h
          · rw [List.mem_singleton.mp h]
            exact .inr List.mem_cons_self
      · exact .inr (List.mem_cons_of_mem draw h)
    · exact .inl h

theorem nodup_collectBackupCodes {codes draws : List String} (h : codes.Nodup) :
    (collectBackupCodes codes draws).Nodup := by
  induction draws generalizing codes with
  | nil => exact h
  | cons draw draws ih =>
    rw [collectBackupCodes]
    split
    · refine ih ?_
      split
      · exact h
      · rename_i hnew
        refine h.append (List.nodup_singleton draw) ?_
        intro code hcode hdraw
        rw [List.mem_singleton.mp hdraw] at hcode
        exact hnew (List.elem_eq_true_of_mem hcode)
    · exact h

namespace RandomCodes
variable {acts acts' : List (Action Request Input)} {pid pid' : Nat} {i i' : Input} {code : String}

theorem mem_draws (hi : .advance pid i ∈ acts) (h : code ∈ collectBackupCodes [] i.codes) :
    code ∈ acts.flatMap drawnBy := by
  refine List.mem_flatMap.mpr ⟨_, hi, ?_⟩
  exact (mem_collectBackupCodes h).resolve_left List.not_mem_nil

theorem left (h : RandomCodes (acts ++ acts')) : RandomCodes acts := by
  have hsub : (acts.flatMap drawnBy).Sublist ((acts ++ acts').flatMap drawnBy) := by
    rw [List.flatMap_append]
    exact List.sublist_append_left _ _
  exact ⟨fun code hcode => h.created code (hsub.subset hcode), h.fresh.sublist hsub⟩

/-- Only one action draws a code. -/
theorem pid_eq (h : RandomCodes acts) (hi : .advance pid i ∈ acts) (hi' : .advance pid' i' ∈ acts)
    (hcode : code ∈ collectBackupCodes [] i.codes)
    (hcode' : code ∈ collectBackupCodes [] i'.codes) : pid = pid' := by
  by_contra hne
  have hdisjoint := (List.nodup_flatMap.mp h.fresh).2
  have hsymm : Std.Symm (Function.onFun List.Disjoint drawnBy) := ⟨fun _ _ hd _ ha ha' => hd ha' ha⟩
  have hactions : Action.advance (ρ := Request) pid i ≠ .advance pid' i' := by
    intro heq
    cases heq
    exact hne rfl
  have hapart : List.Disjoint i.codes i'.codes := hdisjoint.forall hi hi' hactions
  exact hapart ((mem_collectBackupCodes hcode).resolve_left List.not_mem_nil)
    ((mem_collectBackupCodes hcode').resolve_left List.not_mem_nil)

end RandomCodes

/-! ## The row of a code -/

/-- The request has stored this code for this credential and has returned it to this user. -/
def HandedOut (c : Auth.Config) (pid : Nat) (credentialId userId : Id) (code : String) : Prop :=
  (pid, credentialId) ∈ issues c.world.trace ∧ ∃ codes, Returned c pid userId codes ∧ code ∈ codes

section Rows
variable {env : Environment} {acts : List (Action Request Input)} {c : Auth.Config} {pid : Nat}
  {userId credentialId u : Id} {code : String} {row row' : TwoFactorBackupCode}

theorem HandedOut.drawn (h : HandedOut c pid credentialId userId code) (hc : Accounted env acts c) :
    ∃ i, .advance pid i ∈ acts ∧ Returned c pid userId (collectBackupCodes [] i.codes) ∧
      code ∈ collectBackupCodes [] i.codes := by
  obtain ⟨hissue, codes, hret, hcode⟩ := h
  obtain ⟨u, i, hi, hret'⟩ := hc.returned pid credentialId hissue
  obtain ⟨rfl, rfl⟩ := hret.unique hret'
  exact ⟨i, hi, hret, hcode⟩

theorem mem_issuedCodes (h : row ∈ c.world.store.twoFactorBackupCodes) :
    (row.id, row.codeHash) ∈ c.world.store.issuedCodes row.credentialId :=
  List.mem_map.mpr ⟨row, List.mem_filter.mpr ⟨h, beq_self_eq_true _⟩, rfl⟩

/-- The codes of a credential are those of its last issuer. -/
theorem Accounted.issuer (hc : Accounted env acts c)
    (hrow : row ∈ c.world.store.twoFactorBackupCodes) :
    ∃ pid userId code, lastIssuer row.credentialId c.world.trace = some pid ∧
      HandedOut c pid row.credentialId userId code ∧ row.codeHash = issuedHash env userId code := by
  have hmem := mem_issuedCodes hrow
  have hstored := hc.stored row.credentialId
  unfold CodesStored at hstored
  cases hlast : lastIssuer row.credentialId c.world.trace with
  | none =>
    rw [hlast] at hstored
    rw [hstored.1] at hmem
    exact absurd hmem List.not_mem_nil
  | some pid =>
    rw [hlast] at hstored
    obtain ⟨userId, codes, hret, hsub, -⟩ := hstored
    obtain ⟨code, hcode, heq⟩ := List.mem_map.mp (hsub.subset (List.mem_map_of_mem hmem))
    exact ⟨pid, userId, code, rfl, ⟨mem_issues_of_lastIssuer hlast, codes, hret, hcode⟩, heq.symm⟩

/-- A row with the hash of a code belongs to the credential and the user of the code. -/
theorem Accounted.row_of_hash (hc : Accounted env acts c) (hrandom : RandomCodes acts)
    (hhash : env.HashesApart) (hcode : HandedOut c pid credentialId userId code)
    (hrow : row ∈ c.world.store.twoFactorBackupCodes) (heq : row.codeHash = issuedHash env u code) :
    u = userId ∧ row.credentialId = credentialId ∧
      lastIssuer credentialId c.world.trace = some pid := by
  obtain ⟨pid', userId', code', hlast, hcode', heq'⟩ := hc.issuer hrow
  obtain ⟨i, hi, hret, hmem⟩ := hcode.drawn hc
  obtain ⟨i', hi', hret', hmem'⟩ := hcode'.drawn hc
  obtain ⟨r, rfl⟩ := hrandom.created code (RandomCodes.mem_draws hi hmem)
  obtain ⟨r', rfl⟩ := hrandom.created code' (RandomCodes.mem_draws hi' hmem')
  obtain ⟨hsame, rfl⟩ := issuedHash_injective hhash (heq.symm.trans heq')
  rw [← hsame] at hmem'
  obtain rfl := hrandom.pid_eq hi hi' hmem hmem'
  have hid : (pid, credentialId) = (pid, row.credentialId) :=
    List.inj_on_of_nodup_map hc.once hcode.1 hcode'.1 rfl
  rw [Prod.mk.injEq] at hid
  rw [hid.2]
  exact ⟨(hret.unique hret').1.symm, rfl, hlast⟩

/-- The row of a code that the last issuer has handed out for an enabled credential. -/
theorem Accounted.exists_row (hc : Accounted env acts c)
    (hcode : HandedOut c pid credentialId userId code)
    (hlast : lastIssuer credentialId c.world.trace = some pid)
    (henabled : c.world.store.EnabledCredential credentialId) :
    ∃ row ∈ c.world.store.twoFactorBackupCodes, row.credentialId = credentialId ∧
      row.codeHash = issuedHash env userId code := by
  obtain ⟨-, codes, hret, hmem⟩ := hcode
  have hstored := hc.stored credentialId
  rw [CodesStored, hlast] at hstored
  obtain ⟨userId', codes', hret', -, heq⟩ := hstored
  obtain ⟨rfl, rfl⟩ := hret.unique hret'
  have hhash : issuedHash env userId code ∈
      (c.world.store.issuedCodes credentialId).map Prod.snd := by
    rw [heq henabled]
    exact List.mem_map_of_mem hmem
  obtain ⟨x, hx, hxhash⟩ := List.mem_map.mp hhash
  obtain ⟨row, hrow, rfl⟩ := List.mem_map.mp hx
  obtain ⟨hrow, hid⟩ := List.mem_filter.mp hrow
  exact ⟨row, hrow, beq_iff_eq.mp hid, hxhash⟩

/-- No two rows have the hash of the same code. -/
theorem Accounted.row_unique (hc : Accounted env acts c) (hrandom : RandomCodes acts)
    (hhash : env.HashesApart) (hn : Numbered c.world.store)
    (hcode : HandedOut c pid credentialId userId code)
    (hrow : row ∈ c.world.store.twoFactorBackupCodes)
    (hrow' : row' ∈ c.world.store.twoFactorBackupCodes)
    (heq : row.codeHash = issuedHash env userId code) (heq' : row'.codeHash = row.codeHash) :
    row' = row := by
  obtain ⟨-, hid, hlast⟩ := hc.row_of_hash hrandom hhash hcode hrow heq
  obtain ⟨-, hid', -⟩ := hc.row_of_hash hrandom hhash hcode hrow' (heq'.trans heq)
  obtain ⟨i, hi, hret, hmem⟩ := hcode.drawn hc
  have hstored := hc.stored credentialId
  rw [CodesStored, hlast] at hstored
  obtain ⟨userId', codes, hret', hsub, -⟩ := hstored
  obtain ⟨rfl, rfl⟩ := hret.unique hret'
  have hnodup : ((collectBackupCodes [] i.codes).map (issuedHash env userId)).Nodup := by
    refine (nodup_collectBackupCodes List.nodup_nil).map_on ?_
    intro code hmem code' hmem' hsame
    obtain ⟨r, rfl⟩ := hrandom.created code (RandomCodes.mem_draws hi hmem)
    obtain ⟨r', rfl⟩ := hrandom.created code' (RandomCodes.mem_draws hi hmem')
    exact (issuedHash_injective hhash hsame).1
  have hmems := mem_issuedCodes hrow
  have hmems' := mem_issuedCodes hrow'
  rw [hid] at hmems
  rw [hid'] at hmems'
  have hpair : (row'.id, row'.codeHash) = (row.id, row.codeHash) :=
    List.inj_on_of_nodup_map (hnodup.sublist hsub) hmems' hmems heq'
  rw [Prod.mk.injEq] at hpair
  exact hn.backupCodes.inj hrow' hrow hpair.1

end Rows

/-! ## Lookup -/

section Lookup
variable {env : Environment} {text : String} {row : TwoFactorBackupCode} {x : TwoFactorCredential}
  {w : World} {randomInt : Nat → Fin BACKUP_CODE_ALPHABET.length}

theorem resolves_code (w : World) (hcase : env.FoldsCase) (x : TwoFactorCredential)
    (htext : Respells (createCode randomInt) text) :
    Resolves env x text w
      (((w.store.twoFactorBackupCodes.find? fun c =>
          c.codeHash == issuedHash env x.userId (createCode randomInt)).filter
        fun c => c.credentialId == x.id && c.consumedAt.isNone).map fun c => .backupCode c.id) :=
  resolves_hash w (isTotpToken_respelled htext) (hashBackupCode_respelled hcase x.userId htext)

theorem resolves_none (hcase : env.FoldsCase) (htext : Respells (createCode randomInt) text)
    (hno : ∀ row ∈ w.store.twoFactorBackupCodes,
      row.codeHash = issuedHash env x.userId (createCode randomInt) →
        row.credentialId ≠ x.id ∨ row.consumedAt.isSome) : Resolves env x text w none := by
  have h := resolves_code w hcase x htext
  cases hfind : w.store.twoFactorBackupCodes.find? fun c =>
      c.codeHash == issuedHash env x.userId (createCode randomInt) with
  | none => rwa [hfind] at h
  | some row =>
    have hrow := hno row (List.mem_of_find?_eq_some hfind)
      (by simpa using List.find?_some hfind)
    have hrefused : (row.credentialId == x.id && row.consumedAt.isNone) = false := by
      rcases hrow with hid | hconsumed
      · simp [hid]
      · simp [hconsumed]
    rw [hfind, Option.filter_some, hrefused] at h
    exact h

theorem resolves_row (hcase : env.FoldsCase) (htext : Respells (createCode randomInt) text)
    (hrow : row ∈ w.store.twoFactorBackupCodes)
    (hhash : row.codeHash = issuedHash env x.userId (createCode randomInt))
    (honly : ∀ row' ∈ w.store.twoFactorBackupCodes, row'.codeHash = row.codeHash → row' = row)
    (hid : row.credentialId = x.id) (hunconsumed : row.consumedAt = none) :
    Resolves env x text w (some (.backupCode row.id)) := by
  have h := resolves_code w hcase x htext
  cases hfind : w.store.twoFactorBackupCodes.find? fun c =>
      c.codeHash == issuedHash env x.userId (createCode randomInt) with
  | none =>
    have hnone := List.find?_eq_none.mp hfind row hrow
    rw [beq_iff_eq] at hnone
    exact absurd hhash hnone
  | some row' =>
    have hsame : row'.codeHash = row.codeHash := by
      rw [hhash]
      simpa using List.find?_some hfind
    obtain rfl := honly row' (List.mem_of_find?_eq_some hfind) hsame
    rw [hfind, Option.filter_some, hid, hunconsumed] at h
    simpa using h

end Lookup

/-! ## Later -/

section Later
variable {env : Environment} {k : Id}

theorem CodesKept.trans {s s' s'' : Store} (h : CodesKept k s s') (h' : CodesKept k s' s'') :
    CodesKept k s s'' := by
  refine ⟨h'.sublist.trans h.sublist, fun henabled => ?_⟩
  obtain ⟨hbefore, hsame⟩ := h'.enabled henabled
  obtain ⟨hfirst, hsame'⟩ := h.enabled hbefore
  exact ⟨hfirst, hsame.trans hsame'⟩

/-- What has been observed since a world of the run, and what it has left of the codes. -/
def Since (k : Id) (base w : World) : Prop :=
  ∃ new, w.trace = base.trace ++ new ∧
    ((∀ e ∈ new, e.2.issue ≠ some k) → CodesKept k base.store w.store)

theorem run_since (env : Environment) (k : Id) {s : Store} (hn : Numbered s)
    (acts more : List (Action Request Input)) :
    Since k ((Config.init s : Auth.Config).run (handler env) acts).world
      ((Config.init s : Auth.Config).run (handler env) (acts ++ more)).world := by
  rw [Config.run_append]
  refine (run_meets env hn acts).invariant (fun r _ _ _ _ hnew => handler_ensures env r hnew)
    (A := fun _ _ => True) ⟨[], (List.append_nil _).symm, fun _ => .of_eq rfl id⟩ ?_
    (Config.Along.trivial more)
  rintro pid w w' hn - he - ⟨new, htrace, hkept⟩
  refine ⟨new ++ w.newEvents w', ?_, fun hother => ?_⟩
  · rw [he.trace_eq, htrace, List.append_assoc]
  · exact (hkept fun e h => hother e (List.mem_append_left _ h)).trans
      (he.codesKept hn fun e h => hother e (List.mem_append_right _ h))

theorem run_consumedByUse (env : Environment) (acts : List (Action Request Input)) :
    ConsumedByUse
      ((Config.init Store.empty : Auth.Config).run (handler env) acts).world.store.twoFactorBackupCodes
      (acceptedCodes
        ((Config.init Store.empty : Auth.Config).run (handler env) acts).world.trace) := by
  refine Config.Meets.invariant (fun r _ _ _ _ hnew => handler_ensures env r hnew)
    (Config.Meets.init numbered_empty) (A := fun _ _ => True)
    (P := fun w => ConsumedByUse w.store.twoFactorBackupCodes (acceptedCodes w.trace)) ?_ ?_
    (Config.Along.trivial acts)
  · intro row hrow
    exact absurd hrow List.not_mem_nil
  · rintro pid w w' - - he - h
    exact he.consumedByUse h

/-- A request returns codes for credentials of its own user. -/
theorem HandedOut.owner {acts : List (Action Request Input)} {pid : Nat} {userId : Id} {code : String}
    (hc : Accounted env acts ((Config.init Store.empty : Auth.Config).run (handler env) acts))
    (h : HandedOut ((Config.init Store.empty : Auth.Config).run (handler env) acts) pid k userId code)
    {credential : TwoFactorCredential} (hid : credential.id = k)
    (hmem : credential ∈ ((Config.init Store.empty : Auth.Config).run (handler env)
      acts).world.store.twoFactorCredentials) : credential.userId = userId := by
  have hmeets : Config.Meets (fun w => Numbered w.store) (Effect env)
      (fun r pid o w => IssuedTo r pid o w)
      ((Config.init Store.empty : Auth.Config).run (handler env) acts) :=
    (Config.Meets.init numbered_empty).run fun r _ _ _ _ hnew => handler_issued r hnew
  obtain ⟨hissue, codes, ⟨r, hr, ho⟩, -⟩ := h
  obtain ⟨x, rfl, hknown, e, hxissue, he⟩ := hmeets.outcome ho userId codes hr rfl
  have hpair : (pid, x.id) = (pid, k) :=
    List.inj_on_of_nodup_map hc.once (mem_issues.mpr ⟨e, he, hxissue⟩) hissue rfl
  rw [Prod.mk.injEq] at hpair
  exact hknown.2 credential hmem (hid.trans hpair.2.symm)

/-- The service after these actions, from an empty store. -/
abbrev serve (env : Environment) (acts : List (Action Request Input)) : Auth.Config :=
  (Config.init Store.empty).run (handler env) acts

section Row
variable {acts more : List (Action Request Input)} {pid : Nat} {userId u : Id} {code : String}
  {row row' : TwoFactorBackupCode}

theorem HandedOut.later (h : HandedOut (serve env acts) pid k userId code)
    (more : List (Action Request Input)) :
    HandedOut (serve env (acts ++ more)) pid k userId code := by
  obtain ⟨hissue, codes, hret, hcode⟩ := h
  obtain ⟨new, htrace, -⟩ := run_since env k numbered_empty acts more
  refine ⟨?_, codes, ?_, hcode⟩
  · rw [htrace, issues_append]
    exact List.mem_append_left _ hissue
  · rw [serve, Config.run_append]
    exact hret.run more

/-- A later row with the hash of a code is the row that the code had, and its credential
has got no other codes since. -/
theorem row_later (hhash : env.HashesApart) (hrandom : RandomCodes (acts ++ more))
    (hcode : HandedOut (serve env acts) pid k userId code)
    (hrow : row ∈ (serve env acts).world.store.twoFactorBackupCodes)
    (heq : row.codeHash = issuedHash env userId code)
    (hrow' : row' ∈ (serve env (acts ++ more)).world.store.twoFactorBackupCodes)
    (heq' : row'.codeHash = issuedHash env u code) :
    u = userId ∧ row'.credentialId = k ∧ row'.id = row.id ∧
      ∀ e ∈ (serve env acts).world.newEvents (serve env (acts ++ more)).world,
        e.2.issue ≠ some k := by
  have hacc := run_accounted env (acts ++ more)
  obtain ⟨new, htrace, hkept⟩ := run_since env k numbered_empty acts more
  obtain ⟨rfl, hid', hlast⟩ := hacc.row_of_hash hrandom hhash (hcode.later more) hrow' heq'
  have hnew : ∀ e ∈ new, e.2.issue ≠ some k := by
    intro e he hissue
    obtain ⟨q, hq⟩ := exists_lastIssuer (mem_issues.mpr ⟨e.2, he, hissue⟩)
    have honce := hacc.once
    rw [htrace, lastIssuer_append, hq, Option.some_or, Option.some.injEq] at hlast
    rw [htrace, issues_append, List.map_append, List.nodup_append] at honce
    subst hlast
    -- no request stores codes twice
    exact honce.2.2 _ (List.mem_map_of_mem hcode.1) _
      (List.mem_map_of_mem (mem_issues_of_lastIssuer hq)) rfl
  have hmem := mem_issuedCodes hrow'
  rw [hid'] at hmem
  obtain ⟨row₀, hrow₀, hpair⟩ := List.mem_map.mp ((hkept hnew).sublist.subset hmem)
  rw [Prod.mk.injEq] at hpair
  have hsame : row₀ = row := by
    refine (run_accounted env acts).row_unique hrandom.left hhash
      (run_meets env numbered_empty acts).holds hcode hrow (List.mem_filter.mp hrow₀).1 heq ?_
    rw [hpair.2, heq', heq]
  refine ⟨rfl, hid', by rw [← hpair.1, hsame], ?_⟩
  rw [World.newEvents, htrace, List.drop_left]
  exact hnew

end Row
end Later

/-- Backup codes work end to end. A code that was handed out by the last request that stored
codes for an enabled credential, in any spelling, is never taken for an authenticator code
and has exactly one row. As long as it is not spent it resolves to this row, and with a
credential of another user to nothing; once its row has been accepted, or the credential has
got other codes, it resolves to nothing; and nothing else that happens while the
credential is enabled, such as the use of other codes, takes it away. -/
theorem backup_codes_work (env : Environment) (hhash : env.HashesApart) (hcase : env.FoldsCase)
    (acts more : List (Action Request Input)) (hrandom : RandomCodes (acts ++ more)) (pid : Nat)
    (userId : Id) (credential : TwoFactorCredential) (code text : String)
    (hcredential : credential ∈ (serve env acts).world.store.twoFactorCredentials)
    (henabled : credential.enabledAt.isSome)
    (hcode : HandedOut (serve env acts) pid credential.id userId code)
    (hlast : lastIssuer credential.id (serve env acts).world.trace = some pid)
    (htext : Respells code text) :
    isTotpToken text = false ∧
    ∃ row ∈ (serve env acts).world.store.twoFactorBackupCodes,
      row.credentialId = credential.id ∧
      row.codeHash = issuedHash env credential.userId code ∧
      (∀ row' ∈ (serve env acts).world.store.twoFactorBackupCodes,
        row'.codeHash = row.codeHash → row' = row) ∧
      (row.consumedAt = none →
        Resolves env credential text (serve env acts).world (some (.backupCode row.id))) ∧
      (∀ x : TwoFactorCredential, x.userId ≠ credential.userId →
        Resolves env x text (serve env acts).world none) ∧
      (row.id ∈ acceptedCodes (serve env (acts ++ more)).world.trace →
        ∀ x, Resolves env x text (serve env (acts ++ more)).world none) ∧
      ((∃ e ∈ (serve env acts).world.newEvents (serve env (acts ++ more)).world,
          e.2.issue = some credential.id) →
        ∀ x, Resolves env x text (serve env (acts ++ more)).world none) ∧
      ((∀ e ∈ (serve env acts).world.newEvents (serve env (acts ++ more)).world,
          e.2.issue ≠ some credential.id) →
        (serve env (acts ++ more)).world.store.EnabledCredential credential.id →
        row.id ∉ acceptedCodes (serve env (acts ++ more)).world.trace →
        Resolves env credential text (serve env (acts ++ more)).world
          (some (.backupCode row.id))) := by
  have hacc := run_accounted env acts
  have hacc' := run_accounted env (acts ++ more)
  have hnumbered := (run_meets env numbered_empty acts).holds
  have hnumbered' := (run_meets env numbered_empty (acts ++ more)).holds
  have howner : credential.userId = userId := hcode.owner hacc rfl hcredential
  obtain ⟨i, hi, -, hmem⟩ := hcode.drawn hacc
  obtain ⟨randomInt, rfl⟩ := hrandom.left.created code (RandomCodes.mem_draws hi hmem)
  obtain ⟨row, hrow, hid, heq⟩ := hacc.exists_row hcode hlast
    ⟨credential, hcredential, rfl, henabled⟩
  -- a row with a hash of this code is this row, and no codes have been drawn since
  have hlater : ∀ row' ∈ (serve env (acts ++ more)).world.store.twoFactorBackupCodes, ∀ u,
      row'.codeHash = issuedHash env u (createCode randomInt) →
      row'.id = row.id ∧ ∀ e ∈ (serve env acts).world.newEvents (serve env (acts ++ more)).world,
        e.2.issue ≠ some credential.id := by
    intro row' hrow' u heq'
    exact (row_later hhash hrandom hcode hrow heq hrow' heq').2.2
  have honly : ∀ row' ∈ (serve env acts).world.store.twoFactorBackupCodes,
      row'.codeHash = row.codeHash → row' = row := fun row' hrow' heq' =>
    hacc.row_unique hrandom.left hhash hnumbered hcode hrow hrow' heq heq'
  refine ⟨isTotpToken_respelled htext, row, hrow, hid, howner ▸ heq, honly, ?_, ?_, ?_, ?_, ?_⟩
  · exact fun hunconsumed =>
      resolves_row hcase htext hrow (howner ▸ heq) honly hid hunconsumed
  · intro x hother
    refine resolves_none hcase htext fun row' hrow' heq' => ?_
    exact absurd ((hacc.row_of_hash hrandom.left hhash hcode hrow' heq').1.trans howner.symm) hother
  · intro haccepted x
    refine resolves_none hcase htext fun row' hrow' heq' => .inr ?_
    obtain ⟨hsame, -⟩ := hlater row' hrow' _ heq'
    have hspent := (run_secondFactorOnce env numbered_empty (acts ++ more)).codes.spent row' hrow'
      (hsame ▸ haccepted)
    simpa [TwoFactorBackupCode.unused] using hspent
  · rintro ⟨e, he, hissue⟩ x
    refine resolves_none hcase htext fun row' hrow' heq' => ?_
    exact absurd hissue ((hlater row' hrow' _ heq').2 e he)
  · intro hnew hstill hunaccepted
    obtain ⟨new, htrace, hkept⟩ := run_since env credential.id numbered_empty acts more
    have hnone : ∀ e ∈ new, e.2.issue ≠ some credential.id := by
      rw [World.newEvents, htrace, List.drop_left] at hnew
      exact hnew
    have hlast' : lastIssuer credential.id (serve env (acts ++ more)).world.trace = some pid := by
      rw [htrace, lastIssuer_append, lastIssuer_eq_none hnone, Option.none_or, hlast]
    obtain ⟨row', hrow', hid', heq'⟩ := hacc'.exists_row (hcode.later more) hlast' hstill
    obtain ⟨hsame, -⟩ := hlater row' hrow' _ heq'
    rw [← hsame]
    refine resolves_row hcase htext hrow' (howner ▸ heq') (fun row'' hrow'' heq'' => ?_) hid' ?_
    · exact hacc'.row_unique hrandom hhash hnumbered' (hcode.later more) hrow' hrow'' heq' heq''
    · -- a row is consumed only by an accepted request
      by_contra hconsumed
      exact hunaccepted (hsame ▸ run_consumedByUse env (acts ++ more) row' hrow'
        (Option.isSome_iff_ne_none.mpr hconsumed))

/-! ### A login with a backup code -/

/-- A keyed hash that shows its key. -/
def Environment.keyed : Environment :=
  { Environment.transparent with
    hmacBackupCode := fun code userId =>
      String.ofList (List.replicate userId '#' ++ '.' :: code.toList) }

theorem replicate_append_injective {m n : Nat} {cs cs' : List Char}
    (h : List.replicate m '#' ++ '.' :: cs = List.replicate n '#' ++ '.' :: cs') :
    m = n ∧ cs = cs' := by
  induction m generalizing n with
  | zero =>
    cases n with
    | zero => exact ⟨rfl, List.tail_eq_of_cons_eq h⟩
    | succ n =>
      rw [List.replicate_succ] at h
      exact absurd (List.head_eq_of_cons_eq h) (by decide)
  | succ m ih =>
    cases n with
    | zero =>
      rw [List.replicate_succ] at h
      exact absurd (List.head_eq_of_cons_eq h) (by decide)
    | succ n =>
      rw [List.replicate_succ, List.replicate_succ] at h
      obtain ⟨rfl, hcs⟩ := ih (List.tail_eq_of_cons_eq h)
      exact ⟨rfl, hcs⟩

theorem keyed_hashesApart : Environment.keyed.HashesApart := by
  intro code userId code' userId' h
  obtain ⟨huser, hcode⟩ := replicate_append_injective (String.ofList_injective h)
  exact ⟨String.toList_injective hcode, huser⟩

theorem keyed_foldsCase : Environment.keyed.FoldsCase := by
  intro c hc
  have hlt : c.toNat < 91 := by
    have hle : ∀ {d : Char}, d.toNat < 91 → c ≤ d → c.toNat < 91 := fun hd h =>
      Nat.lt_of_le_of_lt (UInt32.le_iff_toNat_le.mp h) hd
    simp only [isBackupCodeCharacter, Bool.or_eq_true, Bool.and_eq_true, decide_eq_true_eq] at hc
    rcases hc with ((⟨-, h⟩ | ⟨-, h⟩) | ⟨-, h⟩) | ⟨-, h⟩
    · exact hle (by decide) h
    · exact hle (by decide) h
    · exact hle (by decide) h
    · exact hle (by decide) h
  have hall : ∀ n < 91, isBackupCodeCharacter (Char.ofNat n) = true →
      [(Char.ofNat n).toUpper] = [Char.ofNat n] ∧
        [(Char.ofNat n).toLower.toUpper] = [Char.ofNat n] := by decide +kernel
  have h := hall c.toNat hlt
  rw [Char.ofNat_toNat] at h
  exact h hc

def tenCodes : List String :=
  (List.finRange BACKUP_CODE_COUNT).map fun n => createCode fun _ => n.castLE (by decide)

/-- A registration, and a setup that is confirmed. -/
def confirmation : List (Action Request Input) :=
  [.request (.register ⟨"a@example.org", "password", none⟩ ⟨none, none⟩)] ++
    advances 0 12 (.at 0 "first") ++
  [.request (.beginSetup 0)] ++ advances 1 8 (.at 0 "") ++
  [.request (.confirmSetup 0 "123456")] ++ advances 2 2 (.at 30000 "") ++
    [.advance 2 { Input.at 30000 "" with codes := tenCodes }] ++ advances 2 2 (.at 30000 "")

/-- A login with one of the codes. -/
def backupLogin : List (Action Request Input) :=
  [.request (.login ⟨"a@example.org", "password"⟩ ⟨none, none⟩)] ++
    advances 3 8 (.at 60000 "challenge") ++
  [.request (.verifyLoginChallenge "challenge" "aaaaAAAA-aaaaAAAA")] ++
    advances 4 12 (.at 60000 "second")

theorem drawn_confirmation : (confirmation ++ backupLogin).flatMap drawnBy = tenCodes := by
  decide +kernel

theorem random_confirmation : RandomCodes (confirmation ++ backupLogin) where
  created := by
    rw [drawn_confirmation]
    intro code hcode
    obtain ⟨n, -, rfl⟩ := List.mem_map.mp hcode
    exact ⟨_, rfl⟩
  fresh := by
    rw [drawn_confirmation]
    decide +kernel

/-- The credential that the setup has enabled. -/
def confirmed : TwoFactorCredential := ⟨4, 0, ⟨"secret", "", "", 1⟩, some 30000, some 1⟩

theorem serve_confirmation :
    confirmed ∈ (serve .keyed confirmation).world.store.twoFactorCredentials ∧
    (2, 4) ∈ issues (serve .keyed confirmation).world.trace ∧
    lastIssuer 4 (serve .keyed confirmation).world.trace = some 2 ∧
    (serve .keyed confirmation).outcome 2 =
      some (.confirmSetup 0 "123456", .ok (.backupCodes tenCodes)) ∧
    ∀ row ∈ (serve .keyed confirmation).world.store.twoFactorBackupCodes,
      row.codeHash = ".2222222222222222" → row.id ∉ [13] := by decide +kernel

theorem serve_backupLogin :
    acceptedCodes (serve .keyed (confirmation ++ backupLogin)).world.trace = [13] ∧
    (∃ c ∈ (serve .keyed (confirmation ++ backupLogin)).world.store.twoFactorCredentials,
      c.id = 4 ∧ c.enabledAt.isSome) ∧
    ∀ e ∈ (serve .keyed confirmation).world.newEvents
      (serve .keyed (confirmation ++ backupLogin)).world, e.2.issue ≠ some 4 := by decide +kernel

/-- A spelling of the first code still finds its row after another code has been used. -/
theorem backup_codes_work_login :
    acceptedCodes (serve .keyed (confirmation ++ backupLogin)).world.trace = [13] ∧
    ∃ row ∈ (serve .keyed confirmation).world.store.twoFactorBackupCodes,
      Resolves .keyed confirmed " 22222222 2222-2222"
        (serve .keyed (confirmation ++ backupLogin)).world (some (.backupCode row.id)) := by
  obtain ⟨hmem, hissue, hlast, hreturned, hrows⟩ := serve_confirmation
  obtain ⟨hused, hstill, hnew⟩ := serve_backupLogin
  have hletters : ∀ x ∈ (codeCharacters "2222-2222-2222-2222").zip
      (codeCharacters " 22222222 2222-2222"), SameLetter x.1 x.2 := by decide +kernel
  have htext : Respells "2222-2222-2222-2222" " 22222222 2222-2222" :=
    List.forall₂_iff_zip.mpr ⟨by decide +kernel, fun hmem => hletters _ hmem⟩
  obtain ⟨-, row, hrow, -, hhash, -, -, -, -, -, hlater⟩ := backup_codes_work .keyed
    keyed_hashesApart keyed_foldsCase confirmation backupLogin random_confirmation 2 0 confirmed
    "2222-2222-2222-2222" " 22222222 2222-2222" hmem rfl
    ⟨hissue, tenCodes, ⟨_, rfl, hreturned⟩, by decide +kernel⟩ hlast htext
  refine ⟨hused, row, hrow, hlater hnew hstill ?_⟩
  rw [hused]
  exact hrows row hrow (hhash.trans (by decide +kernel))

end ShipFlow.Auth
