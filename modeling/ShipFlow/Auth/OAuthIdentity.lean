import Mathlib.Data.List.Pairwise
import ShipFlow.Interleaving.Acting
import ShipFlow.Auth.Requests

/-! Signing in through a provider. An account at a provider is linked to a user once, and the
link outlives whatever else happens to either. -/

namespace ShipFlow.Auth
open Interleaving Interleaving.Discipline Interleaving.Process Relational

/-- The account of this profile at its provider. -/
def OAuthAccount.Of (a : OAuthAccount) (profile : OAuthProfile) : Prop :=
  a.provider = profile.provider ∧ a.providerAccountId = profile.providerAccountId

/-- An account is linked once, and to a user whose address is verified. -/
structure Linked (s : Store) : Prop where
  sound : oauthAccounts.sound s s.oauthAccounts = true
  users : ∀ a ∈ s.oauthAccounts, ∃ u ∈ s.users, u.id = a.userId ∧ u.emailVerifiedAt ≠ none

/-- What becomes of the identity of a user. -/
structure User.Same (u u' : User) : Prop where
  id : u'.id = u.id
  email : u'.email = u.email
  verified : u.emailVerifiedAt ≠ none → u'.emailVerifiedAt ≠ none

/-- No user and no link is lost. -/
structure Identifies (s s' : Store) : Prop where
  accounts : s.oauthAccounts ⊆ s'.oauthAccounts
  users : ∀ u ∈ s.users, ∃ u' ∈ s'.users, u.Same u'

/-- The user whom an action of a request signs in. -/
def Event.signsIn : Event → Option Id
  | .oauthVerified userId | .sessionCreated userId _ _ | .challengeCreated userId _ => some userId
  | _ => none

section Links
variable {s s' s'' : Store} {profile : OAuthProfile} {email : String} {now : Time} {user : User}

theorem User.Same.refl {u : User} : u.Same u := ⟨rfl, rfl, fun h => h⟩

theorem User.Same.trans {u u' u'' : User} (h : u.Same u') (h' : u'.Same u'') : u.Same u'' :=
  ⟨h'.id.trans h.id, h'.email.trans h.email, fun hv => h'.verified (h.verified hv)⟩

theorem Identifies.refl : Identifies s s :=
  ⟨List.Subset.refl _, fun u hu => ⟨u, hu, .refl⟩⟩

theorem Identifies.trans (h : Identifies s s') (h' : Identifies s' s'') : Identifies s s'' := by
  refine ⟨List.Subset.trans h.accounts h'.accounts, fun u hu => ?_⟩
  obtain ⟨u', hu', hsame⟩ := h.users u hu
  obtain ⟨u'', hu'', hsame'⟩ := h'.users u' hu'
  exact ⟨u'', hu'', hsame.trans hsame'⟩

/-- Updates on the users leave every one of them who they are. -/
theorem same_updateRows {p : User → Bool} {f : User → User} {rows : List User}
    (hf : ∀ u, User.Same u (f u)) : ∀ u ∈ rows, ∃ u' ∈ updateRows p f rows, u.Same u' := by
  intro u hu
  cases hp : p u with
  | true => exact ⟨f u, mem_updateRows.mpr (.inr ⟨u, hu, hp, rfl⟩), hf u⟩
  | false => exact ⟨u, mem_updateRows.mpr (.inl ⟨hu, hp⟩), .refl⟩

theorem Linked.inj (h : Linked s) {a b : OAuthAccount} (ha : a ∈ s.oauthAccounts)
    (hb : b ∈ s.oauthAccounts) (hprovider : a.provider = b.provider)
    (hid : a.providerAccountId = b.providerAccountId) : a = b := by
  by_contra hne
  have hsymm : Std.Symm fun a b => oauthAccounts.collides a b = false := by
    refine ⟨fun a b hab => ?_⟩
    rw [← hab]
    simp only [oauthAccounts, Bool.beq_comm]
  have hdistinct := (Table.sound.pairwise h.sound).forall ha hb hne
  simp [oauthAccounts, hprovider, hid] at hdistinct

/-- The user found or created for a profile has its account. -/
theorem findOrCreateOAuthUser_links
    (h : findOrCreateOAuthUser profile email now s = .ok (user, s')) :
    Identifies s s' ∧
      ∃ a ∈ s'.oauthAccounts, a.Of profile ∧ a.userId = user.id ∧
        (s'.oauthAccounts = s.oauthAccounts ∨ s'.oauthAccounts = s.oauthAccounts ++ [a] ∧
          oauthAccounts.sound s s'.oauthAccounts = true) := by
  simp only [findOrCreateOAuthUser, Transaction.bind_ok, Transaction.reads_ok] at h
  obtain ⟨existing, _, ⟨hexisting, rfl⟩, h⟩ := h
  cases existing with
  | some found =>
    obtain ⟨rfl, rfl⟩ := (Transaction.pure_ok _ _ _ _).mp h
    obtain ⟨a, hfind, huser⟩ := Option.bind_eq_some_iff.mp hexisting.symm
    have hof := List.find?_some hfind
    have hid := List.find?_some huser
    rw [Bool.and_eq_true, beq_iff_eq, beq_iff_eq] at hof
    exact ⟨.refl, a, List.mem_of_find?_eq_some hfind, hof, (beq_iff_eq.mp hid).symm, .inl rfl⟩
  | none =>
    simp only [Transaction.bind_ok, Transaction.pure_ok] at h
    obtain ⟨_, _, hid, u, s₂, hup, _, _, hid', _, s₄, ha, rfl, rfl⟩ := h
    obtain ⟨rfl, rfl⟩ := uuidv7_ok.mp hid
    obtain ⟨rfl, rfl⟩ := uuidv7_ok.mp hid'
    obtain ⟨hsound, -, rfl⟩ := Table.create_ok.mp ha
    have hnew := List.mem_append_right s₂.oauthAccounts (List.mem_singleton_self
      (OAuthAccount.mk s₂.nextId user.id profile.provider profile.providerAccountId))
    -- a new user or the one with this address, and the account is linked to either
    rcases Table.upsert_ok.mp hup with ⟨-, -, rfl, rfl⟩ | ⟨found, hfind, -, rfl, rfl⟩
    · refine ⟨⟨List.subset_append_left _ _, fun u hu => ?_⟩, _, hnew, ⟨rfl, rfl⟩, rfl,
        .inr ⟨rfl, hsound⟩⟩
      exact ⟨u, List.mem_append_left _ hu, .refl⟩
    · exact ⟨⟨List.subset_append_left _ _, same_updateRows fun _ => .refl⟩, _, hnew, ⟨rfl, rfl⟩,
        rfl, .inr ⟨rfl, hsound⟩⟩

/-- What the transaction of a sign-in through a provider leaves: the account of the profile is
linked to the user it returns, whose address is verified. -/
structure Signs (profile : OAuthProfile) (user : User) (s s' : Store) : Prop where
  identifies : Identifies s s'
  account : ∃ a ∈ s'.oauthAccounts, a.Of profile ∧ a.userId = user.id
  linked : Linked s → Linked s'

theorem linkOAuthAccount_signs (h : linkOAuthAccount profile email now s = .ok (user, s')) :
    Signs profile user s s' := by
  simp only [linkOAuthAccount, Transaction.bind_ok, Transaction.rejectIf_ok] at h
  obtain ⟨found, s₁, hfound, _, s₂, ⟨-, hs⟩, hupdate⟩ := h
  subst s₂
  obtain ⟨hidentifies, a, ha, hof, huser, haccounts⟩ := findOrCreateOAuthUser_links hfound
  obtain ⟨u, hfind, -, rfl, rfl⟩ := Table.update_ok.mp hupdate
  have hselected := List.find?_some hfind
  have hid := beq_iff_eq.mp hselected
  have hverified : found.emailVerifiedAt.or (some now) ≠ none := by
    cases found.emailVerifiedAt <;> simp
  have hupdated : Identifies s₁ { s₁ with
      users := updateRows (fun u => u.id == found.id) (fun u => { u with
        avatarUrl := found.avatarUrl.or profile.avatarUrl
        displayName := found.displayName.or profile.displayName
        emailVerifiedAt := found.emailVerifiedAt.or (some now) }) s₁.users } :=
    ⟨List.Subset.refl _, same_updateRows fun _ => ⟨rfl, rfl, fun _ => hverified⟩⟩
  refine ⟨hidentifies.trans hupdated, ⟨a, ha, hof, huser.trans hid.symm⟩, fun hl => ⟨?_, ?_⟩⟩
  · rcases haccounts with heq | ⟨-, hsound⟩
    · change oauthAccounts.sound s s₁.oauthAccounts = true
      rw [heq]
      exact hl.sound
    · exact hsound
  · intro b hb
    -- an account from before, or that of this sign-in
    have hold : b ∈ s.oauthAccounts ∨ b = a := by
      change b ∈ s₁.oauthAccounts at hb
      rcases haccounts with heq | ⟨heq, -⟩
      · exact .inl (heq ▸ hb)
      · rw [heq] at hb
        exact (List.mem_append.mp hb).imp_right List.mem_singleton.mp
    rcases hold with hold | rfl
    · obtain ⟨v, hv, hvid, hvverified⟩ := hl.users b hold
      obtain ⟨v', hv', hsame⟩ := (hidentifies.trans hupdated).users v hv
      exact ⟨v', hv', hsame.id.trans hvid, hsame.verified hvverified⟩
    · exact ⟨_, mem_updateRows.mpr (.inr ⟨u, List.mem_of_find?_eq_some hfind, hselected, rfl⟩),
        hid.trans huser.symm, hverified⟩

end Links

/-! ## Every action -/

section Actions
variable {env : Environment} {pid : Nat} {w w' : World}

theorem Effect.identifies (h : Effect env pid w w') : Identifies w.store w'.store := by
  cases h with
  | accountCreated user _ _ tokenHash expiresAt context huser hunverified hsound =>
    exact ⟨List.Subset.refl _, fun u hu => ⟨u, List.mem_append_left _ hu, .refl⟩⟩
  | oauthLinked profile email now user nextId users accounts hnext h =>
    exact (linkOAuthAccount_signs h).identifies
  | signedIn | profileUpdated | passwordChanged | challengeConsumed =>
    exact ⟨List.Subset.refl _, same_updateRows fun _ => ⟨rfl, rfl, fun h => h⟩⟩
  | emailVerified =>
    exact ⟨List.Subset.refl _, same_updateRows fun _ => ⟨rfl, rfl, fun _ => Option.some_ne_none _⟩⟩
  | _ => exact ⟨List.Subset.refl _, fun u hu => ⟨u, hu, .refl⟩⟩

theorem Effect.linked (h : Effect env pid w w') (hl : Linked w.store) : Linked w'.store := by
  have hkept : w'.store.oauthAccounts = w.store.oauthAccounts → Linked w'.store := by
    intro heq
    refine ⟨?_, fun a ha => ?_⟩
    · rw [heq]
      exact hl.sound
    · rw [heq] at ha
      obtain ⟨u, hu, hid, hverified⟩ := hl.users a ha
      obtain ⟨u', hu', hsame⟩ := h.identifies.users u hu
      exact ⟨u', hu', hsame.id.trans hid, hsame.verified hverified⟩
  cases h with
  | oauthLinked profile email now user nextId users accounts hnext h =>
    exact (linkOAuthAccount_signs h).linked hl
  | _ => exact hkept rfl

end Actions

/-! ## The sign-in -/

section SignIn
variable {env : Environment} {pid : Nat} {w w' : World} {profile : OAuthProfile} {userId : Id}

/-- The request has signed in no one but the user of the account. -/
structure Confined (profile : OAuthProfile) (pid : Nat) (userId : Id) (w : World) : Prop where
  account : ∃ a ∈ w.store.oauthAccounts, a.Of profile ∧ a.userId = userId
  events : ∀ e, (pid, e) ∈ w.trace → ∀ u, e.signsIn = some u → u = userId

/-- The action signs in this user, if any. -/
abbrev SignsOnly (userId : Id) (e : Event) : Prop := ∀ u, e.signsIn = some u → u = userId

theorem Confined.others {q : Nat} (hq : q ≠ pid) (he : Effect env q w w')
    (h : Confined profile pid userId w) : Confined profile pid userId w' := by
  obtain ⟨a, ha, hof⟩ := h.account
  refine ⟨⟨a, he.identifies.accounts ha, hof⟩, fun e hmem => ?_⟩
  obtain ⟨es, hes⟩ := he.trace
  rw [hes] at hmem
  rcases List.mem_append.mp hmem with hmem | hmem
  · exact h.events e hmem
  · obtain ⟨_, -, heq⟩ := List.mem_map.mp hmem
    exact absurd (Prod.mk.inj heq).1 hq

theorem Confined.own {r : Store × List Event} (he : Effect env pid w (w.advance pid r))
    (hr : ∀ e ∈ r.2, SignsOnly userId e) (h : Confined profile pid userId w) :
    Confined profile pid userId (w.advance pid r) := by
  obtain ⟨a, ha, hof⟩ := h.account
  refine ⟨⟨a, he.identifies.accounts ha, hof⟩, fun e hmem => ?_⟩
  rcases List.mem_append.mp hmem with hmem | hmem
  · exact h.events e hmem
  · obtain ⟨_, hnew, heq⟩ := List.mem_map.mp hmem
    cases heq
    exact hr e hnew

theorem completeFirstFactor_signsOnly (user : User) (context : ClientContext) :
    (completeFirstFactor env user context).Observes (SignsOnly user.id) := by
  have hsigned : ∀ {e : Event}, e.signsIn = some user.id → SignsOnly user.id e := by
    intro e he u hu
    exact Option.some.inj (hu.symm.trans he)
  refine Observes.query fun enabled => ?_
  split
  · refine Every.bind (Observes.ask fun token => Observes.ask fun now =>
      Observes.atomically (fun r e he => ?_) fun _ => Every.pure _) fun _ => Every.pure _
    cases r with
    | ok challengeId => exact hsigned (List.mem_singleton.mp he ▸ rfl)
    | error _ => cases he
  · refine Observes.ask fun refreshToken => Observes.ask fun expiresAt => Observes.ask fun now =>
      Observes.atomically (fun r e he => ?_) fun _ =>
        Every.bind (Observes.ask fun _ => Every.pure _) fun _ => Every.pure _
    cases r with
    | ok sessionId => exact hsigned (List.mem_singleton.mp he ▸ rfl)
    | error _ => cases he

/-- The access token that a first factor earns is that of the user. -/
theorem completeFirstFactor_returns (user : User) (context : ClientContext) :
    (completeFirstFactor env user context).Returns fun attempt => ∀ authentication,
      attempt = .authenticated authentication → authentication.user.id = user.id := by
  refine Returns.last fun enabled => ?_
  split
  · exact Returns.last fun _ => Returns.pure fun _ h => by cases h
  · refine Returns.last fun _ => Returns.last fun _ => Returns.last fun _ =>
      Returns.last fun _ => ?_
    refine Returns.bind (Q := fun authentication => authentication.user.id = user.id)
      (Returns.last fun _ => Returns.pure rfl) fun authentication hid => Returns.pure ?_
    rintro _ ⟨⟩
    exact hid

/-- What a sign-in through a provider has done when it is over. -/
structure SignedIn (profile : OAuthProfile) (pid : Nat) (r : Except Failure AuthenticationAttempt)
    (w : World) : Prop where
  events : ∀ e, (pid, e) ∈ w.trace → ∀ u, e.signsIn = some u →
    ∃ a ∈ w.store.oauthAccounts, a.Of profile ∧ a.userId = u
  answer : ∀ attempt, r = .ok attempt → ∃ a ∈ w.store.oauthAccounts, a.Of profile ∧
    ∀ authentication, attempt = .authenticated authentication → authentication.user.id = a.userId

theorem authenticateOAuth_signsIn (profile : OAuthProfile) (context : ClientContext)
    (hnew : w.Unused pid) :
    Ensures (contract env) pid (SignedIn profile pid) (authenticateOAuth env profile context)
      w := by
  have hlogs : (discipline env).Logs := fun _ _ _ h => h.trace
  have hunused : ∀ {w w' : World}, w.Unused pid → (contract env).rely pid w w' → w'.Unused pid :=
    fun hnew hw => hlogs.unused hw hnew
  refine Ensures.ask (fun _ => .idle) fun now => Ensures.atomically_quiet (fun _ => .idle)
    (fun _ => rfl) (fun w₁ hw hn i user s' hm => ?_) fun w₁ hw hn i e hm => ?_
  · obtain ⟨nextId, users, accounts, hnext, rfl⟩ := linkOAuthAccount_frame hm
    have heffect : Effect env pid w₁ _ := .oauthLinked profile _ now user nextId users accounts
      hnext hm
    -- from here on the request speaks of the user that was found, and of nobody else
    have hconfined : Confined profile pid user.id (w₁.advance pid
        ({ w₁.store with nextId := nextId, users := users, oauthAccounts := accounts },
          [.oauthVerified user.id])) := by
      refine ⟨(linkOAuthAccount_signs hm).account, fun e hmem u hu => ?_⟩
      rcases List.mem_append.mp hmem with hmem | hmem
      · exact absurd rfl (hunused hnew hw _ hmem)
      · cases List.mem_singleton.mp hmem
        exact (Option.some.inj hu).symm
    refine ⟨heffect.numbered hn, heffect, ?_⟩
    refine (Keeps.guarded (fun q w w' hq _ _ he h => h.others hq he)
      (fun w r _ he hr h => h.own he hr) (completeFirstFactor_keeps env user context)
      (completeFirstFactor_signsOnly user context) (completeFirstFactor_returns user context)
      hconfined).mono fun r w₂ _ hr => ?_
    obtain ⟨⟨a, ha, hof, huser⟩, hevents⟩ := hr.1
    refine ⟨fun e he u hu => ⟨a, ha, hof, ?_⟩, fun attempt heq => ⟨a, ha, hof, ?_⟩⟩
    · exact huser.trans (hevents e he u hu).symm
    · exact fun authentication h => (hr.2 attempt heq authentication h).trans huser.symm
  · refine Ensures.fail fun w₂ hw' _ => ⟨fun e he => ?_, fun _ h => by cases h⟩
    exact absurd rfl (hunused (hunused hnew hw) hw' _ he)

/-- What a finished request has come to, for one that signs in through a provider. -/
def OAuthFinished (r : Request) (pid : Nat) (o : Except Failure Response) (w : World) : Prop :=
  ∀ profile context, r = .authenticateOAuth profile context →
    ∃ r', o = r'.map .attempt ∧ SignedIn profile pid r' w

/-- The user who is authenticated is the one that the account is linked to. -/
theorem OAuthFinished.linked {context : ClientContext} {authentication : IssuedAuthentication}
    (h : OAuthFinished (.authenticateOAuth profile context) pid
      (.ok (.attempt (.authenticated authentication))) w) :
    ∃ a ∈ w.store.oauthAccounts, a.Of profile ∧ authentication.user.id = a.userId := by
  obtain ⟨r, hr, hsigned⟩ := h profile context rfl
  cases r with
  | error e => cases hr
  | ok attempt =>
    cases hr
    obtain ⟨a, ha, hof, huser⟩ := hsigned.answer _ rfl
    exact ⟨a, ha, hof, huser _ rfl⟩

theorem handler_signsIn (r : Request) (hnew : w.Unused pid) :
    Ensures (contract env) pid (OAuthFinished r pid) (handler env r) w := by
  cases r with
  | authenticateOAuth profile context =>
    refine Ensures.map ((authenticateOAuth_signsIn profile context hnew).mono fun r w' _ hr => ?_)
    rintro _ _ ⟨⟩
    exact ⟨r, rfl, hr⟩
  | _ => exact (handler_ensures env _ hnew).mono fun _ _ _ _ _ _ h => by cases h

theorem signIn_meets (env : Environment) {s : Store} (hn : Numbered s)
    (acts : List (Action Request Input)) :
    Config.Meets (fun w => Numbered w.store) (Effect env) OAuthFinished
      ((Config.init s : Auth.Config).run (handler env) acts) :=
  (Config.Meets.init hn).run fun r _ _ _ _ hnew => handler_signsIn r hnew

end SignIn

/-- In every interleaving, an account at a provider is linked to one user, whose address is
verified, from its first sign-in on. Nobody who has signed in through it is anyone else, whatever
address the provider reports, and no user is lost, renamed or unverified. -/
theorem oauth_identity (env : Environment) {s : Store} (hn : Numbered s) (hl : Linked s)
    (acts : List (Action Request Input)) :
    let run := (Config.init s : Auth.Config).run (handler env)
    Linked (run acts).world.store ∧
    (∀ before after, acts = before ++ after →
      Identifies (run before).world.store (run acts).world.store) ∧
    (∀ p profile context r, (run acts).outcome p = some (.authenticateOAuth profile context, r) →
      ∃ r', r = r'.map .attempt ∧ SignedIn profile p r' (run acts).world) ∧
    ∀ p q profile profile' context context' authentication authentication',
      (run acts).outcome p = some (.authenticateOAuth profile context,
        .ok (.attempt (.authenticated authentication))) →
      (run acts).outcome q = some (.authenticateOAuth profile' context',
        .ok (.attempt (.authenticated authentication'))) →
      profile.provider = profile'.provider → profile.providerAccountId = profile'.providerAccountId →
      authentication.user.id = authentication'.user.id := by
  intro run
  have hend := signIn_meets env hn acts
  have hlinked : Linked (run acts).world.store :=
    Config.Meets.invariant (c := (Config.init s : Auth.Config)) (A := fun _ _ => True)
      (P := fun w => Linked w.store) (fun r _ _ _ _ hnew => handler_signsIn r hnew)
      (Config.Meets.init hn) hl (fun _ _ _ _ _ he _ hl => he.linked hl) (Config.Along.trivial acts)
  refine ⟨hlinked, fun before after heq => ?_, fun p profile context r hp => ?_, ?_⟩
  · change Identifies _ (Config.run (handler env) _ acts).world.store
    rw [heq, Config.run_append]
    exact Config.Meets.invariant (A := fun _ _ => True)
      (P := fun w => Identifies (run before).world.store w.store)
      (fun r _ _ _ _ hnew => handler_signsIn r hnew) (signIn_meets env hn before) .refl
      (fun _ _ _ _ _ he _ h => h.trans he.identifies) (Config.Along.trivial after)
  · exact hend.outcome hp profile context rfl
  · intro p q profile profile' context context' authentication authentication' hp hq hprovider hid
    obtain ⟨a, ha, hof, huser⟩ := (hend.outcome hp).linked
    obtain ⟨b, hb, hof', huser'⟩ := (hend.outcome hq).linked
    have hsame : a = b := hlinked.inj ha hb ((hof.1.trans hprovider).trans hof'.1.symm)
      ((hof.2.trans hid).trans hof'.2.symm)
    rw [huser, huser', hsame]

/-- A user who has registered and not yet verified the address. -/
def unverified : Store :=
  { Store.empty with
    nextId := 1
    users := [⟨0, "ada@example.com", none, none, some "secret", .active, none, none, none⟩] }

/-- Two sign-ins with one account at a provider, which reports another address to the second. -/
def signInTwice : List (Action Request Input) :=
  [.request (.authenticateOAuth ⟨"github", "1815", "ada@example.com", none, none⟩ ⟨none, none⟩),
    .request (.authenticateOAuth ⟨"github", "1815", "countess@example.com", none, none⟩
      ⟨none, none⟩)] ++
  advances 0 2 (.at 0 "first") ++ advances 1 2 (.at 0 "second") ++ advances 0 6 (.at 0 "first") ++
  advances 1 6 (.at 0 "second")

theorem oauth_identity_twice :
    let world := ((Config.init unverified : Auth.Config).run (handler .transparent) signInTwice).world
    world.trace.filterMap (fun x => x.2.signsIn.map fun userId => (x.1, userId)) =
      [(0, 0), (1, 0), (0, 0), (1, 0)] ∧
    Linked world.store := by
  refine ⟨by decide +kernel, (oauth_identity .transparent ?_ ?_ signInTwice).1⟩
  · constructor <;> simp [unverified, Store.empty, Keyed, Below, SoundSessions, distinct]
  · constructor <;> simp [unverified, Store.empty, Table.sound, distinct]

end ShipFlow.Auth
