import ShipFlow.Web.ApiClient

/-! Requests with one access token share its refresh, as long as it is in flight. -/

namespace ShipFlow.Web
open Machine

/-- What an event does. -/
inductive Moves (c : ApiClient) : ClientEvent → ApiClient → Prop
  | request (auth : Bool) : Moves c (.request auth) { c with
      requests := c.requests ++ [⟨auth, .sent, [if auth then c.accessToken else none]⟩] }
  /-- a request is over -/
  | ended {e i r phase} (accessToken : Option String) (hr : c.requests[i]? = some r)
      (hphase : (∃ outcome, phase = .settled outcome) ∨ phase = .refreshFailed)
      (hquiet : ∀ statusCode readable, e = .response i statusCode readable → r.phase = .sent →
        r.auth = true → c.canRefresh = true → statusCode ≠ 401)
      (he : ∀ j statusCode readable, e = .response j statusCode readable →
        j = i ∧ (r.phase = .sent ∨ r.phase = .resent)) :
      Moves c e (ApiClient.put i { r with phase := phase } { c with accessToken := accessToken })
  /-- a request joins the refresh in flight -/
  | joined {i r readable refresh} (hr : c.requests[i]? = some r) (hsent : r.phase = .sent)
      (hauth : r.auth = true) (hpromise : c.refreshPromise = some refresh) :
      Moves c (.response i 401 readable) (c.put i { r with phase := .refreshing refresh readable })
  /-- a request makes a refresh -/
  | began {i r readable} (hr : c.requests[i]? = some r) (hsent : r.phase = .sent)
      (hauth : r.auth = true) (hpromise : c.refreshPromise = none) :
      Moves c (.response i 401 readable)
        (ApiClient.put i { r with phase := .refreshing c.refreshes.length readable } { c with
          refreshPromise := some c.refreshes.length
          refreshes := c.refreshes ++ [⟨r.fetched.headD none, none⟩] })
  | settled {refresh} (result : RefreshResult) (accessToken : Option String)
      (hpromise : c.refreshPromise = some refresh) :
      Moves c (.refreshSettled result accessToken) { c with
        accessToken := accessToken
        refreshPromise := none
        refreshes := c.refreshes.modify refresh fun x => { x with result := some result } }
  | resent {i r readable refresh x refreshedToken} (hr : c.requests[i]? = some r)
      (hphase : r.phase = .refreshing refresh readable) (hx : c.refreshes[refresh]? = some x)
      (hresult : x.result = some (.token (some refreshedToken))) :
      Moves c (.resumed i)
        (c.put i { r with phase := .resent, fetched := r.fetched ++ [some refreshedToken] })

section Steps
variable {c c' : ApiClient} {e : ClientEvent} {i : Nat} {r : ApiRequest}

end Steps

/-! ## Invariants -/

/-- The request was fetched once, or a second time with the token of a refresh. -/
def FetchedTwice (refreshes : List Refresh) (r : ApiRequest) : Prop :=
  (∃ t, r.fetched = [t]) ∨ ∃ (t : Option String) (k : Nat) (x : Refresh) (refreshedToken : String),
    r.fetched = [t, some refreshedToken] ∧ refreshes[k]? = some x ∧ x.result = some (.token (some refreshedToken))

/-- The phases in which the second fetch is still to come. -/
def Phase.isFirst : Phase → Bool
  | .sent | .refreshing _ _ => true
  | _ => false

structure Coordinated (c : ApiClient) : Prop where
  canRefresh : c.canRefresh = true
  inFlight : ∀ (k : Nat) (x : Refresh), c.refreshes[k]? = some x → x.result = none → c.refreshPromise = some k
  promised : ∀ k, c.refreshPromise = some k → ∃ x : Refresh, c.refreshes[k]? = some x ∧ x.result = none
  fetched : ∀ r ∈ c.requests, FetchedTwice c.refreshes r
  first : ∀ r ∈ c.requests, r.phase.isFirst = true → ∃ t, r.fetched = [t]

section Invariants
variable {c c' : ApiClient} {e : ClientEvent} {i : Nat} {r r' : ApiRequest}

/-- A settled refresh keeps its result. -/
theorem FetchedTwice.mono {refreshes refreshes' : List Refresh}
    (h : FetchedTwice refreshes r) (hkept : ∀ (k : Nat) (x : Refresh) result, refreshes[k]? = some x →
      x.result = some result → refreshes'[k]? = some x) : FetchedTwice refreshes' r := by
  rcases h with hone | ⟨t, k, x, refreshedToken, hfetched, hx, hresult⟩
  · exact .inl hone
  · exact .inr ⟨t, k, x, refreshedToken, hfetched, hkept k x _ hx hresult, hresult⟩

theorem mem_put (h : r' ∈ (ApiClient.put i r c).requests) : r' ∈ c.requests ∨ r' = r :=
  List.mem_or_eq_of_mem_set h

/-- A change of one request. -/
theorem Coordinated.put (h : Coordinated c) (hfetched : FetchedTwice c.refreshes r)
    (hfirst : r.phase.isFirst = true → ∃ t, r.fetched = [t]) : Coordinated (ApiClient.put i r c) := by
  constructor
  · exact h.canRefresh
  · exact h.inFlight
  · exact h.promised
  · intro x hx
    rcases mem_put hx with hx | rfl
    · exact h.fetched x hx
    · exact hfetched
  · intro x hx
    rcases mem_put hx with hx | rfl
    · exact h.first x hx
    · exact hfirst

theorem Coordinated.request (h : Coordinated c) (auth : Bool) (t : Option String) :
    Coordinated { c with requests := c.requests ++ [⟨auth, .sent, [t]⟩] } := by
  have hnew {x : ApiRequest} (hx : x ∈ c.requests ++ [⟨auth, .sent, [t]⟩]) :
      x ∈ c.requests ∨ x = ⟨auth, .sent, [t]⟩ := by
    rwa [List.mem_append, List.mem_singleton] at hx
  constructor
  · exact h.canRefresh
  · exact h.inFlight
  · exact h.promised
  · intro x hx
    rcases hnew hx with hx | rfl
    · exact h.fetched x hx
    · exact .inl ⟨t, rfl⟩
  · intro x hx
    rcases hnew hx with hx | rfl
    · exact h.first x hx
    · exact fun _ => ⟨t, rfl⟩

/-- A refresh that is made with no other one in flight. -/
theorem Coordinated.began (h : Coordinated c) (hpromise : c.refreshPromise = none)
    (token : Option String) :
    Coordinated { c with
      refreshPromise := some c.refreshes.length
      refreshes := c.refreshes ++ [⟨token, none⟩] } := by
  constructor
  · exact h.canRefresh
  -- no refresh was open before, so an open one is the new one
  · intro k x hx hresult
    rcases Nat.lt_trichotomy k c.refreshes.length with hk | rfl | hk
    · rw [List.getElem?_append_left hk] at hx
      have hbusy := h.inFlight k x hx hresult
      rw [hpromise] at hbusy
      cases hbusy
    · rfl
    · rw [List.getElem?_eq_none (by rw [List.length_append]; exact hk)] at hx
      cases hx
  · intro k hk
    cases hk
    exact ⟨_, List.getElem?_concat_length, rfl⟩
  · intro x hx
    refine (h.fetched x hx).mono fun k y result hy _ => ?_
    have hlt : k < c.refreshes.length := (List.getElem?_eq_some_iff.mp hy).1
    exact (List.getElem?_append_left hlt).trans hy
  · exact h.first

theorem Coordinated.settled (h : Coordinated c) {refresh : Nat}
    (hpromise : c.refreshPromise = some refresh) (result : RefreshResult) :
    Coordinated { c with
      refreshPromise := none
      refreshes := c.refreshes.modify refresh fun x => { x with result := some result } } := by
  obtain ⟨waiting, hwaiting, hopen⟩ := h.promised refresh hpromise
  constructor
  · exact h.canRefresh
  · intro k x hx hresult
    by_cases hk : refresh = k
    · subst hk
      rw [List.getElem?_modify_eq, hwaiting] at hx
      cases hx
      cases hresult
    · rw [List.getElem?_modify_ne _ _ hk] at hx
      have hbusy := h.inFlight k x hx hresult
      rw [hpromise] at hbusy
      exact absurd (Option.some.inj hbusy) hk
  · exact nofun
  · intro x hx
    refine (h.fetched x hx).mono fun k y settled hy hsettled => ?_
    have hk : refresh ≠ k := by
      rintro rfl
      rw [hwaiting] at hy
      cases hy
      rw [hopen] at hsettled
      cases hsettled
    exact (List.getElem?_modify_ne _ _ hk).trans hy
  · exact h.first

end Invariants

/-! ## One refresh -/

/-- How often a request that was sent with this token has called the adapter's
`refreshAccessToken`. -/
def ApiClient.refreshCalls (token : Option String) (c : ApiClient) : Nat :=
  c.refreshes.countP fun x => x.accessToken == token

/-- A response with status 401 to the first fetch of a request that was sent with this token. -/
def Unauthorized (token : Option String) (c : ApiClient) (e : ClientEvent) : Prop :=
  ∃ i readable r, e = .response i 401 readable ∧ c.requests[i]? = some r ∧ r.phase = .sent ∧
    r.auth = true ∧ r.fetched.headD none = token

/-- No refresh is in flight that a request with another token has made. -/
def Apart (token : Option String) (c : ApiClient) : Prop :=
  ∀ k x, c.refreshPromise = some k → c.refreshes[k]? = some x → x.accessToken = token

section Runs
variable {c c' : ApiClient} {e : ClientEvent} {accessToken token : Option String}
  {events : List ClientEvent}

theorem countP_modify {α : Type} {p : α → Bool} {f : α → α} (hf : ∀ x, p (f x) = p x) (k : Nat)
    (l : List α) : (l.modify k f).countP p = l.countP p := by
  induction l generalizing k with
  | nil => cases k <;> rfl
  | cons x l ih =>
    cases k with
    | zero => rw [List.modify_zero_cons, List.countP_cons, List.countP_cons, hf]
    | succ k => rw [List.modify_succ_cons, List.countP_cons, List.countP_cons, ih]

/-- Only a response with no refresh in flight makes one. -/
theorem Moves.refreshCalls (hm : Moves c e c') (h : Coordinated c) (token : Option String) :
    c'.refreshCalls token = c.refreshCalls token ∧
        (Unauthorized token c e → c.refreshPromise ≠ none) ∨
      c'.refreshCalls token = c.refreshCalls token + 1 ∧ Unauthorized token c e ∧
        c.refreshPromise = none := by
  cases hm with
  | request => exact .inl ⟨rfl, nofun⟩
  | @ended _ i r phase accessToken hr hphase hquiet he =>
    refine .inl ⟨rfl, ?_⟩
    rintro ⟨j, readable, r', heq, hr', hsent, hauth, -⟩
    obtain ⟨rfl, -⟩ := he j 401 readable heq
    rw [hr] at hr'
    cases hr'
    exact absurd rfl (hquiet 401 readable heq hsent hauth h.canRefresh)
  | joined hr hsent hauth hpromise =>
    refine .inl ⟨rfl, fun _ => ?_⟩
    rw [hpromise]
    exact Option.some_ne_none _
  | @began i r readable hr hsent hauth hpromise =>
    -- the call counts for the token that the request was sent with
    have hcalls : (c.refreshes ++ [(⟨r.fetched.headD none, none⟩ : Refresh)]).countP
        (fun x => x.accessToken == token) =
          c.refreshCalls token + if r.fetched.headD none == token then 1 else 0 := by
      rw [List.countP_append, List.countP_singleton]
      rfl
    cases htoken : r.fetched.headD none == token with
    | true =>
      rw [htoken, if_pos rfl] at hcalls
      exact .inr ⟨hcalls, ⟨i, readable, r, rfl, hr, hsent, hauth, beq_iff_eq.mp htoken⟩, hpromise⟩
    | false =>
      rw [htoken, if_neg Bool.false_ne_true] at hcalls
      refine .inl ⟨hcalls, ?_⟩
      rintro ⟨j, readable', r', heq, hr', -, -, htoken'⟩
      cases heq
      rw [hr] at hr'
      cases hr'
      exact absurd (beq_iff_eq.mpr htoken') (by rw [htoken]; exact Bool.false_ne_true)
  | @settled refresh result =>
    have hsame := countP_modify (p := fun x : Refresh => x.accessToken == token)
      (f := fun x => { x with result := some result }) (fun _ => rfl) refresh c.refreshes
    exact .inl ⟨hsame, nofun⟩
  | resent => exact .inl ⟨rfl, nofun⟩

/-- A request that is answered with status 401 makes a refresh or joins that of its token. -/
theorem Moves.called (hm : Moves c e c') (h : Coordinated c) (he : Unauthorized token c e)
    (hapart : Apart token c) : 1 ≤ c'.refreshCalls token := by
  rcases hm.refreshCalls h token with ⟨hsame, hbusy⟩ | ⟨hcalls, -⟩
  · obtain ⟨k, hk⟩ := Option.ne_none_iff_exists'.mp (hbusy he)
    obtain ⟨x, hx, -⟩ := h.promised k hk
    rw [hsame]
    exact List.countP_pos_iff.mpr ⟨x, List.mem_of_getElem? hx, beq_iff_eq.mpr (hapart k x hk hx)⟩
  · lia

end Runs

end ShipFlow.Web
