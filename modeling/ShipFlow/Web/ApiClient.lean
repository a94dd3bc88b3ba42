import ShipFlow.Machine.Run

/-! The API client of the web application: requests that are sent once more with a fresh access
token, and the promise that they share for it. -/

namespace ShipFlow.Web

/-- What the adapter's `refreshAccessToken` comes to. -/
inductive RefreshResult where
  | token (refreshedToken : Option String)
  | rejected
  deriving DecidableEq, Repr

/-- A call of the adapter's `refreshAccessToken`, with the token of the request that made it. -/
structure Refresh where
  accessToken : Option String
  result : Option RefreshResult
  deriving DecidableEq, Repr

inductive Outcome where
  | payload
  | apiError (statusCode : Nat)
  | unreadable
  deriving DecidableEq, Repr

/-- Where a call of `request` has come to. -/
inductive Phase where
  | sent
  | refreshing (refresh : Nat) (readable : Bool)
  | resent
  | settled (outcome : Outcome)
  | refreshFailed
  deriving DecidableEq, Repr

/-- A call of `request`, with the access token of each of its fetches. -/
structure ApiRequest where
  auth : Bool
  phase : Phase
  fetched : List (Option String)
  deriving DecidableEq, Repr

/-- The adapter and the variables of the client. The refreshes are kept, the promise is the
number of one of them. -/
structure ApiClient where
  accessToken : Option String
  canRefresh : Bool
  refreshPromise : Option Nat
  refreshes : List Refresh
  requests : List ApiRequest
  deriving DecidableEq, Repr

inductive ClientEvent where
  | request (auth : Bool)
  /-- the response to the latest fetch of a request, and whether its body can be parsed -/
  | response (request statusCode : Nat) (readable : Bool)
  | unreachable (request : Nat)
  /-- the refresh settles, and leaves an access token behind -/
  | refreshSettled (result : RefreshResult) (accessToken : Option String)
  /-- a request goes on after the refresh that it waited for -/
  | resumed (request : Nat)
  deriving DecidableEq, Repr

def ApiClient.initial (accessToken : Option String) (canRefresh : Bool) : ApiClient :=
  ⟨accessToken, canRefresh, none, [], []⟩

namespace ApiClient

def put (i : Nat) (r : ApiRequest) (c : ApiClient) : ApiClient :=
  { c with requests := c.requests.set i r }

/-- `clearSession` of the adapter. -/
def clearSession (c : ApiClient) : ApiClient := { c with accessToken := none }

/-- The end of `request`. -/
def conclude (statusCode : Nat) (readable : Bool) : Outcome :=
  if !readable then .unreadable
  else if 200 ≤ statusCode && statusCode ≤ 299 then .payload
  else .apiError statusCode

/-- `refreshAccessToken` of the client: the refresh in flight, or a new one. -/
def refreshAccessToken (accessToken : Option String) (c : ApiClient) : Nat × ApiClient :=
  match c.refreshPromise with
  | some refresh => (refresh, c)
  | none => (c.refreshes.length,
      { c with
        refreshPromise := some c.refreshes.length
        refreshes := c.refreshes ++ [⟨accessToken, none⟩] })

def onResponse (i : Nat) (r : ApiRequest) (statusCode : Nat) (readable : Bool) (c : ApiClient) :
    Option ApiClient :=
  match r.phase with
  | .sent =>
    if statusCode = 401 ∧ r.auth = true then
      if c.canRefresh then
        let (refresh, c) := c.refreshAccessToken (r.fetched.headD none)
        some (c.put i { r with phase := .refreshing refresh readable })
      else
        some (c.clearSession.put i { r with phase := .settled (conclude statusCode readable) })
    else some (c.put i { r with phase := .settled (conclude statusCode readable) })
  | .resent => some (c.put i { r with phase := .settled (conclude statusCode readable) })
  | _ => none

def onResumed (i : Nat) (r : ApiRequest) (readable : Bool) (result : RefreshResult) (c : ApiClient) :
    ApiClient :=
  match result with
  | .token (some refreshedToken) =>
    if refreshedToken = "" then
      c.clearSession.put i { r with phase := .settled (conclude 401 readable) }
    else c.put i { r with phase := .resent, fetched := r.fetched ++ [some refreshedToken] }
  | .token none => c.clearSession.put i { r with phase := .settled (conclude 401 readable) }
  | .rejected => c.clearSession.put i { r with phase := .refreshFailed }

def step (c : ApiClient) : ClientEvent → Option ApiClient
  | .request auth =>
    some { c with
      requests := c.requests ++ [⟨auth, .sent, [if auth then c.accessToken else none]⟩] }
  | .response i statusCode readable =>
    c.requests[i]?.bind fun r => c.onResponse i r statusCode readable
  | .unreachable i =>
    c.requests[i]?.bind fun r =>
      if r.phase = .sent ∨ r.phase = .resent then
        some (c.put i { r with phase := .settled (.apiError 0) })
      else none
  | .refreshSettled result accessToken =>
    c.refreshPromise.map fun refresh =>
      { c with
        accessToken := accessToken
        refreshPromise := none
        refreshes := c.refreshes.modify refresh fun x => { x with result := some result } }
  | .resumed i =>
    c.requests[i]?.bind fun r =>
      match r.phase with
      | .refreshing refresh readable =>
        (c.refreshes[refresh]?.bind Refresh.result).map fun result => c.onResumed i r readable result
      | _ => none

end ApiClient
end ShipFlow.Web
