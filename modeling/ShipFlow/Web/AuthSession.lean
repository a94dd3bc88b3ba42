import ShipFlow.Machine.Run

/-! The session of the web application: its store, and the calls that write it when the server
answers them. -/

namespace ShipFlow.Web
open Machine

/-! ## The store -/

inductive AuthStatus where
  | authenticated
  | error
  | restoring
  | unauthenticated
  deriving DecidableEq, Repr

structure AuthUser where
  id : String
  email : String
  displayName : Option String
  avatarUrl : Option String
  emailVerified : Bool
  deriving DecidableEq, Repr

structure Authentication where
  accessToken : String
  expiresIn : Nat
  user : AuthUser
  deriving DecidableEq, Repr

structure AuthState where
  accessToken : Option String
  restoreError : Option String
  status : AuthStatus
  user : Option AuthUser
  deriving DecidableEq, Repr

namespace AuthState

def initial : AuthState := ⟨none, none, .restoring, none⟩

def beginRestore (s : AuthState) : AuthState := { s with restoreError := none, status := .restoring }

def clearSession (_ : AuthState) : AuthState := ⟨none, none, .unauthenticated, none⟩

def setRestoreError (restoreError : String) (_ : AuthState) : AuthState :=
  ⟨none, some restoreError, .error, none⟩

def setSession (authentication : Authentication) (_ : AuthState) : AuthState :=
  ⟨some authentication.accessToken, none, .authenticated, some authentication.user⟩

def setUser (user : AuthUser) (s : AuthState) : AuthState := { s with user := some user }

end AuthState

/-! ## The calls -/

/-- What a request to the server fails with. -/
inductive RequestFailure where
  | api (statusCode : Nat) (message : String)
  | other
  deriving DecidableEq, Repr

def getAuthErrorMessage (error : RequestFailure) (fallback : String) : String :=
  match error with
  | .other => fallback
  | .api statusCode message =>
    if statusCode = 0 then "The service is unreachable. Check your connection and try again."
    else if statusCode = 429 then "Too many attempts. Please wait a few minutes and try again."
    else if message = "" then fallback
    else message

/-- `isApiError(error) && error.statusCode === 401` -/
def RequestFailure.unauthorized : RequestFailure → Bool
  | .api statusCode _ => statusCode == 401
  | .other => false

inductive SessionCall where
  | restoreSession
  | refreshForApiClient
  | signOut
  | signOutAll
  deriving DecidableEq, Repr

inductive SessionPhase where
  | pending
  /-- a restore before its `finally` -/
  | restored
  | settled
  deriving DecidableEq, Repr

/-- The stores, and the calls that were made. `restorePromise` is the number of one of them. -/
structure AuthSession where
  store : AuthState
  activeOrganizationId : Option String
  restorePromise : Option Nat
  calls : List (SessionCall × SessionPhase)
  deriving DecidableEq, Repr

inductive SessionEvent where
  /-- a login, a registration or a second factor that came through -/
  | login (authentication : Authentication)
  | called (call : SessionCall)
  /-- the server's answer to the `authApi.refresh()` of a call -/
  | refreshed (call : Nat) (result : Except RequestFailure Authentication)
  | finallyRestored (call : Nat)
  /-- the server's answer to `authApi.logout()` or `authApi.logoutAll()` -/
  | loggedOut (call : Nat) (result : Except RequestFailure Unit)
  /-- the API client clears the session -/
  | clearSession
  | setUser (user : AuthUser)
  | setActiveOrganization (activeOrganizationId : String)

namespace AuthSession

def initial : AuthSession := ⟨.initial, none, none, []⟩

def applyAuthentication (authentication : Authentication) (s : AuthSession) : AuthSession :=
  { s with store := s.store.setSession authentication }

def clearSessionState (s : AuthSession) : AuthSession :=
  { s with store := s.store.clearSession, activeOrganizationId := none }

def enter (phase : SessionPhase) (i : Nat) (call : SessionCall) (s : AuthSession) : AuthSession :=
  { s with calls := s.calls.set i (call, phase) }

def begin (call : SessionCall) (s : AuthSession) : AuthSession :=
  { s with calls := s.calls ++ [(call, .pending)] }

def restoreSession (s : AuthSession) : AuthSession :=
  match s.restorePromise with
  | some _ => s
  | none =>
    let i := s.calls.length
    { ({ s with store := s.store.beginRestore }).begin .restoreSession with
      restorePromise := some i }

/-- What `restoreSession` does with the server's answer. -/
def onRestored (result : Except RequestFailure Authentication) (s : AuthSession) : AuthSession :=
  match result with
  | .ok authentication => s.applyAuthentication authentication
  | .error error =>
    if error.unauthorized then s.clearSessionState
    else
      { s with
        store := s.store.setRestoreError
          (getAuthErrorMessage error "Unable to restore your session.") }

/-- What `refreshForApiClient` does with it. -/
def onRefreshed (result : Except RequestFailure Authentication) (s : AuthSession) : AuthSession :=
  match result with
  | .ok authentication => s.applyAuthentication authentication
  | .error _ => s.clearSessionState

def step (s : AuthSession) : SessionEvent → Option AuthSession
  | .login authentication => some (s.applyAuthentication authentication)
  | .called .restoreSession => some s.restoreSession
  | .called call => some (s.begin call)
  | .refreshed i result =>
    match s.calls[i]? with
    | some (.restoreSession, .pending) =>
      some ((s.onRestored result).enter .restored i .restoreSession)
    | some (.refreshForApiClient, .pending) =>
      some ((s.onRefreshed result).enter .settled i .refreshForApiClient)
    | _ => none
  | .finallyRestored i =>
    match s.calls[i]? with
    | some (.restoreSession, .restored) =>
      some ({ s with restorePromise := none }.enter .settled i .restoreSession)
    | _ => none
  | .loggedOut i _ =>
    match s.calls[i]? with
    | some (.signOut, .pending) => some (s.clearSessionState.enter .settled i .signOut)
    | some (.signOutAll, .pending) => some (s.clearSessionState.enter .settled i .signOutAll)
    | _ => none
  | .clearSession => some s.clearSessionState
  | .setUser user => some { s with store := s.store.setUser user }
  | .setActiveOrganization activeOrganizationId =>
    some { s with activeOrganizationId := some activeOrganizationId }

/-! ## Signing out -/

def SignedOut (s : AuthSession) : Prop :=
  s.store.status = .unauthenticated ∧ s.store.accessToken = none

/-- No refresh is answered with a session, and no restore fails but for want of one. -/
def Harmless (s : AuthSession) : SessionEvent → Prop
  | .refreshed _ (.ok _) => False
  | .refreshed i (.error error) =>
    s.calls[i]? = some (.restoreSession, .pending) → error.unauthorized = true
  | _ => True

/-- The events that begin a new session. -/
def starts : SessionEvent → Bool
  | .login _ => true
  | .called call => call == .restoreSession
  | _ => false

section SignOut
variable {s s' : AuthSession} {e : SessionEvent} {i : Nat}

theorem signedOut_clearSessionState : s.clearSessionState.SignedOut := ⟨rfl, rfl⟩

theorem not_signedOut_applyAuthentication {authentication : Authentication} :
    ¬ (s.applyAuthentication authentication).SignedOut := by
  rintro ⟨hstatus, -⟩
  cases hstatus

theorem onRestored_signedOut {result : Except RequestFailure Authentication} :
    (s.onRestored result).SignedOut ↔ ∃ error, result = .error error ∧ error.unauthorized = true := by
  cases result with
  | ok authentication =>
    refine iff_of_false not_signedOut_applyAuthentication ?_
    rintro ⟨error, herror, -⟩
    cases herror
  | error error =>
    rw [onRestored]
    split
    · next hunauthorized => exact iff_of_true signedOut_clearSessionState ⟨error, rfl, hunauthorized⟩
    · next hother =>
      refine iff_of_false ?_ ?_
      · rintro ⟨hstatus, -⟩
        cases hstatus
      · rintro ⟨error', herror, hunauthorized⟩
        cases herror
        exact hother hunauthorized

theorem onRefreshed_signedOut {result : Except RequestFailure Authentication} :
    (s.onRefreshed result).SignedOut ↔ ∃ error, result = .error error := by
  cases result with
  | ok authentication =>
    refine iff_of_false not_signedOut_applyAuthentication ?_
    rintro ⟨error, herror⟩
    cases herror
  | error error => exact iff_of_true signedOut_clearSessionState ⟨error, rfl⟩

theorem loggedOut_signedOut {result : Except RequestFailure Unit}
    (h : s.step (.loggedOut i result) = some s') : s'.SignedOut := by
  rw [step] at h
  split at h
  · cases h
    exact signedOut_clearSessionState (s := s)
  · cases h
    exact signedOut_clearSessionState (s := s)
  · cases h

/-- What the answer to a refresh does to a session that was signed out. -/
theorem refreshed_signedOut {result : Except RequestFailure Authentication}
    (h : s.step (.refreshed i result) = some s') :
    s'.SignedOut ↔ s.Harmless (.refreshed i result) := by
  rw [step] at h
  split at h
  · next hcall =>
    cases h
    change (s.onRestored result).SignedOut ↔ _
    rw [onRestored_signedOut]
    cases result with
    | ok authentication =>
      refine iff_of_false ?_ id
      rintro ⟨error, herror, -⟩
      cases herror
    | error error =>
      constructor
      · rintro ⟨error', herror, hunauthorized⟩ -
        cases herror
        exact hunauthorized
      · intro hharmless
        exact ⟨error, rfl, hharmless hcall⟩
  · next hcall =>
    cases h
    change (s.onRefreshed result).SignedOut ↔ _
    rw [onRefreshed_signedOut]
    cases result with
    | ok authentication =>
      refine iff_of_false ?_ id
      rintro ⟨error, herror⟩
      cases herror
    | error error =>
      refine iff_of_true ⟨error, rfl⟩ fun hrestore => ?_
      rw [hcall] at hrestore
      cases hrestore
  · cases h

theorem step_signedOut (hout : s.SignedOut) (h : s.step e = some s') (he : starts e = false) :
    s'.SignedOut ↔ s.Harmless e := by
  -- nothing but the answer to a refresh brings a session back
  cases e with
  | login authentication => cases he
  | called call =>
    refine iff_of_true ?_ True.intro
    cases call with
    | restoreSession => cases he
    | refreshForApiClient | signOut | signOutAll =>
      cases h
      exact hout
  | refreshed i result => exact refreshed_signedOut h
  | finallyRestored i =>
    refine iff_of_true ?_ True.intro
    rw [step] at h
    split at h
    · cases h
      exact hout
    · cases h
  | loggedOut i result => exact iff_of_true (loggedOut_signedOut h) True.intro
  | clearSession =>
    cases h
    exact iff_of_true signedOut_clearSessionState True.intro
  | setUser user =>
    cases h
    exact iff_of_true hout True.intro
  | setActiveOrganization activeOrganizationId =>
    cases h
    exact iff_of_true hout True.intro

end SignOut

/-- Signing out sticks as long as no refresh in flight is answered with a session. -/
theorem sign_out_sticks_iff (before after : List SessionEvent) (call : Nat)
    (result : Except RequestFailure Unit) (s t : AuthSession)
    (hbefore : run step initial (before ++ [.loggedOut call result]) = some s)
    (hafter : run step s after = some t) (hquiet : ∀ e ∈ after, starts e = false) :
    Throughout step SignedOut s after ↔ Along step Harmless s after := by
  obtain ⟨u, -, hlast⟩ := run_concat hbefore
  refine throughout_iff_along (loggedOut_signedOut hlast) ?_ hafter
  intro v e he v' hv hstep
  exact step_signedOut hv hstep (hquiet e he)

/-- A session that is refreshed for the API client while the user signs out. -/
def refreshAndSignOut : List SessionEvent :=
  [.login ⟨"first", 900, ⟨"u1", "user@example.com", none, none, true⟩⟩,
    .called .refreshForApiClient, .called .signOut, .loggedOut 1 (.ok ())]

theorem sign_out_sticks_revoked : ∃ s t, run step initial refreshAndSignOut = some s ∧
    run step s [.refreshed 0 (.error (.api 401 "Unauthorized")), .clearSession] = some t ∧
      Throughout step SignedOut s
        [.refreshed 0 (.error (.api 401 "Unauthorized")), .clearSession] := by
  refine ⟨⟨⟨none, none, .unauthenticated, none⟩, none, none,
    [(.refreshForApiClient, .pending), (.signOut, .settled)]⟩, ⟨⟨none, none, .unauthenticated, none⟩,
      none, none, [(.refreshForApiClient, .settled), (.signOut, .settled)]⟩, rfl, rfl, ?_⟩
  refine (sign_out_sticks_iff (refreshAndSignOut.take 3) _ 1 (.ok ()) _ _ rfl rfl ?_).mpr ?_
  · simp [starts]
  · exact ⟨fun _ => rfl, fun _ _ => ⟨True.intro, fun _ _ => True.intro⟩⟩

theorem refresh_undoes_sign_out : ∃ s t, run step initial refreshAndSignOut = some s ∧
    s.SignedOut ∧
    run step s [.refreshed 0 (.ok ⟨"second", 900, ⟨"u1", "user@example.com", none, none, true⟩⟩)] =
      some t ∧ t.store.status = .authenticated ∧ t.store.accessToken = some "second" :=
  ⟨_, _, rfl, ⟨rfl, rfl⟩, rfl, rfl, rfl⟩

end AuthSession
end ShipFlow.Web
