import ShipFlow.Interleaving.Pool
import ShipFlow.Auth.TwoFactorService

/-! `AuthService`, and the identity service as a whole: every request that
reads or writes the identity tables. -/

namespace ShipFlow.Auth
open Interleaving Relational

structure RegisterDto where
  email : String
  password : String
  displayName : Option String
  deriving DecidableEq

structure LoginDto where
  email : String
  password : String
  deriving DecidableEq

structure ResetPasswordDto where
  token : String
  password : String
  deriving DecidableEq

structure OAuthProfile where
  provider : String
  providerAccountId : String
  email : String
  displayName : Option String
  avatarUrl : Option String
  deriving DecidableEq

inductive AuthenticationAttempt where
  | authenticated (authentication : IssuedAuthentication)
  | twoFactor (response : TwoFactorChallengeResponse)
  deriving DecidableEq, Repr

variable (env : Environment)

def normalizeEmail (email : String) : String := env.toLowerCase (trim email)

def getEmailVerificationExpiration : Handler Time := do
  let now ← Process.ask Input.now
  return now + hours env.emailVerificationTokenTtlHours

def getPasswordResetExpiration : Handler Time := do
  let now ← Process.ask Input.now
  return now + minutes env.passwordResetTokenTtlMinutes

/-- `TransactionalEmailDelivery`: the mail is accepted or the call throws. -/
def deliver : Handler Unit := do
  let failure ← Process.ask Input.deliveryFailure
  match failure with
  | none => pure ()
  | some message => throw (.error message)

/-! ## Registration and the first factor -/

def addVerificationToken (userId : Id) (email tokenHash : String) (expiresAt : Time) : Tx Id := do
  let id ← uuidv7
  let token ← emailVerificationTokens.create ⟨id, userId, email, tokenHash, expiresAt, none⟩
  return token.id

structure Registration where
  user : User
  tokenId : Id
  sessionId : Id

def createAccount (email : String) (displayName : Option String)
    (passwordHash verificationHash refreshHash : String)
    (verificationExpiresAt refreshExpiresAt now : Time) (context : ClientContext) :
    Tx Registration := do
  let id ← uuidv7
  let user ← users.create
    { id := id
      email := email
      displayName := displayName
      avatarUrl := none
      passwordHash := some passwordHash
      status := .active
      emailVerifiedAt := none
      lastLoginAt := some now
      deletedAt := none }
  let tokenId ← addVerificationToken user.id email verificationHash verificationExpiresAt
  let session ← newSession user.id refreshHash none refreshExpiresAt (sessionContext context)
  return ⟨user, tokenId, session.id⟩

def register (dto : RegisterDto) (context : ClientContext) : Handler IssuedAuthentication := do
  let email := normalizeEmail env dto.email
  let salt ← Process.ask Input.salt
  let passwordHash := env.hashPassword salt dto.password
  let refreshToken ← Process.ask Input.token
  let verificationToken ← Process.ask Input.token
  let refreshExpiresAt ← getRefreshExpiration env
  let verificationExpiresAt ← getEmailVerificationExpiration env
  let now ← Process.ask Input.now
  let registration ← tryCatch
    (Process.atomically
      (fun _ => createAccount email dto.displayName passwordHash
        (env.hashOpaqueToken verificationToken) (env.hashOpaqueToken refreshToken)
        verificationExpiresAt refreshExpiresAt now context) fun
      | .ok r => [.emailVerificationIssued r.user.id r.tokenId,
          .sessionCreated r.user.id r.sessionId .registration]
      | .error _ => [])
    fun error =>
      if error.isUniqueConstraintError then
        throw (.http .conflict "An account with this email already exists")
      else throw error
  -- the mail follows the commit, and the account stays if it fails
  deliver
  buildAuthentication env registration.user refreshToken refreshExpiresAt

def signIn (userId : Id) (tokenHash : String) (refreshExpiresAt now : Time)
    (context : ClientContext) : Tx Id := do
  let _ ← users.update (fun u => u.id == userId) fun u => { u with lastLoginAt := some now }
  let session ← newSession userId tokenHash none refreshExpiresAt (sessionContext context)
  return session.id

def completeFirstFactor (user : User) (context : ClientContext) :
    Handler AuthenticationAttempt := do
  -- asked outside the transaction that opens the session
  let enabled ← isEnabled user.id
  if enabled then
    let response ← createLoginChallenge env user.id context
    return .twoFactor response
  else
    let refreshToken ← Process.ask Input.token
    let refreshExpiresAt ← getRefreshExpiration env
    let now ← Process.ask Input.now
    let _ ← Process.atomically
      (fun _ => signIn user.id (env.hashOpaqueToken refreshToken) refreshExpiresAt now context) fun
      | .ok sessionId => [.sessionCreated user.id sessionId .firstFactor]
      | .error _ => []
    let authentication ← buildAuthentication env user refreshToken refreshExpiresAt
    return .authenticated authentication

def login (dto : LoginDto) (context : ClientContext) : Handler AuthenticationAttempt := do
  let email := normalizeEmail env dto.email
  let found ← Process.atomically
    (fun _ => Transaction.reads fun s : Store => s.users.find? fun u => u.email == email) fun
    | .ok (some user) => [.loginFound user.id]
    | _ => []
  let some user := found
    | throw (.http .unauthorized "Invalid email or password")
  let passwordValid ← Process.atomically
    (fun _ => pure (user.passwordHash.any fun passwordHash =>
      env.verifyPassword passwordHash dto.password)) fun
    | .ok true => user.passwordHash.toList.map fun passwordHash =>
        .passwordVerified user.id passwordHash
    | _ => []
  Process.rejectIf (!passwordValid || !user.available)
    (.http .unauthorized "Invalid email or password")
  completeFirstFactor env user context

def findOrCreateOAuthUser (profile : OAuthProfile) (email : String) (now : Time) : Tx User := do
  let existing ← Transaction.reads fun s : Store =>
    (s.oauthAccounts.find? fun a => a.provider == profile.provider &&
      a.providerAccountId == profile.providerAccountId).bind fun a => s.findUser a.userId
  match existing with
  | some user => return user
  | none =>
    let id ← uuidv7
    -- a user with this address is taken as it is
    let user ← users.upsert (fun u => u.email == email)
      { id := id
        email := email
        displayName := profile.displayName
        avatarUrl := profile.avatarUrl
        passwordHash := none
        status := .active
        emailVerifiedAt := some now
        lastLoginAt := none
        deletedAt := none }
      fun u => u
    let accountId ← uuidv7
    let _ ← oauthAccounts.create ⟨accountId, user.id, profile.provider, profile.providerAccountId⟩
    return user

def linkOAuthAccount (profile : OAuthProfile) (email : String) (now : Time) : Tx User := do
  let authenticatedUser ← findOrCreateOAuthUser profile email now
  Transaction.rejectIf (!authenticatedUser.available)
    (.http .unauthorized "OAuth authentication is unavailable")
  users.update (fun u => u.id == authenticatedUser.id) fun u =>
    { u with
      avatarUrl := authenticatedUser.avatarUrl.or profile.avatarUrl
      displayName := authenticatedUser.displayName.or profile.displayName
      emailVerifiedAt := authenticatedUser.emailVerifiedAt.or (some now) }

def authenticateOAuth (profile : OAuthProfile) (context : ClientContext) :
    Handler AuthenticationAttempt := do
  let email := normalizeEmail env profile.email
  let now ← Process.ask Input.now
  let user ← Process.atomically (fun _ => linkOAuthAccount profile email now) fun
    | .ok user => [.oauthVerified user.id]
    | .error _ => []
  completeFirstFactor env user context

/-! ## Refresh sessions -/

def Session.rotated (session : Session) : Bool :=
  session.revokedAt.isSome && session.revocationReason == some .rotated

def revokeTokenFamily (tokenFamilyId : Id) : Handler Unit := do
  let now ← Process.ask Input.now
  let _ ← Process.statement <| sessions.updateMany
    (fun s => s.tokenFamilyId == tokenFamilyId && s.revokedAt.isNone)
    fun s => s.revoke now .reuseDetected
  return ()

def rotate (session : Session) (tokenHash : String) (expiresAt now : Time)
    (context : ClientContext) : Tx Id := do
  let replacement ← newSession session.userId tokenHash (some session.tokenFamilyId) expiresAt
    (sessionContext context)
  let rotation ← sessions.updateMany (fun s => s.id == session.id && s.revokedAt.isNone)
    fun s => s.replace now replacement.id
  Transaction.rejectIf (rotation != 1) (.http .unauthorized "Refresh token has already been used")
  return replacement.id

def refresh (refreshToken : String) (context : ClientContext) : Handler IssuedAuthentication := do
  let tokenHash := env.hashOpaqueToken refreshToken
  let found ← Process.atomically
    (fun _ => Transaction.reads fun s : Store =>
      (s.sessions.find? fun x => x.tokenHash == tokenHash).bind fun session =>
        (s.findUser session.userId).map fun user => (session, user)) fun
    | .ok (some (session, _)) =>
      if session.rotated then [.rotatedTokenPresented session.id session.tokenFamilyId] else []
    | _ => []
  let some (session, user) := found
    | throw (.http .unauthorized "Invalid refresh token")
  if session.revokedAt.isSome then
    if session.revocationReason == some .rotated then
      revokeTokenFamily session.tokenFamilyId
    throw (.http .unauthorized "Refresh token has been revoked")
  let clock ← Process.ask Input.now
  Process.rejectIf (session.expiresAt ≤ clock || !user.available)
    (.http .unauthorized "Invalid or expired refresh token")
  let replacementToken ← Process.ask Input.token
  let replacementExpiresAt ← getRefreshExpiration env
  let now ← Process.ask Input.now
  -- of two rotations of one session the later one updates no row
  let _ ← tryCatch
    (Process.atomically
      (fun _ => rotate session (env.hashOpaqueToken replacementToken) replacementExpiresAt now
        context) fun
      | .ok replacementId => [.sessionCreated session.userId replacementId (.rotation session.id)]
      | .error error =>
        if error.isUnauthorized then [.rotationLost session.id session.tokenFamilyId] else [])
    fun error => do
      if error.isUnauthorized then
        revokeTokenFamily session.tokenFamilyId
      throw error
  buildAuthentication env user replacementToken replacementExpiresAt

def logout (refreshToken : Option String) : Handler String := do
  match refreshToken with
  | none => return "Signed out"
  | some token =>
    let now ← Process.ask Input.now
    -- a session that is revoked already, as by a rotation, is left as it is
    let _ ← Process.atomically
      (fun _ => sessions.updateMany
        (fun s => s.tokenHash == env.hashOpaqueToken token && s.revokedAt.isNone)
        fun s => s.revoke now .logout) fun
      | .ok _ => [.loggedOut (env.hashOpaqueToken token)]
      | .error _ => []
    return "Signed out"

def revokeEverything (userId : Id) (now : Time) : Tx Unit := do
  revokeSessionsOf userId .logoutAll now
  let _ ← twoFactorChallenges.deleteMany fun c => c.userId == userId
  return ()

def logoutAll (userId : Id) : Handler String := do
  let now ← Process.ask Input.now
  Process.statement (revokeEverything userId now)
  return "Signed out from all sessions"

/-! ## E-mail verification and password reset -/

def replaceVerificationToken (userId : Id) (email tokenHash : String) (expiresAt : Time) :
    Tx Id := do
  let _ ← emailVerificationTokens.deleteMany fun t => t.userId == userId && t.consumedAt.isNone
  addVerificationToken userId email tokenHash expiresAt

def requestEmailVerification (userId : Id) : Handler String := do
  let found ← Process.query fun s : Store =>
    s.users.find? fun u => u.id == userId && u.status == .active && u.deletedAt.isNone
  match found.filter fun u => u.emailVerifiedAt.isNone with
  | none => return "Verification request accepted"
  | some user =>
    let token ← Process.ask Input.token
    let expiresAt ← getEmailVerificationExpiration env
    let _ ← Process.atomically
      (fun _ => replaceVerificationToken userId user.email (env.hashOpaqueToken token) expiresAt) fun
      | .ok tokenId => [.emailVerificationIssued userId tokenId]
      | .error _ => []
    deliver
    return "Verification request accepted"

def verifyEmail (token : EmailVerificationToken) (consumedAt verifiedAt : Time) : Tx Unit := do
  let consumed ← emailVerificationTokens.updateMany
    (fun t => t.id == token.id && t.consumedAt.isNone)
    fun t => { t with consumedAt := some consumedAt }
  Transaction.rejectIf (consumed != 1)
    (.http .badRequest "Verification token has already been used")
  let _ ← users.update (fun u => u.id == token.userId)
    fun u => { u with emailVerifiedAt := some verifiedAt }
  return ()

def confirmEmailVerification (presented : String) : Handler String := do
  let found ← Process.query fun s : Store =>
    (s.emailVerificationTokens.find? fun t => t.tokenHash == env.hashOpaqueToken presented).bind
      fun token => (s.findUser token.userId).map fun user => (token, user)
  let clock ← Process.ask Input.now
  -- the address may have changed since the token was sent
  let some (token, _) := found.filter fun (token, user) =>
      token.consumedAt.isNone && decide (clock < token.expiresAt) && user.email == token.email &&
        user.available
    | throw (.http .badRequest "Invalid or expired verification token")
  Process.atomically (fun i => verifyEmail token i.now i.now) fun
    | .ok _ => [.emailVerified token.userId token.id]
    | .error _ => []
  return "Email verified"

def replaceResetToken (userId : Id) (tokenHash : String) (expiresAt : Time) : Tx Id := do
  let _ ← passwordResetTokens.deleteMany fun t => t.userId == userId && t.consumedAt.isNone
  let id ← uuidv7
  let token ← passwordResetTokens.create ⟨id, userId, tokenHash, expiresAt, none⟩
  return token.id

def forgotPassword (presented : String) : Handler String := do
  let email := normalizeEmail env presented
  let found ← Process.query fun s : Store =>
    s.users.find? fun u => u.email == email && u.passwordHash.isSome && u.status == .active &&
      u.deletedAt.isNone
  match found with
  | none => return "Password reset request accepted"
  | some user =>
    let token ← Process.ask Input.token
    let expiresAt ← getPasswordResetExpiration env
    let _ ← Process.atomically
      (fun _ => replaceResetToken user.id (env.hashOpaqueToken token) expiresAt) fun
      | .ok tokenId => [.passwordResetIssued user.id tokenId]
      | .error _ => []
    deliver
    return "Password reset request accepted"

def changePassword (token : PasswordResetToken) (passwordHash : String) (now : Time) :
    Tx Unit := do
  let consumed ← passwordResetTokens.updateMany
    (fun t => t.id == token.id && t.consumedAt.isNone)
    fun t => { t with consumedAt := some now }
  Transaction.rejectIf (consumed != 1)
    (.http .badRequest "Password reset token has already been used")
  let _ ← users.update (fun u => u.id == token.userId)
    fun u => { u with passwordHash := some passwordHash }
  -- the other tokens of the user go, used or not
  let _ ← passwordResetTokens.deleteMany fun t => t.userId == token.userId && t.id != token.id
  revokeSessionsOf token.userId .logoutAll now
  let _ ← twoFactorChallenges.deleteMany fun c => c.userId == token.userId
  writeNotification now
    { userId := token.userId
      organizationId := none
      category := .security
      type := .passwordChanged
      title := "Password changed"
      message := "Your password was changed and all existing sessions were signed out."
      actionPath := some "/settings/password"
      metadata := []
      dedupeKey := "password-changed:" ++ toString token.id
      createdAt := some now }

def resetPassword (dto : ResetPasswordDto) : Handler String := do
  let found ← Process.query fun s : Store =>
    (s.passwordResetTokens.find? fun t => t.tokenHash == env.hashOpaqueToken dto.token).bind
      fun token => (s.findUser token.userId).map fun user => (token, user)
  let clock ← Process.ask Input.now
  let some (token, _) := found.filter fun (token, user) =>
      token.consumedAt.isNone && decide (clock < token.expiresAt) && user.available
    | throw (.http .badRequest "Invalid or expired password reset token")
  let salt ← Process.ask Input.salt
  let passwordHash := env.hashPassword salt dto.password
  let now ← Process.ask Input.now
  Process.atomically (fun _ => changePassword token passwordHash now) fun
    | .ok _ => [.passwordReset token.userId token.id passwordHash]
    | .error _ => []
  return "Password reset successfully"

def updateProfile (userId : Id) (displayName : String) : Handler AuthUserResponse := do
  let user ← Process.statement <| users.update (fun u => u.id == userId)
    fun u => { u with displayName := some displayName }
  return toUserResponse user

/-! ## The service -/

inductive Request where
  | register (dto : RegisterDto) (context : ClientContext)
  | login (dto : LoginDto) (context : ClientContext)
  | authenticateOAuth (profile : OAuthProfile) (context : ClientContext)
  | refresh (refreshToken : String) (context : ClientContext)
  | logout (refreshToken : Option String)
  | logoutAll (userId : Id)
  | updateProfile (userId : Id) (displayName : String)
  | requestEmailVerification (userId : Id)
  | confirmEmailVerification (token : String)
  | forgotPassword (email : String)
  | resetPassword (dto : ResetPasswordDto)
  | beginSetup (userId : Id)
  | confirmSetup (userId : Id) (code : String)
  | regenerateBackupCodes (userId : Id) (dto : TwoFactorStepUp)
  | disable (userId : Id) (dto : TwoFactorStepUp)
  | verifyLoginChallenge (challengeToken code : String)
  deriving DecidableEq

inductive Response where
  | authentication (authentication : IssuedAuthentication)
  | attempt (attempt : AuthenticationAttempt)
  | message (message : String)
  | user (user : AuthUserResponse)
  | setup (response : TwoFactorSetupResponse)
  | backupCodes (codes : List String)
  deriving DecidableEq, Repr

def handler : Request → Handler Response
  | .register dto context => .authentication <$> register env dto context
  | .login dto context => .attempt <$> login env dto context
  | .authenticateOAuth profile context => .attempt <$> authenticateOAuth env profile context
  | .refresh refreshToken context => .authentication <$> refresh env refreshToken context
  | .logout refreshToken => .message <$> logout env refreshToken
  | .logoutAll userId => .message <$> logoutAll userId
  | .updateProfile userId displayName => .user <$> updateProfile userId displayName
  | .requestEmailVerification userId => .message <$> requestEmailVerification env userId
  | .confirmEmailVerification token => .message <$> confirmEmailVerification env token
  | .forgotPassword email => .message <$> forgotPassword env email
  | .resetPassword dto => .message <$> resetPassword env dto
  | .beginSetup userId => .setup <$> beginSetup env userId
  | .confirmSetup userId code => .backupCodes <$> confirmSetup env userId code
  | .regenerateBackupCodes userId dto => .backupCodes <$> regenerateBackupCodes env userId dto
  | .disable userId dto => .message <$> disable env userId dto
  | .verifyLoginChallenge challengeToken code =>
    .authentication <$> verifyLoginChallenge env challengeToken code

abbrev Config := Interleaving.Config Request Input Store Event Failure Response

/-- An environment with nothing secret in it, and an authenticator that always shows
the same code. -/
def Environment.transparent : Environment where
  toLowerCase s := s
  toUpperCase c := [c.toUpper]
  hashOpaqueToken token := token
  hashPassword _ password := password
  verifyPassword passwordHash password := passwordHash == password
  signAccessToken _ email jti := email ++ jti
  encryptSecret initializationVector secret _ := ⟨secret, initializationVector, "", 1⟩
  decryptSecret secret _ := some secret.encryptedSecret
  hmacBackupCode code _ := code
  createProvisioningUri email secret := email ++ secret
  verifyOtp _ token now afterTimeStep :=
    let timeStep := (now / 30000).toNat
    if token == "123456" && afterTimeStep.all fun last => decide (last < timeStep) then
      some timeStep
    else none
  accessTokenTtlSeconds := 900
  refreshTokenTtlDays := 30
  emailVerificationTokenTtlHours := 24
  passwordResetTokenTtlMinutes := 30

/-- The draws of an action at a time, with a token. -/
def Input.at (now : Time) (token : String) : Input where
  now := now
  token := token
  salt := ""
  jti := ""
  secret := "secret"
  initializationVector := ""
  codes := []
  deliveryFailure := none

/-- The next actions of a request. -/
def advances (pid n : Nat) (i : Input) : List (Action Request Input) :=
  List.replicate n (.advance pid i)

end ShipFlow.Auth
