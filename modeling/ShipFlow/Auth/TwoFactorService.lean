import ShipFlow.Auth.Store

/-! `TwoFactorService`, with the parts of the TOTP and backup-code services it
rests on. -/

namespace ShipFlow.Auth
open Interleaving Relational

/-- The configuration and the library functions the identity services call:
Unicode case mapping, Argon2id, SHA-256, JWT, AES-GCM, HMAC and otplib. -/
structure Environment where
  toLowerCase : String → String
  toUpperCase : Char → List Char
  hashOpaqueToken : String → String
  hashPassword : (salt password : String) → String
  verifyPassword : (passwordHash password : String) → Bool
  signAccessToken : (userId : Id) → (email jti : String) → String
  encryptSecret : (initializationVector secret : String) → (userId : Id) → EncryptedTwoFactorSecret
  decryptSecret : EncryptedTwoFactorSecret → (userId : Id) → Option String
  hmacBackupCode : (normalizedCode : String) → (userId : Id) → String
  createProvisioningUri : (email secret : String) → String
  verifyOtp : (secret token : String) → (now : Time) → (afterTimeStep : Option Nat) → Option Nat
  accessTokenTtlSeconds : Int
  refreshTokenTtlDays : Int
  emailVerificationTokenTtlHours : Int
  passwordResetTokenTtlMinutes : Int

structure AuthUserResponse where
  id : Id
  email : String
  displayName : Option String
  avatarUrl : Option String
  emailVerified : Bool
  deriving DecidableEq, Repr

structure IssuedAuthentication where
  accessToken : String
  expiresIn : Int
  user : AuthUserResponse
  refreshToken : String
  refreshExpiresAt : Time
  deriving DecidableEq, Repr

structure TwoFactorChallengeResponse where
  challengeToken : String
  expiresIn : Int
  deriving DecidableEq, Repr

structure TwoFactorSetupResponse where
  provisioningUri : String
  manualEntryKey : String
  deriving DecidableEq, Repr

def toUserResponse (user : User) : AuthUserResponse :=
  ⟨user.id, user.email, user.displayName, user.avatarUrl, user.emailVerifiedAt.isSome⟩

def sessionContext (context : ClientContext) : ClientContext :=
  ⟨context.ipAddress.map fun a => (a.take 45).toString,
   context.userAgent.map fun a => (a.take 512).toString⟩

def Store.findUser (s : Store) (id : Id) : Option User := s.users.find? fun u => u.id == id

def User.available (user : User) : Bool := user.status == .active && user.deletedAt.isNone

def Store.credentialOf (s : Store) (userId : Id) : Option TwoFactorCredential :=
  s.twoFactorCredentials.find? fun c => c.userId == userId

/-! ## Codes -/

def TOTP_DIGITS : Nat := 6

def isTotpToken (token : String) : Bool :=
  token.toList.length == TOTP_DIGITS && token.toList.all Char.isDigit

def BACKUP_CODE_COUNT : Nat := 10
def BACKUP_CODE_LENGTH : Nat := 16

/-- `[2-9A-HJ-NP-Z]` -/
def isBackupCodeCharacter (c : Char) : Bool :=
  ('2' ≤ c && c ≤ '9') || ('A' ≤ c && c ≤ 'H') || ('J' ≤ c && c ≤ 'N') || ('P' ≤ c && c ≤ 'Z')

variable (env : Environment)

def normalizeBackupCode (code : String) : Option String :=
  let normalized := (code.toList.filter fun c => !(isWhiteSpace c || c == '-')).flatMap env.toUpperCase
  if normalized.length == BACKUP_CODE_LENGTH && normalized.all isBackupCodeCharacter then
    some (String.ofList normalized)
  else none

def hashBackupCode (code : String) (userId : Id) : Option String :=
  (normalizeBackupCode env code).map fun normalized => env.hmacBackupCode normalized userId

/-- Draws codes until there are ten different ones. -/
def collectBackupCodes (codes : List String) : List String → List String
  | [] => codes
  | code :: draws =>
    if codes.length < BACKUP_CODE_COUNT then
      collectBackupCodes (if codes.contains code then codes else codes ++ [code]) draws
    else codes

structure GeneratedBackupCodes where
  plaintextCodes : List String
  codeHashes : List String

def generateBackupCodes (userId : Id) (draws : List String) : GeneratedBackupCodes :=
  let codes := collectBackupCodes [] draws
  ⟨codes, codes.map fun code =>
    env.hmacBackupCode (String.ofList (code.toList.filter fun c => c != '-')) userId⟩

def verifyTotp (secret token : String) (now : Time) (afterTimeStep : Option Nat) : Option Nat :=
  if isTotpToken token then env.verifyOtp secret token now afterTimeStep else none

/-! ## Setup -/

def LOGIN_CHALLENGE_TTL_SECONDS : Int := 5 * 60

def decryptCredential (credential : TwoFactorCredential) : Handler String :=
  match env.decryptSecret credential.secret credential.userId with
  | some secret => pure secret
  | none => throw (.error "Unable to decrypt two-factor secret")

def upsertCredential (userId : Id) (secret : EncryptedTwoFactorSecret) : Tx Unit := do
  let existing ← twoFactorCredentials.findFirst fun c => c.userId == userId
  let id ← uuidv7
  let _ ← twoFactorCredentials.upsert (fun c => c.userId == userId)
    { id := id, userId := userId, secret := secret, enabledAt := none, lastUsedTimeStep := none }
    fun c => { c with secret := secret, enabledAt := none, lastUsedTimeStep := none }
  -- the nested `deleteMany` belongs to the update branch
  let _ ← twoFactorBackupCodes.deleteMany fun c => existing.any fun e => c.credentialId == e.id
  return ()

def beginSetup (userId : Id) : Handler TwoFactorSetupResponse := do
  let found ← Process.query fun s : Store =>
    (s.users.find? fun u => u.id == userId && u.status == .active && u.deletedAt.isNone).map
      fun user => (user, s.credentialOf user.id)
  let some (user, credential) := found
    | throw (.http .unauthorized "The authenticated user is unavailable")
  Process.rejectIf (credential.any fun c => c.enabledAt.isSome)
    (.http .conflict "Two-factor authentication is already enabled")
  let secret ← Process.ask Input.secret
  let initializationVector ← Process.ask Input.initializationVector
  let encrypted := env.encryptSecret initializationVector secret user.id
  -- whatever has become of the credential since it was read
  Process.atomically (fun _ => upsertCredential user.id encrypted) fun
    | .ok _ => [.setupBegun user.id]
    | .error _ => []
  return ⟨env.createProvisioningUri user.email secret, secret⟩

def newBackupCodes (credentialId : Id) : List String → Tx (List TwoFactorBackupCode)
  | [] => return []
  | codeHash :: codeHashes => do
    let id ← uuidv7
    let codes ← newBackupCodes credentialId codeHashes
    return ⟨id, credentialId, codeHash, none⟩ :: codes

def replaceBackupCodes (credentialId : Id) (codeHashes : List String) : Tx Unit := do
  let _ ← twoFactorBackupCodes.deleteMany fun c => c.credentialId == credentialId
  let codes ← newBackupCodes credentialId codeHashes
  let _ ← twoFactorBackupCodes.createMany codes
  return ()

def revokeSessionsOf (userId : Id) (reason : SessionRevocationReason) (now : Time) : Tx Unit := do
  let _ ← sessions.updateMany (fun s => s.userId == userId && s.revokedAt.isNone)
    fun s => s.revoke now reason
  return ()

def enableCredential (credential : TwoFactorCredential) (userId : Id) (timeStep : Nat)
    (codeHashes : List String) (now : Time) : Tx Unit := do
  let enabled ← twoFactorCredentials.updateMany
    (fun c => c.id == credential.id && c.enabledAt.isNone)
    fun c => { c with enabledAt := some now, lastUsedTimeStep := some timeStep }
  Transaction.rejectIf (enabled != 1) (.http .conflict "Two-factor setup is no longer pending")
  replaceBackupCodes credential.id codeHashes
  revokeSessionsOf userId .administrative now

def confirmSetup (userId : Id) (code : String) : Handler (List String) := do
  let found ← Process.atomically
    (fun _ => Transaction.reads fun s : Store => s.credentialOf userId) fun
    | .ok (some credential) => [.setupFound credential.id]
    | _ => []
  let some credential := found
    | throw (.http .conflict "Two-factor setup is not pending")
  Process.rejectIf credential.enabledAt.isSome (.http .conflict "Two-factor setup is not pending")
  let secret ← decryptCredential env credential
  let clock ← Process.ask Input.now
  let some timeStep := verifyTotp env secret code clock none
    | throw (.http .unauthorized "Invalid authenticator code")
  let draws ← Process.ask Input.codes
  let backupCodes := generateBackupCodes env userId draws
  let now ← Process.ask Input.now
  Process.atomically
    -- conditional on a pending setup, not on the secret that was verified
    (fun _ => enableCredential credential userId timeStep backupCodes.codeHashes now) fun
    | .ok _ => [.setupVerified credential.id secret timeStep,
        .twoFactorEnabled userId credential.id timeStep]
    | .error _ => []
  return backupCodes.plaintextCodes

/-! ## The second factor -/

def resolveSecondFactor (credential : TwoFactorCredential) (code : String) :
    Handler (Option SecondFactorProof) := do
  if isTotpToken code then
    let secret ← decryptCredential env credential
    let now ← Process.ask Input.now
    return (verifyTotp env secret code now credential.lastUsedTimeStep).map .totp
  else
    let some codeHash := hashBackupCode env code credential.userId | return none
    -- found by its hash; whose code it is is asked afterwards
    let backupCode ← Process.query fun s : Store =>
      s.twoFactorBackupCodes.find? fun c => c.codeHash == codeHash
    return (backupCode.filter fun c => c.credentialId == credential.id && c.consumedAt.isNone).map
      fun c => .backupCode c.id

/-- Spends the second factor: both updates are conditional on it being unspent. -/
def claimSecondFactor (credential : TwoFactorCredential) (proof : SecondFactorProof)
    (now : Time) : Tx Unit := do
  let claim ← match proof with
    | .totp timeStep =>
      twoFactorCredentials.updateMany
        (fun c => c.id == credential.id && c.enabledAt.isSome &&
          (c.lastUsedTimeStep.all fun last => decide (last < timeStep)))
        fun c => { c with lastUsedTimeStep := some timeStep }
    | .backupCode backupCodeId =>
      twoFactorBackupCodes.updateMany
        (fun c => c.id == backupCodeId && c.credentialId == credential.id && c.consumedAt.isNone)
        fun c => { c with consumedAt := some now }
  Transaction.rejectIf (claim != 1) (.http .unauthorized "Two-factor code has already been used")

structure TwoFactorStepUp where
  currentPassword : Option String
  code : String
  deriving DecidableEq

def verifyStepUp (userId : Id) (dto : TwoFactorStepUp) :
    Handler (TwoFactorCredential × SecondFactorProof) := do
  let found ← Process.query fun s : Store =>
    (s.users.find? fun u => u.id == userId && u.status == .active && u.deletedAt.isNone).bind
      fun user => (s.credentialOf userId).map fun credential => (user, credential)
  let some (user, credential) := found
    | throw (.http .conflict "Two-factor authentication is not enabled")
  Process.rejectIf credential.enabledAt.isNone
    (.http .conflict "Two-factor authentication is not enabled")
  Process.rejectIf
    (user.passwordHash.any fun passwordHash =>
      !(dto.currentPassword.any fun password => env.verifyPassword passwordHash password))
    (.http .unauthorized "Password re-authentication failed")
  let found ← resolveSecondFactor env credential dto.code
  let some proof := found
    | throw (.http .unauthorized "Invalid two-factor code")
  return (credential, proof)

def regenerate (credential : TwoFactorCredential) (proof : SecondFactorProof)
    (codeHashes : List String) (now : Time) : Tx Unit := do
  claimSecondFactor credential proof now
  replaceBackupCodes credential.id codeHashes

def regenerateBackupCodes (userId : Id) (dto : TwoFactorStepUp) : Handler (List String) := do
  let (credential, proof) ← verifyStepUp env userId dto
  let draws ← Process.ask Input.codes
  let backupCodes := generateBackupCodes env userId draws
  let now ← Process.ask Input.now
  Process.atomically (fun _ => regenerate credential proof backupCodes.codeHashes now) fun
    | .ok _ => [.secondFactorAccepted credential.id proof, .backupCodesRegenerated credential.id]
    | .error _ => []
  return backupCodes.plaintextCodes

def disableCredential (credential : TwoFactorCredential) (userId : Id)
    (proof : SecondFactorProof) (now : Time) : Tx Unit := do
  claimSecondFactor credential proof now
  let _ ← twoFactorChallenges.deleteMany fun c => c.userId == userId
  twoFactorCredentials.delete fun c => c.id == credential.id
  -- the backup codes go with their credential (`onDelete: Cascade`)
  let _ ← twoFactorBackupCodes.deleteMany fun c => c.credentialId == credential.id
  revokeSessionsOf userId .logoutAll now

def disable (userId : Id) (dto : TwoFactorStepUp) : Handler String := do
  let (credential, proof) ← verifyStepUp env userId dto
  let now ← Process.ask Input.now
  Process.atomically (fun _ => disableCredential credential userId proof now) fun
    | .ok _ => [.secondFactorAccepted credential.id proof, .twoFactorDisabled userId credential.id]
    | .error _ => []
  return "Two-factor authentication disabled"

/-! ## Login challenges -/

def isEnabled (userId : Id) : Handler Bool :=
  Process.query fun s : Store => (s.credentialOf userId).any fun c => c.enabledAt.isSome

def addChallenge (userId : Id) (tokenHash : String) (expiresAt now : Time)
    (context : ClientContext) : Tx Id := do
  let _ ← twoFactorChallenges.deleteMany fun c =>
    c.userId == userId && (c.expiresAt ≤ now || c.consumedAt.isSome)
  let id ← uuidv7
  let challenge ← twoFactorChallenges.create
    { id := id
      userId := userId
      tokenHash := tokenHash
      purpose := .login
      expiresAt := expiresAt
      consumedAt := none
      context := sessionContext context }
  return challenge.id

def createLoginChallenge (userId : Id) (context : ClientContext) :
    Handler TwoFactorChallengeResponse := do
  let token ← Process.ask Input.token
  let now ← Process.ask Input.now
  let expiresAt := now + seconds LOGIN_CHALLENGE_TTL_SECONDS
  let _ ← Process.atomically
    (fun _ => addChallenge userId (env.hashOpaqueToken token) expiresAt now context) fun
    | .ok challengeId => [.challengeCreated userId challengeId]
    | .error _ => []
  return ⟨token, LOGIN_CHALLENGE_TTL_SECONDS⟩

def getRefreshExpiration : Handler Time := do
  let now ← Process.ask Input.now
  return now + days env.refreshTokenTtlDays

def newSession (userId : Id) (tokenHash : String) (tokenFamilyId : Option Id) (expiresAt : Time)
    (context : ClientContext) : Tx Session := do
  let id ← uuidv7
  let family ← uuidv7
  sessions.create (Session.issue id userId tokenHash (tokenFamilyId.getD family) expiresAt context)

def buildAuthentication (user : User) (refreshToken : String) (refreshExpiresAt : Time) :
    Handler IssuedAuthentication := do
  let jti ← Process.ask Input.jti
  return {
    accessToken := env.signAccessToken user.id user.email jti
    expiresIn := env.accessTokenTtlSeconds
    user := toUserResponse user
    refreshToken := refreshToken
    refreshExpiresAt := refreshExpiresAt }

def consumeChallenge (challenge : TwoFactorChallenge) (credential : TwoFactorCredential)
    (proof : SecondFactorProof) (tokenHash : String) (refreshExpiresAt now : Time) : Tx Id := do
  let consumed ← twoFactorChallenges.updateMany
    (fun c => c.id == challenge.id && c.consumedAt.isNone && decide (now < c.expiresAt))
    fun c => { c with consumedAt := some now }
  Transaction.rejectIf (consumed != 1)
    (.http .unauthorized "Invalid or expired two-factor challenge")
  claimSecondFactor credential proof now
  let _ ← users.update (fun u => u.id == challenge.userId)
    fun u => { u with lastLoginAt := some now }
  let session ← newSession challenge.userId tokenHash none refreshExpiresAt challenge.context
  return session.id

def verifyLoginChallenge (challengeToken code : String) : Handler IssuedAuthentication := do
  let now ← Process.ask Input.now
  let found ← Process.query fun s : Store =>
    (s.twoFactorChallenges.find? fun c => c.tokenHash == env.hashOpaqueToken challengeToken).bind
      fun challenge => (s.findUser challenge.userId).map fun user => (challenge, user)
  let some (challenge, user) := found
    | throw (.http .unauthorized "Invalid or expired two-factor challenge")
  Process.rejectIf
    (challenge.purpose != .login || challenge.consumedAt.isSome || challenge.expiresAt ≤ now ||
      !user.available)
    (.http .unauthorized "Invalid or expired two-factor challenge")
  let found ← Process.query fun s : Store => s.credentialOf challenge.userId
  let some credential := found
    | throw (.http .unauthorized "Invalid or expired two-factor challenge")
  Process.rejectIf credential.enabledAt.isNone
    (.http .unauthorized "Invalid or expired two-factor challenge")
  let found ← resolveSecondFactor env credential code
  let some proof := found
    | throw (.http .unauthorized "Invalid two-factor code")
  let refreshToken ← Process.ask Input.token
  let refreshExpiresAt ← getRefreshExpiration env
  let _ ← Process.atomically
    (fun _ => consumeChallenge challenge credential proof (env.hashOpaqueToken refreshToken)
      refreshExpiresAt now) fun
    | .ok sessionId => [.secondFactorAccepted credential.id proof,
        .sessionCreated challenge.userId sessionId (.challenge challenge.id)]
    | .error _ => []
  buildAuthentication env user refreshToken refreshExpiresAt

end ShipFlow.Auth
