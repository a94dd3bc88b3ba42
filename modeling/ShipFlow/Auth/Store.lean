import ShipFlow.Notifications

/-! The identity tables: users, refresh sessions, single-use tokens and
two-factor credentials. -/

namespace ShipFlow.Auth
open Interleaving Relational

inductive UserStatus where
  | active
  | suspended
  deriving DecidableEq, Repr

inductive SessionRevocationReason where
  | rotated
  | logout
  | logoutAll
  | reuseDetected
  | administrative
  deriving DecidableEq, Repr

inductive TwoFactorChallengePurpose where
  | login
  deriving DecidableEq, Repr

structure ClientContext where
  ipAddress : Option String
  userAgent : Option String
  deriving DecidableEq, Repr

structure User where
  id : Id
  email : String
  displayName : Option String
  avatarUrl : Option String
  passwordHash : Option String
  status : UserStatus
  emailVerifiedAt : Option Time
  lastLoginAt : Option Time
  deletedAt : Option Time
  deriving DecidableEq, Repr

structure OAuthAccount where
  id : Id
  userId : Id
  provider : String
  providerAccountId : String
  deriving DecidableEq, Repr

structure Session where
  id : Id
  userId : Id
  tokenHash : String
  tokenFamilyId : Id
  replacedById : Option Id
  expiresAt : Time
  lastUsedAt : Option Time
  revokedAt : Option Time
  revocationReason : Option SessionRevocationReason
  context : ClientContext
  deriving DecidableEq, Repr

/-- A session as the column defaults leave it. -/
def Session.issue (id userId : Id) (tokenHash : String) (tokenFamilyId : Id) (expiresAt : Time)
    (context : ClientContext) : Session where
  id := id
  userId := userId
  tokenHash := tokenHash
  tokenFamilyId := tokenFamilyId
  replacedById := none
  expiresAt := expiresAt
  lastUsedAt := none
  revokedAt := none
  revocationReason := none
  context := context

def Session.revoke (now : Time) (reason : SessionRevocationReason) (s : Session) : Session :=
  { s with revokedAt := some now, revocationReason := some reason }

def Session.replace (now : Time) (replacementId : Id) (s : Session) : Session :=
  { s.revoke now .rotated with replacedById := some replacementId, lastUsedAt := some now }

structure EmailVerificationToken where
  id : Id
  userId : Id
  email : String
  tokenHash : String
  expiresAt : Time
  consumedAt : Option Time
  deriving DecidableEq, Repr

structure PasswordResetToken where
  id : Id
  userId : Id
  tokenHash : String
  expiresAt : Time
  consumedAt : Option Time
  deriving DecidableEq, Repr

structure EncryptedTwoFactorSecret where
  encryptedSecret : String
  initializationVector : String
  authenticationTag : String
  encryptionKeyVersion : Nat
  deriving DecidableEq, Repr

structure TwoFactorCredential where
  id : Id
  userId : Id
  secret : EncryptedTwoFactorSecret
  enabledAt : Option Time
  lastUsedTimeStep : Option Nat
  deriving DecidableEq, Repr

structure TwoFactorBackupCode where
  id : Id
  credentialId : Id
  codeHash : String
  consumedAt : Option Time
  deriving DecidableEq, Repr

structure TwoFactorChallenge where
  id : Id
  userId : Id
  tokenHash : String
  purpose : TwoFactorChallengePurpose
  expiresAt : Time
  consumedAt : Option Time
  context : ClientContext
  deriving DecidableEq, Repr

structure Store where
  nextId : Id
  users : List User
  oauthAccounts : List OAuthAccount
  sessions : List Session
  emailVerificationTokens : List EmailVerificationToken
  passwordResetTokens : List PasswordResetToken
  twoFactorCredentials : List TwoFactorCredential
  twoFactorBackupCodes : List TwoFactorBackupCode
  twoFactorChallenges : List TwoFactorChallenge
  notifications : List Notification
  notificationPreferences : List NotificationPreference
  deriving Repr

def Store.empty : Store := ⟨0, [], [], [], [], [], [], [], [], [], []⟩

def users : Table Store User where
  rows := Store.users
  put rows s := { s with users := rows }
  admits _ _ := true
  collides a b := a.id == b.id || a.email == b.email

def oauthAccounts : Table Store OAuthAccount where
  rows := Store.oauthAccounts
  put rows s := { s with oauthAccounts := rows }
  admits _ _ := true
  collides a b := a.id == b.id ||
    (a.provider == b.provider && a.providerAccountId == b.providerAccountId)

/-- `sessions_revocation_check`, `sessions_rotation_check` and
`sessions_not_self_replaced_check`. -/
def Session.valid (s : Session) : Bool :=
  (s.revokedAt.isSome == s.revocationReason.isSome) &&
  (s.replacedById.isNone || s.revocationReason == some .rotated) &&
  (s.replacedById != some s.id)

def sessions : Table Store Session where
  rows := Store.sessions
  put rows s := { s with sessions := rows }
  admits _ s := s.valid
  collides a b := a.id == b.id || a.tokenHash == b.tokenHash ||
    (a.replacedById.isSome && a.replacedById == b.replacedById)

def emailVerificationTokens : Table Store EmailVerificationToken where
  rows := Store.emailVerificationTokens
  put rows s := { s with emailVerificationTokens := rows }
  admits _ _ := true
  collides a b := a.id == b.id || a.tokenHash == b.tokenHash

def passwordResetTokens : Table Store PasswordResetToken where
  rows := Store.passwordResetTokens
  put rows s := { s with passwordResetTokens := rows }
  admits _ _ := true
  collides a b := a.id == b.id || a.tokenHash == b.tokenHash

def twoFactorCredentials : Table Store TwoFactorCredential where
  rows := Store.twoFactorCredentials
  put rows s := { s with twoFactorCredentials := rows }
  admits _ _ := true
  collides a b := a.id == b.id || a.userId == b.userId

def twoFactorBackupCodes : Table Store TwoFactorBackupCode where
  rows := Store.twoFactorBackupCodes
  put rows s := { s with twoFactorBackupCodes := rows }
  admits _ _ := true
  collides a b := a.id == b.id || a.codeHash == b.codeHash

def twoFactorChallenges : Table Store TwoFactorChallenge where
  rows := Store.twoFactorChallenges
  put rows s := { s with twoFactorChallenges := rows }
  admits _ _ := true
  collides a b := a.id == b.id || a.tokenHash == b.tokenHash

instance : HasNotifications Store where
  nextId := Store.nextId
  takeId s := { s with nextId := s.nextId + 1 }
  notifications :=
    { rows := Store.notifications
      put := fun rows s => { s with notifications := rows }
      admits := fun _ _ => true
      collides := Notification.collides }
  notificationPreferences := Store.notificationPreferences

/-- What a request draws from outside the store: the clock, the random source,
the `jti` of an access token, and whether the mail went out. -/
structure Input where
  now : Time
  token : String
  salt : String
  jti : String
  secret : String
  initializationVector : String
  codes : List String
  deliveryFailure : Option String

inductive SecondFactorProof where
  | totp (timeStep : Nat)
  | backupCode (backupCodeId : Id)
  deriving DecidableEq, Repr

inductive SessionOrigin where
  | registration
  | firstFactor
  | challenge (challengeId : Id)
  | rotation (sessionId : Id)
  deriving DecidableEq, Repr

/-- What a request does to the identity of a user, as an observer of its
atomic actions sees it. -/
inductive Event where
  | loginFound (userId : Id)
  | passwordVerified (userId : Id) (passwordHash : String)
  | oauthVerified (userId : Id)
  | sessionCreated (userId sessionId : Id) (origin : SessionOrigin)
  | rotatedTokenPresented (sessionId tokenFamilyId : Id)
  | rotationLost (sessionId tokenFamilyId : Id)
  | loggedOut (tokenHash : String)
  | challengeCreated (userId challengeId : Id)
  | emailVerificationIssued (userId tokenId : Id)
  | emailVerified (userId tokenId : Id)
  | passwordResetIssued (userId tokenId : Id)
  | passwordReset (userId tokenId : Id) (passwordHash : String)
  | setupBegun (userId : Id)
  | setupFound (credentialId : Id)
  | setupVerified (credentialId : Id) (secret : String) (timeStep : Nat)
  | twoFactorEnabled (userId credentialId : Id) (timeStep : Nat)
  | secondFactorAccepted (credentialId : Id) (proof : SecondFactorProof)
  | backupCodesRegenerated (credentialId : Id)
  | twoFactorDisabled (userId credentialId : Id)
  deriving DecidableEq, Repr

abbrev Tx := Transaction Store Failure
abbrev Handler := Process Input Store Event Failure
abbrev World := Interleaving.World Store Event

end ShipFlow.Auth
