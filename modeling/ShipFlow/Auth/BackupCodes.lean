import Mathlib.Data.List.Infix
import ShipFlow.Auth.Transactions

/-! Backup codes as they are drawn, shown and typed, and the rows they resolve to. -/

namespace ShipFlow.Auth
open Interleaving Relational

/-! ## Spellings -/

def BACKUP_CODE_GROUP_LENGTH : Nat := 4
def BACKUP_CODE_GROUP_COUNT : Nat := 4
def BACKUP_CODE_ALPHABET : List Char := "23456789ABCDEFGHJKLMNPQRSTUVWXYZ".toList

/-- The code of sixteen calls of `randomInt`, of which `randomInt n` is the answer to the `n`-th. -/
def createCode (randomInt : Nat → Fin BACKUP_CODE_ALPHABET.length) : String :=
  let characters := (List.range (BACKUP_CODE_GROUP_LENGTH * BACKUP_CODE_GROUP_COUNT)).map
    fun n => BACKUP_CODE_ALPHABET.get (randomInt n)
  let groups := (List.range BACKUP_CODE_GROUP_COUNT).map fun index =>
    (characters.drop (index * BACKUP_CODE_GROUP_LENGTH)).take BACKUP_CODE_GROUP_LENGTH
  String.ofList (List.intercalate ['-'] groups)

/-- The characters of a text that are neither white space nor hyphens. -/
def codeCharacters (text : String) : List Char :=
  text.toList.filter fun c => !(isWhiteSpace c || c == '-')

/-- The same character, but for its case. -/
def SameLetter (c c' : Char) : Prop := c' = c ∨ c' = c.toLower ∨ c' = c.toUpper

instance (c c' : Char) : Decidable (SameLetter c c') :=
  inferInstanceAs (Decidable (_ ∨ _ ∨ _))

/-- The text is the code but for letter case, white space and hyphens. -/
def Respells (code text : String) : Prop :=
  List.Forall₂ SameLetter (codeCharacters code) (codeCharacters text)

/-- `toUpperCase` on the characters of backup codes, in either case. -/
def Environment.FoldsCase (env : Environment) : Prop :=
  ∀ c, isBackupCodeCharacter c = true →
    env.toUpperCase c = [c] ∧ env.toUpperCase c.toLower = [c]

section Spellings
variable {randomInt : Nat → Fin BACKUP_CODE_ALPHABET.length}

/-- The characters that `createCode` draws. -/
def drawnCharacters (randomInt : Nat → Fin BACKUP_CODE_ALPHABET.length) : List Char :=
  (List.range 16).map fun n => BACKUP_CODE_ALPHABET.get (randomInt n)

theorem alphabet_character (x : Fin BACKUP_CODE_ALPHABET.length) :
    isBackupCodeCharacter (BACKUP_CODE_ALPHABET.get x) = true ∧
      isWhiteSpace (BACKUP_CODE_ALPHABET.get x) = false ∧ BACKUP_CODE_ALPHABET.get x ≠ '-' ∧
      (BACKUP_CODE_ALPHABET.get x).toUpper = BACKUP_CODE_ALPHABET.get x := by
  revert x
  decide +kernel

theorem createCode_toList (randomInt : Nat → Fin BACKUP_CODE_ALPHABET.length) {a : Nat → Char}
    (ha : ∀ n, BACKUP_CODE_ALPHABET.get (randomInt n) = a n) :
    (createCode randomInt).toList = [a 0, a 1, a 2, a 3, '-', a 4, a 5, a 6, a 7, '-',
      a 8, a 9, a 10, a 11, '-', a 12, a 13, a 14, a 15] := by
  rw [createCode, String.toList_ofList]
  simp only [ha]
  rfl

/-- The hyphens of a code are not among its characters. -/
theorem createCode_filter {p : Char → Bool} (hp : ∀ x, p (BACKUP_CODE_ALPHABET.get x) = true)
    (hhyphen : p '-' = false) :
    (createCode randomInt).toList.filter p = drawnCharacters randomInt := by
  rw [createCode_toList randomInt fun _ => rfl]
  simp only [List.filter_cons, hp, hhyphen, if_true, Bool.false_eq_true, if_false, List.filter_nil]
  rfl

theorem codeCharacters_createCode :
    codeCharacters (createCode randomInt) = drawnCharacters randomInt := by
  refine createCode_filter (fun x => ?_) (by decide)
  obtain ⟨-, hspace, hhyphen, -⟩ := alphabet_character x
  simp only [hspace, Bool.false_or, Bool.not_eq_true', beq_eq_false_iff_ne]
  exact hhyphen

theorem createCode_injective {randomInt' : Nat → Fin BACKUP_CODE_ALPHABET.length}
    (h : drawnCharacters randomInt = drawnCharacters randomInt') :
    createCode randomInt = createCode randomInt' := by
  have hshown : ∀ r, createCode r = String.ofList (List.intercalate ['-']
      ((List.range BACKUP_CODE_GROUP_COUNT).map fun index =>
        ((drawnCharacters r).drop (index * BACKUP_CODE_GROUP_LENGTH)).take
          BACKUP_CODE_GROUP_LENGTH)) := fun _ => rfl
  rw [hshown, hshown, h]

theorem drawnCharacters_length : (drawnCharacters randomInt).length = BACKUP_CODE_LENGTH := by
  rw [drawnCharacters, List.length_map, List.length_range, BACKUP_CODE_LENGTH]

theorem mem_drawnCharacters {c : Char} (h : c ∈ drawnCharacters randomInt) :
    isBackupCodeCharacter c = true ∧ c.toUpper = c := by
  obtain ⟨n, -, rfl⟩ := List.mem_map.mp h
  exact ⟨(alphabet_character (randomInt n)).1, (alphabet_character (randomInt n)).2.2.2⟩

/-- The characters of a code in any case are its own again in upper case. -/
theorem flatMap_toUpperCase {env : Environment} (henv : env.FoldsCase) {cs cs' : List Char}
    (h : List.Forall₂ SameLetter cs cs')
    (hcs : ∀ c ∈ cs, isBackupCodeCharacter c = true ∧ c.toUpper = c) :
    cs'.flatMap env.toUpperCase = cs := by
  induction h with
  | nil => rfl
  | @cons c c' cs cs' hc hrest ih =>
    obtain ⟨hcode, hupper⟩ := hcs c List.mem_cons_self
    have hfold : env.toUpperCase c' = [c] := by
      rcases hc with rfl | rfl | rfl
      · exact (henv _ hcode).1
      · exact (henv _ hcode).2
      · rw [hupper]
        exact (henv _ hcode).1
    rw [List.flatMap_cons, hfold, ih fun d hd => hcs d (List.mem_cons_of_mem c hd)]
    rfl

section Typed
variable {env : Environment} {text : String}

theorem normalizeBackupCode_respelled (henv : env.FoldsCase)
    (htext : Respells (createCode randomInt) text) :
    normalizeBackupCode env text = some (String.ofList (drawnCharacters randomInt)) := by
  rw [Respells, codeCharacters_createCode] at htext
  have hfold := flatMap_toUpperCase henv htext fun _ => mem_drawnCharacters
  have hall : (drawnCharacters randomInt).all isBackupCodeCharacter = true :=
    List.all_eq_true.mpr fun _ hc => (mem_drawnCharacters hc).1
  rw [codeCharacters] at hfold
  simp only [normalizeBackupCode, hfold, drawnCharacters_length, beq_self_eq_true, hall,
    Bool.and_self, if_true]

/-- No spelling of a code looks like an authenticator code. -/
theorem isTotpToken_respelled (htext : Respells (createCode randomInt) text) :
    isTotpToken text = false := by
  have hlength : (codeCharacters text).length = BACKUP_CODE_LENGTH := by
    rw [← htext.length_eq, codeCharacters_createCode, drawnCharacters_length]
  have hle : (codeCharacters text).length ≤ text.toList.length := List.length_filter_le _ _
  rw [hlength, BACKUP_CODE_LENGTH] at hle
  have hne : (text.toList.length == TOTP_DIGITS) = false := by
    rw [beq_eq_false_iff_ne, TOTP_DIGITS]
    omega
  rw [isTotpToken, hne, Bool.false_and]

end Typed
end Spellings

/-! ## Lookup -/

/-- The hash that `generate` stores for a code. -/
def issuedHash (env : Environment) (userId : Id) (code : String) : String :=
  env.hmacBackupCode (String.ofList (code.toList.filter fun c => c != '-')) userId

/-- The keyed hash tells codes and users apart. -/
def Environment.HashesApart (env : Environment) : Prop :=
  ∀ code userId code' userId', env.hmacBackupCode code userId = env.hmacBackupCode code' userId' →
    code = code' ∧ userId = userId'

/-- Among these rows `resolveSecondFactor` has this result, whatever its inputs are. -/
def Resolves (env : Environment) (credential : TwoFactorCredential) (text : String) (w : World)
    (result : Option SecondFactorProof) : Prop :=
  ∀ pid inputs, (resolveSecondFactor env credential text).alone pid inputs w = (.ok result, w)

section Lookup
variable {env : Environment} {randomInt : Nat → Fin BACKUP_CODE_ALPHABET.length}

theorem issuedHash_createCode (userId : Id) : issuedHash env userId (createCode randomInt) =
    env.hmacBackupCode (String.ofList (drawnCharacters randomInt)) userId := by
  rw [issuedHash, createCode_filter (fun x => ?_) (by decide)]
  rw [bne_iff_ne]
  exact (alphabet_character x).2.2.1

theorem issuedHash_injective (hhash : env.HashesApart) {userId userId' : Id}
    {randomInt' : Nat → Fin BACKUP_CODE_ALPHABET.length}
    (h : issuedHash env userId (createCode randomInt) = issuedHash env userId' (createCode randomInt')) :
    createCode randomInt = createCode randomInt' ∧ userId = userId' := by
  rw [issuedHash_createCode, issuedHash_createCode] at h
  obtain ⟨hcode, huser⟩ := hhash _ _ _ _ h
  exact ⟨createCode_injective (String.ofList_injective hcode), huser⟩

/-- A code in any spelling is looked up by the hash that was stored for it. -/
theorem hashBackupCode_respelled (henv : env.FoldsCase) {text : String} (userId : Id)
    (htext : Respells (createCode randomInt) text) :
    hashBackupCode env text userId = some (issuedHash env userId (createCode randomInt)) := by
  rw [hashBackupCode, normalizeBackupCode_respelled henv htext, issuedHash_createCode]
  rfl

theorem resolves_hash {credential : TwoFactorCredential} {text codeHash : String} (w : World)
    (htotp : isTotpToken text = false)
    (hhash : hashBackupCode env text credential.userId = some codeHash) :
    Resolves env credential text w
      (((w.store.twoFactorBackupCodes.find? fun c => c.codeHash == codeHash).filter
        fun c => c.credentialId == credential.id && c.consumedAt.isNone).map
        fun c => .backupCode c.id) := by
  intro pid inputs
  simp only [resolveSecondFactor, htotp, Bool.false_eq_true, if_false, hhash]
  simp only [Process.query, Process.step_bind, Process.alone, World.advance_idle]
  rfl

end Lookup
end ShipFlow.Auth
