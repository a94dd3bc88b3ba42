import ShipFlow.Encoding.Text
import ShipFlow.Files.FilesService

/-! `LocalFileStorageProvider`: object keys and signed URLs. -/

namespace ShipFlow.Files
open Encoding

inductive SignedAction where
  | upload
  | download
  deriving DecidableEq, Repr

def SignedAction.text : SignedAction → String
  | .upload => "upload"
  | .download => "download"

/-- The provider with its two settings, and the functions of the platform that it uses. -/
structure LocalFileStorageProvider where
  root : String
  signingSecret : String
  resolve : (root : String) → (segments : List String) → String
  hmacSha256 : (secret message : String) → List UInt8

structure CreateUploadTargetInput where
  key : String
  uploadPath : String
  expiresAt : Time

namespace LocalFileStorageProvider
variable (p : LocalFileStorageProvider)

def pathFor (key : String) : Except String String :=
  if !isObjectKey key then .error "Invalid storage object key"
  else
    let path := p.resolve p.root ((key.toList.splitOn '/').map String.ofList)
    if path != p.root && !path.startsWith (p.root ++ "/") then
      .error "Storage object key escaped the configured root"
    else .ok path

/-! ## Signed URLs -/

/-- The message that is signed. -/
def signedMessage (action : SignedAction) (key : String) (expires : Int) : String :=
  action.text ++ "\n" ++ key ++ "\n" ++ expires.repr

def sign (action : SignedAction) (key : String) (expires : Int) : String :=
  String.ofList (toHex (p.hmacSha256 p.signingSecret (signedMessage action key expires)))

def signedUrl (path : String) (expires : Int) (signature : String) : String :=
  path ++ "?expires=" ++ expires.repr ++ "&signature=" ++ signature

def createUploadTarget (input : CreateUploadTargetInput) : FileUploadTarget :=
  let expires := input.expiresAt / 1000
  let signature := p.sign .upload input.key expires
  { method := .post
    url := signedUrl input.uploadPath expires signature
    headers := []
    fileField := some "file"
    expiresAt := input.expiresAt }

def createDownloadTarget (key downloadPath : String) (now : Time) : FileDownloadTarget :=
  let expiresAt := now + seconds FILE_DOWNLOAD_URL_TTL_SECONDS
  let expires := expiresAt / 1000
  let signature := p.sign .download key expires
  ⟨.get, signedUrl downloadPath expires signature, expiresAt⟩

def isSafeInteger (n : Int) : Bool := -9007199254740991 ≤ n && n ≤ 9007199254740991

def verifyLocalSignature (action : SignedAction) (key : String) (expires : Int) (signature : String)
    (now : Time) : Bool :=
  if !isSafeInteger expires || expires < now / 1000 then false
  else
    let expected := fromHex (p.sign action key expires).toList
    let supplied := fromHex signature.toList
    supplied.length == expected.length && supplied == expected

/-! ## What a signature grants -/

variable {p}

/-- The signature is part of a URL that the provider has issued. -/
inductive Issued (p : LocalFileStorageProvider) :
    SignedAction → String → (expires : Int) → (signature : String) → Prop
  | upload {expires signature} (input : CreateUploadTargetInput)
      (h : (p.createUploadTarget input).url = signedUrl input.uploadPath expires signature) :
      Issued p .upload input.key expires signature
  | download {expires signature} (key downloadPath : String) (now : Time)
      (h : (p.createDownloadTarget key downloadPath now).url =
        signedUrl downloadPath expires signature) : Issued p .download key expires signature

theorem not_mem_objectKey {key : String} (h : isObjectKey key = true) : '\n' ∉ key.toList := by
  intro hmem
  have hjoin : ['/'].intercalate (key.toList.splitOn '/') = key.toList :=
    List.intercalate_splitOn '/'
  rw [isObjectKey] at h
  cases hsplit : key.toList.splitOn '/' with
  | nil =>
    rw [hsplit] at h
    cases h
  | cons first segments =>
    rw [hsplit] at h hjoin
    rw [← hjoin] at hmem
    simp only [Bool.and_eq_true, beq_iff_eq, List.all_eq_true] at h
    obtain ⟨⟨rfl, -⟩, hsegments⟩ := h
    rcases mem_intercalate hmem with hsep | ⟨part, hpart, hnewline⟩
    · exact absurd (List.mem_singleton.mp hsep) (by decide)
    · rcases List.mem_cons.mp hpart with rfl | hpart
      · exact absurd hnewline (by decide)
      · exact absurd ((hsegments part hpart).2 _ hnewline) (by decide)

theorem pathFor_ok {key path : String} (h : p.pathFor key = .ok path) : isObjectKey key = true := by
  rw [pathFor] at h
  split at h
  · cases h
  · next hkey => rwa [Bool.not_eq_true', Bool.not_eq_false] at hkey

theorem signedMessage_toList (action : SignedAction) (key : String) (expires : Int) :
    (signedMessage action key expires).toList =
      action.text.toList ++ '\n' :: (key.toList ++ '\n' :: expires.repr.toList) := by
  simp only [signedMessage, String.toList_append, List.append_assoc]
  rfl

/-- The three parts of a message can be told apart. -/
theorem signedMessage_inj {action action' : SignedAction} {key key' : String} {expires expires' : Int}
    (hkey : isObjectKey key = true) (hkey' : isObjectKey key' = true)
    (h : signedMessage action key expires = signedMessage action' key' expires') :
    action = action' ∧ key = key' ∧ expires = expires' := by
  have haction (a : SignedAction) : '\n' ∉ a.text.toList := by
    cases a <;> decide
  have hlists := congrArg String.toList h
  rw [signedMessage_toList, signedMessage_toList,
    fields_inj (haction _) (haction _),
    fields_inj (not_mem_objectKey hkey) (not_mem_objectKey hkey')] at hlists
  obtain ⟨htext, hkeys, hexpires⟩ := hlists
  refine ⟨?_, String.toList_injective hkeys, Int.repr_injective (String.toList_injective hexpires)⟩
  have htexts := String.toList_injective htext
  cases action <;> cases action' <;> first | rfl | exact absurd htexts (by decide)

theorem signedUrl_toList (path : String) (expires : Int) (signature : String) :
    (signedUrl path expires signature).toList = path.toList ++ ("?expires=".toList ++
      (expires.repr.toList ++ '&' :: ("signature=".toList ++ signature.toList))) := by
  simp only [signedUrl, String.toList_append, List.append_assoc]
  rfl

theorem signedUrl_inj {path : String} {expires expires' : Int} {signature signature' : String}
    (h : signedUrl path expires signature = signedUrl path expires' signature') :
    expires = expires' ∧ signature = signature' := by
  have hnot (n : Int) : '&' ∉ n.repr.toList := not_mem_decimal (by decide) (by decide)
  have hlists := congrArg String.toList h
  rw [signedUrl_toList, signedUrl_toList, List.append_cancel_left_eq, List.append_cancel_left_eq,
    fields_inj (hnot _) (hnot _), List.append_cancel_left_eq] at hlists
  exact ⟨Int.repr_injective (String.toList_injective hlists.1), String.toList_injective hlists.2⟩

theorem Issued.signature {action : SignedAction} {key signature : String} {expires : Int}
    (h : Issued p action key expires signature) : signature = p.sign action key expires := by
  cases h with
  | upload input h =>
    obtain ⟨rfl, hsignature⟩ := signedUrl_inj h
    exact hsignature.symm
  | download key downloadPath now h =>
    obtain ⟨rfl, hsignature⟩ := signedUrl_inj h
    exact hsignature.symm

theorem sign_toList (action : SignedAction) (key : String) (expires : Int) :
    (p.sign action key expires).toList =
      toHex (p.hmacSha256 p.signingSecret (signedMessage action key expires)) :=
  String.toList_ofList

/-- A signature in lower case is accepted if it is the one that the provider makes. -/
theorem verifyLocalSignature_iff {signature : String} (heven : signature.toList.length % 2 = 0)
    (hdigits : ∀ c ∈ signature.toList, c ∈ hexDigits) (action : SignedAction) (key : String)
    (expires : Int) (now : Time) :
    p.verifyLocalSignature action key expires signature now = true ↔
      isSafeInteger expires = true ∧ now / 1000 ≤ expires ∧
        signature = p.sign action key expires := by
  have hsame : fromHex signature.toList = fromHex (p.sign action key expires).toList ↔
      signature = p.sign action key expires := by
    refine ⟨fun h => String.toList_injective ?_, fun h => by rw [h]⟩
    rw [sign_toList, fromHex_toHex] at h
    rw [← toHex_fromHex heven hdigits, h, sign_toList]
  rw [verifyLocalSignature]
  split
  · next hrefused =>
    refine iff_of_false nofun fun ⟨hsafe, hnow, _⟩ => ?_
    rw [hsafe] at hrefused
    simp only [Bool.not_true, Bool.false_or, decide_eq_true_eq] at hrefused
    exact absurd hnow (Int.not_le.mpr hrefused)
  · next hadmitted =>
    simp only [Bool.or_eq_true, Bool.not_eq_true', decide_eq_true_eq, not_or, Bool.not_eq_false,
      Int.not_lt] at hadmitted
    rw [Bool.and_eq_true, beq_iff_eq, beq_iff_eq, and_iff_right hadmitted.1,
      and_iff_right hadmitted.2, ← hsame]
    exact ⟨fun h => h.2, fun h => ⟨congrArg List.length h, h⟩⟩

/-- A signature out of a URL is accepted for the action, the key and the expiry of that URL
until then, and for nothing else. -/
theorem signed_url_grants (p : LocalFileStorageProvider)
    (hmac : Function.Injective (p.hmacSha256 p.signingSecret)) {action : SignedAction}
    {key signature path : String} {expires : Int} (hkey : p.pathFor key = .ok path)
    (hissued : Issued p action key expires signature) (action' : SignedAction) {key' path' : String}
    (hkey' : p.pathFor key' = .ok path') {expires' : Int} (hsafe : isSafeInteger expires' = true)
    (now : Time) :
    p.verifyLocalSignature action' key' expires' signature now = true ↔
      action' = action ∧ key' = key ∧ expires' = expires ∧ now / 1000 ≤ expires := by
  rw [hissued.signature]
  have hdigits : ∀ c ∈ (p.sign action key expires).toList, c ∈ hexDigits := by
    intro c hc
    rw [sign_toList] at hc
    exact mem_toHex hc
  have heven : (p.sign action key expires).toList.length % 2 = 0 := by
    rw [sign_toList, length_toHex]
    exact Nat.mul_mod_right 2 _
  rw [verifyLocalSignature_iff heven hdigits, and_iff_right hsafe]
  constructor
  · rintro ⟨hnow, hsign⟩
    have hlists := congrArg String.toList hsign
    rw [sign_toList, sign_toList] at hlists
    have hmessage := hmac (toHex_injective hlists)
    obtain ⟨rfl, rfl, rfl⟩ := signedMessage_inj (pathFor_ok hkey) (pathFor_ok hkey') hmessage
    exact ⟨rfl, rfl, rfl, hnow⟩
  · rintro ⟨rfl, rfl, rfl, hnow⟩
    exact ⟨hnow, rfl⟩

/-- A provider for tests. Its signature is the message in hexadecimal. -/
def transparent : LocalFileStorageProvider where
  root := "/data"
  signingSecret := ""
  resolve root segments := root ++ "/" ++ "/".intercalate segments
  hmacSha256 _ message := message.toByteArray.data.toList

theorem signed_url_grants_upload :
    let key := "objects/00000000-0000-0000-0000-000000000000/00000000-0000-0000-0000-000000000001"
    let signature := transparent.sign .upload key 600
    transparent.verifyLocalSignature .upload key 600 signature 600999 = true ∧
      transparent.verifyLocalSignature .upload key 600 signature 601000 = false ∧
      transparent.verifyLocalSignature .download key 600 signature 0 = false := by
  intro key signature
  have hmac : Function.Injective (transparent.hmacSha256 transparent.signingSecret) := by
    intro message message' h
    exact String.toByteArray_inj.mp (ByteArray.ext (Array.toList_inj.mp h))
  have hissued : Issued transparent .upload key 600 signature := .upload ⟨key, "/upload", 600000⟩ rfl
  have hkey : transparent.pathFor key = .ok ("/data/" ++ key) := by decide +kernel
  have hgrants (action : SignedAction) (now : Time) :=
    signed_url_grants transparent hmac hkey hissued action hkey (by decide : isSafeInteger 600 = true) now
  refine ⟨?_, ?_, ?_⟩
  · exact (hgrants .upload 600999).mpr ⟨rfl, rfl, rfl, by decide⟩
  · rw [Bool.eq_false_iff, ne_eq, hgrants]
    exact fun h => absurd h.2.2.2 (by decide)
  · rw [Bool.eq_false_iff, ne_eq, hgrants]
    exact fun h => absurd h.1 (by decide)

/-! ## The file service with this provider -/

/-- The service signs with the provider. -/
structure Signs (env : Environment) (p : LocalFileStorageProvider) : Prop where
  provider : env.provider = .local
  sign : ∀ action key expires, env.sign action.text key expires = p.sign action key expires

theorem Signs.createUploadTarget {env : Environment} (h : Signs env p) (file : StoredFile)
    (now : Time) : Files.createUploadTarget env file now = p.createUploadTarget
      ⟨file.objectKey, s!"/api/v1/file-content/{file.id}",
        now + seconds FILE_UPLOAD_URL_TTL_SECONDS⟩ := by
  have hsign := h.sign .upload
  simp only [Files.createUploadTarget, h.provider, SignedAction.text] at hsign ⊢
  simp only [hsign, LocalFileStorageProvider.createUploadTarget, signedUrl, toString,
    String.append_assoc]

theorem Signs.targetFor {env : Environment} (h : Signs env p) (file : StoredFile) (now : Time) :
    Files.targetFor env file now = p.createDownloadTarget file.objectKey
      s!"/api/v1/file-content/{file.id}" now := by
  have hsign := h.sign .download
  simp only [Files.targetFor, h.provider, SignedAction.text] at hsign ⊢
  simp only [hsign, createDownloadTarget, signedUrl, toString, String.append_assoc]

/-- For the signatures that a request may carry, the check of the service is the one of the
provider. -/
theorem Signs.verifyLocalSignature {env : Environment} (h : Signs env p) {signature : String}
    (heven : signature.toList.length % 2 = 0) (hdigits : ∀ c ∈ signature.toList, c ∈ hexDigits)
    (action : SignedAction) (key : String) (expires : Int) (now : Time) :
    Files.verifyLocalSignature env action.text key expires signature now =
      p.verifyLocalSignature action key expires signature now := by
  rw [Bool.eq_iff_iff, verifyLocalSignature_iff heven hdigits]
  simp only [Files.verifyLocalSignature, h.provider, h.sign, isSafeInteger, Bool.and_eq_true,
    decide_eq_true_eq, beq_iff_eq, and_assoc]

end LocalFileStorageProvider
end ShipFlow.Files
