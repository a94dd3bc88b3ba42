import ShipFlow.Encoding.Text
import ShipFlow.Files.FileMaintenance
import ShipFlow.Web.FileTransfer

/-! The files that the web application lets through, and the reservations that the service
accepts for them. -/

namespace ShipFlow.Files
open Encoding Web

/-- `@Transform(trim)` on the properties of `InitiateFileUploadDto`. -/
def InitiateFileUploadDto.transform (dto : InitiateFileUploadDto) : InitiateFileUploadDto where
  fileName := trim dto.fileName
  mimeType := trim dto.mimeType
  sizeBytes := dto.sizeBytes
  checksumSha256 := trim dto.checksumSha256

def acceptedExtensions : List AcceptedExtension :=
  [.pdf, .jpg, .jpeg, .png, .webp, .txt, .csv, .json, .docx, .xlsx, .pptx]

/-- The rules of `InitiateFileUploadDto`. How long a string is says the validation library. -/
def InitiateFileUploadDto.valid (length : String → Nat) (dto : InitiateFileUploadDto) : Bool :=
  1 ≤ length dto.fileName && length dto.fileName ≤ 255 &&
  (acceptedExtensions.map ACCEPTED_FILE_MIME_TYPES).contains dto.mimeType &&
  1 ≤ dto.sizeBytes && dto.sizeBytes ≤ FILE_MAX_SIZE_BYTES &&
  dto.checksumSha256.length == 64 && dto.checksumSha256.toList.all hexDigits.contains

/-- The request for a reservation passes the pipe and the declaration, with its MIME type. -/
def Accepts (env : Environment) (length : String → Nat) (dto : InitiateFileUploadDto) : Prop :=
  dto.transform.valid length = true ∧ ∃ declaration,
    validateDeclaration env dto.transform.fileName dto.transform.mimeType dto.transform.sizeBytes =
      .ok declaration ∧ declaration.mimeType = dto.mimeType

/-- What the web application asks for after hashing the file. -/
def reservationRequest (file : File) (mimeType : String) (digest : List UInt8) :
    InitiateFileUploadDto where
  fileName := file.name
  mimeType := mimeType
  sizeBytes := file.size
  checksumSha256 := String.ofList (toHex digest)

/-- The name under which the service stores a file. -/
def storedName (env : Environment) (fileName : String) : List Char :=
  (trim (env.normalizeNfkc (trim fileName))).toList

/-- The stored name is short enough, has no slash, backslash or control character, and does not
begin with its last dot. -/
structure Storable (env : Environment) (fileName : String) : Prop where
  short : utf16Length (String.ofList (storedName env fileName)) ≤ 255
  slash : '/' ∉ storedName env fileName
  backslash : '\\' ∉ storedName env fileName
  control : ∀ c ∈ storedName env fileName, isControl c = false
  stem : ∀ rest, storedName env fileName = '.' :: rest → '.' ∈ rest

/-- What both sides rely on. Normalization does nothing to an ASCII text at the end; the
extensions have no other spellings than in ASCII letters; the validation library counts a
character at most as often as it has code units, and every ASCII character. -/
structure Platform (env : Environment) (length : String → Nat) : Prop where
  nfkc : ∀ s t : String, (∀ c ∈ t.toList, c.toNat < 128) →
    env.normalizeNfkc (s ++ t) = env.normalizeNfkc s ++ t
  lower : ∀ s : String,
    acceptedExtension (env.toLowerCase s) = acceptedExtension (s.map Char.toLower)
  length_le : ∀ s, length s ≤ utf16Length s
  length_pos : ∀ (s : String) (c : Char), c ∈ s.toList → c.toNat < 128 → 1 ≤ length s

/-! ## The declaration -/

/-- A declaration that is accepted. -/
structure Declared (env : Environment) (name mimeType : String) (sizeBytes : Nat)
    (extension : AcceptedExtension) : Prop where
  nonempty : utf16Length name ≠ 0
  short : utf16Length name ≤ 255
  slash : '/' ∉ name.toList
  backslash : '\\' ∉ name.toList
  control : ∀ c ∈ name.toList, isControl c = false
  positive : 1 ≤ sizeBytes
  small : sizeBytes ≤ FILE_MAX_SIZE_BYTES
  accepted : acceptedExtension (env.toLowerCase (String.ofList (extname name.toList))) =
    some extension
  mimeType : mimeType = ACCEPTED_FILE_MIME_TYPES extension

section Declaration
variable {env : Environment} {fileName mimeType : String} {sizeBytes : Nat}
  {declaration : Declaration}

theorem validateDeclaration_ok (h : validateDeclaration env fileName mimeType sizeBytes =
    .ok declaration) : Declared env (trim (env.normalizeNfkc fileName)) mimeType sizeBytes
      declaration.extension ∧ declaration.mimeType = mimeType := by
  rw [validateDeclaration] at h
  split at h
  · cases h
  · next hname =>
    dsimp only at h
    split at h
    · cases h
    · next hsize =>
      split at h
      · cases h
      · next extension hextension =>
        split at h
        · cases h
        · next hmime =>
          cases h
          simp only [Bool.or_eq_true, decide_eq_true_eq, List.contains_eq_mem, List.any_eq_true,
            not_or, not_exists, not_and, Bool.not_eq_true, bne_eq_false_iff_eq, gt_iff_lt,
            Nat.not_lt] at hname hsize hmime
          exact ⟨⟨hname.1.1.1.1, hname.1.1.1.2, hname.1.1.2, hname.1.2, hname.2, hsize.1, hsize.2,
            hextension, hmime⟩, hmime.symm⟩

theorem Declared.validate {extension : AcceptedExtension}
    (h : Declared env (trim (env.normalizeNfkc fileName)) mimeType sizeBytes extension) :
    ∃ declaration, validateDeclaration env fileName mimeType sizeBytes = .ok declaration ∧
      declaration.mimeType = mimeType := by
  refine ⟨⟨trim (env.normalizeNfkc fileName), ACCEPTED_FILE_MIME_TYPES extension, extension⟩, ?_,
    h.mimeType.symm⟩
  have hname : ¬ ((decide (utf16Length (trim (env.normalizeNfkc fileName)) = 0) ||
      decide (utf16Length (trim (env.normalizeNfkc fileName)) > 255) ||
      (trim (env.normalizeNfkc fileName)).toList.contains '/' ||
      (trim (env.normalizeNfkc fileName)).toList.contains '\\' ||
      (trim (env.normalizeNfkc fileName)).toList.any isControl) = true) := by
    simp only [Bool.or_eq_true, decide_eq_true_eq, List.contains_eq_mem, List.any_eq_true,
      not_or, not_exists, not_and, Bool.not_eq_true, gt_iff_lt, Nat.not_lt]
    exact ⟨⟨⟨⟨h.nonempty, h.short⟩, h.slash⟩, h.backslash⟩, h.control⟩
  have hsize : ¬ ((decide (sizeBytes < 1) || decide (sizeBytes > FILE_MAX_SIZE_BYTES)) = true) := by
    simp only [Bool.or_eq_true, decide_eq_true_eq, not_or, gt_iff_lt, Nat.not_lt]
    exact ⟨h.positive, h.small⟩
  rw [validateDeclaration, if_neg hname]
  dsimp only
  rw [if_neg hsize, h.accepted]
  dsimp only
  rw [if_neg (by simp [h.mimeType])]
  rfl

end Declaration

/-! ## Names -/

section Names
variable {name before extension : List Char}

theorem splitLastDot_some (h : splitLastDot name = some (before, extension)) :
    name = before ++ extension ∧ ∃ rest, extension = '.' :: rest ∧ '.' ∉ rest := by
  rw [splitLastDot, List.span_eq_takeWhile_dropWhile] at h
  split at h
  · cases h
  · next after dot rest heq =>
    cases h
    obtain ⟨rfl, hdrop⟩ := Prod.mk.inj heq
    have hdot : dot = '.' := by
      have hhead := List.head?_dropWhile_not (fun c => c != '.') name.reverse
      rw [hdrop] at hhead
      simpa using hhead
    have hsplit := List.takeWhile_append_dropWhile (p := fun c => c != '.') (l := name.reverse)
    rw [hdrop, hdot] at hsplit
    refine ⟨?_, _, by rw [hdot], fun hmem => ?_⟩
    · calc name = name.reverse.reverse := (List.reverse_reverse name).symm
        _ = (name.reverse.takeWhile (fun c => c != '.') ++ '.' :: rest).reverse :=
          congrArg List.reverse hsplit.symm
        _ = rest.reverse ++ dot :: (name.reverse.takeWhile fun c => c != '.').reverse := by
          rw [hdot, List.reverse_append, List.reverse_cons, List.append_assoc]
          rfl
    · have hno := List.mem_takeWhile_imp (List.mem_reverse.mp hmem)
      simp at hno

theorem splitLastDot_append {rest : List Char} (h : '.' ∉ rest) :
    splitLastDot (before ++ '.' :: rest) = some (before, '.' :: rest) := by
  have hall : ∀ c ∈ rest.reverse, (c != '.') = true := by
    intro c hc
    rw [bne_iff_ne]
    rintro rfl
    exact h (List.mem_reverse.mp hc)
  have hreverse : (before ++ '.' :: rest).reverse = rest.reverse ++ '.' :: before.reverse := by simp
  rw [splitLastDot, List.span_eq_takeWhile_dropWhile, hreverse, List.takeWhile_append_of_pos hall,
    List.dropWhile_append_of_pos hall]
  simp

/-- The characters of the extensions, in any case. -/
def isExtensionChar (c : Char) : Bool :=
  c.toNat == 0x2e || (0x41 ≤ c.toNat && c.toNat ≤ 0x5a) || (0x61 ≤ c.toNat && c.toNat ≤ 0x7a)

theorem isExtensionChar_ascii {c : Char} (h : isExtensionChar c = true) : c.toNat < 128 := by
  simp only [isExtensionChar, Bool.or_eq_true, Bool.and_eq_true, beq_iff_eq, decide_eq_true_eq] at h
  lia

theorem isWhiteSpace_visible {c : Char} (hlow : 0x20 < c.toNat) (hhigh : c.toNat < 0x7f) :
    isWhiteSpace c = false := by
  rw [← Bool.not_eq_true]
  simp only [isWhiteSpace, Bool.or_eq_true, Bool.and_eq_true, decide_eq_true_eq,
    List.contains_eq_mem, List.mem_cons, List.not_mem_nil, or_false]
  omega

theorem isExtensionChar_plain {c : Char} (h : isExtensionChar c = true) :
    isWhiteSpace c = false ∧ c ≠ '/' ∧ c ≠ '\\' ∧ isControl c = false := by
  simp only [isExtensionChar, Bool.or_eq_true, Bool.and_eq_true, beq_iff_eq, decide_eq_true_eq] at h
  refine ⟨?_, ?_, ?_, ?_⟩
  · exact isWhiteSpace_visible (by lia) (by lia)
  · rintro rfl
    revert h
    decide
  · rintro rfl
    revert h
    decide
  · rw [← Bool.not_eq_true]
    simp only [isControl, Bool.or_eq_true, decide_eq_true_eq, beq_iff_eq]
    lia

theorem isExtensionChar_of_toLower {c : Char} (h : isExtensionChar c.toLower = true) :
    isExtensionChar c = true := by
  rw [Char.toLower] at h
  split at h
  · next hupper =>
    have hlow : 'A'.toNat ≤ c.toNat := UInt32.le_iff_toNat_le.mp hupper.1
    have hhigh : c.toNat ≤ 'Z'.toNat := UInt32.le_iff_toNat_le.mp hupper.2
    simp only [isExtensionChar, Bool.or_eq_true, Bool.and_eq_true, decide_eq_true_eq]
    exact .inl (.inr ⟨hlow, hhigh⟩)
  · exact h

/-- An extension that is accepted has no other characters, in whatever case. -/
theorem acceptedExtension_chars {s : String} {e : AcceptedExtension}
    (h : acceptedExtension (s.map Char.toLower) = some e) :
    ∀ c ∈ s.toList, isExtensionChar c = true := by
  have hlower : ∀ c ∈ (s.map Char.toLower).toList, isExtensionChar c = true := by
    generalize s.map Char.toLower = t at h
    unfold acceptedExtension at h
    split at h
    all_goals cases h
    all_goals simp [isExtensionChar]
  intro c hc
  apply isExtensionChar_of_toLower
  apply hlower
  rw [String.toList_map]
  exact List.mem_map_of_mem hc

/-- Trimming leaves the extension alone. -/
theorem trim_append {stem extension : List Char} (hne : extension ≠ [])
    (hchars : ∀ c ∈ extension, isExtensionChar c = true) :
    (trim (String.ofList (stem ++ extension))).toList =
      stem.dropWhile isWhiteSpace ++ extension := by
  obtain ⟨c, rest, rfl⟩ := List.exists_cons_of_ne_nil hne
  have hplain : ∀ c' ∈ c :: rest, isWhiteSpace c' = false := fun c' hc' =>
    (isExtensionChar_plain (hchars c' hc')).1
  have hstart : (stem ++ c :: rest).dropWhile isWhiteSpace =
      stem.dropWhile isWhiteSpace ++ c :: rest := by
    rw [List.dropWhile_append]
    split
    · next hempty =>
      rw [List.isEmpty_iff.mp hempty, List.dropWhile_cons, hplain c List.mem_cons_self]
      rfl
    · rfl
  obtain ⟨last, before, hlast⟩ : ∃ last before, (c :: rest).reverse = last :: before :=
    List.exists_cons_of_ne_nil (by simp)
  have hwhite : isWhiteSpace last = false := by
    apply hplain
    rw [← List.mem_reverse, hlast]
    exact List.mem_cons_self
  have hend : (stem.dropWhile isWhiteSpace ++ c :: rest).reverse.dropWhile isWhiteSpace =
      (stem.dropWhile isWhiteSpace ++ c :: rest).reverse := by
    rw [List.reverse_append, hlast, List.cons_append, List.dropWhile_cons, hwhite]
    rfl
  rw [trim, String.toList_ofList, String.toList_ofList, hstart, hend, List.reverse_reverse]

theorem trim_plain {s : String} (h : ∀ c ∈ s.toList, isWhiteSpace c = false) : trim s = s := by
  have hall : ∀ cs : List Char, (∀ c ∈ cs, isWhiteSpace c = false) →
      cs.dropWhile isWhiteSpace = cs := by
    intro cs hcs
    cases cs with
    | nil => rfl
    | cons c cs => rw [List.dropWhile_cons, hcs c List.mem_cons_self]; rfl
  rw [trim, hall _ h, hall _ fun c hc => h c (List.mem_reverse.mp hc), List.reverse_reverse,
    String.ofList_toList]

end Names

/-! ## Both sides -/

theorem acceptedFileTypes_eq (extension : String) :
    acceptedFileTypes extension = (acceptedExtension extension).map ACCEPTED_FILE_MIME_TYPES := by
  unfold acceptedFileTypes
  split
  case h_12 =>
    unfold acceptedExtension
    split
    all_goals first | rfl | contradiction
  all_goals rfl

section Agreement
variable {env : Environment} {length : String → Nat} {file : File} {mimeType : String}

/-- What a picked name consists of, and how it is stored. -/
theorem picked_name (hplatform : Platform env length)
    (h : Picked env.toLowerCase file mimeType) :
    ∃ stem rest e, file.name.toList = stem ++ '.' :: rest ∧ '.' ∉ rest ∧
      (∀ c ∈ '.' :: rest, isExtensionChar c = true) ∧
      acceptedExtension (env.toLowerCase (String.ofList ('.' :: rest))) = some e ∧
      mimeType = ACCEPTED_FILE_MIME_TYPES e ∧
      (trim file.name).toList = stem.dropWhile isWhiteSpace ++ '.' :: rest ∧
      ∃ stored, storedName env file.name = stored ++ '.' :: rest := by
  obtain ⟨⟨stem, extension⟩, hsplit, haccepted⟩ := Option.bind_eq_some_iff.mp h.mimeType
  simp only [acceptedFileTypes_eq] at haccepted
  obtain ⟨e, he, hmime⟩ := Option.map_eq_some_iff.mp haccepted
  obtain ⟨hname, rest, rfl, hrest⟩ := splitLastDot_some hsplit
  have hchars : ∀ c ∈ '.' :: rest, isExtensionChar c = true := by
    have hlower := he
    rw [hplatform.lower] at hlower
    intro c hc
    exact acceptedExtension_chars hlower c (by rw [String.toList_ofList]; exact hc)
  have htrim : (trim file.name).toList = stem.dropWhile isWhiteSpace ++ '.' :: rest := by
    rw [← String.ofList_toList (s := file.name), hname]
    exact trim_append (List.cons_ne_nil _ _) hchars
  have hsplit' : trim file.name =
      String.ofList (stem.dropWhile isWhiteSpace) ++ String.ofList ('.' :: rest) := by
    rw [← String.ofList_append, ← htrim, String.ofList_toList]
  refine ⟨stem, rest, e, hname, hrest, hchars, he, hmime.symm, htrim, ?_⟩
  have hascii : ∀ c ∈ (String.ofList ('.' :: rest)).toList, c.toNat < 128 := by
    intro c hc
    rw [String.toList_ofList] at hc
    exact isExtensionChar_ascii (hchars c hc)
  refine ⟨(env.normalizeNfkc (String.ofList (stem.dropWhile isWhiteSpace))).toList.dropWhile
    isWhiteSpace, ?_⟩
  rw [storedName, hsplit', hplatform.nfkc _ _ hascii,
    ← String.ofList_toList (s := env.normalizeNfkc _ ++ _), String.toList_append,
    String.toList_ofList]
  exact trim_append (List.cons_ne_nil _ _) hchars

theorem utf16Length_trim_le {stem rest : List Char} {s : String} (hs : s.toList = stem ++ rest)
    (htrim : (trim s).toList = stem.dropWhile isWhiteSpace ++ rest) :
    utf16Length (trim s) ≤ utf16Length s := by
  rw [utf16Length, utf16Length, hs, htrim]
  have hsub : (stem.dropWhile isWhiteSpace ++ rest).Sublist (stem ++ rest) :=
    (List.dropWhile_sublist _).append_right rest
  exact (hsub.map _).sum_le_sum fun _ _ => Nat.zero_le _

theorem mimeType_trim (e : AcceptedExtension) :
    trim (ACCEPTED_FILE_MIME_TYPES e) = ACCEPTED_FILE_MIME_TYPES e := by
  have hvisible : ∀ c ∈ (ACCEPTED_FILE_MIME_TYPES e).toList, 0x20 < c.toNat ∧ c.toNat < 0x7f := by
    intro c hc
    have hall : (ACCEPTED_FILE_MIME_TYPES e).toList.all
        (fun c => decide (0x20 < c.toNat) && decide (c.toNat < 0x7f)) = true := by
      cases e <;> decide +kernel
    have hc := List.all_eq_true.mp hall c hc
    rw [Bool.and_eq_true, decide_eq_true_eq, decide_eq_true_eq] at hc
    exact hc
  exact trim_plain fun c hc => isWhiteSpace_visible (hvisible c hc).1 (hvisible c hc).2

theorem checksum_trim (digest : List UInt8) :
    trim (String.ofList (toHex digest)) = String.ofList (toHex digest) := by
  apply trim_plain
  intro c hc
  rw [String.toList_ofList] at hc
  have hvisible : ∀ c ∈ hexDigits, 0x20 < c.toNat ∧ c.toNat < 0x7f := by simp [hexDigits]
  have hc := hvisible c (mem_toHex hc)
  exact isWhiteSpace_visible hc.1 hc.2

/-- The pipe lets every request for a picked file through. -/
theorem reservationRequest_valid (hplatform : Platform env length)
    (h : Picked env.toLowerCase file mimeType) (digest : List UInt8)
    (hdigest : digest.length = 32) :
    (reservationRequest file mimeType digest).transform.valid length = true := by
  obtain ⟨stem, rest, e, hname, -, -, -, hmime, htrim, -⟩ := picked_name hplatform h
  have hlength : length (trim file.name) ≤ 255 :=
    (hplatform.length_le _).trans ((utf16Length_trim_le hname htrim).trans h.short)
  have hpositive : 1 ≤ length (trim file.name) :=
    hplatform.length_pos _ '.' (by rw [htrim]; simp) (by decide)
  have haccepted :
      ACCEPTED_FILE_MIME_TYPES e ∈ acceptedExtensions.map ACCEPTED_FILE_MIME_TYPES := by
    refine List.mem_map_of_mem ?_
    cases e <;> decide
  have hhash : (String.ofList (toHex digest)).length = 64 := by
    rw [← String.length_toList, String.toList_ofList, length_toHex, hdigest]
  simp only [InitiateFileUploadDto.valid, InitiateFileUploadDto.transform, reservationRequest,
    hmime, mimeType_trim, checksum_trim, Bool.and_eq_true, decide_eq_true_eq, beq_iff_eq,
    List.contains_iff_mem, List.all_eq_true, String.toList_ofList]
  exact ⟨⟨⟨⟨⟨⟨hpositive, hlength⟩, haccepted⟩, h.nonempty⟩, h.small⟩, hhash⟩,
    fun c hc => mem_toHex hc⟩

theorem extname_some {stored rest : List Char} (hrest : '.' ∉ rest) (hne : rest ≠ [])
    (hstored : stored ≠ []) : extname (stored ++ '.' :: rest) = '.' :: rest := by
  have hdots : (stored ++ '.' :: rest == ['.', '.']) = false := by
    rw [beq_eq_false_iff_ne]
    intro heq
    have hlength := congrArg List.length heq
    have hstored' := List.length_pos_iff.mpr hstored
    have hrest' := List.length_pos_iff.mpr hne
    rw [List.length_append, List.length_cons, List.length_cons, List.length_cons,
      List.length_nil] at hlength
    lia
  have hempty : stored.isEmpty = false := by simpa using hstored
  rw [extname, splitLastDot_append hrest]
  simp [hempty, hdots]

theorem extname_hidden {rest : List Char} (hrest : '.' ∉ rest) : extname ('.' :: rest) = [] := by
  have hsplit : splitLastDot ([] ++ '.' :: rest) = some ([], '.' :: rest) :=
    splitLastDot_append hrest
  rw [List.nil_append] at hsplit
  rw [extname, hsplit]
  rfl

theorem acceptedExtension_none (hplatform : Platform env length) {cs : List Char}
    (h : cs = [] ∨ cs = ['.']) : acceptedExtension (env.toLowerCase (String.ofList cs)) = none := by
  rw [hplatform.lower]
  rcases h with rfl | rfl
  · decide +kernel
  · decide +kernel

end Agreement

/-- A file that the web application lets through is refused by the service, after it was hashed,
exactly if its name cannot be stored. -/
theorem declaration_accepted_iff (env : Environment) (length : String → Nat)
    (hplatform : Platform env length) (file : File) (mimeType : String)
    (hpicked : validateUploadFile env.toLowerCase file none = .ok mimeType) (digest : List UInt8)
    (hdigest : digest.length = 32) :
    Accepts env length (reservationRequest file mimeType digest) ↔ Storable env file.name := by
  have h := validateUploadFile_ok hpicked
  obtain ⟨stem, rest, e, hname, hrest, hchars, he, hmime, htrim, stored, hstored⟩ :=
    picked_name hplatform h
  constructor
  · rintro ⟨-, declaration, hdeclared, -⟩
    have hok := (validateDeclaration_ok hdeclared).1
    refine ⟨?_, hok.slash, hok.backslash, hok.control, fun rest' hhidden => ?_⟩
    · rw [storedName, String.ofList_toList]
      exact hok.short
    · by_contra hdot
      have hnone := hok.accepted
      change acceptedExtension (env.toLowerCase (String.ofList
        (extname (storedName env file.name)))) = _ at hnone
      rw [hhidden, extname_hidden hdot, acceptedExtension_none hplatform (.inl rfl)] at hnone
      cases hnone
  · intro hstorable
    have hne : rest ≠ [] := by
      rintro rfl
      rw [acceptedExtension_none hplatform (.inr rfl)] at he
      cases he
    have hstem : stored ≠ [] := by
      rintro rfl
      exact hrest (hstorable.stem rest hstored)
    have hdeclared : Declared env (trim (env.normalizeNfkc (trim file.name))) (trim mimeType)
        file.size e := by
      refine ⟨?_, ?_, hstorable.slash, hstorable.backslash, hstorable.control, h.nonempty, h.small,
        ?_, ?_⟩
      · change ((storedName env file.name).map _).sum ≠ 0
        rw [hstored, List.map_append, List.sum_append, List.map_cons, List.sum_cons,
          if_pos (by decide)]
        lia
      · rw [← String.ofList_toList (s := trim _)]
        exact hstorable.short
      · change acceptedExtension (env.toLowerCase (String.ofList
          (extname (storedName env file.name)))) = some e
        rw [hstored, extname_some hrest hne hstem]
        exact he
      · rw [hmime, mimeType_trim]
    obtain ⟨declaration, hvalidate, hsame⟩ := hdeclared.validate
    refine ⟨reservationRequest_valid hplatform h digest hdigest, declaration, hvalidate, ?_⟩
    rw [hsame, hmime, mimeType_trim]
    rfl

/-- An environment whose texts are ASCII. -/
def Environment.ascii : Environment :=
  { Environment.transparent with toLowerCase := fun s => s.map Char.toLower }

theorem platform_ascii : Platform .ascii utf16Length where
  nfkc _ _ _ := rfl
  lower _ := rfl
  length_le _ := le_rfl
  length_pos s c hmem hascii := by
    have hunit : 1 ∈ s.toList.map fun c => if c.toNat ≤ 0xffff then 1 else 2 := by
      have hunit := List.mem_map_of_mem (f := fun c => if c.toNat ≤ 0xffff then 1 else 2) hmem
      rwa [if_pos (by lia)] at hunit
    exact List.le_sum_of_mem hunit

theorem declaration_accepted_report : Accepts .ascii utf16Length
    (reservationRequest ⟨"report.pdf", 8⟩ "application/pdf" (List.replicate 32 0)) := by
  have hname : storedName .ascii "report.pdf" = "report.pdf".toList := by decide +kernel
  have hstorable : Storable .ascii "report.pdf" := by
    constructor
    all_goals rw [hname]
    · decide +kernel
    · decide +kernel
    · decide +kernel
    · simp [isControl]
    · intro rest hrest
      simp at hrest
  have hpicked : validateUploadFile Environment.ascii.toLowerCase ⟨"report.pdf", 8⟩ none =
      .ok "application/pdf" := by decide +kernel
  exact (declaration_accepted_iff .ascii utf16Length platform_ascii ⟨"report.pdf", 8⟩
    "application/pdf" hpicked (List.replicate 32 0) List.length_replicate).mpr hstorable

/-- A name that consists of the extension only. -/
theorem declaration_refused_hidden :
    validateUploadFile Environment.ascii.toLowerCase ⟨".pdf", 1⟩ none = .ok "application/pdf" ∧
      ¬ Accepts .ascii utf16Length
        (reservationRequest ⟨".pdf", 1⟩ "application/pdf" (List.replicate 32 0)) := by
  constructor
  · decide +kernel
  rintro ⟨-, declaration, hdeclared, -⟩
  have hextension := (validateDeclaration_ok hdeclared).1.accepted
  have hnone : acceptedExtension (Environment.ascii.toLowerCase (String.ofList
      (extname (storedName .ascii ".pdf")))) = none := by decide +kernel
  have hsome : acceptedExtension (Environment.ascii.toLowerCase (String.ofList
      (extname (storedName .ascii ".pdf")))) = some declaration.extension := hextension
  rw [hnone] at hsome
  cases hsome

end ShipFlow.Files
