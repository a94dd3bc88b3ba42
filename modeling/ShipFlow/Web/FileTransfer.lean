import ShipFlow.Files.Validation

/-! The check of the web application on a file that is picked for an upload. -/

namespace ShipFlow.Web
open Files

structure File where
  name : String
  size : Nat
  deriving DecidableEq, Repr

structure FileUsage where
  usedBytes : Nat
  maxBytes : Nat
  usedFiles : Nat
  maxFiles : Nat
  deriving DecidableEq, Repr

def acceptedFileTypes (extension : String) : Option String :=
  match extension with
  | ".csv" => some "text/csv"
  | ".docx" => some "application/vnd.openxmlformats-officedocument.wordprocessingml.document"
  | ".jpeg" => some "image/jpeg"
  | ".jpg" => some "image/jpeg"
  | ".json" => some "application/json"
  | ".pdf" => some "application/pdf"
  | ".png" => some "image/png"
  | ".pptx" => some "application/vnd.openxmlformats-officedocument.presentationml.presentation"
  | ".txt" => some "text/plain"
  | ".webp" => some "image/webp"
  | ".xlsx" => some "application/vnd.openxmlformats-officedocument.spreadsheetml.sheet"
  | _ => none

def acceptedFileTypeLabel : String := "PDF, JPG, PNG, WebP, TXT, CSV, JSON, DOCX, XLSX, or PPTX"

/-- `if (condition) throw new Error(message)` -/
def refuse (condition : Bool) (message : String) : Except String Unit :=
  if condition then throw message else return ()

section Check
variable (toLowerCase : String → String)

def getAcceptedMimeType (fileName : String) : Option String :=
  (splitLastDot fileName.toList).bind fun (_, extension) =>
    acceptedFileTypes (toLowerCase (String.ofList extension))

def validateUploadFile (file : File) (usage : Option FileUsage) : Except String String := do
  refuse (file.name.isEmpty || utf16Length file.name > 255 || file.name.toList.contains '/' ||
    file.name.toList.contains '\\') "Choose a file with a valid name up to 255 characters."
  refuse (file.size < 1) "The selected file is empty."
  refuse (file.size > FILE_MAX_SIZE_BYTES) "Files must be 25 MiB or smaller."
  match getAcceptedMimeType toLowerCase file.name with
  | none => throw s!"Choose one of these file types: {acceptedFileTypeLabel}."
  | some mimeType =>
    refuse (usage.any fun usage => usage.usedBytes + file.size > usage.maxBytes ||
      usage.usedFiles + 1 > usage.maxFiles)
      "This upload would exceed the workspace storage quota."
    return mimeType

end Check

theorem refuse_ok {α : Type} {condition : Bool} {message : String} {k : Unit → Except String α}
    {a : α} (h : (refuse condition message >>= k) = .ok a) : condition = false ∧ k () = .ok a := by
  cases condition with
  | true => cases h
  | false => exact ⟨rfl, h⟩

/-- What a file that was picked without a look at the quota has passed. -/
structure Picked (toLowerCase : String → String) (file : File) (mimeType : String) : Prop where
  short : utf16Length file.name ≤ 255
  slash : '/' ∉ file.name.toList
  backslash : '\\' ∉ file.name.toList
  nonempty : 1 ≤ file.size
  small : file.size ≤ FILE_MAX_SIZE_BYTES
  mimeType : getAcceptedMimeType toLowerCase file.name = some mimeType

theorem validateUploadFile_ok {toLowerCase : String → String} {file : File} {mimeType : String}
    (h : validateUploadFile toLowerCase file none = .ok mimeType) :
    Picked toLowerCase file mimeType := by
  rw [validateUploadFile] at h
  obtain ⟨hname, h⟩ := refuse_ok h
  obtain ⟨hempty, h⟩ := refuse_ok h
  obtain ⟨hlarge, h⟩ := refuse_ok h
  simp only [Bool.or_eq_false_iff, decide_eq_false_iff_not, Nat.not_lt, gt_iff_lt,
    List.contains_eq_mem] at hname hempty hlarge
  cases haccepted : getAcceptedMimeType toLowerCase file.name with
  | none =>
    rw [haccepted] at h
    cases h
  | some accepted =>
    rw [haccepted] at h
    cases (refuse_ok h).2
    exact ⟨hname.1.1.2, hname.1.2, hname.2, hempty, hlarge, haccepted⟩

end ShipFlow.Web
