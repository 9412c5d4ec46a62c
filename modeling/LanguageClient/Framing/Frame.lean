import LanguageClient.Dict
import LanguageClient.Fault
import LanguageClient.Text.Blank

/-!
# LanguageClient.Framing.Frame -- frames and their bytes

A frame is a header block and a body. The block is a list of lines `Name: value`, ended by an empty
line; it tells the length of the body in bytes and the type of its content. Lines end in CR LF when
written. `Frame.WellFormed` holds of the frames that survive writing and reading.
-/

namespace LanguageClient

/-- The content type that is not written. -/
def defaultContentType : String := "application/vscode-jsonrpc; charset=utf-8"

/-- The header block of a frame. -/
structure Headers where
  /-- The length of the body in bytes. -/
  contentLength : Nat
  contentType : String := defaultContentType
  /-- The other fields by their names. -/
  additional : Dict String := ∅
  deriving DecidableEq

/-- A header block and the body that it announces. -/
structure Frame where
  headers : Headers
  body : List UInt8
  deriving DecidableEq

/-! ## The character set of a content type -/

/-- The value of the first parameter `charset` of a content type. -/
def charsetParameter? (contentType : String) : Option String :=
  let value? (part : List Char) : Option (List Char) :=
    Text.dropLead? "charset=".toList (Text.stripChars Text.isBlank part)
  ((Text.pieces ';' contentType.toList).findSome? value?).map fun value =>
    String.ofList (Text.stripChars (· == '"') (Text.stripChars Text.isBlank value))

/-- The character set that a content type asks for; `utf-8` if it asks for none or writes `utf8`. -/
def charsetOf (contentType : String) : String :=
  match charsetParameter? contentType with
  | none => "utf-8"
  | some "utf8" => "utf-8"
  | some charset => charset

/-- Whether a content type asks for UTF-8, in letters of either case. -/
def IsUtf8 (contentType : String) : Prop := Text.EqIgnoringCase (charsetOf contentType) "utf-8"

instance (contentType : String) : Decidable (IsUtf8 contentType) :=
  inferInstanceAs (Decidable (Text.EqIgnoringCase _ _))

namespace Headers

def charset (h : Headers) : String := charsetOf h.contentType

/-! ## Bytes -/

/-- A line of a header block. -/
def line (name value : String) : String := s!"{name}: {value}\r\n"

/-- The text of a header block whose additional fields come in the order given. -/
def textIn (h : Headers) (fields : List (String × String)) : String :=
  line "Content-Length" s!"{h.contentLength}"
    ++ (if h.contentType = defaultContentType then "" else line "Content-Type" h.contentType)
    ++ String.join (fields.map (fun (name, value) => line name value)) ++ "\r\n"

end Headers

namespace Frame

/-- The frame of a body, with no more in its header block than must be. -/
def ofBody (body : List UInt8) : Frame := ⟨{ contentLength := body.length }, body⟩

/-- The bytes of a frame whose additional fields are written in the order given. -/
def bytesIn (f : Frame) (fields : List (String × String)) : List UInt8 :=
  Text.bytes (f.headers.textIn fields) ++ f.body

/-- The bytes of a frame. -/
def bytes (f : Frame) : List UInt8 := f.bytesIn f.headers.additional.entries

/-- The bytes of the frame of a body. -/
def bodyBytes (body : List UInt8) : List UInt8 := (ofBody body).bytes

/-! ## Frames that survive writing and reading -/

/-- A text that can be the value of a header field. -/
def IsFieldValue (s : String) : Prop := Text.Trimmed s ∧ '\n' ∉ s.toList

/-- A text that can be the name of an additional header field. -/
def IsFieldName (s : String) : Prop :=
  s ≠ "" ∧ Text.Trimmed s ∧ ':' ∉ s.toList ∧ '\n' ∉ s.toList
    ∧ ¬ Text.EqIgnoringCase s "content-length" ∧ ¬ Text.EqIgnoringCase s "content-type"

/-- The header block tells the truth, is within bounds, and its texts keep their form on one line. -/
structure WellFormed (f : Frame) : Prop where
  length_eq : f.body.length = f.headers.contentLength
  length_le : f.headers.contentLength ≤ maxContentLength
  contentType : IsFieldValue f.headers.contentType
  utf8 : IsUtf8 f.headers.contentType
  fields : ∀ p ∈ f.headers.additional.entries, IsFieldName p.1 ∧ IsFieldValue p.2

end Frame

end LanguageClient
