import LanguageClient.Fault
import LanguageClient.Json.Printer
import LanguageClient.Text.Utf8

/-!
# LanguageClient.FileUri -- URIs of files and directories

A path is a sequence of bytes, cut into segments at `/`. Empty segments and those that are a single dot
vanish; two dots stay, because what they lead to depends on the file system. A URI tells a path from the
root, so a path that does not begin with `/` is put behind the working directory first
(`FileUri.absolute`). In the URI every byte that a URI does not allow, or to which it gives a meaning, is
written as `%` and two hexadecimal digits.
-/

namespace LanguageClient.FileUri

/-- Whether a byte is written as a percent sign and two digits. -/
def isEscaped (b : UInt8) : Bool :=
  b ≤ 0x20 || 0x7F ≤ b || (Text.bytes "\"#%/<>?\\\x60\x7b\x7d").contains b

/-- A byte in the text of a URI. -/
def escape (b : UInt8) : List Char :=
  if isEscaped b then
    ['%', (Json.hexDigit (b.toNat / 16)).toUpper, (Json.hexDigit (b.toNat % 16)).toUpper]
  else [Char.ofNat b.toNat]

/-- Cuts bytes at every slash. -/
def pieces : List UInt8 → List (List UInt8)
  | [] => [[]]
  | b :: rest =>
    if b = 0x2F then [] :: pieces rest
    else
      match pieces rest with
      | [] => [[b]]
      | piece :: more => (b :: piece) :: more

/-- The segments of a path. -/
def segments (path : List UInt8) : List (List UInt8) :=
  (pieces path).filter (fun piece => piece ≠ [] ∧ piece ≠ Text.bytes ".")

/-- The URI of the file at a path from the root. -/
def file (path : List UInt8) : DocumentUri :=
  match segments path with
  | [] => "file:///"
  | parts => "file://" ++ String.ofList (parts.flatMap (fun part => '/' :: part.flatMap escape))

/-- The URI of the directory at a path from the root; it ends with a slash. -/
def directory (path : List UInt8) : DocumentUri :=
  match segments path with
  | [] => "file:///"
  | parts =>
    "file://" ++ String.ofList (parts.flatMap (fun part => '/' :: part.flatMap escape)) ++ "/"

/-- Whether a path leads from the root. -/
def isAbsolute (path : List UInt8) : Bool := path.head? = some 0x2F

/-- A path as one from the root. One that does not begin there leads on from the working directory, which
may not be known. -/
def absolute (workingDirectory : Except IoFault (List UInt8)) (path : String) : Except Fault (List UInt8) :=
  if isAbsolute (Text.bytes path) then .ok (Text.bytes path)
  else
    match workingDirectory with
    | .error cause => .error (.io cause)
    | .ok directory =>
      if isAbsolute directory then .ok (directory ++ 0x2F :: Text.bytes path)
      else .error (.decode (.noUri path))

/-- What a path comes to leads from the root. -/
theorem isAbsolute_of_absolute {workingDirectory : Except IoFault (List UInt8)} {path : String}
    {found : List UInt8} (h : absolute workingDirectory path = .ok found) : isAbsolute found = true := by
  unfold absolute at h
  split at h
  · next habsolute =>
    cases h
    exact habsolute
  · split at h
    · cases h
    · next _ directory =>
      split at h
      · next habsolute =>
        cases h
        cases directory with
        | nil => cases habsolute
        | cons b rest => exact habsolute
      · cases h

/-- The URI, as a `file` or as a `directory`, of what is at any path. -/
def ofPath (uri : List UInt8 → DocumentUri) (workingDirectory : Except IoFault (List UInt8)) (path : String) :
    Except Fault DocumentUri :=
  (absolute workingDirectory path).map uri

/-- The last segment of a path, unless it leads upwards. -/
def lastName? (path : List UInt8) : Option (List UInt8) :=
  (segments path).getLast?.filter (· ≠ Text.bytes "..")

end LanguageClient.FileUri
