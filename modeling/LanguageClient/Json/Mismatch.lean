import LanguageClient.Json.Printer
import LanguageClient.Text.Quoted

/-!
# LanguageClient.Json.Mismatch -- why a JSON value is not of a wanted form

One constructor per cause, and one function, `Mismatch.message`, for their wording.
-/

namespace LanguageClient.Json

/-- What a value is, as messages name it. -/
def describe : Json → String
  | .null => "null"
  | .bool b => s!"boolean `{b}`"
  | .int n => s!"integer `{n}`"
  | .float x => "floating point `" ++ String.ofList x.text ++ "`"
  | .str s => "string " ++ Text.shown s
  | .list _ => "sequence"
  | .object _ => "map"

/-- Why a value is not of a wanted form. -/
inductive Mismatch where
  /-- A value of another kind. -/
  | wrongType (found : Json) (wanted : String)
  /-- An integer outside the wanted range. -/
  | outOfRange (found : Int) (wanted : String)
  /-- A list that ends before all fields of a record are read. -/
  | tooShort (found : Nat) (record : String) (fields : Nat)
  /-- A list that goes on after all fields of a record. -/
  | tooLong (found : Nat)
  /-- The same, of a list that was kept to be read later. -/
  | tooLongKept (found : Nat) (fields : Nat)
  /-- A member that a record needs is absent. -/
  | missingField (name : String)
  /-- A name that no variant has. -/
  | unknownVariant (found : String) (known : List String)
  /-- An object in place of a variant's name that has not exactly one member. -/
  | notSingleKey
  /-- No alternative of a choice takes the value. -/
  | noVariant (choice : String)
  /-- A number that stands for nothing in an enumeration. -/
  | unassigned (enumeration : String) (code : Nat)
  deriving DecidableEq

/-- `count` with its noun. -/
def elements (count : Nat) : String :=
  if count = 1 then "1 element" else s!"{count} elements"

/-- Names as a message offers them. -/
def oneOf (names : List String) : String :=
  let ticked := names.map (fun n => "`" ++ n ++ "`")
  match ticked with
  | [] => "there are no variants"
  | [a] => "expected " ++ a
  | [a, b] => "expected " ++ a ++ " or " ++ b
  | many => "expected one of " ++ ", ".intercalate many

namespace Mismatch

/-- The wording of a cause. -/
def message : Mismatch → String
  | wrongType found wanted => s!"invalid type: {describe found}, expected {wanted}"
  | outOfRange found wanted => s!"invalid value: integer `{found}`, expected {wanted}"
  | tooShort found record fields =>
    s!"invalid length {found}, expected struct {record} with {elements fields}"
  | tooLong found => s!"invalid length {found}, expected fewer elements in array"
  | tooLongKept found fields => s!"invalid length {found}, expected {elements fields} in sequence"
  | missingField name => s!"missing field `{name}`"
  | unknownVariant found known => "unknown variant `" ++ found ++ "`, " ++ oneOf known
  | notSingleKey => "invalid value: map, expected map with a single key"
  | noVariant choice => s!"data did not match any variant of untagged enum {choice}"
  | unassigned enumeration code => s!"Invalid {enumeration}: {code}"

end Mismatch

end LanguageClient.Json
