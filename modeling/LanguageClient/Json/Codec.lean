import LanguageClient.Json.Mismatch

/-!
# LanguageClient.Json.Codec -- types with a JSON form

A `Codec` is a reader and a writer for one type. A value is read where it stands in its document, or
from a copy that was kept while the form to read it as was still open; the second reads the same values
but for two details, so the reader is told which of the two it does.

`Codec.RoundTrips` says that what is written reads back, from either place.
-/

namespace LanguageClient.Json

/-- Where a reader finds a value. -/
inductive Place where
  /-- In the document. -/
  | document
  /-- In a copy kept by a choice, a tagged form or a flattened part. -/
  | kept
  deriving DecidableEq

/-- A type's JSON form: how it is read and how it is written. -/
structure Codec (α : Type) where
  read : Place → Json → Except Mismatch α
  write : α → Json

namespace Codec

variable {α β : Type}

/-- Reads a value of a document. -/
def ofJson (c : Codec α) (j : Json) : Except Mismatch α := c.read .document j

/-- What is written reads back. -/
def RoundTrips (c : Codec α) (a : α) : Prop := ∀ place, c.read place (c.write a) = .ok a

/-! ## Scalars -/

/-- Any value, as it is. -/
def raw : Codec Json := ⟨fun _ j => .ok j, id⟩

/-- The null. -/
def unit : Codec Unit where
  read _ j := match j with
    | .null => .ok ()
    | j => .error (.wrongType j "unit")
  write _ := .null

def bool : Codec Bool where
  read _ j := match j with
    | .bool b => .ok b
    | j => .error (.wrongType j "a boolean")
  write := .bool

def string : Codec String where
  read _ j := match j with
    | .str s => .ok s
    | j => .error (.wrongType j "a string")
  write := .str

/-- An integer of the range that `ofInt?` accepts. -/
def integer (wanted : String) (ofInt? : Int → Option α) (toInt : α → Int) : Codec α where
  read _ j := match j with
    | .int n =>
      match ofInt? n with
      | some a => .ok a
      | none => .error (.outOfRange n wanted)
    | j => .error (.wrongType j wanted)
  write a := .int (toInt a)

def uint8 : Codec UInt8 :=
  integer "u8" (fun n => if 0 ≤ n ∧ n < 2 ^ 8 then some (UInt8.ofNat n.toNat) else none)
    (fun a => a.toNat)

def uint32 : Codec UInt32 :=
  integer "u32" (fun n => if 0 ≤ n ∧ n < 2 ^ 32 then some (UInt32.ofNat n.toNat) else none)
    (fun a => a.toNat)

def int32 : Codec Int32 :=
  integer "i32" (fun n => if -2 ^ 31 ≤ n ∧ n < 2 ^ 31 then some (Int32.ofInt n) else none)
    Int32.toInt

def int64 : Codec Int64 :=
  integer "i64" (fun n => if -2 ^ 63 ≤ n ∧ n < 2 ^ 63 then some (Int64.ofInt n) else none)
    Int64.toInt

/-- A number rounded to single precision. One beyond every single is kept as nothing and written as
null. -/
def single : Codec (Option Number.Binary64) where
  read _ j := match j with
    | .int n => .ok (Number.Binary64.narrow? (n < 0) n.natAbs 1)
    | .float x =>
      .ok (Number.Binary64.narrow? x.negative x.units (2 ^ Number.Format.double.scale))
    | j => .error (.wrongType j "f32")
  write
    | some x => .float x
    | none => .null

/-! ## Compound forms -/

/-- A value, or null for none. -/
def optional (c : Codec α) : Codec (Option α) where
  read place j := match j with
    | .null => .ok none
    | j => (c.read place j).map some
  write
    | none => .null
    | some a => c.write a

/-- Reads the items of a list up to the first that does not read. -/
def readItems (read : Json → Except Mismatch α) : List Json → Except Mismatch (List α)
  | [] => .ok []
  | j :: js =>
    match read j with
    | .error m => .error m
    | .ok a => (readItems read js).map (a :: ·)

/-- A list. -/
def list (c : Codec α) : Codec (List α) where
  read place j := match j with
    | .list items => readItems (c.read place) items
    | j => .error (.wrongType j "a sequence")
  write as := .list (as.map c.write)

/-- Reads the values of an object in key order up to the first that does not read. -/
def readEntries (read : Json → Except Mismatch α) :
    List (String × Json) → Except Mismatch (List (String × α))
  | [] => .ok []
  | (k, j) :: rest =>
    match read j with
    | .error m => .error m
    | .ok a => (readEntries read rest).map ((k, a) :: ·)

/-- An object with any keys. -/
def dict (c : Codec α) : Codec (Dict α) where
  read place j := match j with
    | .object members => (readEntries (c.read place) members).map Dict.ofList
    | j => .error (.wrongType j "a map")
  write d := ofMembers (d.entries.map (fun (k, a) => (k, c.write a)))

end Codec

end LanguageClient.Json
