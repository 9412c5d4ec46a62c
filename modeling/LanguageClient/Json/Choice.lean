import LanguageClient.Json.Codec

/-!
# LanguageClient.Json.Choice -- enumerations and choices between forms

Four ways in which one of several possibilities is told: by a name, by a number, by the first form
that fits, and by a member `kind` beside the members of the chosen form.
-/

namespace LanguageClient.Json.Codec

variable {α β : Type}

/-- The value of a name. -/
def named? (all : List α) (nameOf : α → String) (name : String) : Except Mismatch α :=
  match all.find? (fun a => nameOf a == name) with
  | some a => .ok a
  | none => .error (.unknownVariant name (all.map nameOf))

/-- One of several names. An object with the name as its only key and null as its value is taken too. -/
def names (all : List α) (nameOf : α → String) : Codec α where
  read _ j := match j with
    | .str s => named? all nameOf s
    | .object [(key, value)] =>
      match named? all nameOf key, value with
      | .error m, _ => .error m
      | .ok a, .null => .ok a
      | .ok _, value => .error (.wrongType value "unit")
    | .object _ => .error .notSingleKey
    | j => .error (.wrongType j "string or map")
  write a := .str (nameOf a)

/-- One of several small numbers. -/
def codes (enumeration : String) (all : List α) (codeOf : α → UInt8) : Codec α where
  read place j :=
    match uint8.read place j with
    | .error m => .error m
    | .ok n =>
      match all.find? (fun a => codeOf a == n) with
      | some a => .ok a
      | none => .error (.unassigned enumeration n.toNat)
  write a := uint8.write (codeOf a)

/-! ## The first form that fits -/

/-- A form as one of several: what it gives, or nothing. -/
def asForm (c : Codec β) (wrap : β → α) (j : Json) : Option α :=
  match c.read .kept j with
  | .ok b => some (wrap b)
  | .error _ => none

/-- The first form that takes a value. -/
def firstForm (forms : List (Json → Option α)) (j : Json) : Option α := forms.findSome? (· j)

/-- A choice between forms that are tried in order. -/
def choice (name : String) (forms : List (Json → Option α)) (write : α → Json) : Codec α where
  read _ j :=
    match firstForm forms j with
    | some a => .ok a
    | none => .error (.noVariant name)
  write := write

/-! ## A form told by its kind -/

/-- The member that tells the form. -/
def kindKey : String := "kind"

/-- A form under its kind. -/
structure Kind (α : Type) where
  kind : String
  read : Json → Except Mismatch α

/-- A form of type `β` under its kind. -/
def asKind (kind : String) (c : Codec β) (wrap : β → α) : Kind α :=
  ⟨kind, fun j => (c.read .kept j).map wrap⟩

/-- The form that a kind names. In a copy its place in the list will do as well. -/
def kindOf (kinds : List (Kind α)) (place : Place) : Json → Except Mismatch (Kind α)
  | .str s =>
    match kinds.find? (fun k => k.kind == s) with
    | some k => .ok k
    | none => .error (.unknownVariant s (kinds.map (·.kind)))
  | .int n =>
    if place = .kept ∧ 0 ≤ n then
      match kinds[n.toNat]? with
      | some k => .ok k
      | none => .error (.outOfRange n s!"variant index 0 <= i < {kinds.length}")
    else .error (.wrongType (.int n) "variant identifier")
  | j => .error (.wrongType j "variant identifier")

/-- Adds the kind to the members of an object. -/
def withKind (kind : String) : Json → Json
  | .object members => ofMembers ((kindKey, .str kind) :: members)
  | j => j

/-- A choice told by a member `kind`, or by the first item of a list whose other items are the fields
of the form. -/
def byKind (name : String) (kinds : List (Kind α)) (write : α → Json) : Codec α where
  read place j := match j with
    | .object members =>
      match members.lookup kindKey with
      | none => .error (.missingField kindKey)
      | some kind =>
        match kindOf kinds place kind with
        | .error m => .error m
        | .ok k => k.read (.object (Assoc.erase members kindKey))
    | .list [] => .error (.missingField kindKey)
    | .list (kind :: items) =>
      match kindOf kinds place kind with
      | .error m => .error m
      | .ok k => k.read (.list items)
    | j => .error (.wrongType j s!"internally tagged enum {name}")
  write := write

end LanguageClient.Json.Codec
