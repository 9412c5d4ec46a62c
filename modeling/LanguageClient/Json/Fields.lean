import LanguageClient.Json.Codec

/-!
# LanguageClient.Json.Fields -- records as JSON objects

The fields of a record in declaration order, read and written by one description. A record is put
together with the applicative operations, as in

    Range.mk <$> field "start" Position.codec (·.start) <*> field "end" Position.codec (·.stop)

Of several faults in an object one is reported: a member that does not read before one that is
missing, the smallest key before the others, and the fields of the record itself before the parts
flattened into it. A record without flattened parts may also be given as the list of its fields.
-/

namespace LanguageClient.Json

/-- What is wrong with a member of an object, or with a part flattened into it. -/
inductive FieldFault where
  | bad (key : String) (cause : Mismatch)
  | missing (name : String)
  | part (cause : Mismatch)

namespace FieldFault

/-- The cause to report. -/
def mismatch : FieldFault → Mismatch
  | bad _ cause => cause
  | missing name => .missingField name
  | part cause => cause

/-- Of the faults of an earlier and a later field, the one to report. -/
def first : FieldFault → FieldFault → FieldFault
  | part a, part _ => part a
  | part _, b => b
  | a, part _ => a
  | bad k a, bad l b => if l < k then bad l b else bad k a
  | bad k a, missing _ => bad k a
  | missing _, bad l b => bad l b
  | missing n, missing _ => missing n

end FieldFault

/-- What is wrong with a list of fields: it ends too early, or an item does not read. -/
inductive ItemFault where
  | ended
  | bad (cause : Mismatch)

/-- Some fields of a record `σ` that together give an `α`. -/
structure Fields (σ α : Type) where
  /-- The number of fields, parts flattened into the record not counted. -/
  size : Nat
  /-- From the members of an object. -/
  ofMembers : Place → List (String × Json) → Except FieldFault α
  /-- From the leading items of a list; the rest is returned. -/
  ofItems : Place → List Json → Except ItemFault (α × List Json)
  /-- The members to write, in declaration order. -/
  toMembers : σ → List (String × Json)

namespace Fields

variable {σ τ α β : Type}

/-- No field. -/
protected def pure (a : α) : Fields σ α :=
  ⟨0, fun _ _ => .ok a, fun _ items => .ok (a, items), fun _ => []⟩

protected def map (f : α → β) (x : Fields σ α) : Fields σ β where
  size := x.size
  ofMembers place members := (x.ofMembers place members).map f
  ofItems place items := (x.ofItems place items).map (fun (a, rest) => (f a, rest))
  toMembers := x.toMembers

/-- The fields of both, in order. -/
protected def seq (f : Fields σ (α → β)) (x : Fields σ α) : Fields σ β where
  size := f.size + x.size
  ofMembers place members :=
    match f.ofMembers place members, x.ofMembers place members with
    | .ok g, .ok a => .ok (g a)
    | .error e, .ok _ => .error e
    | .ok _, .error e => .error e
    | .error e, .error e' => .error (e.first e')
  ofItems place items :=
    match f.ofItems place items with
    | .error e => .error e
    | .ok (g, rest) => (x.ofItems place rest).map (fun (a, rest) => (g a, rest))
  toMembers s := f.toMembers s ++ x.toMembers s

instance : Applicative (Fields σ) where
  pure := Fields.pure
  map := Fields.map
  seq f x := Fields.seq f (x ())

/-- Reads the next item of a list. -/
def nextItem (c : Codec α) (place : Place) : List Json → Except ItemFault (α × List Json)
  | [] => .error .ended
  | j :: rest =>
    match c.read place j with
    | .ok a => .ok (a, rest)
    | .error m => .error (.bad m)

/-- Reads a member, which may be absent only if `absent` has a value. -/
def member (name : String) (c : Codec α) (absent : Option α) (place : Place)
    (members : List (String × Json)) : Except FieldFault α :=
  match members.lookup name with
  | some j =>
    match c.read place j with
    | .ok a => .ok a
    | .error m => .error (.bad name m)
  | none =>
    match absent with
    | some a => .ok a
    | none => .error (.missing name)

/-- A field that is always there. -/
def field (name : String) (c : Codec α) (get : σ → α) : Fields σ α where
  size := 1
  ofMembers := member name c none
  ofItems := nextItem c
  toMembers s := [(name, c.write (get s))]

/-- A field that may be absent or null, and is left out if it has no value. -/
def optional (name : String) (c : Codec α) (get : σ → Option α) : Fields σ (Option α) where
  size := 1
  ofMembers := member name c.optional (some none)
  ofItems := nextItem c.optional
  toMembers s :=
    match get s with
    | none => []
    | some a => [(name, c.write a)]

/-- A field that may be absent or null, and is written as null if it has no value. -/
def nullable (name : String) (c : Codec α) (get : σ → Option α) : Fields σ (Option α) where
  size := 1
  ofMembers := member name c.optional (some none)
  ofItems := nextItem c.optional
  toMembers s := [(name, c.optional.write (get s))]

/-- The fields of another record among the members of this one. They are read from a copy, after the
record's own fields. -/
def flattened (part : Fields τ τ) (get : σ → τ) : Fields σ τ where
  size := 0
  ofMembers _ members :=
    match part.ofMembers .kept members with
    | .ok a => .ok a
    | .error e => .error (.part e.mismatch)
  ofItems _ _ := .error .ended
  toMembers s := part.toMembers (get s)

/-- All members but the declared ones, as they are. -/
def rest (declared : List String) (get : σ → Dict Json) : Fields σ (Dict Json) where
  size := 0
  ofMembers _ members := .ok (Dict.ofList (members.filter (fun m => !declared.contains m.1)))
  ofItems _ _ := .error .ended
  toMembers s := (get s).entries

end Fields

/-! ## The forms of a record -/

namespace Codec

variable {α : Type}

/-- Reads a record from its members. -/
def readMembers (fields : Fields α α) (place : Place) (members : List (String × Json)) :
    Except Mismatch α :=
  match fields.ofMembers place members with
  | .ok a => .ok a
  | .error e => .error e.mismatch

/-- A record given by its members, or by the list of its fields in declaration order. -/
def record (name : String) (fields : Fields α α) : Codec α where
  read place j := match j with
    | .object members => readMembers fields place members
    | .list items =>
      match fields.ofItems place items with
      | .error .ended => .error (.tooShort items.length name fields.size)
      | .error (.bad m) => .error m
      | .ok (a, []) => .ok a
      | .ok (_, _ :: _) =>
        match place with
        | .document => .error (.tooLong items.length)
        | .kept => .error (.tooLongKept items.length fields.size)
    | j => .error (.wrongType j s!"struct {name}")
  write a := ofMembers (fields.toMembers a)

/-- A record with flattened parts: only its members give it. -/
def openRecord (name : String) (fields : Fields α α) : Codec α where
  read place j := match j with
    | .object members => readMembers fields place members
    | j => .error (.wrongType j s!"struct {name}")
  write a := ofMembers (fields.toMembers a)

end Codec

end LanguageClient.Json
