import LanguageClient.Number.Rounding
import LanguageClient.Dict

/-!
# LanguageClient.Json.Basic -- JSON values

A JSON value with its integers kept apart from its floating point numbers. The members of an object
are a list in ascending order of their keys, each key once; `Assoc.insert` keeps that order, so the
members of two equal objects are equal lists. `Json.Canonical` says of a value that all its objects
are in that order and all its integers fit 64 bits, signed or unsigned; these are the values that the
reader returns.
-/

namespace LanguageClient

/-- A JSON value. -/
inductive Json where
  | null
  | bool (b : Bool)
  | int (n : Int)
  | float (x : Number.Binary64)
  | str (s : String)
  | list (items : List Json)
  | object (members : List (String × Json))
  deriving Inhabited

namespace Json

/-! ## Equality -/

mutual

/-- Values are equal or not, by recursion on both. -/
def decEq : (a b : Json) → Decidable (a = b)
  | .null, .null => isTrue rfl
  | .bool a, .bool b => if h : a = b then isTrue (h ▸ rfl) else isFalse (fun e => h (by cases e; rfl))
  | .int a, .int b => if h : a = b then isTrue (h ▸ rfl) else isFalse (fun e => h (by cases e; rfl))
  | .float a, .float b => if h : a = b then isTrue (h ▸ rfl) else isFalse (fun e => h (by cases e; rfl))
  | .str a, .str b => if h : a = b then isTrue (h ▸ rfl) else isFalse (fun e => h (by cases e; rfl))
  | .list a, .list b =>
    match decEqItems a b with
    | isTrue h => isTrue (h ▸ rfl)
    | isFalse h => isFalse (fun e => h (by cases e; rfl))
  | .object a, .object b =>
    match decEqMembers a b with
    | isTrue h => isTrue (h ▸ rfl)
    | isFalse h => isFalse (fun e => h (by cases e; rfl))
  | .null, .bool _ | .null, .int _ | .null, .float _ | .null, .str _ | .null, .list _
  | .null, .object _ => isFalse nofun
  | .bool _, .null | .bool _, .int _ | .bool _, .float _ | .bool _, .str _ | .bool _, .list _
  | .bool _, .object _ => isFalse nofun
  | .int _, .null | .int _, .bool _ | .int _, .float _ | .int _, .str _ | .int _, .list _
  | .int _, .object _ => isFalse nofun
  | .float _, .null | .float _, .bool _ | .float _, .int _ | .float _, .str _ | .float _, .list _
  | .float _, .object _ => isFalse nofun
  | .str _, .null | .str _, .bool _ | .str _, .int _ | .str _, .float _ | .str _, .list _
  | .str _, .object _ => isFalse nofun
  | .list _, .null | .list _, .bool _ | .list _, .int _ | .list _, .float _ | .list _, .str _
  | .list _, .object _ => isFalse nofun
  | .object _, .null | .object _, .bool _ | .object _, .int _ | .object _, .float _
  | .object _, .str _ | .object _, .list _ => isFalse nofun

/-- Item lists are equal or not. -/
def decEqItems : (a b : List Json) → Decidable (a = b)
  | [], [] => isTrue rfl
  | [], _ :: _ => isFalse nofun
  | _ :: _, [] => isFalse nofun
  | a :: as, b :: bs =>
    match decEq a b with
    | isFalse h => isFalse (fun e => h (by cases e; rfl))
    | isTrue h =>
      match decEqItems as bs with
      | isTrue hs => isTrue (h ▸ hs ▸ rfl)
      | isFalse hs => isFalse (fun e => hs (by cases e; rfl))

/-- Member lists are equal or not. -/
def decEqMembers : (a b : List (String × Json)) → Decidable (a = b)
  | [], [] => isTrue rfl
  | [], _ :: _ => isFalse nofun
  | _ :: _, [] => isFalse nofun
  | (k, a) :: as, (l, b) :: bs =>
    if hk : k = l then
      match decEq a b with
      | isFalse h => isFalse (fun e => h (by cases e; rfl))
      | isTrue h =>
        match decEqMembers as bs with
        | isTrue hs => isTrue (hk ▸ h ▸ hs ▸ rfl)
        | isFalse hs => isFalse (fun e => hs (by cases e; rfl))
    else isFalse (fun e => hk (by cases e; rfl))

end

instance : DecidableEq Json := decEq

end Json

/-! ## Measures and the canonical form -/

namespace Json

/-- An object given by its members in any order; of two members with one key the later counts. -/
def ofMembers (pairs : List (String × Json)) : Json := .object (Assoc.ofList pairs)

mutual

/-- How deep lists and objects nest. -/
def depth : Json → Nat
  | .list items => depthItems items + 1
  | .object members => depthMembers members + 1
  | _ => 0

def depthItems : List Json → Nat
  | [] => 0
  | x :: xs => max x.depth (depthItems xs)

def depthMembers : List (String × Json) → Nat
  | [] => 0
  | (_, x) :: rest => max x.depth (depthMembers rest)

end

/-- The integers that stay integers when written and read: those of 64 bits, signed or unsigned. -/
def IsWord (n : Int) : Prop := -2 ^ 63 ≤ n ∧ n < 2 ^ 64

instance (n : Int) : Decidable (IsWord n) := inferInstanceAs (Decidable (_ ∧ _))

mutual

/-- Objects are in key order and integers are words, throughout. -/
def Canonical : Json → Prop
  | .int n => IsWord n
  | .list items => CanonicalItems items
  | .object members => Assoc.Sorted members ∧ CanonicalMembers members
  | _ => True

def CanonicalItems : List Json → Prop
  | [] => True
  | x :: xs => x.Canonical ∧ CanonicalItems xs

def CanonicalMembers : List (String × Json) → Prop
  | [] => True
  | (_, x) :: rest => x.Canonical ∧ CanonicalMembers rest

end

mutual

/-- No floating point number occurs. -/
def FloatFree : Json → Prop
  | .float _ => False
  | .list items => FloatFreeItems items
  | .object members => FloatFreeMembers members
  | _ => True

def FloatFreeItems : List Json → Prop
  | [] => True
  | x :: xs => x.FloatFree ∧ FloatFreeItems xs

def FloatFreeMembers : List (String × Json) → Prop
  | [] => True
  | (_, x) :: rest => x.FloatFree ∧ FloatFreeMembers rest

end

end Json

end LanguageClient
