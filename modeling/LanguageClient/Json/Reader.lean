import LanguageClient.Json.Basic

/-!
# LanguageClient.Json.Reader -- reading JSON text

Strict RFC 8259 over the characters of a text: four kinds of blank, no byte order mark, nothing after
the value, no control character and no lone surrogate in a string, and at most 127 levels of lists and
objects. `Json.parse?` gives the value or nothing; why a text is refused is not told.

The reader of a value takes the number of levels still allowed, and a list or object is read by a
reader with one level less, so the recursion is on that number.
-/

namespace LanguageClient.Json

/-- The four characters that may stand between tokens. -/
def isBlank (c : Char) : Bool := c == ' ' || c == '\t' || c == '\n' || c == '\r'

/-- Drops leading blanks. -/
def skipBlank (cs : List Char) : List Char := cs.dropWhile isBlank

/-! ## Strings -/

/-- The value of a hexadecimal digit of either case. -/
def hexValue? (c : Char) : Option Nat :=
  if '0' ≤ c ∧ c ≤ '9' then some (c.toNat - '0'.toNat)
  else if 'a' ≤ c ∧ c ≤ 'f' then some (c.toNat - 'a'.toNat + 10)
  else if 'A' ≤ c ∧ c ≤ 'F' then some (c.toNat - 'A'.toNat + 10)
  else none

/-- Four hexadecimal digits. -/
def hexUnit? (a b c d : Char) : Option Nat :=
  match hexValue? a, hexValue? b, hexValue? c, hexValue? d with
  | some a, some b, some c, some d => some (((a * 16 + b) * 16 + c) * 16 + d)
  | _, _, _, _ => none

/-- The character of an escape by one letter. -/
def letterEscape? (c : Char) : Option Char :=
  if c = '"' then some '"'
  else if c = '\\' then some '\\'
  else if c = '/' then some '/'
  else if c = 'b' then some '\x08'
  else if c = 'f' then some '\x0c'
  else if c = 'n' then some '\n'
  else if c = 'r' then some '\r'
  else if c = 't' then some '\t'
  else none

/-- Whether a 16-bit unit is the first of a pair. -/
def isLeading (unit : Nat) : Bool := 0xD800 ≤ unit && unit < 0xDC00

/-- Whether a 16-bit unit is the second of a pair. -/
def isTrailing (unit : Nat) : Bool := 0xDC00 ≤ unit && unit < 0xE000

/-- The character of a pair of units. -/
def pairChar (first second : Nat) : Char :=
  Char.ofNat (0x10000 + (first - 0xD800) * 0x400 + (second - 0xDC00))

/-- The characters of a string up to its closing quote, and what follows the quote. -/
def readString : List Char → Option (List Char × List Char)
  | [] => none
  | '"' :: rest => some ([], rest)
  | '\\' :: 'u' :: a :: b :: c :: d :: rest =>
    match hexUnit? a b c d with
    | none => none
    | some unit =>
      if isTrailing unit then none
      else if isLeading unit then
        match rest with
        | '\\' :: 'u' :: e :: f :: g :: h :: rest =>
          match hexUnit? e f g h with
          | none => none
          | some second =>
            if isTrailing second then
              (readString rest).map (fun (s, rest) => (pairChar unit second :: s, rest))
            else none
        | _ => none
      else (readString rest).map (fun (s, rest) => (Char.ofNat unit :: s, rest))
  | '\\' :: c :: rest =>
    match letterEscape? c with
    | none => none
    | some c => (readString rest).map (fun (s, rest) => (c :: s, rest))
  | c :: rest =>
    if c.toNat < 0x20 ∨ c = '\\' then none
    else (readString rest).map (fun (s, rest) => (c :: s, rest))

/-! ## Numbers -/

/-- A decimal digit. -/
def isDigit (c : Char) : Bool := '0' ≤ c && c ≤ '9'

/-- The value of a decimal digit. -/
def digitValue (c : Char) : Nat := c.toNat - '0'.toNat

/-- The parts of a number as it is written. -/
structure Numeral where
  negative : Bool
  whole : List Nat
  /-- The digits after the point; empty if there is none. -/
  fraction : List Nat
  exponent : Option Int

/-- A run of digits and what follows it. -/
def readDigits (cs : List Char) : List Nat × List Char :=
  ((cs.takeWhile isDigit).map digitValue, cs.dropWhile isDigit)

/-- The number that digits write. -/
def digitsValue (digits : List Nat) : Nat := digits.foldl (fun n d => n * 10 + d) 0

/-- The digits before the point: a zero alone, or a run that starts with another digit. -/
def readWhole (cs : List Char) : Option (List Nat × List Char) :=
  match readDigits cs with
  | ([], _) => none
  | (0 :: _ :: _, _) => none
  | r => some r

/-- A point and the digits after it, if there is a point. -/
def readFraction : List Char → Option (List Nat × List Char)
  | '.' :: cs =>
    match readDigits cs with
    | ([], _) => none
    | r => some r
  | cs => some ([], cs)

/-- The sign and digits of an exponent. -/
def readSigned : List Char → Option (Int × List Char)
  | '-' :: cs =>
    match readDigits cs with
    | ([], _) => none
    | (ds, rest) => some (-(digitsValue ds : Int), rest)
  | '+' :: cs =>
    match readDigits cs with
    | ([], _) => none
    | (ds, rest) => some ((digitsValue ds : Int), rest)
  | cs =>
    match readDigits cs with
    | ([], _) => none
    | (ds, rest) => some ((digitsValue ds : Int), rest)

/-- An exponent, if there is one. -/
def readExponent : List Char → Option (Option Int × List Char)
  | 'e' :: cs => (readSigned cs).map (fun (e, rest) => (some e, rest))
  | 'E' :: cs => (readSigned cs).map (fun (e, rest) => (some e, rest))
  | cs => some (none, cs)

/-- A number as it is written, and what follows it. -/
def readNumeral (cs : List Char) : Option (Numeral × List Char) :=
  let (negative, cs) := match cs with
    | '-' :: cs => (true, cs)
    | cs => (false, cs)
  (readWhole cs).bind fun (whole, cs) =>
  (readFraction cs).bind fun (fraction, cs) =>
  (readExponent cs).map fun (exponent, cs) => (⟨negative, whole, fraction, exponent⟩, cs)

/-- Appends digits to a significand while it stays below `2 ^ 64`; returns also the digits left out. -/
def collect (significand : Nat) : List Nat → Nat × List Nat
  | [] => (significand, [])
  | d :: ds =>
    if significand * 10 + d < 2 ^ 64 then collect (significand * 10 + d) ds
    else (significand, d :: ds)

/-- The number written as an integer that does not fit 64 bits, or with a point or an exponent. The
significand is collected in 64 bits; each digit before the point that is left out counts as a power of
ten, digits after the point that are left out are dropped. -/
def Numeral.float? (n : Numeral) : Option Number.Binary64 :=
  let (significand, excess) := collect 0 n.whole
  let (significand, dropped) := collect significand n.fraction
  let exponent := (excess.length : Int) - ((n.fraction.length - dropped.length : Nat) : Int)
    + n.exponent.getD 0
  Number.Binary64.ofDecimal? n.negative significand exponent

/-- The value of a number: an integer where no point and no exponent is written and it fits, except for
a negative zero. Nothing for a number beyond the largest double. -/
def Numeral.value? (n : Numeral) : Option Json :=
  let magnitude := digitsValue n.whole
  if n.fraction = [] ∧ n.exponent = none then
    if n.negative then
      if magnitude ≠ 0 ∧ magnitude ≤ 2 ^ 63 then some (.int (-(magnitude : Int)))
      else n.float?.map .float
    else if magnitude < 2 ^ 64 then some (.int magnitude)
    else n.float?.map .float
  else n.float?.map .float

/-- A number and what follows it. -/
def readNumber (cs : List Char) : Option (Json × List Char) :=
  (readNumeral cs).bind fun (n, rest) => n.value?.map (·, rest)

/-! ## Values -/

/-- A value other than a list or an object. -/
def readScalar : List Char → Option (Json × List Char)
  | 'n' :: 'u' :: 'l' :: 'l' :: rest => some (.null, rest)
  | 't' :: 'r' :: 'u' :: 'e' :: rest => some (.bool true, rest)
  | 'f' :: 'a' :: 'l' :: 's' :: 'e' :: rest => some (.bool false, rest)
  | '"' :: rest => (readString rest).map (fun (s, rest) => (.str (String.ofList s), rest))
  | cs => readNumber cs

/-- One or more elements behind commas, up to a closing character. Every round takes a character off,
so the length of the text bounds the rounds. -/
def readElements {α : Type} (read : List Char → Option (α × List Char)) (close : Char) :
    Nat → List Char → Option (List α × List Char)
  | 0, _ => none
  | rounds + 1, cs =>
    (read (skipBlank cs)).bind fun (x, rest) =>
      match skipBlank rest with
      | [] => none
      | c :: rest =>
        if c = ',' then (readElements read close rounds rest).map (fun (xs, rest) => (x :: xs, rest))
        else if c = close then some ([x], rest)
        else none

/-- The elements behind an opening bracket: none, or a list of them. -/
def readSequence {α : Type} (read : List Char → Option (α × List Char)) (close : Char)
    (cs : List Char) : Option (List α × List Char) :=
  match skipBlank cs with
  | [] => none
  | c :: rest =>
    if c = close then some ([], rest) else readElements read close (c :: rest).length (c :: rest)

/-- A key, a colon and a value. -/
def readMember (read : List Char → Option (Json × List Char)) (cs : List Char) :
    Option ((String × Json) × List Char) :=
  match cs with
  | '"' :: rest =>
    (readString rest).bind fun (key, rest) =>
      match skipBlank rest with
      | ':' :: rest => (read (skipBlank rest)).map (fun (x, rest) => ((String.ofList key, x), rest))
      | _ => none
  | _ => none

/-- A value with at most so many levels of lists and objects, and what follows it. -/
def readValue : Nat → List Char → Option (Json × List Char)
  | 0, cs => readScalar cs
  | levels + 1, cs =>
    match cs with
    | '[' :: rest =>
      (readSequence (readValue levels) ']' rest).map (fun (xs, rest) => (.list xs, rest))
    | '{' :: rest =>
      (readSequence (readMember (readValue levels)) '}' rest).map
        (fun (ms, rest) => (ofMembers ms, rest))
    | cs => readScalar cs

/-- The levels of lists and objects that a text may have. -/
def maxDepth : Nat := 127

/-- The value that characters write, with blanks around it and nothing else. -/
def parseChars? (cs : List Char) : Option Json :=
  (readValue maxDepth (skipBlank cs)).bind fun (j, rest) =>
    if skipBlank rest = [] then some j else none

/-- The value that a text writes. -/
def parse? (text : String) : Option Json := parseChars? text.toList

end LanguageClient.Json
