import LanguageClient.Json.Basic
import LanguageClient.Number.Shortest

/-!
# LanguageClient.Json.Printer -- the compact text of a JSON value

No blanks; members in key order; in strings only the quote, the backslash and the characters below
U+0020 are escaped, five of them by a letter.
-/

namespace LanguageClient.Json

/-- A lower-case hexadecimal digit. -/
def hexDigit (n : Nat) : Char :=
  if n < 10 then Char.ofNat ('0'.toNat + n) else Char.ofNat ('a'.toNat + (n - 10))

/-- A character as it stands in a string. -/
def escapeChar (c : Char) : List Char :=
  if c = '"' then ['\\', '"']
  else if c = '\\' then ['\\', '\\']
  else if c = '\x08' then ['\\', 'b']
  else if c = '\x0c' then ['\\', 'f']
  else if c = '\n' then ['\\', 'n']
  else if c = '\r' then ['\\', 'r']
  else if c = '\t' then ['\\', 't']
  else if c.toNat < 0x20 then ['\\', 'u', '0', '0', hexDigit (c.toNat / 16), hexDigit (c.toNat % 16)]
  else [c]

/-- A string between quotes. -/
def quoted (s : String) : List Char :=
  '"' :: (s.toList.flatMap escapeChar ++ ['"'])

/-- An integer in decimal. -/
def intChars (n : Int) : List Char :=
  if n < 0 then '-' :: Nat.toDigits 10 n.natAbs else Nat.toDigits 10 n.natAbs

mutual

/-- The characters of a value. -/
def chars : Json → List Char
  | .null => "null".toList
  | .bool true => "true".toList
  | .bool false => "false".toList
  | .int n => intChars n
  | .float x => x.text
  | .str s => quoted s
  | .list [] => ['[', ']']
  | .list (x :: xs) => '[' :: (chars x ++ charsItems xs)
  | .object [] => ['{', '}']
  | .object ((k, x) :: rest) => '{' :: (quoted k ++ ':' :: (chars x ++ charsMembers rest))

/-- The items after the first, each behind a comma, and the closing bracket. -/
def charsItems : List Json → List Char
  | [] => [']']
  | x :: xs => ',' :: (chars x ++ charsItems xs)

/-- The members after the first, each behind a comma, and the closing brace. -/
def charsMembers : List (String × Json) → List Char
  | [] => ['}']
  | (k, x) :: rest => ',' :: (quoted k ++ ':' :: (chars x ++ charsMembers rest))

end

/-- The text of a value. -/
def render (j : Json) : String := String.ofList j.chars

end LanguageClient.Json
