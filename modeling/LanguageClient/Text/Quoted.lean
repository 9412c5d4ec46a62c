import LanguageClient.Text.Unprintable

/-!
# LanguageClient.Text.Quoted -- a text quoted for a reader

The form in which messages show a text: between quotes, with a backslash before a quote and a
backslash, letters for the usual controls, and the code of every character that cannot be seen.
-/

namespace LanguageClient.Text

/-- A character by its code in hexadecimal, without leading zeros. -/
def codeEscape (c : Char) : List Char :=
  ['\\', 'u', '\x7b'] ++ Nat.toDigits 16 c.toNat ++ ['\x7d']

/-- A character as it is shown between quotes. -/
def shownChar (c : Char) : List Char :=
  if c = '\x00' then ['\\', '0']
  else if c = '\t' then ['\\', 't']
  else if c = '\r' then ['\\', 'r']
  else if c = '\n' then ['\\', 'n']
  else if c = '\\' then ['\\', '\\']
  else if c = '"' then ['\\', '"']
  else if isUnprintable c then codeEscape c
  else [c]

/-- A text between quotes. -/
def shown (s : String) : String := String.ofList ('"' :: (s.toList.flatMap shownChar ++ ['"']))

end LanguageClient.Text
