/-!
# LanguageClient.Text.Utf8 -- bytes and text

Text travels as UTF-8. `Text.bytes` and `Text.ofBytes?` are the two directions; `Text.faultOf?` finds
the place where a byte list stops being UTF-8: the first character that the input cannot hold, with
the number of bytes that belong to the faulty sequence, or the character that the input breaks off in.
-/

namespace LanguageClient.Text

/-- The bytes of a text. -/
def bytes (s : String) : List UInt8 := s.toUTF8.toList

/-- The text of bytes, if they are UTF-8. -/
def ofBytes? (bs : List UInt8) : Option String := String.fromUTF8? ⟨bs.toArray⟩

/-- Where and how bytes stop being UTF-8. -/
inductive Utf8Fault where
  /-- `length` bytes from `index` on are no character and start none. -/
  | invalid (length index : Nat)
  /-- The input ends within the character that starts at `index`. -/
  | incomplete (index : Nat)
  deriving DecidableEq

/-- The ranges that the bytes after a first byte must be in; `none` for a byte that starts nothing. -/
def continuations? (b : UInt8) : Option (List (UInt8 × UInt8)) :=
  let any : UInt8 × UInt8 := (0x80, 0xBF)
  if b < 0x80 then some []
  else if 0xC2 ≤ b ∧ b ≤ 0xDF then some [any]
  else if b = 0xE0 then some [(0xA0, 0xBF), any]
  else if b = 0xED then some [(0x80, 0x9F), any]
  else if 0xE1 ≤ b ∧ b ≤ 0xEF then some [any, any]
  else if b = 0xF0 then some [(0x90, 0xBF), any, any]
  else if 0xF1 ≤ b ∧ b ≤ 0xF3 then some [any, any, any]
  else if b = 0xF4 then some [(0x80, 0x8F), any, any]
  else none

/-- The fault in the bytes from `index` on, within a character that starts at `start` and still owes a
byte for each range. -/
def faultFrom? (index start : Nat) (owed : List (UInt8 × UInt8)) : List UInt8 → Option Utf8Fault
  | [] => if owed.isEmpty then none else some (.incomplete start)
  | b :: bs =>
    match owed with
    | [] =>
      match continuations? b with
      | none => some (.invalid 1 index)
      | some owed => faultFrom? (index + 1) index owed bs
    | (low, high) :: owed =>
      if low ≤ b ∧ b ≤ high then faultFrom? (index + 1) start owed bs
      else some (.invalid (index - start) start)

/-- The first fault in a byte list; none exactly for UTF-8. -/
def faultOf? (bs : List UInt8) : Option Utf8Fault := faultFrom? 0 0 [] bs

/-- The wording of a fault. -/
def Utf8Fault.message : Utf8Fault → String
  | .invalid length index => s!"invalid utf-8 sequence of {length} bytes from index {index}"
  | .incomplete index => s!"incomplete utf-8 byte sequence from index {index}"

end LanguageClient.Text
