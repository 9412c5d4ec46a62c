/-!
# LanguageClient.Number.Rounding -- quotients rounded to the nearest, in binary formats

Everything here is exact arithmetic on natural numbers. A binary interchange format numbers its
non-negative values upwards from zero; the number of a value is its **code**. All values of a format
are whole multiples of its smallest positive one, and `Format.units` says which multiple a code
stands for. `Format.nearest` goes the other way: it rounds a quotient to the code of the nearest
value, a half going to the even code.
-/

-- a power of a natural number or an integer is that of the core library, also where Mathlib knows of another
attribute [instance (20000), default_instance (20000)] instPowNat

namespace LanguageClient.Number

/-- `num / den` rounded to the nearest natural number; a half goes to the even neighbour. -/
def divHalfEven (num den : Nat) : Nat :=
  let q := num / den
  let r := num % den
  if 2 * r < den then q
  else if den < 2 * r then q + 1
  else q + q % 2

/-- The shape of a binary interchange format. -/
structure Format where
  /-- Stored bits of the significand. -/
  fraction : Nat
  /-- The smallest positive value is `2 ^ -scale`. -/
  scale : Nat
  /-- Codes from here on are out of range. -/
  limit : Nat

namespace Format

/-- Double precision. -/
def double : Format := ⟨52, 1074, 2047 * 2 ^ 52⟩

/-- Single precision. -/
def single : Format := ⟨23, 149, 255 * 2 ^ 23⟩

/-- The value of a code, counted in the format's smallest positive value. -/
def units (f : Format) (code : Nat) : Nat :=
  let exponent := code / 2 ^ f.fraction
  let significand := code % 2 ^ f.fraction
  if exponent = 0 then significand
  else (2 ^ f.fraction + significand) * 2 ^ (exponent - 1)

/-- The code of the value nearest to `num / den`, as if the exponent had no upper end. A carry out
of the significand lands in the exponent, which is the code of the next binade's first value. -/
def nearest (f : Format) (num den : Nat) : Nat :=
  let scaled := num * 2 ^ f.scale
  let shift := (scaled / den).log2 - f.fraction
  shift * 2 ^ f.fraction + divHalfEven scaled (den * 2 ^ shift)

end Format

/-! ## Finite doubles -/

/-- A finite double: a sign and the code of its magnitude. Zero has two signs. -/
structure Binary64 where
  negative : Bool
  code : Nat
  finite : code < Format.double.limit
  deriving DecidableEq

namespace Binary64

/-- The double with a sign and the code of a magnitude, if the code is in range. -/
def ofCode? (negative : Bool) (code : Nat) : Option Binary64 :=
  if h : code < Format.double.limit then some ⟨negative, code, h⟩ else none

/-- The double nearest to `num / den` with a sign, unless it is too large. -/
def ofRatio? (negative : Bool) (num den : Nat) : Option Binary64 :=
  ofCode? negative (Format.double.nearest num den)

/-- The magnitude counted in `2 ^ -1074`. -/
def units (x : Binary64) : Nat := Format.double.units x.code

/-- Rounds through single precision: the nearest single, widened again. `none` where the magnitude is
beyond every single. -/
def narrow? (negative : Bool) (num den : Nat) : Option Binary64 :=
  let code := Format.single.nearest num den
  if code < Format.single.limit then
    ofRatio? negative (Format.single.units code) (2 ^ Format.single.scale)
  else none

end Binary64

/-! ## Decimal text to a double -/

/-- Divides the magnitude of code `code` by `10 ^ power`, rounding each division: powers beyond the
largest one in range are taken off in steps of `10 ^ 308`. -/
def divPower (code power : Nat) : Nat :=
  if power ≤ 308 then
    Format.double.nearest (Format.double.units code)
      (Format.double.units (Format.double.nearest (10 ^ power) 1))
  else if code = 0 then 0
  else
    divPower
      (Format.double.nearest (Format.double.units code)
        (Format.double.units (Format.double.nearest (10 ^ 308) 1)))
      (power - 308)
termination_by power

/-- Multiplies the magnitude of code `code` by `10 ^ power`, rounding once. `none` for a power beyond
the largest one in range, unless the magnitude is zero. -/
def mulPower? (code power : Nat) : Option Nat :=
  if power ≤ 308 then
    some (Format.double.nearest
      (Format.double.units code * Format.double.units (Format.double.nearest (10 ^ power) 1))
      (2 ^ (2 * Format.double.scale)))
  else if code = 0 then some 0
  else none

/-- A significand times a power of ten, as the format's own arithmetic gives it: the significand is
rounded to a double, the power of ten is rounded to a double, and their product or quotient is
rounded. The result may differ from the nearest double in its last digits. `none` where the result is
too large. -/
def Binary64.ofDecimal? (negative : Bool) (significand : Nat) (exponent : Int) : Option Binary64 :=
  let code := Format.double.nearest significand 1
  match exponent with
  | .ofNat power => (mulPower? code power).bind (Binary64.ofCode? negative)
  | .negSucc power => Binary64.ofCode? negative (divPower code (power + 1))

end LanguageClient.Number
