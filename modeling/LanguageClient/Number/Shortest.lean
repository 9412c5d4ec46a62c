import LanguageClient.Number.Rounding

/-!
# LanguageClient.Number.Shortest -- the fewest digits that read back

A finite double is written with the fewest decimal digits from which it is read back, and among those
with the ones nearest to it. The search is by digit count: on the decimal grid of that many digits the
two neighbours of the value are tried, and the first grid with a hit wins. Reading back is rounding to
the nearest code, so nothing but `Format.nearest` is needed to decide a hit.
-/

namespace LanguageClient.Number

/-- Decimal digits without a leading zero, and the place of the point: the value is
`0.digits * 10 ^ point`. -/
structure Decimal where
  digits : List Char
  point : Int
  deriving DecidableEq

namespace Shortest

/-- The `k` with `10 ^ (k - 1) ≤ units / 2 ^ scale < 10 ^ k`, for a positive magnitude. -/
def magnitude (units : Nat) : Int :=
  let one := 2 ^ Format.double.scale
  let whole := units / one
  if 0 < whole then (Nat.toDigits 10 whole).length
  else
    let inverse := one / units
    let j := (Nat.toDigits 10 inverse).length
    if one ≤ 10 ^ (j - 1) * units then 1 - ((j - 1 : Nat) : Int) else 1 - (j : Int)

/-- `digit * 10 ^ unit` as a quotient. -/
def gridPoint (digit : Nat) (unit : Int) : Nat × Nat :=
  match unit with
  | .ofNat e => (digit * 10 ^ e, 1)
  | .negSucc e => (digit, 10 ^ (e + 1))

/-- Whether a point of the grid is read back as `code`. -/
def readsBack (code digit : Nat) (unit : Int) : Bool :=
  let (num, den) := gridPoint digit unit
  Format.double.nearest num den == code

/-- The value counted in `10 ^ unit`, as a quotient. -/
def scaled (units : Nat) (unit : Int) : Nat × Nat :=
  match unit with
  | .ofNat e => (units, 2 ^ Format.double.scale * 10 ^ e)
  | .negSucc e => (units * 10 ^ (e + 1), 2 ^ Format.double.scale)

/-- The neighbour on the grid of step `10 ^ unit` that is read back as `code`: the nearer one if both
are, the even one if both are as near. -/
def onGrid? (code units : Nat) (unit : Int) : Option Nat :=
  let (num, den) := scaled units unit
  let low := num / den
  match readsBack code low unit, readsBack code (low + 1) unit with
  | true, true => some (divHalfEven num den)
  | true, false => some low
  | false, true => some (low + 1)
  | false, false => none

/-- The first digit count from `count` on whose grid has a hit, tried at most `fuel` times: the point
of the grid and the exponent of its step. -/
def search (code units : Nat) (k : Int) : Nat → Nat → Nat × Int
  | 0, count => (divHalfEven (scaled units (k - count)).1 (scaled units (k - count)).2, k - count)
  | fuel + 1, count =>
    match onGrid? code units (k - count) with
    | some digit => (digit, k - count)
    | none => search code units k fuel (count + 1)

end Shortest

/-- Drops the zeros at the end of a digit list. -/
def dropTrailingZeros (digits : List Char) : List Char :=
  (digits.reverse.dropWhile (· == '0')).reverse

/-- The shortest decimal of a positive magnitude. Seventeen digits always suffice. -/
def shortest (code : Nat) : Decimal :=
  let units := Format.double.units code
  let (digit, unit) := Shortest.search code units (Shortest.magnitude units) 16 1
  let digits := Nat.toDigits 10 digit
  ⟨dropTrailingZeros digits, unit + digits.length⟩

/-! ## Text -/

/-- The text of a positive magnitude: positional from `1e-5` up to `1e16`, with at least one digit
after the point; otherwise one digit before the point and a signed exponent. -/
def Decimal.text (d : Decimal) : List Char :=
  if -4 ≤ d.point ∧ d.point ≤ 16 then
    if d.point ≤ 0 then
      ['0', '.'] ++ List.replicate (-d.point).toNat '0' ++ d.digits
    else if d.digits.length ≤ d.point.toNat then
      d.digits ++ List.replicate (d.point.toNat - d.digits.length) '0' ++ ['.', '0']
    else
      d.digits.take d.point.toNat ++ '.' :: d.digits.drop d.point.toNat
  else
    let exponent := d.point - 1
    let sign := if exponent < 0 then '-' else '+'
    let fraction := match d.digits.drop 1 with
      | [] => []
      | rest => '.' :: rest
    d.digits.take 1 ++ fraction ++ 'e' :: sign :: Nat.toDigits 10 exponent.natAbs

/-- The text of a double. It always shows that the number is no integer: by a point or an exponent. -/
def Binary64.text (x : Binary64) : List Char :=
  let magnitude := if x.code = 0 then ['0', '.', '0'] else (shortest x.code).text
  if x.negative then '-' :: magnitude else magnitude

end LanguageClient.Number
