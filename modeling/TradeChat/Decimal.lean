namespace TradeChat.Decimal

/-- The number `mantissa * 2 ^ up / 2 ^ down`. -/
structure Binary where
  mantissa : Nat
  up : Nat
  down : Nat
deriving DecidableEq, Repr

namespace Binary

def num (x : Binary) : Nat := x.mantissa * Nat.pow 2 x.up

def den (x : Binary) : Nat := Nat.pow 2 x.down

end Binary

/-- The whole number nearest to `num / den`; a half goes to the even neighbour. -/
def roundEven (num den : Nat) : Nat :=
  let q := num / den
  let r := num % den
  if 2 * r < den then q
  else if den < 2 * r then q + 1
  else q + q % 2

/-- Numbers of bits by which to shift `num / den` so that its whole part has 53 bits: to the
right, and to the left. -/
def shift (num den : Nat) : Nat × Nat :=
  let right := num.log2 - (den.log2 + 52)
  let left := den.log2 + 52 - num.log2
  if num * Nat.pow 2 left / (den * Nat.pow 2 right) < Nat.pow 2 52 then
    if right = 0 then (0, left + 1) else (right - 1, left)
  else (right, left)

/-- A mantissa that was rounded up to 54 bits is halved. -/
def Binary.normal (x : Binary) : Binary :=
  if x.mantissa < Nat.pow 2 53 then x
  else if x.down = 0 then ⟨x.mantissa / 2, x.up + 1, 0⟩
  else ⟨x.mantissa / 2, x.up, x.down - 1⟩

/-- The binary fraction of 53 bits nearest to `num / den`; a half goes to the even mantissa. -/
def nearest (num den : Nat) : Binary :=
  let (up, down) := shift num den
  Binary.normal ⟨roundEven (num * Nat.pow 2 down) (den * Nat.pow 2 up), up, down⟩

/-- The numbers that round to a binary fraction, as numerators over one denominator. Both ends
belong to it if the mantissa is even. -/
structure Interval where
  low : Nat
  value : Nat
  high : Nat
  den : Nat
  closed : Bool

/-- Half the way to the neighbours on either side; below a power of two the neighbour is twice
as near. -/
def interval (x : Binary) : Interval :=
  let unit := Nat.pow 2 x.up
  { low := (4 * x.mantissa - if x.mantissa = Nat.pow 2 52 then 1 else 2) * unit
    value := 4 * x.mantissa * unit
    high := (4 * x.mantissa + 2) * unit
    den := 4 * Nat.pow 2 x.down
    closed := x.mantissa % 2 = 0 }

/-- The number `digits * 10 ^ zeros / 10 ^ places`, where one of the two exponents is zero. -/
structure Numeral where
  digits : Nat
  zeros : Nat
  places : Nat
deriving DecidableEq, Repr

namespace Numeral

def num (d : Numeral) : Nat := d.digits * Nat.pow 10 d.zeros

def den (d : Numeral) : Nat := Nat.pow 10 d.places

def readsBackIn (d : Numeral) (i : Interval) : Bool :=
  if i.closed then i.low * d.den ≤ d.num * i.den && d.num * i.den ≤ i.high * d.den
  else i.low * d.den < d.num * i.den && d.num * i.den < i.high * d.den

/-- The distance from the value of an interval, over the denominator `d.den * i.den`. -/
def distance (d : Numeral) (i : Interval) : Nat :=
  (d.num * i.den - i.value * d.den) + (i.value * d.den - d.num * i.den)

/-- Without an exponent, and without a point if there are no places. -/
def text (d : Numeral) : String :=
  let digits := toString (d.digits * Nat.pow 10 d.zeros)
  if d.places = 0 then digits
  else
    let whole := toString (d.digits / Nat.pow 10 d.places)
    let fraction := toString (d.digits % Nat.pow 10 d.places)
    whole ++ "." ++ String.ofList (List.replicate (d.places - fraction.length) '0') ++ fraction

end Numeral

/-- The two neighbours of a value on the grid of decimals with these exponents. -/
def neighbours (i : Interval) (zeros places : Nat) : Numeral × Numeral :=
  let digits := i.value * Nat.pow 10 places / (i.den * Nat.pow 10 zeros)
  (⟨digits, zeros, places⟩, ⟨digits + 1, zeros, places⟩)

/-- The neighbour on a grid that reads back: the nearer of two, and the upper one of a tie. -/
def onGrid? (i : Interval) (zeros places : Nat) : Option Numeral :=
  let (below, above) := neighbours i zeros places
  if below.readsBackIn i then
    if above.readsBackIn i && above.distance i ≤ below.distance i then some above else some below
  else if above.readsBackIn i then some above
  else none

/-- Grids from coarse to fine, `count` of them, each with one more digit than the one before;
`zeros` counts down to the grid of whole numbers, then `places` counts up. -/
def search (i : Interval) : Nat → Nat → Nat → Option Numeral
  | 0, _, _ => none
  | count + 1, zeros, places =>
    match onGrid? i zeros places with
    | some d => some d
    | none =>
      match zeros with
      | 0 => search i count 0 (places + 1)
      | zeros + 1 => search i count zeros places

/-- The number of digits of a whole number. -/
def width (n : Nat) : Nat := (Nat.toDigits 10 n).length

/-- The fewest digits that read back, at most seventeen, for a number of at least one. -/
def shortest (x : Binary) : Option Numeral :=
  let i := interval x
  search i 17 (width (i.value / i.den) - 1) 0

/-- A whole number in thousands: the number and the quotient are each rounded to 53 bits. -/
def thousands (n : Nat) : String :=
  let whole := nearest n 1
  let quotient := nearest whole.num (whole.den * 1000)
  match shortest quotient with
  | some d => d.text
  | none => toString (n / 1000)

end TradeChat.Decimal
