/-!
# The fewest digits that read back

A finite binary number stands for every real that rounds to it. `shortest` picks, among the
decimals in that interval with the fewest significant digits, the one nearest to the number;
of two equally near ones it takes the larger. All comparisons are made in exact integers.
-/

namespace SymbolicBytecode.Decimal

/-- Widths of the fields of a binary interchange format. -/
structure BinaryFormat where
  fractionBits : Nat
  exponentBits : Nat
  deriving DecidableEq, Repr

def single : BinaryFormat := ⟨23, 8⟩

def double : BinaryFormat := ⟨52, 11⟩

/-- What a bit pattern stands for: `finite n m q narrow` is m · 2^q, negated if `n` is set.
`narrow` says that the next smaller magnitude is only half as far away as the next larger one. -/
inductive Datum where
  | nan
  | infinite (negative : Bool)
  | finite (negative : Bool) (significand : Nat) (exponent : Int) (narrow : Bool)
  deriving DecidableEq, Repr

def BinaryFormat.decode (format : BinaryFormat) (bits : Nat) : Datum :=
  let fraction := bits % Nat.pow 2 format.fractionBits
  let field := bits / Nat.pow 2 format.fractionBits % Nat.pow 2 format.exponentBits
  let negative := bits / Nat.pow 2 (format.fractionBits + format.exponentBits) % 2 = 1
  let bias : Int := Nat.pow 2 (format.exponentBits - 1) - 1 + format.fractionBits
  if field = Nat.pow 2 format.exponentBits - 1 then
    if fraction = 0 then .infinite negative else .nan
  else if field = 0 then .finite negative fraction (1 - bias) false
  else
    .finite negative (Nat.pow 2 format.fractionBits + fraction) (field - bias)
      (fraction = 0 && 1 < field)

/-- A positive ratio of integers. -/
structure Ratio where
  num : Nat
  den : Nat
  deriving Repr

/-- The number m · 2^q · 10^s as a ratio. -/
def Ratio.scaled (m : Nat) (q s : Int) : Ratio :=
  ⟨m * Nat.pow 2 q.toNat * Nat.pow 10 s.toNat, Nat.pow 2 (-q).toNat * Nat.pow 10 (-s).toNat⟩

def Ratio.floor (r : Ratio) : Nat := r.num / r.den

/-- The number of decimal places to shift m · 2^q to the left until it is at least one,
for a number below one. -/
def leadingShift (m : Nat) (q : Int) : Nat → Nat → Nat
  | 0, shift => shift
  | fuel + 1, shift =>
    if 0 < (Ratio.scaled m q shift).floor then shift else leadingShift m q fuel (shift + 1)

/-- The k with 10^k ≤ m · 2^q < 10^(k+1). -/
def leadingExponent (m : Nat) (q : Int) : Int :=
  let whole := (Ratio.scaled m q 0).floor
  if 0 < whole then (Nat.toDigits 10 whole).length - 1
  else -(leadingShift m q (-q).toNat 1 : Int)

/-- The multiples of 10^e next to the number, if they round to it; of two the nearer. All
quantities are counted in quarters of the number's last binary place. -/
def onGrid (m : Nat) (q : Int) (narrow : Bool) (e : Int) : Option Nat :=
  let value := Ratio.scaled (4 * m) (q - 2) (-e)
  let low := Ratio.scaled (4 * m - if narrow then 1 else 2) (q - 2) (-e)
  let high := Ratio.scaled (4 * m + 2) (q - 2) (-e)
  let rounds (d : Nat) : Bool :=
    if m % 2 = 0 then low.num ≤ d * low.den && d * high.den ≤ high.num
    else low.num < d * low.den && d * high.den < high.num
  let below := value.floor
  let above := below + 1
  -- twice the distance to the lower neighbour, against one step of the grid
  let nearerAbove : Bool := value.den ≤ 2 * (value.num - below * value.den)
  match rounds below, rounds above with
  | true, true => some (if nearerAbove then above else below)
  | true, false => some below
  | false, true => some above
  | false, false => none

/-- Seventeen digits tell any two numbers of either format apart. -/
def mostDigits : Nat := 17

/-- Digits `d` and exponent `e` of the shortest decimal d · 10^e for m · 2^q, with `0 < m`. -/
def shortest (m : Nat) (q : Int) (narrow : Bool) : Nat × Int :=
  let lead := leadingExponent m q
  let found := (List.range mostDigits).findSome? fun (n : Nat) =>
    let e := lead - n
    (onGrid m q narrow e).map (·, e)
  found.getD ((Ratio.scaled m q (mostDigits - 1 - lead)).floor, lead - (mostDigits - 1))

end SymbolicBytecode.Decimal
