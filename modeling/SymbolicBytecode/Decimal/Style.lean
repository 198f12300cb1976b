import SymbolicBytecode.Decimal.Shortest

/-!
# Decimal notation

How the digits of a number are laid out. Two styles are in use: values print in `plain` style,
always positional and without a fraction when there is none; dumps print in `marked` style, which
keeps a fraction of `.0` and changes to a power of ten outside of 10^-4 to 10^16.
-/

namespace SymbolicBytecode.Decimal

structure Style where
  /-- Leading exponents that are written positionally; `none` for all of them. -/
  positional : Option (Int × Int)
  /-- Whether an integral value gets the fraction `.0`. -/
  markIntegral : Bool
  deriving Repr

def plain : Style := ⟨none, false⟩

def marked : Style := ⟨some (-4, 15), true⟩

def zeros (n : Nat) : List Char := List.replicate n '0'

/-- The digits with the point after the first `point` of them, zeros filled in at either end. -/
def positionalText (style : Style) (digits : List Char) (point : Int) : List Char :=
  if point ≤ 0 then '0' :: '.' :: zeros (-point).toNat ++ digits
  else if digits.length ≤ point.toNat then
    digits ++ zeros (point.toNat - digits.length) ++ (if style.markIntegral then ['.', '0'] else [])
  else digits.take point.toNat ++ '.' :: digits.drop point.toNat

def scientificText (digits : List Char) (exponent : Int) : List Char :=
  let fraction := digits.drop 1
  digits.take 1 ++ (if fraction.isEmpty then [] else '.' :: fraction) ++
    'e' :: (toString exponent).toList

def Style.writesPositionally (style : Style) (exponent : Int) : Bool :=
  match style.positional with
  | none => true
  | some (first, last) => first ≤ exponent && exponent ≤ last

/-- The text of a magnitude m · 2^q. -/
def Style.magnitude (style : Style) (m : Nat) (q : Int) (narrow : Bool) : String :=
  if m = 0 then (if style.markIntegral then "0.0" else "0")
  else
    let (d, e) := shortest m q narrow
    let all := Nat.toDigits 10 d
    let digits := (all.reverse.dropWhile (· = '0')).reverse
    let point := e + all.length
    String.ofList <|
      if style.writesPositionally (point - 1) then positionalText style digits point
      else scientificText digits (point - 1)

def Style.text (style : Style) : Datum → String
  | .nan => "NaN"
  | .infinite negative => if negative then "-inf" else "inf"
  | .finite negative m q narrow => (if negative then "-" else "") ++ style.magnitude m q narrow

end SymbolicBytecode.Decimal
