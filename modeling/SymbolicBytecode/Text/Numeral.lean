/-!
# Numerals

Numbers written with digits in a base of at most sixteen. Letters serve as the digits from ten on;
upper and lower case are read, lower case is written.
-/

namespace SymbolicBytecode.Text

def digitValue? (c : Char) : Option Nat :=
  if '0' ≤ c ∧ c ≤ '9' then some (c.toNat - '0'.toNat)
  else if 'a' ≤ c ∧ c ≤ 'f' then some (c.toNat - 'a'.toNat + 10)
  else if 'A' ≤ c ∧ c ≤ 'F' then some (c.toNat - 'A'.toNat + 10)
  else none

/-- The number that the digits of a base stand for; there has to be a digit. -/
def numeral? (base : Nat) (digits : List Char) : Option Nat :=
  if digits = [] then none
  else
    digits.foldlM
      (fun value c => do
        let digit ← digitValue? c
        if digit < base then some (base * value + digit) else none)
      0

/-- Hexadecimal digits, without leading zeros. -/
def hexDigits (n : Nat) : String := String.ofList (Nat.toDigits 16 n)

/-- Hexadecimal digits, filled up with zeros to the given width. -/
def hexPadded (width n : Nat) : String :=
  String.ofList ((Nat.toDigits 16 n).leftpad width '0')

end SymbolicBytecode.Text
