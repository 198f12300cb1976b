/-!
# UTF-16 code units

A character beyond U+FFFF is a pair of surrogate units; every other character is one unit.
`decode` accepts exactly the unit sequences in which surrogates come in such pairs.
-/

namespace SymbolicBytecode.Text.Utf16

def isHighSurrogate (u : UInt16) : Bool := 0xd800 ≤ u && u < 0xdc00

def isLowSurrogate (u : UInt16) : Bool := 0xdc00 ≤ u && u < 0xe000

/-- The character of a surrogate pair. -/
def joinSurrogates (high low : UInt16) : Char :=
  Char.ofNat (0x10000 + (high.toNat - 0xd800) * 0x400 + (low.toNat - 0xdc00))

def decode : List UInt16 → Option (List Char)
  | [] => some []
  | u :: rest =>
    if isHighSurrogate u then
      match rest with
      | v :: rest => if isLowSurrogate v then (decode rest).map (joinSurrogates u v :: ·) else none
      | [] => none
    else if isLowSurrogate u then none
    else (decode rest).map (Char.ofNat u.toNat :: ·)

def encodeChar (c : Char) : List UInt16 :=
  let n := c.toNat
  if n < 0x10000 then [n.toUInt16]
  else [(0xd800 + (n - 0x10000) / 0x400).toUInt16, (0xdc00 + (n - 0x10000) % 0x400).toUInt16]

def encode (text : String) : List UInt16 := text.toList.flatMap encodeChar

end SymbolicBytecode.Text.Utf16
