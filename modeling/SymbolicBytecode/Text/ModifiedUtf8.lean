import SymbolicBytecode.Text.Utf16

/-!
# Modified UTF-8

Class files hold text as groups of one to three bytes, one group for each UTF-16 unit.
A zero byte and the four-byte forms never occur; longer forms of small units are accepted.
A failed reading names the offset of the first byte that cannot continue the text, or the
length of the whole when only the surrogates do not pair up.
-/

namespace SymbolicBytecode.Text.ModifiedUtf8

/-- The six payload bits of a continuation byte. -/
def continuation? (b : UInt8) : Option UInt16 :=
  if b &&& 0xc0 = 0x80 then some (b &&& 0x3f).toUInt16 else none

/-- The units of a byte string that starts at the given offset. -/
def units (offset : Nat) : List UInt8 → Except Nat (List UInt16)
  | [] => .ok []
  | x :: rest =>
    if x = 0 ∨ 0xf0 ≤ x then .error offset
    else if x &&& 0x80 = 0 then do
      let tail ← units (offset + 1) rest
      return x.toUInt16 :: tail
    else if x &&& 0xe0 = 0xc0 then
      match rest with
      | [] => .error (offset + 1)
      | y :: rest =>
        match continuation? y with
        | none => .error (offset + 1)
        | some y => do
          let tail ← units (offset + 2) rest
          return ((x &&& 0x1f).toUInt16 <<< 6 ||| y) :: tail
    else if x &&& 0xf0 = 0xe0 then
      match rest with
      | [] => .error (offset + 1)
      | y :: rest =>
        match continuation? y with
        | none => .error (offset + 1)
        | some y =>
          match rest with
          | [] => .error (offset + 2)
          | z :: rest =>
            match continuation? z with
            | none => .error (offset + 2)
            | some z => do
              let tail ← units (offset + 3) rest
              return ((x &&& 0x0f).toUInt16 <<< 12 ||| y <<< 6 ||| z) :: tail
    else .error offset

/-- The text of a byte string, or the offset at which it stops being modified UTF-8. -/
def decode (bytes : List UInt8) : Except Nat String := do
  let found ← units 0 bytes
  match Utf16.decode found with
  | some chars => return String.ofList chars
  | none => throw bytes.length

end SymbolicBytecode.Text.ModifiedUtf8
