import SymbolicBytecode.Text.Numeral
import SymbolicBytecode.Text.Visible

/-!
# Quoted text

Text in messages and dumps stands between double quotes. A quote and a backslash get a
backslash in front; the line and tab controls and the null character have their usual letter;
every other character without a glyph of its own is written by its number in braces.
-/

namespace SymbolicBytecode.Text

def quotedChar (c : Char) : String :=
  match c with
  | '"' => "\\\""
  | '\\' => "\\\\"
  | '\n' => "\\n"
  | '\r' => "\\r"
  | '\t' => "\\t"
  | '\x00' => "\\0"
  | c => if isVisible c then c.toString else "\\u\x7b" ++ hexDigits c.toNat ++ "\x7d"

def quoted (text : String) : String :=
  "\"" ++ String.join (text.toList.map quotedChar) ++ "\""

end SymbolicBytecode.Text
