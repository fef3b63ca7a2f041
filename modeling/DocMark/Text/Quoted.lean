import DocMark.Text.Printable

/-!
# Quoted texts

A text that is shown inside a message stands between double quotes.  Quotes and backslashes get a
backslash, the usual controls have letters, and what cannot be shown as itself is written as its
code point in hexadecimal.
-/

namespace DocMark.Text

/-- One character of a quoted text. -/
def escapeChar (c : Char) : List Char :=
  match c with
  | '\x00' => ['\\', '0']
  | '\t' => ['\\', 't']
  | '\n' => ['\\', 'n']
  | '\r' => ['\\', 'r']
  | '"' => ['\\', '"']
  | '\\' => ['\\', '\\']
  | _ => if isPrintable c then [c] else "\\u\x7b".toList ++ Nat.toDigits 16 c.toNat ++ ['}']

/-- The text between double quotes. -/
def quoted (s : String) : String := String.ofList (['"'] ++ s.toList.flatMap escapeChar ++ ['"'])

end DocMark.Text
