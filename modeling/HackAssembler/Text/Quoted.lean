import HackAssembler.Text.Printable

/-! # Quoted text

A text between double quotes. The quote, the backslash and the usual control characters are written
with a backslash, and every other character that is not printable by its hexadecimal number in
braces.
-/

namespace HackAssembler.Text

def numbered (c : Char) : List Char :=
  ['\\', 'u', '{'] ++ Nat.toDigits 16 c.toNat ++ ['}']

def quotedChar (c : Char) : List Char :=
  match c with
  | '\x00' => ['\\', '0']
  | '\t' => ['\\', 't']
  | '\n' => ['\\', 'n']
  | '\r' => ['\\', 'r']
  | '"' => ['\\', '"']
  | '\\' => ['\\', '\\']
  | c => if isPrintable c then [c] else numbered c

def quoted (text : String) : String :=
  String.ofList (['"'] ++ text.toList.flatMap quotedChar ++ ['"'])

end HackAssembler.Text
