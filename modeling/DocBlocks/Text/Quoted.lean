import DocBlocks.Text.Basic
import DocBlocks.Text.Unprintable

/-!
# Quoted Text

Where a message has to show a text whose end must be visible, it shows the text between
double quotes. A quote and a backslash inside it are written after a backslash, the four
controls that have a letter of their own are written with that letter, and every other
character that is not shown as itself is written by its code point, in lower-case
hexadecimal digits between braces.
-/

namespace DocBlocks.Text

/-- How one character is written between double quotes. -/
def quoteChar (c : Char) : Text :=
  match c with
  | '"' => ['\\', '"']
  | '\\' => ['\\', '\\']
  | '\x00' => ['\\', '0']
  | '\t' => ['\\', 't']
  | '\n' => ['\\', 'n']
  | '\r' => ['\\', 'r']
  | c =>
    if isUnprintable c then ['\\', 'u', '{'] ++ Nat.toDigits 16 c.toNat ++ ['}'] else [c]

/-- A text between double quotes. -/
def quoted (s : Text) : Text := '"' :: s.flatMap quoteChar ++ ['"']

end DocBlocks.Text
