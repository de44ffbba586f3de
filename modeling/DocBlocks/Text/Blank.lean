import DocBlocks.Text.Basic

/-!
# Blanks

A blank is a character with the Unicode property `White_Space`. There are twenty-five of
them; the zero-width space, the byte order mark and the information separators are not
among them.

Trimming removes blanks at the ends of a text. `words` reads a text as words with blanks
between them, whatever their number and kind.
-/

namespace DocBlocks.Text

/-- Whether a character is a blank. -/
def isBlank (c : Char) : Bool :=
  let n := c.toNat
  (0x09 ≤ n && n ≤ 0x0D) || n == 0x20 || n == 0x85 || n == 0xA0 || n == 0x1680 ||
    (0x2000 ≤ n && n ≤ 0x200A) || n == 0x2028 || n == 0x2029 || n == 0x202F ||
    n == 0x205F || n == 0x3000

/-- Removes the longest run of accepted elements at the end. -/
def dropEndWhile {α : Type} (p : α → Bool) (s : List α) : List α :=
  (s.reverse.dropWhile p).reverse

/-- The text without the blanks it starts with. -/
def trimStart (s : Text) : Text := s.dropWhile isBlank

/-- The text without the blanks it ends with. -/
def trimEnd (s : Text) : Text := dropEndWhile isBlank s

/-- The text without the blanks at either end. -/
def trim (s : Text) : Text := trimEnd (trimStart s)

/-- Whether a text has a first character, and that character is a blank. -/
def startsBlank (s : Text) : Bool := s.head?.any isBlank

/-- The words of a text: its longest runs without a blank. -/
def words (s : Text) : List Text := (pieces isBlank s).filter (!·.isEmpty)

end DocBlocks.Text
