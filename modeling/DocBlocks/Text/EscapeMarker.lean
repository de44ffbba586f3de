import DocBlocks.Text.Basic

/-!
# Escape Markers

An escape marker is a backslash with a `u` or an `x` after it. Text that is put into a
source file must not hold one, or a reader of that file would take the characters behind it
for a code point. The markers are deleted and nothing is decoded, so that the digits behind
a marker stay.

Deleting a marker may bring a backslash and a letter together that make a new one, so
deletion has to go on until none is left. One pass from right to left does all of it: what
is to the right of the current character is already free of markers, and a backslash put in
front of it can make at most one, which goes at once.
-/

namespace DocBlocks.Text

/-- Whether a character makes an escape marker with a backslash before it. -/
def endsMarker (c : Char) : Bool := c == 'u' || c == 'x'

/-- Puts a character in front of a text without markers. If a marker comes of it, that
marker is deleted. -/
def attach (c : Char) : Text → Text
  | [] => [c]
  | d :: rest => if c = '\\' && endsMarker d then rest else c :: d :: rest

/-- The text with all escape markers deleted, those that deletion makes included. -/
def stripEscapes (s : Text) : Text := s.foldr attach []

@[simp] theorem stripEscapes_nil : stripEscapes [] = [] := rfl

@[simp] theorem stripEscapes_cons (c : Char) (s : Text) :
    stripEscapes (c :: s) = attach c (stripEscapes s) := rfl

end DocBlocks.Text
