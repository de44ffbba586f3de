import DocBlocks.Text.Blank

/-!
# Parameter Lines

In an old-style comment a parameter is described by a line `* name - description`, indented
as deep as its comment is. The tagged form of the same line is `* @param name description`.

A line is read into its three parts (`ParamLine.parse?`) and written in either form. The
reading needs no search: an indentation is all blanks up to the first character that is
none, and a name is all name characters up to the first that is none, because neither a
star is a blank nor a blank a name character.
-/

namespace DocBlocks

open Text

/-- Which characters the name of a parameter may consist of. -/
inductive NameCharset where
  /-- The letters and digits of ASCII, and the underscore. -/
  | strict
  /-- The digits of ASCII, and everything from `A` to `z`. That takes in six punctuation
  characters that stand between `Z` and `a`: the square brackets, the backslash, the caret,
  the underscore and the backtick. -/
  | legacy
  deriving DecidableEq, Repr

/-- Whether a character may stand in the name of a parameter. -/
def NameCharset.admits : NameCharset → Char → Bool
  | strict, c => c.isAlphanum || c == '_'
  | legacy, c => c.isDigit || ('A' ≤ c && c ≤ 'z')

/-- The parts of a line that describes a parameter. -/
structure ParamLine where
  /-- The blanks before the star. -/
  indent : Text
  /-- The name of the parameter. -/
  name : Text
  /-- What is said about it. -/
  description : Text
  deriving DecidableEq, Repr

namespace ParamLine

/-- The line in its old form. -/
def plain (p : ParamLine) : Text :=
  p.indent ++ ['*', ' '] ++ p.name ++ [' ', '-', ' '] ++ p.description

/-- The line in its tagged form. -/
def tagged (p : ParamLine) : Text :=
  p.indent ++ ['*', ' ', '@', 'p', 'a', 'r', 'a', 'm', ' '] ++ p.name ++ [' '] ++ p.description

/-- The parts of a line in the old form. The name must not be empty, and the description
must not hold a line feed. -/
def parse? (names : NameCharset) (line : Text) : Option ParamLine := do
  let rest ← after? ['*', ' '] (trimStart line)
  let description ← after? [' ', '-', ' '] (rest.dropWhile names.admits)
  let name := rest.takeWhile names.admits
  if name.isEmpty || description.any isLineFeed then none
  else some ⟨line.takeWhile isBlank, name, description⟩

end ParamLine

/-- The tagged form of a parameter line; any other line as it is. -/
def tagLine (names : NameCharset) (line : Text) : Text :=
  match ParamLine.parse? names line with
  | some p => p.tagged
  | none => line

end DocBlocks
