import DocBlocks.Comment
import DocBlocks.Param.Line
import DocBlocks.Text.LineEnding

/-!
# Parameter Sections

A parameter line counts as one only in the section of a comment that is headed
`* Parameters:`. The lines of a file are therefore read in one of three modes: outside any
comment, in a comment before the heading, and in the section. What changes the mode is a
whole line that consists, blanks at its ends aside, of the opening marker, the heading or
the closing marker. A line `*` in a section separates paragraphs and is left alone.

A comment that has no heading is never left by its closing marker: the mode stays that of a
comment until a heading comes, be it in a later comment.
-/

namespace DocBlocks

open Text

/-- Where in a file a line stands. -/
inductive Mode where
  /-- Outside any comment. -/
  | outside
  /-- In a comment, before the heading of its parameter section. -/
  | inComment
  /-- In a parameter section. -/
  | inParams
  deriving DecidableEq, Repr

namespace Mode

/-- The line that heads a parameter section. -/
def heading : Text := ['*', ' ', 'P', 'a', 'r', 'a', 'm', 'e', 't', 'e', 'r', 's', ':']

/-- The line that separates paragraphs of a comment. -/
def separator : Text := ['*']

/-- The mode after a line that is read in the given mode. -/
def next (mode : Mode) (line : Text) : Mode :=
  match mode with
  | outside => if trim line = Comment.opening then inComment else outside
  | inComment => if trim line = heading then inParams else inComment
  | inParams => if trim line = Comment.closing then outside else inParams

/-- What a line that is read in the given mode becomes. -/
def tag (names : NameCharset) (mode : Mode) (line : Text) : Text :=
  match mode with
  | outside => line
  | inComment => line
  | inParams =>
    if trim line = Comment.closing ∨ trim line = separator then line else tagLine names line

end Mode

/-- The mode after some lines. -/
def modeAfter (mode : Mode) (lines : List Text) : Mode := lines.foldl Mode.next mode

/-- What lines become, the first of them being read in the given mode. -/
def tagLines (names : NameCharset) : Mode → List Text → List Text
  | _, [] => []
  | mode, line :: rest => mode.tag names line :: tagLines names (mode.next line) rest

/-- A whole file with its parameter lines in tagged form and its line endings normalized. -/
def tagParams (names : NameCharset) (s : Text) : Text :=
  joinLines (tagLines names .outside (splitLines (normalize s)))

end DocBlocks
