import DocBlocks.Comment
import DocBlocks.Text.Alphanumeric
import DocBlocks.Text.Blank

/-!
# Declarations

Documentation is about a class or about a member of one. Which line of a file declares it
is decided by the look of the line alone: a class is declared at the start of a line, by
the word `class`, blanks and its name; a member at an indentation of exactly two spaces, by
the text of its signature. A name must not go on behind the end of what was looked for.

No account is taken of strings and comments of the language; a line inside one of them that
looks like a declaration counts as one.
-/

namespace DocBlocks

open Text

/-- What a doc block is about. -/
inductive Declaration where
  /-- The class of the given name. -/
  | ofClass (name : Text)
  /-- The member whose declaration starts with the given signature. -/
  | ofMember (signature : Text)
  deriving DecidableEq, Repr

/-- Whether a character may stand in a name. -/
def isNameChar (c : Char) : Bool := isAlphanumeric c || c == '_' || c == '$'

/-- Whether a name that comes before a text ends there. -/
def endsName (rest : Text) : Bool := !rest.head?.any isNameChar

namespace Declaration

/-- The word that declares a class. -/
def classWord : Text := ['c', 'l', 'a', 's', 's']

/-- What members are indented by. -/
def memberIndent : Text := [' ', ' ']

/-- A signature without the blanks at its ends and the semicolons behind it. -/
def trimSignature (signature : Text) : Text :=
  trimEnd (dropEndWhile (· == ';') (trim signature))

/-- The member with the given signature, unless nothing is left of the signature when it is
trimmed. -/
def member? (signature : Text) : Option Declaration :=
  let kept := trimSignature signature
  if kept.isEmpty then none else some (ofMember kept)

/-- The indentation of a declaration, and of the doc block above it. -/
def indent : Declaration → Text
  | ofClass _ => []
  | ofMember _ => memberIndent

/-- A line without its indentation, if it is indented by `indent` and no blank more. -/
def unindent? (indent line : Text) : Option Text :=
  (after? indent line).filter (!startsBlank ·)

/-- Whether the text of a line behind its indentation declares what is looked for. -/
def declaredBy : Declaration → Text → Bool
  | ofClass name, rest =>
    match after? classWord rest with
    | none => false
    | some rest => startsBlank rest && (after? name (trimStart rest)).any endsName
  | ofMember signature, rest =>
    match after? signature rest with
    | none => false
    | some rest => !signature.getLast?.any isNameChar || endsName rest

/-- Whether a line declares what is looked for. -/
def matchesLine (d : Declaration) (line : Text) : Bool :=
  (unindent? d.indent line).any d.declaredBy

/-- Whether a line opens a doc block at the indentation of the declaration. -/
def opensBlock (d : Declaration) (line : Text) : Bool :=
  (unindent? d.indent line).any (startsWith Comment.opening)

/-- Whether nothing but blanks follows a closing marker at the end of a line. -/
def closesBlock (line : Text) : Bool := endsWith Comment.closing (trimEnd line)

end Declaration

end DocBlocks
