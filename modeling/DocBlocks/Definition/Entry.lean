import DocBlocks.Keyed
import DocBlocks.Text.Blank

/-!
# Definitions

A definition table says what documentation is to be put into which file. Files are known by
a symbol. The entry of a symbol holds lines for the doc block of the class of that name,
and for members, by signature, a short description and lines for the doc block. A list
without lines asks for nothing.
-/

namespace DocBlocks

/-- What is to be put above a member. -/
structure MemberDoc where
  /-- A description in a few words, for a line of its own. -/
  short : Text
  /-- The lines that replace the doc block. -/
  lines : List Text
  deriving DecidableEq, Repr

/-- What is to be put into the file of one symbol. -/
structure Entry where
  /-- The lines that replace the doc block of the class. -/
  classLines : List Text
  /-- The members, by signature. -/
  members : Keyed Text MemberDoc
  deriving DecidableEq, Repr

/-- Whether an entry asks for nothing. -/
def Entry.isEmpty (e : Entry) : Bool :=
  e.classLines.isEmpty && e.members.entries.all (·.2.lines.isEmpty)

/-- Entries by symbol. -/
abbrev Table := Keyed Text Entry

/-- The lines of a replacement that is given as one text. Here a carriage return before a
line feed belongs to the line end, and a line end at the end of the text starts no new
line, so that the empty text has no lines. -/
def Text.wholeLines (s : Text) : List Text :=
  let lines := Text.splitLines s
  let ended := lines.dropLast.map fun line =>
    if line.getLast? = some '\r' then line.dropLast else line
  match lines.getLast? with
  | none | some [] => ended
  | some line => ended ++ [line]

end DocBlocks
