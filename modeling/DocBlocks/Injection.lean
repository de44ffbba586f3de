import DocBlocks.BlockSpan
import DocBlocks.Definition.Entry
import DocBlocks.Text.EscapeMarker

/-!
# Putting Documentation into a File

The entry of a symbol asks for doc blocks to be replaced: first that of the class, then
those of the members, in order of their signatures (`Entry.requests`). Each request is
carried out on the lines that the ones before it have left behind (`Injected.place`). Its
doc block, if there is one, goes, and the lines of the request take its place; the line of
the declaration stays.

What is put in holds no escape markers. Lines for a member are indented as members are,
unless they are empty, and a short description, its blanks reduced to single spaces, follows
them as a line comment.

A request whose declaration has no doc block changes nothing and is noted down.
-/

namespace DocBlocks

open Text

/-- What is noted down while an entry is put into a file. -/
inductive Note where
  /-- The class has no doc block. -/
  | noClassBlock (symbol : Text)
  /-- The member has no doc block. -/
  | noMemberBlock (symbol signature : Text)
  /-- Nothing is left of a signature when it is trimmed. -/
  | blankSignature (symbol signature : Text)
  deriving DecidableEq, Repr

/-- What was asked for and not found, if that is what a note says. -/
def Note.missed? : Note → Option Text
  | noClassBlock symbol => some (Declaration.classWord ++ [' '] ++ symbol)
  | noMemberBlock symbol signature => some (symbol ++ ['.'] ++ signature)
  | blankSignature _ _ => none

/-! ### Requests -/

/-- Something that an entry asks for. -/
inductive Request where
  /-- To replace the doc block of a declaration by lines; `note` is for the case that there
  is none. -/
  | replace (decl : Declaration) (lines : List Text) (note : Note)
  /-- Nothing that can be looked for. -/
  | skip (note : Note)
  deriving DecidableEq, Repr

/-- A line for a member at the indentation of members. The empty line stays empty. -/
def indentLine (line : Text) : Text :=
  if line.isEmpty then [] else Declaration.memberIndent ++ line

/-- The line comment that holds a short description, if there is anything to say. -/
def shortLines (short : Text) : List Text :=
  match words (stripEscapes short) with
  | [] => []
  | word :: more =>
    [Declaration.memberIndent ++ ['/', '/', ' '] ++ [' '].intercalate (word :: more)]

/-- The lines that are put above a member. -/
def MemberDoc.block (m : MemberDoc) : List Text :=
  m.lines.map (fun line => indentLine (stripEscapes line)) ++ shortLines m.short

/-- The lines that are put above the class. -/
def Entry.classBlock (e : Entry) : List Text := e.classLines.map stripEscapes

/-- What an entry asks for in regard to its class. -/
def Entry.classRequests (symbol : Text) (e : Entry) : List Request :=
  if e.classLines.isEmpty then []
  else [.replace (.ofClass symbol) e.classBlock (.noClassBlock symbol)]

/-- What an entry asks for in regard to one member. -/
def MemberDoc.requests (symbol signature : Text) (m : MemberDoc) : List Request :=
  if m.lines.isEmpty then []
  else
    match Declaration.member? signature with
    | none => [.skip (.blankSignature symbol signature)]
    | some decl => [.replace decl m.block (.noMemberBlock symbol signature)]

/-- All that an entry asks for, in the order in which it is done. -/
def Entry.requests (symbol : Text) (e : Entry) : List Request :=
  e.classRequests symbol ++
    e.members.entries.flatMap fun (signature, m) => m.requests symbol signature

/-! ### Carrying them out -/

/-- A file into which requests have been put. -/
structure Injected where
  /-- Its lines. -/
  lines : List Text
  /-- Whether the doc block of the class was replaced. -/
  classReplaced : Bool
  /-- How many doc blocks of members were replaced. -/
  membersReplaced : Nat
  /-- What was noted down, in order. -/
  notes : List Note
  deriving DecidableEq, Repr

/-- The lines of a file with other ones in place of a doc block. -/
def BlockSpan.splice (span : BlockSpan) (block lines : List Text) : List Text :=
  lines.take span.top ++ block ++ lines.drop span.decl

namespace Injected

/-- A file before anything is done to it. -/
def ofLines (lines : List Text) : Injected := ⟨lines, false, 0, []⟩

/-- Counts one doc block more as replaced. -/
def count (done : Injected) : Declaration → Injected
  | .ofClass _ => { done with classReplaced := true }
  | .ofMember _ => { done with membersReplaced := done.membersReplaced + 1 }

/-- Carries out one request. -/
def place (find : Matcher) (done : Injected) : Request → Injected
  | .skip note => { done with notes := done.notes ++ [note] }
  | .replace decl block note =>
    match find done.lines decl with
    | none => { done with notes := done.notes ++ [note] }
    | some span => { done.count decl with lines := span.splice block done.lines }

/-- The text of the file. -/
def content (done : Injected) : Text := joinLines done.lines

/-- How many doc blocks were replaced. -/
def replaced (done : Injected) : Nat := done.membersReplaced + done.classReplaced.toNat

/-- What was asked for and not found, in order. -/
def missed (done : Injected) : List Text := done.notes.filterMap Note.missed?

end Injected

/-- Puts the entry of a symbol into a file. -/
def Entry.inject (e : Entry) (find : Matcher) (symbol content : Text) : Injected :=
  (e.requests symbol).foldl (Injected.place find) (.ofLines (splitLines content))

end DocBlocks
