import DocBlocks.Definition.Entry
import DocBlocks.Json.Value

/-!
# Reading a Definition Table

A definition table is written as a JSON object with a member for each symbol. An entry is a
list of two: the lines for the class, and an object with a member for each signature, which
again is a list of two: the short description, and the lines for the member. Each of these
four may be `null`. Lines are given as a list of strings or as one string that is cut into
lines. A symbol must not consist of blanks alone.

Two faults are found out only after the value at fault has been read: that a list of two
has too few elements, and that a value is no lines. They get their position from the list of
two around them, which is closed first, as far as that is possible, before the fault is
reported.
-/

namespace DocBlocks

open Text

namespace Json

/-- Why a reader inside a list of two has stopped. -/
inductive Stop where
  /-- A fault with a position. -/
  | placed (fault : Fault)
  /-- A fault that has no position yet, and the text behind the value at fault. -/
  | unplaced (reason : Reason) (rest : Text)
  deriving DecidableEq, Repr

/-- The text behind the end of a list of two, as far as it can be found. -/
def closed (s : Text) : Text :=
  match skipSpace s with
  | ']' :: rest => rest
  | ',' :: rest => skipSpace rest
  | rest => rest

/-- The fault with which a list of two is given up. -/
def Stop.fault : Stop → Fault
  | placed fault => fault
  | unplaced reason rest => .before (closed rest) reason

/-- A reader of a value that may be `null`. -/
def nullable {α : Type} (read : Text → Except Stop (α × Text)) (s : Text) :
    Except Stop (Option α × Text) :=
  match skipSpace s with
  | 'n' :: rest => ((word ['u', 'l', 'l'] rest).mapError .placed).map (none, ·)
  | rest => (read rest).map fun (a, rest) => (some a, rest)

/-- Reads the end of a list of two whose elements have been read. -/
def pairEnd (s : Text) : Except Fault Text :=
  match skipSpace s with
  | [] => .error (.before [] .endInList)
  | ']' :: rest => .ok rest
  | ',' :: rest =>
    match skipSpace rest with
    | ']' :: rest => .error (.into 1 (']' :: rest) .trailingComma)
    | rest => .error (.into 1 rest .trailingCharacters)
  | rest => .error (.into 1 rest .trailingCharacters)

/-- Reads the two elements of a list of two, up to the end of the second. -/
def pairElements {α β : Type} (wanted : Wanted) (first : Text → Except Stop (α × Text))
    (second : Text → Except Stop (β × Text)) (s : Text) : Except Stop ((α × β) × Text) :=
  match skipSpace s with
  | [] => .error (.placed (.before [] .endInList))
  | ']' :: rest => .error (.unplaced (.tooShort 0 wanted) (']' :: rest))
  | rest => do
    let (a, rest) ← first rest
    match skipSpace rest with
    | [] => .error (.placed (.before [] .endInList))
    | ']' :: rest => .error (.unplaced (.tooShort 1 wanted) (']' :: rest))
    | ',' :: rest =>
      match skipSpace rest with
      | [] => .error (.placed (.before [] .endInValue))
      | ']' :: rest => .error (.placed (.into 1 (']' :: rest) .trailingComma))
      | rest =>
        let (b, rest) ← second rest
        return ((a, b), rest)
    | rest => .error (.placed (.into 1 rest .expectedCommaOrBracket))

/-- Reads a list of two. -/
def pair {α β : Type} (wanted : Wanted) (first : Text → Except Stop (α × Text))
    (second : Text → Except Stop (β × Text)) (s : Text) : Except Fault ((α × β) × Text) :=
  match skipSpace s with
  | '[' :: rest => do
    let (ab, rest) ← (pairElements wanted first second rest).mapError Stop.fault
    return (ab, ← pairEnd rest)
  | rest => .error (mistyped wanted rest)

/-- Reads an object whose members are read by `value`. -/
def object {α : Type} (value : Text → Except Fault (α × Text)) (bound : Nat) (s : Text) :
    Except Fault (List (Text × α) × Text) :=
  match skipSpace s with
  | '{' :: rest => members value bound rest
  | rest => .error (mistyped .object rest)

/-- Reads a string. -/
def text (s : Text) : Except Fault (Text × Text) :=
  match skipSpace s with
  | '"' :: rest => string rest
  | rest => .error (mistyped .text rest)

/-- Reads lines: a list of strings, or a string. -/
def lines (bound depth : Nat) (s : Text) : Except Stop (List Text × Text) :=
  match value bound depth s with
  | .error fault => .error (.placed fault)
  | .ok (.text t, rest) => .ok (wholeLines t, rest)
  | .ok (.texts lines, rest) => .ok (lines, rest)
  | .ok (.other, rest) => .error (.unplaced .notLines rest)

end Json

open Json

namespace Table

/-- How often lists and objects may lie inside each other in the lines of a class. In all
they may 127 times, and the entry and the table around these lines count twice. -/
def classDepth : Nat := 125

/-- How often they may in the lines of a member, which lie in two more. -/
def memberDepth : Nat := 123

/-- Reads the definition of a member. -/
def readMember (bound : Nat) (s : Text) : Except Fault (MemberDoc × Text) := do
  let ((short, ls), rest) ← pair .memberDoc
    (nullable fun s => (text s).mapError .placed) (nullable (lines bound memberDepth)) s
  return (⟨short.getD [], ls.getD []⟩, rest)

/-- Reads the entry of a symbol. -/
def readEntry (bound : Nat) (s : Text) : Except Fault (Entry × Text) := do
  let ((ls, members), rest) ← pair .entry (nullable (lines bound classDepth))
    (nullable fun s => (object (readMember bound) bound s).mapError .placed) s
  return (⟨ls.getD [], .ofPairs (members.getD [])⟩, rest)

/-- Reads the entries of a whole text, in the order in which they are written. -/
def readEntries (s : Text) : Except Fault (List (Text × Entry)) := do
  let bound := s.length + 1
  let (entries, rest) ← object (readEntry bound) bound s
  match skipSpace rest with
  | [] => return entries
  | rest => .error (.into 1 rest .trailingCharacters)

/-- Why a text is no definition table. -/
inductive Defect where
  /-- A symbol consists of blanks alone. -/
  | blankSymbol
  /-- The text cannot be read, for a reason and at a line and column. -/
  | unreadable (reason : Reason) (line column : Nat)
  deriving DecidableEq, Repr

/-- The wording of a defect. -/
def Defect.message : Defect → String
  | blankSymbol => "empty symbol name"
  | unreadable reason line column =>
    reason.message ++ " at line " ++ toString line ++ " column " ++ toString column

/-- The definition table that a text stands for. Of several members with the same key, the
last one counts. -/
def read (s : Text) : Except Defect Table :=
  match readEntries s with
  | .error fault =>
    let (line, column) := fault.position s
    .error (.unreadable fault.reason line column)
  | .ok entries =>
    if entries.any fun (symbol, _) => (trim symbol).isEmpty then .error .blankSymbol
    else .ok (.ofPairs entries)

end Table

end DocBlocks
