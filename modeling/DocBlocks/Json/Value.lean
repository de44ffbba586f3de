import DocBlocks.Json.Scalar

/-!
# Lists, Objects and Values of JSON

`elements` and `members` read the inside of a list and of an object, with a reader for what
stands in it as a parameter. `value` reads any value at all and keeps of it only what a
replacement text can be: one string or a list of strings.

Two numbers bound the recursion. Lists and objects inside each other are counted against the
depth that is still allowed, which is part of the format. The other is a bound on the
number of elements and only has to be large enough; the number of characters of the whole
text is, as every element takes at least one.
-/

namespace DocBlocks.Json

open Text

variable {α : Type}

/-! ### Lists and objects -/

/-- Reads what follows an element of a list: the end of the list, or more elements. -/
def moreElements (element : Text → Except Fault (α × Text)) :
    Nat → Text → Except Fault (List α × Text)
  | 0, s => .error (.before s .endInList)
  | bound + 1, s =>
    match skipSpace s with
    | [] => .error (.before [] .endInList)
    | ']' :: rest => .ok ([], rest)
    | ',' :: rest =>
      match skipSpace rest with
      | [] => .error (.before [] .endInValue)
      | ']' :: rest => .error (.into 1 (']' :: rest) .trailingComma)
      | rest => do
        let (first, rest) ← element rest
        let (others, rest) ← moreElements element bound rest
        return (first :: others, rest)
    | rest => .error (.into 1 rest .expectedCommaOrBracket)

/-- Reads a list whose opening bracket has been read. -/
def elements (element : Text → Except Fault (α × Text)) (bound : Nat) (s : Text) :
    Except Fault (List α × Text) :=
  match skipSpace s with
  | [] => .error (.before [] .endInList)
  | ']' :: rest => .ok ([], rest)
  | rest => do
    let (first, rest) ← element rest
    let (others, rest) ← moreElements element bound rest
    return (first :: others, rest)

/-- Reads a member of an object, whose key's opening quote has been read. -/
def member (value : Text → Except Fault (α × Text)) (s : Text) :
    Except Fault ((Text × α) × Text) := do
  let (key, rest) ← string s
  match skipSpace rest with
  | [] => .error (.before [] .endInObject)
  | ':' :: rest =>
    let (v, rest) ← value rest
    return ((key, v), rest)
  | rest => .error (.into 1 rest .expectedColon)

/-- Reads what follows a member of an object: the end of the object, or more members. -/
def moreMembers (value : Text → Except Fault (α × Text)) :
    Nat → Text → Except Fault (List (Text × α) × Text)
  | 0, s => .error (.before s .endInObject)
  | bound + 1, s =>
    match skipSpace s with
    | [] => .error (.before [] .endInObject)
    | '}' :: rest => .ok ([], rest)
    | ',' :: rest =>
      match skipSpace rest with
      | [] => .error (.before [] .endInValue)
      | '}' :: rest => .error (.into 1 ('}' :: rest) .trailingComma)
      | '"' :: rest => do
        let (first, rest) ← member value rest
        let (others, rest) ← moreMembers value bound rest
        return (first :: others, rest)
      | rest => .error (.into 1 rest .keyNotString)
    | rest => .error (.into 1 rest .expectedCommaOrBrace)

/-- Reads an object whose opening brace has been read. -/
def members (value : Text → Except Fault (α × Text)) (bound : Nat) (s : Text) :
    Except Fault (List (Text × α) × Text) :=
  match skipSpace s with
  | [] => .error (.before [] .endInObject)
  | '}' :: rest => .ok ([], rest)
  | '"' :: rest => do
    let (first, rest) ← member value rest
    let (others, rest) ← moreMembers value bound rest
    return (first :: others, rest)
  | rest => .error (.into 1 rest .keyNotString)

/-! ### Values -/

/-- What is kept of a value. -/
inductive Shape where
  | text (s : Text)
  | texts (lines : List Text)
  | other
  deriving DecidableEq, Repr

/-- The text that a value is, if it is one. -/
def Shape.text? : Shape → Option Text
  | text s => some s
  | _ => none

/-- What is kept of a list. -/
def Shape.ofElements (shapes : List Shape) : Shape :=
  match shapes.mapM Shape.text? with
  | some lines => texts lines
  | none => other

/-- Reads a value, in which lists and objects may lie inside each other `depth` times. -/
def value (bound depth : Nat) (s : Text) : Except Fault (Shape × Text) :=
  match skipSpace s with
  | [] => .error (.before [] .endInValue)
  | '"' :: rest => do
    let (s, rest) ← string rest
    return (.text s, rest)
  | '[' :: rest =>
    match depth with
    | 0 => .error (.into 1 ('[' :: rest) .tooDeep)
    | depth + 1 => do
      let (shapes, rest) ← elements (value bound depth) bound rest
      return (.ofElements shapes, rest)
  | '{' :: rest =>
    match depth with
    | 0 => .error (.into 1 ('{' :: rest) .tooDeep)
    | depth + 1 => do
      let (_, rest) ← members (value bound depth) bound rest
      return (.other, rest)
  | 'n' :: rest => (word ['u', 'l', 'l'] rest).map (.other, ·)
  | 't' :: rest => (word ['r', 'u', 'e'] rest).map (.other, ·)
  | 'f' :: rest => (word ['a', 'l', 's', 'e'] rest).map (.other, ·)
  | '-' :: rest => (number true rest).map fun (_, rest) => (.other, rest)
  | c :: rest =>
    if c.isDigit then (number false (c :: rest)).map fun (_, rest) => (.other, rest)
    else .error (.into 1 (c :: rest) .expectedValue)

/-- What a number is called in a message. -/
def Number.found : Number → Found
  | integer n => .integer n
  | floating negative x => .floating negative x

/-- The fault of a value that starts at `s`, blanks having been skipped, where something
else is wanted. Words, strings and numbers are read first, and a fault in them counts
more. -/
def mistyped (wanted : Wanted) (s : Text) : Fault :=
  let after (read : Except Fault (Found × Text)) : Fault :=
    match read with
    | .ok (found, rest) => .before rest (.wrongType found wanted)
    | .error fault => fault
  match s with
  | [] => .before [] .endInValue
  | 'n' :: rest => after ((word ['u', 'l', 'l'] rest).map (.null, ·))
  | 't' :: rest => after ((word ['r', 'u', 'e'] rest).map (.boolean true, ·))
  | 'f' :: rest => after ((word ['a', 'l', 's', 'e'] rest).map (.boolean false, ·))
  | '"' :: rest => after ((string rest).map fun (s, rest) => (.string s, rest))
  | '[' :: rest => .before ('[' :: rest) (.wrongType .sequence wanted)
  | '{' :: rest => .before ('{' :: rest) (.wrongType .map wanted)
  | '-' :: rest => after ((number true rest).map fun (n, rest) => (n.found, rest))
  | c :: rest =>
    if c.isDigit then after ((number false (c :: rest)).map fun (n, rest) => (n.found, rest))
    else .into 1 (c :: rest) .expectedValue

end DocBlocks.Json
