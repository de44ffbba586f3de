import DocBlocks.Decimal.Shortest
import DocBlocks.Text.Quoted
import DocBlocks.Text.Utf8

/-!
# Faults in JSON Text

Reading JSON stops at the first fault. A fault has a reason and a position, and the position
is a number of bytes, because that is what is reported; it may lie inside a character. Here
it is given by the number of bytes from it to the end of the text. A reader that works its
way through a list of characters knows this number from what is left of the list, whatever
came before.
-/

namespace DocBlocks.Json

open Text

/-- A value as a message about its type shows it. -/
inductive Found where
  | null
  | boolean (value : Bool)
  | integer (value : Int)
  | floating (negative : Bool) (value : Double)
  | string (value : Text)
  | sequence
  | map
  deriving DecidableEq, Repr

/-- What a value has to be where it stands. -/
inductive Wanted where
  /-- An object. -/
  | object
  /-- A string. -/
  | text
  /-- The list of two that defines a symbol. -/
  | entry
  /-- The list of two that defines a member. -/
  | memberDoc
  deriving DecidableEq, Repr

/-- Why JSON text cannot be read. -/
inductive Reason where
  /-- The text ends where a value should start or go on. -/
  | endInValue
  | endInList
  | endInObject
  | endInString
  | expectedValue
  /-- A word that starts like `null`, `true` or `false` goes on in another way. -/
  | expectedIdent
  | expectedColon
  | expectedCommaOrBracket
  | expectedCommaOrBrace
  | keyNotString
  | trailingComma
  | trailingCharacters
  | invalidNumber
  | numberOutOfRange
  | controlCharacter
  | invalidEscape
  /-- A code unit of a surrogate pair stands where it has no partner. -/
  | loneSurrogate
  /-- A leading code unit of a surrogate pair is not followed by an escape. -/
  | unpairedSurrogate
  /-- Too many lists and objects lie inside each other. -/
  | tooDeep
  /-- The value is of another kind than it has to be. -/
  | wrongType (found : Found) (wanted : Wanted)
  /-- A list that has to have two elements has fewer. -/
  | tooShort (length : Nat) (wanted : Wanted)
  /-- The value is neither a string nor a list of strings. -/
  | notLines
  deriving DecidableEq, Repr

/-- A reason to stop, and where. -/
structure Fault where
  reason : Reason
  /-- The number of bytes from the position of the fault to the end of the text. -/
  left : Nat
  deriving DecidableEq, Repr

/-- The number of bytes of a text. -/
def byteLength (s : Text) : Nat := (utf8 s).length

/-- A fault whose position is that of the given rest of the text. -/
def Fault.before (rest : Text) (reason : Reason) : Fault := ⟨reason, byteLength rest⟩

/-- A fault whose position is some bytes into the given rest of the text, or the end of the
text if that comes first. -/
def Fault.into (bytes : Nat) (rest : Text) (reason : Reason) : Fault :=
  ⟨reason, byteLength rest - bytes⟩

/-! ### Messages -/

/-- How a message shows a value. -/
def Found.message : Found → String
  | null => "null"
  | boolean true => "boolean `true`"
  | boolean false => "boolean `false`"
  | integer n => "integer `" ++ String.ofList (Decimal.integerText n) ++ "`"
  | floating negative x =>
    "floating point `" ++ String.ofList (Decimal.doubleText negative x) ++ "`"
  | string s => "string " ++ String.ofList (quoted s)
  | sequence => "sequence"
  | map => "map"

/-- How a message says what a value has to be. -/
def Wanted.message : Wanted → String
  | object => "a map"
  | text => "a string"
  | entry => "tuple struct RawEntry"
  | memberDoc => "tuple struct RawMember"

/-- The wording of a reason. -/
def Reason.message : Reason → String
  | endInValue => "EOF while parsing a value"
  | endInList => "EOF while parsing a list"
  | endInObject => "EOF while parsing an object"
  | endInString => "EOF while parsing a string"
  | expectedValue => "expected value"
  | expectedIdent => "expected ident"
  | expectedColon => "expected `:`"
  | expectedCommaOrBracket => "expected `,` or `]`"
  | expectedCommaOrBrace => "expected `,` or `\x7d`"
  | keyNotString => "key must be a string"
  | trailingComma => "trailing comma"
  | trailingCharacters => "trailing characters"
  | invalidNumber => "invalid number"
  | numberOutOfRange => "number out of range"
  | controlCharacter =>
    "control character (\\u0000-\\u001F) found while parsing a string"
  | invalidEscape => "invalid escape"
  | loneSurrogate => "lone leading surrogate in hex escape"
  | unpairedSurrogate => "unexpected end of hex escape"
  | tooDeep => "recursion limit exceeded"
  | wrongType found wanted =>
    "invalid type: " ++ found.message ++ ", expected " ++ wanted.message
  | tooShort length wanted =>
    "invalid length " ++ toString length ++ ", expected " ++ wanted.message ++
      " with 2 elements"
  | notLines => "data did not match any variant of untagged enum RawLines"

/-- The line and the column of a fault in a text. Lines are counted from one; the column is
the number of bytes between the start of the line and the fault. -/
def Fault.position (fault : Fault) (s : Text) : Nat × Nat :=
  let bytes := utf8 s
  let passed := pieces (· == 10) (bytes.take (bytes.length - fault.left))
  (passed.length, (passed.getLast?.map List.length).getD 0)

end DocBlocks.Json
