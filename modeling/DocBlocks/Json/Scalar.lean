import DocBlocks.Json.Fault

/-!
# Words, Strings and Numbers of JSON

A reader takes the rest of a text and returns what it has read and the rest behind it, or a
fault. The readers of this module read what has no parts: the words `null`, `true` and
`false`, strings with their escapes, and numbers.

A number is an integer if it is written without point and exponent and fits into 64 bits,
and a double otherwise. The double is made of a significand, which takes as many of the
leading digits as fit into 64 bits, and a power of ten.
-/

namespace DocBlocks.Json

open Text

/-- The blanks that may stand between the parts of JSON text. -/
def isSpace (c : Char) : Bool := c == ' ' || c == '\t' || c == '\n' || c == '\r'

/-- The rest of a text from its first character on that is no blank. -/
def skipSpace (s : Text) : Text := s.dropWhile isSpace

/-- Reads the given letters. -/
def word : Text → Text → Except Fault Text
  | [], s => .ok s
  | _ :: _, [] => .error (.before [] .endInValue)
  | letter :: letters, c :: s =>
    if letter = c then word letters s else .error (.into 1 (c :: s) .expectedIdent)

/-! ### Strings -/

/-- The value of a hexadecimal digit of either case. -/
def hexDigit? (c : Char) : Option Nat :=
  if c.isDigit then some (c.toNat - 48)
  else if 'a' ≤ c && c ≤ 'f' then some (c.toNat - 87)
  else if 'A' ≤ c && c ≤ 'F' then some (c.toNat - 55)
  else none

/-- The code unit that four hexadecimal digits stand for. -/
def codeUnit? (a b c d : Char) : Option Nat := do
  return (((← hexDigit? a) * 16 + (← hexDigit? b)) * 16 + (← hexDigit? c)) * 16 + (← hexDigit? d)

/-- Whether a code unit is the first one of a surrogate pair. -/
def isLeading (u : Nat) : Bool := 0xD800 ≤ u && u < 0xDC00

/-- Whether a code unit is the second one of a surrogate pair. -/
def isTrailing (u : Nat) : Bool := 0xDC00 ≤ u && u < 0xE000

/-- The character of a surrogate pair. -/
def pairChar (u v : Nat) : Char := Char.ofNat ((u - 0xD800) * 0x400 + (v - 0xDC00) + 0x10000)

/-- What a backslash and the given letter stand for. -/
def escapedChar? : Char → Option Char
  | '"' => some '"'
  | '\\' => some '\\'
  | '/' => some '/'
  | 'b' => some '\x08'
  | 'f' => some '\x0c'
  | 'n' => some '\n'
  | 'r' => some '\r'
  | 't' => some '\t'
  | _ => none

/-- The fault of an escape by code unit that does not have four characters for its digits.
If there are four bytes, they are read before this is found out. -/
def shortUnit (rest : Text) : Fault :=
  if byteLength rest < 4 then .before [] .endInString else .into 4 rest .invalidEscape

/-- The fault of a leading code unit whose partner should start at `rest` and does not. -/
def unpaired (rest : Text) : Fault :=
  if rest.isEmpty then .before [] .endInString else .into 1 rest .unpairedSurrogate

/-- Reads a string whose opening quote has been read; `done` is what has been read of it,
last character first. -/
def stringFrom (done : Text) : Text → Except Fault (Text × Text)
  | [] => .error (.before [] .endInString)
  | '"' :: rest => .ok (done.reverse, rest)
  | '\\' :: 'u' :: rest =>
    match rest with
    | a :: b :: c :: d :: rest₁ =>
      match codeUnit? a b c d with
      | none => .error (.into 4 rest .invalidEscape)
      | some u =>
        if isTrailing u then .error (.before rest₁ .loneSurrogate)
        else if isLeading u then
          match rest₁ with
          | '\\' :: 'u' :: rest₂ =>
            match rest₂ with
            | a :: b :: c :: d :: rest₃ =>
              match codeUnit? a b c d with
              | none => .error (.into 4 rest₂ .invalidEscape)
              | some v =>
                if isTrailing v then stringFrom (pairChar u v :: done) rest₃
                else .error (.before rest₃ .loneSurrogate)
            | _ => .error (shortUnit rest₂)
          | '\\' :: rest₂ => .error (unpaired rest₂)
          | _ => .error (unpaired rest₁)
        else stringFrom (Char.ofNat u :: done) rest₁
    | _ => .error (shortUnit rest)
  | ['\\'] => .error (.before [] .endInString)
  | '\\' :: letter :: rest =>
    match escapedChar? letter with
    | some c => stringFrom (c :: done) rest
    | none => .error (.into 1 (letter :: rest) .invalidEscape)
  | c :: rest =>
    if c.toNat < 0x20 then .error (.into 1 (c :: rest) .controlCharacter)
    else stringFrom (c :: done) rest

/-- Reads a string whose opening quote has been read. -/
def string (s : Text) : Except Fault (Text × Text) := stringFrom [] s

/-! ### Numbers -/

/-- What a number stands for. -/
inductive Number where
  | integer (value : Int)
  | floating (negative : Bool) (value : Double)
  deriving DecidableEq, Repr

/-- Whether a text goes on with a digit. -/
def startsDigit (s : Text) : Bool := s.head?.any Char.isDigit

/-- Reads digits onto `value` as long as the result is less than `limit`. The answer holds
the result, how many digits have been read in all, and the rest. -/
def takeDigits (limit value count : Nat) : Text → Nat × Nat × Text
  | [] => (value, count, [])
  | c :: s =>
    let longer := value * 10 + (c.toNat - 48)
    if c.isDigit && longer < limit then takeDigits limit longer (count + 1) s
    else (value, count, c :: s)

/-- The number of digits that a text starts with, and the rest. -/
def skipDigits (s : Text) : Nat × Text := ((s.takeWhile Char.isDigit).length, s.dropWhile Char.isDigit)

/-- Beyond any significand. -/
def significandLimit : Nat := powTwo 64

/-- Beyond any exponent that is looked at. -/
def exponentLimit : Nat := powTwo 31

/-- The double made of a significand and a power of ten, at the place where its text
ends. -/
def finish (negative : Bool) (significand : Nat) (power : Int) (rest : Text) :
    Except Fault (Number × Text) :=
  match Double.ofDecimal significand power with
  | some x => .ok (.floating negative x, rest)
  | none => .error (.before rest .numberOutOfRange)

/-- Reads an exponent whose letter has been read. An exponent beyond the limit leaves
nothing of the number or makes it too great; the latter is found out at the digit that
crosses the limit. -/
def exponent (negative : Bool) (significand : Nat) (power : Int) (s : Text) :
    Except Fault (Number × Text) :=
  let (down, s) :=
    match s with
    | '+' :: rest => (false, rest)
    | '-' :: rest => (true, rest)
    | _ => (false, s)
  if s.isEmpty then .error (.before [] .endInValue)
  else if !startsDigit s then .error (.into 1 s .invalidNumber)
  else
    let (e, _, rest) := takeDigits exponentLimit 0 0 s
    if !startsDigit rest then
      finish negative significand (if down then power - e else power + e) rest
    else if significand ≠ 0 && !down then .error (.into 1 rest .numberOutOfRange)
    else .ok (.floating negative 0, rest.dropWhile Char.isDigit)

/-- Reads what may follow the digits of a double. -/
def exponentOrEnd (negative : Bool) (significand : Nat) (power : Int) (s : Text) :
    Except Fault (Number × Text) :=
  match s with
  | 'e' :: rest => exponent negative significand power rest
  | 'E' :: rest => exponent negative significand power rest
  | _ => finish negative significand power s

/-- Reads the digits after a point. -/
def fraction (negative : Bool) (significand : Nat) (power : Int) (s : Text) :
    Except Fault (Number × Text) :=
  if s.isEmpty then .error (.before [] .endInValue)
  else if !startsDigit s then .error (.into 1 s .invalidNumber)
  else
    let (significand, count, rest) := takeDigits significandLimit significand 0 s
    exponentOrEnd negative significand (power - count) (rest.dropWhile Char.isDigit)

/-- Reads what follows the integer part of a number that does not fit into 64 bits; `power`
counts the digits of it that the significand lacks. -/
def longNumber (negative : Bool) (significand : Nat) (power : Nat) (s : Text) :
    Except Fault (Number × Text) :=
  match s with
  | '.' :: rest => fraction negative significand power rest
  | _ => exponentOrEnd negative significand power s

/-- Reads what follows the integer part of a number that does. A negative integer has to be
at least `-2 ^ 63` and not zero, or it becomes a double. -/
def shortNumber (negative : Bool) (significand : Nat) (s : Text) :
    Except Fault (Number × Text) :=
  match s with
  | '.' :: rest => fraction negative significand 0 rest
  | 'e' :: rest => exponent negative significand 0 rest
  | 'E' :: rest => exponent negative significand 0 rest
  | _ =>
    if !negative then .ok (.integer significand, s)
    else if significand = 0 ∨ powTwo 63 < significand then
      .ok (.floating true (Double.ofNat significand), s)
    else .ok (.integer (-significand), s)

/-- Reads a number from its first digit on. -/
def number (negative : Bool) : Text → Except Fault (Number × Text)
  | [] => .error (.before [] .endInValue)
  | '0' :: rest =>
    if startsDigit rest then .error (.into 1 rest .invalidNumber)
    else shortNumber negative 0 rest
  | c :: rest =>
    if !c.isDigit then .error (.into 1 (c :: rest) .invalidNumber)
    else
      let (significand, _, rest) := takeDigits significandLimit 0 0 (c :: rest)
      if startsDigit rest then
        let (count, rest) := skipDigits rest
        longNumber negative significand count rest
      else shortNumber negative significand rest

end DocBlocks.Json
