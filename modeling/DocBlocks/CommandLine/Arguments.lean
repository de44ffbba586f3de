import DocBlocks.Run.Inject
import DocBlocks.Run.Params

/-!
# Command-Line Arguments

A command line names a pass and gives it options. An option without a value is a flag; the
others take their value after an equals sign or as the next argument. Options are read from
left to right, and the first argument that is a mistake or asks for help ends the reading.
Two of the flags say how much is told about a run and may stand before the pass as well as
behind it, but of these two only one at each place, and once.

What can be said wrongly is not distinguished further (`Refusal.usage`).
-/

namespace DocBlocks.CommandLine

open Text

/-! ### Arguments -/

/-- An argument by its form. -/
inductive Argument where
  /-- Two dashes alone, after which there are no options. -/
  | escape
  /-- Two dashes and a name, with what stands behind an equals sign. -/
  | long (name : Text) (value : Option Text)
  /-- One dash and letters. -/
  | short (letters : Text)
  /-- Anything else, one dash alone included. -/
  | plain (s : Text)
  deriving DecidableEq, Repr

/-- The form of an argument. -/
def Argument.ofText : Text → Argument
  | ['-', '-'] => escape
  | '-' :: '-' :: s =>
    match s.dropWhile (· != '=') with
    | [] => long s none
    | _ :: value => long (s.takeWhile (· != '=')) (some value)
  | ['-'] => plain ['-']
  | '-' :: letters => short letters
  | s => plain s

/-- Why a command line starts no run. -/
inductive Refusal where
  /-- It asks for help. -/
  | help
  /-- It is a mistake. -/
  | usage
  deriving DecidableEq, Repr

/-! ### Options -/

/-- The options that a pass has. -/
structure Options where
  /-- The names of the flags. -/
  flags : List Text
  /-- The names of the options that take a value. -/
  valued : List Text
  /-- Those of them that may be given more than once. -/
  repeatable : List Text
  /-- Whether an option can have a value. -/
  admits : Text → Text → Bool

/-- The options that have been read, values in the order in which they were given. -/
structure Given where
  flags : List Text
  values : List (Text × Text)
  deriving DecidableEq, Repr

namespace Given

/-- Nothing read yet. -/
def nothing : Given := ⟨[], []⟩

/-- The values of an option. -/
def valuesOf (given : Given) (name : Text) : List Text :=
  (given.values.filter (·.1 = name)).map (·.2)

/-- Whether a flag was given. -/
def has (given : Given) (name : Text) : Bool := given.flags.contains name

end Given

/-- The flag that has everything told about a run. -/
def verboseFlag : Text := ['v', 'e', 'r', 'b', 'o', 's', 'e']

/-- The flag that has nothing told about a run. -/
def quietFlag : Text := ['q', 'u', 'i', 'e', 't']

/-- The flag that asks for help. -/
def helpFlag : Text := ['h', 'e', 'l', 'p']

/-- The flag that a letter stands for. -/
def flagOfLetter? : Char → Option Text
  | 'v' => some verboseFlag
  | 'q' => some quietFlag
  | 'h' => some helpFlag
  | _ => none

/-- Reads a flag. -/
def readFlag (options : Options) (given : Given) (name : Text) : Except Refusal Given :=
  if name = helpFlag then .error .help
  else if options.flags.contains name && !given.has name then
    .ok { given with flags := given.flags ++ [name] }
  else .error .usage

/-- Reads the letters behind a dash. -/
def readLetters (options : Options) (given : Given) : Text → Except Refusal Given
  | [] => .ok given
  | letter :: letters =>
    match flagOfLetter? letter with
    | none => .error .usage
    | some name => do readLetters options (← readFlag options given name) letters

/-- Reads the value of an option. -/
def readValue (options : Options) (given : Given) (name value : Text) :
    Except Refusal Given :=
  if options.admits name value &&
      (options.repeatable.contains name || (given.valuesOf name).isEmpty) then
    .ok { given with values := given.values ++ [(name, value)] }
  else .error .usage

/-- Reads all arguments behind a pass. -/
def readOptions (options : Options) : Given → List Text → Except Refusal Given
  | given, [] => .ok given
  | given, argument :: rest =>
    match Argument.ofText argument with
    | .plain _ => .error .usage
    | .escape => if rest.isEmpty then .ok given else .error .usage
    | .short letters => do readOptions options (← readLetters options given letters) rest
    | .long name value =>
      if options.valued.contains name then
        match value with
        | some value => do readOptions options (← readValue options given name value) rest
        | none =>
          match rest with
          | [] => .error .usage
          | next :: rest =>
            match Argument.ofText next with
            | .plain value => do readOptions options (← readValue options given name value) rest
            | _ => .error .usage
      else if value.isSome then .error .usage
      else do readOptions options (← readFlag options given name) rest

/-! ### Commands -/

/-- How much is told about a run. -/
inductive Verbosity where
  | quiet
  | normal
  | verbose
  deriving DecidableEq, Repr

/-- A run over the parameter lines below a root. -/
structure ParamsCommand where
  root : Path
  config : ParamsConfig
  deriving DecidableEq, Repr

/-- A run over the files of a definition table below a root. -/
structure InjectCommand where
  root : Path
  /-- The path of the definition table, if it is not the usual one. -/
  definitions : Option Path
  /-- How deep the files lie, as it was given. -/
  depth : Nat
  extensions : List Text
  keepGoing : Bool
  dryRun : Bool
  deriving DecidableEq, Repr

/-- What a command line asks for. -/
inductive Command where
  | params (command : ParamsCommand)
  | inject (command : InjectCommand)
  deriving DecidableEq, Repr

/-- A command, and how much is to be told about it. -/
structure Invocation where
  verbosity : Verbosity
  command : Command
  deriving DecidableEq, Repr

/-- The option that names the directory below which the source files lie. -/
def rootOption : Text := ['r', 'o', 'o', 't']

/-- The option that names an extension of the source files. -/
def extensionOption : Text := ['e', 'x', 't']

/-- The option that names the file of the definition table. -/
def definitionsOption : Text := ['d', 'e', 'f', 's']

/-- The option that says how deep below the root the source files lie. -/
def depthOption : Text := ['d', 'e', 'p', 't', 'h']

/-- The flag that has nothing written. -/
def dryRunFlag : Text := ['d', 'r', 'y', '-', 'r', 'u', 'n']

/-- The flag that has a run go on after a file has failed. -/
def keepGoingFlag : Text := ['k', 'e', 'e', 'p', '-', 'g', 'o', 'i', 'n', 'g']

/-- The flag that admits the wider range of characters in the names of parameters. -/
def legacyFlag : Text :=
  ['l', 'e', 'g', 'a', 'c', 'y', '-', 'n', 'a', 'm', 'e', '-', 'r', 'a', 'n', 'g', 'e']

/-- A number of names, written in decimal digits with or without a plus sign, and less than
`2 ^ 64`. -/
def depth? (s : Text) : Option Nat :=
  let digits := (after? ['+'] s).getD s
  if digits.isEmpty || !digits.all Char.isDigit then none
  else
    let n := digits.foldl (fun n c => n * 10 + (c.toNat - 48)) 0
    if n < powTwo 64 then some n else none

/-- Whether an option can have a value: a path must not be empty, and a depth must be a
number. -/
def admitsValue (name value : Text) : Bool :=
  if name = rootOption ∨ name = definitionsOption then !value.isEmpty
  else if name = depthOption then (depth? value).isSome
  else true

/-- The options that may stand before a pass. -/
def commonOptions : Options := ⟨[verboseFlag, quietFlag], [], [], admitsValue⟩

/-- The options for tagging parameters. -/
def paramsOptions : Options where
  flags := [verboseFlag, quietFlag, dryRunFlag, legacyFlag]
  valued := [rootOption, extensionOption]
  repeatable := []
  admits := admitsValue

/-- The options for putting definitions into files. -/
def injectOptions : Options where
  flags := [verboseFlag, quietFlag, dryRunFlag, keepGoingFlag]
  valued := [rootOption, definitionsOption, depthOption, extensionOption]
  repeatable := [extensionOption]
  admits := admitsValue

/-- The path that an option gives, if it is given. -/
def Given.path? (given : Given) (name : Text) : Option Path :=
  (given.valuesOf name).head?.map Path.ofText

/-- The root that is given, or else the directory itself. -/
def Given.root (given : Given) : Path := (given.path? rootOption).getD ⟨[46]⟩

/-- The command for tagging parameters that options describe. -/
def paramsCommand (given : Given) : Command :=
  let extension := (given.valuesOf extensionOption).head?.getD ['j', 's']
  let names := if given.has legacyFlag then NameCharset.legacy else .strict
  .params ⟨given.root, ⟨.anywhere [extension], names, given.has dryRunFlag⟩⟩

/-- The command for putting definitions into files that options describe. -/
def injectCommand (given : Given) : Command :=
  let extensions := given.valuesOf extensionOption
  .inject {
    root := given.root
    definitions := given.path? definitionsOption
    depth := ((given.valuesOf depthOption).head?.bind depth?).getD 2
    extensions := if extensions.isEmpty then [['j', 's'], ['t', 's']] else extensions
    keepGoing := given.has keepGoingFlag
    dryRun := given.has dryRunFlag }

/-- Whether both flags that say how much is told were given at one place. -/
def Given.conflicting (given : Given) : Bool := given.has verboseFlag && given.has quietFlag

/-- How much is told, the flags from both places being taken together. The flag for telling
nothing counts more. -/
def verbosity (before behind : Given) : Verbosity :=
  if before.has quietFlag || behind.has quietFlag then .quiet
  else if before.has verboseFlag || behind.has verboseFlag then .verbose
  else .normal

/-- The pass that a word names, with its options and the command that they describe. -/
def passOfWord? (s : Text) : Option (Options × (Given → Command)) :=
  if s = Pass.params.name then some (paramsOptions, paramsCommand)
  else if s = Pass.inject.name then some (injectOptions, injectCommand)
  else none

/-- What is behind the word that asks for help: nothing, or one word that help can be given
on. -/
def helpTopic (arguments : List Text) : Refusal :=
  match arguments with
  | [] => .help
  | [topic] => if (passOfWord? topic).isSome ∨ topic = helpFlag then .help else .usage
  | _ => .usage

/-- Reads the arguments from some place before the pass on. -/
def readFrom (before : Given) : List Text → Except Refusal Invocation
  | [] => .error .usage
  | argument :: rest =>
    match Argument.ofText argument with
    | .escape => .error .usage
    | .short letters => do readFrom (← readLetters commonOptions before letters) rest
    | .long name value =>
      if value.isSome then .error .usage
      else do readFrom (← readFlag commonOptions before name) rest
    | .plain s =>
      if s = helpFlag then .error (helpTopic rest)
      else
        match passOfWord? s with
        | none => .error .usage
        | some (options, command) => do
          let behind ← readOptions options .nothing rest
          if before.conflicting || behind.conflicting then .error .usage
          else return ⟨verbosity before behind, command behind⟩

/-- What a command line asks for. -/
def read (arguments : List Text) : Except Refusal Invocation := readFrom .nothing arguments

end DocBlocks.CommandLine
