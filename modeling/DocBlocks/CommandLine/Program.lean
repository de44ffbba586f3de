import DocBlocks.CommandLine.Arguments
import DocBlocks.Tree.Directory

/-!
# The Program

The program as a whole is a function of its arguments and of what there is when it is started,
which includes the directory it is started in. It returns what it leaves behind, what it tells,
and how it ends. A definition table is read before any source file is, so that a table that
cannot be read leaves all files as they are.
-/

namespace DocBlocks.CommandLine

/-- Why a run has failed. -/
inductive Failure where
  /-- The depth that was asked for is zero. -/
  | noDepth
  /-- The definition table cannot be had. -/
  | definitions (fault : Fault)
  /-- A pass was stopped. -/
  | stopped (pass : Pass) (root : Path) (fault : Fault)
  deriving DecidableEq, Repr

/-- How the program ends. -/
inductive Ending where
  /-- The run is done. -/
  | success
  /-- The run has failed. -/
  | failure (failure : Failure)
  /-- There was no run. -/
  | refused (refusal : Refusal)
  deriving DecidableEq, Repr

/-- The exit status of the program. -/
def Ending.status : Ending → UInt32
  | success => 0
  | failure _ => 1
  | refused .help => 0
  | refused .usage => 2

/-- What the program leaves behind. -/
structure Finish where
  /-- What there is after it. -/
  top : Site
  /-- What it has told, whether or not it is to be shown. -/
  log : List Event
  ending : Ending
  deriving Repr

/-! ### Running a command -/

/-- Ends a pass whose outcome is known. `log` is what has been told before it. -/
def finishPass (pass : Pass) (root : Path) (log : List Event)
    (outcome : Outcome DirectoryTree Fault Report) : Finish :=
  match outcome.result with
  | .ok report =>
    ⟨outcome.tree.top, log ++ outcome.log ++ [.done pass report], .success⟩
  | .error fault =>
    ⟨outcome.tree.top, log ++ outcome.log, .failure (.stopped pass root fault)⟩

/-- Tags the parameters of a tree. -/
def ParamsCommand.run (command : ParamsCommand) (top : Site) : Finish :=
  finishPass .params command.root [] (runParams command.config ⟨top, command.root⟩)

/-- The usual name of a definition table. -/
def usualDefinitions : Text :=
  ['d', 'e', 'f', 'i', 'n', 'i', 't', 'i', 'o', 'n', 's', '.', 'j', 's', 'o', 'n']

/-- The path of the definition table, which usually lies in the root. -/
def InjectCommand.table (command : InjectCommand) : Path :=
  command.definitions.getD (command.root.join (Text.utf8 usualDefinitions))

/-- The run that a command asks for. -/
def InjectCommand.config (command : InjectCommand) : InjectConfig :=
  ⟨.atDepth command.depth command.extensions, command.keepGoing, command.dryRun⟩

/-- Puts definitions into the files of a tree. -/
def InjectCommand.run (command : InjectCommand) (top : Site) : Finish :=
  if command.depth = 0 then ⟨top, [], .failure .noDepth⟩
  else
    match DirectoryTree.loadTable top command.table with
    | .error fault => ⟨top, [], .failure (.definitions fault)⟩
    | .ok table =>
      finishPass .inject command.root [.loaded command.table table.size]
        (runInject command.config table ⟨top, command.root⟩)

/-- Runs a command. -/
def Command.run (command : Command) (top : Site) : Finish :=
  match command with
  | params command => command.run top
  | inject command => command.run top

/-- Runs the program. -/
def run (arguments : List Text) (top : Site) : Finish :=
  match read arguments with
  | .error refusal => ⟨top, [], .refused refusal⟩
  | .ok invocation => invocation.command.run top

/-- Whether a command can come to read a file of the given name: one with a wanted
extension, or one that is called like the definition table. -/
def Command.mayRead (command : Command) (name : Bytes) : Bool :=
  let wanted (extensions : List Text) : Bool :=
    (Selection.anywhere extensions).acceptsParts [.name name]
  match command with
  | params command => wanted command.config.selection.extensions
  | inject command =>
    wanted command.extensions || fileName? command.table.parts == some name

/-! ### What is shown -/

/-- Whether an event is shown. -/
def Verbosity.shows : Verbosity → Event → Bool
  | quiet, _ => false
  | normal, event => event.level = .warn
  | verbose, _ => true

/-- The events that are shown of what the program has told. -/
def shownLog (arguments : List Text) (finish : Finish) : List Event :=
  match read arguments with
  | .error _ => []
  | .ok invocation => finish.log.filter invocation.verbosity.shows

/-- The name of a pass in a message. -/
def passName (pass : Pass) : String := String.ofList pass.name

/-- What a message says about a failure first. -/
def Failure.headline : Failure → String
  | noDepth => "--depth must be at least 1"
  | definitions fault => fault.message
  | stopped pass root _ => passName pass ++ " pass failed under " ++ root.toString

/-- The causes behind a failure, each the cause of the one before it. -/
def Failure.causes : Failure → List String
  | noDepth => []
  | definitions fault => fault.cause?.toList.map IoCause.message
  | stopped _ _ fault => fault.message :: fault.cause?.toList.map IoCause.message

/-- A text of several lines with `first` before its first line and `others` before each
other one. -/
def indented (first others s : String) : List String :=
  (Text.splitLines s.toList).zipIdx.map fun (line, i) =>
    (if i = 0 then first else others) ++ String.ofList line

/-- The lines that report a failure. A cause that is not the only one has a number. -/
def Failure.report (failure : Failure) : List String :=
  let headline := indented "Error: " "" failure.headline
  match failure.causes with
  | [] => headline
  | [cause] => headline ++ ["", "Caused by:"] ++ indented "    " "    " cause
  | causes =>
    headline ++ ["", "Caused by:"] ++ causes.zipIdx.flatMap fun (cause, i) =>
      indented ("    " ++ toString i ++ ": ") "       " cause

end DocBlocks.CommandLine
