import DocBlocks.Run.Report
import DocBlocks.Text.LineEnding
import DocBlocks.Tree.Basic

/-!
# Visiting Files

A run visits the files of a tree one after the other (`visitAll`). Every visit is made to
the tree that the visits before it have left behind, and what they have done is not undone
when the run stops.

What becomes of a file at fault depends on the run. Either the run stops there, or the file
is passed over and put on a list of failures. A fault in the listing itself stops every run.

A file is written only if its text changes, and on a dry run not even then (`commit`).
-/

namespace DocBlocks

open Text

variable {σ : Type}

/-! ### Writing a file -/

/-- What has become of a file. -/
inductive Committed where
  /-- Its text stays the same. -/
  | unchanged
  /-- It has been written. -/
  | written
  /-- It would have been written if the run were not dry. -/
  | skipped
  deriving DecidableEq, Repr

/-- Writes the new text of a file unless it is the same as the old one. -/
def commit [SourceTree σ] (endings : LineEndings) (dryRun : Bool) (tree : σ) (path : Path)
    (old new : Text) : Except IoCause (σ × Committed) :=
  let new := endings.apply new
  if new = old then .ok (tree, .unchanged)
  else if dryRun then .ok (tree, .skipped)
  else (SourceTree.write tree path new).map (·, .written)

/-- What is told about a file that has been committed. -/
def Committed.log (path : Path) : Committed → List Event
  | unchanged => []
  | written => [.wrote path]
  | skipped => [.wouldWrite path]

/-- How a file that has been committed counts. -/
def Committed.report : Committed → Report
  | unchanged => {}
  | written => { written := 1 }
  | skipped => { written := 1 }

/-! ### Visiting one file and all files -/

/-- The state of a tree after something was done to it, with what was told and what came of
it. -/
structure Outcome (σ ε α : Type) where
  tree : σ
  log : List Event
  result : Except ε α
  deriving Repr

/-- Ends a visit by committing the new text of the file. `log` and `report` are what the
visit has told and counted before. -/
def commitVisit [SourceTree σ] (endings : LineEndings) (dryRun : Bool) (tree : σ)
    (path : Path) (old new : Text) (log : List Event) (report : Report) :
    Outcome σ FileFault Report :=
  match commit endings dryRun tree path old new with
  | .error cause => ⟨tree, log, .error (.io path cause)⟩
  | .ok (tree, done) => ⟨tree, log ++ done.log path, .ok (report + done.report)⟩

/-- What came of all visits. -/
structure Tally where
  /-- The sum of the counts. -/
  report : Report
  /-- The files that were passed over, in the order of the visit. -/
  failures : List (Path × FileFault)
  deriving DecidableEq, Repr

/-- Visits the files of a listing. If `keepGoing` is set, files at fault are passed over. -/
def visitAll (keepGoing : Bool) (visit : σ → Path → Outcome σ FileFault Report) :
    σ → List (Except FileFault Path) → Outcome σ FileFault Tally
  | tree, [] => ⟨tree, [], .ok ⟨{}, []⟩⟩
  | tree, .error fault :: _ => ⟨tree, [], .error fault⟩
  | tree, .ok path :: rest =>
    let here := visit tree path
    match here.result with
    | .ok report =>
      let later := visitAll keepGoing visit here.tree rest
      ⟨later.tree, here.log ++ later.log,
        later.result.map fun tally => { tally with report := report + tally.report }⟩
    | .error fault =>
      if keepGoing then
        let later := visitAll keepGoing visit here.tree rest
        ⟨later.tree, here.log ++ .skipped path fault :: later.log,
          later.result.map fun tally =>
            { tally with failures := (path, fault) :: tally.failures }⟩
      else ⟨here.tree, here.log, .error fault⟩

/-- What a run returns: its report, or the files that it has passed over. -/
def Tally.result (tally : Tally) : Except Fault Report :=
  if tally.failures.isEmpty then .ok tally.report else .error (.files tally.failures)

/-- Lists the wanted files of a tree and visits them. -/
def visitTree [SourceTree σ] (selection : Selection) (keepGoing : Bool)
    (visit : σ → Path → Outcome σ FileFault Report) (tree : σ) : Outcome σ Fault Report :=
  match SourceTree.files tree selection with
  | .error fault => ⟨tree, [], .error fault⟩
  | .ok files =>
    let all := visitAll keepGoing visit tree files
    ⟨all.tree, all.log,
      match all.result with
      | .error fault => .error (.file fault)
      | .ok tally => tally.result⟩

end DocBlocks
