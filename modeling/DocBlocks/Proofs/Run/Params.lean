import DocBlocks.Proofs.Param.Twice
import DocBlocks.Proofs.Run.Pointwise
import DocBlocks.Run.Params

/-!
# What Becomes of a File Whose Parameters Are Tagged

A visit of the run that tags parameters looks at one file only, and no file of a tree in memory
is at fault for it. So there is a verdict on every file (`ParamsConfig.judge`): it gets its
tagged text if that is another one and the run is not dry. The line endings of a tagged text are
normalized already, so that normalizing them once more when it is written changes nothing.

## Main results

* `ParamsConfig.judges`: visits to a tree in memory, file by file.
-/

namespace DocBlocks

open Text

/-- What comes of a file for which a new text has been found. `report` is what the visit has
counted before. -/
def Verdict.ofCommit (dryRun : Bool) (old new : Text) (report : Report) : Verdict :=
  if new = old then ⟨old, report⟩
  else if dryRun then ⟨old, report + { written := 1 }⟩
  else ⟨new, report + { written := 1 }⟩

/-- What comes of a visit to a file. -/
def ParamsConfig.judge (config : ParamsConfig) : Judgement := fun _ s =>
  .ok (.ofCommit config.dryRun s (tagParams config.names s) { scanned := 1 })

section Commit

variable {tree : MemoryTree} {path : Path} {s : Text}

/-- **Committing a file** of a tree in memory, if the line endings of its new text stay. -/
theorem commitVisit_memory {endings : LineEndings} {dryRun : Bool} {new : Text}
    {log : List Event} {report : Report} (hendings : endings.apply new = new) :
    (commitVisit endings dryRun tree path s new log report).result =
        .ok (Verdict.ofCommit dryRun s new report).report ∧
      (commitVisit endings dryRun tree path s new log report).tree =
        tree.settle path s (Verdict.ofCommit dryRun s new report).text := by
  rw [commitVisit, commit, hendings, Verdict.ofCommit]
  by_cases hsame : new = s
  · rw [if_pos hsame, if_pos hsame, MemoryTree.settle_self]
    exact ⟨rfl, rfl⟩
  · rw [if_neg hsame, if_neg hsame]
    cases dryRun with
    | true =>
        rw [if_pos rfl, if_pos rfl, MemoryTree.settle_self]
        exact ⟨rfl, rfl⟩
    | false =>
        rw [if_neg Bool.false_ne_true, if_neg Bool.false_ne_true, MemoryTree.settle_of_ne hsame]
        exact ⟨rfl, rfl⟩

end Commit

theorem ParamsConfig.visit_of_get?_eq_some (config : ParamsConfig) {tree : MemoryTree}
    {path : Path} {s : Text} (hget : tree.get? path = some s) :
    config.visit tree path = commitVisit .normalize config.dryRun tree path s
      (tagParams config.names s) [] { scanned := 1 } := by
  have hread : SourceTree.read tree path = .ok s := by simp only [SourceTree.read, hget]
  rw [ParamsConfig.visit, hread]

/-- Visits to a tree in memory do to each file what the verdict on it says. -/
theorem ParamsConfig.judges (config : ParamsConfig) : Judges config.visit config.judge := by
  have hendings : ∀ s, LineEndings.normalize.apply (tagParams config.names s) =
      tagParams config.names s := fun s => normalize_of_not_mem (not_mem_tagParams config.names s)
  constructor
  · intro tree path s hget
    rw [config.visit_of_get?_eq_some hget, (commitVisit_memory (hendings s)).1]
    rfl
  · intro tree path s hget
    rw [config.visit_of_get?_eq_some hget, (commitVisit_memory (hendings s)).2]
    rfl

end DocBlocks
