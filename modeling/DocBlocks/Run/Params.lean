import DocBlocks.Param.Section
import DocBlocks.Run.Visit

/-!
# Tagging the Parameters of a Tree

This run puts the parameter lines of all wanted files into tagged form. It normalizes line
endings on the way and stops at the first file at fault.
-/

namespace DocBlocks

open Text

/-- What a run over the parameter lines of a tree is to do. -/
structure ParamsConfig where
  /-- The files to visit. -/
  selection : Selection := .anywhere [['j', 's']]
  /-- What names of parameters consist of. -/
  names : NameCharset := .strict
  /-- Whether to leave all files as they are. -/
  dryRun : Bool := false
  deriving DecidableEq, Repr

/-- Visits one file. -/
def ParamsConfig.visit {σ : Type} [SourceTree σ] (config : ParamsConfig) (tree : σ)
    (path : Path) : Outcome σ FileFault Report :=
  match SourceTree.read tree path with
  | .error cause => ⟨tree, [], .error (.io path cause)⟩
  | .ok old =>
    commitVisit .normalize config.dryRun tree path old (tagParams config.names old) []
      { scanned := 1 }

/-- Puts the parameter lines of a tree into tagged form. -/
def runParams {σ : Type} [SourceTree σ] (config : ParamsConfig) (tree : σ) :
    Outcome σ Fault Report :=
  visitTree config.selection false config.visit tree

end DocBlocks
