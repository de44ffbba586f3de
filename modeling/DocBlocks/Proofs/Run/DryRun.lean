import DocBlocks.Proofs.Run.FailFast
import DocBlocks.Proofs.Run.Lockstep
import DocBlocks.Proofs.Run.Params

/-!
# Dry Runs

A dry run leaves every tree as it is, because no visit of it writes anything. Over a tree in
memory, where no write fails, it also returns what the run itself would return, be it a report or
a fault. The run itself changes the tree while it goes on reading it; but it returns what the
verdicts on the single files say (`Judges.result_visitTree`), each of which is on the text that
the file has had from the beginning, and the counts and faults of a verdict do not depend on
whether the run is dry.

## Main results

* `InjectConfig.tree_visit_of_dryRun`, `ParamsConfig.tree_visit_of_dryRun`: a visit that writes
  nothing, to whatever tree.
* `Judges.result_visitTree`: what a run returns, whether or not it goes on at faults.
* `dryRun_predicts`: dry runs over a tree in memory.
-/

namespace DocBlocks

open Text

/-! ### Nothing is written -/

section Idle

variable {σ : Type} [SourceTree σ]

theorem tree_commitVisit_of_dryRun (endings : LineEndings) (tree : σ) (path : Path)
    (old new : Text) (log : List Event) (report : Report) :
    (commitVisit endings true tree path old new log report).tree = tree := by
  rw [commitVisit, commit]
  by_cases hsame : endings.apply new = old
  · rw [if_pos hsame]
  · rw [if_neg hsame, if_pos rfl]

/-- **A visit of a dry run** leaves the tree as it is. -/
theorem InjectConfig.tree_visit_of_dryRun {config : InjectConfig} (h : config.dryRun = true)
    (table : Table) (tree : σ) (path : Path) : (config.visit table tree path).tree = tree := by
  rw [InjectConfig.visit]
  cases SourceTree.read tree path with
  | error cause => rfl
  | ok old =>
      dsimp only
      cases table.injectFile locate path old with
      | error fault => rfl
      | ok injected =>
          cases injected with
          | none => rfl
          | some done =>
              rw [h]
              exact tree_commitVisit_of_dryRun _ _ _ _ _ _ _

theorem ParamsConfig.tree_visit_of_dryRun {config : ParamsConfig} (h : config.dryRun = true)
    (tree : σ) (path : Path) : (config.visit tree path).tree = tree := by
  rw [ParamsConfig.visit]
  cases SourceTree.read tree path with
  | error cause => rfl
  | ok old =>
      rw [h]
      exact tree_commitVisit_of_dryRun _ _ _ _ _ _ _

/-- A run of visits that leave a tree as it is leaves it as it is. -/
theorem tree_visitTree_of_idle {visit : σ → Path → Outcome σ FileFault Report}
    (h : ∀ tree path, (visit tree path).tree = tree) (selection : Selection) (keepGoing : Bool)
    (tree : σ) : (visitTree selection keepGoing visit tree).tree = tree :=
  visitTree_keeps (fun now path hnow => (h now path).trans hnow) selection keepGoing rfl

end Idle

/-! ### What a run returns -/

/-- What a run returns that has come to some files at fault, if it goes on at faults and if it
does not. -/
def Tally.resultOf (keepGoing : Bool) (tally : Tally) : Except Fault Report :=
  match tally.failures with
  | [] => .ok tally.report
  | (path, fault) :: more =>
    if keepGoing then .error (.files ((path, fault) :: more)) else .error (.file fault)

theorem Tally.resultOf_true (tally : Tally) : tally.resultOf true = tally.result := by
  obtain ⟨report, failures⟩ := tally
  cases failures with
  | nil => rfl
  | cons failure more => rfl

/-- **What a run over a tree in memory returns** depends on the verdicts on its files only. -/
theorem Judges.result_visitTree {visit : MemoryTree → Path → Outcome MemoryTree FileFault Report}
    {judge : Judgement} (h : Judges visit judge) (selection : Selection) (keepGoing : Bool)
    (tree : MemoryTree) :
    (visitTree selection keepGoing visit tree).result =
      (judge.tallyOf (tree.texts.entries.filter fun e => selection.accepts e.1)).resultOf
        keepGoing := by
  obtain ⟨-, -, hslow⟩ := h.visitTree_true selection tree
  cases keepGoing with
  | true => rw [hslow, Tally.resultOf_true]
  | false =>
      have hagree := h.visitTree_false selection tree
      rw [← Tally.resultOf_true] at hslow
      cases htally : judge.tallyOf (tree.texts.entries.filter fun e => selection.accepts e.1) with
      | mk report failures =>
          rw [htally] at hslow
          cases failures with
          | nil => exact (hagree.result_iff report).mpr hslow
          | cons failure more =>
              -- What the run that goes on lists first is where the other one stops.
              obtain ⟨firstPath, firstFault⟩ := failure
              rcases hagree.tree_or_stops with
                ⟨other, hfast, -⟩ | ⟨path, fault, more', hslow', hfast, -⟩
              · have hcontra := (hagree.result_iff other).mp hfast
                rw [hslow] at hcontra
                exact absurd hcontra (by simp [Tally.resultOf])
              · rw [hslow] at hslow'
                obtain ⟨hfirst, -⟩ := List.cons.inj (Fault.files.inj (Except.error.inj hslow'))
                obtain ⟨-, rfl⟩ := Prod.mk.inj hfirst
                exact hfast

/-- Verdicts that count the same and find the same faults make the same tally. -/
theorem Judgement.tallyOf_congr {judge judge' : Judgement}
    (h : ∀ path s, (judge path s).map Verdict.report = (judge' path s).map Verdict.report)
    (entries : List (Path × Text)) : judge.tallyOf entries = judge'.tallyOf entries := by
  induction entries with
  | nil => rfl
  | cons e entries ih =>
      obtain ⟨path, s⟩ := e
      obtain ⟨hreport, hfailures⟩ := Tally.mk.inj ih
      have hverdict := h path s
      cases hjudge : judge path s with
      | ok verdict =>
          rw [hjudge] at hverdict
          obtain ⟨verdict', hjudge', hsame⟩ := exists_of_map_eq_ok hverdict.symm
          rw [tallyOf, tallyOf, reportOf_cons_of_ok hjudge, reportOf_cons_of_ok hjudge',
            failuresOf_cons_of_ok hjudge, failuresOf_cons_of_ok hjudge', hreport, hfailures, hsame]
      | error fault =>
          rw [hjudge] at hverdict
          cases hjudge' : judge' path s with
          | ok verdict' =>
              rw [hjudge'] at hverdict
              exact absurd hverdict (by simp [Except.map])
          | error fault' =>
              rw [hjudge'] at hverdict
              obtain rfl : fault = fault' := Except.error.inj hverdict
              rw [tallyOf, tallyOf, reportOf_cons_of_error hjudge, reportOf_cons_of_error hjudge',
                failuresOf_cons_of_error hjudge, failuresOf_cons_of_error hjudge', hreport,
                hfailures]

/-! ### Counts and faults -/

theorem Verdict.report_ofCommit (dryRun : Bool) (old new : Text) (report : Report) :
    (Verdict.ofCommit dryRun old new report).report =
      if new = old then report else report + { written := 1 } := by
  rw [Verdict.ofCommit]
  split
  · rfl
  · split
    · rfl
    · rfl

/-- What a file counts for does not depend on whether the run is dry. -/
theorem ParamsConfig.map_report_judge (config : ParamsConfig) (dryRun : Bool) (path : Path)
    (s : Text) :
    (({ config with dryRun } : ParamsConfig).judge path s).map Verdict.report =
      (config.judge path s).map Verdict.report := by
  rw [ParamsConfig.judge, ParamsConfig.judge, Except.map, Except.map, Verdict.report_ofCommit,
    Verdict.report_ofCommit]

/-- Neither does the fault that is found in it, where all can be written. -/
theorem InjectConfig.map_report_judge (config : InjectConfig) (table : Table) (dryRun : Bool)
    (path : Path) (s : Text) :
    (({ config with dryRun } : InjectConfig).judge table [] [] path s).map Verdict.report =
      (config.judge table [] [] path s).map Verdict.report := by
  have hdone : ∀ (other : InjectConfig) (done : Injected),
      (other.judgeInjected [] path s done).map Verdict.report =
        .ok (if done.content = s then done.report else done.report + { written := 1 }) := by
    intro other done
    rw [InjectConfig.judgeInjected]
    split
    · rfl
    · split
      · rfl
      · rfl
  rw [InjectConfig.judge, InjectConfig.judge]
  simp only [List.any_nil, Bool.false_eq_true, if_false]
  cases table.injectFile locate path s with
  | error fault => rfl
  | ok injected =>
      cases injected with
      | none => rfl
      | some done => exact (hdone _ done).trans (hdone config done).symm

/-! ### Dry runs -/

/-- **A dry run predicts the run itself and touches nothing.** Over a tree in memory, a dry run
returns the same report as the run that writes, or the same fault with the same failures, and
leaves the tree with all its texts and its record of writes as it is. This holds of both runs
under every configuration. -/
theorem dryRun_predicts (tree : MemoryTree) :
    (∀ config : ParamsConfig,
      let dry := runParams { config with dryRun := true } tree
      let real := runParams { config with dryRun := false } tree
      dry.result = real.result ∧ dry.tree = tree) ∧
    ∀ (config : InjectConfig) (table : Table),
      let dry := runInject { config with dryRun := true } table tree
      let real := runInject { config with dryRun := false } table tree
      dry.result = real.result ∧ dry.tree = tree := by
  constructor
  · intro config dry real
    have hdry : dry.result = _ :=
      (ParamsConfig.judges { config with dryRun := true }).result_visitTree config.selection false
        tree
    have hreal : real.result = _ :=
      (ParamsConfig.judges { config with dryRun := false }).result_visitTree config.selection
        false tree
    refine ⟨?_, tree_visitTree_of_idle (ParamsConfig.tree_visit_of_dryRun rfl) _ _ tree⟩
    rw [hdry, hreal, Judgement.tallyOf_congr fun path s =>
      (config.map_report_judge true path s).trans (config.map_report_judge false path s).symm]
  · intro config table dry real
    have hdry : dry.result = _ :=
      (InjectConfig.judges { config with dryRun := true } table).result_visitTree
        config.selection config.keepGoing tree
    have hreal : real.result = _ :=
      (InjectConfig.judges { config with dryRun := false } table).result_visitTree
        config.selection config.keepGoing tree
    refine ⟨?_, tree_visitTree_of_idle (InjectConfig.tree_visit_of_dryRun rfl table) _ _ tree⟩
    rw [hdry, hreal, Judgement.tallyOf_congr fun path s =>
      (config.map_report_judge table true path s).trans
        (config.map_report_judge table false path s).symm]

end DocBlocks
