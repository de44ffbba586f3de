import DocBlocks.Proofs.Run.Inject
import Mathlib.Algebra.GroupWithZero.Nat

/-!
# Putting Definitions into a Tree in Memory

The run that passes over files at fault is a map over the tree. Each file that is selected,
has an entry and has no line that ends in `\r\n` gets the text that its entry makes of it, and
no other file changes. What is written are the files whose text changes, in the order of their
paths. If there are files at fault then the run returns all of them, and if there are none it
returns the counts of the single files summed up.

## Main results

* `runInject_keepGoing`: the run that passes over files at fault, file by file.
-/

namespace DocBlocks

open Text

/-! ### The verdict in view of the entry -/

/-- The file of a path and a text with its entry put in, if the table has one for it. -/
def Table.injected? (table : Table) (path : Path) (s : Text) : Option Injected :=
  path.symbol?.bind fun symbol =>
    (table.get? symbol).map fun entry => entry.inject locate symbol s

section Verdict

variable {table : Table} {selection : Selection} {path : Path} {s : Text}

theorem Table.injectFile_locate :
    table.injectFile locate path s =
      match table.injected? path s with
      | none => .ok none
      | some done => if hasCrlf s then .error (.crlf path) else .ok (some done) := by
  rw [Table.injectFile, Table.injected?]
  cases path.symbol? with
  | none => rfl
  | some symbol =>
      dsimp only [Option.bind_some]
      cases table.get? symbol with
      | none => rfl
      | some entry => rfl

/-- The run that passes over files at fault and writes all others. -/
def injectAll (selection : Selection) : InjectConfig :=
  { selection, keepGoing := true, dryRun := false }

/-- A file without an entry stays as it is. -/
theorem judge_of_injected?_eq_none (h : table.injected? path s = none) :
    (injectAll selection).judge table [] [] path s = .ok ⟨s, { scanned := 1 }⟩ := by
  rw [InjectConfig.judge, Table.injectFile_locate, h]
  rfl

/-- A file with an entry is at fault if it has a line that ends in `\r\n`. -/
theorem judge_of_hasCrlf {done : Injected} (h : table.injected? path s = some done)
    (hcrlf : hasCrlf s = true) :
    (injectAll selection).judge table [] [] path s = .error (.crlf path) := by
  rw [InjectConfig.judge, Table.injectFile_locate, h]
  simp only [hcrlf, if_true]
  rfl

/-- Any other file gets the text that its entry makes of it. -/
theorem judge_of_injected?_eq_some {done : Injected} (h : table.injected? path s = some done)
    (hcrlf : hasCrlf s = false) :
    (injectAll selection).judge table [] [] path s =
      .ok ⟨done.content,
        done.report + if done.content = s then {} else { written := 1 }⟩ := by
  have hjudge : (injectAll selection).judge table [] [] path s =
      (injectAll selection).judgeInjected [] path s done := by
    rw [InjectConfig.judge, Table.injectFile_locate, h]
    simp only [hcrlf]
    rfl
  rw [hjudge, InjectConfig.judgeInjected]
  by_cases hsame : done.content = s
  · rw [if_pos hsame, if_pos hsame, hsame]
    rfl
  · rw [if_neg hsame, if_neg hsame]
    rfl

end Verdict

/-- The text of a file after the run: what its entry makes of it, if it is selected, has an
entry and has no line that ends in `\r\n`. -/
def Table.textAfter (table : Table) (selection : Selection) (path : Path) (s : Text) : Text :=
  if selection.accepts path && !hasCrlf s then
    ((table.injected? path s).map Injected.content).getD s
  else s

section Tally

variable {table : Table} {selection : Selection} {entries : List (Path × Text)}

theorem finalText_injectAll (path : Path) (s : Text) :
    ((injectAll selection).judge table [] []).finalText selection.accepts path s =
      table.textAfter selection path s := by
  rw [Judgement.finalText, Table.textAfter]
  by_cases haccepts : selection.accepts path = true
  · rw [if_pos haccepts, haccepts, Bool.true_and]
    cases hdone : table.injected? path s with
    | none =>
        rw [judge_of_injected?_eq_none hdone]
        simp [Verdict.textOr]
    | some done =>
        cases hcrlf : hasCrlf s with
        | true =>
            rw [judge_of_hasCrlf hdone hcrlf]
            rfl
        | false =>
            rw [judge_of_injected?_eq_some hdone hcrlf]
            rfl
  · simp [haccepts]

/-- The files at fault are those with an entry and with a line that ends in `\r\n`. -/
theorem failuresOf_injectAll (entries : List (Path × Text)) :
    ((injectAll selection).judge table [] []).failuresOf entries =
      (entries.filter fun e => (table.injected? e.1 e.2).isSome && hasCrlf e.2).map
        fun e => (e.1, .crlf e.1) := by
  induction entries with
  | nil => rfl
  | cons e entries ih =>
      obtain ⟨path, s⟩ := e
      cases hdone : table.injected? path s with
      | none =>
          rw [Judgement.failuresOf_cons_of_ok (judge_of_injected?_eq_none hdone), ih,
            List.filter_cons_of_neg (by simp [hdone])]
      | some done =>
          cases hcrlf : hasCrlf s with
          | true =>
              rw [Judgement.failuresOf_cons_of_error (judge_of_hasCrlf hdone hcrlf), ih,
                List.filter_cons_of_pos (by simp [hdone, hcrlf]), List.map_cons]
          | false =>
              rw [Judgement.failuresOf_cons_of_ok (judge_of_injected?_eq_some hdone hcrlf), ih,
                List.filter_cons_of_neg (by simp [hcrlf])]

/-- The counts of selected files none of which is at fault. -/
theorem reportOf_injectAll (haccepts : ∀ e ∈ entries, selection.accepts e.1 = true)
    (hfault : ∀ e ∈ entries, (table.injected? e.1 e.2).isSome → hasCrlf e.2 = false) :
    ((injectAll selection).judge table [] []).reportOf entries =
      { scanned := entries.length
        targeted := entries.countP fun e => (table.injected? e.1 e.2).isSome
        written := entries.countP fun e => table.textAfter selection e.1 e.2 ≠ e.2
        replaced := ((entries.filterMap fun e => table.injected? e.1 e.2).map
          Injected.replaced).sum
        missed := ((entries.filterMap fun e => table.injected? e.1 e.2).map
          fun done => done.missed.length).sum } := by
  induction entries with
  | nil => rfl
  | cons e entries ih =>
      obtain ⟨path, s⟩ := e
      have hrest := ih (fun e he => haccepts e (List.mem_cons_of_mem _ he))
        fun e he => hfault e (List.mem_cons_of_mem _ he)
      have haccepts : selection.accepts path = true := haccepts (path, s) List.mem_cons_self
      have hfault : (table.injected? path s).isSome → hasCrlf s = false :=
        hfault (path, s) List.mem_cons_self
      cases hdone : table.injected? path s with
      | none =>
          have htext : table.textAfter selection path s = s := by
            simp [Table.textAfter, hdone]
          have hmap : ((path, s) :: entries).filterMap (fun e => table.injected? e.1 e.2) =
              entries.filterMap fun e => table.injected? e.1 e.2 := by
            rw [List.filterMap_cons, hdone]
          rw [Judgement.reportOf_cons_of_ok (judge_of_injected?_eq_none hdone), hrest,
            List.countP_cons_of_neg (by simp [hdone]), List.countP_cons_of_neg (by simp [htext]),
            hmap, List.length_cons, Report.add_eq, Report.mk.injEq]
          dsimp only
          omega
      | some done =>
          have hcrlf : hasCrlf s = false := hfault (by rw [hdone]; rfl)
          have htext : table.textAfter selection path s = done.content := by
            simp [Table.textAfter, hdone, haccepts, hcrlf]
          have hmap : ((path, s) :: entries).filterMap (fun e => table.injected? e.1 e.2) =
              done :: entries.filterMap fun e => table.injected? e.1 e.2 := by
            rw [List.filterMap_cons, hdone]
          rw [Judgement.reportOf_cons_of_ok (judge_of_injected?_eq_some hdone hcrlf), hrest,
            List.countP_cons_of_pos (by simp [hdone]), hmap, List.map_cons, List.map_cons,
            List.sum_cons, List.sum_cons, List.length_cons, Injected.report]
          by_cases hsame : done.content = s
          · rw [if_pos hsame, List.countP_cons_of_neg (by simp [htext, hsame]), Report.add_eq,
              Report.add_eq, Report.mk.injEq]
            dsimp only
            omega
          · rw [if_neg hsame, List.countP_cons_of_pos (by simp [htext, hsame]), Report.add_eq,
              Report.add_eq, Report.mk.injEq]
            dsimp only
            omega

/-- Only selected files change. -/
theorem accepts_of_textAfter_ne {path : Path} {s : Text}
    (h : table.textAfter selection path s ≠ s) : selection.accepts path = true := by
  cases haccepts : selection.accepts path with
  | true => rfl
  | false => exact absurd (by simp [Table.textAfter, haccepts]) h

end Tally

/-! ### The run -/

/-- **The run that passes over files at fault is a map over the tree.** The paths stay, and the
text of each is that after the run (`Table.textAfter`). What is written are the paths whose
texts change, in their order. The run returns the selected files with an entry and with a line
that ends in `\r\n`, in the order of their paths, or, if there are none, what it has counted. -/
theorem runInject_keepGoing (table : Table) (selection : Selection) (tree : MemoryTree) :
    let out := runInject { selection, keepGoing := true, dryRun := false } table tree
    let selected := tree.texts.entries.filter fun e => selection.accepts e.1
    let done := selected.filterMap fun e => table.injected? e.1 e.2
    let failing := selected.filter fun e => (table.injected? e.1 e.2).isSome && hasCrlf e.2
    let changed := tree.texts.entries.filter fun e => table.textAfter selection e.1 e.2 ≠ e.2
    out.tree.texts.entries =
        tree.texts.entries.map (fun e => (e.1, table.textAfter selection e.1 e.2)) ∧
      out.tree.writes = tree.writes ++ changed.map (·.1) ∧
      (changed.map (·.1)).Pairwise (fun p q => compare p q = .lt) ∧
      (failing ≠ [] → out.result = .error (.files (failing.map fun e => (e.1, .crlf e.1)))) ∧
      (failing = [] → out.result = .ok
        { scanned := selected.length
          targeted := selected.countP fun e => (table.injected? e.1 e.2).isSome
          written := changed.length
          replaced := (done.map Injected.replaced).sum
          missed := (done.map fun injected => injected.missed.length).sum }) := by
  intro out selected done failing changed
  obtain ⟨hentries, hwrites, hresult⟩ :=
    ((injectAll selection).judges table).visitTree_true selection tree
  simp only [finalText_injectAll] at hentries hwrites
  have hfailures : ((injectAll selection).judge table [] []).failuresOf selected =
      failing.map fun e => (e.1, .crlf e.1) := failuresOf_injectAll selected
  have hascending : (changed.map (·.1)).Pairwise (fun p q => compare p q = .lt) :=
    List.pairwise_map.mpr (tree.texts.ascending.sublist List.filter_sublist)
  refine ⟨hentries, hwrites, hascending, fun hne => ?_, fun hnil => ?_⟩
  · refine hresult.trans ?_
    rw [Judgement.tallyOf, hfailures, Tally.result, if_neg (by simpa using hne)]
  · have haccepts : ∀ e ∈ selected, selection.accepts e.1 = true :=
      fun e he => (List.mem_filter.mp he).2
    have hfault : ∀ e ∈ selected, (table.injected? e.1 e.2).isSome → hasCrlf e.2 = false := by
      intro e he hsome
      have hnot := List.filter_eq_nil_iff.mp hnil e he
      simpa [hsome] using hnot
    have hchanged : selected.countP (fun e => table.textAfter selection e.1 e.2 ≠ e.2) =
        changed.length := by
      rw [List.countP_filter, ← List.countP_eq_length_filter]
      refine List.countP_congr fun e _ => ?_
      simp only [Bool.and_eq_true, decide_eq_true_eq]
      exact ⟨fun h => h.1, fun h => ⟨h, accepts_of_textAfter_ne h⟩⟩
    refine hresult.trans ?_
    rw [Judgement.tallyOf, hfailures, hnil, Tally.result, List.map_nil]
    refine congrArg Except.ok ?_
    rw [← hchanged]
    exact reportOf_injectAll haccepts hfault

end DocBlocks
