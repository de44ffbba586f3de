import DocBlocks.Proofs.Run.FailFast
import DocBlocks.Proofs.Run.Params

/-!
# Tagging a Tree in Memory

The run that tags parameters is a map over a tree in memory: every selected file gets its tagged
text, and no other file changes. No file is at fault for such a run, so that it always returns
its counts, and it makes no difference that it would stop at a fault.

A tagged text is left alone when it is tagged again, because it has no carriage return left and
no line of it is a parameter line of the old form any more. So one run is enough. The next one
visits the same files, finds nothing to write and leaves the tree as it is, down to the record of
what has been written.

## Main results

* `tagParams_self`: tagging a text again.
* `Judges.visitTree_false_of_isOk`: without files at fault, stopping at faults is going on.
* `runParams_memory`: one run, file by file.
* `runParams_converges`: one run and the run after it.
-/

namespace DocBlocks

open Text

/-! ### Tagged texts -/

theorem NameCharset.union_self (names : NameCharset) : names.union names = names := by
  cases names <;> rfl

/-- The line endings of a tagged text are normalized. -/
theorem normalize_tagParams (names : NameCharset) (s : Text) :
    normalize (tagParams names s) = tagParams names s :=
  normalize_of_not_mem (not_mem_tagParams names s)

/-- **A tagged text** is left alone when it is tagged again. -/
theorem tagParams_self (names : NameCharset) (s : Text) :
    tagParams names (tagParams names s) = tagParams names s := by
  rw [tagParams, normalize_tagParams, splitLines_tagParams, tagLines_tagLines,
    NameCharset.union_self, ← tagParams]

/-! ### Runs without files at fault -/

section NoFault

variable {visit : MemoryTree → Path → Outcome MemoryTree FileFault Report} {judge : Judgement}

theorem Judgement.failuresOf_eq_nil (h : ∀ path s, ∃ verdict, judge path s = .ok verdict)
    (entries : List (Path × Text)) : judge.failuresOf entries = [] := by
  induction entries with
  | nil => rfl
  | cons e entries ih =>
      obtain ⟨path, s⟩ := e
      obtain ⟨verdict, hjudge⟩ := h path s
      rw [failuresOf_cons_of_ok hjudge, ih]

/-- **Without files at fault** it does not matter whether a run would stop at one. -/
theorem Judges.visitTree_false_of_isOk (h : Judges visit judge)
    (hok : ∀ path s, ∃ verdict, judge path s = .ok verdict) (selection : Selection)
    (tree : MemoryTree) :
    visitTree selection false visit tree = visitTree selection true visit tree := by
  have hall := (h.visitAll_entries selection.accepts tree).result_eq
  rw [Judgement.tallyOf, Judgement.failuresOf_eq_nil hok] at hall
  rw [MemoryTree.visitTree_eq, MemoryTree.visitTree_eq, visitAll_false_of_failures_eq_nil hall]

end NoFault

/-! ### The verdict on a file -/

/-- The run that tags parameters and writes what it has tagged. -/
def tagAll (selection : Selection) (names : NameCharset) : ParamsConfig :=
  { selection, names, dryRun := false }

section Verdict

variable {selection : Selection} {names : NameCharset} {path : Path} {s : Text}

/-- No file is at fault. It gets its tagged text and counts as written if that is another one. -/
theorem judge_tagAll :
    (tagAll selection names).judge path s = .ok ⟨tagParams names s,
      { scanned := 1, written := if tagParams names s = s then 0 else 1 }⟩ := by
  rw [ParamsConfig.judge, tagAll, Verdict.ofCommit]
  by_cases hsame : tagParams names s = s
  · rw [if_pos hsame, if_pos hsame, hsame]
  · rw [if_neg hsame, if_neg hsame]
    rfl

/-- The text of a file after the run: its tagged text, if it is selected. -/
def taggedIn (selection : Selection) (names : NameCharset) (path : Path) (s : Text) : Text :=
  if selection.accepts path then tagParams names s else s

theorem finalText_tagAll :
    (tagAll selection names).judge.finalText selection.accepts path s =
      taggedIn selection names path s := by
  rw [Judgement.finalText, taggedIn, judge_tagAll]
  rfl

/-- The files that change are the selected ones whose tagged texts are others. -/
theorem taggedIn_ne_iff :
    taggedIn selection names path s ≠ s ↔
      selection.accepts path = true ∧ tagParams names s ≠ s := by
  rw [taggedIn]
  by_cases haccepts : selection.accepts path = true
  · rw [if_pos haccepts, and_iff_right haccepts]
  · rw [if_neg haccepts]
    exact ⟨fun h => absurd rfl h, fun h => absurd h.1 haccepts⟩

theorem taggedIn_taggedIn :
    taggedIn selection names path (taggedIn selection names path s) =
      taggedIn selection names path s := by
  rw [taggedIn, taggedIn]
  split
  · exact tagParams_self names s
  · rfl

/-- Every file counts as visited, and as written if its tagged text is another one. -/
theorem reportOf_tagAll (entries : List (Path × Text)) :
    (tagAll selection names).judge.reportOf entries =
      { scanned := entries.length
        written := (entries.filter fun e => tagParams names e.2 ≠ e.2).length } := by
  induction entries with
  | nil => rfl
  | cons e entries ih =>
      obtain ⟨path, s⟩ := e
      rw [Judgement.reportOf_cons_of_ok judge_tagAll, ih, Report.add_eq, Report.mk.injEq]
      by_cases hsame : tagParams names s = s
      · rw [List.filter_cons_of_neg (by simp [hsame]), List.length_cons, if_pos hsame]
        dsimp only
        omega
      · rw [List.filter_cons_of_pos (by simp [hsame]), List.length_cons, List.length_cons,
          if_neg hsame]
        dsimp only
        omega

end Verdict

/-! ### The run -/

/-- **The run that tags parameters is a map over the tree.** What is written are the selected
paths whose texts change, in their order, and the run returns how many paths it has visited and
how many of them it has written. -/
theorem runParams_memory (selection : Selection) (names : NameCharset) (tree : MemoryTree) :
    let out := runParams (tagAll selection names) tree
    let selected := tree.texts.entries.filter fun e => selection.accepts e.1
    let changed := selected.filter fun e => tagParams names e.2 ≠ e.2
    out.tree.texts.entries =
        tree.texts.entries.map (fun e => (e.1, taggedIn selection names e.1 e.2)) ∧
      out.tree.writes = tree.writes ++ changed.map (·.1) ∧
      out.result = .ok { scanned := selected.length, written := changed.length } := by
  intro out selected changed
  have hjudges := (tagAll selection names).judges
  have hok : ∀ path s, ∃ verdict, (tagAll selection names).judge path s = .ok verdict :=
    fun path s => ⟨_, judge_tagAll⟩
  have hrun : out = visitTree selection true (tagAll selection names).visit tree :=
    hjudges.visitTree_false_of_isOk hok selection tree
  obtain ⟨hentries, hwrites, hresult⟩ := hjudges.visitTree_true selection tree
  simp only [finalText_tagAll] at hentries hwrites
  rw [← hrun] at hentries hwrites hresult
  have hchanged : (tree.texts.entries.filter fun e => taggedIn selection names e.1 e.2 ≠ e.2) =
      changed := by
    refine Eq.trans ?_ List.filter_filter.symm
    refine List.filter_congr fun e _ => ?_
    rw [Bool.eq_iff_iff, decide_eq_true_eq, taggedIn_ne_iff, Bool.and_eq_true, decide_eq_true_eq]
    exact and_comm
  refine ⟨hentries, hwrites.trans (by rw [hchanged]), hresult.trans ?_⟩
  rw [Judgement.tallyOf, Judgement.failuresOf_eq_nil hok, reportOf_tagAll]
  rfl

/-! ### A second run -/

section Second

variable (selection : Selection) (names : NameCharset) (entries : List (Path × Text))

/-- The selected entries are the same once they are tagged, but for their texts. -/
theorem filter_accepts_map_taggedIn :
    ((entries.map fun e => (e.1, taggedIn selection names e.1 e.2)).filter fun e =>
        selection.accepts e.1) =
      (entries.filter fun e => selection.accepts e.1).map
        fun e => (e.1, taggedIn selection names e.1 e.2) := by
  rw [List.filter_map]
  rfl

/-- None of them changes once it is tagged. -/
theorem filter_ne_map_taggedIn :
    (((entries.filter fun e => selection.accepts e.1).map
        fun e => (e.1, taggedIn selection names e.1 e.2)).filter
      fun e => tagParams names e.2 ≠ e.2) = [] := by
  rw [List.filter_eq_nil_iff]
  intro e he
  obtain ⟨old, hold, rfl⟩ := List.mem_map.mp he
  have haccepts : selection.accepts old.1 = true := (List.mem_filter.mp hold).2
  simp only [taggedIn, if_pos haccepts, tagParams_self, ne_eq, not_true, decide_false,
    Bool.false_eq_true, not_false_eq_true]

theorem map_taggedIn_map_taggedIn :
    ((entries.map fun e => (e.1, taggedIn selection names e.1 e.2)).map
        fun e => (e.1, taggedIn selection names e.1 e.2)) =
      entries.map fun e => (e.1, taggedIn selection names e.1 e.2) := by
  rw [List.map_map]
  refine List.map_congr_left fun e _ => ?_
  exact congrArg (Prod.mk e.1) taggedIn_taggedIn

end Second

/-- **One run is enough.** A run over a tree in memory that tags parameters returns its counts
and never a fault. Each selected path ends with the tagged text, in which there is no line ending
left to normalize, and all other paths with the text that they have had. What is written are the
selected paths whose texts change, in their order. A second run visits the same paths, writes
none, and leaves the tree as it is. -/
theorem runParams_converges (selection : Selection) (names : NameCharset) (tree : MemoryTree) :
    let config : ParamsConfig := { selection, names, dryRun := false }
    let out := runParams config tree
    let again := runParams config out.tree
    let selected := tree.texts.entries.filter fun e => selection.accepts e.1
    let changed := selected.filter fun e => tagParams names e.2 ≠ e.2
    (∀ s, LineEndings.normalize.apply (tagParams names s) = tagParams names s) ∧
      out.tree.texts.entries = tree.texts.entries.map (fun e =>
        (e.1, if selection.accepts e.1 then tagParams names e.2 else e.2)) ∧
      out.tree.writes = tree.writes ++ changed.map (·.1) ∧
      (changed.map (·.1)).Pairwise (fun p q => compare p q = .lt) ∧
      out.result = .ok
        { scanned := selected.length, targeted := 0, written := changed.length, replaced := 0,
          missed := 0 } ∧
      again.result = .ok
        { scanned := selected.length, targeted := 0, written := 0, replaced := 0, missed := 0 } ∧
      again.tree = out.tree := by
  intro config out again selected changed
  obtain ⟨hentries, hwrites, hresult⟩ := runParams_memory selection names tree
  obtain ⟨hentries', hwrites', hresult'⟩ := runParams_memory selection names out.tree
  have hascending : (changed.map (·.1)).Pairwise (fun p q => compare p q = .lt) :=
    List.pairwise_map.mpr (tree.texts.ascending.sublist
      (List.filter_sublist.trans List.filter_sublist))
  have htexts : out.tree.texts.entries =
      tree.texts.entries.map fun e => (e.1, taggedIn selection names e.1 e.2) := hentries
  rw [htexts, filter_accepts_map_taggedIn, filter_ne_map_taggedIn] at hwrites' hresult'
  rw [List.length_map] at hresult'
  rw [htexts, map_taggedIn_map_taggedIn] at hentries'
  refine ⟨normalize_tagParams names, hentries, hwrites, hascending, hresult, hresult', ?_⟩
  have hsame : again.tree.texts = out.tree.texts :=
    Keyed.ext_entries (hentries'.trans htexts.symm)
  have hrecord : again.tree.writes = out.tree.writes := hwrites'.trans (List.append_nil _)
  calc again.tree = ⟨again.tree.texts, again.tree.writes⟩ := rfl
    _ = out.tree := by rw [hsame, hrecord]

end DocBlocks
