import DocBlocks.Proofs.Keyed.Entries
import DocBlocks.Proofs.Run.Visits
import DocBlocks.Tree.Memory

/-!
# Runs That Treat Every File by Itself

A visit to a file of a tree in memory may depend on the whole tree. If what comes of it depends
on the path and the text of that one file alone (`Judges`), then so does what comes of a run.
Every file that is visited ends up as it would if it were the only one, no other file changes,
and the report and the list of failures are those of the files taken one by one.

The proof goes through the entries of the tree in their order. At any time they are those
behind, which are as they will be, and those ahead, which are as they were, so that a visit
finds its file untouched. That it finds the file at all is due to the order of the entries
(`Keyed.valueIn_of_ascending`).

## Main results

* `Judges.settled_cons`, `Judges.visitAll_listing`: what one visit and what all visits make of
  the entries of a tree.
* `Judges.visitTree_true`: a run that passes over files at fault is a map over the tree.
-/

namespace DocBlocks

/-! ### Verdicts -/

/-- What comes of a visit to a file that is not at fault: the text that the file has then, and
how it counts. -/
structure Verdict where
  text : Text
  report : Report
  deriving DecidableEq

/-- The text that a file has after a visit. A file at fault keeps the one it has. -/
def Verdict.textOr (s : Text) : Except FileFault Verdict → Text
  | .ok verdict => verdict.text
  | .error _ => s

/-- A verdict on every file, in view of its path and its text. -/
abbrev Judgement := Path → Text → Except FileFault Verdict

namespace Judgement

/-- The text that a file has after a run that visits the files that `accepts` picks. -/
def finalText (judge : Judgement) (accepts : Path → Bool) (path : Path) (s : Text) : Text :=
  if accepts path then Verdict.textOr s (judge path s) else s

/-- The counts of files that are not at fault, summed up. -/
def reportOf (judge : Judgement) : List (Path × Text) → Report
  | [] => {}
  | (path, s) :: rest =>
    match judge path s with
    | .ok verdict => verdict.report + judge.reportOf rest
    | .error _ => judge.reportOf rest

/-- The files at fault. -/
def failuresOf (judge : Judgement) (entries : List (Path × Text)) : List (Path × FileFault) :=
  entries.filterMap fun (path, s) =>
    match judge path s with
    | .ok _ => none
    | .error fault => some (path, fault)

/-- What a run that passes over files at fault reports of files. -/
def tallyOf (judge : Judgement) (entries : List (Path × Text)) : Tally :=
  ⟨judge.reportOf entries, judge.failuresOf entries⟩

section Cons

variable {judge : Judgement} {path : Path} {s : Text} {verdict : Verdict} {fault : FileFault}

theorem reportOf_cons_of_ok (h : judge path s = .ok verdict) (rest : List (Path × Text)) :
    judge.reportOf ((path, s) :: rest) = verdict.report + judge.reportOf rest := by
  rw [reportOf, h]

theorem reportOf_cons_of_error (h : judge path s = .error fault) (rest : List (Path × Text)) :
    judge.reportOf ((path, s) :: rest) = judge.reportOf rest := by
  rw [reportOf, h]

theorem failuresOf_cons_of_ok (h : judge path s = .ok verdict) (rest : List (Path × Text)) :
    judge.failuresOf ((path, s) :: rest) = judge.failuresOf rest := by
  simp only [failuresOf, List.filterMap_cons, h]

theorem failuresOf_cons_of_error (h : judge path s = .error fault)
    (rest : List (Path × Text)) :
    judge.failuresOf ((path, s) :: rest) = (path, fault) :: judge.failuresOf rest := by
  simp only [failuresOf, List.filterMap_cons, h]

end Cons

end Judgement

/-- A tree in which a file has got a text, if it has had another one. -/
def MemoryTree.settle (tree : MemoryTree) (path : Path) (old new : Text) : MemoryTree :=
  if new = old then tree else ⟨tree.texts.insert path new, tree.writes ++ [path]⟩

/-- Whether visits do to each file what a judgement says of its path and text. -/
structure Judges (visit : MemoryTree → Path → Outcome MemoryTree FileFault Report)
    (judge : Judgement) : Prop where
  result_eq : ∀ (tree : MemoryTree) (path : Path) (s : Text), tree.get? path = some s →
    (visit tree path).result = (judge path s).map (·.report)
  tree_eq : ∀ (tree : MemoryTree) (path : Path) (s : Text), tree.get? path = some s →
    (visit tree path).tree = tree.settle path s (Verdict.textOr s (judge path s))

/-! ### One file of a tree -/

section Settle

variable {tree : MemoryTree} {path : Path} {s : Text} {before after : List (Path × Text)}

theorem MemoryTree.settle_self : tree.settle path s s = tree := by
  rw [MemoryTree.settle, if_pos rfl]

theorem MemoryTree.settle_of_ne {new : Text} (h : new ≠ s) :
    tree.settle path s new = ⟨tree.texts.insert path new, tree.writes ++ [path]⟩ := by
  rw [MemoryTree.settle, if_neg h]

/-- A file is found among the entries of a tree. -/
theorem MemoryTree.get?_of_entries_eq (h : tree.texts.entries = before ++ (path, s) :: after) :
    tree.get? path = some s := by
  have hascending := tree.texts.ascending
  rw [h] at hascending
  rw [MemoryTree.get?, Keyed.get?, h, Keyed.valueIn_of_ascending hascending]

/-- A file that gets a text stays in its place. -/
theorem MemoryTree.entries_settle (h : tree.texts.entries = before ++ (path, s) :: after)
    (new : Text) :
    (tree.settle path s new).texts.entries = before ++ (path, new) :: after := by
  rw [MemoryTree.settle]
  split
  · next heq =>
    rw [heq]
    exact h
  · have hascending := tree.texts.ascending
    rw [h] at hascending
    show Keyed.insertInto path new tree.texts.entries = _
    rw [h, Keyed.insertInto_of_ascending hascending]

/-- It counts as written if its text is another one than before. -/
theorem MemoryTree.writes_settle (new : Text) :
    (tree.settle path s new).writes = tree.writes ++ if new = s then [] else [path] := by
  rw [MemoryTree.settle]
  split
  · rw [List.append_nil]
  · rfl

end Settle

/-! ### All files of a tree -/

/-- What a run that passes over files at fault has made of the entries ahead, if the entries
`before` are behind it already and it does not go on to the entries `rest`. -/
structure Settled (judge : Judgement) (accepts : Path → Bool) (tree : MemoryTree)
    (before ahead rest : List (Path × Text)) (out : Outcome MemoryTree FileFault Tally) :
    Prop where
  entries_eq : out.tree.texts.entries =
    before ++ ahead.map (fun e => (e.1, judge.finalText accepts e.1 e.2)) ++ rest
  writes_eq : out.tree.writes =
    tree.writes ++ (ahead.filter fun e => judge.finalText accepts e.1 e.2 ≠ e.2).map (·.1)
  result_eq : out.result = .ok (judge.tallyOf (ahead.filter fun e => accepts e.1))

section Visits

variable {visit : MemoryTree → Path → Outcome MemoryTree FileFault Report} {judge : Judgement}
  {accepts : Path → Bool}

/-- The listing of entries. -/
def listing (accepts : Path → Bool) (entries : List (Path × Text)) :
    List (Except FileFault Path) :=
  ((entries.map (·.1)).filter accepts).map .ok

theorem listing_cons_of_pos {e : Path × Text} (h : accepts e.1 = true)
    (rest : List (Path × Text)) :
    listing accepts (e :: rest) = .ok e.1 :: listing accepts rest := by
  rw [listing, List.map_cons, List.filter_cons_of_pos h, List.map_cons, listing]

theorem listing_cons_of_neg {e : Path × Text} (h : ¬accepts e.1 = true)
    (rest : List (Path × Text)) : listing accepts (e :: rest) = listing accepts rest := by
  rw [listing, List.map_cons, List.filter_cons_of_neg h, listing]

section Step

variable {tree : MemoryTree} {before ahead rest : List (Path × Text)} {path : Path} {s : Text}

/-- A file that is not visited stays as it is. -/
theorem Settled.cons_of_neg {out : Outcome MemoryTree FileFault Tally}
    (haccepts : ¬accepts path = true)
    (h : Settled judge accepts tree (before ++ [(path, s)]) ahead rest out) :
    Settled judge accepts tree before ((path, s) :: ahead) rest out := by
  have hfinal : judge.finalText accepts path s = s := by
    rw [Judgement.finalText, if_neg haccepts]
  refine ⟨?_, ?_, ?_⟩
  · rw [h.entries_eq, List.map_cons, hfinal, List.append_assoc before, List.singleton_append]
  · rw [h.writes_eq, List.filter_cons_of_neg (by simp [hfinal])]
  · rw [h.result_eq, List.filter_cons_of_neg (by simpa using haccepts)]

/-- **A visit** does to one file what the verdict on it says, and the rest of the run does not
touch that file again. -/
theorem Judges.settled_cons (h : Judges visit judge) (haccepts : accepts path = true)
    (htree : tree.texts.entries = before ++ (path, s) :: (ahead ++ rest))
    (hlater : Settled judge accepts (visit tree path).tree
      (before ++ [(path, Verdict.textOr s (judge path s))]) ahead rest
      (visitAll true visit (visit tree path).tree (listing accepts ahead))) :
    Settled judge accepts tree before ((path, s) :: ahead) rest
      (visitAll true visit tree (listing accepts ((path, s) :: ahead))) := by
  have hget := MemoryTree.get?_of_entries_eq htree
  have hresult := h.result_eq tree path s hget
  have hfinal : judge.finalText accepts path s = Verdict.textOr s (judge path s) := by
    rw [Judgement.finalText, if_pos haccepts]
  have hselect : ((path, s) :: ahead).filter (fun e => accepts e.1) =
      (path, s) :: ahead.filter fun e => accepts e.1 :=
    List.filter_cons_of_pos (by simpa using haccepts)
  rw [listing_cons_of_pos haccepts]
  refine ⟨?_, ?_, ?_⟩
  · rw [tree_visitAll_true_cons, hlater.entries_eq, List.map_cons, hfinal,
      List.append_assoc before, List.singleton_append]
  · rw [tree_visitAll_true_cons, hlater.writes_eq, h.tree_eq tree path s hget,
      MemoryTree.writes_settle, List.append_assoc]
    by_cases hsame : Verdict.textOr s (judge path s) = s
    · rw [if_pos hsame, List.nil_append, List.filter_cons_of_neg (by simp [hfinal, hsame])]
    · rw [if_neg hsame, List.filter_cons_of_pos (by simp [hfinal, hsame]), List.map_cons,
        List.singleton_append]
  · cases hjudge : judge path s with
    | ok verdict =>
        rw [hjudge] at hresult
        rw [visitAll_cons_of_ok true hresult, hlater.result_eq, hselect, Judgement.tallyOf,
          Judgement.tallyOf, Judgement.reportOf_cons_of_ok hjudge,
          Judgement.failuresOf_cons_of_ok hjudge]
        rfl
    | error fault =>
        rw [hjudge] at hresult
        rw [visitAll_true_cons_of_error hresult, hlater.result_eq, hselect, Judgement.tallyOf,
          Judgement.tallyOf, Judgement.reportOf_cons_of_error hjudge,
          Judgement.failuresOf_cons_of_error hjudge]
        rfl

end Step

/-- **A run treats every file by itself.** -/
theorem Judges.visitAll_listing (h : Judges visit judge) (accepts : Path → Bool)
    {tree : MemoryTree} {before ahead rest : List (Path × Text)}
    (htree : tree.texts.entries = before ++ ahead ++ rest) :
    Settled judge accepts tree before ahead rest
      (visitAll true visit tree (listing accepts ahead)) := by
  -- The entry at which the two parts meet goes from those ahead to those behind.
  induction ahead generalizing tree before with
  | nil =>
      refine ⟨htree, ?_, rfl⟩
      rw [List.filter_nil, List.map_nil, List.append_nil]
      rfl
  | cons e ahead ih =>
      obtain ⟨path, s⟩ := e
      rw [List.append_assoc, List.cons_append] at htree
      by_cases haccepts : accepts path = true
      · refine h.settled_cons haccepts htree (ih ?_)
        rw [h.tree_eq tree path s (MemoryTree.get?_of_entries_eq htree),
          MemoryTree.entries_settle htree, List.append_assoc, List.append_assoc,
          List.singleton_append]
      · rw [listing_cons_of_neg haccepts]
        refine Settled.cons_of_neg haccepts (ih ?_)
        rw [htree, List.append_assoc, List.append_assoc, List.singleton_append]

/-- What a run over all entries of a tree makes of them. -/
theorem Judges.visitAll_entries (h : Judges visit judge) (accepts : Path → Bool)
    (tree : MemoryTree) :
    Settled judge accepts tree [] tree.texts.entries []
      (visitAll true visit tree (listing accepts tree.texts.entries)) :=
  h.visitAll_listing accepts (by rw [List.nil_append, List.append_nil])

/-- A run over a tree in memory visits its entries. -/
theorem MemoryTree.visitTree_eq (selection : Selection) (keepGoing : Bool)
    (visit : MemoryTree → Path → Outcome MemoryTree FileFault Report) (tree : MemoryTree) :
    visitTree selection keepGoing visit tree =
      let all := visitAll keepGoing visit tree (listing selection.accepts tree.texts.entries)
      ⟨all.tree, all.log,
        match all.result with
        | .error fault => .error (.file fault)
        | .ok tally => tally.result⟩ := rfl

/-- **A run over a tree in memory** that passes over files at fault is a map over its entries,
and reports what is to be said of the files that it has visited. -/
theorem Judges.visitTree_true (h : Judges visit judge) (selection : Selection)
    (tree : MemoryTree) :
    let out := visitTree selection true visit tree
    out.tree.texts.entries =
        tree.texts.entries.map (fun e => (e.1, judge.finalText selection.accepts e.1 e.2)) ∧
      out.tree.writes = tree.writes ++ (tree.texts.entries.filter fun e =>
        judge.finalText selection.accepts e.1 e.2 ≠ e.2).map (·.1) ∧
      out.result =
        (judge.tallyOf (tree.texts.entries.filter fun e => selection.accepts e.1)).result := by
  have hall := h.visitAll_entries selection.accepts tree
  have hentries := hall.entries_eq
  rw [List.nil_append, List.append_nil] at hentries
  rw [MemoryTree.visitTree_eq]
  dsimp only
  rw [hall.result_eq]
  exact ⟨hentries, hall.writes_eq, rfl⟩

end Visits

end DocBlocks
