import DocBlocks.Proofs.Tree.Root
import DocBlocks.Tree.Directory

/-!
# What Is Found Below a Root

The selection takes the parts of the root off those of each path that a walk comes across. What
is left are the names below the root, if the root has no dot at its start. If it has one, the
dot is not found in the path, and the whole path is put to the selection. This does no harm if
the root is nothing but dots, as the path has nothing in front of the names then, nor if any
depth will do, as the extension is the same. Otherwise the names of the root count with those
below it, so that no file lies as deep as it is asked to. Then the selection misses everything
below the root (`Selection.Misses`), as it does below a root with an empty name behind the dots
at its start.

In all other cases the files that are found are those whose names below the root are accepted.
None of them is lost on the way, as the pattern that is walked covers everything that the selection
accepts.

## Main results

* `Selection.covers_of_acceptsParts`: a pattern is never narrower than its selection.
* `DirectoryTree.files_of_misses`, `DirectoryTree.files_of_not_misses`: what is found.
-/

namespace DocBlocks

open Listing

/-! ### Taking the root off -/

theorem partsBelow?_append (parts more : List Part) :
    partsBelow? parts (parts ++ more) = some more := by
  induction parts with
  | nil => rfl
  | cons part parts ih => rw [List.cons_append, partsBelow?, if_pos rfl, ih]

theorem partsBelow?_here {rest parts : List Part} (h : .here ∉ parts) :
    partsBelow? (.here :: rest) parts = none := by
  cases parts with
  | nil => rfl
  | cons part parts =>
      rw [partsBelow?, if_neg]
      rintro rfl
      exact h List.mem_cons_self

namespace Selection

variable {selection : Selection} {more : List Part} {names : List Bytes}

theorem extension?_append (parts : List Part) (hmore : more ≠ []) :
    extension? (parts ++ more) = extension? more := by
  rw [extension?, extension?, fileName?, fileName?, List.getLast?_append]
  rw [List.getLast?_eq_some_getLast hmore, Option.some_or]

theorem countP_map_name (names : List Bytes) :
    (names.map Part.name).countP Part.isName = names.length := by
  rw [List.countP_map]
  exact List.countP_eq_length.mpr fun _ _ => rfl

/-- Names behind other parts are accepted for their extension and for the number of all names. -/
theorem acceptsParts_append (parts : List Part) (hnames : names ≠ []) :
    selection.acceptsParts (parts ++ names.map .name) =
      ((extension? (names.map .name)).any selection.extensions.contains &&
        selection.depth.all (· == parts.countP Part.isName + names.length)) := by
  have hmore : names.map Part.name ≠ [] := by simpa using hnames
  rw [acceptsParts, extension?_append parts hmore, List.countP_append, countP_map_name]

/-- Whether a selection misses all files below a root. -/
def Misses (selection : Selection) (root : Path) : Prop :=
  startPath root = none ∨
    (root.parts.head? = some .here ∧ root.parts.any Part.isName ∧ selection.depth.isSome)

instance (selection : Selection) : DecidablePred selection.Misses :=
  fun _ => inferInstanceAs (Decidable (_ ∨ _ ∧ _ ∧ _))

variable {root path : Path} {pattern : Pattern}

/-- A root that is text has a pattern. -/
theorem pattern_eq_ok_iff :
    selection.pattern root = .ok pattern ↔
      (Text.decode? root.spelling).isSome ∧
        pattern = ⟨rootPieces root, selection.depth.map (· - 1)⟩ := by
  rw [Selection.pattern]
  cases Text.decode? root.spelling with
  | none => simp
  | some s => simp [eq_comm]

theorem exists_pattern (selection : Selection) (h : (Text.decode? root.spelling).isSome) :
    ∃ pattern, selection.pattern root = .ok pattern :=
  ⟨_, pattern_eq_ok_iff.mpr ⟨h, rfl⟩⟩

/-- **A pattern is never narrower than its selection**: it covers all names that are accepted. -/
theorem covers_of_acceptsParts (hpattern : selection.pattern root = .ok pattern)
    (hnames : names ≠ []) (h : selection.acceptsParts (names.map .name)) :
    pattern.covers names := by
  obtain ⟨-, rfl⟩ := pattern_eq_ok_iff.mp hpattern
  have haccepts : selection.acceptsParts ([] ++ names.map .name) = _ :=
    acceptsParts_append [] hnames
  rw [List.nil_append, h] at haccepts
  rw [Pattern.covers]
  cases hdepth : selection.depth with
  | none => rfl
  | some depth =>
      rw [hdepth] at haccepts
      have hlength : 0 < names.length := List.length_pos_iff.mpr hnames
      simp at haccepts ⊢
      omega

theorem here_not_mem_plainParts (root : Path) (names : List Bytes) :
    .here ∉ root.plainParts ++ names.map Part.name := by
  rw [List.mem_append, Path.plainParts, List.mem_filter]
  simp

/-- **Names below a root** are put to the selection, unless it misses them. -/
theorem keeps_of_not_misses (hparts : path.parts = root.plainParts ++ names.map .name)
    (hroot : root.parts = root.plainParts ∨ root.parts = .here :: root.plainParts)
    (hnames : names ≠ []) (hmisses : ¬selection.Misses root) :
    selection.keeps root (.ok path) = selection.acceptsParts (names.map .name) := by
  rw [keeps, hparts]
  rcases hroot with hroot | hroot
  · rw [hroot, partsBelow?_append, Option.getD_some]
  · rw [hroot, partsBelow?_here (here_not_mem_plainParts root names), Option.getD_none,
      acceptsParts_append _ hnames, ← List.nil_append (names.map Part.name),
      acceptsParts_append [] hnames]
    cases hdepth : selection.depth with
    | none => rfl
    | some depth =>
        have hnone : root.plainParts.countP Part.isName = 0 := by
          rw [List.countP_eq_zero]
          intro part hpart hname
          refine hmisses (.inr ⟨?_, ?_, ?_⟩)
          · rw [hroot]
            rfl
          · exact List.any_eq_true.mpr ⟨part, hroot ▸ List.mem_cons_of_mem _ hpart, hname⟩
          · rw [hdepth]
            rfl
        rw [hnone]
        rfl

/-- Names below a root that are put to the selection behind those of the root lie too deep. -/
theorem keeps_of_misses (hparts : path.parts = root.plainParts ++ names.map .name)
    (hroot : root.parts = root.plainParts ∨ root.parts = .here :: root.plainParts)
    (hnames : names ≠ []) (hstart : startPath root ≠ none) (hmisses : selection.Misses root)
    (hpattern : selection.pattern root = .ok pattern) (hcovers : pattern.covers names) :
    selection.keeps root (.ok path) = false := by
  obtain ⟨-, rfl⟩ := pattern_eq_ok_iff.mp hpattern
  obtain ⟨hhead, hany, hdepth⟩ := hmisses.resolve_left hstart
  obtain ⟨depth, hdepth⟩ := Option.isSome_iff_exists.mp hdepth
  have hroot : root.parts = .here :: root.plainParts := by
    refine hroot.resolve_left fun heq => here_not_mem_plainParts root [] ?_
    rw [heq] at hhead
    rw [List.map_nil, List.append_nil]
    exact List.mem_of_head? hhead
  have hsome : 0 < root.plainParts.countP Part.isName := by
    rw [hroot, List.any_cons, Bool.or_eq_true] at hany
    exact List.countP_pos_iff.mpr (List.any_eq_true.mp (hany.resolve_left (by decide)))
  rw [Pattern.covers, hdepth, Option.map_some, Option.all_some, beq_iff_eq] at hcovers
  rw [keeps, hparts, hroot, partsBelow?_here (here_not_mem_plainParts root names), Option.getD_none,
    acceptsParts_append _ hnames, hdepth, Option.all_some, Bool.and_eq_false_iff]
  right
  rw [beq_eq_false_iff_ne]
  omega

end Selection

/-! ### Listings -/

namespace DirectoryTree

variable {tree : DirectoryTree} {inside : Listing} {place : List Bytes} {start : Path}
  {selection : Selection} {pattern : Pattern}

/-- A walk looks into the directory that its root leads to. -/
theorem walk_of_place? (hpattern : selection.pattern tree.root = .ok pattern)
    (hplace : tree.top.place? tree.root = .ok place)
    (hinside : tree.top.all.node? place = some (.folder inside))
    (hstart : startPath tree.root = some start) :
    walk tree.top pattern =
      match pattern.folders with
      | none => inside.allFiles start
      | some folders => inside.filesBelow start folders := by
  obtain ⟨-, rfl⟩ := Selection.pattern_eq_ok_iff.mp hpattern
  obtain ⟨hfits, hof⟩ := Site.startOf_eq hplace hinside hstart
  rw [walk, hof]
  exact if_pos hfits

/-- It comes across the files below the root that its pattern covers. -/
theorem walk_eq (hpattern : selection.pattern tree.root = .ok pattern)
    (hplace : tree.top.place? tree.root = .ok place)
    (hinside : tree.top.all.node? place = some (.folder inside))
    (hstart : startPath tree.root = some start) (hnamed : inside.Named)
    (hfits : inside.FitsBelow start) :
    walk tree.top pattern =
      ((inside.contents []).filter fun e => pattern.covers e.1).map
        fun e => .ok (start.below e.1) := by
  rw [walk_of_place? hpattern hplace hinside hstart]
  obtain ⟨root, folders⟩ := pattern
  cases folders with
  | none =>
      have hall : ∀ e ∈ inside.contents [], Pattern.covers ⟨root, none⟩ e.1 = true :=
        fun _ _ => rfl
      rw [List.filter_eq_self.mpr hall]
      exact allFiles_eq hnamed hfits
  | some folders => exact filesBelow_eq hnamed hfits folders

theorem spelling_ne_nil (hplace : tree.top.place? tree.root = .ok place) :
    tree.root.spelling ≠ [] :=
  (Path.spellingFault?_eq_none_iff.mp (Site.place?_eq_ok_iff.mp hplace).1).2.2

/-- The parts of a path below a root. -/
theorem parts_below_startPath (hplace : tree.top.place? tree.root = .ok place)
    (hstart : startPath tree.root = some start) (hnamed : inside.Named)
    {e : List Bytes × Bytes} (he : e ∈ inside.contents []) :
    (start.below e.1).parts = tree.root.plainParts ++ e.1.map .name := by
  rw [Path.parts_below (hnamed.isName he), parts_startPath (spelling_ne_nil hplace) hstart]

theorem ne_nil_of_mem_contents {e : List Bytes × Bytes} (he : e ∈ inside.contents []) :
    e.1 ≠ [] := by
  obtain ⟨name, names, heq, -⟩ := exists_cons_of_mem_contents he
  exact heq ▸ List.cons_ne_nil name names

/-- A listing is what the walk along the pattern comes across, as far as it is wanted. -/
theorem files_eq_ok_iff {files : List (Except FileFault Path)} :
    SourceTree.files tree selection = .ok files ↔
      ∃ pattern, selection.pattern tree.root = .ok pattern ∧
        files = (walk tree.top pattern).filter (selection.keeps tree.root) := by
  rw [SourceTree.files, instSourceTree]
  dsimp only
  cases selection.pattern tree.root with
  | error fault => simp [bind, Except.bind]
  | ok pattern => simp [bind, Except.bind, pure, Except.pure, eq_comm]

/-- **Nothing is found** where the selection misses everything. -/
theorem files_of_misses (hplace : tree.top.place? tree.root = .ok place)
    (hinside : tree.top.all.node? place = some (.folder inside))
    (htext : (Text.decode? tree.root.spelling).isSome) (hnamed : inside.Named)
    (hfits : ∀ start ∈ startPath tree.root, inside.FitsBelow start)
    (hmisses : selection.Misses tree.root) : SourceTree.files tree selection = .ok [] := by
  have hroot := spelling_ne_nil hplace
  obtain ⟨pattern, hpattern⟩ := selection.exists_pattern htext
  refine files_eq_ok_iff.mpr ⟨pattern, hpattern, ?_⟩
  cases hstart : startPath tree.root with
  | none =>
      obtain ⟨-, rfl⟩ := Selection.pattern_eq_ok_iff.mp hpattern
      rw [walk, Site.startOf_eq_none hroot hstart]
      rfl
  | some start =>
      rw [walk_eq hpattern hplace hinside hstart hnamed (hfits start hstart)]
      refine (List.filter_eq_nil_iff.mpr fun found hfound => ?_).symm
      obtain ⟨e, he, rfl⟩ := List.mem_map.mp hfound
      obtain ⟨he, hcovers⟩ := List.mem_filter.mp he
      have hkeeps := Selection.keeps_of_misses (parts_below_startPath hplace hstart hnamed he)
        (parts_cases hroot) (ne_nil_of_mem_contents he) (by simp [hstart]) hmisses hpattern hcovers
      exact ne_true_of_eq_false hkeeps

/-- **What is found** below a root are the files whose names below it are accepted, unless the
selection misses them. -/
theorem files_of_not_misses (hplace : tree.top.place? tree.root = .ok place)
    (hinside : tree.top.all.node? place = some (.folder inside))
    (htext : (Text.decode? tree.root.spelling).isSome) (hnamed : inside.Named)
    (hstart : startPath tree.root = some start) (hfits : inside.FitsBelow start)
    (hmisses : ¬selection.Misses tree.root) :
    SourceTree.files tree selection =
      .ok (((inside.contents []).filter fun e => selection.acceptsParts (e.1.map .name)).map
        fun e => .ok (start.below e.1)) := by
  obtain ⟨pattern, hpattern⟩ := selection.exists_pattern htext
  refine files_eq_ok_iff.mpr ⟨pattern, hpattern, ?_⟩
  rw [walk_eq hpattern hplace hinside hstart hnamed hfits, List.filter_map, List.filter_filter]
  refine congrArg (List.map _) (List.filter_congr fun e he => Eq.symm ?_)
  have hnames := ne_nil_of_mem_contents he
  rw [Function.comp_apply, Selection.keeps_of_not_misses
    (parts_below_startPath hplace hstart hnamed he) (parts_cases (spelling_ne_nil hplace)) hnames
    hmisses]
  -- What is accepted is covered.
  cases haccepts : selection.acceptsParts (e.1.map .name) with
  | false => rfl
  | true => exact Selection.covers_of_acceptsParts hpattern hnames haccepts

end DirectoryTree

end DocBlocks
