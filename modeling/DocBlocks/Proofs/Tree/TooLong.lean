import DocBlocks.Proofs.Tree.Apart

/-!
# Directories That Cannot Be Listed

The path of a directory can be too long in two ways. Directories may lie in one another without
end, each made from within the one before it. And a path may be longer than the way that it
describes, because dots lead nowhere else, so that the paths below a root can be too long although
those of the same files from elsewhere are not. A directory with such a path cannot be listed, and
a listing that looks into it has a fault in its place.

## Main results

* `Site.place?_of_dots`: where names with dots behind them lead.
* `DirectoryTree.eq_io_of_mem_files`: the faults in a listing.
* `DirectoryTree.exists_error_mem_files`: directories that lie too deep are at fault.
* `DirectoryTree.files_of_not_fits`: a listing with a fault.
-/

namespace DocBlocks

open Listing

/-! ### Dots behind names -/

namespace Listing

variable {top inside : Listing} {place names : List Bytes} {node : Node}

/-- Above every place there are directories. -/
theorem exists_folder_of_node?_append {name : Bytes}
    (h : top.node? (place ++ name :: names) = some node) :
    ∃ inside, top.node? place = some (.folder inside) := by
  induction place generalizing top with
  | nil => exact ⟨top, rfl⟩
  | cons first place ih =>
      rw [List.cons_append, node?] at h
      rw [node?]
      split at h
      · exact ih h
      · split at h
        · next hempty => exact absurd hempty (by simp)
        · exact absurd h (by simp)
      · exact absurd h (by simp)

/-- Names lead down to a directory that is there. -/
theorem follow?_map_name (hnames : ∀ name ∈ names, name.length ≤ Part.nameLimit)
    (h : top.node? (place ++ names) = some (.folder inside)) :
    top.follow? place (names.map .name) = .ok (place ++ names) := by
  induction names generalizing place with
  | nil => rw [List.append_nil]; rfl
  | cons name names ih =>
      obtain ⟨hname, hnames⟩ := List.forall_mem_cons.mp hnames
      obtain ⟨inside', hfolder⟩ := exists_folder_of_node?_append h
      rw [List.append_cons] at h ⊢
      exact follow?_cons_eq_ok_iff.mpr ⟨⟨inside', hfolder⟩, hname, ih hnames h⟩

/-- Dots lead nowhere else. -/
theorem follow?_replicate_here (h : top.node? place = some (.folder inside)) (n : Nat) :
    top.follow? place (List.replicate n .here) = .ok place := by
  induction n with
  | zero => rfl
  | succ n ih =>
      rw [List.replicate_succ]
      exact follow?_cons_eq_ok_iff.mpr ⟨⟨inside, h⟩, Nat.zero_le _, ih⟩

end Listing

/-- **Where names with dots behind them lead.** -/
theorem Site.place?_of_dots {site : Site} {root : Path} {names : List Bytes} {inside : Listing}
    {n : Nat} (hpieces : root.pieces = names ++ List.replicate n [46]) (hne : names ≠ [])
    (hnames : ∀ name ∈ names, IsName name ∧ name.length ≤ Part.nameLimit)
    (hzero : 0 ∉ root.spelling) (hfits : root.fits)
    (hnode : site.all.node? (site.start ++ names) = some (.folder inside)) :
    site.place? root = .ok (site.start ++ names) := by
  have hroot : root.spelling ≠ [] := by
    intro hnil
    have hempty : [] ∈ names ++ List.replicate n [46] := by
      rw [← hpieces, Path.pieces, hnil]
      exact List.mem_cons_self
    rcases List.mem_append.mp hempty with hname | hdot
    · exact (hnames [] hname).1.2.1 rfl
    · exact absurd (List.eq_of_mem_replicate hdot) (by simp)
  have hsteps : root.steps = names.map .name ++ List.replicate n .here := by
    obtain ⟨first, rest, rfl⟩ := List.exists_cons_of_ne_nil hne
    have hfirst : ¬first.isEmpty = true := by
      simpa using (hnames first List.mem_cons_self).1.2.1
    have hnamed : (first :: rest).filterMap Part.step? = (first :: rest).map .name := by
      rw [← List.filterMap_eq_map]
      exact List.filterMap_congr fun name hname => (hnames name hname).1.step?
    have hdot : Part.step? [46] = some .here := rfl
    rw [Path.steps, hpieces, List.cons_append]
    dsimp only
    rw [if_neg hfirst, ← filterMap_cons_eq_append, ← List.cons_append, List.filterMap_append,
      hnamed, List.filterMap_replicate_of_some hdot]
  refine place?_eq_ok_iff.mpr ⟨Path.spellingFault?_eq_none_iff.mpr ⟨hzero, hfits, hroot⟩, ?_⟩
  rw [hsteps]
  exact follow?_append_eq_ok_iff.mpr ⟨site.start ++ names,
    follow?_map_name (fun name hname => (hnames name hname).2) hnode,
    follow?_replicate_here hnode n⟩

/-! ### Faults in listings -/

namespace Listing

variable {above : Path} {found : List Found} {fault : FileFault}

theorem eq_io_of_mem_foundFile {name : Bytes} (h : .error fault ∈ foundFile above name) :
    ∃ path, fault = .io path .nameTooLong := by
  rw [foundFile] at h
  split at h
  · exact absurd (List.mem_singleton.mp h) (by simp)
  · exact absurd h List.not_mem_nil

theorem eq_io_of_mem_listed (h : .error fault ∈ listed above found)
    (hfound : .error fault ∈ found → ∃ path, fault = .io path .nameTooLong) :
    ∃ path, fault = .io path .nameTooLong := by
  rw [listed] at h
  split at h
  · exact hfound h
  · exact ⟨above, Except.error.inj (List.mem_singleton.mp h)⟩

theorem eq_io_of_mem_allFiles (inside : Listing) (h : .error fault ∈ inside.allFiles above) :
    ∃ path, fault = .io path .nameTooLong := by
  induction inside generalizing above with
  | nil => exact absurd h List.not_mem_nil
  | file name content rest ih =>
      rcases List.mem_append.mp h with h | h
      · exact eq_io_of_mem_foundFile h
      · exact ih h
  | folder name inside rest ihInside ih =>
      rcases List.mem_append.mp h with h | h
      · exact eq_io_of_mem_listed h ihInside
      · exact ih h

theorem eq_io_of_mem_filesBelow (inside : Listing) {folders : Nat}
    (h : .error fault ∈ inside.filesBelow above folders) :
    ∃ path, fault = .io path .nameTooLong := by
  induction inside generalizing above folders with
  | nil => exact absurd h List.not_mem_nil
  | file name content rest ih =>
      rcases List.mem_append.mp h with h | h
      · split at h
        · exact eq_io_of_mem_foundFile h
        · exact absurd h List.not_mem_nil
      · exact ih h
  | folder name inside rest ihInside ih =>
      rcases List.mem_append.mp h with h | h
      · split at h
        · exact absurd h List.not_mem_nil
        · exact eq_io_of_mem_listed h ihInside
      · exact ih h

end Listing

/-- A directory has no listing only if its root is no text. -/
theorem DirectoryTree.eq_walk_of_files_eq_error {tree : DirectoryTree} {selection : Selection}
    {fault : Fault} (h : SourceTree.files tree selection = .error fault) :
    ∃ pattern reason, fault = .walk pattern reason := by
  cases htext : Text.decode? tree.root.spelling with
  | none =>
      rw [SourceTree.files, instSourceTree] at h
      dsimp only at h
      rw [Selection.pattern, htext] at h
      exact ⟨_, _, (Except.error.inj h).symm⟩
  | some s =>
      have hsome : (Text.decode? tree.root.spelling).isSome := by
        rw [htext]
        rfl
      obtain ⟨pattern, hpattern⟩ := selection.exists_pattern hsome
      exact absurd (h.symm.trans (files_eq_ok_iff.mpr ⟨pattern, hpattern, rfl⟩)) (by simp)

/-- **All faults in a listing** are directories whose paths are too long. -/
theorem DirectoryTree.eq_io_of_mem_files {tree : DirectoryTree} {selection : Selection}
    {files : List (Except FileFault Path)} {fault : FileFault}
    (hfiles : SourceTree.files tree selection = .ok files) (h : .error fault ∈ files) :
    ∃ path, fault = .io path .nameTooLong := by
  obtain ⟨pattern, -, rfl⟩ := files_eq_ok_iff.mp hfiles
  have hwalk := (List.mem_filter.mp h).1
  rw [walk] at hwalk
  split at hwalk
  · exact absurd hwalk List.not_mem_nil
  · next above inside _ =>
    refine eq_io_of_mem_listed hwalk fun hinside => ?_
    split at hinside
    · exact inside.eq_io_of_mem_allFiles hinside
    · exact inside.eq_io_of_mem_filesBelow hinside

/-! ### Deep directories -/

namespace Listing

/-- As many directories as given, each in the one before it, and what is in the last one. -/
def nest (name : Bytes) (inside : Listing) : Nat → Listing
  | 0 => inside
  | n + 1 => .folder name (nest name inside n) .nil

/-- In directories that lie deep enough, a walk comes to one whose path is too long. -/
theorem exists_error_mem_allFiles_nest {above : Path} {name : Bytes} (inside : Listing) {n : Nat}
    (hfits : above.fits) (hlong : Path.limit < above.spelling.length + n * name.length) :
    ∃ fault, .error fault ∈ (nest name inside n).allFiles above := by
  induction n generalizing above with
  | zero =>
      rw [Path.fits, decide_eq_true_eq] at hfits
      omega
  | succ n ih =>
      rw [nest, allFiles, allFiles, List.append_nil, listed]
      by_cases hnext : (above.join name).fits
      · have hlength := above.length_add_le_join name
        rw [Nat.succ_mul] at hlong
        rw [if_pos hnext]
        exact ih hnext (by omega)
      · rw [if_neg hnext]
        exact ⟨_, List.mem_singleton_self _⟩

end Listing

namespace DirectoryTree

variable {tree : DirectoryTree} {place : List Bytes} {name : Bytes} {inside : Listing}
  {start : Path}

/-- A walk at any depth finds fault with directories that lie too deep. -/
theorem exists_error_mem_files {files : List (Except FileFault Path)} {extensions : List Text}
    {n : Nat} (hfiles : SourceTree.files tree (.anywhere extensions) = .ok files)
    (hplace : tree.top.place? tree.root = .ok place)
    (hinside : tree.top.all.node? place = some (.folder (nest name inside n)))
    (hstart : startPath tree.root = some start) (hlong : Path.limit < n * name.length) :
    ∃ fault, .error fault ∈ files := by
  obtain ⟨pattern, hpattern, rfl⟩ := files_eq_ok_iff.mp hfiles
  obtain ⟨hfits, -⟩ := Site.startOf_eq hplace hinside hstart
  obtain ⟨fault, hfault⟩ := exists_error_mem_allFiles_nest inside hfits
    (Nat.lt_of_lt_of_le hlong (Nat.le_add_left _ start.spelling.length))
  refine ⟨fault, List.mem_filter.mpr ⟨?_, rfl⟩⟩
  rw [walk_of_place? hpattern hplace hinside hstart]
  obtain ⟨-, rfl⟩ := Selection.pattern_eq_ok_iff.mp hpattern
  exact hfault

/-- **A listing with a fault**: that of a directory that holds nothing but one whose path is too
long. -/
theorem files_of_not_fits {depth : Nat} {extensions : List Text}
    (hplace : tree.top.place? tree.root = .ok place)
    (hinside : tree.top.all.node? place = some (.folder (.folder name inside .nil)))
    (htext : (Text.decode? tree.root.spelling).isSome) (hname : (Text.decode? name).isSome)
    (hstart : startPath tree.root = some start) (hlong : ¬(start.join name).fits)
    (hdepth : 2 ≤ depth) :
    SourceTree.files tree (.atDepth depth extensions) =
      .ok [.error (.io (start.join name) .nameTooLong)] := by
  obtain ⟨pattern, hpattern⟩ := (Selection.atDepth depth extensions).exists_pattern htext
  have hlook : ¬(depth - 1 = 0 ∨ (Text.decode? name).isNone = true) := by
    rw [← Option.not_isSome, hname]
    simp only [Bool.not_true, Bool.false_eq_true, or_false]
    omega
  refine files_eq_ok_iff.mpr ⟨pattern, hpattern, ?_⟩
  rw [walk_of_place? hpattern hplace hinside hstart]
  obtain ⟨-, rfl⟩ := Selection.pattern_eq_ok_iff.mp hpattern
  dsimp only [Selection.atDepth, Option.map_some]
  rw [filesBelow, if_neg hlook, listed, if_neg hlong]
  rfl

end DirectoryTree

end DocBlocks
