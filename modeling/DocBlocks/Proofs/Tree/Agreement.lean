import DocBlocks.Proofs.Keyed.Lookup
import DocBlocks.Proofs.Tree.TooLong
import DocBlocks.Tree.Memory

/-!
# Directories and Trees in Memory

A directory and a tree in memory are listed in different ways. A walk goes from directory to
directory, and the selection is asked about what it comes across; a tree in memory has all its
paths in order, and the selection is asked about each of them. The same comes of both
(`DirectoryTree.files_agree`), below a root that is a dot or consists of names: the files whose
names below the root are accepted, in the order of their paths.

Both listings ascend, and they have the same members. So they are the same, and nothing needs to
be known about how the one or the other is made.

## Main results

* `startPath_of_isName`: a root of names is the start of its walks.
* `MemoryTree.exists_mirrors`: there is a tree in memory with the files of any directory.
* `DirectoryTree.files_agree`: a directory is listed like a tree in memory.
* `DirectoryTree.not_forall_files_agree`: directories that lie too deep are not.
-/

namespace DocBlocks

open Listing

/-! ### The order of parts -/

instance : Std.LawfulEqOrd Part where
  eq_of_compare {a b} h := by
    have h : (compare a.rank b.rank).then (compare a.bytes b.bytes) = .eq := h
    obtain ⟨hrank, hbytes⟩ := Ordering.then_eq_eq.mp h
    have hrank := Std.LawfulEqOrd.eq_of_compare hrank
    have hbytes := Std.LawfulEqOrd.eq_of_compare hbytes
    cases a <;> cases b <;> simp_all [Part.rank, Part.bytes]

/-- Parts in front of both make no difference to the order. -/
theorem compare_append_left (parts a b : List Part) :
    compare (parts ++ a) (parts ++ b) = compare a b := by
  induction parts with
  | nil => rfl
  | cons part parts ih =>
      have hself : compare part part = .eq := Std.ReflCmp.compare_self
      rw [List.cons_append, List.cons_append, List.compare_cons_cons, hself, ih]
      rfl

/-! ### Roots of names -/

section Names

variable {root p : Path} {first name : Bytes} {rest names : List Bytes}

/-- What stands between two slashes is put behind a path with a slash. -/
theorem spelling_below (hp : p.spelling ≠ []) (hslash : p.spelling.getLast? ≠ some 47)
    (hnames : ∀ name ∈ names, 47 ∉ name ∧ name ≠ []) :
    (p.below names).spelling = p.spelling ++ names.flatMap (47 :: ·) := by
  induction names generalizing p with
  | nil => exact (List.append_nil _).symm
  | cons name names ih =>
      obtain ⟨hname, hnames⟩ := List.forall_mem_cons.mp hnames
      have hjoin : p.join name = ⟨p.spelling ++ 47 :: name⟩ := by
        rw [Path.join, if_neg (by simpa using ⟨hp, hslash⟩)]
      have hlast : (p.join name).spelling.getLast? ≠ some 47 := by
        rw [hjoin]
        dsimp only
        rw [List.getLast?_append_of_ne_nil _ (List.cons_ne_nil _ _),
          List.getLast?_cons_of_ne_nil hname.2]
        exact fun h => hname.1 (List.mem_of_getLast? h)
      have hne : (p.join name).spelling ≠ [] := by
        rw [hjoin]
        exact List.append_ne_nil_of_right_ne_nil _ (List.cons_ne_nil _ _)
      rw [Path.below, List.foldl_cons, ← Path.below, ih hne hlast hnames, hjoin,
        List.flatMap_cons, List.append_assoc]

theorem rootPieces_of_ne_nil (h : ∀ piece ∈ root.pieces, piece ≠ []) :
    rootPieces root = root.pieces := by
  rcases pieces_eq_rootPieces root with heq | heq
  · exact heq.symm
  · have hnil : [] ∈ root.pieces := by
      rw [heq]
      exact List.mem_concat_self
    exact absurd rfl (h [] hnil)

/-- A root in which no slash stands where a name is missing is the start of its walks, if it does
not start with a dot. -/
theorem startPath_of_forall_ne_nil (h : ∀ piece ∈ root.pieces, piece ≠ [])
    (hdot : root.pieces.head? ≠ some [46]) : startPath root = some root := by
  have hroot := rootPieces_of_ne_nil h
  have hslash : ∀ piece ∈ root.pieces, 47 ∉ piece ∧ piece ≠ [] := fun piece hpiece =>
    ⟨not_mem_of_mem_rootPieces (hroot ▸ hpiece), h piece hpiece⟩
  obtain ⟨first, rest, hpieces⟩ :=
    List.exists_cons_of_ne_nil (pieces_ne_nil Path.isSlash root.spelling)
  have hpieces : root.pieces = first :: rest := hpieces
  rw [hpieces] at hslash hdot hroot
  obtain ⟨hfirst, hrest⟩ := List.forall_mem_cons.mp hslash
  have hstart : startBelow? ⟨[]⟩ first = some ⟨first⟩ := by
    rw [startBelow?, if_neg (by simp), if_neg (by simpa using hfirst.2),
      if_neg (by simpa using hdot)]
  have hne : Path.spelling ⟨first⟩ ≠ [] := hfirst.2
  have hlast : (Path.spelling ⟨first⟩).getLast? ≠ some 47 := fun hlast =>
    hfirst.1 (List.mem_of_getLast? hlast)
  have hspelling : root.spelling = first ++ rest.flatMap (47 :: ·) :=
    eq_append_flatMap_of_pieces (fun _ ha => by simpa [Path.isSlash] using ha) hpieces
  rw [startPath_of_ne_nil hroot hfirst.2, List.foldlM_cons, hstart]
  have hbelow : ((⟨first⟩ : Path).below rest).spelling = root.spelling :=
    (spelling_below hne hlast hrest).trans hspelling.symm
  exact (foldlM_of_ne_nil rest hne).trans (congrArg (some ∘ Path.mk) hbelow)

/-- **A root of names** is the start of its walks. -/
theorem startPath_of_isName (h : ∀ piece ∈ root.pieces, IsName piece) :
    startPath root = some root :=
  startPath_of_forall_ne_nil (fun piece hpiece => (h piece hpiece).2.1) fun hhead =>
    (h [46] (List.mem_of_head? hhead)).2.2.1 rfl

/-- No selection misses what is below a root of names. -/
theorem not_misses_of_isName {selection : Selection} (h : ∀ piece ∈ root.pieces, IsName piece) :
    ¬selection.Misses root := by
  rintro (hnone | ⟨hhead, -⟩)
  · exact absurd (hnone.symm.trans (startPath_of_isName h)) (by simp)
  · obtain ⟨first, rest, hpieces⟩ :=
      List.exists_cons_of_ne_nil (pieces_ne_nil Path.isSlash root.spelling)
    have hpieces : root.pieces = first :: rest := hpieces
    have hfirst : IsName first := h first (hpieces ▸ List.mem_cons_self)
    rw [Path.parts, hpieces] at hhead
    dsimp only at hhead
    rw [leading_eq_toList_inner? hfirst.2.1 hfirst.2.2.1, hfirst.inner?] at hhead
    exact absurd hhead (by simp)

end Names

/-- Nor does one miss what is below a dot. -/
theorem not_misses_dot (selection : Selection) : ¬selection.Misses ⟨[46]⟩ := by
  rintro (hnone | ⟨-, hany, -⟩)
  · exact absurd hnone (by decide)
  · exact absurd hany (by decide)

/-! ### Trees in memory -/

namespace MemoryTree

/-- Whether a tree in memory has the files below a directory, each at a path of the names that
lead to it. -/
def Mirrors (memory : MemoryTree) (inside : Listing) : Prop :=
  ∀ path, (memory.get? path).isSome ↔
    ∃ names, (inside.file? names).isSome ∧ path.parts = names.map .name

variable {inside : Listing} {memory : MemoryTree} {parts : List Part}

theorem isSome_file?_iff (hordered : inside.Ordered) {names : List Bytes} :
    (inside.file? names).isSome ↔ ∃ e ∈ inside.contents [], e.1 = names := by
  rw [Option.isSome_iff_exists]
  constructor
  · rintro ⟨content, h⟩
    exact ⟨(names, content), (mem_contents_iff hordered).mpr h, rfl⟩
  · rintro ⟨⟨names, content⟩, h, rfl⟩
    exact ⟨content, (mem_contents_iff hordered).mp h⟩

/-- The parts of a path of names. -/
theorem parts_below_nil (hnamed : inside.Named) {e : List Bytes × Bytes}
    (he : e ∈ inside.contents []) : ((⟨[]⟩ : Path).below e.1).parts = e.1.map .name := by
  rw [Path.parts_below (hnamed.isName he)]
  rfl

/-- **A tree in memory** with the files below any directory. -/
theorem exists_mirrors (hordered : inside.Ordered) (hnamed : inside.Named) :
    ∃ memory : MemoryTree, memory.Mirrors inside := by
  have hascending : ((inside.contents []).map fun e =>
      ((⟨[]⟩ : Path).below e.1, ([] : Text))).Pairwise fun a b => compare a.1 b.1 = .lt := by
    refine List.pairwise_map.mpr ((pairwise_contents hordered).imp_of_mem fun {a b} ha hb hab => ?_)
    show compare ((⟨[]⟩ : Path).below a.1).parts ((⟨[]⟩ : Path).below b.1).parts = .lt
    rw [parts_below_nil hnamed ha, parts_below_nil hnamed hb]
    exact hab
  refine ⟨⟨⟨_, hascending⟩, []⟩, fun path => ?_⟩
  rw [get?, Keyed.get?, Keyed.isSome_valueIn_iff]
  constructor
  · rintro ⟨_, ha, heq⟩
    obtain ⟨e, he, rfl⟩ := List.mem_map.mp ha
    refine ⟨e.1, (isSome_file?_iff hordered).mpr ⟨e, he, rfl⟩, ?_⟩
    rw [← parts_below_nil hnamed he]
    exact Std.LawfulEqOrd.eq_of_compare heq
  · rintro ⟨names, hfile, hparts⟩
    obtain ⟨e, he, rfl⟩ := (isSome_file?_iff hordered).mp hfile
    refine ⟨_, List.mem_map_of_mem he, ?_⟩
    show compare path.parts ((⟨[]⟩ : Path).below e.1).parts = .eq
    rw [hparts, parts_below_nil hnamed he]
    exact Std.ReflCmp.compare_self

/-- **The paths of a tree in memory** are those of the files below the directory, part by part and
in their order. -/
theorem Mirrors.map_parts_keys (h : memory.Mirrors inside) (hordered : inside.Ordered)
    (hnamed : inside.Named) :
    memory.texts.keys.map Path.parts = (inside.contents []).map fun e => e.1.map .name := by
  refine Keyed.eq_of_ascending id ?_ ?_ fun parts => ?_
  · exact List.pairwise_map.mpr (List.pairwise_map.mpr memory.texts.ascending)
  · exact List.pairwise_map.mpr (pairwise_contents hordered)
  · simp only [List.mem_map]
    constructor
    · rintro ⟨path, hpath, rfl⟩
      obtain ⟨a, ha, rfl⟩ := List.mem_map.mp hpath
      have hsome : (memory.get? a.1).isSome :=
        Keyed.isSome_valueIn_iff.mpr ⟨a, ha, Std.ReflCmp.compare_self⟩
      obtain ⟨names, hfile, hparts⟩ := (h a.1).mp hsome
      obtain ⟨e, he, rfl⟩ := (isSome_file?_iff hordered).mp hfile
      exact ⟨e, he, hparts.symm⟩
    · rintro ⟨e, he, rfl⟩
      have hsome := (h ((⟨[]⟩ : Path).below e.1)).mpr
        ⟨e.1, (isSome_file?_iff hordered).mpr ⟨e, he, rfl⟩, parts_below_nil hnamed he⟩
      obtain ⟨a, ha, heq⟩ := Keyed.isSome_valueIn_iff.mp hsome
      have hparts : ((⟨[]⟩ : Path).below e.1).parts = a.1.parts :=
        Std.LawfulEqOrd.eq_of_compare heq
      exact ⟨a.1, List.mem_map_of_mem ha, hparts.symm.trans (parts_below_nil hnamed he)⟩

/-- A tree in memory is listed by the parts of its paths. -/
theorem Mirrors.exists_files (h : memory.Mirrors inside) (hordered : inside.Ordered)
    (hnamed : inside.Named) (selection : Selection) :
    ∃ paths : List Path, SourceTree.files memory selection = .ok (paths.map .ok) ∧
      paths.map Path.parts =
        ((inside.contents []).filter fun e => selection.acceptsParts (e.1.map .name)).map
          fun e => e.1.map .name := by
  refine ⟨memory.texts.keys.filter selection.accepts, rfl, ?_⟩
  have hkeys : (memory.texts.keys.filter selection.accepts).map Path.parts =
      (memory.texts.keys.map Path.parts).filter selection.acceptsParts :=
    List.filter_map.symm
  rw [hkeys, h.map_parts_keys hordered hnamed, List.filter_map]
  rfl

end MemoryTree

/-! ### Agreement -/

/-- **A directory is listed like a tree in memory.** Below a root that is a dot or consists of
names, a walk finds the files whose names below the root are accepted, in ascending order, and so
each of them once. A tree in memory that has the files below the root lists the same paths in the
same order, but for the names of the root, and there is such a tree.

The paths below the root are short enough to be followed (`Listing.FitsBelow`). A longer one is out
of the walk's reach, although there may be a file or a directory there. -/
theorem DirectoryTree.files_agree {tree : DirectoryTree} {inside : Listing} {place : List Bytes}
    {start : Path}
    (hroot : (tree.root = ⟨[46]⟩ ∧ start = ⟨[]⟩) ∨
      ((∀ piece ∈ tree.root.pieces, IsName piece) ∧ start = tree.root))
    (hplace : tree.top.place? tree.root = .ok place)
    (hinside : tree.top.all.node? place = some (.folder inside))
    (htext : (Text.decode? tree.root.spelling).isSome) (hordered : inside.Ordered)
    (hnamed : inside.Named) (hfits : inside.FitsBelow start) (selection : Selection) :
    ∃ paths : List Path,
      SourceTree.files tree selection = .ok (paths.map .ok) ∧
      (∀ path, path ∈ paths ↔ ∃ names, (inside.file? names).isSome ∧
        selection.acceptsParts (names.map .name) ∧ path = start.below names) ∧
      paths.Pairwise (fun p q => compare p q = .lt) ∧
      (∃ memory : MemoryTree, memory.Mirrors inside) ∧
      ∀ memory : MemoryTree, memory.Mirrors inside →
        ∃ paths' : List Path, SourceTree.files memory selection = .ok (paths'.map .ok) ∧
          paths.map Path.parts = paths'.map fun path => start.parts ++ path.parts := by
  have hstart : startPath tree.root = some start := by
    rcases hroot with ⟨hdot, rfl⟩ | ⟨hnames, rfl⟩
    · rw [hdot]
      rfl
    · exact startPath_of_isName hnames
  have hmisses : ¬selection.Misses tree.root := by
    rcases hroot with ⟨hdot, -⟩ | ⟨hnames, -⟩
    · rw [hdot]
      exact not_misses_dot selection
    · exact not_misses_of_isName hnames
  have hparts : ∀ e ∈ inside.contents [], (start.below e.1).parts = start.parts ++ e.1.map .name :=
    fun e he => Path.parts_below (hnamed.isName he)
  refine ⟨((inside.contents []).filter fun e => selection.acceptsParts (e.1.map .name)).map
    fun e => start.below e.1, ?_, fun path => ?_, ?_, MemoryTree.exists_mirrors hordered hnamed,
    fun memory hmemory => ?_⟩
  · rw [List.map_map]
    exact files_of_not_misses hplace hinside htext hnamed hstart hfits hmisses
  · simp only [List.mem_map, List.mem_filter]
    constructor
    · rintro ⟨e, ⟨he, haccepts⟩, rfl⟩
      exact ⟨e.1, (MemoryTree.isSome_file?_iff hordered).mpr ⟨e, he, rfl⟩, haccepts, rfl⟩
    · rintro ⟨names, hfile, haccepts, rfl⟩
      obtain ⟨e, he, rfl⟩ := (MemoryTree.isSome_file?_iff hordered).mp hfile
      exact ⟨e, ⟨he, haccepts⟩, rfl⟩
  · have hascending := (pairwise_contents hordered).filter fun e =>
      selection.acceptsParts (e.1.map .name)
    refine List.pairwise_map.mpr (hascending.imp_of_mem fun {a b} ha hb hab => ?_)
    show compare (start.below a.1).parts (start.below b.1).parts = .lt
    rw [hparts a (List.mem_filter.mp ha).1, hparts b (List.mem_filter.mp hb).1,
      compare_append_left]
    exact hab
  · obtain ⟨paths', hfiles, heq⟩ := hmemory.exists_files hordered hnamed selection
    refine ⟨paths', hfiles, ?_⟩
    have hmap : (paths'.map fun path => start.parts ++ path.parts) =
        (paths'.map Path.parts).map (start.parts ++ ·) := List.map_map.symm
    rw [hmap, heq, List.map_map, List.map_map]
    exact List.map_congr_left fun e he => hparts e (List.mem_filter.mp he).1

/-- The files `a/z.js` and `a-b/c.js` below a root `[x]`, next to a directory `a/f.js`. -/
theorem DirectoryTree.files_agree_brackets :
    let inside : Listing :=
      .folder [97] (.folder [102, 46, 106, 115] .nil (.file [122, 46, 106, 115] [120] .nil))
        (.folder [97, 45, 98] (.file [99, 46, 106, 115] [120] .nil) .nil)
    let tree : DirectoryTree :=
      ⟨⟨.folder [91, 120, 93] inside .nil, []⟩, ⟨[91, 120, 93]⟩⟩
    let selection := Selection.anywhere [['j', 's']]
    ((∀ piece ∈ tree.root.pieces, IsName piece) ∧
      tree.top.place? tree.root = .ok [[91, 120, 93]] ∧
      tree.top.all.node? [[91, 120, 93]] = some (.folder inside) ∧ inside.Ordered ∧ inside.Named ∧
      inside.FitsBelow tree.root) ∧
    ∃ paths : List Path, SourceTree.files tree selection = .ok (paths.map .ok) ∧
      ⟨[91, 120, 93, 47, 97, 47, 122, 46, 106, 115]⟩ ∈ paths ∧
      ⟨[91, 120, 93, 47, 97, 45, 98, 47, 99, 46, 106, 115]⟩ ∈ paths ∧
      ⟨[91, 120, 93, 47, 97, 47, 102, 46, 106, 115]⟩ ∉ paths ∧
      ∃ (memory : MemoryTree) (paths' : List Path), memory.Mirrors inside ∧
        SourceTree.files memory selection = .ok (paths'.map .ok) ∧
        paths.map Path.parts = paths'.map fun path => .name [91, 120, 93] :: path.parts := by
  intro inside tree selection
  have hroot : ∀ piece ∈ tree.root.pieces, IsName piece := by decide
  have hplace : tree.top.place? tree.root = .ok [[91, 120, 93]] := by rfl
  have hinside : tree.top.all.node? [[91, 120, 93]] = some (.folder inside) := by rfl
  have hordered : inside.Ordered := by decide
  have hnamed : inside.Named := by decide
  have hfits : inside.FitsBelow tree.root := by decide
  obtain ⟨paths, hfiles, hmem, -, ⟨memory, hmemory⟩, hagree⟩ :=
    files_agree (.inr ⟨hroot, rfl⟩) hplace hinside (by decide) hordered hnamed hfits selection
  obtain ⟨paths', hfiles', hparts⟩ := hagree memory hmemory
  refine ⟨⟨hroot, hplace, hinside, hordered, hnamed, hfits⟩, paths, hfiles, ?_, ?_, ?_, memory,
    paths', hmemory, hfiles', hparts⟩
  · exact (hmem _).mpr ⟨[[97], [122, 46, 106, 115]], by decide, by decide, by rfl⟩
  · exact (hmem _).mpr ⟨[[97, 45, 98], [99, 46, 106, 115]], by decide, by decide, by rfl⟩
  · have hlist : paths.map (Except.ok : Path → Except FileFault Path) =
        [.ok ⟨[91, 120, 93, 47, 97, 47, 122, 46, 106, 115]⟩,
          .ok ⟨[91, 120, 93, 47, 97, 45, 98, 47, 99, 46, 106, 115]⟩] :=
      Except.ok.inj (hfiles.symm.trans (by rfl))
    intro hmem'
    have hin := List.mem_map_of_mem (f := (Except.ok : Path → Except FileFault Path)) hmem'
    rw [hlist] at hin
    exact absurd hin (by decide)

/-- **Without a limit to the depth of the directories** below a root, a walk need not even come
through: 17 directories with names of 250 bytes, each in the one before it, are too many. -/
theorem DirectoryTree.not_forall_files_agree :
    ¬ ∀ (tree : DirectoryTree) (inside : Listing) (place : List Bytes) (start : Path)
        (selection : Selection),
      (tree.root = ⟨[46]⟩ ∧ start = ⟨[]⟩) ∨
        ((∀ piece ∈ tree.root.pieces, IsName piece) ∧ start = tree.root) →
      tree.top.place? tree.root = .ok place →
      tree.top.all.node? place = some (.folder inside) →
      (Text.decode? tree.root.spelling).isSome → inside.Ordered → inside.Named →
      ∃ paths : List Path, SourceTree.files tree selection = .ok (paths.map .ok) := by
  intro hall
  let inside : Listing :=
    nest (List.replicate 250 120) (.file [98, 46, 106, 115] [120] .nil) 17
  let tree : DirectoryTree := ⟨⟨inside, []⟩, ⟨[46]⟩⟩
  have hplace : tree.top.place? tree.root = .ok [] := rfl
  have hinside : tree.top.all.node? [] = some (.folder inside) := rfl
  obtain ⟨paths, hfiles⟩ := hall tree inside [] ⟨[]⟩ (.anywhere [['j', 's']]) (.inl ⟨rfl, rfl⟩)
    hplace hinside (by decide) (by decide +kernel) (by decide +kernel)
  have hlong : Path.limit < 17 * (List.replicate 250 (120 : UInt8)).length := by
    rw [List.length_replicate]
    decide
  obtain ⟨fault, hfault⟩ := exists_error_mem_files hfiles hplace hinside rfl hlong
  obtain ⟨path, -, hpath⟩ := List.mem_map.mp hfault
  exact absurd hpath (by simp)

end DocBlocks
