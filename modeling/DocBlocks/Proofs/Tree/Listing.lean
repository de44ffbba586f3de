import DocBlocks.Tree.Listing

/-!
# Files of a Directory

Two things are told apart here: which files and directories there are, and what is in the files.
The first is what is left of a directory when the bytes of all its files are forgotten
(`Listing.blank`), the second is looked up file by file (`Listing.file?`).

Giving new bytes to a file that is there touches the second only, and no other file. This takes a
directory in which the names ascend, as they do in every directory (`Listing.Ordered`): where they
do not, a name may be looked for in vain before the place at which it stands, and be made there
once more.

## Main results

* `Listing.Ordered.put`: whatever is put into a directory, its names ascend.
* `Listing.blank_put`: giving new bytes to a file leaves all files and directories where they are.
* `Listing.file?_put`: it leaves the bytes of all other files as they are.
-/

namespace DocBlocks

namespace Listing

/-! ### Entry by entry -/

/-- A directory has no entries, or a first one and those behind it. -/
@[elab_as_elim]
theorem cons_induction {motive : Listing → Prop} (nil : motive nil)
    (cons : ∀ name node rest, motive rest → motive (cons name node rest)) :
    ∀ top, motive top
  | .nil => nil
  | .file name content rest => cons name (.file content) rest (cons_induction nil cons rest)
  | .folder name inside rest => cons name (.folder inside) rest (cons_induction nil cons rest)

/-- The names of the entries of a directory. -/
def names : Listing → List Bytes
  | nil => []
  | file name _ rest => name :: rest.names
  | folder name _ rest => name :: rest.names

/-- Whether the names in a directory ascend, and in all directories in it. -/
def Ordered : Listing → Prop
  | nil => True
  | file name _ rest => (∀ other ∈ rest.names, compare name other = .lt) ∧ rest.Ordered
  | folder name inside rest =>
    (∀ other ∈ rest.names, compare name other = .lt) ∧ inside.Ordered ∧ rest.Ordered

instance decidableOrdered : DecidablePred Ordered
  | nil => inferInstanceAs (Decidable True)
  | file _ _ rest =>
    have := decidableOrdered rest
    inferInstanceAs (Decidable (_ ∧ _))
  | folder _ inside rest =>
    have := decidableOrdered inside
    have := decidableOrdered rest
    inferInstanceAs (Decidable (_ ∧ _ ∧ _))

/-- A directory with the bytes of all files in it forgotten. -/
def blank : Listing → Listing
  | nil => nil
  | file name _ rest => file name [] rest.blank
  | folder name inside rest => folder name inside.blank rest.blank

end Listing

/-- A file without its bytes, or a directory without those of its files. -/
def Node.blank : Node → Node
  | file _ => file []
  | folder inside => folder inside.blank

/-- Whether the names in a directory ascend. There is nothing to be said of a file. -/
def Node.Ordered : Node → Prop
  | file _ => True
  | folder inside => inside.Ordered

namespace Listing

variable {top inside : Listing} {node : Node} {name other : Bytes} {change : Option Node → Node}

theorem names_cons (rest : Listing) : (cons name node rest).names = name :: rest.names := by
  cases node with
  | file content => rfl
  | folder inside => rfl

theorem entry?_cons (rest : Listing) :
    entry? other (cons name node rest) =
      if name = other then some node else rest.entry? other := by
  cases node with
  | file content => rfl
  | folder inside => rfl

theorem blank_cons (rest : Listing) :
    (cons name node rest).blank = cons name node.blank rest.blank := by
  cases node with
  | file content => rfl
  | folder inside => rfl

theorem ordered_cons (rest : Listing) :
    (cons name node rest).Ordered ↔
      (∀ other ∈ rest.names, compare name other = .lt) ∧ node.Ordered ∧ rest.Ordered := by
  cases node with
  | file content => simp only [cons, Ordered, Node.Ordered, true_and]
  | folder inside => rfl

theorem alter_cons (rest : Listing) :
    (cons name node rest).alter other change =
      match compare other name with
      | .lt => cons other (change none) (cons name node rest)
      | .eq => cons other (change (some node)) rest
      | .gt => cons name node (rest.alter other change) := by
  cases node with
  | file content => rfl
  | folder inside => rfl

theorem names_blank (top : Listing) : top.blank.names = top.names := by
  induction top using cons_induction with
  | nil => rfl
  | cons name node rest ih => rw [blank_cons, names_cons, names_cons, ih]

theorem ordered_blank (top : Listing) : top.blank.Ordered ↔ top.Ordered := by
  induction top with
  | nil => rfl
  | file name content rest ih => rw [blank, Ordered, Ordered, names_blank, ih]
  | folder name inside rest ihInside ih =>
      rw [blank, Ordered, Ordered, names_blank, ihInside, ih]

/-- Whether names ascend does not depend on the bytes of any file. -/
theorem Ordered.of_blank_eq {top' : Listing} (h : top.blank = top'.blank) (hordered : top.Ordered) :
    top'.Ordered := by
  rwa [← ordered_blank, ← h, ordered_blank]

theorem entry?_blank (top : Listing) (name : Bytes) :
    top.blank.entry? name = Option.map Node.blank ( top.entry? name) := by
  induction top using cons_induction with
  | nil => rfl
  | cons first node rest ih =>
      rw [blank_cons, entry?_cons, entry?_cons, ih]
      split
      · rfl
      · rfl

theorem mem_names_of_eq_some (h : top.entry? name = some node) : name ∈ top.names := by
  induction top using cons_induction with
  | nil => exact absurd h (Option.some_ne_none node).symm
  | cons first node' rest ih =>
      rw [entry?_cons] at h
      rw [names_cons]
      by_cases hfirst : first = name
      · rw [hfirst]
        exact List.mem_cons_self
      · rw [if_neg hfirst] at h
        exact List.mem_cons_of_mem _ (ih h)

/-- The entries of a directory in which the names ascend are such themselves. -/
theorem Ordered.of_eq_some (hordered : top.Ordered) (h : top.entry? name = some node) :
    node.Ordered := by
  induction top using cons_induction with
  | nil => exact absurd h (Option.some_ne_none node).symm
  | cons first node' rest ih =>
      obtain ⟨-, hnode, hrest⟩ := (ordered_cons rest).mp hordered
      rw [entry?_cons] at h
      by_cases hfirst : first = name
      · rw [if_pos hfirst] at h
        obtain rfl := Option.some.inj h
        exact hnode
      · rw [if_neg hfirst] at h
        exact ih hrest h

/-- **Changing an entry that is there** changes it where it stands: it is either the first one, or
one of those behind. -/
theorem Ordered.alter_cons {rest : Listing} {first : Bytes} {node' : Node}
    (hordered : (cons first node' rest).Ordered) (change : Option Node → Node)
    (h : entry? name (cons first node' rest) = some node) :
    (first = name ∧ node' = node ∧
        (cons first node' rest).alter name change = cons name (change (some node)) rest) ∨
      (first ≠ name ∧ rest.entry? name = some node ∧
        (cons first node' rest).alter name change = cons first node' (rest.alter name change)) := by
  obtain ⟨hfirst, -, -⟩ := (ordered_cons rest).mp hordered
  rw [entry?_cons] at h
  rw [Listing.alter_cons]
  by_cases hname : first = name
  · rw [if_pos hname] at h
    obtain rfl := Option.some.inj h
    refine .inl ⟨hname, rfl, ?_⟩
    rw [hname, Std.ReflOrd.compare_self]
  · rw [if_neg hname] at h
    have hlt : compare first name = .lt := hfirst name (mem_names_of_eq_some h)
    refine .inr ⟨hname, h, ?_⟩
    rw [Std.OrientedCmp.gt_iff_lt.mpr hlt]

theorem blank_alter (hordered : top.Ordered) (h : top.entry? name = some node)
    (hchange : (change (some node)).blank = node.blank) :
    (top.alter name change).blank = top.blank := by
  induction top using cons_induction with
  | nil => exact absurd h (Option.some_ne_none node).symm
  | cons first node' rest ih =>
      rcases hordered.alter_cons change h with ⟨rfl, rfl, heq⟩ | ⟨-, hrest, heq⟩
      · rw [heq, blank_cons, blank_cons, hchange]
      · rw [heq, blank_cons, blank_cons, ih ((ordered_cons rest).mp hordered).2.2 hrest]

theorem entry?_alter (hordered : top.Ordered) (h : top.entry? name = some node) (other : Bytes) :
    entry? other (top.alter name change) =
      if name = other then some (change (some node)) else top.entry? other := by
  induction top using cons_induction with
  | nil => exact absurd h (Option.some_ne_none node).symm
  | cons first node' rest ih =>
      rcases hordered.alter_cons change h with ⟨rfl, rfl, heq⟩ | ⟨hname, hrest, heq⟩
      · rw [heq, entry?_cons, entry?_cons]
        split
        · rfl
        · rfl
      · rw [heq, entry?_cons, entry?_cons, ih ((ordered_cons rest).mp hordered).2.2 hrest]
        by_cases hfirst : first = other
        · rw [if_pos hfirst, if_neg fun hother => hname (hfirst.trans hother.symm), if_pos hfirst]
        · rw [if_neg hfirst, if_neg hfirst]

/-! ### Order is kept -/

theorem mem_names_alter (h : other ∈ (top.alter name change).names) :
    other = name ∨ other ∈ top.names := by
  induction top using cons_induction with
  | nil =>
      rw [alter, names_cons] at h
      exact .inl (List.mem_singleton.mp h)
  | cons first node rest ih =>
      rw [Listing.alter_cons] at h
      rw [names_cons, List.mem_cons]
      cases hcompare : compare name first with
      | lt =>
          rw [hcompare, names_cons, List.mem_cons, names_cons, List.mem_cons] at h
          exact h
      | eq =>
          rw [hcompare, names_cons, List.mem_cons] at h
          exact h.imp_right .inr
      | gt =>
          rw [hcompare, names_cons, List.mem_cons] at h
          rcases h with heq | hrest
          · exact .inr (.inl heq)
          · exact (ih hrest).imp_right .inr

/-- Changing an entry, or making it, keeps the order. -/
theorem Ordered.alter (hordered : top.Ordered)
    (hchange : ∀ found, (∀ node, found = some node → node.Ordered) → (change found).Ordered) :
    (top.alter name change).Ordered := by
  induction top using cons_induction with
  | nil => exact (ordered_cons nil).mpr ⟨nofun, hchange none nofun, trivial⟩
  | cons first node rest ih =>
      obtain ⟨hfirst, hnode, hrest⟩ := (ordered_cons rest).mp hordered
      rw [Listing.alter_cons]
      cases hcompare : compare name first with
      | lt =>
          refine (ordered_cons _).mpr ⟨fun other hother => ?_, hchange none nofun, hordered⟩
          rw [names_cons, List.mem_cons] at hother
          rcases hother with rfl | hother
          · exact hcompare
          · exact Std.TransCmp.lt_trans hcompare (hfirst other hother)
      | eq =>
          obtain rfl := Std.LawfulEqCmp.eq_of_compare hcompare
          refine (ordered_cons rest).mpr ⟨hfirst, hchange _ fun found hfound => ?_, hrest⟩
          exact Option.some.inj hfound ▸ hnode
      | gt =>
          refine (ordered_cons _).mpr ⟨fun other hother => ?_, hnode, ih hrest⟩
          rcases mem_names_alter hother with rfl | hother
          · exact Std.OrientedCmp.gt_iff_lt.mp hcompare
          · exact hfirst other hother

/-- **Putting something into a directory** keeps the order, so that the names ascend in every
directory that comes of an empty one in this way. -/
theorem Ordered.put (hordered : top.Ordered) (hnode : node.Ordered) (place : List Bytes) :
    (top.put node place).Ordered := by
  induction place generalizing top with
  | nil => exact hordered
  | cons name names ih =>
      cases names with
      | nil => exact hordered.alter fun _ _ => hnode
      | cons next rest =>
          refine hordered.alter fun found hfound => ?_
          match found with
          | some (.folder inside) => exact ih (hfound _ rfl)
          | some (.file _) => exact ih trivial
          | none => exact ih trivial

/-! ### Files at places -/

/-- The bytes of the file at a place. -/
def file? (top : Listing) (place : List Bytes) : Option Bytes :=
  match top.node? place with
  | some (.file content) => some content
  | _ => none

variable {names : List Bytes} {place : List Bytes} {old : Bytes}

theorem file?_eq_some_iff {content : Bytes} :
    top.file? place = some content ↔ top.node? place = some (.file content) := by
  rw [file?]
  split
  · next content' hnode => rw [hnode, Option.some.injEq, Option.some.injEq, Node.file.injEq]
  · next hnode => exact ⟨fun h => absurd h (by simp), fun h => absurd h (hnode content)⟩

theorem node?_cons_of_folder (h : top.entry? name = some (.folder inside)) :
    top.node? (name :: names) = inside.node? names := by
  rw [node?, h]

theorem node?_blank (top : Listing) (place : List Bytes) :
    top.blank.node? place = (top.node? place).map Node.blank := by
  induction place generalizing top with
  | nil => rfl
  | cons name names ih =>
      rw [node?, node?, entry?_blank]
      cases top.entry? name with
      | none => rfl
      | some node =>
          cases node with
          | file content =>
              dsimp only [Option.map_some, Node.blank]
              split
              · rfl
              · rfl
          | folder inside => exact ih inside

theorem file?_cons (top : Listing) (name : Bytes) (names : List Bytes) :
    top.file? (name :: names) =
      match top.entry? name with
      | some (.folder inside) => inside.file? names
      | some (.file content) => if names.isEmpty then some content else none
      | none => none := by
  rw [file?, node?]
  cases top.entry? name with
  | none => rfl
  | some node =>
      cases node with
      | folder inside => rfl
      | file content =>
          dsimp only
          cases names with
          | nil => rfl
          | cons next names => rfl

/-- A place at which there is a file is the name of an entry, or lies in an entry. -/
theorem cases_of_file?_cons (h : top.file? (name :: names) = some old) :
    (names = [] ∧ top.entry? name = some (.file old)) ∨
      ∃ inside next rest, names = next :: rest ∧ top.entry? name = some (.folder inside) ∧
        inside.file? names = some old := by
  rw [file?_cons] at h
  cases hentry : top.entry? name with
  | none =>
      rw [hentry] at h
      exact absurd h (by simp)
  | some node =>
      rw [hentry] at h
      cases node with
      | file content =>
          cases names with
          | nil =>
              obtain rfl : content = old := Option.some.inj h
              exact .inl ⟨rfl, rfl⟩
          | cons next rest => exact absurd h (by simp)
      | folder inside =>
          cases names with
          | nil => exact absurd h (by simp [file?, node?])
          | cons next rest => exact .inr ⟨inside, next, rest, rfl, rfl, h⟩

/-- **Giving new bytes to a file** leaves all files and directories where they are. -/
theorem blank_put (hordered : top.Ordered) (h : top.file? place = some old) (new : Bytes) :
    (top.put (.file new) place).blank = top.blank := by
  induction place generalizing top with
  | nil => exact absurd h (by simp [file?, node?])
  | cons name names ih =>
      rcases cases_of_file?_cons h with ⟨rfl, hentry⟩ | ⟨inside, next, rest, rfl, hentry, hinside⟩
      · rw [put]
        exact blank_alter hordered hentry rfl
      · rw [put]
        have hblank := ih (hordered.of_eq_some hentry) hinside
        exact blank_alter hordered hentry (congrArg Node.folder hblank)

/-- **Giving new bytes to a file** leaves the bytes of all other files as they are. -/
theorem file?_put (hordered : top.Ordered) (h : top.file? place = some old) (new : Bytes)
    (other : List Bytes) :
    (top.put (.file new) place).file? other =
      if place = other then some new else top.file? other := by
  induction place generalizing top other with
  | nil => exact absurd h (by simp [file?, node?])
  | cons name names ih =>
      cases other with
      | nil => rfl
      | cons name' names' =>
          rw [file?_cons, file?_cons top]
          rcases cases_of_file?_cons h with
            ⟨rfl, hentry⟩ | ⟨inside, next, rest, rfl, hentry, hinside⟩
          · rw [put, entry?_alter hordered hentry]
            by_cases hname : name = name'
            · subst hname
              rw [if_pos rfl, hentry]
              cases names' with
              | nil => exact (if_pos rfl).symm
              | cons next names' => exact (if_neg (by simp)).symm
            · rw [if_neg hname, if_neg fun heq => hname (List.cons.inj heq).1]
          · rw [put, entry?_alter hordered hentry]
            by_cases hname : name = name'
            · subst hname
              rw [if_pos rfl, hentry]
              dsimp only
              rw [ih (hordered.of_eq_some hentry) hinside names']
              by_cases hnames : next :: rest = names'
              · rw [if_pos hnames, if_pos (congrArg _ hnames)]
              · rw [if_neg hnames, if_neg fun heq => hnames (List.cons.inj heq).2]
            · rw [if_neg hname, if_neg fun heq => hname (List.cons.inj heq).1]

end Listing

end DocBlocks
