import DocBlocks.Proofs.Path.Below
import DocBlocks.Proofs.Tree.Listing
import DocBlocks.Tree.Walk

/-!
# What Is Below a Directory

All files below a directory can be listed at once, each by the names that lead to it
(`Listing.contents`). In a directory in which the names ascend, the list holds exactly the files
that are found by following names, and it is in the order in which paths are compared: a
directory's files stand together at the place of its name, and names are compared one by one.

A walk comes across the same files in the same order, if there is nothing that it would have to
pass over: all names are names and text, and no path is too long. A walk by depth comes across
those of them to which the right number of names leads.

## Main results

* `Listing.mem_contents_iff`, `Listing.pairwise_contents`: the files of a directory in order.
* `Listing.allFiles_eq`, `Listing.filesBelow_eq`: the files that a walk comes across.
-/

namespace DocBlocks.Listing

variable {top inside : Listing} {above : Path} {place : List Bytes} {content : Bytes}

/-! ### Names and lengths -/

/-- Whether all names in a directory, and in all directories in it, are names. -/
def Proper : Listing → Prop
  | nil => True
  | file name _ rest => IsName name ∧ rest.Proper
  | folder name inside rest => IsName name ∧ inside.Proper ∧ rest.Proper

instance decidableProper : DecidablePred Proper
  | nil => inferInstanceAs (Decidable True)
  | file _ _ rest =>
    have := decidableProper rest
    inferInstanceAs (Decidable (_ ∧ _))
  | folder _ inside rest =>
    have := decidableProper inside
    have := decidableProper rest
    inferInstanceAs (Decidable (_ ∧ _ ∧ _))

theorem proper_blank (top : Listing) : top.blank.Proper ↔ top.Proper := by
  induction top with
  | nil => rfl
  | file name content rest ih => rw [blank, Proper, Proper, ih]
  | folder name inside rest ihInside ih => rw [blank, Proper, Proper, ihInside, ih]

theorem Proper.of_blank_eq (h : top.blank = inside.blank) (hproper : top.Proper) :
    inside.Proper := by
  rwa [← proper_blank, ← h, proper_blank]

/-- Whether all names in a directory, and in all directories in it, are names and text. -/
def Named : Listing → Prop
  | nil => True
  | file name _ rest => (IsName name ∧ (Text.decode? name).isSome) ∧ rest.Named
  | folder name inside rest =>
    (IsName name ∧ (Text.decode? name).isSome) ∧ inside.Named ∧ rest.Named

instance decidableNamed : DecidablePred Named
  | nil => inferInstanceAs (Decidable True)
  | file _ _ rest =>
    have := decidableNamed rest
    inferInstanceAs (Decidable (_ ∧ _))
  | folder _ inside rest =>
    have := decidableNamed inside
    have := decidableNamed rest
    inferInstanceAs (Decidable (_ ∧ _ ∧ _))

/-- Whether the paths of all files and directories below a path are short enough to be
followed. -/
def FitsBelow (above : Path) : Listing → Prop
  | nil => True
  | file name _ rest => (above.join name).fits ∧ rest.FitsBelow above
  | folder name inside rest =>
    (above.join name).fits ∧ inside.FitsBelow (above.join name) ∧ rest.FitsBelow above

instance decidableFitsBelow : ∀ above, DecidablePred (FitsBelow above)
  | _, nil => inferInstanceAs (Decidable True)
  | above, file _ _ rest =>
    have := decidableFitsBelow above rest
    inferInstanceAs (Decidable (_ ∧ _))
  | above, folder name inside rest =>
    have := decidableFitsBelow (above.join name) inside
    have := decidableFitsBelow above rest
    inferInstanceAs (Decidable (_ ∧ _ ∧ _))

/-! ### The files of a directory -/

theorem contents_eq_map (top : Listing) (above : List Bytes) :
    top.contents above = (top.contents []).map fun e => (above ++ e.1, e.2) := by
  induction top generalizing above with
  | nil => rfl
  | file name content rest ih =>
      rw [contents, contents, ih above, List.nil_append, List.map_cons]
  | folder name inside rest ihInside ih =>
      rw [contents, contents, ihInside, ih above, List.nil_append, ihInside [name], List.map_append,
        List.map_map]
      simp [Function.comp_def]

/-- The files of a directory in a directory. -/
theorem contents_folder (name : Bytes) (inside rest : Listing) :
    (folder name inside rest).contents [] =
      (inside.contents []).map (fun e => (name :: e.1, e.2)) ++ rest.contents [] := by
  rw [contents, List.nil_append, contents_eq_map inside]
  rfl

/-- The first name on the way to a file is that of an entry. -/
theorem exists_cons_of_mem_contents {e : List Bytes × Bytes} (h : e ∈ top.contents []) :
    ∃ name names, e.1 = name :: names ∧ name ∈ top.names := by
  induction top generalizing e with
  | nil => exact absurd h List.not_mem_nil
  | file name content rest ih =>
      rcases List.mem_cons.mp h with rfl | h
      · exact ⟨name, [], rfl, List.mem_cons_self⟩
      · obtain ⟨other, names, heq, hmem⟩ := ih h
        exact ⟨other, names, heq, List.mem_cons_of_mem _ hmem⟩
  | folder name inside rest _ ih =>
      rw [contents_folder, List.mem_append, List.mem_map] at h
      rcases h with ⟨e', -, rfl⟩ | h
      · exact ⟨name, e'.1, rfl, List.mem_cons_self⟩
      · obtain ⟨other, names, heq, hmem⟩ := ih h
        exact ⟨other, names, heq, List.mem_cons_of_mem _ hmem⟩

theorem Named.proper (hnamed : top.Named) : top.Proper := by
  induction top with
  | nil => trivial
  | file name content rest ih => exact ⟨hnamed.1.1, ih hnamed.2⟩
  | folder name inside rest ihInside ih =>
      exact ⟨hnamed.1.1, ihInside hnamed.2.1, ih hnamed.2.2⟩

theorem Proper.isName (hproper : top.Proper) {e : List Bytes × Bytes} (h : e ∈ top.contents []) :
    ∀ name ∈ e.1, IsName name := by
  induction top generalizing e with
  | nil => exact absurd h List.not_mem_nil
  | file name content rest ih =>
      rcases List.mem_cons.mp h with rfl | h
      · exact List.forall_mem_singleton.mpr hproper.1
      · exact ih hproper.2 h
  | folder name inside rest ihInside ih =>
      obtain ⟨hname, hinside, hrest⟩ := hproper
      rw [contents_folder, List.mem_append, List.mem_map] at h
      rcases h with ⟨e', he', rfl⟩ | h
      · exact List.forall_mem_cons.mpr ⟨hname, ihInside hinside he'⟩
      · exact ih hrest h

theorem Named.isName (hnamed : top.Named) {e : List Bytes × Bytes} (h : e ∈ top.contents []) :
    ∀ name ∈ e.1, IsName name :=
  hnamed.proper.isName h

theorem entry?_eq_none_of_lt {name : Bytes}
    (h : ∀ other ∈ top.names, compare name other = .lt) : top.entry? name = none := by
  cases hentry : top.entry? name with
  | none => rfl
  | some node =>
      have hlt := h name (mem_names_of_eq_some hentry)
      exact absurd (hlt.symm.trans Std.ReflCmp.compare_self) (by decide)

/-- **The files of a directory** are those that are found by following names. -/
theorem mem_contents_iff (hordered : top.Ordered) :
    (place, content) ∈ top.contents [] ↔ top.file? place = some content := by
  induction top generalizing place with
  | nil =>
      cases place with
      | nil => simp [contents, file?, node?]
      | cons name names => simp [contents, file?_cons, entry?]
  | file name bytes rest ih =>
      obtain ⟨hfirst, hrest⟩ := hordered
      rw [contents, List.nil_append, List.mem_cons, ih hrest]
      cases place with
      | nil => simp [file?, node?]
      | cons other names =>
          rw [file?_cons, file?_cons, entry?]
          by_cases hname : name = other
          · subst hname
            rw [entry?_eq_none_of_lt hfirst, if_pos rfl]
            cases names with
            | nil => simp [eq_comm]
            | cons next names => simp
          · rw [if_neg hname]
            simp [Ne.symm hname]
  | folder name inside rest ihInside ih =>
      obtain ⟨hfirst, hinside, hrest⟩ := hordered
      rw [contents_folder, List.mem_append, List.mem_map, ih hrest]
      cases place with
      | nil => simp [file?, node?]
      | cons other names =>
          rw [file?_cons, file?_cons, entry?]
          by_cases hname : name = other
          · subst hname
            rw [entry?_eq_none_of_lt hfirst, if_pos rfl]
            dsimp only
            rw [← ihInside hinside]
            simp
          · rw [if_neg hname]
            simp [hname]

/-- Names are compared first name first. -/
theorem compare_map_name_cons (name other : Bytes) (names others : List Bytes) :
    compare ((name :: names).map Part.name) ((other :: others).map Part.name) =
      (compare name other).then (compare (names.map Part.name) (others.map Part.name)) := by
  rw [List.map_cons, List.map_cons, List.compare_cons_cons]
  rfl

/-- **The order of the files** is that of their paths. -/
theorem pairwise_contents (hordered : top.Ordered) :
    (top.contents []).Pairwise fun a b =>
      compare (a.1.map Part.name) (b.1.map Part.name) = .lt := by
  induction top with
  | nil => exact .nil
  | file name content rest ih =>
      obtain ⟨hfirst, hrest⟩ := hordered
      refine List.pairwise_cons.mpr ⟨fun e he => ?_, ih hrest⟩
      obtain ⟨other, names, heq, hmem⟩ := exists_cons_of_mem_contents he
      rw [heq, List.nil_append, compare_map_name_cons, hfirst other hmem]
      rfl
  | folder name inside rest ihInside ih =>
      obtain ⟨hfirst, hinside, hrest⟩ := hordered
      rw [contents_folder]
      refine List.pairwise_append.mpr ⟨List.pairwise_map.mpr ?_, ih hrest, ?_⟩
      · refine (ihInside hinside).imp fun {a b} hab => ?_
        have hself : compare name name = .eq := Std.ReflCmp.compare_self
        rw [compare_map_name_cons, hself]
        exact hab
      · rintro _ ha e he
        obtain ⟨e', -, rfl⟩ := List.mem_map.mp ha
        obtain ⟨other, names, heq, hmem⟩ := exists_cons_of_mem_contents he
        rw [heq, compare_map_name_cons, hfirst other hmem]
        rfl

/-! ### The files of a walk -/

theorem foundFile_eq {name : Bytes} (hname : IsName name ∧ (Text.decode? name).isSome)
    (hfits : (above.join name).fits) : foundFile above name = [.ok (above.join name)] := by
  rw [foundFile, hname.2, hfits]
  rfl

/-- **A walk** comes across all files, in their order. -/
theorem allFiles_eq (hnamed : inside.Named) (hfits : inside.FitsBelow above) :
    inside.allFiles above = (inside.contents []).map fun e => .ok (above.below e.1) := by
  induction inside generalizing above with
  | nil => rfl
  | file name content rest ih =>
      rw [allFiles, foundFile_eq hnamed.1 hfits.1, ih hnamed.2 hfits.2]
      rfl
  | folder name inside rest ihInside ih =>
      obtain ⟨-, hinside, hrest⟩ := hnamed
      obtain ⟨hpath, hfitsInside, hfitsRest⟩ := hfits
      rw [allFiles, contents_folder, List.map_append, ih hrest hfitsRest, List.map_map, listed,
        if_pos hpath, ihInside hinside hfitsInside]
      rfl

/-- **A walk by depth** comes across the files that lie below as many directories. -/
theorem filesBelow_eq (hnamed : inside.Named) (hfits : inside.FitsBelow above) (folders : Nat) :
    inside.filesBelow above folders =
      ((inside.contents []).filter fun e => e.1.length == folders + 1).map
        fun e => .ok (above.below e.1) := by
  induction inside generalizing above folders with
  | nil => rfl
  | file name content rest ih =>
      rw [filesBelow, foundFile_eq hnamed.1 hfits.1, ih hnamed.2 hfits.2, contents, List.nil_append,
        List.filter_cons]
      by_cases hfolders : folders = 0
      · subst hfolders
        rfl
      · rw [if_neg hfolders, if_neg (by simpa using hfolders)]
        rfl
  | folder name inside rest ihInside ih =>
      obtain ⟨⟨-, htext⟩, hinside, hrest⟩ := hnamed
      obtain ⟨hpath, hfitsInside, hfitsRest⟩ := hfits
      rw [filesBelow, contents_folder, List.filter_append, List.map_append, ih hrest hfitsRest,
        List.filter_map, List.map_map]
      congr 1
      cases folders with
      | zero =>
          -- Two names at least lead to a file in this directory.
          rw [if_pos (.inl rfl), List.filter_eq_nil_iff.mpr, List.map_nil]
          intro e he
          obtain ⟨other, names, heq, -⟩ := exists_cons_of_mem_contents he
          simp [heq]
      | succ folders =>
          have htext' : ¬(folders + 1 = 0 ∨ (Text.decode? name).isNone = true) := by
            simp [Option.isNone_iff_eq_none, ← Option.isSome_iff_ne_none, htext]
          rw [if_neg htext', listed, if_pos hpath, Nat.add_sub_cancel,
            ihInside hinside hfitsInside]
          congr 1
          refine List.filter_congr fun e _ => ?_
          simp

end DocBlocks.Listing
