import DocBlocks.Proofs.Tree.Files

/-!
# The Files of a Listing Lie Apart

No two paths of a listing lead to the same file. The paths of a walk start with the same path, and
go on with different names. The names at the end of a path are those at the end of the place to
which it leads, so that different names lead to different places.

This is so whatever a walk passes over or cannot list. All that is needed of a directory is that
its names ascend and that they are names (`Listing.Proper`), as those of every directory do.

## Main results

* `Listing.exists_of_place?_below`: where the paths below a path lead.
* `DirectoryTree.pairwise_places`: the files of a listing lie apart.
-/

namespace DocBlocks

open Listing

/-! ### The way of a path below a path -/

/-- The parts of the way that a path describes when something is put behind it. The empty path
adds nothing to the way. -/
def Path.way (p : Path) : List Part := if p.spelling = [] then [] else p.steps

theorem IsName.step? {name : Bytes} (h : IsName name) : Part.step? name = some (.name name) := by
  obtain ⟨-, hne, hdot, hdots⟩ := h
  rw [Part.step?, if_neg (by simpa using hne), if_neg hdot, if_neg hdots]

section Way

variable {p : Path} {piece name : Bytes} {names : List Bytes}

theorem join_ne_nil (h : IsName name) : (p.join name).spelling ≠ [] := by
  rw [Path.join]
  split
  · exact List.append_ne_nil_of_right_ne_nil _ h.2.1
  · exact List.append_ne_nil_of_right_ne_nil _ (List.cons_ne_nil _ _)

/-- The way of a path goes on with what is put behind it. -/
theorem steps_join (hp : p.spelling ≠ []) (hpiece : 47 ∉ piece) :
    (p.join piece).steps = p.steps ++ (Part.step? piece).toList := by
  obtain ⟨first, rest, h⟩ := List.exists_cons_of_ne_nil (rootPieces_ne_nil hp)
  rw [steps_eq h, Path.steps, pieces_join hp hpiece, h, List.cons_append]
  dsimp only
  rw [List.filterMap_append, filterMap_cons_eq_append, List.filterMap_nil, List.append_nil,
    List.append_assoc]

theorem way_join (h : IsName name) : (p.join name).way = p.way ++ [.name name] := by
  rw [Path.way, if_neg (join_ne_nil h), Path.way]
  by_cases hp : p.spelling = []
  · rw [if_pos hp, Path.join_of_spelling_eq_nil hp, Path.steps, Path.pieces_of_not_mem h.1]
    dsimp only
    rw [if_neg (by simpa using h.2.1), h.step?]
    rfl
  · rw [if_neg hp, steps_join hp h.1, h.step?, Option.toList_some]

/-- **The way of a path below a path** goes on with the names. -/
theorem way_below (h : ∀ name ∈ names, IsName name) :
    (p.below names).way = p.way ++ names.map .name := by
  induction names generalizing p with
  | nil => exact (List.append_nil _).symm
  | cons name names ih =>
      obtain ⟨hname, hnames⟩ := List.forall_mem_cons.mp h
      rw [Path.below, List.foldl_cons, ← Path.below, ih hnames, way_join hname, List.append_assoc,
        List.map_cons, List.singleton_append]

end Way

/-! ### Where it leads -/

namespace Listing

variable {top inside : Listing} {above : Path} {place reached : List Bytes}
  {parts more : List Part} {name : Bytes} {names : List Bytes}

/-- A way leads to a place if its parts lead there one after the other. -/
theorem follow?_append_eq_ok_iff :
    top.follow? place (parts ++ more) = .ok reached ↔
      ∃ between, top.follow? place parts = .ok between ∧
        top.follow? between more = .ok reached := by
  induction parts generalizing place with
  | nil =>
      constructor
      · exact fun h => ⟨place, rfl, h⟩
      · rintro ⟨between, hbetween, h⟩
        obtain rfl : place = between := Except.ok.inj hbetween
        exact h
  | cons part parts ih =>
      rw [List.cons_append, follow?_cons_eq_ok_iff, ih]
      simp only [follow?_cons_eq_ok_iff, and_assoc, exists_and_left]

/-- Names lead to where they say. -/
theorem eq_append_of_follow? (h : top.follow? place (names.map .name) = .ok reached) :
    reached = place ++ names := by
  induction names generalizing place with
  | nil =>
      obtain rfl : place = reached := Except.ok.inj h
      exact (List.append_nil _).symm
  | cons name names ih =>
      rw [List.map_cons] at h
      rw [ih (follow?_cons_eq_ok_iff.mp h).2.2, Part.leadsTo, List.append_assoc,
        List.singleton_append]

/-- **Where the paths below a path lead**: to places that end with the names. -/
theorem exists_of_place?_below {site : Site} (hnames : ∀ name ∈ names, IsName name)
    (h : site.place? (above.below names) = .ok place) :
    ∃ reached, site.all.follow? site.start above.way = .ok reached ∧ place = reached ++ names := by
  obtain ⟨hfault, hfollow⟩ := Site.place?_eq_ok_iff.mp h
  obtain ⟨-, -, hne⟩ := Path.spellingFault?_eq_none_iff.mp hfault
  have hway : (above.below names).way = (above.below names).steps := if_neg hne
  rw [← hway, way_below hnames] at hfollow
  obtain ⟨reached, habove, hbelow⟩ := follow?_append_eq_ok_iff.mp hfollow
  exact ⟨reached, habove, eq_append_of_follow? hbelow⟩

/-! ### Directories in directories -/

theorem Proper.of_eq_some (h : top.Proper) (hentry : top.entry? name = some (.folder inside)) :
    inside.Proper := by
  induction top using cons_induction with
  | nil => exact absurd hentry (Option.some_ne_none _).symm
  | cons first node rest ih =>
      rw [entry?_cons] at hentry
      cases node with
      | file content =>
          by_cases hfirst : first = name
          · rw [if_pos hfirst] at hentry
            exact absurd hentry (by simp)
          · rw [if_neg hfirst] at hentry
            exact ih h.2 hentry
      | folder inside' =>
          by_cases hfirst : first = name
          · rw [if_pos hfirst] at hentry
            obtain rfl := Node.folder.inj (Option.some.inj hentry)
            exact h.2.1
          · rw [if_neg hfirst] at hentry
            exact ih h.2.2 hentry

/-- What is kept by going into a directory is kept by going down along names. -/
theorem of_node? {keeps : Listing → Prop}
    (hentry : ∀ {top inside : Listing} {name : Bytes}, keeps top →
      top.entry? name = some (.folder inside) → keeps inside)
    (h : keeps top) (hnode : top.node? place = some (.folder inside)) : keeps inside := by
  induction place generalizing top with
  | nil =>
      obtain rfl := Node.folder.inj (Option.some.inj hnode)
      exact h
  | cons name names ih =>
      cases hfirst : top.entry? name with
      | none =>
          rw [node?, hfirst] at hnode
          exact absurd hnode (by simp)
      | some node =>
          cases node with
          | file content =>
              rw [node?, hfirst] at hnode
              exact absurd hnode (by simp)
          | folder inside' =>
              rw [node?_cons_of_folder hfirst] at hnode
              exact ih (hentry h hfirst) hnode

theorem Proper.of_node? (h : top.Proper) (hnode : top.node? place = some (.folder inside)) :
    inside.Proper :=
  Listing.of_node? Proper.of_eq_some h hnode

theorem Ordered.of_node? (h : top.Ordered) (hnode : top.node? place = some (.folder inside)) :
    inside.Ordered :=
  Listing.of_node? (fun hordered hentry => Ordered.of_eq_some hordered hentry) h hnode

/-! ### What a walk comes across -/

theorem filterMap_foundFile_sublist (above : Path) (name : Bytes) :
    ((foundFile above name).filterMap Except.toOption).Sublist [above.join name] := by
  rw [foundFile]
  split
  · exact List.Sublist.refl _
  · exact List.nil_sublist _

theorem filterMap_listed_sublist (path : Path) (found : List Found) :
    ((listed path found).filterMap Except.toOption).Sublist (found.filterMap Except.toOption) := by
  rw [listed]
  split
  · exact List.Sublist.refl _
  · exact List.nil_sublist _

/-- The paths of the files in a directory of a directory. -/
theorem map_below_contents_folder (above : Path) (name : Bytes) (inside rest : Listing) :
    ((folder name inside rest).contents []).map (fun e => above.below e.1) =
      (inside.contents []).map (fun e => (above.join name).below e.1) ++
        (rest.contents []).map fun e => above.below e.1 := by
  rw [contents_folder, List.map_append, List.map_map]
  rfl

theorem allFiles_sublist (inside : Listing) (above : Path) :
    ((inside.allFiles above).filterMap Except.toOption).Sublist
      ((inside.contents []).map fun e => above.below e.1) := by
  induction inside generalizing above with
  | nil => exact List.Sublist.refl _
  | file name content rest ih =>
      rw [allFiles, List.filterMap_append]
      exact (filterMap_foundFile_sublist above name).append (ih above)
  | folder name inside rest ihInside ih =>
      rw [allFiles, List.filterMap_append, map_below_contents_folder]
      exact ((filterMap_listed_sublist _ _).trans (ihInside _)).append (ih above)

theorem filesBelow_sublist (inside : Listing) (above : Path) (folders : Nat) :
    ((inside.filesBelow above folders).filterMap Except.toOption).Sublist
      ((inside.contents []).map fun e => above.below e.1) := by
  induction inside generalizing above folders with
  | nil => exact List.Sublist.refl _
  | file name content rest ih =>
      rw [filesBelow, List.filterMap_append]
      change List.Sublist _ ([above.join name] ++ (rest.contents []).map fun e => above.below e.1)
      refine List.Sublist.append ?_ (ih above folders)
      split
      · exact filterMap_foundFile_sublist above name
      · exact List.nil_sublist _
  | folder name inside rest ihInside ih =>
      rw [filesBelow, List.filterMap_append, map_below_contents_folder]
      refine List.Sublist.append ?_ (ih above folders)
      split
      · exact List.nil_sublist _
      · exact (filterMap_listed_sublist _ _).trans (ihInside _ _)

end Listing

/-- A walk starts in a directory. -/
theorem exists_node?_of_startFrom {top inside : Listing} {above start : Path}
    {place pieces : List Bytes} (h : startFrom top above place pieces = some (start, inside)) :
    ∃ reached, top.node? reached = some (.folder inside) := by
  induction pieces generalizing above place with
  | nil =>
      rw [startFrom] at h
      split at h
      · next hnode =>
          obtain ⟨-, rfl⟩ := Prod.mk.inj (Option.some.inj h)
          exact ⟨place, hnode⟩
      · exact absurd h (by simp)
  | cons piece rest ih =>
      rw [startFrom] at h
      split at h
      · next hnode hnext =>
          split at h
          · split at h
            · exact ih h
            · obtain ⟨-, rfl⟩ := Prod.mk.inj (Option.some.inj h)
              exact ⟨place, hnode⟩
          · split at h
            · exact ih h
            · exact absurd h (by simp)
      · exact absurd h (by simp)

/-- **The paths of a walk** go on from its start with the names of files below it. -/
theorem exists_of_walk (site : Site) (pattern : Pattern) :
    (walk site pattern).filterMap Except.toOption = [] ∨
      ∃ (start : Path) (inside : Listing) (place : List Bytes),
        site.all.node? place = some (.folder inside) ∧
          ((walk site pattern).filterMap Except.toOption).Sublist
            ((inside.contents []).map fun e => start.below e.1) := by
  rw [walk]
  cases hstart : site.startOf pattern.root with
  | none => exact .inl rfl
  | some found =>
      obtain ⟨start, inside⟩ := found
      have hnode : ∃ place, site.all.node? place = some (.folder inside) := by
        rw [Site.startOf.eq_def] at hstart
        split at hstart
        · exact exists_node?_of_startFrom hstart
        · exact exists_node?_of_startFrom hstart
      obtain ⟨place, hnode⟩ := hnode
      refine .inr ⟨start, inside, place, hnode, (filterMap_listed_sublist _ _).trans ?_⟩
      cases pattern.folders with
      | none => exact inside.allFiles_sublist start
      | some folders => exact inside.filesBelow_sublist start folders

/-- **The files of a listing lie apart.** -/
theorem DirectoryTree.pairwise_places {tree : DirectoryTree} (hordered : tree.top.all.Ordered)
    (hproper : tree.top.all.Proper) {selection : Selection} {files : List (Except FileFault Path)}
    (hfiles : SourceTree.files tree selection = .ok files) :
    (files.filterMap Except.toOption).Pairwise fun p q =>
      ∀ place, tree.top.place? p = .ok place → tree.top.place? q ≠ .ok place := by
  obtain ⟨pattern, -, rfl⟩ := files_eq_ok_iff.mp hfiles
  have hwalk := (List.filter_sublist (p := selection.keeps tree.root)
    (l := walk tree.top pattern)).filterMap Except.toOption
  rcases exists_of_walk tree.top pattern with hnil | ⟨start, inside, place, hnode, hsub⟩
  · rw [hnil, List.sublist_nil] at hwalk
    rw [hwalk]
    exact .nil
  · refine List.Pairwise.sublist (hwalk.trans hsub) (List.pairwise_map.mpr ?_)
    refine (pairwise_contents (hordered.of_node? hnode)).imp_of_mem fun {a b} ha hb hlt => ?_
    intro leads hleft hright
    have hnames := fun {e} => (hproper.of_node? hnode).isName (e := e)
    obtain ⟨reached, habove, rfl⟩ := exists_of_place?_below (hnames ha) hleft
    obtain ⟨reached', habove', heq⟩ := exists_of_place?_below (hnames hb) hright
    obtain rfl : reached = reached' := Except.ok.inj (habove.symm.trans habove')
    rw [List.append_cancel_left heq] at hlt
    exact absurd (hlt.symm.trans Std.ReflCmp.compare_self) (by decide)

end DocBlocks
