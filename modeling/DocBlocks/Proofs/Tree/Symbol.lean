import DocBlocks.Proofs.Tree.Walk

/-!
# The Symbol of a File

Many paths lead to the same file. They go different ways, but the last part of each is the name
of the file: a dot, two dots or no part at all lead to a directory. So all paths to a file have
the same symbol, which is read off that name.

The parts of the way (`Path.steps`) and those that paths are compared by (`Path.parts`) differ
by dots only, so that the last ones are the same if it is a name.

## Main results

* `Site.symbol?_eq_of_place?`: paths to the same file have the same symbol.
-/

namespace DocBlocks

namespace Listing

variable {top : Listing} {place reached : List Bytes} {content : Bytes}

/-! ### The last part of the way -/

/-- Above every place there are directories. -/
theorem file?_dropLast {node : Node} (h : top.node? place = some node) :
    top.file? place.dropLast = none := by
  induction place generalizing top with
  | nil => rfl
  | cons name names ih =>
      cases names with
      | nil => rfl
      | cons next rest =>
          rw [List.dropLast_cons_of_ne_nil (List.cons_ne_nil next rest), file?_cons]
          cases hentry : top.entry? name with
          | none => rfl
          | some first =>
              cases first with
              | file bytes =>
                  rw [node?, hentry] at h
                  exact absurd h (by simp)
              | folder inside =>
                  rw [node?_cons_of_folder hentry] at h
                  exact ih h

/-- A way on starts at a directory. -/
theorem file?_eq_none_of_follow? {part : Part} {parts : List Part}
    (h : top.follow? place (part :: parts) = .ok reached) : top.file? place = none := by
  obtain ⟨⟨inside, hnode⟩, -⟩ := follow?_cons_eq_ok_iff.mp h
  rw [file?, hnode]

/-- **The last part of a way to a file** is the name of the file, if the way does not start
there. -/
theorem exists_name_of_follow? {parts : List Part}
    (h : top.follow? place parts = .ok reached) (hfile : top.file? reached = some content)
    (hplace : top.file? place = none) :
    ∃ name, parts.getLast? = some (.name name) ∧ reached.getLast? = some name := by
  induction parts generalizing place with
  | nil =>
      rw [follow?] at h
      obtain rfl := Except.ok.inj h
      exact absurd (hfile.symm.trans hplace) (by simp)
  | cons part parts ih =>
      obtain ⟨⟨inside, hnode⟩, -, hon⟩ := follow?_cons_eq_ok_iff.mp h
      -- Parts behind this one have the same last part.
      have hlater : top.file? (part.leadsTo place) = none →
          ∃ name, (part :: parts).getLast? = some (.name name) ∧ reached.getLast? = some name := by
        intro hnone
        obtain ⟨name, hlast, hreached⟩ := ih hon hnone
        refine ⟨name, ?_, hreached⟩
        rw [List.getLast?_cons, hlast]
        rfl
      cases part with
      | root => exact hlater rfl
      | here => exact hlater hplace
      | parent => exact hlater (file?_dropLast hnode)
      | name name =>
          cases parts with
          | nil =>
              obtain rfl := Except.ok.inj hon
              exact ⟨name, rfl, List.getLast?_concat⟩
          | cons next rest => exact hlater (file?_eq_none_of_follow? hon)

end Listing

/-! ### The last part of a path -/

theorem inner?_eq_filter_step? (piece : Bytes) :
    Part.inner? piece = (Part.step? piece).filter (· != .here) := by
  rw [Part.inner?, Part.step?]
  by_cases hempty : piece = []
  · subst hempty
    rfl
  · by_cases hdot : piece = [46]
    · subst hdot
      rfl
    · by_cases hdots : piece = [46, 46]
      · subst hdots
        rfl
      · rw [if_neg (by simp [hempty, hdot]), if_neg hdots, if_neg (by simpa using hempty),
          if_neg hdot]
        rfl

theorem filterMap_inner? (pieces : List Bytes) :
    pieces.filterMap Part.inner? = (pieces.filterMap Part.step?).filter (· != .here) := by
  rw [List.filter_filterMap]
  exact congrArg (pieces.filterMap ·) (funext inner?_eq_filter_step?)

theorem leading_of_step? {piece name : Bytes} (h : Part.step? piece = some (.name name))
    (alone : Bool) : Part.leading piece alone = [.name name] := by
  rw [Part.step?] at h
  split at h
  · exact absurd h (by simp)
  · next hempty =>
      split at h
      · exact absurd h (by simp)
      · next hdot =>
          split at h
          · exact absurd h (by simp)
          · next hdots =>
              rw [Part.leading, if_neg (by simpa using hempty), if_neg hdot, if_neg hdots,
                Part.name.inj (Option.some.inj h)]

/-- **The last part of a path** is the name that the way ends with, if it ends with one. -/
theorem getLast?_parts_of_steps {path : Path} {name : Bytes}
    (h : path.steps.getLast? = some (.name name)) : path.parts.getLast? = some (.name name) := by
  rw [Path.steps] at h
  rw [Path.parts]
  cases hpieces : path.pieces with
  | nil =>
      rw [hpieces] at h
      exact absurd h (by simp)
  | cons first rest =>
      rw [hpieces] at h
      dsimp only at h ⊢
      rw [filterMap_inner?, List.getLast?_append]
      rw [List.getLast?_append] at h
      cases hlast : (rest.filterMap Part.step?).getLast? with
      | some last =>
          rw [hlast] at h
          obtain rfl := Option.some.inj h
          obtain ⟨before, hbefore⟩ := List.getLast?_eq_some_iff.mp hlast
          rw [hbefore, List.filter_append, List.filter_cons_of_pos rfl, List.filter_nil,
            List.getLast?_concat]
          rfl
      | none =>
          rw [hlast, Option.none_or] at h
          rw [List.getLast?_eq_none_iff.mp hlast]
          by_cases hfirst : first.isEmpty = true
          · rw [if_pos hfirst] at h
            exact absurd h (by simp)
          · rw [if_neg hfirst] at h
            cases hstep : Part.step? first with
            | none =>
                rw [hstep] at h
                exact absurd h (by simp)
            | some part =>
                rw [hstep] at h
                obtain rfl : part = .name name := Option.some.inj h
                rw [leading_of_step? hstep]
                rfl

/-- A way has parts. -/
theorem Path.steps_ne_nil (path : Path) : path.steps ≠ [] := by
  obtain ⟨first, rest, hpieces⟩ :=
    List.exists_cons_of_ne_nil (pieces_ne_nil Path.isSlash path.spelling)
  have hpieces : path.pieces = first :: rest := hpieces
  rw [Path.steps, hpieces]
  refine List.append_ne_nil_of_left_ne_nil ?_ _
  by_cases hempty : first.isEmpty = true
  · rw [if_pos hempty]
    exact List.cons_ne_nil _ _
  · rw [if_neg hempty, Part.step?, if_neg hempty]
    split
    · exact List.cons_ne_nil _ _
    · split
      · exact List.cons_ne_nil _ _
      · exact List.cons_ne_nil _ _

/-! ### Symbols -/

namespace Site

variable {site : Site} {place : List Bytes} {content : Bytes} {path other : Path}

/-- The name of a file that a path leads to is the last name on the way down to it. -/
theorem fileName?_of_place? (h : site.place? path = .ok place)
    (hfile : site.all.file? place = some content) : fileName? path.parts = place.getLast? := by
  obtain ⟨-, hfollow⟩ := place?_eq_ok_iff.mp h
  obtain ⟨part, parts, hsteps⟩ := List.exists_cons_of_ne_nil path.steps_ne_nil
  have hstart : site.all.file? site.start = none :=
    Listing.file?_eq_none_of_follow? (hsteps ▸ hfollow)
  obtain ⟨name, hlast, hplace⟩ := Listing.exists_name_of_follow? hfollow hfile hstart
  rw [fileName?, getLast?_parts_of_steps hlast, hplace]

/-- **Paths to the same file** have the same symbol. -/
theorem symbol?_eq_of_place? (hpath : site.place? path = .ok place)
    (hother : site.place? other = .ok place) (hfile : site.all.file? place = some content) :
    path.symbol? = other.symbol? := by
  rw [Path.symbol?, Path.symbol?, stem?, stem?, fileName?_of_place? hpath hfile,
    fileName?_of_place? hother hfile]

end Site

end DocBlocks
