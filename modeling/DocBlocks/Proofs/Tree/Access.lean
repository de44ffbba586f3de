import DocBlocks.Proofs.Tree.Walk

/-!
# Reading and Writing Files

A file is read and written at the place to which its path leads. So what is read and written can
be said in terms of places (`Listing.file?`), and two sites with the same files and directories
answer alike wherever the bytes of the file asked for are the same.

## Main results

* `Site.readFile_eq_ok_iff`: the files that can be read.
* `Site.readFile_congr`: reading in two sites.
* `Site.writeFile_of_file?`: writing a file that can be read.
-/

namespace DocBlocks

namespace Site

variable {site site' : Site} {path : Path} {place : List Bytes} {content : Bytes}

theorem readFile_of_place? (hplace : site.place? path = .ok place)
    (hfile : site.all.file? place = some content) :
    site.readFile path = if path.endsWithSlash then .error .notDirectory else .ok content := by
  rw [readFile, hplace]
  dsimp only [bind, Except.bind]
  rw [Listing.file?_eq_some_iff.mp hfile]

/-- A file can be read if the path leads to it and does not ask for a directory. -/
theorem readFile_eq_ok_iff :
    site.readFile path = .ok content ↔
      ∃ place, site.place? path = .ok place ∧ path.endsWithSlash = false ∧
        site.all.file? place = some content := by
  constructor
  · intro h
    cases hplace : site.place? path with
    | error cause =>
        rw [readFile, hplace] at h
        exact absurd h (by simp [bind, Except.bind])
    | ok place =>
        cases hfile : site.all.file? place with
        | some bytes =>
            rw [readFile_of_place? hplace hfile] at h
            split at h
            · exact absurd h (by simp)
            · next hslash =>
                obtain rfl := Except.ok.inj h
                exact ⟨place, rfl, by simpa using hslash, hfile⟩
        | none =>
            rw [readFile, hplace] at h
            dsimp only [bind, Except.bind] at h
            cases hnode : site.all.node? place with
            | none =>
                rw [hnode] at h
                exact absurd h (by simp)
            | some node =>
                rw [hnode] at h
                cases node with
                | file bytes =>
                    rw [Listing.file?_eq_some_iff.mpr hnode] at hfile
                    exact absurd hfile (by simp)
                | folder inside => exact absurd h (by simp)
  · rintro ⟨place, hplace, hslash, hfile⟩
    rw [readFile_of_place? hplace hfile, hslash]
    rfl

/-- A file that is read as a text has bytes that are one. -/
theorem exists_of_readText {s : Text} (h : site.readText path = .ok s) :
    ∃ content, site.readFile path = .ok content ∧ Text.decode? content = some s := by
  rw [readText] at h
  cases hread : site.readFile path with
  | error cause =>
      rw [hread] at h
      exact absurd h (by simp [bind, Except.bind])
  | ok content =>
      rw [hread] at h
      dsimp only [bind, Except.bind] at h
      cases hdecode : Text.decode? content with
      | none =>
          rw [hdecode] at h
          exact absurd h (by simp)
      | some s' =>
          rw [hdecode] at h
          exact ⟨content, rfl, hdecode.trans (congrArg some (Except.ok.inj h))⟩

/-- **Reading in two sites** with the same files and directories gives the same for a file
with the same bytes. -/
theorem readFile_congr (hblank : site.blank = site'.blank)
    (hfile : ∀ place, site.place? path = .ok place → site.all.file? place = site'.all.file? place) :
    site.readFile path = site'.readFile path := by
  rw [readFile, readFile, ← place?_congr hblank]
  cases hplace : site.place? path with
  | error cause => rfl
  | ok place =>
      have hsame := hfile place hplace
      -- Forgetting bytes keeps apart what is a file and what is a directory.
      have hnode : (site.all.node? place).map Node.blank =
          (site'.all.node? place).map Node.blank := by
        rw [← Listing.node?_blank, ← all_blank, hblank, all_blank, Listing.node?_blank]
      dsimp only [bind, Except.bind]
      rw [Listing.file?, Listing.file?] at hsame
      cases hleft : site.all.node? place with
      | none =>
          rw [hleft] at hnode
          rw [Option.map_eq_none_iff.mp hnode.symm]
      | some node =>
          cases hright : site'.all.node? place with
          | none =>
              rw [hleft, hright] at hnode
              exact absurd hnode (by simp)
          | some node' =>
              rw [hleft, hright] at hnode hsame
              cases node with
              | file bytes =>
                  cases node' with
                  | file bytes' =>
                      obtain rfl : bytes = bytes' := Option.some.inj hsame
                      rfl
                  | folder inside' => exact absurd hnode (by simp [Node.blank])
              | folder inside =>
                  cases node' with
                  | file bytes' => exact absurd hnode (by simp [Node.blank])
                  | folder inside' => rfl

/-- Giving new bytes to a file leaves all files and directories where they are. -/
theorem blank_put (hordered : site.all.Ordered) (hfile : site.all.file? place = some content)
    (new : Bytes) : (site.put (.file new) place).blank = site.blank := by
  rw [blank, blank, all_put, Listing.blank_put hordered hfile new, put]

/-- **A file that can be read** can be written. -/
theorem writeFile_of_file? (hplace : site.place? path = .ok place)
    (hslash : path.endsWithSlash = false) (hfile : site.all.file? place = some content)
    (new : Bytes) :
    site.writeFile path new = .ok (site.put (.file new) place) := by
  rw [writeFile, if_neg (by rw [hslash]; exact Bool.false_ne_true), hplace]
  dsimp only [bind, Except.bind]
  rw [Listing.file?_eq_some_iff.mp hfile]

end Site

end DocBlocks
