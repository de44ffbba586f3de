import DocBlocks.Proofs.Tree.Listing
import DocBlocks.Tree.Directory

/-!
# What Is in Files Does Not Matter for the Way

Where a path leads and what a walk comes across depends on which files and directories there are,
and not on the bytes of any file. So it is the same in two sites that are the same when the bytes
of all files are forgotten.

## Main results

* `Listing.follow?_cons_eq_ok_iff`: one step on a way.
* `Site.place?_congr`: where a path leads.
* `DirectoryTree.files_congr`: which files are listed.
-/

namespace DocBlocks

/-- A site with the bytes of all files in it forgotten. -/
def Site.blank (site : Site) : Site := { site with all := site.all.blank }

@[simp] theorem Site.all_blank (site : Site) : site.blank.all = site.all.blank := rfl

@[simp] theorem Site.start_blank (site : Site) : site.blank.start = site.start := rfl

/-! ### Following a path -/

theorem Listing.follow?_blank (top : Listing) (place : List Bytes) (parts : List Part) :
    top.blank.follow? place parts = top.follow? place parts := by
  induction parts generalizing place with
  | nil => rfl
  | cons part parts ih =>
      rw [follow?.eq_def top.blank, follow?.eq_def top, node?_blank]
      cases top.node? place with
      | none => rfl
      | some node =>
          cases node with
          | file content => rfl
          | folder inside =>
              dsimp only [Option.map_some, Node.blank]
              rw [ih]

/-- **One step on a way**: a part leads on from a directory, if it is no name that is too long. -/
theorem Listing.follow?_cons_eq_ok_iff {top : Listing} {place reached : List Bytes} {part : Part}
    {parts : List Part} :
    top.follow? place (part :: parts) = .ok reached ↔
      (∃ inside, top.node? place = some (.folder inside)) ∧
        part.bytes.length ≤ Part.nameLimit ∧
        top.follow? (part.leadsTo place) parts = .ok reached := by
  rw [follow?]
  cases top.node? place with
  | none => simp
  | some node =>
      cases node with
      | file content => simp
      | folder inside =>
          by_cases hlong : Part.nameLimit < part.bytes.length
          · simp [hlong, Nat.not_le.mpr hlong]
          · simp [hlong, Nat.not_lt.mp hlong]

/-- What is wrong with no path: to be empty, to be too long or to have a zero byte. -/
theorem Path.spellingFault?_eq_none_iff {path : Path} :
    path.spellingFault? = none ↔ 0 ∉ path.spelling ∧ path.fits ∧ path.spelling ≠ [] := by
  rw [spellingFault?]
  by_cases hzero : path.spelling.contains 0 = true
  · simp [show 0 ∈ path.spelling by simpa using hzero]
  · rw [if_neg hzero]
    by_cases hfits : path.fits = true
    · simp [hfits, show 0 ∉ path.spelling by simpa using hzero]
    · simp [hfits]

namespace Site

/-- **Where a path leads**: to where its parts lead, if nothing is wrong with its spelling. -/
theorem place?_eq_ok_iff {site : Site} {path : Path} {place : List Bytes} :
    site.place? path = .ok place ↔
      path.spellingFault? = none ∧ site.all.follow? site.start path.steps = .ok place := by
  rw [place?, along?]
  cases path.spellingFault? with
  | some cause => simp
  | none => simp

theorem place?_blank (site : Site) (path : Path) : site.blank.place? path = site.place? path := by
  rw [place?, place?, along?, along?, all_blank, start_blank, Listing.follow?_blank]

/-- **Where a path leads** does not depend on the bytes of any file. -/
theorem place?_congr {site site' : Site} (h : site.blank = site'.blank) (path : Path) :
    site.place? path = site'.place? path := by
  rw [← place?_blank site, h, place?_blank]

end Site

/-! ### Walking -/

namespace Listing

theorem allFiles_blank (top : Listing) (above : Path) :
    top.blank.allFiles above = top.allFiles above := by
  induction top generalizing above with
  | nil => rfl
  | file name content rest ih => rw [blank, allFiles, allFiles, ih]
  | folder name inside rest ihInside ih => rw [blank, allFiles, allFiles, ihInside, ih]

theorem filesBelow_blank (top : Listing) (above : Path) (folders : Nat) :
    top.blank.filesBelow above folders = top.filesBelow above folders := by
  induction top generalizing above folders with
  | nil => rfl
  | file name content rest ih => rw [blank, filesBelow, filesBelow, ih]
  | folder name inside rest ihInside ih => rw [blank, filesBelow, filesBelow, ihInside, ih]

end Listing

theorem startFrom_blank (top : Listing) (above : Path) (place pieces : List Bytes) :
    startFrom top.blank above place pieces =
      (startFrom top above place pieces).map fun (path, inside) => (path, inside.blank) := by
  induction pieces generalizing above place with
  | nil =>
      rw [startFrom, startFrom, Listing.node?_blank]
      cases top.node? place with
      | none => rfl
      | some node =>
          cases node with
          | file content => rfl
          | folder inside => rfl
  | cons piece rest ih =>
      rw [startFrom, startFrom, Listing.node?_blank]
      cases top.node? place with
      | none => rfl
      | some node =>
          cases node with
          | file content => rfl
          | folder inside =>
              cases startBelow? above piece with
              | none => rfl
              | some next =>
                  dsimp only [Option.map_some, Node.blank]
                  rw [ih]
                  split
                  · split
                    · rfl
                    · rfl
                  · split
                    · rfl
                    · rfl

theorem Site.startOf_blank (site : Site) (pieces : List Bytes) :
    site.blank.startOf pieces =
      (site.startOf pieces).map fun (path, inside) => (path, inside.blank) := by
  rw [startOf.eq_def, startOf.eq_def site]
  split
  · exact startFrom_blank site.all ⟨[47]⟩ [] _
  · exact startFrom_blank site.all ⟨[]⟩ site.start pieces

theorem walk_blank (site : Site) (pattern : Pattern) :
    walk site.blank pattern = walk site pattern := by
  rw [walk, walk, Site.startOf_blank]
  cases site.startOf pattern.root with
  | none => rfl
  | some start =>
      obtain ⟨above, inside⟩ := start
      cases hfolders : pattern.folders with
      | none => exact congrArg (listed above) (inside.allFiles_blank above)
      | some folders => exact congrArg (listed above) (inside.filesBelow_blank above folders)

/-- **Which files are listed** does not depend on the bytes of any file. -/
theorem DirectoryTree.files_congr {tree tree' : DirectoryTree} (hroot : tree.root = tree'.root)
    (h : tree.top.blank = tree'.top.blank) (selection : Selection) :
    SourceTree.files tree selection = SourceTree.files tree' selection := by
  have hwalk : walk tree.top = walk tree'.top := by
    funext pattern
    rw [← walk_blank, h, walk_blank]
  rw [SourceTree.files, instSourceTree]
  dsimp only
  rw [hwalk, hroot]

end DocBlocks
