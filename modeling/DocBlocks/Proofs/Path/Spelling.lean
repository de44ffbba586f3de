import DocBlocks.Proofs.Path.Below
import DocBlocks.Selection
import Mathlib.Logic.Relation

/-!
# Spellings of a Path

A path can be spelled in many ways. A slash may be doubled, a dot may stand between two slashes or
behind the last one, and a slash may follow what is not empty. None of this changes the parts of the
path, and nothing else leaves them as they are: two spellings have the same parts exactly if such
changes, to and fro, lead from one to the other (`MeansSame`, `meansSame_iff`). For all of them can
be undone until a slash follows each part, and there is one such spelling for the parts.

A dot in front of a path is one of its parts, so it does make a difference. But it is no name, and a
selection asks for names only (`Selection.accepts_dotSlash`).

## Main results

* `Path.parts_eq_of_shortens`: a change that makes no difference.
* `Path.reflTransGen_spelled`: the one spelling that is left in the end.
* `Path.meansSame_iff`: spellings with the same parts.
* `Selection.accepts_dotSlash`: a dot and a slash in front.
-/

namespace DocBlocks

open Relation

/-- How a part is spelled. What stands before the first slash of an absolute path is empty. -/
def Part.spelling : Part → Bytes
  | root => []
  | here => [46]
  | parent => [46, 46]
  | name bytes => bytes

/-! ### Changes that make no difference -/

namespace Path

variable {p q : Path} {s t : Bytes}

/-- A change to the spelling of a path that **makes no difference**. The slash is the byte 47, and
the dot the byte 46. -/
inductive Shortens : Bytes → Bytes → Prop
  /-- One slash does for two. -/
  | slash (before after : Bytes) : Shortens (before ++ 47 :: 47 :: after) (before ++ 47 :: after)
  /-- A dot between slashes goes, with one of them. -/
  | dot (before after : Bytes) :
      Shortens (before ++ 47 :: 46 :: 47 :: after) (before ++ 47 :: after)
  /-- A dot behind the last slash goes. -/
  | lastDot (before : Bytes) : Shortens (before ++ [47, 46]) (before ++ [47])
  /-- A slash at the end goes, if it does not stand alone. -/
  | lastSlash (before : Bytes) : before ≠ [] → Shortens (before ++ [47]) before

/-- Whether two spellings **mean the same path**: changes that make no difference, to and fro, lead
from one to the other. -/
def MeansSame (p q : Path) : Prop := EqvGen Shortens p.spelling q.spelling

theorem parts_eq_leading_append {first : Bytes} {rest : List Bytes} (hp : p.spelling ≠ [])
    (h : p.pieces = first :: rest) :
    p.parts = Part.leading first false ++ rest.filterMap Part.inner? := by
  rw [parts, h, ← leading_of_pieces hp h]

theorem pieces_append_slash (before after : Bytes) :
    pieces ⟨before ++ 47 :: after⟩ = pieces ⟨before⟩ ++ pieces ⟨after⟩ :=
  pieces_append_cons rfl before after

/-- What stands behind a slash is read as being behind one, whatever stands before it. -/
theorem parts_append_slash (before after : Bytes) :
    parts ⟨before ++ 47 :: after⟩ =
      parts ⟨before ++ [47]⟩ ++ (pieces ⟨after⟩).filterMap Part.inner? := by
  obtain ⟨first, rest, hfirst⟩ := List.exists_cons_of_ne_nil (pieces_ne_nil isSlash before)
  have hparts (after : Bytes) : parts ⟨before ++ 47 :: after⟩ =
      Part.leading first false ++ (rest ++ pieces ⟨after⟩).filterMap Part.inner? := by
    refine parts_eq_leading_append (by simp) ?_
    rw [pieces_append_slash, pieces, hfirst, List.cons_append]
  have hnil : (pieces ⟨[]⟩).filterMap Part.inner? = [] := rfl
  rw [hparts, hparts, List.filterMap_append, List.filterMap_append, hnil, List.append_nil,
    List.append_assoc]

/-- A slash at the end says nothing. -/
theorem parts_append_singleton_slash (hs : s ≠ []) : parts ⟨s ++ [47]⟩ = parts ⟨s⟩ := by
  obtain ⟨first, rest, hfirst⟩ := List.exists_cons_of_ne_nil (pieces_ne_nil isSlash s)
  have hpieces : pieces ⟨s ++ [47]⟩ = first :: (rest ++ pieces ⟨[]⟩) := by
    rw [pieces_append_slash, pieces, hfirst, List.cons_append]
  rw [parts_eq_leading_append (by simp) hpieces, parts_eq_leading_append hs hfirst,
    List.filterMap_append]
  exact congrArg _ (List.append_nil _)

/-- **A change that makes no difference** leaves the parts as they are. -/
theorem parts_eq_of_shortens (h : Shortens s t) : parts ⟨s⟩ = parts ⟨t⟩ := by
  cases h with
  | slash before after =>
      have hpieces : pieces ⟨47 :: after⟩ = [] :: pieces ⟨after⟩ := pieces_append_slash [] after
      rw [parts_append_slash before (47 :: after), hpieces, parts_append_slash before after]
      rfl
  | dot before after =>
      have hpieces : pieces ⟨46 :: 47 :: after⟩ = [46] :: pieces ⟨after⟩ :=
        pieces_append_slash [46] after
      rw [parts_append_slash before (46 :: 47 :: after), hpieces, parts_append_slash before after]
      rfl
  | lastDot before =>
      rw [parts_append_slash before [46]]
      exact List.append_nil _
  | lastSlash _ hne => exact parts_append_singleton_slash hne

/-! ### The spelling with a slash behind each part -/

/-- The spelling of parts in which a slash follows each of them. -/
def spelled (parts : List Part) : Bytes := parts.flatMap fun part => part.spelling ++ [47]

theorem spelled_append (parts more : List Part) :
    spelled (parts ++ more) = spelled parts ++ spelled more := List.flatMap_append

theorem spelled_leading (first : Bytes) :
    spelled (Part.leading first false) = first ++ [47] := by
  rw [Part.leading]
  split
  · next hempty => rw [hempty]; rfl
  · split
    · next hdot => rw [hdot]; rfl
    · split
      · next hdots => rw [hdots]; rfl
      · exact List.flatMap_singleton _ _

/-- What is a part behind a slash is spelled as it stands there. -/
theorem spelled_inner? {piece : Bytes} (hempty : piece ≠ []) (hdot : piece ≠ [46]) :
    spelled (Part.inner? piece).toList = piece ++ [47] := by
  rw [← leading_eq_toList_inner? hempty hdot false, spelled_leading]

/-- What stands behind a slash is spelled shorter piece by piece. -/
theorem reflTransGen_inner (before : Bytes) (rest : List Bytes) :
    ReflTransGen Shortens (before ++ 47 :: rest.flatMap (· ++ [47]))
      (before ++ 47 :: spelled (rest.filterMap Part.inner?)) := by
  induction rest generalizing before with
  | nil => exact .refl
  | cons piece rest ih =>
      by_cases hempty : piece = []
      · subst hempty
        exact (ih before).head (.slash before _)
      · by_cases hdot : piece = [46]
        · subst hdot
          exact (ih before).head (.dot before _)
        · have hstep := ih (before ++ 47 :: piece)
          rw [filterMap_cons_eq_append, spelled_append, spelled_inner? hempty hdot,
            List.flatMap_cons]
          simpa only [List.append_assoc, List.cons_append, List.nil_append] using hstep

theorem flatMap_cons_append_singleton (rest : List Bytes) :
    rest.flatMap (47 :: ·) ++ [47] = 47 :: rest.flatMap (· ++ [47]) := by
  induction rest with
  | nil => rfl
  | cons piece rest ih =>
      rw [List.flatMap_cons, List.append_assoc, ih, List.flatMap_cons, List.cons_append,
        List.append_assoc, List.singleton_append]

/-- **The spelling that is left in the end** is that of the parts. -/
theorem reflTransGen_spelled (hs : s ≠ []) :
    ReflTransGen Shortens (s ++ [47]) (spelled (parts ⟨s⟩)) := by
  obtain ⟨first, rest, hfirst⟩ := List.exists_cons_of_ne_nil (pieces_ne_nil isSlash s)
  have hspelling : s = first ++ rest.flatMap (47 :: ·) :=
    eq_append_flatMap_of_pieces (fun _ => eq_of_beq) hfirst
  have hstart : s ++ [47] = first ++ 47 :: rest.flatMap (· ++ [47]) := by
    rw [← flatMap_cons_append_singleton, ← List.append_assoc, ← hspelling]
  have hend : spelled (parts ⟨s⟩) = first ++ 47 :: spelled (rest.filterMap Part.inner?) := by
    rw [parts_eq_leading_append hs hfirst, spelled_append, spelled_leading, List.append_assoc,
      List.singleton_append]
  rw [hstart, hend]
  exact reflTransGen_inner first rest

/-! ### Spellings of one path -/

theorem meansSame_of_reflTransGen (h : ReflTransGen Shortens s t) : MeansSame ⟨s⟩ ⟨t⟩ :=
  EqvGen.reflTransGen_le_eqvGen _ _ _ h

theorem MeansSame.symm (h : p.MeansSame q) : q.MeansSame p := EqvGen.symm _ _ h

theorem MeansSame.trans {r : Path} (h : p.MeansSame q) (h' : q.MeansSame r) : p.MeansSame r :=
  EqvGen.trans _ _ _ h h'

/-- A path that is not empty can be spelled with a slash behind each of its parts. -/
theorem meansSame_spelled (hs : s ≠ []) : MeansSame ⟨s⟩ ⟨spelled (parts ⟨s⟩)⟩ :=
  (MeansSame.symm (EqvGen.rel _ _ (.lastSlash s hs))).trans
    (meansSame_of_reflTransGen (reflTransGen_spelled hs))

theorem MeansSame.parts_eq (h : p.MeansSame q) : p.parts = q.parts := by
  suffices heq : ∀ s t, EqvGen Shortens s t → parts ⟨s⟩ = parts ⟨t⟩ from heq _ _ h
  intro s t h
  induction h with
  | rel _ _ hstep => exact parts_eq_of_shortens hstep
  | refl _ => rfl
  | symm _ _ _ ih => exact ih.symm
  | trans _ _ _ _ _ ih ih' => exact ih.trans ih'

/-- Only the empty path has no parts. -/
theorem parts_eq_nil_iff : p.parts = [] ↔ p.spelling = [] := by
  refine ⟨fun h => ?_, parts_of_spelling_eq_nil⟩
  by_contra hp
  obtain ⟨first, rest, hfirst⟩ := List.exists_cons_of_ne_nil (pieces_ne_nil isSlash p.spelling)
  rw [parts_eq_leading_append hp hfirst] at h
  have hspelled := spelled_leading first
  rw [(List.append_eq_nil_iff.mp h).1] at hspelled
  exact absurd hspelled.symm (List.append_ne_nil_of_right_ne_nil _ (List.cons_ne_nil _ _))

/-- **Spellings with the same parts** are those that changes which make no difference lead from one
to the other. -/
theorem meansSame_iff : p.MeansSame q ↔ p.parts = q.parts := by
  refine ⟨MeansSame.parts_eq, fun h => ?_⟩
  by_cases hp : p.spelling = []
  · have hq : q.spelling = [] := parts_eq_nil_iff.mp (h ▸ parts_eq_nil_iff.mpr hp)
    rw [MeansSame, hp, hq]
    exact .refl _
  · have hq : q.spelling ≠ [] := fun hq => hp (parts_eq_nil_iff.mp (h ▸ parts_eq_nil_iff.mpr hq))
    have hleft := meansSame_spelled hp
    rw [show parts ⟨p.spelling⟩ = parts ⟨q.spelling⟩ from h] at hleft
    exact hleft.trans (meansSame_spelled hq).symm

end Path

/-! ### A dot in front -/

theorem fileName?_cons_of_not_isName {part : Part} (h : part.isName = false) (parts : List Part) :
    fileName? (part :: parts) = fileName? parts := by
  cases parts with
  | nil =>
      cases part with
      | name bytes => exact absurd h (by simp [Part.isName])
      | root => rfl
      | here => rfl
      | parent => rfl
  | cons next parts => rw [fileName?, List.getLast?_cons_cons, fileName?]

namespace Selection

/-- A part in front that is no name makes no difference to a selection. -/
theorem acceptsParts_cons (selection : Selection) {part : Part} (h : part.isName = false)
    (parts : List Part) :
    selection.acceptsParts (part :: parts) = selection.acceptsParts parts := by
  rw [acceptsParts, acceptsParts, extension?, extension?, fileName?_cons_of_not_isName h,
    List.countP_cons_of_neg (by simp [h])]

/-- A selection reads the start of a path as what stands behind a slash. -/
theorem accepts_eq_acceptsParts_pieces (selection : Selection) (p : Path) :
    selection.accepts p = selection.acceptsParts (p.pieces.filterMap Part.inner?) := by
  obtain ⟨first, rest, hfirst⟩ :=
    List.exists_cons_of_ne_nil (pieces_ne_nil Path.isSlash p.spelling)
  have hpieces : p.pieces = first :: rest := hfirst
  rw [accepts, Path.parts, hpieces, filterMap_cons_eq_append]
  dsimp only
  by_cases hempty : first = []
  · subst hempty
    cases rest with
    | nil => rfl
    | cons next rest => exact acceptsParts_cons selection rfl _
  · by_cases hdot : first = [46]
    · subst hdot
      exact acceptsParts_cons selection rfl _
    · rw [leading_eq_toList_inner? hempty hdot]

/-- **A dot and a slash in front** make no difference to a selection. -/
theorem accepts_dotSlash (selection : Selection) (p : Path) :
    selection.accepts ⟨46 :: 47 :: p.spelling⟩ = selection.accepts p := by
  have hparts : Path.parts ⟨46 :: 47 :: p.spelling⟩ =
      .here :: p.pieces.filterMap Part.inner? := Path.parts_append_slash [46] p.spelling
  rw [accepts_eq_acceptsParts_pieces selection p, accepts, hparts, acceptsParts_cons _ rfl]

end Selection

end DocBlocks
