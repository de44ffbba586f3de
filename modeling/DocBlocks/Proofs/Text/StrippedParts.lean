import DocBlocks.Injection
import DocBlocks.Proofs.Text.EscapeMarker

/-!
# Stripping Texts That Are Put Together

A text that is put together can be stripped in its parts first. What the parts make of each other
is then left to be stripped: the first may end with a backslash and the second start with the
letter of a marker, and with these gone the next two characters may come together. One more
stripping of the whole does all of it (`stripEscapes_append_stripEscapes`), and none is needed
exactly if the stripped parts make no marker where they meet (`stripEscapes_append_eq_iff`).

Between the lines of a text there is a line feed, which belongs to no marker. So lines need no more
than to be stripped one by one (`stripEscapes_joinLines`), which is how they are put into a file.

## Main results

* `stripEscapes_append_stripEscapes`, `stripEscapes_append_eq_iff`: texts put one after the other.
* `stripEscapes_joinLines`: lines.
* `stripEscapes_parts`: both, and what they say of doc blocks.
-/

namespace DocBlocks.Text

open Relation

variable {s t : Text} {lines : List Text}

/-! ### One text after another -/

theorem DropsMarker.append (before after : Text) (h : DropsMarker s t) :
    DropsMarker (before ++ s ++ after) (before ++ t ++ after) := by
  obtain ⟨left, marker, right, hmarker⟩ := h
  have hdrop := DropsMarker.mk (before ++ left) marker (right ++ after) hmarker
  simpa only [List.append_assoc] using hdrop

/-- A text may be stripped where it stands before the whole is. -/
theorem stripEscapes_append_stripEscapes_append (before s after : Text) :
    stripEscapes (before ++ stripEscapes s ++ after) = stripEscapes (before ++ s ++ after) := by
  have hreach : ReflTransGen DropsMarker (before ++ s ++ after)
      (before ++ stripEscapes s ++ after) :=
    (DropsMarker.reflTransGen_stripEscapes s).lift (before ++ · ++ after)
      fun _ _ hdrop => hdrop.append before after
  exact (DropsMarker.stripEscapes_eq_of_reflTransGen hreach).symm

/-- **Two texts are stripped** by stripping each of them, and then once more what they make
together. -/
theorem stripEscapes_append_stripEscapes (s t : Text) :
    stripEscapes (s ++ t) = stripEscapes (stripEscapes s ++ stripEscapes t) := by
  have hleft : stripEscapes (stripEscapes s ++ t) = stripEscapes (s ++ t) :=
    stripEscapes_append_stripEscapes_append [] s t
  have hright := stripEscapes_append_stripEscapes_append (stripEscapes s) t []
  rw [List.append_nil, List.append_nil] at hright
  rw [hright, hleft]

/-- **When nothing is left to be stripped**: when the stripped texts make no marker where they
meet. -/
theorem stripEscapes_append_eq_iff (s t : Text) :
    stripEscapes (s ++ t) = stripEscapes s ++ stripEscapes t ↔
      ¬MakeMarker (stripEscapes s) (stripEscapes t) := by
  have hmarker : hasMarker (stripEscapes s ++ stripEscapes t) = true ↔
      MakeMarker (stripEscapes s) (stripEscapes t) := by
    rw [hasMarker_append_iff, hasMarker_stripEscapes, hasMarker_stripEscapes]
    simp
  rw [← hmarker, Bool.not_eq_true]
  constructor
  · intro heq
    rw [← heq]
    exact hasMarker_stripEscapes _
  · intro hclean
    rw [stripEscapes_append_stripEscapes, stripEscapes_of_not_hasMarker hclean]

/-! ### Lines -/

/-- **Lines are stripped one by one.** -/
theorem stripEscapes_joinLines (lines : List Text) :
    stripEscapes (joinLines lines) = joinLines (lines.map stripEscapes) := by
  by_cases hne : lines = []
  · subst hne
    rfl
  · have hlines : splitLines (stripEscapes (joinLines lines)) =
        splitLines (joinLines (lines.map stripEscapes)) := by
      rw [splitLines_stripEscapes, splitLines_joinLines_eq_flatMap hne,
        splitLines_joinLines_eq_flatMap (by simpa using hne), List.map_flatMap, List.flatMap_map]
      exact List.flatMap_congr fun line _ => (splitLines_stripEscapes line).symm
    rw [← joinLines_splitLines (stripEscapes (joinLines lines)), hlines, joinLines_splitLines]

/-- Lines that hold no line feed are those of their text after stripping as well. -/
theorem splitLines_stripEscapes_joinLines (hne : lines ≠ [])
    (h : ∀ line ∈ lines, '\n' ∉ line) :
    splitLines (stripEscapes (joinLines lines)) = lines.map stripEscapes := by
  rw [splitLines_stripEscapes, splitLines_joinLines h hne]

/-- **Stripping in parts.** Texts that are put one after the other can be stripped first, if what
comes of them is stripped again; and again is once too often exactly if the stripped texts make no
marker where they meet. Lines never make one, so that they can be stripped one by one. This is what
is done with the lines for a class, and, before they are indented, with the lines for a member: what
is put in is the text of the lines, stripped as a whole. -/
theorem stripEscapes_parts :
    (∀ s t, stripEscapes (s ++ t) = stripEscapes (stripEscapes s ++ stripEscapes t)) ∧
    (∀ s t, stripEscapes (s ++ t) = stripEscapes s ++ stripEscapes t ↔
      ¬MakeMarker (stripEscapes s) (stripEscapes t)) ∧
    (∀ lines, stripEscapes (joinLines lines) = joinLines (lines.map stripEscapes)) ∧
    (∀ e : Entry, joinLines e.classBlock = stripEscapes (joinLines e.classLines)) ∧
    ∀ m : MemberDoc, m.lines ≠ [] → (∀ line ∈ m.lines, '\n' ∉ line) →
      m.block = (splitLines (stripEscapes (joinLines m.lines))).map indentLine ++
        shortLines m.short := by
  refine ⟨stripEscapes_append_stripEscapes, stripEscapes_append_eq_iff, stripEscapes_joinLines,
    fun e => (stripEscapes_joinLines e.classLines).symm, fun m hne hclean => ?_⟩
  rw [splitLines_stripEscapes_joinLines hne hclean, List.map_map]
  rfl

/-- Two texts that hold markers only when they are put together, the second of them made by deleting
the first, and two lines that would make a marker where they meet but for the line feed. -/
theorem stripEscapes_parts_nested :
    let s : Text := "\\\\".toList
    let t : Text := "xu41".toList
    let m : MemberDoc := ⟨"Gets.".toList, ["/** \\".toList, "u\\\\xx */".toList]⟩
    (stripEscapes (s ++ t) = "41".toList ∧
      stripEscapes (s ++ t) = stripEscapes (stripEscapes s ++ stripEscapes t) ∧
      stripEscapes (s ++ t) ≠ stripEscapes s ++ stripEscapes t) ∧
    (m.lines ≠ [] ∧ ∀ line ∈ m.lines, '\n' ∉ line) ∧
    m.block = (splitLines (stripEscapes (joinLines m.lines))).map indentLine ++
      shortLines m.short := by
  intro s t m
  obtain ⟨happend, hseam, -, -, hblock⟩ := stripEscapes_parts
  have hmake : MakeMarker (stripEscapes s) (stripEscapes t) := ⟨by decide, by decide⟩
  have hlines : m.lines ≠ [] ∧ ∀ line ∈ m.lines, '\n' ∉ line := by decide
  exact ⟨⟨by decide, happend s t, fun heq => (hseam s t).mp heq hmake⟩, hlines,
    hblock m hlines.1 hlines.2⟩

end DocBlocks.Text
