import DocBlocks.Proofs.Param.Twice
import DocBlocks.Proofs.Text.EndedLines
import Mathlib.Data.List.Forall2

/-!
# Tagging a File Line by Line

Tagging a file changes no line but parameter lines, and these one by one. No line is put in, taken
away, cut or joined to another one, whatever ways to end a line the file has mixed. All of them
become line feeds, and where the file ended a line it still does: a line that has something in it
does not lose it all when it is tagged, and an empty line is no parameter line.

## Main results

* `tagLine_eq_nil_iff`: tagging a line neither empties nor fills it.
* `forall₂_tagLines`: what becomes of each line.
* `tagParams_lineByLine`: what becomes of the lines of a file, and of its end.
-/

namespace DocBlocks

open Text

/-- Whether a line is kept or, if that makes it another one, tagged. -/
def IsKeptOrTagged (names : NameCharset) (old new : Text) : Prop :=
  new = old ∨ new = tagLine names old ∧ new ≠ old

variable {names : NameCharset} {old new : Text} {olds news : List Text}

/-! ### One line -/

/-- Tagging a line neither empties nor fills it. -/
theorem tagLine_eq_nil_iff {line : Text} : tagLine names line = [] ↔ line = [] := by
  cases hparse : ParamLine.parse? names line with
  | none => rw [tagLine_of_parse?_eq_none hparse]
  | some p =>
      obtain ⟨rfl, -⟩ := ParamLine.parse?_eq_some_iff.mp hparse
      rw [tagLine_of_parse?_eq_some hparse]
      exact iff_of_false (by simp [ParamLine.tagged]) (by simp [ParamLine.plain])

theorem IsKeptOrTagged.eq_nil_iff (h : IsKeptOrTagged names old new) : new = [] ↔ old = [] := by
  rcases h with rfl | ⟨rfl, -⟩
  · exact Iff.rfl
  · exact tagLine_eq_nil_iff

theorem isKeptOrTagged_tagLine (names : NameCharset) (line : Text) :
    IsKeptOrTagged names line (tagLine names line) := by
  by_cases h : tagLine names line = line
  · exact .inl h
  · exact .inr ⟨rfl, h⟩

/-- Whatever the mode is in which a line is read, it is kept or tagged. -/
theorem Mode.isKeptOrTagged_tag (names : NameCharset) (mode : Mode) (line : Text) :
    IsKeptOrTagged names line (mode.tag names line) := by
  cases mode with
  | outside => exact .inl rfl
  | inComment => exact .inl rfl
  | inParams =>
      rw [tag]
      split
      · exact .inl rfl
      · exact isKeptOrTagged_tagLine names line

/-! ### All lines -/

/-- **What becomes of each line**: it is kept or tagged. -/
theorem forall₂_tagLines (names : NameCharset) (mode : Mode) (lines : List Text) :
    List.Forall₂ (IsKeptOrTagged names) lines (tagLines names mode lines) := by
  induction lines generalizing mode with
  | nil => exact .nil
  | cons line rest ih =>
      rw [tagLines]
      exact .cons (mode.isKeptOrTagged_tag names line) (ih (mode.next line))

/-- Of lines that are kept or tagged, the last one is empty if it was before. -/
theorem getLast?_eq_nil_iff (h : List.Forall₂ (IsKeptOrTagged names) olds news) :
    news.getLast? = some [] ↔ olds.getLast? = some [] := by
  induction h with
  | nil => exact Iff.rfl
  | cons hline hrest ih =>
      cases hrest with
      | nil => simpa using hline.eq_nil_iff
      | cons _ _ => rwa [List.getLast?_cons_cons, List.getLast?_cons_cons]

/-! ### Files -/

/-- **Tagging a file line by line.** A text has its lines in one way only, whatever ways to end a
line it has mixed. When it is tagged, no carriage return is left in it, and it has as many lines
as before; each of them is kept or, if that makes it another one, tagged. And it ends with a line
feed exactly if it ended a line before. -/
theorem tagParams_lineByLine (names : NameCharset) (s : Text) :
    ∃ lines, (∀ other, HasLines other s ↔ other = lines) ∧
      '\r' ∉ tagParams names s ∧
      (splitLines (tagParams names s)).length = lines.length ∧
      List.Forall₂ (IsKeptOrTagged names) lines (splitLines (tagParams names s)) ∧
      ((tagParams names s).getLast? = some '\n' ↔
        s.getLast? = some '\n' ∨ s.getLast? = some '\r') := by
  have hreturn : '\r' ∉ tagParams names s := not_mem_tagParams names s
  have hlines : List.Forall₂ (IsKeptOrTagged names) (splitLines (normalize s))
      (splitLines (tagParams names s)) := by
    rw [splitLines_tagParams]
    exact forall₂_tagLines names .outside _
  refine ⟨splitLines (normalize s), fun other => hasLines_iff, hreturn, hlines.length_eq.symm,
    hlines, ?_⟩
  -- What has been tagged has no carriage returns, so its lines are those that it has in any way.
  have hnew : HasLines (splitLines (tagParams names s)) (tagParams names s) :=
    hasLines_iff.mpr (by rw [normalize_of_not_mem hreturn])
  calc (tagParams names s).getLast? = some '\n'
      ↔ EndsLine (tagParams names s) :=
        (or_iff_left fun hlast => hreturn (List.mem_of_getLast? hlast)).symm
    _ ↔ (splitLines (tagParams names s)).length ≠ 1 ∧
          (splitLines (tagParams names s)).getLast? = some [] := hnew.endsLine_iff
    _ ↔ (splitLines (normalize s)).length ≠ 1 ∧
          (splitLines (normalize s)).getLast? = some [] := by
        rw [← hlines.length_eq, getLast?_eq_nil_iff hlines]
    _ ↔ EndsLine s := (hasLines_normalize s).endsLine_iff.symm

end DocBlocks
