import DocBlocks.Param.Section
import DocBlocks.Proofs.Param.Line
import DocBlocks.Proofs.Text.LineEnding
import DocBlocks.Proofs.Text.Lines

/-!
# Tagging a File Twice

Tagging the parameter lines of a file a second time, under whatever charset, does to each line
what the larger of the two charsets does to it at once, and nothing else. The reason is that a
tagged line is no marker: the sign `@` behind its star survives trimming. So the sections of the
file are the same after tagging as they were before, and every line is read again in the mode in
which it was read the first time.

## Main results

* `Mode.next_tag`: what a line becomes changes the mode as the line itself does.
* `Mode.tag_tag`, `tagLines_tagLines`: tagging a line and lines twice.
* `tagParams_tagParams`: tagging a file twice.
-/

namespace DocBlocks

open Text

variable {names : NameCharset} {line : Text}

/-! ### One line -/

/-- What a line is tagged as is a marker only if the line is that marker. -/
theorem trim_tagLine_ne {marker : Text} (hmarker : ¬['*', ' ', '@'] <+: marker)
    (h : trim line ≠ marker) : trim (tagLine names line) ≠ marker := by
  cases hparse : ParamLine.parse? names line with
  | none => rwa [tagLine_of_parse?_eq_none hparse]
  | some p =>
      obtain ⟨-, hread⟩ := ParamLine.parse?_eq_some_iff.mp hparse
      rw [tagLine_of_parse?_eq_some hparse]
      rintro rfl
      exact hmarker (ParamLine.isPrefix_trim_tagged hread.indent_blank)

namespace Mode

theorem tag_inParams_of_marker (names : NameCharset)
    (h : trim line = Comment.closing ∨ trim line = separator) :
    inParams.tag names line = line := by
  rw [tag, if_pos h]

theorem tag_inParams_of_ne (names : NameCharset)
    (h : ¬(trim line = Comment.closing ∨ trim line = separator)) :
    inParams.tag names line = tagLine names line := by
  rw [tag, if_neg h]

/-- A line that is neither the closing marker nor a separator does not become one. -/
theorem trim_tagLine_of_ne (names : NameCharset)
    (h : ¬(trim line = Comment.closing ∨ trim line = separator)) :
    ¬(trim (tagLine names line) = Comment.closing ∨ trim (tagLine names line) = separator) := by
  obtain ⟨hclosing, hseparator⟩ := not_or.mp h
  exact not_or.mpr ⟨trim_tagLine_ne (by decide) hclosing, trim_tagLine_ne (by decide) hseparator⟩

/-- **What a line becomes changes the mode** as the line itself does. -/
theorem next_tag (names : NameCharset) (mode : Mode) (line : Text) :
    mode.next (mode.tag names line) = mode.next line := by
  cases mode with
  | outside => rfl
  | inComment => rfl
  | inParams =>
      by_cases h : trim line = Comment.closing ∨ trim line = separator
      · rw [tag_inParams_of_marker names h]
      · have hclosing := (not_or.mp h).1
        have htagged := (not_or.mp (trim_tagLine_of_ne names h)).1
        rw [tag_inParams_of_ne names h, next, next, if_neg htagged, if_neg hclosing]

/-- **Tagging a line twice** in the same mode is tagging it under the larger charset. -/
theorem tag_tag (c d : NameCharset) (mode : Mode) (line : Text) :
    mode.tag d (mode.tag c line) = mode.tag (c.union d) line := by
  cases mode with
  | outside => rfl
  | inComment => rfl
  | inParams =>
      by_cases h : trim line = Comment.closing ∨ trim line = separator
      · rw [tag_inParams_of_marker c h, tag_inParams_of_marker d h,
          tag_inParams_of_marker (c.union d) h]
      · rw [tag_inParams_of_ne c h, tag_inParams_of_ne d (trim_tagLine_of_ne c h),
          tag_inParams_of_ne (c.union d) h, tagLine_tagLine]

theorem mem_of_mem_tag {c : Char} {mode : Mode} (h : c ∈ mode.tag names line)
    (hc : c = '\n' ∨ c = '\r') : c ∈ line := by
  cases mode with
  | outside => exact h
  | inComment => exact h
  | inParams =>
      rw [tag] at h
      split at h
      · exact h
      · exact mem_of_mem_tagLine h hc

end Mode

/-! ### All lines -/

/-- **Tagging lines twice** is tagging them under the larger charset. -/
theorem tagLines_tagLines (c d : NameCharset) (mode : Mode) (lines : List Text) :
    tagLines d mode (tagLines c mode lines) = tagLines (c.union d) mode lines := by
  induction lines generalizing mode with
  | nil => rfl
  | cons line rest ih =>
      rw [tagLines, tagLines, tagLines, Mode.tag_tag, Mode.next_tag, ih]

theorem tagLines_ne_nil {mode : Mode} {lines : List Text} (h : lines ≠ []) :
    tagLines names mode lines ≠ [] := by
  cases lines with
  | nil => exact absurd rfl h
  | cons line rest => exact List.cons_ne_nil _ _

/-- Tagging lines brings in no line feed and no carriage return. -/
theorem exists_mem_of_mem_tagLines {c : Char} {mode : Mode} {lines : List Text}
    (h : line ∈ tagLines names mode lines) (hline : c ∈ line) (hc : c = '\n' ∨ c = '\r') :
    ∃ old ∈ lines, c ∈ old := by
  induction lines generalizing mode with
  | nil => exact absurd h List.not_mem_nil
  | cons first rest ih =>
      rw [tagLines] at h
      rcases List.mem_cons.mp h with rfl | h
      · exact ⟨first, List.mem_cons_self, Mode.mem_of_mem_tag hline hc⟩
      · obtain ⟨old, hold, hmem⟩ := ih h
        exact ⟨old, List.mem_cons_of_mem _ hold, hmem⟩

/-! ### Files -/

/-- No carriage return is left in a file that has been tagged. -/
theorem not_mem_tagParams (names : NameCharset) (s : Text) : '\r' ∉ tagParams names s := by
  rw [tagParams, mem_joinLines_iff (by decide)]
  rintro ⟨line, hline, h⟩
  have hold := exists_mem_of_mem_tagLines hline h (Or.inr rfl)
  rw [← mem_joinLines_iff (by decide), joinLines_splitLines] at hold
  exact not_mem_normalize s hold

/-- The lines of a file that has been tagged are the tagged lines of the file. -/
theorem splitLines_tagParams (names : NameCharset) (s : Text) :
    splitLines (tagParams names s) = tagLines names .outside (splitLines (normalize s)) := by
  refine splitLines_joinLines (fun line hline hmem => ?_) (tagLines_ne_nil (splitLines_ne_nil _))
  obtain ⟨old, hold, h⟩ := exists_mem_of_mem_tagLines hline hmem (Or.inl rfl)
  exact not_mem_of_mem_splitLines hold h

/-- **Tagging a file twice**, under the same charset or under two, is tagging it once under the
larger one. -/
theorem tagParams_tagParams (c d : NameCharset) (s : Text) :
    tagParams d (tagParams c s) = tagParams (c.union d) s := by
  rw [tagParams, normalize_of_not_mem (not_mem_tagParams c s), splitLines_tagParams,
    tagLines_tagLines, ← tagParams]

end DocBlocks
