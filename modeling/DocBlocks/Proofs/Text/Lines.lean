import DocBlocks.Proofs.Text.Pieces

/-!
# Lines Put Together and Cut Again

Cutting a text into lines undoes putting lines together, provided that none of them holds a
line feed and that there is at least one. With `joinLines_splitLines` this makes texts and
non-empty lists of lines two spellings of the same thing, so that whatever is done to the
lines of a file may be done again to the lines of the text that came of it.

## Main results

* `not_mem_of_mem_splitLines`: the lines of a text hold no line feed.
* `splitLines_joinLines`: lines without line feeds are the lines of their text.
* `mem_joinLines_iff`: what is in a text is in one of its lines.
-/

namespace DocBlocks.Text

@[simp] theorem isLineFeed_eq_true_iff {c : Char} : isLineFeed c = true ↔ c = '\n' := by
  simp [isLineFeed]

/-- The lines of a text hold no line feed. -/
theorem not_mem_of_mem_splitLines {s line : Text} (h : line ∈ splitLines s) : '\n' ∉ line :=
  fun hmem => absurd (cuts_eq_false_of_mem_pieces h hmem) (by decide)

theorem splitLines_ne_nil (s : Text) : splitLines s ≠ [] := pieces_ne_nil _ _

theorem isLineFeed_eq_false_of_not_mem {s : Text} (h : '\n' ∉ s) :
    ∀ c ∈ s, isLineFeed c = false := by
  intro c hc
  rw [Bool.eq_false_iff, Ne, isLineFeed_eq_true_iff]
  exact ne_of_mem_of_not_mem hc h

/-- A text without a line feed is a line. -/
theorem splitLines_of_not_mem {line : Text} (h : '\n' ∉ line) : splitLines line = [line] :=
  pieces_of_forall_not (isLineFeed_eq_false_of_not_mem h)

/-- The first line of a text ends with its first line feed. -/
theorem splitLines_append_cons {line : Text} (h : '\n' ∉ line) (s : Text) :
    splitLines (line ++ '\n' :: s) = line :: splitLines s := by
  have hcut : splitLines (line ++ '\n' :: s) = splitLines line ++ splitLines s :=
    pieces_append_cons rfl line s
  rw [hcut, splitLines_of_not_mem h, List.singleton_append]

theorem splitLines_cons_of_not {c : Char} (hc : isLineFeed c = false) (s : Text) :
    splitLines (c :: s) = startWith c (splitLines s) := by
  rw [splitLines, pieces_cons, if_neg (by simp [hc]), splitLines]

/-- **Lines are recovered from their text**: lines without line feeds are what the text made
of them is cut into. -/
theorem splitLines_joinLines {lines : List Text} (h : ∀ line ∈ lines, '\n' ∉ line)
    (hne : lines ≠ []) : splitLines (joinLines lines) = lines :=
  pieces_intercalate_of_forall_not rfl
    (fun line hline => isLineFeed_eq_false_of_not_mem (h line hline)) hne

/-- Lines that may hold line feeds are cut there as well when their text is. -/
theorem splitLines_joinLines_eq_flatMap {lines : List Text} (hne : lines ≠ []) :
    splitLines (joinLines lines) = lines.flatMap splitLines := pieces_intercalate rfl hne

/-- The lines of a text are not cut any further. -/
theorem flatMap_splitLines (s : Text) : (splitLines s).flatMap splitLines = splitLines s := by
  rw [← splitLines_joinLines_eq_flatMap (splitLines_ne_nil s), joinLines_splitLines]

/-! ### The characters of lines -/

/-- The characters of a text but for its line feeds are those of its lines. -/
theorem mem_joinLines_iff {c : Char} {lines : List Text} (hc : c ≠ '\n') :
    c ∈ joinLines lines ↔ ∃ line ∈ lines, c ∈ line := by
  constructor
  · intro h
    rcases mem_of_mem_intercalate h with h | h
    · exact absurd (List.mem_singleton.mp h) hc
    · exact h
  · rintro ⟨line, hline, h⟩
    induction lines with
    | nil => exact absurd hline List.not_mem_nil
    | cons first rest ih =>
        cases rest with
        | nil => rwa [joinLines_singleton, ← List.mem_singleton.mp hline]
        | cons next rest =>
            rw [joinLines_cons first (List.cons_ne_nil _ _), List.mem_append]
            rcases List.mem_cons.mp hline with rfl | hline
            · exact Or.inl h
            · exact Or.inr (List.mem_cons_of_mem _ (ih hline))

end DocBlocks.Text
