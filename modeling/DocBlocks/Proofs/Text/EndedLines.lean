import DocBlocks.Proofs.Text.LineEnding
import DocBlocks.Proofs.Text.Lines

/-!
# Lines That End in Any Way

A line may end in each of three ways, and a text may mix them (`HasLines`). A carriage return and
the line feed behind it are one line end and not two, so that a text has its lines in one way only:
they are the lines of the normalized text (`hasLines_iff`). So nothing is lost by normalizing but
the way in which lines end.

## Main results

* `hasLines_iff`: the lines of a text, however they end.
* `HasLines.endsLine_iff`: a text ends a line if its last line is empty and not the only one.
-/

namespace DocBlocks.Text

/-- The ways to end a line. -/
def lineEnds : List Text := [['\n'], ['\r'], ['\r', '\n']]

/-- Whether a text is one line, with nothing in it that ends one. -/
def IsLine (line : Text) : Prop := '\n' ∉ line ∧ '\r' ∉ line

/-- Whether a text **has the given lines**: a line end is behind each of them but the last one, and
a carriage return that is a line end by itself has no line feed behind it. -/
inductive HasLines : List Text → Text → Prop
  | last {line : Text} (hline : IsLine line) : HasLines [line] line
  | cons {line rest : Text} {lines : List Text} (ending : Text) (hline : IsLine line)
      (hending : ending ∈ lineEnds) (hlone : ending = ['\r'] → rest.head? ≠ some '\n')
      (hrest : HasLines lines rest) : HasLines (line :: lines) (line ++ ending ++ rest)

variable {line ending rest s : Text} {lines : List Text}

theorem eq_of_mem_lineEnds (h : ending ∈ lineEnds) :
    ending = ['\n'] ∨ ending = ['\r'] ∨ ending = ['\r', '\n'] := by
  simpa [lineEnds] using h

/-! ### The lines of a text -/

/-- A line end is normalized to a line feed. -/
theorem normalize_lineEnd_append (h : ending ∈ lineEnds)
    (hlone : ending = ['\r'] → rest.head? ≠ some '\n') :
    normalize (ending ++ rest) = '\n' :: normalize rest := by
  rcases eq_of_mem_lineEnds h with rfl | rfl | rfl
  · exact normalize_cons (by decide) rest
  · exact normalize_loneReturn (hlone rfl)
  · exact normalize_returnFeed rest

/-- What a text has as its lines are the lines of the normalized text. -/
theorem HasLines.eq_splitLines (h : HasLines lines s) : lines = splitLines (normalize s) := by
  induction h with
  | last hline => rw [normalize_of_not_mem hline.2, splitLines_of_not_mem hline.1]
  | cons ending hline hending hlone _ ih =>
      rw [List.append_assoc, normalize_append hline.2, normalize_lineEnd_append hending hlone,
        splitLines_append_cons hline.1, ih]

/-- A character that ends no line belongs to the first line. -/
theorem HasLines.startWith {c : Char} (hfeed : c ≠ '\n') (hreturn : c ≠ '\r')
    (h : HasLines lines s) : HasLines (startWith c lines) (c :: s) := by
  have hcons {line : Text} (hline : IsLine line) : IsLine (c :: line) :=
    ⟨by simp [hfeed.symm, hline.1], by simp [hreturn.symm, hline.2]⟩
  cases h with
  | last hline => exact .last (hcons hline)
  | cons ending hline hending hlone hrest => exact .cons ending (hcons hline) hending hlone hrest

/-- Every text has the lines of the normalized text. -/
theorem hasLines_normalize (s : Text) : HasLines (splitLines (normalize s)) s := by
  have hnil : IsLine [] := ⟨List.not_mem_nil, List.not_mem_nil⟩
  induction s using lineEnd_induction with
  | nil => exact .last hnil
  | returnFeed rest ih =>
      rw [normalize_returnFeed]
      exact .cons ['\r', '\n'] hnil (by decide) (fun h => absurd h (by decide)) ih
  | loneReturn rest hhead ih =>
      rw [normalize_loneReturn hhead]
      exact .cons ['\r'] hnil (by decide) (fun _ => hhead) ih
  | other c rest hc ih =>
      rw [normalize_cons hc]
      by_cases hfeed : c = '\n'
      · subst hfeed
        exact .cons ['\n'] hnil (by decide) (fun h => absurd h (by decide)) ih
      · rw [splitLines_cons_of_not (by simpa [isLineFeed] using hfeed)]
        exact ih.startWith hfeed hc

/-- **The lines of a text, however they end**, are the lines of the normalized text. So a text has
its lines in one way only. -/
theorem hasLines_iff : HasLines lines s ↔ lines = splitLines (normalize s) :=
  ⟨HasLines.eq_splitLines, fun h => h ▸ hasLines_normalize s⟩

/-! ### The end of a text -/

/-- Whether a text ends with the end of a line. -/
def EndsLine (s : Text) : Prop := s.getLast? = some '\n' ∨ s.getLast? = some '\r'

theorem endsLine_of_mem_lineEnds (h : ending ∈ lineEnds) : EndsLine ending := by
  rcases eq_of_mem_lineEnds h with rfl | rfl | rfl
  · exact .inl rfl
  · exact .inr rfl
  · exact .inl rfl

theorem endsLine_append_iff (hne : rest ≠ []) : EndsLine (s ++ rest) ↔ EndsLine rest := by
  rw [EndsLine, EndsLine, List.getLast?_append_of_ne_nil _ hne]

theorem HasLines.ne_nil (h : HasLines lines s) : lines ≠ [] := by
  rw [h.eq_splitLines]
  exact splitLines_ne_nil _

/-- The one text that has an empty line only is the empty one. -/
theorem hasLines_singleton_nil_iff : HasLines [[]] s ↔ s = [] := by
  constructor
  · intro h
    cases h with
    | last _ => rfl
    | cons ending _ _ _ hrest => exact absurd rfl hrest.ne_nil
  · rintro rfl
    exact hasLines_normalize []

/-- **A text ends a line** if its last line is empty and not the only one. -/
theorem HasLines.endsLine_iff (h : HasLines lines s) :
    EndsLine s ↔ lines.length ≠ 1 ∧ lines.getLast? = some [] := by
  induction h with
  | last hline =>
      refine iff_of_false ?_ fun hlast => hlast.1 rfl
      rintro (hfeed | hreturn)
      · exact hline.1 (List.mem_of_getLast? hfeed)
      · exact hline.2 (List.mem_of_getLast? hreturn)
  | @cons line rest lines ending _ hending _ hrest ih =>
      have hlength : (line :: lines).length ≠ 1 := by simpa using hrest.ne_nil
      by_cases hnil : rest = []
      · subst hnil
        obtain rfl : lines = [[]] := hrest.eq_splitLines
        have hne : ending ≠ [] := by
          rintro rfl
          exact absurd hending (by decide)
        rw [List.append_nil, endsLine_append_iff hne]
        exact iff_of_true (endsLine_of_mem_lineEnds hending) ⟨hlength, rfl⟩
      · have hmore : lines.getLast? = some [] → lines.length ≠ 1 := by
          intro hlast hone
          obtain ⟨only, rfl⟩ := List.length_eq_one_iff.mp hone
          obtain rfl : only = [] := Option.some.inj hlast
          exact hnil (hasLines_singleton_nil_iff.mp hrest)
        obtain ⟨next, more, rfl⟩ := List.exists_cons_of_ne_nil hrest.ne_nil
        rw [endsLine_append_iff hnil, ih, List.getLast?_cons_cons, and_iff_right hlength]
        exact and_iff_right_of_imp hmore

end DocBlocks.Text
