/-!
# Texts and Their Lines

A text is a list of characters. Everything that looks inside a text in this library does so
by recursion on that list, so that a statement about a text is a statement about a list.

A text is cut into lines at every line feed and at nothing else (`splitLines`), and lines
are put back together with line feeds between them (`joinLines`). Cutting never yields an
empty list of lines, and nothing is lost by it.

## Main results

* `joinLines_splitLines` — joining the lines of a text gives the text back.
* `after?_eq_some_iff`, `contains_eq_true_iff` — what the two searches answer, in terms of
  concatenation.
-/

namespace DocBlocks

/-- A text: its characters, first to last. -/
abbrev Text := List Char

/-! ### Cutting a list into pieces -/

section Pieces

variable {α : Type}

/-- Puts an element in front of the first piece. -/
def startWith (a : α) : List (List α) → List (List α)
  | [] => [[a]]
  | first :: rest => (a :: first) :: rest

/-- Cuts a list at every element that `cuts` accepts; that element belongs to no piece.
There is one piece more than there are cuts, so the result is never empty. -/
def pieces (cuts : α → Bool) (s : List α) : List (List α) :=
  s.foldr (fun a done => if cuts a then [] :: done else startWith a done) [[]]

@[simp] theorem pieces_nil (cuts : α → Bool) : pieces cuts [] = [[]] := rfl

theorem pieces_cons (cuts : α → Bool) (a : α) (s : List α) :
    pieces cuts (a :: s) =
      if cuts a then [] :: pieces cuts s else startWith a (pieces cuts s) := rfl

theorem pieces_ne_nil (cuts : α → Bool) (s : List α) : pieces cuts s ≠ [] := by
  cases s with
  | nil => simp
  | cons a s =>
    rw [pieces_cons]
    split
    · simp
    · cases pieces cuts s <;> simp [startWith]

end Pieces

namespace Text

/-! ### Lines -/

/-- The line feed, the one character that ends a line. -/
def isLineFeed (c : Char) : Bool := c == '\n'

/-- The lines of a text: what stands between its line feeds. The empty text has one line,
the empty one. -/
def splitLines (s : Text) : List Text := pieces isLineFeed s

/-- The text whose lines are given, with a line feed between each two of them. -/
def joinLines (lines : List Text) : Text := ['\n'].intercalate lines

@[simp] theorem joinLines_nil : joinLines [] = [] := rfl

@[simp] theorem joinLines_singleton (line : Text) : joinLines [line] = line := by
  simp [joinLines, List.intercalate]

theorem joinLines_cons {lines : List Text} (line : Text) (h : lines ≠ []) :
    joinLines (line :: lines) = line ++ '\n' :: joinLines lines := by
  cases lines with
  | nil => exact absurd rfl h
  | cons next rest => simp [joinLines, List.intercalate]

theorem joinLines_startWith (c : Char) (lines : List Text) :
    joinLines (startWith c lines) = c :: joinLines lines := by
  cases lines with
  | nil => rfl
  | cons first rest =>
    cases rest with
    | nil => simp [startWith]
    | cons next rest => simp [startWith, joinLines_cons]

/-- Cutting a text into lines loses nothing. -/
theorem joinLines_splitLines (s : Text) : joinLines (splitLines s) = s := by
  induction s with
  | nil => rfl
  | cons c s ih =>
    simp only [splitLines, pieces_cons] at ih ⊢
    split
    · next h => rw [joinLines_cons [] (pieces_ne_nil _ _), ih]; simp_all [isLineFeed]
    · rw [joinLines_startWith, ih]

/-! ### Searching -/

/-- What follows `marker` at the start of a text, if the text starts with it. -/
def after? : Text → Text → Option Text
  | [], s => some s
  | _ :: _, [] => none
  | m :: marker, c :: s => if m = c then after? marker s else none

theorem after?_eq_some_iff {marker s rest : Text} :
    after? marker s = some rest ↔ s = marker ++ rest := by
  induction marker generalizing s with
  | nil => simp [after?, eq_comm]
  | cons m marker ih =>
    cases s with
    | nil => simp [after?]
    | cons c s => by_cases h : m = c <;> simp [after?, h, ih, eq_comm]

/-- Whether a text starts with `marker`. -/
def startsWith (marker s : Text) : Bool := (after? marker s).isSome

/-- Whether a text ends with `marker`. -/
def endsWith (marker s : Text) : Bool := marker.isSuffixOf s

/-- Whether `marker` occurs anywhere in a text. -/
def contains (marker : Text) : Text → Bool
  | [] => marker.isEmpty
  | c :: s => startsWith marker (c :: s) || contains marker s

theorem startsWith_eq_true_iff {marker s : Text} : startsWith marker s = true ↔ marker <+: s := by
  simp only [startsWith, Option.isSome_iff_exists, after?_eq_some_iff]
  exact ⟨fun ⟨r, h⟩ => ⟨r, h.symm⟩, fun ⟨r, h⟩ => ⟨r, h.symm⟩⟩

theorem contains_eq_true_iff {marker s : Text} : contains marker s = true ↔ marker <:+: s := by
  induction s with
  | nil => simp [contains]
  | cons c s ih =>
    rw [contains, Bool.or_eq_true, startsWith_eq_true_iff, ih, List.infix_cons_iff]

end Text

end DocBlocks
