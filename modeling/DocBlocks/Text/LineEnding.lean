import DocBlocks.Text.Basic

/-!
# Line Endings

Texts come with three ways to end a line: `\r\n`, a lone `\r`, and `\n`. Normalizing leaves
only the last. It first writes `\n` for every `\r\n`, and then `\n` for every `\r` that is
left; the two steps have to come in this order, or each `\r\n` would become two line ends.

A file whose layout must not be touched is written with its line endings as they are.
-/

namespace DocBlocks.Text

/-- Writes `\n` for every `\r\n`, reading from left to right. `done` is what has been
written before, last character first. -/
def collapseOnto (done : Text) : Text → Text
  | [] => done.reverse
  | '\r' :: '\n' :: rest => collapseOnto ('\n' :: done) rest
  | c :: rest => collapseOnto (c :: done) rest

/-- Writes `\n` for every `\r\n`, reading from left to right. -/
def collapse (s : Text) : Text := collapseOnto [] s

theorem collapseOnto_eq (done s : Text) : collapseOnto done s = done.reverse ++ collapse s := by
  suffices h : ∀ done more : Text,
      collapseOnto (more ++ done) s = done.reverse ++ collapseOnto more s from h done []
  intro done more
  fun_induction collapseOnto more s with
  | case1 more => simp [collapseOnto]
  | case2 more rest ih => rw [collapseOnto, ← List.cons_append, ih]
  | case3 more c rest h ih => rw [collapseOnto.eq_3 _ _ _ h, ← List.cons_append, ih]

@[simp] theorem collapse_nil : collapse [] = [] := rfl

@[simp] theorem collapse_crlf (s : Text) :
    collapse ('\r' :: '\n' :: s) = '\n' :: collapse s := by
  rw [collapse, collapseOnto, collapseOnto_eq]; rfl

/-- A character that does not start a `\r\n` is copied. -/
theorem collapse_cons {c : Char} {s : Text} (h : c = '\r' → s.head? ≠ some '\n') :
    collapse (c :: s) = c :: collapse s := by
  rw [collapse, collapseOnto.eq_3, collapseOnto_eq]
  · rfl
  · rintro rest rfl rfl
    exact h rfl rfl

/-- Writes `\n` for a carriage return and every other character as it is. -/
def feedForReturn (c : Char) : Char := if c = '\r' then '\n' else c

/-- What happens to the line endings of a text when it is written. -/
inductive LineEndings where
  /-- Every line ending becomes `\n`. -/
  | normalize
  /-- Line endings stay as they are. -/
  | preserve
  deriving DecidableEq, Repr

/-- The text with `\n` for each of its line endings. -/
def normalize (s : Text) : Text := (collapse s).map feedForReturn

/-- The text with its line endings as they are to be written. -/
def LineEndings.apply : LineEndings → Text → Text
  | normalize, s => Text.normalize s
  | preserve, s => s

/-- Whether a text has a line that ends in `\r\n`. -/
def hasCrlf (s : Text) : Bool := contains ['\r', '\n'] s

end DocBlocks.Text
