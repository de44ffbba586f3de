import DocBlocks.Text.Basic
import Mathlib.Data.List.Forall2

/-!
# Forms of JSON Text

A form says which texts stand for which values. This module gives the forms that JSON has for
strings, for lists and objects, for lists of two and for what may be `null`, each in view of the
forms of its parts. Nothing in it says how a text is read.

A text in one of these forms starts and ends with a character of its own. Blanks may stand
around the parts of a form, but belong to what encloses them.

A string stands for its characters one by one. Each is written as it is, or behind a backslash
with a letter, or by the code units that it has in UTF-16, of which those outside the basic plane
have two. So there is no way to write half of such a pair.

## Main results

* `StringForm`, `ListForm`, `ObjectForm`, `PairForm`, `OrNull`: the forms.
* `More.length_le`: items take up room.
* `Enclosed.imp`, `PairForm.imp`, `OrNull.imp`: the parts of a form can be given in another form.
-/

namespace DocBlocks.Json

/-- Which texts stand for which values. -/
abbrev Form (α : Type) := α → Text → Prop

/-- Whether a text consists of blanks of JSON. -/
def IsSpaces (s : Text) : Prop := ∀ c ∈ s, c = ' ' ∨ c = '\t' ∨ c = '\n' ∨ c = '\r'

/-! ### Strings -/

/-- The code units of a character in UTF-16. -/
def utf16 (c : Char) : List Nat :=
  if c.toNat < 0x10000 then [c.toNat]
  else [0xD800 + (c.toNat - 0x10000) / 0x400, 0xDC00 + (c.toNat - 0x10000) % 0x400]

/-- A hexadecimal digit, in either case. -/
def DigitForm (n : Nat) (c : Char) : Prop :=
  n < 16 ∧ (c = Nat.digitChar n ∨ c = (Nat.digitChar n).toUpper)

/-- A code unit as four hexadecimal digits. -/
def UnitForm : Form Nat := fun u t =>
  ∃ n₁ n₂ n₃ n₄ c₁ c₂ c₃ c₄, DigitForm n₁ c₁ ∧ DigitForm n₂ c₂ ∧ DigitForm n₃ c₃ ∧
    DigitForm n₄ c₄ ∧ u = n₁ * 0x1000 + n₂ * 0x100 + n₃ * 0x10 + n₄ ∧ t = [c₁, c₂, c₃, c₄]

/-- The letters that stand for a character behind a backslash. -/
def letters : List (Char × Char) :=
  [('"', '"'), ('\\', '\\'), ('/', '/'), ('b', '\x08'), ('f', '\x0c'), ('n', '\n'), ('r', '\r'),
    ('t', '\t')]

/-- A character of a string. -/
inductive CharForm : Char → Text → Prop
  /-- As it is, unless it is a control character, a quote or a backslash. -/
  | plain {c : Char} (hcontrol : 0x20 ≤ c.toNat) (hquote : c ≠ '"') (hbackslash : c ≠ '\\') :
      CharForm c [c]
  /-- By a letter. -/
  | letter {letter c : Char} (h : (letter, c) ∈ letters) : CharForm c ['\\', letter]
  /-- By its code units. -/
  | units {c : Char} {ts : List Text} (h : List.Forall₂ UnitForm (utf16 c) ts) :
      CharForm c (ts.flatMap fun t => '\\' :: 'u' :: t)

/-- The characters of a string. -/
inductive CharsForm : Text → Text → Prop
  | nil : CharsForm [] []
  | cons {c : Char} {s t ts : Text} (hc : CharForm c t) (hs : CharsForm s ts) :
      CharsForm (c :: s) (t ++ ts)

/-- A string. -/
def StringForm : Form Text := fun s t => ∃ ts, CharsForm s ts ∧ t = '"' :: ts ++ ['"']

/-! ### Lists and objects -/

section Compound

variable {α β : Type}

/-- Items behind a first one, each with a comma before it. -/
inductive More (item : Form α) : List α → Text → Prop
  | nil {w : Text} (hw : IsSpaces w) : More item [] w
  | cons {w w' t ts : Text} {a : α} {as : List α} (hw : IsSpaces w) (hw' : IsSpaces w')
      (ht : item a t) (hts : More item as ts) : More item (a :: as) (w ++ ',' :: w' ++ t ++ ts)

/-- Items between two characters, with a comma between each two of them. -/
inductive Enclosed (left right : Char) (item : Form α) : List α → Text → Prop
  | nil {w : Text} (hw : IsSpaces w) : Enclosed left right item [] (left :: w ++ [right])
  | cons {w t ts : Text} {a : α} {as : List α} (hw : IsSpaces w) (ht : item a t)
      (hts : More item as ts) :
      Enclosed left right item (a :: as) (left :: w ++ t ++ ts ++ [right])

/-- A list. -/
abbrev ListForm (item : Form α) : Form (List α) := Enclosed '[' ']' item

/-- A member of an object: a string and, behind a colon, a value. -/
def MemberForm (value : Form α) : Form (Text × α) := fun m t =>
  ∃ tk w w' tv, StringForm m.1 tk ∧ IsSpaces w ∧ IsSpaces w' ∧ value m.2 tv ∧
    t = tk ++ w ++ ':' :: w' ++ tv

/-- An object, with its members in the order in which they are written. -/
abbrev ObjectForm (value : Form α) : Form (List (Text × α)) := Enclosed '{' '}' (MemberForm value)

/-- A list of two elements of different forms. -/
def PairForm (first : Form α) (second : Form β) : Form (α × β) := fun ab t =>
  ∃ w₁ ta w₂ w₃ tb w₄, IsSpaces w₁ ∧ first ab.1 ta ∧ IsSpaces w₂ ∧ IsSpaces w₃ ∧
    second ab.2 tb ∧ IsSpaces w₄ ∧
    t = '[' :: w₁ ++ ta ++ w₂ ++ ',' :: w₃ ++ tb ++ w₄ ++ [']']

/-- `null`, or a value. -/
def OrNull (form : Form α) : Form (Option α)
  | none, t => t = ['n', 'u', 'l', 'l']
  | some a, t => form a t

/-! ### Items -/

variable {item : Form α} {as : List α} {ts : Text}

theorem IsSpaces.nil : IsSpaces [] := fun _ h => absurd h List.not_mem_nil

/-- Items take up room. -/
theorem More.length_le (h : More item as ts) : as.length ≤ ts.length := by
  induction h with
  | nil => exact Nat.zero_le _
  | cons _ _ _ _ ih =>
      simp only [List.length_cons, List.length_append]
      omega

/-! ### Other forms of the parts -/

variable {item' : Form α} {form form' : Form β}

theorem More.imp (h : ∀ a t, item a t → item' a t) (hmore : More item as ts) :
    More item' as ts := by
  induction hmore with
  | nil hw => exact .nil hw
  | cons hw hw' ht _ ih => exact .cons hw hw' (h _ _ ht) ih

/-- What encloses items does so whatever they look like. -/
theorem Enclosed.imp {left right : Char} (h : ∀ a t, item a t → item' a t) {t : Text}
    (henclosed : Enclosed left right item as t) : Enclosed left right item' as t := by
  cases henclosed with
  | nil hw => exact .nil hw
  | cons hw ht hts => exact .cons hw (h _ _ ht) (hts.imp h)

theorem MemberForm.imp (h : ∀ a t, item a t → item' a t) {m : Text × α} {t : Text}
    (hmember : MemberForm item m t) : MemberForm item' m t := by
  obtain ⟨tk, w, w', tv, hk, hw, hw', hv, rfl⟩ := hmember
  exact ⟨tk, w, w', tv, hk, hw, hw', h _ _ hv, rfl⟩

theorem PairForm.imp (h : ∀ a t, item a t → item' a t) (h' : ∀ b t, form b t → form' b t)
    {ab : α × β} {t : Text} (hpair : PairForm item form ab t) : PairForm item' form' ab t := by
  obtain ⟨w₁, ta, w₂, w₃, tb, w₄, hw₁, ha, hw₂, hw₃, hb, hw₄, rfl⟩ := hpair
  exact ⟨w₁, ta, w₂, w₃, tb, w₄, hw₁, h _ _ ha, hw₂, hw₃, h' _ _ hb, hw₄, rfl⟩

theorem OrNull.imp (h : ∀ a t, item a t → item' a t) {a : Option α} {t : Text}
    (hnull : OrNull item a t) : OrNull item' a t := by
  cases a with
  | none => exact hnull
  | some a => exact h a t hnull

end Compound

end DocBlocks.Json
