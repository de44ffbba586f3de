import DocBlocks.Json.Value
import DocBlocks.Proofs.Json.String
import Mathlib.Data.List.TakeWhile

/-!
# Reading Lists and Objects

A reader reads a form if it takes the texts of that form and no others (`Reads`): it accepts each
of them, whatever stands behind it, and what it takes of any text at all is such a text, with
blanks before it. Readers of lists and objects read the forms of lists and objects if the readers
of their items read those of the items.

Lists and objects are read in the same way, up to the character that closes them and to what is
said of a text at fault. So both are traced back to one relation, which says which items are
found in which text (`Takes`), and what is to be said about it is said once. The bound on the
number of items is met by every text, as each item takes up room.

## Main results

* `skipSpace_eq_cons_iff`: the first character that is no blank.
* `Reads.takes`, `Reads.enclosed`: items found in a text as items of a form.
* `elements_eq_ok_iff`, `members_eq_ok_iff`: lists and objects as items found in a text.
* `Reads.memberAt`: a reader of the members of an object.
-/

namespace DocBlocks.Json

open Text

variable {α β ε : Type}

/-! ### Blanks -/

theorem isSpace_eq_true_iff {c : Char} :
    isSpace c = true ↔ c = ' ' ∨ c = '\t' ∨ c = '\n' ∨ c = '\r' := by
  simp only [isSpace, Bool.or_eq_true, beq_iff_eq, or_assoc]

theorem IsSpaces.append {w w' : Text} (h : IsSpaces w) (h' : IsSpaces w') :
    IsSpaces (w ++ w') :=
  fun c hc => (List.mem_append.mp hc).elim (h c) (h' c)

theorem skipSpace_append {w : Text} (hw : IsSpaces w) (s : Text) :
    skipSpace (w ++ s) = skipSpace s :=
  List.dropWhile_append_of_pos fun c hc => isSpace_eq_true_iff.mpr (hw c hc)

theorem exists_append_skipSpace (s : Text) : ∃ w, IsSpaces w ∧ s = w ++ skipSpace s := by
  refine ⟨s.takeWhile isSpace, fun c hc => ?_, List.takeWhile_append_dropWhile.symm⟩
  exact isSpace_eq_true_iff.mp (List.mem_takeWhile_imp hc)

/-- **The first character that is no blank** and what stands behind it. -/
theorem skipSpace_eq_cons_iff {c : Char} {s rest : Text} :
    skipSpace s = c :: rest ↔ isSpace c = false ∧ ∃ w, IsSpaces w ∧ s = w ++ c :: rest := by
  constructor
  · intro h
    obtain ⟨w, hw, hs⟩ := exists_append_skipSpace s
    rw [h] at hs
    refine ⟨?_, w, hw, hs⟩
    have hhead := List.head?_dropWhile_not isSpace s
    rw [← skipSpace, h] at hhead
    exact hhead
  · rintro ⟨hc, w, hw, rfl⟩
    rw [skipSpace_append hw, skipSpace, List.dropWhile_cons_of_neg (by simp [hc])]

theorem skipSpace_eq_nil_iff {s : Text} : skipSpace s = [] ↔ IsSpaces s := by
  simp only [skipSpace, List.dropWhile_eq_nil_iff, IsSpaces, isSpace_eq_true_iff]

/-! ### Readers and forms -/

/-- Whether the texts of a form start with one of some characters. -/
def StartsIn (cs : List Char) (form : Form α) : Prop :=
  ∀ a t, form a t → ∃ c t', t = c :: t' ∧ c ∈ cs

/-- Whether none of some characters is a blank or the given one. -/
def apart (close : Char) (cs : List Char) : Bool := cs.all fun c => !isSpace c && c != close

theorem of_apart {close c : Char} {cs : List Char} (h : apart close cs) (hc : c ∈ cs) :
    isSpace c = false ∧ c ≠ close := by
  simpa using List.all_eq_true.mp h c hc

/-- Whether a reader reads a form. Of texts that are as long as the bound or longer, nothing is
said but that no others are taken. -/
structure Reads (bound : Nat) (read : Text → Except ε (α × Text)) (form : Form α) : Prop where
  read_eq : ∀ {a t w} (rest : Text), form a t → t.length < bound → IsSpaces w →
    read (w ++ t ++ rest) = .ok (a, rest)
  exists_of_eq : ∀ {s a rest}, read s = .ok (a, rest) →
    ∃ w t, IsSpaces w ∧ form a t ∧ s = w ++ t ++ rest

theorem Except.map_eq_ok_iff {x : Except ε α} {f : α → β} {b : β} :
    x.map f = .ok b ↔ ∃ a, x = .ok a ∧ f a = b := by
  cases x with
  | error e => simp [Except.map]
  | ok a => simp [Except.map]

theorem Except.mapError_eq_ok_iff {ε' : Type} {x : Except ε α} {f : ε → ε'} {a : α} :
    x.mapError f = .ok a ↔ x = .ok a := by
  cases x with
  | error e => simp [Except.mapError]
  | ok b => simp [Except.mapError]

/-- A reader whose values are made of those of another one. -/
theorem Reads.map {ε' : Type} {bound : Nat} {read : Text → Except ε (α × Text)}
    {read' : Text → Except ε' (β × Text)} {form : Form α} {made : α → β → Prop}
    (h : Reads bound read form)
    (hread : ∀ s b rest, read' s = .ok (b, rest) ↔ ∃ a, read s = .ok (a, rest) ∧ made a b) :
    Reads bound read' fun b t => ∃ a, form a t ∧ made a b where
  read_eq := by
    rintro b t w rest ⟨a, ha, hb⟩ ht hw
    exact (hread _ _ _).mpr ⟨a, h.read_eq rest ha ht hw, hb⟩
  exists_of_eq := by
    intro s b rest heq
    obtain ⟨a, ha, hb⟩ := (hread _ _ _).mp heq
    obtain ⟨w, t, hw, ht, hs⟩ := h.exists_of_eq ha
    exact ⟨w, t, hw, ⟨a, ht, hb⟩, hs⟩

/-- Faults may be told in another way. -/
theorem Reads.mapError {ε' : Type} {bound : Nat} {read : Text → Except ε (α × Text)}
    {form : Form α} (h : Reads bound read form) (f : ε → ε') :
    Reads bound (fun s => (read s).mapError f) form where
  read_eq rest ha ht hw := Except.mapError_eq_ok_iff.mpr (h.read_eq rest ha ht hw)
  exists_of_eq heq := h.exists_of_eq (Except.mapError_eq_ok_iff.mp heq)

/-! ### Items found in a text -/

/-- Which items a reader finds behind a first one, up to the closing character, and what stands
behind that. -/
inductive TakesMore (close : Char) (item : Text → Except ε (α × Text)) :
    Text → List α → Text → Prop
  | nil {s rest : Text} (h : skipSpace s = close :: rest) : TakesMore close item s [] rest
  | cons {s s' s'' mid rest : Text} {c : Char} {a : α} {as : List α}
      (hcomma : skipSpace s = ',' :: s') (hnext : skipSpace s' = c :: s'') (hc : c ≠ close)
      (ha : item (c :: s'') = .ok (a, mid)) (has : TakesMore close item mid as rest) :
      TakesMore close item s (a :: as) rest

/-- Which items a reader finds up to the closing character, and what stands behind that. -/
inductive Takes (close : Char) (item : Text → Except ε (α × Text)) : Text → List α → Text → Prop
  | nil {s rest : Text} (h : skipSpace s = close :: rest) : Takes close item s [] rest
  | cons {s s' mid rest : Text} {c : Char} {a : α} {as : List α} (hfirst : skipSpace s = c :: s')
      (hc : c ≠ close) (ha : item (c :: s') = .ok (a, mid))
      (has : TakesMore close item mid as rest) : Takes close item s (a :: as) rest

section Takes

variable {close left : Char} {item : Text → Except ε (α × Text)} {form : Form α} {bound : Nat}
  {s rest : Text} {as : List α} {cs : List Char}

/-- The same items are found by a reader that reads each of them in another guise. -/
theorem TakesMore.map_iff {item' : Text → Except ε (β × Text)} {f : α → β}
    (h : ∀ s a rest, item' s = .ok (f a, rest) ↔ item s = .ok (a, rest)) :
    TakesMore close item' s (as.map f) rest ↔ TakesMore close item s as rest := by
  induction as generalizing s with
  | nil =>
      constructor
      · rintro ⟨hclose⟩
        exact .nil hclose
      · rintro ⟨hclose⟩
        exact .nil hclose
  | cons a as ih =>
      constructor
      · intro htakes
        cases htakes with
        | cons hcomma hnext hc ha has => exact .cons hcomma hnext hc ((h _ _ _).mp ha) (ih.mp has)
      · intro htakes
        cases htakes with
        | cons hcomma hnext hc ha has =>
            exact .cons hcomma hnext hc ((h _ _ _).mpr ha) (ih.mpr has)

theorem Takes.map_iff {item' : Text → Except ε (β × Text)} {f : α → β}
    (h : ∀ s a rest, item' s = .ok (f a, rest) ↔ item s = .ok (a, rest)) :
    Takes close item' s (as.map f) rest ↔ Takes close item s as rest := by
  cases as with
  | nil =>
      constructor
      · rintro ⟨hclose⟩
        exact .nil hclose
      · rintro ⟨hclose⟩
        exact .nil hclose
  | cons a as =>
      constructor
      · intro htakes
        cases htakes with
        | cons hfirst hc ha has =>
            exact .cons hfirst hc ((h _ _ _).mp ha) ((TakesMore.map_iff h).mp has)
      · intro htakes
        cases htakes with
        | cons hfirst hc ha has =>
            exact .cons hfirst hc ((h _ _ _).mpr ha) ((TakesMore.map_iff h).mpr has)

/-- Items of a form behind a first one are found. -/
theorem Reads.takesMore (h : Reads bound item form) (hstarts : StartsIn cs form)
    (hcs : apart close cs) (hclose : isSpace close = false)
    {ts : Text} (hmore : More form as ts) (hts : ts.length < bound) (rest : Text) :
    TakesMore close item (ts ++ close :: rest) as rest := by
  induction hmore with
  | nil hw => exact .nil (skipSpace_eq_cons_iff.mpr ⟨hclose, _, hw, rfl⟩)
  | @cons w w' t ts a as hw hw' ht _ ih =>
      obtain ⟨c, t', rfl, hc⟩ := hstarts a t ht
      obtain ⟨hspace, hne⟩ := of_apart hcs hc
      simp only [List.length_append, List.length_cons] at hts
      have hrest := ih (by omega)
      have hcomma : skipSpace (w ++ ',' :: w' ++ c :: t' ++ ts ++ close :: rest) =
          ',' :: (w' ++ c :: (t' ++ (ts ++ close :: rest))) :=
        skipSpace_eq_cons_iff.mpr ⟨by decide, w, hw, by simp⟩
      have hnext : skipSpace (w' ++ c :: (t' ++ (ts ++ close :: rest))) =
          c :: (t' ++ (ts ++ close :: rest)) :=
        skipSpace_eq_cons_iff.mpr ⟨hspace, w', hw', rfl⟩
      refine .cons hcomma hnext hne ?_ hrest
      exact h.read_eq (ts ++ close :: rest) ht (by rw [List.length_cons]; omega) IsSpaces.nil

/-- Items between two characters are found behind the first of these. -/
theorem Reads.takes (h : Reads bound item form) (hstarts : StartsIn cs form)
    (hcs : apart close cs) (hclose : isSpace close = false) {t : Text}
    (hform : Enclosed left close form as t) (ht : t.length < bound) :
    ∃ inner, t = left :: inner ∧ as.length ≤ bound ∧
      ∀ rest, Takes close item (inner ++ rest) as rest := by
  cases hform with
  | @nil w hw =>
      refine ⟨w ++ [close], rfl, Nat.zero_le _, fun rest => .nil ?_⟩
      exact skipSpace_eq_cons_iff.mpr ⟨hclose, w, hw, by simp⟩
  | @cons w t ts a as hw hform hmore =>
      obtain ⟨c, t', rfl, hc⟩ := hstarts a t hform
      obtain ⟨hspace, hne⟩ := of_apart hcs hc
      simp only [List.length_append, List.length_cons, List.length_nil] at ht
      have hlength := hmore.length_le
      refine ⟨w ++ c :: t' ++ ts ++ [close], by simp, by rw [List.length_cons]; omega,
        fun rest => ?_⟩
      have hfirst : skipSpace (w ++ c :: t' ++ ts ++ [close] ++ rest) =
          c :: (t' ++ (ts ++ close :: rest)) :=
        skipSpace_eq_cons_iff.mpr ⟨hspace, w, hw, by simp⟩
      refine .cons hfirst hne ?_ (h.takesMore hstarts hcs hclose hmore (by omega) rest)
      exact h.read_eq (ts ++ close :: rest) hform (by rw [List.length_cons]; omega) IsSpaces.nil

/-- What is found behind a first item are items of the form. -/
theorem Reads.more (h : Reads bound item form) (htakes : TakesMore close item s as rest) :
    ∃ ts, More form as ts ∧ s = ts ++ close :: rest := by
  induction htakes with
  | nil hclose =>
      obtain ⟨-, w, hw, rfl⟩ := skipSpace_eq_cons_iff.mp hclose
      exact ⟨w, .nil hw, rfl⟩
  | cons hcomma hnext _ ha _ ih =>
      obtain ⟨ts, hts, rfl⟩ := ih
      obtain ⟨-, w, hw, rfl⟩ := skipSpace_eq_cons_iff.mp hcomma
      obtain ⟨-, w', hw', rfl⟩ := skipSpace_eq_cons_iff.mp hnext
      obtain ⟨w'', t, hw'', ht, heq⟩ := h.exists_of_eq ha
      refine ⟨_, .cons hw (hw'.append hw'') ht hts, ?_⟩
      rw [heq]
      simp

/-- What is found up to the closing character are items between two characters. -/
theorem Reads.enclosed (h : Reads bound item form) (left : Char)
    (htakes : Takes close item s as rest) :
    ∃ inner, Enclosed left close form as (left :: inner) ∧ s = inner ++ rest := by
  cases htakes with
  | nil hclose =>
      obtain ⟨-, w, hw, rfl⟩ := skipSpace_eq_cons_iff.mp hclose
      exact ⟨w ++ [close], .nil hw, by simp⟩
  | cons hfirst _ ha has =>
      obtain ⟨ts, hts, rfl⟩ := h.more has
      obtain ⟨-, w, hw, rfl⟩ := skipSpace_eq_cons_iff.mp hfirst
      obtain ⟨w', t, hw', ht, heq⟩ := h.exists_of_eq ha
      refine ⟨w ++ w' ++ t ++ ts ++ [close], ?_, ?_⟩
      · exact .cons (hw.append hw') ht hts
      · rw [heq]
        simp

end Takes

/-! ### Lists -/

theorem Except.bind_eq_ok_iff {x : Except ε α} {f : α → Except ε β} {b : β} :
    (x >>= f) = .ok b ↔ ∃ a, x = .ok a ∧ f a = .ok b := by
  cases x with
  | error e => simp [bind, Except.bind]
  | ok a => simp [bind, Except.bind]

/-- Reads an item and those behind it. -/
def consItems (item : Text → Except ε (α × Text)) (more : Text → Except ε (List α × Text))
    (s : Text) : Except ε (List α × Text) := do
  let (first, rest) ← item s
  let (others, rest) ← more rest
  return (first :: others, rest)

theorem consItems_eq_ok_iff {item : Text → Except ε (α × Text)}
    {more : Text → Except ε (List α × Text)} {s rest : Text} {as : List α} :
    consItems item more s = .ok (as, rest) ↔
      ∃ a mid as', item s = .ok (a, mid) ∧ more mid = .ok (as', rest) ∧ as = a :: as' := by
  constructor
  · intro h
    obtain ⟨⟨a, mid⟩, ha, h⟩ := Except.bind_eq_ok_iff.mp h
    obtain ⟨⟨as', rest'⟩, has, h⟩ := Except.bind_eq_ok_iff.mp h
    obtain ⟨rfl, rfl⟩ := Prod.mk.inj (Except.ok.inj h)
    exact ⟨a, mid, as', ha, has, rfl⟩
  · rintro ⟨a, mid, as', ha, has, rfl⟩
    exact Except.bind_eq_ok_iff.mpr ⟨(a, mid), ha,
      Except.bind_eq_ok_iff.mpr ⟨(as', rest), has, rfl⟩⟩

section Lists

variable {element : Text → Except Fault (α × Text)} {bound : Nat} {s rest : Text} {as : List α}

theorem moreElements_cons {c : Char} {s' s'' : Text} (hcomma : skipSpace s = ',' :: s')
    (hnext : skipSpace s' = c :: s'') (hc : c ≠ ']') :
    moreElements element (bound + 1) s =
      consItems element (moreElements element bound) (c :: s'') := by
  simp only [moreElements, hcomma, hnext]
  split
  · next h => exact absurd h (List.cons_ne_nil _ _)
  · next h => exact absurd (List.cons.inj h).1 hc
  · rfl

theorem moreElements_eq_ok_iff :
    moreElements element bound s = .ok (as, rest) ↔
      TakesMore ']' element s as rest ∧ as.length < bound := by
  induction bound generalizing s as with
  | zero => simp [moreElements]
  | succ bound ih =>
      constructor
      · intro h
        rw [moreElements] at h
        split at h
        · exact absurd h (by simp)
        · next hclose =>
            obtain ⟨rfl, rfl⟩ := Prod.mk.inj (Except.ok.inj h)
            exact ⟨.nil hclose, Nat.succ_pos _⟩
        · next s' hcomma =>
            split at h
            · exact absurd h (by simp)
            · exact absurd h (by simp)
            · next hne hbracket =>
                obtain ⟨c, s'', hnext⟩ := List.exists_cons_of_ne_nil hne
                have hc : c ≠ ']' := by
                  rintro rfl
                  exact hbracket _ hnext
                obtain ⟨a, mid, as', ha, has, rfl⟩ := consItems_eq_ok_iff.mp h
                rw [hnext] at ha
                obtain ⟨has, hlength⟩ := ih.mp has
                exact ⟨.cons hcomma hnext hc ha has, Nat.succ_lt_succ hlength⟩
        · exact absurd h (by simp)
      · rintro ⟨htakes, hlength⟩
        cases htakes with
        | nil hclose => simp only [moreElements, hclose]
        | cons hcomma hnext hc ha has =>
            rw [moreElements_cons hcomma hnext hc, consItems_eq_ok_iff]
            exact ⟨_, _, _, ha, ih.mpr ⟨has, Nat.lt_of_succ_lt_succ hlength⟩, rfl⟩

theorem elements_cons {c : Char} {s' : Text} (hfirst : skipSpace s = c :: s') (hc : c ≠ ']') :
    elements element bound s = consItems element (moreElements element bound) (c :: s') := by
  simp only [elements, hfirst]
  split
  · next h => exact absurd h (List.cons_ne_nil _ _)
  · next h => exact absurd (List.cons.inj h).1 hc
  · rfl

/-- **The inside of a list** is items up to a bracket. -/
theorem elements_eq_ok_iff :
    elements element bound s = .ok (as, rest) ↔
      Takes ']' element s as rest ∧ as.length ≤ bound := by
  constructor
  · intro h
    rw [elements] at h
    split at h
    · exact absurd h (by simp)
    · next hclose =>
        obtain ⟨rfl, rfl⟩ := Prod.mk.inj (Except.ok.inj h)
        exact ⟨.nil hclose, Nat.zero_le _⟩
    · next hne hbracket =>
        obtain ⟨c, s', hfirst⟩ := List.exists_cons_of_ne_nil hne
        have hc : c ≠ ']' := by
          rintro rfl
          exact hbracket _ hfirst
        obtain ⟨a, mid, as', ha, has, rfl⟩ := consItems_eq_ok_iff.mp h
        rw [hfirst] at ha
        obtain ⟨has, hlength⟩ := moreElements_eq_ok_iff.mp has
        exact ⟨.cons hfirst hc ha has, hlength⟩
  · rintro ⟨htakes, hlength⟩
    cases htakes with
    | nil hclose => simp only [elements, hclose]
    | cons hfirst hc ha has =>
        rw [elements_cons hfirst hc, consItems_eq_ok_iff]
        exact ⟨_, _, _, ha, moreElements_eq_ok_iff.mpr ⟨has, hlength⟩, rfl⟩

end Lists

/-! ### Objects -/

section Objects

variable {value : Text → Except Fault (α × Text)} {bound : Nat} {s rest : Text}
  {ms : List (Text × α)}

/-- Reads a member of an object. -/
def memberAt (value : Text → Except Fault (α × Text)) (s : Text) :
    Except Fault ((Text × α) × Text) :=
  match skipSpace s with
  | '"' :: rest => member value rest
  | rest => .error (.into 1 rest .keyNotString)

/-- Members start with a quote. -/
theorem exists_of_memberAt {a : (Text × α) × Text} (h : memberAt value s = .ok a) :
    ∃ s', skipSpace s = '"' :: s' ∧ member value s' = .ok a := by
  rw [memberAt] at h
  split at h
  · next s' hs => exact ⟨s', hs, h⟩
  · exact absurd h (by simp)

theorem member_eq_ok_iff {k : Text} {a : α} :
    member value s = .ok ((k, a), rest) ↔
      ∃ mid s', string s = .ok (k, mid) ∧ skipSpace mid = ':' :: s' ∧
        value s' = .ok (a, rest) := by
  constructor
  · intro h
    obtain ⟨⟨k', mid⟩, hk, h⟩ := Except.bind_eq_ok_iff.mp h
    dsimp only at h
    split at h
    · exact absurd h (by simp)
    · next s' hcolon =>
        obtain ⟨⟨a', rest'⟩, ha, h⟩ := Except.bind_eq_ok_iff.mp h
        obtain ⟨hm, rfl⟩ := Prod.mk.inj (Except.ok.inj h)
        obtain ⟨rfl, rfl⟩ := Prod.mk.inj hm
        exact ⟨mid, s', hk, hcolon, ha⟩
    · exact absurd h (by simp)
  · rintro ⟨mid, s', hk, hcolon, ha⟩
    refine Except.bind_eq_ok_iff.mpr ⟨(k, mid), hk, ?_⟩
    simp only [hcolon]
    exact Except.bind_eq_ok_iff.mpr ⟨(a, rest), ha, rfl⟩

/-- **A reader of members**, if the values are read. -/
theorem Reads.memberAt {form : Form α} (h : Reads bound value form) :
    Reads bound (memberAt value) (MemberForm form) where
  read_eq := by
    rintro ⟨k, a⟩ _ w rest ⟨_, w₁, w₂, tv, ⟨ts, hk, rfl⟩, hw₁, hw₂, ha, rfl⟩ ht hw
    have hquote : skipSpace (w ++ ('"' :: ts ++ ['"'] ++ w₁ ++ ':' :: w₂ ++ tv) ++ rest) =
        '"' :: (ts ++ '"' :: (w₁ ++ ':' :: (w₂ ++ tv ++ rest))) :=
      skipSpace_eq_cons_iff.mpr ⟨by decide, w, hw, by simp⟩
    have hcolon : skipSpace (w₁ ++ ':' :: (w₂ ++ tv ++ rest)) = ':' :: (w₂ ++ tv ++ rest) :=
      skipSpace_eq_cons_iff.mpr ⟨by decide, w₁, hw₁, rfl⟩
    simp only [List.length_append, List.length_cons] at ht
    simp only [Json.memberAt, hquote]
    rw [member_eq_ok_iff]
    exact ⟨_, _, string_eq_ok_iff.mpr ⟨ts, hk, rfl⟩, hcolon,
      h.read_eq rest ha (by omega) hw₂⟩
  exists_of_eq := by
    rintro s ⟨k, a⟩ rest hread
    obtain ⟨s', hquote, hm⟩ := exists_of_memberAt hread
    obtain ⟨mid, s'', hk, hcolon, ha⟩ := member_eq_ok_iff.mp hm
    obtain ⟨-, w, hw, rfl⟩ := skipSpace_eq_cons_iff.mp hquote
    obtain ⟨ts, hts, rfl⟩ := string_eq_ok_iff.mp hk
    obtain ⟨-, w₁, hw₁, rfl⟩ := skipSpace_eq_cons_iff.mp hcolon
    obtain ⟨w₂, tv, hw₂, htv, rfl⟩ := h.exists_of_eq ha
    exact ⟨w, _, hw, ⟨_, w₁, w₂, tv, ⟨ts, hts, rfl⟩, hw₁, hw₂, htv, rfl⟩, by simp⟩

theorem startsIn_memberForm {form : Form α} : StartsIn ['"'] (MemberForm form) := by
  rintro m _ ⟨_, w₁, w₂, tv, ⟨ts, -, rfl⟩, -, -, -, rfl⟩
  exact ⟨'"', _, rfl, List.mem_singleton_self _⟩

theorem skipSpace_of_eq_cons {c : Char} {s' : Text} (h : skipSpace s = c :: s') :
    skipSpace (c :: s') = c :: s' := by
  have hc := (skipSpace_eq_cons_iff.mp h).1
  exact skipSpace_eq_cons_iff.mpr ⟨hc, [], IsSpaces.nil, rfl⟩

theorem moreMembers_eq_ok_iff :
    moreMembers value bound s = .ok (ms, rest) ↔
      TakesMore '}' (memberAt value) s ms rest ∧ ms.length < bound := by
  induction bound generalizing s ms with
  | zero => simp [moreMembers]
  | succ bound ih =>
      constructor
      · intro h
        rw [moreMembers] at h
        split at h
        · exact absurd h (by simp)
        · next hclose =>
            obtain ⟨rfl, rfl⟩ := Prod.mk.inj (Except.ok.inj h)
            exact ⟨.nil hclose, Nat.succ_pos _⟩
        · next s' hcomma =>
            split at h
            · exact absurd h (by simp)
            · exact absurd h (by simp)
            · next hquote =>
                obtain ⟨m, mid, ms', hm, hms, rfl⟩ := consItems_eq_ok_iff.mp h
                obtain ⟨hms, hlength⟩ := ih.mp hms
                exact ⟨.cons hcomma hquote (by decide) hm hms, Nat.succ_lt_succ hlength⟩
            · exact absurd h (by simp)
        · exact absurd h (by simp)
      · rintro ⟨htakes, hlength⟩
        cases htakes with
        | nil hclose => simp only [moreMembers, hclose]
        | cons hcomma hnext hc hm hms =>
            obtain ⟨s', hs', hm⟩ := exists_of_memberAt hm
            rw [skipSpace_of_eq_cons hnext] at hs'
            rw [hs'] at hnext
            simp only [moreMembers, hcomma, hnext]
            exact consItems_eq_ok_iff.mpr
              ⟨_, _, _, hm, ih.mpr ⟨hms, Nat.lt_of_succ_lt_succ hlength⟩, rfl⟩

/-- **The inside of an object** is members up to a brace. -/
theorem members_eq_ok_iff :
    members value bound s = .ok (ms, rest) ↔
      Takes '}' (memberAt value) s ms rest ∧ ms.length ≤ bound := by
  constructor
  · intro h
    rw [members] at h
    split at h
    · exact absurd h (by simp)
    · next hclose =>
        obtain ⟨rfl, rfl⟩ := Prod.mk.inj (Except.ok.inj h)
        exact ⟨.nil hclose, Nat.zero_le _⟩
    · next hquote =>
        obtain ⟨m, mid, ms', hm, hms, rfl⟩ := consItems_eq_ok_iff.mp h
        obtain ⟨hms, hlength⟩ := moreMembers_eq_ok_iff.mp hms
        exact ⟨.cons hquote (by decide) hm hms, hlength⟩
    · exact absurd h (by simp)
  · rintro ⟨htakes, hlength⟩
    cases htakes with
    | nil hclose => simp only [members, hclose]
    | cons hfirst hc hm hms =>
        obtain ⟨s', hs', hm⟩ := exists_of_memberAt hm
        rw [skipSpace_of_eq_cons hfirst] at hs'
        rw [hs'] at hfirst
        simp only [members, hfirst]
        exact consItems_eq_ok_iff.mpr ⟨_, _, _, hm, moreMembers_eq_ok_iff.mpr ⟨hms, hlength⟩, rfl⟩

end Objects

end DocBlocks.Json
