import DocBlocks.Proofs.Declaration.Line
import DocBlocks.Proofs.Text.Trim

/-!
# The Name of a Class

A line that declares a class is looked at twice only: it has to start with the word, blanks and the
name that is looked for, and the character behind that must not go on with a name. No name is read
off the line. Yet the answer is the same as if one were, because no blank may stand in a name: the
blanks behind the word end where a name starts, and that name ends where the one that is looked for
does. So a line declares one class at most, and never one whose name only starts the name that
stands there.

## Main results

* `isNameChar_of_isBlank`: a blank stands in no name.
* `DeclaresClass.unique`: a line declares one class at most.
* `Declaration.matchesLine_ofClass`: the lines that a class is declared by.
-/

namespace DocBlocks

open Text

/-! ### Blanks and names -/

/-- The code points of the blanks. -/
def blankCodes : List Nat :=
  [0x09, 0x0A, 0x0B, 0x0C, 0x0D, 0x20, 0x85, 0xA0, 0x1680, 0x2000, 0x2001, 0x2002, 0x2003, 0x2004,
    0x2005, 0x2006, 0x2007, 0x2008, 0x2009, 0x200A, 0x2028, 0x2029, 0x202F, 0x205F, 0x3000]

theorem mem_blankCodes_of_isBlank {c : Char} (h : isBlank c = true) : c.toNat ∈ blankCodes := by
  simp only [isBlank, Bool.or_eq_true, Bool.and_eq_true, decide_eq_true_eq, beq_iff_eq] at h
  simp only [blankCodes, List.mem_cons, List.not_mem_nil, or_false]
  rcases h with ((((((((h | h) | h) | h) | h) | h) | h) | h) | h) | h
  all_goals omega

theorem isNameChar_of_mem_blankCodes : ∀ n ∈ blankCodes, isNameChar (Char.ofNat n) = false := by
  decide +kernel

/-- **A blank stands in no name.** -/
theorem isNameChar_of_isBlank {c : Char} (h : isBlank c = true) : isNameChar c = false := by
  have hcode := isNameChar_of_mem_blankCodes c.toNat (mem_blankCodes_of_isBlank h)
  rwa [Char.ofNat_toNat] at hcode

/-- Whether a text can be the name of a class: it is not empty, and each of its characters may stand
in a name. -/
def IsClassName (name : Text) : Prop := name ≠ [] ∧ ∀ c ∈ name, isNameChar c = true

instance : DecidablePred IsClassName := fun name =>
  decidable_of_iff (name ≠ [] ∧ name.all isNameChar = true) (by rw [List.all_eq_true]; rfl)

/-! ### Reading the name off a line -/

/-- Whether a line **declares a class** of a name: it starts with the word `class`, blanks follow,
and all characters behind them up to the first that may not stand in a name are that name. -/
def DeclaresClass (name line : Text) : Prop :=
  ∃ blanks rest, line = "class".toList ++ blanks ++ rest ∧ blanks ≠ [] ∧
    (∀ c ∈ blanks, isBlank c = true) ∧ rest.takeWhile isNameChar = name

variable {name other line rest : Text}

/-- A name goes on up to the first character that may not stand in one. -/
theorem takeWhile_isNameChar_append (h : ∀ c ∈ name, isNameChar c = true)
    (hrest : endsName rest = true) : (name ++ rest).takeWhile isNameChar = name := by
  have hstop : rest.takeWhile isNameChar = [] := by
    cases rest with
    | nil => rfl
    | cons c rest => exact List.takeWhile_cons_of_neg (by simpa [endsName] using hrest)
  rw [List.takeWhile_append_of_pos h, hstop, List.append_nil]

theorem endsName_dropWhile (rest : Text) : endsName (rest.dropWhile isNameChar) = true := by
  have hhead := List.head?_dropWhile_not isNameChar rest
  cases hdrop : rest.dropWhile isNameChar with
  | nil => rfl
  | cons c rest => simpa [endsName, hdrop] using hhead

/-- What starts with a name starts with no blank. -/
theorem exists_cons_of_takeWhile (hname : IsClassName name)
    (h : rest.takeWhile isNameChar = name) :
    ∃ c more, rest = c :: more ∧ isBlank c = false := by
  cases rest with
  | nil => exact absurd h.symm hname.1
  | cons c more =>
      refine ⟨c, more, rfl, Bool.eq_false_iff.mpr fun hblank => hname.1 ?_⟩
      rw [← h, List.takeWhile_cons_of_neg (by simp [isNameChar_of_isBlank hblank])]

/-- The blanks behind the word end where a name starts. -/
theorem trimStart_blanks_append {blanks : Text} (hname : IsClassName name)
    (hblanks : ∀ c ∈ blanks, isBlank c = true) (h : rest.takeWhile isNameChar = name) :
    trimStart (blanks ++ rest) = rest := by
  obtain ⟨c, more, rfl, hc⟩ := exists_cons_of_takeWhile hname h
  exact trimStart_append_cons hblanks hc

theorem DeclaresClass.isClassName (h : DeclaresClass name line) (hne : name ≠ []) :
    IsClassName name := by
  obtain ⟨-, rest, -, -, -, rfl⟩ := h
  exact ⟨hne, List.all_eq_true.mp List.all_takeWhile⟩

/-- **A line declares one class at most.** -/
theorem DeclaresClass.unique (hname : IsClassName name) (hother : IsClassName other)
    (h : DeclaresClass name line) (h' : DeclaresClass other line) : name = other := by
  obtain ⟨blanks, rest, rfl, -, hblanks, hrun⟩ := h
  obtain ⟨blanks', rest', heq, -, hblanks', hrun'⟩ := h'
  rw [List.append_assoc, List.append_assoc] at heq
  have hrest : rest = rest' := by
    rw [← trimStart_blanks_append hname hblanks hrun, List.append_cancel_left heq,
      trimStart_blanks_append hother hblanks' hrun']
  rw [← hrun, hrest, hrun']

/-! ### Looking for a name in a line -/

namespace Declaration

theorem declaredBy_ofClass_iff :
    (ofClass name).declaredBy line = true ↔
      ∃ rest more, line = classWord ++ rest ∧ startsBlank rest = true ∧
        trimStart rest = name ++ more ∧ endsName more = true := by
  rw [declaredBy]
  split
  · next hnone =>
    refine iff_of_false Bool.false_ne_true ?_
    rintro ⟨rest, more, hline, -⟩
    rw [after?_eq_some_iff.mpr hline] at hnone
    exact Option.some_ne_none rest hnone
  · next rest hsome =>
    obtain rfl := after?_eq_some_iff.mp hsome
    simp only [Bool.and_eq_true, Option.any_eq_true, after?_eq_some_iff]
    constructor
    · rintro ⟨hblank, more, htrim, hends⟩
      exact ⟨rest, more, rfl, hblank, htrim, hends⟩
    · rintro ⟨rest', more, heq, hblank, htrim, hends⟩
      obtain rfl := List.append_cancel_left heq
      exact ⟨hblank, more, htrim, hends⟩

/-- Looking for a name in a line is reading off the name that stands there. -/
theorem matchesLine_ofClass_iff (hname : IsClassName name) :
    (ofClass name).matchesLine line = true ↔ DeclaresClass name line := by
  rw [matchesLine_eq_true_iff]
  constructor
  · rintro ⟨_, rfl, -, hdeclared⟩
    obtain ⟨rest, more, rfl, hblank, htrim, hends⟩ := declaredBy_ofClass_iff.mp hdeclared
    refine ⟨rest.takeWhile isBlank, trimStart rest, ?_, ?_, List.all_eq_true.mp List.all_takeWhile,
      ?_⟩
    · rw [List.append_assoc, takeWhile_append_trimStart]
      rfl
    · obtain ⟨c, rest, rfl⟩ : ∃ c more, rest = c :: more := by
        cases rest with
        | nil => exact absurd hblank Bool.false_ne_true
        | cons c more => exact ⟨c, more, rfl⟩
      rw [List.takeWhile_cons_of_pos (by simpa [startsBlank] using hblank)]
      exact List.cons_ne_nil _ _
    · rw [htrim, takeWhile_isNameChar_append hname.2 hends]
  · rintro ⟨blanks, rest, rfl, hne, hblanks, hrun⟩
    refine ⟨classWord ++ blanks ++ rest, rfl, rfl, declaredBy_ofClass_iff.mpr
      ⟨blanks ++ rest, rest.dropWhile isNameChar, List.append_assoc _ _ _, ?_, ?_,
        endsName_dropWhile rest⟩⟩
    · obtain ⟨c, blanks, rfl⟩ := List.exists_cons_of_ne_nil hne
      simpa [startsBlank] using hblanks c List.mem_cons_self
    · rw [trimStart_blanks_append hname hblanks hrun, ← hrun, List.takeWhile_append_dropWhile]

/-- **The lines that a class is declared by** are those that start with the word `class`, blanks and
a name that is the name of the class and does not go on behind it. So no line declares two classes
with different names, and a line that declares a class with a longer name declares none with a name
that this one only starts with. -/
theorem matchesLine_ofClass (hname : IsClassName name) :
    (∀ line, (ofClass name).matchesLine line = true ↔ DeclaresClass name line) ∧
    (∀ other line, IsClassName other → (ofClass name).matchesLine line = true →
      (ofClass other).matchesLine line = true → name = other) ∧
    ∀ longer line, name <+: longer → longer ≠ name → DeclaresClass longer line →
      (ofClass name).matchesLine line = false := by
  refine ⟨fun line => matchesLine_ofClass_iff hname, fun other line hother h h' => ?_,
    fun longer line hstart hne hlonger => ?_⟩
  · exact ((matchesLine_ofClass_iff hname).mp h).unique hname hother
      ((matchesLine_ofClass_iff hother).mp h')
  · have hlongerName : IsClassName longer := hlonger.isClassName (hstart.ne_nil hname.1)
    rw [Bool.eq_false_iff]
    intro h
    exact hne (hlonger.unique hlongerName hname ((matchesLine_ofClass_iff hname).mp h))

/-- A name that starts with another one, behind two blanks of which one is no space. -/
theorem matchesLine_ofClass_longer :
    let name : Text := "Foo".toList
    let longer : Text := "Foo$é".toList
    let line : Text := "class \u2003Foo$é\x7b".toList
    (IsClassName name ∧ IsClassName longer) ∧ (ofClass longer).matchesLine line = true ∧
      DeclaresClass longer line ∧ (ofClass name).matchesLine line = false := by
  intro name longer line
  have hname : IsClassName name := by decide
  have hlonger : IsClassName longer := by decide
  have hline : (ofClass longer).matchesLine line = true := by decide
  obtain ⟨hdeclares, -, -⟩ := matchesLine_ofClass hlonger
  obtain ⟨-, -, hstarts⟩ := matchesLine_ofClass hname
  have hdeclared : DeclaresClass longer line := (hdeclares line).mp hline
  exact ⟨⟨hname, hlonger⟩, hline, hdeclared,
    hstarts longer line (by decide) (by decide) hdeclared⟩

end Declaration

end DocBlocks
