import DocBlocks.Param.Line
import DocBlocks.Proofs.Text.Trim

/-!
# Reading Parameter Lines

Reading a line is the inverse of writing it in its old form (`ParamLine.parse?_eq_some_iff`).
The tagged form is not read again, whatever the charset: the sign `@` stands where a name would
have to start, and no charset has it. So a line is tagged once at most, and what it is tagged
under two charsets, one after the other, it is under the larger one alone.

## Main results

* `ParamLine.parse?_eq_some_iff`: which lines are parameter lines, and what their parts are.
* `ParamLine.parse?_tagged`: a tagged line is no parameter line.
* `tagLine_tagLine`: tagging a line twice.
* `tagLine_of_grammar`: what tagging does to any line.
-/

namespace DocBlocks

open Text

/-! ### Charsets -/

namespace NameCharset

/-- The larger one of two charsets. -/
def union : NameCharset → NameCharset → NameCharset
  | strict, names => names
  | legacy, _ => legacy

/-- The code points of the characters that a charset admits, as intervals with both ends
included. -/
def codePoints : NameCharset → List (Nat × Nat)
  | strict => [(0x30, 0x39), (0x41, 0x5A), (0x5F, 0x5F), (0x61, 0x7A)]
  | legacy => [(0x30, 0x39), (0x41, 0x7A)]

/-- Whether a character is in a charset by its code point. -/
def HasCodePoint (names : NameCharset) (c : Char) : Prop :=
  ∃ range ∈ names.codePoints, range.1 ≤ c.toNat ∧ c.toNat ≤ range.2

/-- **The characters of names**, by their code points. -/
theorem admits_eq_true_iff (names : NameCharset) (c : Char) :
    names.admits c = true ↔ names.HasCodePoint c := by
  have hdigit : c.isDigit = true ↔ 0x30 ≤ c.toNat ∧ c.toNat ≤ 0x39 := by
    simp only [Char.isDigit, Bool.and_eq_true, decide_eq_true_eq, ge_iff_le,
      UInt32.le_iff_toNat_le]
    rfl
  have halpha : c.isAlpha = true ↔
      (0x41 ≤ c.toNat ∧ c.toNat ≤ 0x5A) ∨ (0x61 ≤ c.toNat ∧ c.toNat ≤ 0x7A) := by
    have hcases : c.isAlpha = (c.isUpper || c.isLower) := rfl
    have hupper : c.isUpper = decide (0x41 ≤ c.toNat ∧ c.toNat ≤ 0x5A) := rfl
    have hlower : c.isLower = (decide (0x61 ≤ c.toNat) && decide (c.toNat ≤ 0x7A)) := rfl
    rw [hcases, hupper, hlower, Bool.or_eq_true, decide_eq_true_eq, Bool.and_eq_true,
      decide_eq_true_eq, decide_eq_true_eq]
  have hunderscore : c = '_' ↔ 0x5F ≤ c.toNat ∧ c.toNat ≤ 0x5F := by
    rw [← Char.toNat_inj]
    change c.toNat = 0x5F ↔ _
    omega
  have hfromTo : 'A' ≤ c ∧ c ≤ 'z' ↔ 0x41 ≤ c.toNat ∧ c.toNat ≤ 0x7A := Iff.rfl
  cases names with
  | strict =>
      simp only [admits, Char.isAlphanum, Bool.or_eq_true, beq_iff_eq, hdigit, halpha, hunderscore,
        HasCodePoint, codePoints, List.mem_cons, List.not_mem_nil, or_false, exists_eq_or_imp,
        exists_eq_left]
      omega
  | legacy =>
      simp only [admits, Bool.or_eq_true, Bool.and_eq_true, decide_eq_true_eq, hdigit, hfromTo,
        HasCodePoint, codePoints, List.mem_cons, List.not_mem_nil, or_false, exists_eq_or_imp,
        exists_eq_left]

/-- All that the strict charset admits is admitted by the other one. -/
theorem admits_legacy_of_strict {c : Char} (h : strict.admits c = true) :
    legacy.admits c = true := by
  rw [admits_eq_true_iff] at h ⊢
  simp only [HasCodePoint, codePoints, List.mem_cons, List.not_mem_nil, or_false,
    exists_eq_or_imp, exists_eq_left] at h ⊢
  omega

theorem admits_space (names : NameCharset) : names.admits ' ' = false := by
  cases names <;> decide

theorem admits_at (names : NameCharset) : names.admits '@' = false := by
  cases names <;> decide

end NameCharset

/-! ### Reading and writing -/

namespace ParamLine

variable {names : NameCharset} {line : Text} {p : ParamLine}

/-- Whether the parts of a line are such as the old form can have. -/
structure IsRead (names : NameCharset) (p : ParamLine) : Prop where
  indent_blank : ∀ c ∈ p.indent, isBlank c = true
  name_ne_nil : p.name ≠ []
  name_admitted : ∀ c ∈ p.name, names.admits c = true
  description_line : '\n' ∉ p.description

theorem trimStart_plain (h : ∀ c ∈ p.indent, isBlank c = true) :
    trimStart p.plain = ['*', ' '] ++ (p.name ++ ([' ', '-', ' '] ++ p.description)) := by
  simp only [plain, List.append_assoc]
  exact trimStart_append_cons h (by decide)

theorem takeWhile_isBlank_plain (h : ∀ c ∈ p.indent, isBlank c = true) :
    p.plain.takeWhile isBlank = p.indent := by
  simp only [plain, List.append_assoc]
  exact takeWhile_isBlank_append_cons h (by decide)

/-- A name ends at the separator behind it. -/
theorem IsRead.dropWhile_admits (h : p.IsRead names) (rest : Text) :
    (p.name ++ ([' ', '-', ' '] ++ rest)).dropWhile names.admits = [' ', '-', ' '] ++ rest := by
  rw [List.dropWhile_append_of_pos h.name_admitted]
  exact List.dropWhile_cons_of_neg (by rw [names.admits_space]; exact Bool.false_ne_true)

theorem IsRead.takeWhile_admits (h : p.IsRead names) (rest : Text) :
    (p.name ++ ([' ', '-', ' '] ++ rest)).takeWhile names.admits = p.name := by
  have hspace : ([' ', '-', ' '] ++ rest).takeWhile names.admits = [] :=
    List.takeWhile_cons_of_neg (by rw [names.admits_space]; exact Bool.false_ne_true)
  rw [List.takeWhile_append_of_pos h.name_admitted, hspace, List.append_nil]

/-- What is written in the old form is read. -/
theorem IsRead.parse?_plain (h : p.IsRead names) : parse? names p.plain = some p := by
  have hrest : after? ['*', ' '] (trimStart p.plain) =
      some (p.name ++ ([' ', '-', ' '] ++ p.description)) :=
    after?_eq_some_iff.mpr (trimStart_plain h.indent_blank)
  have hdescription : after? [' ', '-', ' '] ([' ', '-', ' '] ++ p.description) =
      some p.description := after?_eq_some_iff.mpr rfl
  have hname : p.name.isEmpty = false := List.isEmpty_eq_false_iff.mpr h.name_ne_nil
  have hline : p.description.any isLineFeed = false := by
    refine List.any_eq_false.mpr fun c hc => ?_
    have hne : c ≠ '\n' := ne_of_mem_of_not_mem hc h.description_line
    simpa [isLineFeed] using hne
  rw [parse?, hrest, Option.bind_eq_bind, Option.bind_some, h.dropWhile_admits, hdescription,
    Option.bind_some, h.takeWhile_admits, takeWhile_isBlank_plain h.indent_blank]
  dsimp only
  rw [hname, hline]
  rfl

/-- What is read is written in the old form. -/
theorem eq_plain_of_parse?_eq_some (h : parse? names line = some p) :
    line = p.plain ∧ p.IsRead names := by
  simp only [parse?, bind, Option.bind_eq_some_iff, after?_eq_some_iff] at h
  obtain ⟨rest, hrest, description, hdescription, hsome⟩ := h
  split at hsome
  · exact absurd hsome (by simp)
  · next hread =>
    simp only [Bool.or_eq_true, not_or, Bool.not_eq_true] at hread
    obtain ⟨hname, hline⟩ := hread
    obtain rfl := Option.some.inj hsome
    refine ⟨?_, ⟨List.all_eq_true.mp List.all_takeWhile, List.isEmpty_eq_false_iff.mp hname,
      List.all_eq_true.mp List.all_takeWhile, fun hmem => ?_⟩⟩
    · calc line = line.takeWhile isBlank ++ trimStart line :=
            (takeWhile_append_trimStart line).symm
        _ = line.takeWhile isBlank ++ (['*', ' '] ++
              (rest.takeWhile names.admits ++ rest.dropWhile names.admits)) := by
            rw [hrest, List.takeWhile_append_dropWhile]
        _ = _ := by
            rw [hdescription, plain]
            simp only [List.append_assoc]
    · exact absurd (List.any_eq_false.mp hline '\n' hmem) (by decide)

/-- **Which lines are parameter lines**: those that are the old form of something, which is then
what is read. -/
theorem parse?_eq_some_iff : parse? names line = some p ↔ line = p.plain ∧ p.IsRead names := by
  constructor
  · exact eq_plain_of_parse?_eq_some
  · rintro ⟨rfl, h⟩
    exact h.parse?_plain

/-- A line that is read under the strict charset is read as the same under the other one. -/
theorem parse?_legacy_of_strict (h : parse? .strict line = some p) :
    parse? .legacy line = some p := by
  obtain ⟨rfl, hread⟩ := parse?_eq_some_iff.mp h
  exact parse?_eq_some_iff.mpr ⟨rfl, { hread with
    name_admitted := fun c hc => NameCharset.admits_legacy_of_strict (hread.name_admitted c hc) }⟩

/-! ### Tagged lines -/

theorem trimStart_tagged (h : ∀ c ∈ p.indent, isBlank c = true) :
    trimStart p.tagged = ['*', ' '] ++ '@' :: (['p', 'a', 'r', 'a', 'm', ' '] ++
      (p.name ++ ([' '] ++ p.description))) := by
  simp only [tagged, List.append_assoc]
  exact trimStart_append_cons h (by decide)

/-- **A tagged line is not read again**, under no charset. -/
theorem parse?_tagged (h : ∀ c ∈ p.indent, isBlank c = true) (names : NameCharset) :
    parse? names p.tagged = none := by
  have hdrop : ∀ rest : Text, ('@' :: rest).dropWhile names.admits = '@' :: rest := fun rest =>
    List.dropWhile_cons_of_neg (by rw [names.admits_at]; exact Bool.false_ne_true)
  rw [parse?, after?_eq_some_iff.mpr (trimStart_tagged h), Option.bind_eq_bind, Option.bind_some,
    hdrop]
  rfl

/-- Of a tagged line, the star and the sign behind it survive trimming. -/
theorem isPrefix_trim_tagged (h : ∀ c ∈ p.indent, isBlank c = true) :
    ['*', ' ', '@'] <+: trim p.tagged := by
  rw [trim, trimStart_tagged h]
  exact isPrefix_trimEnd (by decide) ['*', ' '] _

end ParamLine

/-! ### Tagging -/

section Tagging

variable {names : NameCharset} {line : Text} {p : ParamLine}

theorem tagLine_of_parse?_eq_some (h : ParamLine.parse? names line = some p) :
    tagLine names line = p.tagged := by
  rw [tagLine, h]

theorem tagLine_of_parse?_eq_none (h : ParamLine.parse? names line = none) :
    tagLine names line = line := by
  rw [tagLine, h]

/-- **Tagging a line twice** is tagging it under the larger charset. -/
theorem tagLine_tagLine (c d : NameCharset) (line : Text) :
    tagLine d (tagLine c line) = tagLine (c.union d) line := by
  cases hfirst : ParamLine.parse? c line with
  | some p =>
      obtain ⟨-, hread⟩ := ParamLine.parse?_eq_some_iff.mp hfirst
      have hunion : ParamLine.parse? (c.union d) line = some p := by
        cases c with
        | legacy => exact hfirst
        | strict =>
            cases d with
            | strict => exact hfirst
            | legacy => exact ParamLine.parse?_legacy_of_strict hfirst
      rw [tagLine_of_parse?_eq_some hfirst, tagLine_of_parse?_eq_some hunion,
        tagLine_of_parse?_eq_none (ParamLine.parse?_tagged hread.indent_blank d)]
  | none =>
      rw [tagLine_of_parse?_eq_none hfirst]
      cases c with
      | strict => rfl
      | legacy =>
          cases d with
          | legacy => rfl
          | strict =>
              have hstrict : ParamLine.parse? .strict line = none := by
                cases hsecond : ParamLine.parse? .strict line with
                | none => rfl
                | some p =>
                    rw [ParamLine.parse?_legacy_of_strict hsecond] at hfirst
                    exact absurd hfirst (Option.some_ne_none p)
              rw [tagLine_of_parse?_eq_none hstrict]
              exact (tagLine_of_parse?_eq_none hfirst).symm

/-- Tagging brings in no line feed and no carriage return. -/
theorem mem_of_mem_tagLine {c : Char} (h : c ∈ tagLine names line) (hc : c = '\n' ∨ c = '\r') :
    c ∈ line := by
  cases hparse : ParamLine.parse? names line with
  | none => rwa [tagLine_of_parse?_eq_none hparse] at h
  | some p =>
      obtain ⟨rfl, -⟩ := ParamLine.parse?_eq_some_iff.mp hparse
      rw [tagLine_of_parse?_eq_some hparse] at h
      rcases hc with rfl | rfl
      · simpa [ParamLine.tagged, ParamLine.plain] using h
      · simpa [ParamLine.tagged, ParamLine.plain] using h

end Tagging

/-! ### The grammar of parameter lines -/

/-- Whether a line **is made up** of the parts of a parameter line: blanks, `* `, a name, ` - ` and
a description that does not go on to another line. -/
structure IsMadeUpOf (names : NameCharset) (line : Text) (p : ParamLine) : Prop where
  line_eq : line = p.indent ++ "* ".toList ++ p.name ++ " - ".toList ++ p.description
  indent_blank : ∀ c ∈ p.indent, isBlank c = true
  name_ne_nil : p.name ≠ []
  name_charset : ∀ c ∈ p.name, names.HasCodePoint c
  description_line : '\n' ∉ p.description

section Grammar

variable {names : NameCharset} {line : Text} {p : ParamLine}

/-- The parts that a line is made up of are those that are read. -/
theorem isMadeUpOf_iff : IsMadeUpOf names line p ↔ ParamLine.parse? names line = some p := by
  rw [ParamLine.parse?_eq_some_iff]
  constructor
  · rintro ⟨hline, hindent, hne, hname, hdescription⟩
    exact ⟨hline, hindent, hne, fun c hc => (names.admits_eq_true_iff c).mpr (hname c hc),
      hdescription⟩
  · rintro ⟨hline, hindent, hne, hname, hdescription⟩
    exact ⟨hline, hindent, hne, fun c hc => (names.admits_eq_true_iff c).mp (hname c hc),
      hdescription⟩

/-- The two forms of a line never have the same length. -/
theorem ParamLine.tagged_ne_plain (p : ParamLine) : p.tagged ≠ p.plain := by
  intro h
  have hlength := congrArg List.length h
  simp only [tagged, plain, List.length_append, List.length_cons, List.length_nil] at hlength
  omega

/-- **What tagging does to any line.** There is one way at most in which the line is made up of the
parts of a parameter line. If there is one, the line becomes another one, made up of the same parts
in the tagged form, which is left as it is by tagging, under whatever charset. If there is none, the
line stays as it is. -/
theorem tagLine_of_grammar (names : NameCharset) (line : Text) :
    (∀ p q, IsMadeUpOf names line p → IsMadeUpOf names line q → p = q) ∧
    (∀ p, IsMadeUpOf names line p →
      tagLine names line =
          p.indent ++ "* @param ".toList ++ p.name ++ " ".toList ++ p.description ∧
        tagLine names line ≠ line ∧
        ∀ other, tagLine other (tagLine names line) = tagLine names line) ∧
    ((¬∃ p, IsMadeUpOf names line p) → tagLine names line = line) := by
  simp only [isMadeUpOf_iff]
  refine ⟨fun p q hp hq => Option.some.inj (hp.symm.trans hq), fun p hp => ?_, fun hnone => ?_⟩
  · obtain ⟨hline, hread⟩ := ParamLine.parse?_eq_some_iff.mp hp
    rw [tagLine_of_parse?_eq_some hp]
    refine ⟨rfl, ?_, fun other => ?_⟩
    · rw [hline]
      exact p.tagged_ne_plain
    · exact tagLine_of_parse?_eq_none (ParamLine.parse?_tagged hread.indent_blank other)
  · refine tagLine_of_parse?_eq_none (Option.eq_none_iff_forall_ne_some.mpr fun p hp => ?_)
    exact hnone ⟨p, hp⟩

/-- A line that goes over two, with brackets in its name and a second separator in its description,
is a parameter line under one charset and none under the other one. -/
theorem tagLine_of_grammar_brackets :
    let line : Text := "\u2003\n* evt[0] - a - b".toList
    let p : ParamLine := ⟨"\u2003\n".toList, "evt[0]".toList, "a - b".toList⟩
    let new : Text := "\u2003\n* @param evt[0] a - b".toList
    (IsMadeUpOf .legacy line p ∧ tagLine .legacy line = new ∧ tagLine .legacy new = new) ∧
      (¬∃ p, IsMadeUpOf .strict line p) ∧ tagLine .strict line = line := by
  intro line p new
  have hp : IsMadeUpOf .legacy line p := isMadeUpOf_iff.mpr (by decide)
  have hread : ParamLine.parse? .strict line = none := by decide
  have hnone : ¬∃ p, IsMadeUpOf .strict line p := by
    rintro ⟨q, hq⟩
    rw [isMadeUpOf_iff, hread] at hq
    exact absurd hq (by simp)
  obtain ⟨-, htagged, -⟩ := tagLine_of_grammar .legacy line
  obtain ⟨hnew, -, hagain⟩ := htagged p hp
  obtain ⟨-, -, hplain⟩ := tagLine_of_grammar .strict line
  refine ⟨⟨hp, hnew, ?_⟩, hnone, hplain hnone⟩
  have hsame := hagain .legacy
  rwa [hnew] at hsame

end Grammar

end DocBlocks
