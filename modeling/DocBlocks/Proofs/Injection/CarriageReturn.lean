import DocBlocks.Proofs.Injection.Item
import DocBlocks.Run.Inject

/-!
# Carriage Returns in Doc Blocks

A file is refused if it has a line that ends in `\r\n`, but what is put into one may make it such a
file. A line **returns** (`Returns`) if there is `\r\n` in it or if it ends with a carriage return,
which makes a `\r\n` with the line feed behind it wherever another line follows. None of the lines
of a file that is not refused returns, but for the last one, where it does no harm, and neither does
a remark, the blanks of which are spaces. The lines of a doc block are put in as they are given,
and none of them is the last line of the file, which is at or below the declaration. So the text
that comes of an injection ends a line in `\r\n` exactly if one of its lines but the last one is a
line of a doc block that returns.

## Main results

* `hasCrlf_joinLines_iff`: the lines of a text that ends a line in `\r\n`.
* `Entry.hasCrlf_inject_iff`: when an injection makes such a text.
-/

namespace DocBlocks

open Text

/-! ### Lines that return -/

/-- Whether a line **returns**: there is `\r\n` in it, or it ends with a carriage return. -/
def Returns (line : Text) : Prop := hasCrlf line = true ∨ line.getLast? = some '\r'

instance : DecidablePred Returns := fun _ => inferInstanceAs (Decidable (_ ∨ _))

section Lines

variable {line s : Text} {lines : List Text}

theorem hasCrlf_eq_false_of_not_mem {c : Char} (hc : c ∈ ['\r', '\n']) (h : c ∉ s) :
    hasCrlf s = false := by
  rw [Bool.eq_false_iff]
  exact fun hcrlf => h ((contains_eq_true_iff.mp hcrlf).subset hc)

theorem not_returns_of_not_mem (h : '\r' ∉ line) : ¬Returns line := by
  rintro (hcrlf | hlast)
  · rw [hasCrlf_eq_false_of_not_mem List.mem_cons_self h] at hcrlf
    exact Bool.false_ne_true hcrlf
  · exact h (List.mem_of_getLast? hlast)

theorem hasCrlf_cons_iff (c : Char) (s : Text) :
    hasCrlf (c :: s) = true ↔ (c = '\r' ∧ s.head? = some '\n') ∨ hasCrlf s = true := by
  rw [hasCrlf, contains, Bool.or_eq_true, startsWith_eq_true_iff, ← hasCrlf]
  refine or_congr_left ?_
  constructor
  · rintro ⟨rest, hrest⟩
    obtain ⟨rfl, rfl⟩ := List.cons.inj hrest
    exact ⟨rfl, rfl⟩
  · rintro ⟨rfl, hhead⟩
    obtain ⟨rest, rfl⟩ := List.head?_eq_some_iff.mp hhead
    exact ⟨rest, rfl⟩

/-- A text ends a line in `\r\n` if its first line returns or if what is behind that line ends one
so. -/
theorem hasCrlf_append_cons_iff (line s : Text) :
    hasCrlf (line ++ '\n' :: s) = true ↔ Returns line ∨ hasCrlf s = true := by
  induction line with
  | nil =>
      have hnil : ¬Returns [] := by decide
      rw [List.nil_append, hasCrlf_cons_iff]
      simp [hnil]
  | cons c line ih =>
      rw [List.cons_append, hasCrlf_cons_iff, ih, ← or_assoc]
      refine or_congr_left ?_
      cases line with
      | nil =>
          have hnil : hasCrlf [] = false := rfl
          simp [Returns, hasCrlf_cons_iff, hnil]
      | cons d line =>
          rw [Returns, Returns, hasCrlf_cons_iff c, List.getLast?_cons_cons, or_assoc]
          rfl

/-- **The lines of a text that ends a line in `\r\n`**: one of those but the last one returns, or
there is `\r\n` in the last one. -/
theorem hasCrlf_joinLines_iff :
    hasCrlf (joinLines lines) = true ↔
      (∃ line ∈ lines.dropLast, Returns line) ∨ ∃ line ∈ lines.getLast?, hasCrlf line = true := by
  induction lines with
  | nil =>
      have hnil : hasCrlf [] = false := rfl
      simp [hnil]
  | cons line rest ih =>
      cases rest with
      | nil => simp
      | cons next rest =>
          rw [joinLines_cons line (List.cons_ne_nil next rest), hasCrlf_append_cons_iff, ih,
            List.dropLast_cons_cons, List.getLast?_cons_cons, ← or_assoc]
          simp only [List.mem_cons, exists_eq_or_imp]

end Lines

/-! ### Where the lines of an injection come from -/

/-- The lines that an entry puts into doc blocks. -/
def Entry.docLines (symbol : Text) (e : Entry) : List Text := (e.items symbol).flatMap Item.doc

/-- Whether the lines but the last one that return are all among given ones, and there is no `\r\n`
in the last line. -/
structure ReturnsOnlyIn (put lines : List Text) : Prop where
  mem_of_returns : ∀ line ∈ lines.dropLast, Returns line → line ∈ put
  last : ∀ line ∈ lines.getLast?, hasCrlf line = false

/-- The lines of a text that ends no line in `\r\n`. -/
theorem ReturnsOnlyIn.of_content {content : Text} (h : hasCrlf content = false)
    (put : List Text) : ReturnsOnlyIn put (splitLines content) := by
  rw [← joinLines_splitLines content, Bool.eq_false_iff, Ne, hasCrlf_joinLines_iff, not_or] at h
  obtain ⟨hinit, hlast⟩ := h
  constructor
  · intro line hline hreturns
    exact absurd ⟨line, hline, hreturns⟩ hinit
  · intro line hline
    rw [Bool.eq_false_iff]
    exact fun hcrlf => hlast ⟨line, hline, hcrlf⟩

/-- **A splice** puts in lines before the line of the declaration. -/
theorem ReturnsOnlyIn.splice {put block lines : List Text} {d : Declaration} {span : BlockSpan}
    (h : ReturnsOnlyIn put lines) (hspan : IsSlot lines d span)
    (hblock : ∀ line ∈ block, Returns line → line ∈ put) :
    ReturnsOnlyIn put (span.splice block lines) := by
  obtain ⟨before, old, line, after, rfl, htop, hdecl, -, -⟩ := isSlot_iff_exists_append.mp hspan
  obtain ⟨hinit, hlast⟩ := h
  rw [List.getLast?_append_of_ne_nil _ (List.cons_ne_nil line after)] at hlast
  rw [List.dropLast_append_of_ne_nil (List.cons_ne_nil line after)] at hinit
  rw [splice_append htop hdecl]
  constructor
  · rw [List.dropLast_append_of_ne_nil (List.cons_ne_nil line after)]
    intro other hother hreturns
    rcases List.mem_append.mp hother with hother | hother
    · rcases List.mem_append.mp hother with hother | hother
      · exact hinit other (List.mem_append_left _ (List.mem_append_left _ hother)) hreturns
      · exact hblock other hother hreturns
    · exact hinit other (List.mem_append_right _ hother) hreturns
  · rwa [List.getLast?_append_of_ne_nil _ (List.cons_ne_nil line after)]

/-- No remark returns. -/
theorem Entry.mem_doc_of_returns {e : Entry} {symbol : Text} {item : Item}
    (h : item ∈ e.items symbol) {line : Text} (hline : line ∈ item.block)
    (hreturns : Returns line) : line ∈ item.doc := by
  rcases List.mem_append.mp hline with hdoc | hremark
  · exact hdoc
  · rcases Entry.eq_of_mem_items h with ⟨-, rfl⟩ | ⟨p, -, -, d, -, rfl⟩
    · exact absurd hremark List.not_mem_nil
    · have hclean := not_mem_of_mem_shortLines (c := '\r') hremark (by decide) (by decide)
      exact absurd hreturns (not_returns_of_not_mem hclean)

/-- **When an injection makes a text that ends a line in `\r\n`**: if one of its lines but the last
one is a line of a doc block that returns. -/
theorem Entry.hasCrlf_inject_iff (e : Entry) (symbol : Text) {content : Text}
    (hcontent : hasCrlf content = false) :
    hasCrlf (e.inject locate symbol content).content = true ↔
      ∃ line ∈ e.docLines symbol, line ∈ (e.inject locate symbol content).lines.dropLast ∧
        Returns line := by
  have honly : ReturnsOnlyIn (e.docLines symbol) (e.inject locate symbol content).lines := by
    refine (asks_requests symbol e).foldl_keeps (fun item hitem lines span hspan hlines => ?_)
      (ReturnsOnlyIn.of_content hcontent _)
    rw [locate_eq_head?_slots] at hspan
    refine hlines.splice (mem_slots_iff.mp (List.mem_of_head? hspan)) fun line hline hreturns => ?_
    exact List.mem_flatMap.mpr ⟨item, hitem, Entry.mem_doc_of_returns hitem hline hreturns⟩
  rw [Injected.content, hasCrlf_joinLines_iff]
  constructor
  · rintro (⟨line, hline, hreturns⟩ | ⟨line, hline, hcrlf⟩)
    · exact ⟨line, honly.mem_of_returns line hline hreturns, hline, hreturns⟩
    · exact absurd hcrlf (by simp [honly.last line hline])
  · rintro ⟨line, -, hline, hreturns⟩
    exact .inl ⟨line, hline, hreturns⟩

end DocBlocks
