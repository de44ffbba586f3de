import DocBlocks.Proofs.Injection.Item
import DocBlocks.Definition.Reader
import DocBlocks.Run.Inject

/-!
# The Indentation of What Is Put above a Member

Each line for a member is indented as a whole. The file is cut at line feeds, however, and a given
line that holds one makes several lines there, of which only the first is indented by that. All of
them are indented exactly if the others are by themselves, or are empty, once the escape markers
are gone (`MemberDoc.KeepsIndent`). Lines that were given as one text always are, for such a text
is cut at its line feeds when it is read; lines that were given one by one need not be. The short
description is on one line, whatever it holds.

## Main results

* `splitLines_indentLine`: what becomes of one line for a member.
* `MemberDoc.forall_isIndented_iff`: when all lines for a member are indented in the file.
* `MemberDoc.isIndented_iff_keepsIndent`: what a replacement above a member makes of the lines of a
  file, and an injection of all of them.
* `not_forall_isIndented`: a table for which they are not.
-/

namespace DocBlocks

open Text

/-- Whether a line is empty or starts with the indentation of members. -/
def IsIndented (line : Text) : Prop := line = [] ∨ Declaration.memberIndent <+: line

instance : DecidablePred IsIndented := fun _ => inferInstanceAs (Decidable (_ ∨ _))

/-- The lines that a member has in a file. -/
def MemberDoc.fileLines (m : MemberDoc) : List Text := m.block.flatMap splitLines

/-- Whether the lines for a member are such that line feeds in them do no harm: what stands behind
one is empty or indented, without its escape markers. -/
def MemberDoc.KeepsIndent (m : MemberDoc) : Prop :=
  ∀ given ∈ m.lines, ∀ line ∈ (splitLines given).tail, IsIndented (stripEscapes line)

instance : DecidablePred MemberDoc.KeepsIndent := fun m =>
  inferInstanceAs (Decidable (∀ given ∈ m.lines, ∀ line ∈ (splitLines given).tail, _))

/-! ### The lines of one member -/

/-- Only the first line of what is indented gets the indentation. -/
theorem splitLines_indentLine (s : Text) :
    ∃ first, IsIndented first ∧ splitLines (indentLine s) = first :: (splitLines s).tail := by
  rw [indentLine]
  split
  · next hnil =>
    rw [List.isEmpty_iff.mp hnil]
    exact ⟨[], .inl rfl, rfl⟩
  · obtain ⟨first, rest, hs⟩ := List.exists_cons_of_ne_nil (splitLines_ne_nil s)
    refine ⟨Declaration.memberIndent ++ first, .inr (List.prefix_append _ _), ?_⟩
    calc splitLines (Declaration.memberIndent ++ s)
        = startWith ' ' (startWith ' ' (splitLines s)) := by
          rw [Declaration.memberIndent, List.cons_append, List.singleton_append,
            splitLines_cons_of_not (by decide), splitLines_cons_of_not (by decide)]
      _ = (Declaration.memberIndent ++ first) :: (splitLines s).tail := by rw [hs]; rfl

theorem forall_isIndented_indentLine_iff (s : Text) :
    (∀ line ∈ splitLines (indentLine s), IsIndented line) ↔
      ∀ line ∈ (splitLines s).tail, IsIndented line := by
  obtain ⟨first, hfirst, hlines⟩ := splitLines_indentLine s
  rw [hlines, List.forall_mem_cons]
  exact and_iff_right hfirst

/-- The short description makes one line, which is indented. -/
theorem isIndented_of_mem_shortLines {short given line : Text} (h : given ∈ shortLines short)
    (hline : line ∈ splitLines given) : IsIndented line := by
  rw [splitLines_of_not_mem (not_mem_of_mem_shortLines h (by decide) (by decide)),
    List.mem_singleton] at hline
  rw [hline, eq_of_mem_shortLines h, List.append_assoc]
  exact .inr (List.prefix_append _ _)

/-- **When all lines of a member are indented in the file.** -/
theorem MemberDoc.forall_isIndented_iff (m : MemberDoc) :
    (∀ line ∈ m.fileLines, IsIndented line) ↔ m.KeepsIndent := by
  have hshort : ∀ line ∈ (shortLines m.short).flatMap splitLines, IsIndented line := by
    intro line hline
    obtain ⟨given, hgiven, hline⟩ := List.mem_flatMap.mp hline
    exact isIndented_of_mem_shortLines hgiven hline
  have hgiven (given : Text) :
      (∀ line ∈ splitLines (indentLine (stripEscapes given)), IsIndented line) ↔
        ∀ line ∈ (splitLines given).tail, IsIndented (stripEscapes line) := by
    rw [forall_isIndented_indentLine_iff, splitLines_stripEscapes, ← List.map_tail,
      List.forall_mem_map]
  rw [fileLines, block, List.flatMap_append, List.forall_mem_append, and_iff_left hshort,
    List.flatMap_map, List.forall_mem_flatMap]
  exact forall₂_congr fun given _ => hgiven given

/-- The lines of one text hold no line feed. -/
theorem Text.not_mem_of_mem_wholeLines {s line : Text} (h : line ∈ wholeLines s) : '\n' ∉ line := by
  have hended : ∀ line ∈ (splitLines s).dropLast.map fun line =>
      if line.getLast? = some '\r' then line.dropLast else line, '\n' ∉ line := by
    intro line hline
    obtain ⟨source, hsource, rfl⟩ := List.mem_map.mp hline
    have hclean := not_mem_of_mem_splitLines (List.dropLast_subset _ hsource)
    split
    · exact fun hmem => hclean (List.dropLast_subset _ hmem)
    · exact hclean
  rw [wholeLines] at h
  split at h
  · exact hended line h
  · exact hended line h
  · next last _ hlast =>
    rcases List.mem_append.mp h with h | h
    · exact hended line h
    · rw [List.mem_singleton.mp h]
      exact not_mem_of_mem_splitLines (List.mem_of_getLast? hlast)

/-- Lines given as one text make no lines but themselves. -/
theorem MemberDoc.keepsIndent_of_wholeLines {m : MemberDoc} {s : Text}
    (h : m.lines = wholeLines s) : m.KeepsIndent := by
  intro given hgiven line hline
  rw [h] at hgiven
  rw [splitLines_of_not_mem (not_mem_of_mem_wholeLines hgiven)] at hline
  exact absurd hline List.not_mem_nil

/-! ### The lines of the file -/

/-- What becomes of the lines of a file by a replacement above a member. -/
theorem MemberDoc.splitLines_content_place {m : MemberDoc} (hm : m.lines ≠ []) {find : Matcher}
    {done : Injected} {d : Declaration} {span : BlockSpan} (h : find done.lines d = some span)
    (note : Note) :
    splitLines (done.place find (.replace d m.block note)).content =
      (done.lines.take span.top).flatMap splitLines ++ m.fileLines ++
        (done.lines.drop span.decl).flatMap splitLines := by
  have hlines : (done.place find (.replace d m.block note)).lines =
      span.splice m.block done.lines := by
    rw [Injected.place, h]
  have hblock : m.block ≠ [] := List.append_ne_nil_of_left_ne_nil (by simpa using hm) _
  rw [Injected.content, hlines, splitLines_joinLines_eq_flatMap (splice_ne_nil hblock _ _),
    BlockSpan.splice, List.flatMap_append, List.flatMap_append, fileLines]

/-- **Every line of a file with an entry put in** was there before, is for the class, or is
indented, if no line feed in a line for a member does harm. -/
theorem Entry.isIndented_of_mem_inject {e : Entry} (find : Matcher) (symbol : Text) {content : Text}
    (hkeeps : ∀ p ∈ e.members.entries, p.2.lines ≠ [] → p.2.KeepsIndent) :
    ∀ line ∈ splitLines (e.inject find symbol content).content,
      line ∈ splitLines content ∨ line ∈ e.classBlock.flatMap splitLines ∨ IsIndented line := by
  refine Entry.forall_mem_inject (fun line hold => .inl hold) fun item hitem line hput => ?_
  rcases (Entry.block_of_mem_items hitem).2 with heq | ⟨p, hp, hne, heq⟩
  · rw [heq] at hput
    exact .inr (.inl hput)
  · rw [heq] at hput
    exact .inr (.inr (p.2.forall_isIndented_iff.mpr (hkeeps p hp hne) line hput))

/-- **When what is put above a member is indented.** A replacement above a member puts the lines of
the member into the file, and these are all empty or indented exactly if line feeds in the given
lines do no harm; in lines that are given as one text there are none. If no member has lines that do
harm, then each line of a file with an entry put in was there before, is for the class, or is empty
or indented. -/
theorem MemberDoc.isIndented_iff_keepsIndent (find : Matcher) :
    (∀ (m : MemberDoc) (done : Injected) (d : Declaration) (note : Note) (span : BlockSpan),
      m.lines ≠ [] → find done.lines d = some span →
      splitLines (done.place find (.replace d m.block note)).content =
        (done.lines.take span.top).flatMap splitLines ++ m.fileLines ++
          (done.lines.drop span.decl).flatMap splitLines ∧
      ((∀ line ∈ m.fileLines, IsIndented line) ↔ m.KeepsIndent)) ∧
    (∀ (m : MemberDoc) (s : Text), m.lines = wholeLines s → m.KeepsIndent) ∧
    ∀ (e : Entry) (symbol content : Text),
      (∀ p ∈ e.members.entries, p.2.lines ≠ [] → p.2.KeepsIndent) →
      ∀ line ∈ splitLines (e.inject find symbol content).content,
        line ∈ splitLines content ∨ line ∈ e.classBlock.flatMap splitLines ∨ IsIndented line :=
  ⟨fun m _ _ note _ hm h => ⟨MemberDoc.splitLines_content_place hm h note, m.forall_isIndented_iff⟩,
    fun _ _ => MemberDoc.keepsIndent_of_wholeLines,
    fun _ symbol _ hkeeps => Entry.isIndented_of_mem_inject find symbol hkeeps⟩

/-- A member with line feeds that the indentation follows, and lines given as one text. -/
theorem MemberDoc.isIndented_iff_keepsIndent_get :
    let old : Text := "  /** old */\n  get() \x7b".toList
    let m : MemberDoc := ⟨"Gets.".toList, ["/**\n   * Gets.\n   */".toList]⟩
    let e : Entry := ⟨[], .ofPairs [("get()".toList, m)]⟩
    let request : Request := .replace (.ofMember "get()".toList) m.block
      (.noMemberBlock "Foo".toList "get()".toList)
    (splitLines ((Injected.ofLines (splitLines old)).place locate request).content =
        m.fileLines ++ ["  get() \x7b".toList] ∧
      ∀ line ∈ m.fileLines, IsIndented line) ∧
    (⟨[], ["/**".toList, " * Gets.".toList, " */".toList]⟩ : MemberDoc).KeepsIndent ∧
    ∀ line ∈ splitLines (e.inject locate "Foo".toList old).content,
      line ∈ splitLines old ∨ line ∈ e.classBlock.flatMap splitLines ∨ IsIndented line := by
  intro old m e request
  obtain ⟨hplace, htext, hinject⟩ := MemberDoc.isIndented_iff_keepsIndent locate
  have hkeeps : m.KeepsIndent := by decide +kernel
  obtain ⟨hlines, hiff⟩ := hplace m (.ofLines (splitLines old)) (.ofMember "get()".toList)
    (.noMemberBlock "Foo".toList "get()".toList) ⟨0, 1⟩ (by decide) (by decide +kernel)
  refine ⟨⟨hlines.trans (by decide +kernel), hiff.mpr hkeeps⟩,
    htext _ "/**\n * Gets.\n */".toList (by decide +kernel), ?_⟩
  exact hinject e "Foo".toList old (by decide +kernel)

/-- **A table may be such that what it puts above a member is not indented**: a line that is given
by itself is indented once, however many line feeds it holds. -/
theorem not_forall_isIndented :
    ¬ ∀ (definitions : Text) (table : Table) (path : Path) (content symbol : Text) (e : Entry)
      (done : Injected), Table.read definitions = .ok table → path.symbol? = some symbol →
      table.get? symbol = some e → table.injectFile locate path content = .ok (some done) →
      ∀ line ∈ splitLines done.content,
        line ∈ splitLines content ∨ line ∈ e.classBlock.flatMap splitLines ∨ IsIndented line := by
  intro h
  let e : Entry := ⟨[], .ofPairs [("get()".toList, ⟨[], ["/**\n * Gets.\n */".toList]⟩)]⟩
  let content : Text := "  /** old */\n  get() \x7b".toList
  have hline := h
    "\x7b\"Foo\":[null,\x7b\"get()\":[null,[\"/**\\n * Gets.\\n */\"]]\x7d]\x7d".toList
    (.ofPairs [("Foo".toList, e)]) (.ofText "Foo.js".toList) content "Foo".toList e
    (e.inject locate "Foo".toList content) (by decide +kernel) (by decide +kernel)
    (by decide +kernel) (by decide +kernel) " * Gets.".toList (by decide +kernel)
  exact absurd hline (by decide +kernel)

end DocBlocks
