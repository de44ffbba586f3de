import DocBlocks.Proofs.Injection.Item

/-!
# Escape Markers and Injection

All that is put into a file has been stripped of escape markers, and nothing that is done to it
afterwards makes one. Neither an indentation nor the slashes of a line comment end in a backslash,
and no marker reaches over a space or a line feed, so that words that are put together in one line
and lines that are put together in one text hold only the markers that they held alone. A splice
takes lines out of the file and puts such lines in their place. Hence the lines with markers that a
file has in the end are some of those it had before, in their order.

This asks of a matcher only that it does not put the top of a doc block below its declaration
(`Matcher.InOrder`).

## Main results

* `Entry.hasMarker_of_mem_block`: what an entry puts into a file.
* `sublist_markerLines_splice`: one splice.
* `Entry.inject_addsNoMarker`: a whole injection.
-/

namespace DocBlocks

open Text

/-! ### What is put in -/

theorem hasMarker_indentLine (line : Text) : hasMarker (indentLine line) = hasMarker line := by
  rw [indentLine]
  split
  · next hnil => rw [List.isEmpty_iff.mp hnil]
  · exact hasMarker_append_of_not_mem (by decide) line

/-- A short description is put together of words of a stripped text. -/
theorem hasMarker_of_mem_shortLines {short line : Text} (h : line ∈ shortLines short) :
    hasMarker line = false := by
  have hword : ∀ word ∈ words (stripEscapes short), ¬hasMarker word = true := by
    intro word hmem
    have hinfix : word <:+: stripEscapes short := isInfix_of_mem_pieces (List.mem_filter.mp hmem).1
    simp [hasMarker_eq_false_of_isInfix hinfix (hasMarker_stripEscapes short)]
  rw [eq_of_mem_shortLines h, hasMarker_append_of_not_mem (by decide),
    hasMarker_intercalate (by decide) (by decide), List.any_eq_false]
  exact hword

/-- **No line that an entry puts into a file holds a marker.** -/
theorem Entry.hasMarker_of_mem_block {e : Entry} {symbol : Text} {item : Item}
    (hitem : item ∈ e.items symbol) : ∀ line ∈ item.block, hasMarker line = false := by
  intro line hline
  rcases (Entry.block_of_mem_items hitem).2 with heq | ⟨p, -, -, heq⟩
  · rw [heq] at hline
    obtain ⟨given, -, rfl⟩ := List.mem_map.mp hline
    exact hasMarker_stripEscapes given
  · rw [heq] at hline
    rcases List.mem_append.mp hline with hline | hline
    · obtain ⟨given, -, rfl⟩ := List.mem_map.mp hline
      rw [hasMarker_indentLine, hasMarker_stripEscapes]
    · exact hasMarker_of_mem_shortLines hline

/-! ### Lines with markers -/

/-- The lines of a text that hold a marker. -/
def markerLines (s : Text) : List Text := (splitLines s).filter hasMarker

/-- Whether the lines of a text that hold a marker are some of those of an older text, in the order
in which they are there. -/
def AddsNoMarker (old new : Text) : Prop := (markerLines new).Sublist (markerLines old)

/-- A text holds no marker if none of its lines does. -/
theorem markerLines_eq_nil_iff {s : Text} : markerLines s = [] ↔ hasMarker s = false := by
  have hany : hasMarker s = (splitLines s).any hasMarker := by
    rw [← hasMarker_intercalate (c := '\n') (by decide) (by decide), ← joinLines,
      joinLines_splitLines]
  rw [markerLines, List.filter_eq_nil_iff, hany, List.any_eq_false]

theorem AddsNoMarker.hasMarker_eq_false {old new : Text} (h : AddsNoMarker old new)
    (hold : hasMarker old = false) : hasMarker new = false := by
  rw [AddsNoMarker, markerLines_eq_nil_iff.mpr hold] at h
  exact markerLines_eq_nil_iff.mp (List.sublist_nil.mp h)

/-! ### Putting it in -/

/-- Whether a matcher never finds the top of a doc block below the declaration. -/
def Matcher.InOrder (find : Matcher) : Prop :=
  ∀ lines d span, find lines d = some span → span.top ≤ span.decl

theorem locate_inOrder : Matcher.InOrder locate := by
  intro lines d span h
  rw [locate_eq_head?_slots] at h
  exact (mem_slots_iff.mp (List.mem_of_head? h)).top_lt.le

/-- **A splice adds no line with a marker**, if what is put in holds none. -/
theorem sublist_markerLines_splice {span : BlockSpan} {block : List Text}
    (hspan : span.top ≤ span.decl) (hblock : ∀ line ∈ block, hasMarker line = false)
    (lines : List Text) :
    (((span.splice block lines).flatMap splitLines).filter hasMarker).Sublist
      ((lines.flatMap splitLines).filter hasMarker) := by
  have hnone : (block.flatMap splitLines).filter hasMarker = [] := by
    rw [List.filter_eq_nil_iff]
    intro line hline
    obtain ⟨given, hgiven, hline⟩ := List.mem_flatMap.mp hline
    simp [hasMarker_eq_false_of_isInfix (isInfix_of_mem_pieces hline) (hblock given hgiven)]
  have hkept : (lines.take span.top ++ lines.drop span.decl).Sublist lines := by
    have hdrop := List.drop_sublist_drop_left lines hspan
    simpa using hdrop.append_left (lines.take span.top)
  rw [BlockSpan.splice, List.flatMap_append, List.flatMap_append, List.filter_append,
    List.filter_append, hnone, List.append_nil, ← List.filter_append, ← List.flatMap_append]
  exact (hkept.flatMap splitLines).filter hasMarker

theorem Entry.inject_addsNoMarker_of_inOrder (e : Entry) {find : Matcher} (hfind : find.InOrder)
    (symbol content : Text) : AddsNoMarker content (e.inject find symbol content).content := by
  have hsplice : ∀ item ∈ e.items symbol, ∀ lines span, find lines item.decl = some span →
      ((lines.flatMap splitLines).filter hasMarker).Sublist (markerLines content) →
      (((span.splice item.block lines).flatMap splitLines).filter hasMarker).Sublist
        (markerLines content) :=
    fun item hitem lines span hspan hlines =>
      (sublist_markerLines_splice (hfind lines item.decl span hspan)
        (Entry.hasMarker_of_mem_block hitem) lines).trans hlines
  rw [AddsNoMarker, markerLines, e.splitLines_content_inject]
  refine @Asks.foldl_keeps _ _
    (fun lines => ((lines.flatMap splitLines).filter hasMarker).Sublist (markerLines content)) _
    (asks_requests symbol e) hsplice _ ?_
  rw [Injected.ofLines, flatMap_splitLines]
  exact List.Sublist.refl _

/-- **An injection adds no escape marker.** The lines with markers that a text has after an entry
has been put into it are some of those it had before, in their order. So a text without markers
stays one. And so it is for each matcher that finds doc blocks above declarations. -/
theorem Entry.inject_addsNoMarker (e : Entry) (symbol content : Text) :
    AddsNoMarker content (e.inject locate symbol content).content ∧
    (hasMarker content = false → hasMarker (e.inject locate symbol content).content = false) ∧
    ∀ find : Matcher, find.InOrder → AddsNoMarker content (e.inject find symbol content).content :=
  ⟨e.inject_addsNoMarker_of_inOrder locate_inOrder symbol content,
    (e.inject_addsNoMarker_of_inOrder locate_inOrder symbol content).hasMarker_eq_false,
    fun _ hfind => e.inject_addsNoMarker_of_inOrder hfind symbol content⟩

/-- An entry with a marker inside of another one. -/
theorem Entry.inject_addsNoMarker_nested :
    let e : Entry := ⟨["/** \\\\uu */".toList], .empty⟩
    let plain : Text := "/** old */\nclass Foo \x7b".toList
    let marked : Text := "/** \\x41 */\nclass Foo \x7b // \\u0041".toList
    AddsNoMarker marked (e.inject locate "Foo".toList marked).content ∧
    hasMarker (e.inject locate "Foo".toList plain).content = false ∧
    AddsNoMarker marked (e.inject (fun _ _ => some ⟨0, 1⟩) "Foo".toList marked).content := by
  intro e plain marked
  obtain ⟨hmarked, -, hfind⟩ := e.inject_addsNoMarker "Foo".toList marked
  obtain ⟨-, hplain, -⟩ := e.inject_addsNoMarker "Foo".toList plain
  refine ⟨hmarked, hplain (by decide +kernel), hfind _ fun lines d span h => ?_⟩
  obtain rfl := Option.some.inj h
  decide

end DocBlocks
