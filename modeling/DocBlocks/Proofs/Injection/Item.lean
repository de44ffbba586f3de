import DocBlocks.Injection
import DocBlocks.Proofs.BlockSpan.Splice
import DocBlocks.Proofs.Declaration.Signature
import DocBlocks.Proofs.Text.EscapeMarker
import Mathlib.Data.List.Flatten

/-!
# The Items of an Entry

What an entry puts into a file falls into items. An item has a declaration, the lines of a doc
block to put above it, and the remarks to put between the two, which are the short description
of a member, if there is anything to say. `Entry.items` reads the items off an entry, and
`Asks` ties them to the requests that are carried out.

An entry is **documented** (`Entry.IsDocumented`) if its replacement lines are doc blocks once
they are stripped of escape markers, and no signature starts as a comment does. Then all items
are sound (`Item.IsSound`): each puts a doc block at the indentation of its declaration.

## Main results

* `Entry.eq_of_mem_items`: what an item of an entry can be.
* `asks_requests`: the requests of an entry are its items, and blank signatures.
* `Asks.foldl_keeps`, `Entry.forall_mem_inject`: what all items keep, an injection keeps.
* `Entry.IsDocumented.isSound`: the items of a documented entry are sound.
* `Entry.IsDocumented.not_mem_block`: no line of such an item holds a line feed.
-/

namespace DocBlocks

open Text

/-- What is to be put above one declaration. -/
structure Item where
  /-- The declaration. -/
  decl : Declaration
  /-- The lines of its doc block. -/
  doc : List Text
  /-- The lines between the doc block and the declaration. -/
  remarks : List Text
  /-- What is noted down if the declaration has no doc block. -/
  note : Note
  deriving DecidableEq

namespace Item

/-- All lines of an item. -/
def block (item : Item) : List Text := item.doc ++ item.remarks

/-- The request to put an item into a file. -/
def request (item : Item) : Request := .replace item.decl item.block item.note

/-- Whether an item puts a doc block above a declaration of code, at its indentation, and
nothing but remarks below it. -/
structure IsSound (item : Item) : Prop where
  isCode : item.decl.IsCode
  isBlock : IsBlock item.decl.opensBlock item.doc
  isRemark : ∀ line ∈ item.remarks, IsRemark line

end Item

/-! ### Reading the items off an entry -/

/-- The item of a class, if there are lines for it. -/
def Entry.classItems (symbol : Text) (e : Entry) : List Item :=
  if e.classLines.isEmpty then []
  else [⟨.ofClass symbol, e.classLines.map stripEscapes, [], .noClassBlock symbol⟩]

/-- The item of a member, if there are lines for it and its signature is not blank. -/
def MemberDoc.items (symbol signature : Text) (m : MemberDoc) : List Item :=
  if m.lines.isEmpty then []
  else
    match Declaration.member? signature with
    | none => []
    | some decl =>
      [⟨decl, m.lines.map fun line => indentLine (stripEscapes line), shortLines m.short,
        .noMemberBlock symbol signature⟩]

/-- All items of an entry: that of the class, and those of the members in the order of their
signatures. -/
def Entry.items (symbol : Text) (e : Entry) : List Item :=
  e.classItems symbol ++ e.members.entries.flatMap fun (signature, m) => m.items symbol signature

/-- **The items of an entry**: that of its class, and those of members with lines and with a
signature that is not blank. -/
theorem Entry.eq_of_mem_items {e : Entry} {symbol : Text} {item : Item}
    (h : item ∈ e.items symbol) :
    (e.classLines ≠ [] ∧
      item = ⟨.ofClass symbol, e.classLines.map stripEscapes, [], .noClassBlock symbol⟩) ∨
    ∃ p ∈ e.members.entries, p.2.lines ≠ [] ∧
      ∃ d, Declaration.member? p.1 = some d ∧
        item = ⟨d, p.2.lines.map fun line => indentLine (stripEscapes line),
          shortLines p.2.short, .noMemberBlock symbol p.1⟩ := by
  rcases List.mem_append.mp h with h | h
  · rw [Entry.classItems] at h
    split at h
    · exact absurd h List.not_mem_nil
    · next hne =>
      exact Or.inl ⟨fun hnil => hne (List.isEmpty_iff.mpr hnil), List.mem_singleton.mp h⟩
  · obtain ⟨⟨signature, m⟩, hmem, h⟩ := List.mem_flatMap.mp h
    change item ∈ m.items symbol signature at h
    rw [MemberDoc.items] at h
    split at h
    · exact absurd h List.not_mem_nil
    · next hne =>
      split at h
      · exact absurd h List.not_mem_nil
      · next d hd =>
        exact Or.inr ⟨(signature, m), hmem, fun hnil => hne (List.isEmpty_iff.mpr hnil), d, hd,
          List.mem_singleton.mp h⟩

/-- The lines of an item are those for the class or those for a member, and there are some. -/
theorem Entry.block_of_mem_items {e : Entry} {symbol : Text} {item : Item}
    (h : item ∈ e.items symbol) :
    item.block ≠ [] ∧ (item.block = e.classBlock ∨
      ∃ p ∈ e.members.entries, p.2.lines ≠ [] ∧ item.block = p.2.block) := by
  rcases Entry.eq_of_mem_items h with ⟨hlines, rfl⟩ | ⟨p, hp, hlines, d, -, rfl⟩
  · exact ⟨List.append_ne_nil_of_left_ne_nil (by simpa using hlines) _, .inl (List.append_nil _)⟩
  · exact ⟨List.append_ne_nil_of_left_ne_nil (by simpa using hlines) _, .inr ⟨p, hp, hlines, rfl⟩⟩

/-- Whether requests ask for exactly the given items, in their order, and note down nothing as
missed besides. -/
inductive Asks : List Request → List Item → Prop
  | nil : Asks [] []
  | skip {note : Note} {requests : List Request} {items : List Item} :
      note.missed? = none → Asks requests items → Asks (.skip note :: requests) items
  | replace {requests : List Request} {items : List Item} (item : Item) :
      Asks requests items → Asks (item.request :: requests) (item :: items)

theorem Asks.append {requests more : List Request} {items others : List Item}
    (h : Asks requests items) (h' : Asks more others) :
    Asks (requests ++ more) (items ++ others) := by
  induction h with
  | nil => exact h'
  | skip hnote _ ih => exact ih.skip hnote
  | replace item _ ih => exact ih.replace item

theorem asks_classRequests (symbol : Text) (e : Entry) :
    Asks (e.classRequests symbol) (e.classItems symbol) := by
  rw [Entry.classRequests, Entry.classItems]
  split
  · exact .nil
  · have hblock : e.classBlock = e.classLines.map stripEscapes ++ [] := by
      rw [Entry.classBlock, List.append_nil]
    rw [hblock]
    exact .replace ⟨_, _, _, _⟩ .nil

theorem asks_memberRequests (symbol signature : Text) (m : MemberDoc) :
    Asks (m.requests symbol signature) (m.items symbol signature) := by
  rw [MemberDoc.requests, MemberDoc.items]
  split
  · exact .nil
  · cases Declaration.member? signature with
    | none => exact .skip rfl .nil
    | some decl => exact .replace ⟨_, _, _, _⟩ .nil

/-- **The requests of an entry are its items**, and blank signatures that are passed over. -/
theorem asks_requests (symbol : Text) (e : Entry) :
    Asks (e.requests symbol) (e.items symbol) := by
  refine (asks_classRequests symbol e).append ?_
  induction e.members.entries with
  | nil => exact .nil
  | cons entry rest ih =>
      obtain ⟨signature, m⟩ := entry
      exact (asks_memberRequests symbol signature m).append ih

/-! ### Putting items in -/

/-- What is kept by putting in any of the items, all requests keep. -/
theorem Asks.foldl_keeps {requests : List Request} {items : List Item} {keeps : List Text → Prop}
    {find : Matcher} (h : Asks requests items)
    (hkeeps : ∀ item ∈ items, ∀ lines span, find lines item.decl = some span → keeps lines →
      keeps (span.splice item.block lines))
    {done : Injected} (hdone : keeps done.lines) :
    keeps (requests.foldl (Injected.place find) done).lines := by
  induction h generalizing done with
  | nil => exact hdone
  | skip hnote _ ih => exact ih hkeeps hdone
  | replace item _ ih =>
      obtain ⟨hitem, hrest⟩ := List.forall_mem_cons.mp hkeeps
      refine ih hrest ?_
      rw [Item.request, Injected.place]
      cases hfind : find done.lines item.decl with
      | none => exact hdone
      | some span => exact hitem done.lines span hfind hdone

theorem splice_ne_nil {block : List Text} (h : block ≠ []) (span : BlockSpan)
    (lines : List Text) : span.splice block lines ≠ [] :=
  List.append_ne_nil_of_left_ne_nil (List.append_ne_nil_of_right_ne_nil _ h) _

/-- The lines of the text that comes of an injection, cut where those that were put in hold line
feeds. -/
theorem Entry.splitLines_content_inject (e : Entry) (find : Matcher) (symbol content : Text) :
    splitLines (e.inject find symbol content).content =
      (e.inject find symbol content).lines.flatMap splitLines := by
  have hitems : ∀ item ∈ e.items symbol, ∀ lines span, find lines item.decl = some span →
      lines ≠ [] → span.splice item.block lines ≠ [] :=
    fun item hitem lines span _ _ => splice_ne_nil (Entry.block_of_mem_items hitem).1 span lines
  exact splitLines_joinLines_eq_flatMap
    (@Asks.foldl_keeps _ _ (· ≠ []) _ (asks_requests symbol e) hitems _ (splitLines_ne_nil content))

/-- **What holds of all lines of a text** and of all lines of the items that are put into it, holds
of all lines of what comes of it. -/
theorem Entry.forall_mem_inject {e : Entry} {find : Matcher} {symbol content : Text}
    {P : Text → Prop} (hold : ∀ line ∈ splitLines content, P line)
    (hput : ∀ item ∈ e.items symbol, ∀ line ∈ item.block.flatMap splitLines, P line) :
    ∀ line ∈ splitLines (e.inject find symbol content).content, P line := by
  have hsplice : ∀ item ∈ e.items symbol, ∀ lines span, find lines item.decl = some span →
      (∀ line ∈ lines.flatMap splitLines, P line) →
      ∀ line ∈ (span.splice item.block lines).flatMap splitLines, P line := by
    intro item hitem lines span _ hlines line hline
    rw [BlockSpan.splice, List.flatMap_append, List.flatMap_append, List.append_assoc] at hline
    rcases List.mem_append.mp hline with hline | hline
    · exact hlines line (((List.take_sublist _ lines).flatMap splitLines).subset hline)
    · rcases List.mem_append.mp hline with hline | hline
      · exact hput item hitem line hline
      · exact hlines line (((List.drop_sublist _ lines).flatMap splitLines).subset hline)
  rw [e.splitLines_content_inject]
  refine @Asks.foldl_keeps _ _ (fun lines => ∀ line ∈ lines.flatMap splitLines, P line) _
    (asks_requests symbol e) hsplice _ ?_
  rwa [Injected.ofLines, flatMap_splitLines]

/-! ### Indenting a doc block -/

/-- Lines that answer as the lines of a doc block do form a doc block too. -/
theorem IsBlock.map {opens opens' : Text → Bool} {block : List Text} (h : IsBlock opens block)
    {f : Text → Text} (hopen : ∀ line, opens' (f line) = opens line)
    (hclose : ∀ line, Declaration.closesBlock line = true →
      Declaration.closesBlock (f line) = true)
    (hcontains : ∀ line, contains Comment.closing (f line) = contains Comment.closing line) :
    IsBlock opens' (block.map f) := by
  rcases h.eq_singleton_or_cons_concat with ⟨line, rfl⟩ | ⟨first, inner, last, rfl⟩
  · obtain ⟨hline, hlast⟩ := IsBlock.singleton_iff.mp h
    exact IsBlock.singleton_iff.mpr ⟨by rw [hopen, hline], hclose line hlast⟩
  · obtain ⟨hfirst, htail, hlast, hinit⟩ := IsBlock.cons_concat_iff.mp h
    rw [List.map_cons, List.map_append]
    refine IsBlock.cons_concat_iff.mpr
      ⟨by rw [hopen, hfirst], fun line hline => ?_, hclose last hlast, fun line hline => ?_⟩
    · rw [← List.map_singleton, ← List.map_append] at hline
      obtain ⟨source, hsource, rfl⟩ := List.mem_map.mp hline
      rw [hopen, htail source hsource]
    · rw [← List.map_cons] at hline
      obtain ⟨source, hsource, rfl⟩ := List.mem_map.mp hline
      rw [hcontains, hinit source hsource]

theorem Declaration.opensBlock_ofClass (name line : Text) :
    (ofClass name).opensBlock line = startsWith Comment.opening line := by
  rw [Bool.eq_iff_iff, opensBlock_eq_true_iff]
  constructor
  · rintro ⟨rest, rfl, hopen⟩
    exact hopen
  · intro hopen
    exact ⟨line, rfl, hopen⟩

theorem opensBlock_indentLine (signature line : Text) :
    (Declaration.ofMember signature).opensBlock (indentLine line) =
      startsWith Comment.opening line := by
  rw [indentLine]
  split
  · next h =>
    rw [List.isEmpty_iff.mp h]
    rfl
  · rw [Bool.eq_iff_iff, Declaration.opensBlock_eq_true_iff]
    constructor
    · rintro ⟨rest, hrest, hopen⟩
      rw [List.append_cancel_left hrest]
      exact hopen
    · intro hopen
      exact ⟨line, rfl, hopen⟩

theorem closesBlock_indentLine {line : Text} (h : Declaration.closesBlock line = true) :
    Declaration.closesBlock (indentLine line) = true := by
  rw [indentLine]
  split
  · next hnil => rwa [List.isEmpty_iff.mp hnil] at h
  · rw [Declaration.closesBlock, endsWith, List.isSuffixOf_iff_suffix] at h ⊢
    have hne : line.reverse.dropWhile isBlank ≠ [] := by
      intro hnil
      rw [trimEnd, dropEndWhile, hnil] at h
      exact absurd (List.suffix_nil.mp h) (by decide)
    have htrim : trimEnd (Declaration.memberIndent ++ line) =
        Declaration.memberIndent ++ trimEnd line := by
      rw [trimEnd, trimEnd, dropEndWhile, dropEndWhile, List.reverse_append,
        List.dropWhile_append, if_neg (by simpa using hne), List.reverse_append,
        List.reverse_reverse]
    rw [htrim]
    exact h.trans (List.suffix_append _ _)

theorem contains_closing_indentLine (line : Text) :
    contains Comment.closing (indentLine line) = contains Comment.closing line := by
  rw [indentLine]
  split
  · next h => rw [List.isEmpty_iff.mp h]
  · rfl

/-! ### Documented entries -/

/-- Whether lines can replace a doc block: they hold no line feed, and are one doc block when
they are stripped of escape markers. -/
def IsReplacement (lines : List Text) : Prop :=
  (∀ line ∈ lines, '\n' ∉ line) ∧
    IsBlock (startsWith Comment.opening) (lines.map stripEscapes)

instance (lines : List Text) : Decidable (IsReplacement lines) :=
  inferInstanceAs (Decidable (_ ∧ _))

/-- Whether all lines that an entry has are replacements of doc blocks, and no signature,
when it is trimmed, starts with a slash. -/
structure Entry.IsDocumented (e : Entry) : Prop where
  classLines : e.classLines ≠ [] → IsReplacement e.classLines
  memberLines : ∀ p ∈ e.members.entries, p.2.lines ≠ [] → IsReplacement p.2.lines
  signatures : ∀ p ∈ e.members.entries, (Declaration.trimSignature p.1).head? ≠ some '/'

instance (e : Entry) : Decidable e.IsDocumented :=
  decidable_of_iff
    ((e.classLines ≠ [] → IsReplacement e.classLines) ∧
      (∀ p ∈ e.members.entries, p.2.lines ≠ [] → IsReplacement p.2.lines) ∧
      ∀ p ∈ e.members.entries, (Declaration.trimSignature p.1).head? ≠ some '/')
    ⟨fun ⟨h₁, h₂, h₃⟩ => ⟨h₁, h₂, h₃⟩, fun ⟨h₁, h₂, h₃⟩ => ⟨h₁, h₂, h₃⟩⟩

/-- What the line of a short description is made of. -/
theorem eq_of_mem_shortLines {short line : Text} (h : line ∈ shortLines short) :
    line = Declaration.memberIndent ++ ['/', '/', ' '] ++
      [' '].intercalate (words (stripEscapes short)) := by
  rw [shortLines] at h
  split at h
  · exact absurd h List.not_mem_nil
  · next word more hwords => rw [List.mem_singleton.mp h, hwords]

theorem isRemark_of_mem_shortLines {short line : Text} (h : line ∈ shortLines short) :
    IsRemark line := ⟨_, eq_of_mem_shortLines h⟩

theorem Declaration.isCode_of_member? {signature : Text} {d : Declaration}
    (h : member? signature = some d) (hslash : (trimSignature signature).head? ≠ some '/') :
    d.IsCode := by
  obtain ⟨hne, rfl⟩ := member?_eq_some_iff.mp h
  obtain ⟨c, rest, hcons⟩ := List.exists_cons_of_ne_nil hne
  rw [hcons] at hslash ⊢
  exact ⟨c, rfl, fun hc => hslash (congrArg some hc)⟩

theorem Declaration.member?_eq_ofMember {signature : Text} {d : Declaration}
    (h : member? signature = some d) : d = ofMember (trimSignature signature) :=
  (member?_eq_some_iff.mp h).2

/-- **The items of a documented entry are sound.** -/
theorem Entry.IsDocumented.isSound {e : Entry} (h : e.IsDocumented) (symbol : Text) :
    ∀ item ∈ e.items symbol, item.IsSound := by
  intro item hitem
  rcases Entry.eq_of_mem_items hitem with ⟨hlines, rfl⟩ | ⟨p, hp, hlines, d, hd, rfl⟩
  · have hblock := (h.classLines hlines).2
    refine ⟨trivial, ?_, by simp⟩
    rwa [← funext (Declaration.opensBlock_ofClass symbol)] at hblock
  · have hblock := (h.memberLines p hp hlines).2
    refine ⟨Declaration.isCode_of_member? hd (h.signatures p hp), ?_,
      fun line hline => isRemark_of_mem_shortLines hline⟩
    obtain rfl := Declaration.member?_eq_ofMember hd
    have hindented := hblock.map (opensBlock_indentLine (Declaration.trimSignature p.1))
      (fun _ => closesBlock_indentLine) contains_closing_indentLine
    rwa [List.map_map] at hindented

/-! ### Line feeds -/

/-- The words of a text hold no blank. -/
theorem isBlank_of_mem_words {c : Char} {s word : Text} (h : word ∈ words s) (hc : c ∈ word) :
    isBlank c = false :=
  cuts_eq_false_of_mem_pieces (List.mem_filter.mp h).1 hc

/-- A short description is put on one line, whatever it holds, and with no blanks but spaces. -/
theorem not_mem_of_mem_shortLines {short line : Text} {c : Char} (h : line ∈ shortLines short)
    (hblank : isBlank c = true) (hspace : c ≠ ' ') : c ∉ line := by
  have hslash : c ≠ '/' := by
    rintro rfl
    exact absurd hblank (by decide)
  have hwords : c ∉ [' '].intercalate (words (stripEscapes short)) := by
    intro hmem
    rcases mem_of_mem_intercalate hmem with hsep | ⟨word, hword, hmem⟩
    · exact hspace (List.mem_singleton.mp hsep)
    · exact absurd (isBlank_of_mem_words hword hmem) (by simp [hblank])
  rw [eq_of_mem_shortLines h]
  simp [Declaration.memberIndent, hslash, hspace, hwords]

theorem not_mem_indentLine {line : Text} (h : '\n' ∉ line) : '\n' ∉ indentLine line := by
  rw [indentLine]
  split
  · exact List.not_mem_nil
  · rw [List.mem_append]
    rintro (hmem | hmem)
    · exact absurd hmem (by decide)
    · exact h hmem

/-- **No line that a documented entry puts into a file holds a line feed.** -/
theorem Entry.IsDocumented.not_mem_block {e : Entry} (h : e.IsDocumented) (symbol : Text) :
    ∀ item ∈ e.items symbol, ∀ line ∈ item.block, '\n' ∉ line := by
  intro item hitem line hline
  rcases Entry.eq_of_mem_items hitem with ⟨hlines, rfl⟩ | ⟨p, hp, hlines, d, hd, rfl⟩
  · rw [Item.block, List.append_nil] at hline
    obtain ⟨source, hsource, rfl⟩ := List.mem_map.mp hline
    have hclean := (h.classLines hlines).1 source hsource
    exact fun hmem => hclean ((stripEscapes_sublist source).subset hmem)
  · rcases List.mem_append.mp hline with hline | hline
    · obtain ⟨source, hsource, rfl⟩ := List.mem_map.mp hline
      have hclean := (h.memberLines p hp hlines).1 source hsource
      exact not_mem_indentLine fun hmem => hclean ((stripEscapes_sublist source).subset hmem)
    · exact not_mem_of_mem_shortLines hline (by decide) (by decide)

end DocBlocks
