import DocBlocks.Param.Section

/-!
# The Layout of a File

A file is laid out in parameter sections one after the other, the last of which need not come
to its end. A section is a stretch of lines up to an opening marker, a stretch up to a heading,
and a stretch of parameter lines up to a closing marker. The same text means different things
in different stretches: each of them is free of the one marker that ends it and of no other, so
that an opening marker among parameter lines, say, is a parameter line.

Reading a file line by line builds its layout from the left (`Layout.push`), and the mode of
the reading is where the layout has got to. Reading the lines of a layout gives the layout back
(`Layout.ofLines_lines`), so no two layouts have the same lines.

## Main results

* `Layout.linesWith_push`, `Layout.mode_push`: what one line adds to a layout.
* `Layout.ofLines_lines`, `Layout.lines_ofLines`: layouts and lists of lines are two spellings
  of the same thing.
* `exists_unique_layout`: every list of lines has exactly one layout, and it tells what becomes of
  the lines and in which mode the reading ends.
-/

namespace DocBlocks

open Text

/-! ### Stretches and markers -/

/-- Lines before a marker: none of them is that marker, blanks at its ends aside. -/
@[ext] structure Stretch (marker : Text) where
  /-- The lines. -/
  lines : List Text
  /-- None of them is the marker. -/
  ne_marker : ∀ line ∈ lines, trim line ≠ marker

namespace Stretch

variable {marker line : Text}

/-- No lines. -/
def empty : Stretch marker := ⟨[], fun _ h => absurd h List.not_mem_nil⟩

/-- Lines with more lines behind them. -/
def append (s more : Stretch marker) : Stretch marker :=
  ⟨s.lines ++ more.lines, fun line h =>
    (List.mem_append.mp h).elim (s.ne_marker line) (more.ne_marker line)⟩

/-- Lines with one line behind them. -/
def push (s : Stretch marker) (line : Text) (h : trim line ≠ marker) : Stretch marker :=
  s.append ⟨[line], fun _ hmem => List.mem_singleton.mp hmem ▸ h⟩

@[simp] theorem lines_empty : (empty : Stretch marker).lines = [] := rfl

@[simp] theorem lines_append (s more : Stretch marker) :
    (s.append more).lines = s.lines ++ more.lines := rfl

@[simp] theorem lines_push (s : Stretch marker) (h : trim line ≠ marker) :
    (s.push line h).lines = s.lines ++ [line] := rfl

@[simp] theorem empty_append (s : Stretch marker) : empty.append s = s := rfl

@[simp] theorem append_empty (s : Stretch marker) : s.append empty = s := by
  ext1
  rw [lines_append, lines_empty, List.append_nil]

end Stretch

/-- A line that is a marker, blanks at its ends aside. -/
structure MarkerLine (marker : Text) where
  /-- The line. -/
  line : Text
  /-- It is the marker. -/
  trim_eq : trim line = marker

/-! ### Sections and layouts -/

/-- A section up to some place before its closing marker. -/
inductive OpenSection where
  /-- It is cut before its opening marker. -/
  | outside (lead : Stretch Comment.opening)
  /-- It is cut before its heading. -/
  | inComment (lead : Stretch Comment.opening) (opening : MarkerLine Comment.opening)
      (body : Stretch Mode.heading)
  /-- It is cut before its closing marker. -/
  | inParams (lead : Stretch Comment.opening) (opening : MarkerLine Comment.opening)
      (body : Stretch Mode.heading) (heading : MarkerLine Mode.heading)
      (params : Stretch Comment.closing)

/-- A section with all that comes before it. -/
structure ParamSection where
  /-- The lines before the comment. -/
  lead : Stretch Comment.opening
  /-- The line that opens the comment. -/
  opening : MarkerLine Comment.opening
  /-- The lines of the comment before the heading. -/
  body : Stretch Mode.heading
  /-- The heading. -/
  heading : MarkerLine Mode.heading
  /-- The parameter lines. -/
  params : Stretch Comment.closing
  /-- The line that closes the comment. -/
  closing : MarkerLine Comment.closing

/-- The sections of a file that are complete, and what is left behind them. -/
structure Layout where
  /-- The complete sections. -/
  sections : List ParamSection
  /-- The last section, which is not complete. -/
  rest : OpenSection

/-- The lines of a section with its parameter lines changed. -/
def OpenSection.linesWith (change : Text → Text) : OpenSection → List Text
  | outside lead => lead.lines
  | inComment lead opening body => lead.lines ++ opening.line :: body.lines
  | inParams lead opening body heading params =>
    lead.lines ++ opening.line :: (body.lines ++ heading.line :: params.lines.map change)

/-- Where a section has been cut. -/
def OpenSection.mode : OpenSection → Mode
  | outside _ => .outside
  | inComment _ _ _ => .inComment
  | inParams _ _ _ _ _ => .inParams

/-- A complete section before its closing marker. -/
def ParamSection.init (s : ParamSection) : OpenSection :=
  .inParams s.lead s.opening s.body s.heading s.params

/-- The lines of a complete section with its parameter lines changed. -/
def ParamSection.linesWith (change : Text → Text) (s : ParamSection) : List Text :=
  s.init.linesWith change ++ [s.closing.line]

/-- What becomes of a parameter line. The separator of paragraphs stays as it is. -/
def tagUnlessSeparator (names : NameCharset) (line : Text) : Text :=
  if trim line = Mode.separator then line else tagLine names line

namespace Layout

/-- The lines of a file with the parameter lines of all its sections changed. -/
def linesWith (change : Text → Text) (l : Layout) : List Text :=
  l.sections.flatMap (ParamSection.linesWith change) ++ l.rest.linesWith change

/-- The lines of a file. -/
def lines (l : Layout) : List Text := l.linesWith id

/-- The lines of a file with all parameter lines in tagged form. -/
def tagged (names : NameCharset) (l : Layout) : List Text :=
  l.linesWith (tagUnlessSeparator names)

/-- Where the last section has been cut. -/
def mode (l : Layout) : Mode := l.rest.mode

/-- The layout of no lines. -/
def empty : Layout := ⟨[], .outside .empty⟩

/-- The layout with one line more. -/
def push (l : Layout) (line : Text) : Layout :=
  match l.rest with
  | .outside lead =>
    if h : trim line = Comment.opening then ⟨l.sections, .inComment lead ⟨line, h⟩ .empty⟩
    else ⟨l.sections, .outside (lead.push line h)⟩
  | .inComment lead opening body =>
    if h : trim line = Mode.heading then
      ⟨l.sections, .inParams lead opening body ⟨line, h⟩ .empty⟩
    else ⟨l.sections, .inComment lead opening (body.push line h)⟩
  | .inParams lead opening body heading params =>
    if h : trim line = Comment.closing then
      ⟨l.sections ++ [⟨lead, opening, body, heading, params, ⟨line, h⟩⟩], .outside .empty⟩
    else ⟨l.sections, .inParams lead opening body heading (params.push line h)⟩

/-- The layout of some lines. -/
def ofLines (lines : List Text) : Layout := lines.foldl push empty

end Layout

/-! ### One line more -/

/-- What a line becomes that is read in a mode, if parameter lines are changed. -/
def Mode.write (change : Text → Text) (mode : Mode) (line : Text) : Text :=
  match mode with
  | outside | inComment => line
  | inParams => if trim line = Comment.closing then line else change line

theorem Mode.write_id (mode : Mode) (line : Text) : mode.write id line = line := by
  cases mode with
  | outside => rfl
  | inComment => rfl
  | inParams => rw [Mode.write, id_eq, ite_self]

theorem Mode.write_tagUnlessSeparator (names : NameCharset) (mode : Mode) (line : Text) :
    mode.write (tagUnlessSeparator names) line = mode.tag names line := by
  cases mode with
  | outside => rfl
  | inComment => rfl
  | inParams =>
      rw [Mode.write, Mode.tag, tagUnlessSeparator]
      by_cases hclosing : trim line = Comment.closing
      · rw [if_pos hclosing, if_pos (Or.inl hclosing)]
      · simp only [hclosing, if_false, false_or]

namespace Layout

variable {l : Layout} {line : Text}

/-- **A line that is read** comes behind the lines of the layout. It is changed if it is a
parameter line. -/
theorem linesWith_push (change : Text → Text) (l : Layout) (line : Text) :
    (l.push line).linesWith change = l.linesWith change ++ [l.mode.write change line] := by
  obtain ⟨sections, rest⟩ := l
  cases rest with
  | outside lead =>
      by_cases h : trim line = Comment.opening
      · simp [push, h, linesWith, OpenSection.linesWith, mode, OpenSection.mode, Mode.write]
      · simp [push, h, linesWith, OpenSection.linesWith, mode, OpenSection.mode, Mode.write]
  | inComment lead opening body =>
      by_cases h : trim line = Mode.heading
      · simp [push, h, linesWith, OpenSection.linesWith, mode, OpenSection.mode, Mode.write]
      · simp [push, h, linesWith, OpenSection.linesWith, mode, OpenSection.mode, Mode.write]
  | inParams lead opening body heading params =>
      by_cases h : trim line = Comment.closing
      · simp [push, h, linesWith, ParamSection.linesWith, ParamSection.init,
          OpenSection.linesWith, mode, OpenSection.mode, Mode.write]
      · simp [push, h, linesWith, OpenSection.linesWith, mode, OpenSection.mode, Mode.write]

/-- It changes the mode as reading it does. -/
theorem mode_push (l : Layout) (line : Text) : (l.push line).mode = l.mode.next line := by
  obtain ⟨sections, rest⟩ := l
  cases rest with
  | outside lead =>
      by_cases h : trim line = Comment.opening
      · simp [push, h, mode, OpenSection.mode, Mode.next]
      · simp [push, h, mode, OpenSection.mode, Mode.next]
  | inComment lead opening body =>
      by_cases h : trim line = Mode.heading
      · simp [push, h, mode, OpenSection.mode, Mode.next]
      · simp [push, h, mode, OpenSection.mode, Mode.next]
  | inParams lead opening body heading params =>
      by_cases h : trim line = Comment.closing
      · simp [push, h, mode, OpenSection.mode, Mode.next]
      · simp [push, h, mode, OpenSection.mode, Mode.next]

/-! ### All lines -/

theorem lines_foldl_push (l : Layout) (lines : List Text) :
    (lines.foldl push l).lines = l.lines ++ lines := by
  induction lines generalizing l with
  | nil => rw [List.foldl_nil, List.append_nil]
  | cons line rest ih =>
      have hpush : (l.push line).lines = l.lines ++ [line] := by
        rw [Layout.lines, linesWith_push, Mode.write_id, Layout.lines]
      rw [List.foldl_cons, ih, hpush, List.append_assoc, List.singleton_append]

theorem tagged_foldl_push (names : NameCharset) (l : Layout) (lines : List Text) :
    (lines.foldl push l).tagged names = l.tagged names ++ tagLines names l.mode lines := by
  induction lines generalizing l with
  | nil => rw [List.foldl_nil, tagLines, List.append_nil]
  | cons line rest ih =>
      have hpush : (l.push line).tagged names = l.tagged names ++ [l.mode.tag names line] := by
        rw [Layout.tagged, linesWith_push, Mode.write_tagUnlessSeparator, Layout.tagged]
      rw [List.foldl_cons, ih, hpush, mode_push, tagLines, List.append_assoc,
        List.singleton_append]

theorem mode_foldl_push (l : Layout) (lines : List Text) :
    (lines.foldl push l).mode = modeAfter l.mode lines := by
  induction lines generalizing l with
  | nil => rfl
  | cons line rest ih => rw [List.foldl_cons, ih, mode_push, modeAfter, modeAfter, List.foldl_cons]

/-- Every list of lines is that of a layout. -/
theorem lines_ofLines (lines : List Text) : (ofLines lines).lines = lines := by
  rw [ofLines, lines_foldl_push]
  rfl

theorem tagged_ofLines (names : NameCharset) (lines : List Text) :
    (ofLines lines).tagged names = tagLines names .outside lines := by
  rw [ofLines, tagged_foldl_push]
  rfl

theorem mode_ofLines (lines : List Text) : (ofLines lines).mode = modeAfter .outside lines := by
  rw [ofLines, mode_foldl_push]
  rfl

/-! ### Reading the lines of a layout -/

/-- A stretch of lines is read as one, if each of its lines is read as a part of it. `cut` says
which part of the section the stretch is. -/
theorem foldl_push_stretch {marker : Text} {done : List ParamSection}
    (cut : Stretch marker → OpenSection)
    (hpush : ∀ (s : Stretch marker) (line : Text) (h : trim line ≠ marker),
      push ⟨done, cut s⟩ line = ⟨done, cut (s.push line h)⟩)
    (s more : Stretch marker) :
    more.lines.foldl push ⟨done, cut s⟩ = ⟨done, cut (s.append more)⟩ := by
  obtain ⟨lines, hlines⟩ := more
  induction lines generalizing s with
  | nil => exact congrArg (fun t => Layout.mk done (cut t)) s.append_empty.symm
  | cons line rest ih =>
      have hline : trim line ≠ marker := hlines line List.mem_cons_self
      rw [List.foldl_cons, hpush s line hline,
        ih (s.push line hline) fun l hl => hlines l (List.mem_cons_of_mem _ hl)]
      refine congrArg (fun t => Layout.mk done (cut t)) ?_
      ext1
      simp

/-- Reading the lines of a section that is not complete gives that section. -/
theorem foldl_push_open (done : List ParamSection) (rest : OpenSection) :
    (rest.linesWith id).foldl push ⟨done, .outside .empty⟩ = ⟨done, rest⟩ := by
  have hlead : ∀ lead : Stretch Comment.opening,
      lead.lines.foldl push ⟨done, .outside .empty⟩ = ⟨done, .outside lead⟩ := fun lead =>
    foldl_push_stretch .outside (fun s line h => by simp [push, h]) .empty lead
  have hbody : ∀ lead opening (body : Stretch Mode.heading),
      body.lines.foldl push ⟨done, .inComment lead opening .empty⟩ =
        ⟨done, .inComment lead opening body⟩ := fun lead opening body =>
    foldl_push_stretch (.inComment lead opening) (fun s line h => by simp [push, h]) .empty body
  have hparams : ∀ lead opening body heading (params : Stretch Comment.closing),
      params.lines.foldl push ⟨done, .inParams lead opening body heading .empty⟩ =
        ⟨done, .inParams lead opening body heading params⟩ :=
    fun lead opening body heading params =>
      foldl_push_stretch (.inParams lead opening body heading)
        (fun s line h => by simp [push, h]) .empty params
  have hopening : ∀ lead (opening : MarkerLine Comment.opening),
      push ⟨done, .outside lead⟩ opening.line = ⟨done, .inComment lead opening .empty⟩ :=
    fun lead opening => by simp [push, opening.trim_eq]
  have hheading : ∀ lead opening body (heading : MarkerLine Mode.heading),
      push ⟨done, .inComment lead opening body⟩ heading.line =
        ⟨done, .inParams lead opening body heading .empty⟩ :=
    fun lead opening body heading => by simp [push, heading.trim_eq]
  cases rest with
  | outside lead => exact hlead lead
  | inComment lead opening body =>
      rw [OpenSection.linesWith, List.foldl_append, hlead, List.foldl_cons, hopening, hbody]
  | inParams lead opening body heading params =>
      rw [OpenSection.linesWith, List.map_id, List.foldl_append, hlead, List.foldl_cons,
        hopening, List.foldl_append, hbody, List.foldl_cons, hheading, hparams]

/-- Reading the lines of a complete section gives that section. -/
theorem foldl_push_section (done : List ParamSection) (s : ParamSection) :
    (s.linesWith id).foldl push ⟨done, .outside .empty⟩ = ⟨done ++ [s], .outside .empty⟩ := by
  rw [ParamSection.linesWith, List.foldl_append, foldl_push_open, List.foldl_cons,
    List.foldl_nil, ParamSection.init]
  simp [push, s.closing.trim_eq]

theorem foldl_push_sections (done more : List ParamSection) :
    (more.flatMap (ParamSection.linesWith id)).foldl push ⟨done, .outside .empty⟩ =
      ⟨done ++ more, .outside .empty⟩ := by
  induction more generalizing done with
  | nil => rw [List.flatMap_nil, List.foldl_nil, List.append_nil]
  | cons s more ih =>
      rw [List.flatMap_cons, List.foldl_append, foldl_push_section, ih, List.append_assoc,
        List.singleton_append]

/-- **Reading the lines of a layout gives the layout back.** -/
theorem ofLines_lines (l : Layout) : ofLines l.lines = l := by
  rw [ofLines, lines, linesWith, empty, List.foldl_append, foldl_push_sections,
    foldl_push_open, List.nil_append]

end Layout

theorem length_tagLines (names : NameCharset) (mode : Mode) (lines : List Text) :
    (tagLines names mode lines).length = lines.length := by
  induction lines generalizing mode with
  | nil => rfl
  | cons line rest ih => rw [tagLines, List.length_cons, List.length_cons, ih]

/-- **Every list of lines has exactly one layout**: it can be written in one way only as complete
sections and a section that is cut before its closing marker. What becomes of the lines is that
each parameter line of each section, the last one included, is tagged unless it separates
paragraphs, and the mode in which the reading ends is that in which the last section is cut. -/
theorem exists_unique_layout (names : NameCharset) (lines : List Text) :
    ∃ layout : Layout, (∀ other : Layout, other.lines = lines ↔ other = layout) ∧
      tagLines names .outside lines = layout.tagged names ∧
      (tagLines names .outside lines).length = lines.length ∧
      modeAfter .outside lines = layout.mode := by
  refine ⟨Layout.ofLines lines, fun other => ?_, (Layout.tagged_ofLines names lines).symm,
    length_tagLines names .outside lines, (Layout.mode_ofLines lines).symm⟩
  constructor
  · rintro rfl
    exact other.ofLines_lines.symm
  · rintro rfl
    exact Layout.lines_ofLines lines

end DocBlocks
