import DocBlocks.Text.LineEnding

/-!
# Normalized Texts

A text is normalized if there is no carriage return in it. Normalizing makes any text so, and
leaves a normalized text as it is.

Normalizing writes a text in two steps, but what it does can be said going through the text once,
as a carriage return is looked at together with the character behind it. `lineEnd_induction` goes
through a text in the same way, so that what is proved of normalized texts need not speak of the
two steps. Nor need the text be gone through twice to normalize it (`feedLineEnds`). So texts that
are put together can as well be normalized before that, unless the carriage return at the end of one
and the line feed at the start of the next are one line ending.

## Main results

* `normalize_of_not_mem`, `not_mem_normalize`: normalized texts.
* `normalize_append_of_not_joins`: texts put together.
* `normalize_onePass`: normalizing as one reading.
-/

namespace DocBlocks.Text

/-- **Going through a text by its line ends**: a carriage return that has a line feed behind it is
taken together with that. -/
theorem lineEnd_induction {motive : Text → Prop} (nil : motive [])
    (returnFeed : ∀ rest, motive rest → motive ('\r' :: '\n' :: rest))
    (loneReturn : ∀ rest, rest.head? ≠ some '\n' → motive rest → motive ('\r' :: rest))
    (other : ∀ c rest, c ≠ '\r' → motive rest → motive (c :: rest)) (s : Text) : motive s := by
  suffices h : ∀ done s : Text, motive s from h [] s
  intro done s
  fun_induction collapseOnto done s with
  | case1 => exact nil
  | case2 _ rest ih => exact returnFeed rest ih
  | case3 _ c rest h ih =>
      by_cases hc : c = '\r'
      · subst hc
        refine loneReturn rest (fun hhead => ?_) ih
        obtain ⟨more, rfl⟩ := List.head?_eq_some_iff.mp hhead
        exact h more rfl rfl
      · exact other c rest hc ih

theorem feedForReturn_ne_return (c : Char) : feedForReturn c ≠ '\r' := by
  rw [feedForReturn]
  split
  · decide
  · next h => exact h

/-- No carriage return is left by normalizing. -/
theorem not_mem_normalize (s : Text) : '\r' ∉ normalize s := by
  intro h
  obtain ⟨c, -, hc⟩ := List.mem_map.mp h
  exact feedForReturn_ne_return c hc

theorem collapse_of_not_mem {s : Text} (h : '\r' ∉ s) : collapse s = s := by
  induction s with
  | nil => rfl
  | cons c s ih =>
      have hc : c ≠ '\r' := fun hc => h (hc ▸ List.mem_cons_self)
      rw [collapse_cons fun heq => absurd heq hc, ih fun hmem => h (List.mem_cons_of_mem _ hmem)]

/-- A text without carriage returns is normalized. -/
theorem normalize_of_not_mem {s : Text} (h : '\r' ∉ s) : normalize s = s := by
  have hfeed : ∀ c ∈ s, feedForReturn c = c := by
    intro c hc
    rw [feedForReturn, if_neg (ne_of_mem_of_not_mem hc h)]
  rw [normalize, collapse_of_not_mem h, List.map_congr_left hfeed, List.map_id']

/-! ### Normalizing in one go -/

theorem normalize_returnFeed (s : Text) : normalize ('\r' :: '\n' :: s) = '\n' :: normalize s := by
  rw [normalize, collapse_crlf]
  rfl

theorem normalize_loneReturn {s : Text} (h : s.head? ≠ some '\n') :
    normalize ('\r' :: s) = '\n' :: normalize s := by
  rw [normalize, collapse_cons fun _ => h]
  rfl

theorem normalize_cons {c : Char} (h : c ≠ '\r') (s : Text) :
    normalize (c :: s) = c :: normalize s := by
  rw [normalize, collapse_cons fun hc => absurd hc h, List.map_cons, feedForReturn, if_neg h]
  rfl

/-! ### Reading a text once -/

/-- Reads a text once, from left to right, and writes `\n` for each `\r\n` and for each `\r` that
has no `\n` behind it, and every other character as it is. -/
def feedLineEnds : Text → Text
  | [] => []
  | '\r' :: '\n' :: s => '\n' :: feedLineEnds s
  | '\r' :: s => '\n' :: feedLineEnds s
  | c :: s => c :: feedLineEnds s

theorem feedLineEnds_loneReturn {s : Text} (h : s.head? ≠ some '\n') :
    feedLineEnds ('\r' :: s) = '\n' :: feedLineEnds s := by
  refine feedLineEnds.eq_3 s ?_
  rintro rest rfl
  exact h rfl

theorem feedLineEnds_cons {c : Char} (h : c ≠ '\r') (s : Text) :
    feedLineEnds (c :: s) = c :: feedLineEnds s :=
  feedLineEnds.eq_4 c s (fun _ hc _ => h hc) h

/-- Normalizing in two steps comes to the same as reading a text once. -/
theorem normalize_eq_feedLineEnds (s : Text) : normalize s = feedLineEnds s := by
  induction s using lineEnd_induction with
  | nil => rfl
  | returnFeed rest ih => rw [normalize_returnFeed, ih, feedLineEnds]
  | loneReturn rest hhead ih =>
      rw [normalize_loneReturn hhead, ih, feedLineEnds_loneReturn hhead]
  | other c rest hc ih => rw [normalize_cons hc, ih, feedLineEnds_cons hc]

/-- Whether a carriage return at the end of a text and a line feed at the start of the next one come
together. -/
def JoinsReturnFeed (s t : Text) : Prop := s.getLast? = some '\r' ∧ t.head? = some '\n'

variable {s t : Text}

theorem joinsReturnFeed_cons_iff {c : Char} (h : c = '\r' → s ≠ []) :
    JoinsReturnFeed (c :: s) t ↔ JoinsReturnFeed s t := by
  cases s with
  | nil => simp_all [JoinsReturnFeed]
  | cons d s => rw [JoinsReturnFeed, List.getLast?_cons_cons, JoinsReturnFeed]

/-- Texts are normalized one after the other where no `\r\n` is cut in two. -/
theorem normalize_append_of_not_joins (h : ¬JoinsReturnFeed s t) :
    normalize (s ++ t) = normalize s ++ normalize t := by
  induction s using lineEnd_induction with
  | nil => rfl
  | returnFeed rest ih =>
      have hrest : ¬JoinsReturnFeed rest t := by
        rwa [joinsReturnFeed_cons_iff (by simp), joinsReturnFeed_cons_iff (by simp)] at h
      rw [List.cons_append, List.cons_append, normalize_returnFeed, normalize_returnFeed, ih hrest,
        List.cons_append]
  | loneReturn rest hhead ih =>
      by_cases hnil : rest = []
      · subst hnil
        have ht : t.head? ≠ some '\n' := fun ht => h ⟨rfl, ht⟩
        rw [List.singleton_append, normalize_loneReturn ht, normalize_loneReturn hhead]
        rfl
      · have happend : (rest ++ t).head? ≠ some '\n' := by
          obtain ⟨c, more, rfl⟩ := List.exists_cons_of_ne_nil hnil
          exact hhead
        rw [joinsReturnFeed_cons_iff fun _ => hnil] at h
        rw [List.cons_append, normalize_loneReturn happend, normalize_loneReturn hhead, ih h,
          List.cons_append]
  | other c rest hc ih =>
      rw [joinsReturnFeed_cons_iff fun heq => absurd heq hc] at h
      rw [List.cons_append, normalize_cons hc, normalize_cons hc, ih h, List.cons_append]

/-- What stands before a text without a carriage return in it is not changed. -/
theorem normalize_append {line : Text} (h : '\r' ∉ line) (s : Text) :
    normalize (line ++ s) = line ++ normalize s := by
  rw [normalize_append_of_not_joins fun hjoins => h (List.mem_of_getLast? hjoins.1),
    normalize_of_not_mem h]

/-- Where a `\r\n` is cut in two, its parts are normalized to one line feed more than it is. -/
theorem length_normalize_of_joins (h : JoinsReturnFeed s t) :
    (normalize s ++ normalize t).length = (normalize (s ++ t)).length + 1 := by
  obtain ⟨before, rfl⟩ := List.getLast?_eq_some_iff.mp h.1
  obtain ⟨after, rfl⟩ := List.head?_eq_some_iff.mp h.2
  have hleft : normalize (before ++ ['\r']) = normalize before ++ ['\n'] :=
    normalize_append_of_not_joins fun hjoins => absurd hjoins.2 (by decide)
  have hright : normalize ('\n' :: after) = '\n' :: normalize after := normalize_cons (by decide) _
  have hboth : normalize (before ++ ['\r'] ++ '\n' :: after) =
      normalize before ++ '\n' :: normalize after := by
    rw [List.append_assoc, List.singleton_append, ← normalize_returnFeed]
    exact normalize_append_of_not_joins fun hjoins => absurd hjoins.2 (by simp)
  rw [hleft, hright, hboth]
  simp only [List.length_append, List.length_cons, List.length_nil]
  omega

/-- **Two steps and one.** Normalizing a text is reading it once and writing a line feed for each
line ending. No carriage return is left, so normalizing again changes nothing. Two texts can be
normalized one after the other exactly if there is no `\r\n` of which the first has the `\r` and the
second the `\n`. -/
theorem normalize_onePass :
    (∀ s, LineEndings.normalize.apply s = feedLineEnds s ∧
      '\r' ∉ LineEndings.normalize.apply s ∧
      LineEndings.normalize.apply (LineEndings.normalize.apply s) =
        LineEndings.normalize.apply s) ∧
    ∀ s t, LineEndings.normalize.apply (s ++ t) =
        LineEndings.normalize.apply s ++ LineEndings.normalize.apply t ↔
      ¬(s.getLast? = some '\r' ∧ t.head? = some '\n') := by
  refine ⟨fun s => ⟨normalize_eq_feedLineEnds s, not_mem_normalize s,
    normalize_of_not_mem (not_mem_normalize s)⟩, fun s t => ⟨fun heq hjoins => ?_,
      normalize_append_of_not_joins⟩⟩
  have hlength := length_normalize_of_joins hjoins
  have heq : normalize (s ++ t) = normalize s ++ normalize t := heq
  rw [heq] at hlength
  omega

end DocBlocks.Text
