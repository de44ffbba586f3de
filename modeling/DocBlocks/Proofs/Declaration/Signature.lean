import DocBlocks.Proofs.Declaration.Line
import DocBlocks.Proofs.Text.Trim

/-!
# The Normal Form of a Signature

The signature of a member is wanted without the blanks and semicolons that may follow it. Where
these end a signature they stand in a run, in any order, and the normal form is what comes before
the whole run (`bareSignature`). A signature is trimmed in three steps, though: blanks, then
semicolons, then blanks. That is enough for blanks on both sides of semicolons, and not enough if
there are semicolons on both sides of a blank. So what is kept is the normal form exactly if no
blank stands between two semicolons of the run (`keepsNormalForm_iff`).

## Main results

* `trimSignature_eq_append`: what is kept of a signature.
* `trimSignature_eq_bareSignature_iff`: when that is the normal form.
* `keepsNormalForm_iff`: what follows for members, and that it fails otherwise.
-/

namespace DocBlocks

open Text

/-! ### The end of a signature -/

namespace Declaration

variable {signature run : Text} {c : Char} {d : Declaration}

/-- Whether a character is a semicolon. -/
def isSemicolon (c : Char) : Bool := c == ';'

/-- Whether a character is not wanted at the end of a signature: a blank or a semicolon. -/
def endsSignature (c : Char) : Bool := isBlank c || isSemicolon c

/-- A signature without the blanks it starts with, and without the longest run of blanks and
semicolons at its end. -/
def bareSignature (signature : Text) : Text := dropEndWhile endsSignature (trimStart signature)

/-- The longest run of blanks and semicolons at the end of a signature, when the blanks it starts
with are gone. -/
def signatureEnd (signature : Text) : Text := (trimStart signature).rtakeWhile endsSignature

/-- Whether a blank stands between two semicolons. -/
def SemicolonsApart (run : Text) : Prop :=
  ∃ before c after, run = before ++ c :: after ∧ isBlank c = true ∧ ';' ∈ before ∧ ';' ∈ after

/-- What the three steps of trimming leave of a text. -/
def trimRun (run : Text) : Text := trimEnd (dropEndWhile isSemicolon (trimEnd run))

theorem isSemicolon_eq_true_iff : isSemicolon c = true ↔ c = ';' := beq_iff_eq

theorem endsSignature_eq_true_iff : endsSignature c = true ↔ isBlank c = true ∨ c = ';' := by
  rw [endsSignature, Bool.or_eq_true, isSemicolon_eq_true_iff]

theorem ne_semicolon_of_isBlank (h : isBlank c = true) : c ≠ ';' := by
  rintro rfl
  exact absurd h (by decide)

theorem bareSignature_append_signatureEnd (signature : Text) :
    bareSignature signature ++ signatureEnd signature = trimStart signature :=
  List.rdropWhile_append_rtakeWhile

theorem dropEndWhile_bareSignature (signature : Text) :
    dropEndWhile endsSignature (bareSignature signature) = bareSignature signature :=
  List.rdropWhile_idempotent _ _

/-- The steps of trimming do nothing to a bare signature. -/
theorem trimRun_bareSignature_append (signature run : Text) :
    trimRun (bareSignature signature ++ run) = bareSignature signature ++ trimRun run := by
  have hblank : dropEndWhile isBlank (bareSignature signature) = bareSignature signature :=
    dropEndWhile_eq_self_of_imp (fun _ hc => endsSignature_eq_true_iff.mpr (.inl hc))
      (dropEndWhile_bareSignature signature)
  have hsemicolon : dropEndWhile isSemicolon (bareSignature signature) = bareSignature signature :=
    dropEndWhile_eq_self_of_imp
      (fun _ hc => endsSignature_eq_true_iff.mpr (.inr (isSemicolon_eq_true_iff.mp hc)))
      (dropEndWhile_bareSignature signature)
  rw [trimRun, trimEnd, trimEnd, dropEndWhile_append hblank, dropEndWhile_append hsemicolon,
    dropEndWhile_append hblank]
  rfl

/-- **What is kept of a signature**: the bare signature, and what three steps of trimming leave of
the run behind it. -/
theorem trimSignature_eq_append (signature : Text) :
    trimSignature signature = bareSignature signature ++ trimRun (signatureEnd signature) := by
  rw [← trimRun_bareSignature_append, bareSignature_append_signatureEnd]
  rfl

/-- A blank between two semicolons is not trimmed, and the semicolon before it is not either. -/
theorem trimRun_ne_nil_of_apart (h : SemicolonsApart run) : trimRun run ≠ [] := by
  obtain ⟨before, c, after, rfl, hc, hbefore, hafter⟩ := h
  obtain ⟨left, middle, rfl⟩ := List.append_of_mem hbefore
  obtain ⟨middle', right, rfl⟩ := List.append_of_mem hafter
  have hne : isSemicolon c = false := beq_eq_false_iff_ne.mpr (ne_semicolon_of_isBlank hc)
  have hcut (s t : Text) : trimEnd (s ++ ';' :: t) = s ++ ';' :: trimEnd t :=
    dropEndWhile_append_cons (by decide) s t
  have hfirst : trimEnd (left ++ ';' :: middle ++ c :: (middle' ++ ';' :: right)) =
      left ++ ';' :: middle ++ c :: (middle' ++ ';' :: trimEnd right) := by
    rw [← List.cons_append, ← List.append_assoc, hcut, List.append_assoc, List.cons_append]
  rw [trimRun, hfirst, dropEndWhile_append_cons hne, List.append_assoc, List.cons_append, hcut]
  exact List.append_ne_nil_of_right_ne_nil _ (List.cons_ne_nil _ _)

/-- What is left of a run ends with a semicolon. -/
theorem getLast?_trimRun (hrun : ∀ c ∈ run, endsSignature c = true) (h : trimRun run ≠ []) :
    (trimRun run).getLast? = some ';' := by
  obtain ⟨before, c, -, -, hkept, hc, -⟩ := exists_of_dropEndWhile_ne_nil h
  have hlast : trimRun run = before ++ [c] := hkept
  have hmem : c ∈ run := by
    have hthird : c ∈ trimRun run := hlast ▸ List.mem_concat_self
    have hsecond := (dropEndWhile_isPrefix isBlank _).subset hthird
    have hfirst := (dropEndWhile_isPrefix isSemicolon _).subset hsecond
    exact (dropEndWhile_isPrefix isBlank run).subset hfirst
  rw [hlast, List.getLast?_concat,
    (endsSignature_eq_true_iff.mp (hrun c hmem)).resolve_left (by simp [hc])]

/-- **What is left of a run** by three steps of trimming: nothing, exactly if no blank stands
between two semicolons. -/
theorem trimRun_eq_nil_iff (hrun : ∀ c ∈ run, endsSignature c = true) :
    trimRun run = [] ↔ ¬SemicolonsApart run := by
  refine ⟨fun hnil hapart => trimRun_ne_nil_of_apart hapart hnil, fun h => ?_⟩
  by_contra hthird
  -- Each of the steps leaves something, and the last that it leaves is nothing that it trims: a
  -- semicolon, then a blank behind it, and then a semicolon behind that.
  have hleft : ';' ∈ dropEndWhile isSemicolon (trimEnd run) :=
    (dropEndWhile_isPrefix isBlank _).subset (List.mem_of_getLast? (getLast?_trimRun hrun hthird))
  obtain ⟨before, c, after, hfirst, hkept, hc, hafter⟩ :=
    exists_of_dropEndWhile_ne_nil (List.ne_nil_of_mem hleft)
  have hne : trimEnd run ≠ [] := by simp [hfirst]
  obtain ⟨before', e, blanks, hsplit, hkept', he, -⟩ := exists_of_dropEndWhile_ne_nil hne
  have hlast : trimEnd run = before' ++ [e] := hkept'
  have hrest : run = before ++ c :: (after ++ blanks) := by
    rw [hsplit, ← List.cons_append, ← List.append_assoc, ← hfirst, hlast, List.append_assoc,
      List.singleton_append]
  have hblank : isBlank c = true :=
    (endsSignature_eq_true_iff.mp (hrun c (by simp [hrest]))).resolve_right
      (beq_eq_false_iff_ne.mp hc)
  have hbefore : ';' ∈ before := by
    rw [hkept] at hleft
    rcases List.mem_append.mp hleft with hmem | hmem
    · exact hmem
    · exact absurd (List.mem_singleton.mp hmem).symm (ne_semicolon_of_isBlank hblank)
  have hbehind : ';' ∈ after := by
    cases after with
    | nil =>
        obtain ⟨-, hce⟩ := List.append_inj' (hfirst.symm.trans hlast) rfl
        rw [List.singleton_inj.mp hce, he] at hblank
        exact absurd hblank Bool.false_ne_true
    | cons b after =>
        rw [isSemicolon_eq_true_iff.mp (hafter b List.mem_cons_self)]
        exact List.mem_cons_self
  exact h ⟨before, c, after ++ blanks, hrest, hblank, hbefore, List.mem_append_left _ hbehind⟩

/-! ### The normal form -/

theorem trimSignature_eq_bareSignature_iff (signature : Text) :
    trimSignature signature = bareSignature signature ↔
      ¬SemicolonsApart (signatureEnd signature) := by
  rw [trimSignature_eq_append, List.append_right_eq_self]
  exact trimRun_eq_nil_iff fun c => List.mem_rtakeWhile_imp

/-- Nothing is left of a signature if it is all blanks and semicolons. -/
theorem bareSignature_eq_nil_iff (signature : Text) :
    bareSignature signature = [] ↔ ∀ c ∈ signature, endsSignature c = true := by
  have hstart : ∀ c ∈ signature.takeWhile isBlank, endsSignature c = true := fun c hc =>
    endsSignature_eq_true_iff.mpr (.inl (List.mem_takeWhile_imp hc))
  rw [bareSignature, dropEndWhile_eq_rdropWhile, List.rdropWhile_eq_nil_iff]
  conv_rhs => rw [← takeWhile_append_trimStart signature, List.forall_mem_append]
  exact (and_iff_right hstart).symm

/-- A bare signature ends with no blank and with no semicolon. -/
theorem endsSignature_of_getLast? (h : (bareSignature signature).getLast? = some c) :
    endsSignature c = false := by
  have hne : bareSignature signature ≠ [] := by
    intro hnil
    rw [hnil] at h
    exact Option.some_ne_none c h.symm
  rw [List.getLast?_eq_some_getLast hne] at h
  rw [← Option.some.inj h]
  exact Bool.eq_false_iff.mpr (List.rdropWhile_last_not _ _ hne)

/-- A bare signature starts with no blank. -/
theorem trimStart_bareSignature (signature : Text) :
    trimStart (bareSignature signature) = bareSignature signature := by
  cases hbare : bareSignature signature with
  | nil => rfl
  | cons c rest =>
      have hstart : trimStart signature = c :: (rest ++ signatureEnd signature) := by
        rw [← bareSignature_append_signatureEnd, hbare, List.cons_append]
      have hhead := List.head?_dropWhile_not isBlank signature
      rw [← trimStart, hstart] at hhead
      exact List.dropWhile_cons_of_neg (by simpa using hhead)

/-- **A bare signature** is kept as it is. -/
theorem trimSignature_bareSignature (signature : Text) :
    trimSignature (bareSignature signature) = bareSignature signature := by
  have h := trimRun_bareSignature_append signature []
  rw [List.append_nil] at h
  calc trimSignature (bareSignature signature)
      = trimRun (trimStart (bareSignature signature)) := rfl
    _ = bareSignature signature ++ trimRun [] := by rw [trimStart_bareSignature, h]
    _ = bareSignature signature := List.append_nil _

theorem member?_eq_none_iff : member? signature = none ↔ trimSignature signature = [] := by
  simp [member?]

theorem member?_eq_some_iff :
    member? signature = some d ↔
      trimSignature signature ≠ [] ∧ d = ofMember (trimSignature signature) := by
  rw [member?, Option.ite_none_left_eq_some, List.isEmpty_iff, Option.some.injEq, eq_comm (a := d)]

/-- Whether a signature is **brought to its normal form**: nothing can be looked for exactly if it
is all blanks and semicolons. Otherwise the bare signature is looked for, which ends with neither,
and of which nothing more is taken away. -/
def KeepsNormalForm (signature : Text) : Prop :=
  (member? signature = none ↔ ∀ c ∈ signature, endsSignature c = true) ∧
  ∀ d, member? signature = some d →
    d = ofMember (bareSignature signature) ∧
    (∀ c, (bareSignature signature).getLast? = some c → endsSignature c = false) ∧
    member? (bareSignature signature) = some d

theorem keepsNormalForm_iff_trimSignature_eq :
    KeepsNormalForm signature ↔ trimSignature signature = bareSignature signature := by
  constructor
  · rintro ⟨hnone, hsome⟩
    cases hmember : member? signature with
    | none =>
        rw [member?_eq_none_iff.mp hmember]
        exact ((bareSignature_eq_nil_iff signature).mpr (hnone.mp hmember)).symm
    | some d =>
        obtain ⟨hbare, -⟩ := hsome d hmember
        rw [(member?_eq_some_iff.mp hmember).2] at hbare
        exact ofMember.inj hbare
  · intro heq
    refine ⟨?_, fun d hd => ?_⟩
    · rw [member?_eq_none_iff, heq, bareSignature_eq_nil_iff]
    · obtain ⟨hne, rfl⟩ := member?_eq_some_iff.mp hd
      rw [heq] at hne ⊢
      refine ⟨rfl, fun c => endsSignature_of_getLast?, member?_eq_some_iff.mpr ?_⟩
      rw [trimSignature_bareSignature]
      exact ⟨hne, rfl⟩

/-- What is kept of a signature ends with a semicolon if more than the bare signature is kept. -/
theorem getLast?_trimSignature_eq_semicolon_iff :
    (trimSignature signature).getLast? = some ';' ↔ SemicolonsApart (signatureEnd signature) := by
  have hrun : ∀ c ∈ signatureEnd signature, endsSignature c = true :=
    fun c => List.mem_rtakeWhile_imp
  constructor
  · intro hlast
    by_contra hapart
    rw [(trimSignature_eq_bareSignature_iff signature).mpr hapart] at hlast
    exact absurd (endsSignature_of_getLast? hlast) (by decide)
  · intro hapart
    have hne := trimRun_ne_nil_of_apart hapart
    rw [trimSignature_eq_append, List.getLast?_append_of_ne_nil _ hne, getLast?_trimRun hrun hne]

/-- **When a signature is brought to its normal form**: exactly if no blank stands between two
semicolons of the run of blanks and semicolons at its end. If one does, what is kept of the
signature ends with a semicolon. -/
theorem keepsNormalForm_iff (signature : Text) :
    (KeepsNormalForm signature ↔ ¬SemicolonsApart (signatureEnd signature)) ∧
    ((trimSignature signature).getLast? = some ';' ↔ SemicolonsApart (signatureEnd signature)) :=
  ⟨keepsNormalForm_iff_trimSignature_eq.trans (trimSignature_eq_bareSignature_iff signature),
    getLast?_trimSignature_eq_semicolon_iff⟩

/-- **A signature may be kept with a semicolon at its end**: one that has a blank and another
semicolon behind it. -/
theorem not_forall_keepsNormalForm : ¬∀ signature : Text, KeepsNormalForm signature := by
  intro h
  obtain ⟨-, hsome⟩ := h "a; ;".toList
  obtain ⟨hbare, -⟩ := hsome (ofMember "a;".toList) (by decide)
  exact absurd hbare (by decide)

end Declaration

end DocBlocks
