import DocBlocks.Proofs.Injection.Item
import DocBlocks.Proofs.Keyed.Entries
import Mathlib.Data.List.Induction

/-!
# The Accounts of an Injection

Everything an entry asks for is either replaced or missed. The class is tried if there are lines
for it, and a member if there are lines for it and its signature is not blank. Whether a member
is found depends on the lines that are left by the class and by the members before it, so it is
looked for after an injection of those alone (`Entry.before`).

The accounts are kept member by member. Nothing is asked of the matcher: it may find one
declaration and not another, and answer differently for each state of the file.

## Main results

* `Entry.Accounts.member`: the accounts still hold after one member more.
* `Entry.accounts_inject`: they hold at the end of an injection.
* `Entry.inject_accounting`: what was replaced and what was missed add up to what was tried,
  what was missed is listed in the order of the signatures, and if nothing was replaced, the
  file is as it was.
-/

namespace DocBlocks

open Text

/-- Whether there is something to put above a member, and something to look for. -/
def MemberDoc.isTried (signature : Text) (m : MemberDoc) : Bool :=
  !m.lines.isEmpty && (Declaration.member? signature).isSome

namespace Entry

/-- The entry with only those members whose signature comes before a given one. -/
def before (e : Entry) (signature : Text) : Entry :=
  ⟨e.classLines, e.members.entries.filter fun p => compare p.1 signature == .lt,
    e.members.ascending.filter _⟩

/-- Whether the doc block of the class is found in a file. -/
def findsClass (find : Matcher) (symbol content : Text) : Bool :=
  (find (splitLines content) (.ofClass symbol)).isSome

/-- Whether the doc block of a member is found in what the class and the members before it leave
of a file. -/
def findsMember (e : Entry) (find : Matcher) (symbol content signature : Text) : Bool :=
  (Declaration.member? signature).any fun d =>
    (find ((e.before signature).inject find symbol content).lines d).isSome

/-- Whether a file into which the class and some members have been put accounts for them. -/
structure Accounts (e : Entry) (find : Matcher) (symbol content : Text)
    (members : List (Text × MemberDoc)) (done : Injected) : Prop where
  classReplaced : done.classReplaced = (!e.classLines.isEmpty && findsClass find symbol content)
  membersReplaced : done.membersReplaced = members.countP fun p =>
    p.2.isTried p.1 && e.findsMember find symbol content p.1
  missed : done.missed =
    (if !e.classLines.isEmpty && !findsClass find symbol content
      then [Declaration.classWord ++ [' '] ++ symbol] else []) ++
    (members.filter fun p => p.2.isTried p.1 && !e.findsMember find symbol content p.1).map
      fun p => symbol ++ ['.'] ++ p.1
  lines : done.replaced = 0 → done.lines = splitLines content

variable {e : Entry} {find : Matcher} {symbol content : Text}
  {members after : List (Text × MemberDoc)} {p : Text × MemberDoc} {done : Injected}

/-- The members before one of an entry are those in front of it. -/
theorem entries_before (h : e.members.entries = members ++ p :: after) :
    (e.before p.1).members.entries = members := by
  have hascending := e.members.ascending
  rw [h] at hascending
  have hfront : members.filter (fun q => compare q.1 p.1 == .lt) = members :=
    List.filter_eq_self.mpr fun q hq => beq_iff_eq.mpr (Keyed.lt_of_mem_before hascending q hq)
  have hback : (p :: after).filter (fun q => compare q.1 p.1 == .lt) = [] :=
    List.filter_eq_nil_iff.mpr fun q hq => by
      simpa using Keyed.not_lt_of_mem_after hascending q hq
  change e.members.entries.filter (fun q => compare q.1 p.1 == .lt) = members
  rw [h, List.filter_append, hfront, hback, List.append_nil]

/-! ### The class -/

theorem accounts_class :
    e.Accounts find symbol content []
      ((e.classRequests symbol).foldl (Injected.place find) (.ofLines (splitLines content))) := by
  rw [classRequests]
  cases hlines : e.classLines.isEmpty with
  | true =>
      refine ⟨?_, rfl, ?_, fun _ => rfl⟩
      · rw [hlines]
        rfl
      · rw [hlines]
        rfl
  | false =>
      cases hfind : find (splitLines content) (.ofClass symbol) with
      | none =>
          have hfinds : findsClass find symbol content = false := by rw [findsClass, hfind]; rfl
          refine ⟨?_, ?_, ?_, ?_⟩ <;>
            simp [Injected.place, Injected.ofLines, Injected.missed, Note.missed?, hfind, hfinds,
              hlines, Declaration.classWord]
      | some span =>
          have hfinds : findsClass find symbol content = true := by rw [findsClass, hfind]; rfl
          refine ⟨?_, ?_, ?_, ?_⟩ <;>
            simp [Injected.place, Injected.ofLines, Injected.missed, Injected.replaced,
              Injected.count, hfind, hfinds, hlines]

/-! ### One member more -/

/-- A member that is not tried changes no figure and no line. -/
theorem Accounts.untried (h : e.Accounts find symbol content members done)
    (htried : p.2.isTried p.1 = false) {notes : List Note}
    (hnotes : notes.filterMap Note.missed? = []) :
    e.Accounts find symbol content (members ++ [p])
      { done with notes := done.notes ++ notes } := by
  have hmissed : done.notes.filterMap Note.missed? = _ := h.missed
  refine ⟨h.classReplaced, ?_, ?_, h.lines⟩
  · simp [List.countP_append, htried, h.membersReplaced]
  · simp [Injected.missed, List.filterMap_append, hnotes, hmissed, htried]

/-- A member that is not found is noted down as missed. -/
theorem Accounts.notFound (h : e.Accounts find symbol content members done)
    (htried : p.2.isTried p.1 = true) (hfinds : e.findsMember find symbol content p.1 = false) :
    e.Accounts find symbol content (members ++ [p])
      { done with notes := done.notes ++ [.noMemberBlock symbol p.1] } := by
  have hmissed : done.notes.filterMap Note.missed? = _ := h.missed
  refine ⟨h.classReplaced, ?_, ?_, h.lines⟩
  · simp [List.countP_append, hfinds, h.membersReplaced]
  · simp [Injected.missed, List.filterMap_append, hmissed, htried, hfinds, Note.missed?]

/-- A member that is found is counted as replaced, whatever becomes of the lines. -/
theorem Accounts.found (h : e.Accounts find symbol content members done)
    (htried : p.2.isTried p.1 = true) (hfinds : e.findsMember find symbol content p.1 = true)
    (lines : List Text) :
    e.Accounts find symbol content (members ++ [p])
      { done with membersReplaced := done.membersReplaced + 1, lines := lines } := by
  have hmissed : done.notes.filterMap Note.missed? = _ := h.missed
  refine ⟨h.classReplaced, ?_, ?_, fun hnone => ?_⟩
  · simp [List.countP_append, htried, hfinds, h.membersReplaced]
  · simp [Injected.missed, hmissed, hfinds]
  · simp [Injected.replaced] at hnone

/-- **The accounts still hold after one member more**, if the file is what an injection of the
class and of the members before it leaves. -/
theorem Accounts.member (h : e.Accounts find symbol content members done)
    (hdone : (e.before p.1).inject find symbol content = done) :
    e.Accounts find symbol content (members ++ [p])
      ((p.2.requests symbol p.1).foldl (Injected.place find) done) := by
  rw [MemberDoc.requests]
  cases hlines : p.2.lines.isEmpty with
  | true =>
      have htried : p.2.isTried p.1 = false := by rw [MemberDoc.isTried, hlines]; rfl
      have hnone : ([] : List Note).filterMap Note.missed? = [] := rfl
      have huntried := h.untried htried hnone
      rwa [List.append_nil] at huntried
  | false =>
      cases hmember : Declaration.member? p.1 with
      | none =>
          exact h.untried (by rw [MemberDoc.isTried, hmember, Option.isSome_none, Bool.and_false])
            rfl
      | some d =>
          have htried : p.2.isTried p.1 = true := by rw [MemberDoc.isTried, hlines, hmember]; rfl
          have hfinds : e.findsMember find symbol content p.1 = (find done.lines d).isSome := by
            rw [findsMember, hmember, hdone]
            rfl
          rw [if_neg Bool.false_ne_true, List.foldl_cons, List.foldl_nil, Injected.place]
          cases hfind : find done.lines d with
          | none => exact h.notFound htried (by rw [hfinds, hfind]; rfl)
          | some span =>
              obtain rfl := Declaration.member?_eq_ofMember hmember
              exact h.found htried (by rw [hfinds, hfind]; rfl) _

/-! ### The whole entry -/

/-- What is left of a file when the class and some members have been put into it. -/
def injectFirst (e : Entry) (find : Matcher) (symbol content : Text)
    (members : List (Text × MemberDoc)) : Injected :=
  (e.classRequests symbol ++
    members.flatMap fun (signature, m) => m.requests symbol signature).foldl
      (Injected.place find) (.ofLines (splitLines content))

theorem inject_before (h : e.members.entries = members ++ p :: after) :
    (e.before p.1).inject find symbol content = e.injectFirst find symbol content members := by
  rw [inject, requests, entries_before h]
  rfl

/-- The accounts hold after any number of members, taken in their order. -/
theorem accounts_injectFirst (h : e.members.entries = members ++ after) :
    e.Accounts find symbol content members (e.injectFirst find symbol content members) := by
  induction members using List.reverseRecOn generalizing after with
  | nil =>
      rw [injectFirst, List.flatMap_nil, List.append_nil]
      exact accounts_class
  | append_singleton members p ih =>
      rw [List.append_assoc, List.singleton_append] at h
      rw [injectFirst, List.flatMap_append, ← List.append_assoc, List.foldl_append,
        List.flatMap_singleton]
      exact (ih h).member (inject_before h)

/-- **An injection accounts for its entry.** -/
theorem accounts_inject (e : Entry) (find : Matcher) (symbol content : Text) :
    e.Accounts find symbol content e.members.entries (e.inject find symbol content) :=
  accounts_injectFirst (List.append_nil _).symm

/-- **What is replaced and what is missed add up to what is tried.** Missed are the class, if it
is tried and not found, and behind it the members that are tried and not found, in the order of
their signatures. An injection that replaces nothing leaves the file as it is, and that of an
entry that asks for nothing does so. -/
theorem inject_accounting (e : Entry) (find : Matcher) (symbol content : Text) :
    ((e.inject find symbol content).replaced + (e.inject find symbol content).missed.length =
      (if e.classLines.isEmpty then 0 else 1) +
        e.members.entries.countP fun p => p.2.isTried p.1) ∧
    ((e.inject find symbol content).missed =
      (if !e.classLines.isEmpty && !findsClass find symbol content
        then [Declaration.classWord ++ [' '] ++ symbol] else []) ++
      (e.members.entries.filter fun p =>
        p.2.isTried p.1 && !e.findsMember find symbol content p.1).map
          fun p => symbol ++ ['.'] ++ p.1) ∧
    ((e.inject find symbol content).replaced = 0 →
      (e.inject find symbol content).content = content) ∧
    (e.isEmpty = true → (e.inject find symbol content).replaced = 0) := by
  have h := e.accounts_inject find symbol content
  have hsum : (e.inject find symbol content).replaced +
      (e.inject find symbol content).missed.length =
      (if e.classLines.isEmpty then 0 else 1) +
        e.members.entries.countP fun p => p.2.isTried p.1 := by
    have hsplit := List.countP_eq_countP_filter_add e.members.entries
      (fun p => p.2.isTried p.1) (fun p => e.findsMember find symbol content p.1)
    rw [Injected.replaced, h.membersReplaced, h.classReplaced, h.missed, hsplit,
      List.length_append, List.length_map, ← List.countP_eq_length_filter, List.countP_filter,
      List.countP_filter]
    cases e.classLines.isEmpty <;> cases findsClass find symbol content <;> simp <;> omega
  refine ⟨hsum, h.missed, fun hnone => ?_, fun hempty => ?_⟩
  · rw [Injected.content, h.lines hnone, joinLines_splitLines]
  · obtain ⟨hclass, hmembers⟩ := Bool.and_eq_true_iff.mp hempty
    have huntried : (e.members.entries.countP fun p => p.2.isTried p.1) = 0 :=
      List.countP_eq_zero.mpr fun p hp => by
        simp [MemberDoc.isTried, List.all_eq_true.mp hmembers p hp]
    rw [hclass, huntried] at hsum
    exact (Nat.add_eq_zero_iff.mp hsum).1

/-- A file whose class has no doc block and whose one member has one. -/
def halfDocumented : Text := "class Foo \x7b\n  /** a */\n  get() \x7b\n".toList

/-- An entry with a member to be found, a class and a member to be missed, and a blank
signature. -/
def mixedEntry : Entry :=
  ⟨["/** Foo. */".toList], Keyed.ofPairs
    [("get()".toList, ⟨"Gets.".toList, ["/** One. */".toList]⟩),
      ("set()".toList, ⟨[], ["/** Two. */".toList]⟩),
      (";".toList, ⟨[], ["/** Nothing. */".toList]⟩)]⟩

/-- An entry that has a short description for a member, but no lines. -/
def silentEntry : Entry := ⟨[], Keyed.ofPairs [("get()".toList, ⟨"Gets.".toList, []⟩)]⟩

theorem inject_accounting_mixed :
    ((mixedEntry.inject locate "Foo".toList halfDocumented).replaced +
      (mixedEntry.inject locate "Foo".toList halfDocumented).missed.length = 3) ∧
    ((mixedEntry.inject locate "Foo".toList halfDocumented).missed =
      ["class Foo".toList, "Foo.set()".toList]) ∧
    silentEntry.isEmpty = true ∧
    (silentEntry.inject locate "Foo".toList halfDocumented).replaced = 0 ∧
    (silentEntry.inject locate "Foo".toList halfDocumented).content = halfDocumented := by
  obtain ⟨hsum, hmissed, -, -⟩ := inject_accounting mixedEntry locate "Foo".toList halfDocumented
  obtain ⟨-, -, hsame, hnone⟩ := inject_accounting silentEntry locate "Foo".toList halfDocumented
  have hsilent : silentEntry.isEmpty = true := by decide
  exact ⟨hsum.trans (by decide), hmissed.trans (by decide +kernel), hsilent, hnone hsilent,
    hsame (hnone hsilent)⟩

end Entry

end DocBlocks
