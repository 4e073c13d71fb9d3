import Mathlib.Data.List.Forall2
import TaskDialogue.Syntax.Grammar

/-!
# What patterns read

A pattern reads a text when it takes its front, wherever the text starts, and leaves a rest;
it refuses a text when it takes nothing. One lemma for each way to put patterns together says
when the whole reads and when it refuses. Of what is read only a property is known, since
the ranges in it depend on where the text starts.
-/
namespace TaskDialogue.Syntax

namespace Pattern

variable {α β : Type} {p q : Pattern α} {r : Pattern β} {cs rest later : List Char}
  {P Q : α → Prop} {R : β → Prop}

/-- The pattern takes the front of a text, gives something with a property, and leaves a rest. -/
def Reads (p : Pattern α) (cs : List Char) (P : α → Prop) (rest : List Char) : Prop :=
  ∀ offset, ∃ a after, p.read ⟨offset, cs⟩ = some (a, ⟨after, rest⟩) ∧ P a

def Refuses (p : Pattern α) (cs : List Char) : Prop := ∀ offset, p.read ⟨offset, cs⟩ = none

/-- The text after the blanks that it starts with. -/
def afterSpace (cs : List Char) : List Char := cs.dropWhile Cursor.isSpace

theorem Reads.skip (h : r.Reads (afterSpace cs) R rest) (offset : Nat) :
    ∃ b after, r.read (Cursor.skip ⟨offset, cs⟩) = some (b, ⟨after, rest⟩) ∧ R b := h _

theorem Refuses.skip (h : r.Refuses (afterSpace cs)) (offset : Nat) :
    r.read (Cursor.skip ⟨offset, cs⟩) = none := h _

theorem Reads.imp (h : p.Reads cs P rest) (himp : ∀ a, P a → Q a) : p.Reads cs Q rest := by
  intro offset
  obtain ⟨a, after, hread, ha⟩ := h offset
  exact ⟨a, after, hread, himp a ha⟩

theorem Reads.map {f : α → β} (h : p.Reads cs P rest) (hf : ∀ a, P a → R (f a)) :
    (p.map f).Reads cs R rest := by
  intro offset
  obtain ⟨a, after, hread, ha⟩ := h offset
  exact ⟨f a, after, by simp [Pattern.map, hread], hf a ha⟩

theorem Refuses.map {f : α → β} (h : p.Refuses cs) : (p.map f).Refuses cs := by
  intro offset
  simp [Pattern.map, h offset]

theorem Reads.seq (hp : p.Reads cs P rest) (hr : r.Reads (afterSpace rest) R later) :
    (p.seq r).Reads cs (fun ab => P ab.1 ∧ R ab.2) later := by
  intro offset
  obtain ⟨a, after, hread, ha⟩ := hp offset
  obtain ⟨b, last, hnext, hb⟩ := hr.skip after
  exact ⟨(a, b), last, by simp [Pattern.seq, hread, hnext], ha, hb⟩

theorem Refuses.seq (h : p.Refuses cs) : (p.seq r).Refuses cs := by
  intro offset
  simp [Pattern.seq, h offset]

theorem Reads.seq_refuses (hp : p.Reads cs P rest) (hr : r.Refuses (afterSpace rest)) :
    (p.seq r).Refuses cs := by
  intro offset
  obtain ⟨a, after, hread, -⟩ := hp offset
  simp [Pattern.seq, hread, hr.skip after]

theorem Reads.seqLeft (hp : p.Reads cs P rest) (hr : r.Reads (afterSpace rest) R later) :
    (p.seqLeft r).Reads cs P later :=
  (hp.seq hr).map fun _ h => h.1

theorem Reads.seqLeft_refuses (hp : p.Reads cs P rest) (hr : r.Refuses (afterSpace rest)) :
    (p.seqLeft r).Refuses cs :=
  (hp.seq_refuses hr).map

theorem Reads.seqRight (hp : p.Reads cs P rest) (hr : r.Reads (afterSpace rest) R later) :
    (p.seqRight r).Reads cs R later :=
  (hp.seq hr).map fun _ h => h.2

theorem Refuses.seqRight (h : p.Refuses cs) : (p.seqRight r).Refuses cs := h.seq.map

theorem Reads.seqRight_refuses (hp : p.Reads cs P rest) (hr : r.Refuses (afterSpace rest)) :
    (p.seqRight r).Refuses cs :=
  (hp.seq_refuses hr).map

theorem Reads.orElse (h : p.Reads cs P rest) : (p.orElse q).Reads cs P rest := by
  intro offset
  obtain ⟨a, after, hread, ha⟩ := h offset
  exact ⟨a, after, by simp [Pattern.orElse, hread], ha⟩

/-- The second alternative is tried when the first refuses. -/
theorem Refuses.orElse (hp : p.Refuses cs) (hq : q.Reads cs P rest) :
    (p.orElse q).Reads cs P rest := by
  intro offset
  obtain ⟨a, after, hread, ha⟩ := hq offset
  exact ⟨a, after, by simp [Pattern.orElse, hp offset, hread], ha⟩

theorem Refuses.orElse_refuses (hp : p.Refuses cs) (hq : q.Refuses cs) :
    (p.orElse q).Refuses cs := by
  intro offset
  simp [Pattern.orElse, hp offset, hq offset]

theorem Reads.optional (h : p.Reads cs P rest) :
    p.optional.Reads cs (fun o => ∃ a, o = some a ∧ P a) rest := by
  intro offset
  obtain ⟨a, after, hread, ha⟩ := h offset
  exact ⟨some a, after, by simp [Pattern.optional, hread], a, rfl, ha⟩

theorem Refuses.optional (h : p.Refuses cs) : p.optional.Reads cs (· = none) cs := by
  intro offset
  exact ⟨none, offset, by simp [Pattern.optional, h offset], rfl⟩

theorem Refuses.many (h : p.Refuses cs) : p.many.Reads cs (· = []) cs := by
  intro offset
  exact ⟨[], offset, by simp [Pattern.many, h offset], rfl⟩

/-- Rounds of a pattern, one after another with blanks between them. Each takes a character at
least and gives something with the property that stands for it. -/
inductive Rounds (p : Pattern α) : List (α → Prop) → List Char → List Char → Prop
  | nil (cs : List Char) : Rounds p [] cs cs
  | cons {P : α → Prop} {Ps : List (α → Prop)} {cs mid rest : List Char}
    (first : p.Reads (afterSpace cs) P mid) (shorter : mid.length < cs.length)
    (more : Rounds p Ps mid rest) : Rounds p (P :: Ps) cs rest

namespace Rounds

variable {Ps Qs : List (α → Prop)}

theorem length_le (h : p.Rounds Ps cs rest) : Ps.length + rest.length ≤ cs.length := by
  induction h with
  | nil => simp
  | cons _ shorter _ ih =>
    simp only [List.length_cons]
    omega

theorem append {mid : List Char} (h : p.Rounds Ps cs mid) (hmore : p.Rounds Qs mid rest) :
    p.Rounds (Ps ++ Qs) cs rest := by
  induction h with
  | nil => exact hmore
  | cons first shorter _ ih => exact .cons first shorter (ih hmore)

theorem concat {mid : List Char} (h : p.Rounds Ps cs mid) (hlast : p.Reads (afterSpace mid) P rest)
    (hshorter : rest.length < mid.length) : p.Rounds (Ps ++ [P]) cs rest :=
  h.append (.cons hlast hshorter (.nil rest))

theorem readMore (h : p.Rounds Ps cs rest) (hend : p.Refuses (afterSpace rest)) :
    ∀ fuel, Ps.length ≤ fuel → ∀ offset, ∃ as after,
      p.readMore fuel ⟨offset, cs⟩ = (as, ⟨after, rest⟩) ∧ List.Forall₂ (fun P a => P a) Ps as := by
  induction h with
  | nil =>
    intro fuel _ offset
    refine ⟨[], offset, ?_, .nil⟩
    cases fuel with
    | zero => rfl
    | succ fuel => simp [Pattern.readMore, hend.skip offset]
  | cons first _ _ ih =>
    intro fuel hfuel offset
    obtain ⟨fuel, rfl⟩ : ∃ n, fuel = n + 1 :=
      ⟨fuel - 1, by simp only [List.length_cons] at hfuel; omega⟩
    obtain ⟨a, after, hread, ha⟩ := first.skip offset
    obtain ⟨as, last, hmore, has⟩ := ih hend fuel (by simpa using hfuel) after
    exact ⟨a :: as, last, by simp [Pattern.readMore, hread, hmore], .cons ha has⟩

/-- A repetition takes as many rounds as there are. -/
theorem many (h : p.Rounds Ps cs rest) (hstart : afterSpace cs = cs)
    (hend : p.Refuses (afterSpace rest)) :
    p.many.Reads cs (fun as => List.Forall₂ (fun P a => P a) Ps as) rest := by
  intro offset
  have hlength := h.length_le
  cases h with
  | nil =>
    rw [hstart] at hend
    exact ⟨[], offset, by simp [Pattern.many, hend offset], .nil⟩
  | cons first _ more =>
    rw [hstart] at first
    obtain ⟨a, after, hread, ha⟩ := first offset
    simp only [List.length_cons] at hlength
    obtain ⟨as, last, hmore, has⟩ := more.readMore hend cs.length (by omega) after
    exact ⟨a :: as, last, by simp [Pattern.many, hread, hmore], .cons ha has⟩

end Rounds

/-- A single round, when another one refuses. -/
theorem Reads.many_one (hp : p.Reads cs P rest) (hnext : p.Refuses (afterSpace rest)) :
    p.many.Reads cs (fun as => ∃ a, as = [a] ∧ P a) rest := by
  intro offset
  obtain ⟨a, after, hread, ha⟩ := hp offset
  have hmore : ∀ fuel, readMore p fuel ⟨after, rest⟩ = ([], ⟨after, rest⟩) := by
    intro fuel
    cases fuel with
    | zero => rfl
    | succ fuel => simp [readMore, hnext.skip after]
  exact ⟨[a], after, by simp [Pattern.many, hread, hmore], a, rfl, ha⟩

theorem Reads.rule (name : Rule) (h : p.Reads cs P rest) :
    (Pattern.rule name p).Reads cs (fun as => P as.1) rest := by
  intro offset
  obtain ⟨a, after, hread, ha⟩ := h offset
  exact ⟨(a, ⟨offset, after⟩), after, by simp [Pattern.rule, hread, Cursor.spanTo], ha⟩

theorem Refuses.rule (name : Rule) (h : p.Refuses cs) : (Pattern.rule name p).Refuses cs := by
  intro offset
  simp [Pattern.rule, h offset]

theorem reads_symbol (s : Char) (rest : List Char) :
    (symbol s).Reads (s :: rest) (fun _ => True) rest := by
  intro offset
  exact ⟨(), offset + Text.byteLength [s], by simp [symbol, Cursor.after], trivial⟩

theorem refuses_symbol {s : Char} (h : cs.head? ≠ some s) : (symbol s).Refuses cs := by
  intro offset
  cases cs with
  | nil => rfl
  | cons c rest =>
    have hne : c ≠ s := by simpa using h
    simp [symbol, hne]

theorem reads_token {name : Rule} {scan : List Char → Option (List Char × List Char)}
    {word : List Char} (h : scan cs = some (word, rest)) :
    (token name scan).Reads cs (fun ws => ws.1 = word) rest := by
  intro offset
  exact ⟨(word, ⟨offset, offset + Text.byteLength word⟩), offset + Text.byteLength word,
    by simp [token, h, Cursor.after, Cursor.spanTo], rfl⟩

theorem refuses_token {name : Rule} {scan : List Char → Option (List Char × List Char)}
    (h : scan cs = none) : (token name scan).Refuses cs := by
  intro offset
  simp [token, h]

theorem reads_endOfText : endOfText.Reads [] (fun _ => True) [] := by
  intro offset
  exact ⟨(), offset, rfl, trivial⟩

theorem refuses_endOfText {c : Char} : endOfText.Refuses (c :: rest) := by
  intro offset
  rfl

end Pattern

end TaskDialogue.Syntax
