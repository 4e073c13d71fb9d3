import Mathlib.Order.Nat
import TaskDialogue.Syntax.Pattern

/-!
# Places in a text

A place is the number of bytes of a front of a text, so a range between two places cuts no
character in two. A pattern that starts at a place stops at a later one. What it reads lies in the
range that it took and, as far as anything is said about it here, in every range around that one;
so the blanks between the parts of a pattern need no account of their own.
-/
namespace TaskDialogue

variable {text : List Char}

/-- A number of bytes after which a character of the text starts, or the text ends. -/
def Text.IsPlace (text : List Char) (n : Nat) : Prop :=
  ∃ before, before <+: text ∧ byteLength before = n

/-- The word that stands at a range of a text. -/
def Span.Spells (text : List Char) (s : Span) (word : List Char) : Prop :=
  ∃ before, before ++ word <+: text ∧
    Text.byteLength before = s.start ∧ Text.byteLength before + Text.byteLength word = s.stop

/-- A range between two places that lies within another range. -/
structure Span.Lies (text : List Char) (lo : Nat) (s : Span) (hi : Nat) : Prop where
  lower : lo ≤ s.start
  ordered : s.start ≤ s.stop
  upper : s.stop ≤ hi
  start : Text.IsPlace text s.start
  stop : Text.IsPlace text s.stop

theorem Text.IsPlace.le {n : Nat} (h : IsPlace text n) : n ≤ byteLength text := by
  obtain ⟨before, ⟨after, rfl⟩, rfl⟩ := h
  simp

namespace Syntax

namespace Cursor

variable {c : Cursor} {taken rest : List Char}

/-- A cursor into a text: it has the bytes before it and the characters after it right. -/
def In (text : List Char) (c : Cursor) : Prop :=
  ∃ before, before ++ c.rest = text ∧ Text.byteLength before = c.offset

theorem In.isPlace (h : c.In text) : Text.IsPlace text c.offset := by
  obtain ⟨before, hsplit, hoffset⟩ := h
  exact ⟨before, ⟨c.rest, hsplit⟩, hoffset⟩

theorem In.after (h : c.In text) (hsplit : c.rest = taken ++ rest) :
    (c.after taken rest).In text := by
  obtain ⟨before, rfl, hoffset⟩ := h
  exact ⟨before ++ taken, by simp [Cursor.after, hsplit], by simp [Cursor.after, hoffset]⟩

theorem In.skip (h : c.In text) : c.skip.In text :=
  h.after List.takeWhile_append_dropWhile.symm

theorem offset_le_skip (c : Cursor) : c.offset ≤ c.skip.offset := Nat.le_add_right _ _

theorem In.spells_spanTo (h : c.In text) (hsplit : c.rest = taken ++ rest) :
    (c.spanTo (c.after taken rest)).Spells text taken := by
  obtain ⟨before, rfl, hoffset⟩ := h
  exact ⟨before, ⟨rest, by simp [hsplit]⟩, hoffset, congrArg (· + Text.byteLength taken) hoffset⟩

end Cursor

namespace Pattern

variable {α β : Type}

/-- What was read is laid out one after another from `lo` to `hi`. -/
def InOrder (P : Nat → α → Nat → Prop) : (lo : Nat) → List α → (hi : Nat) → Prop
  | lo, [], hi => lo ≤ hi
  | lo, a :: as, hi => ∃ mid, P lo a mid ∧ InOrder P mid as hi

namespace InOrder

variable {α β : Type} {P : Nat → α → Nat → Prop} {lo hi : Nat} {as : List α}

theorem map {f : β → α} {bs : List β} (h : InOrder (fun lo b hi => P lo (f b) hi) lo bs hi) :
    InOrder P lo (bs.map f) hi := by
  induction bs generalizing lo with
  | nil => exact h
  | cons b bs ih =>
    obtain ⟨mid, hb, hbs⟩ := h
    exact ⟨mid, hb, ih hbs⟩

/-- Nothing was read where a list may be missing. -/
theorem getD {o : Option (List α)} (h : lo ≤ hi ∧ ∀ as ∈ o, InOrder P lo as hi) :
    InOrder P lo (o.getD []) hi := by
  cases o with
  | none => exact h.1
  | some as => exact h.2 as rfl

end InOrder

/-- One step through a text: the cursor after it, and what holds of the thing that was read in
every range around the one that was taken. -/
structure Taken (text : List Char) (P : Nat → α → Nat → Prop) (c : Cursor) (a : α) (d : Cursor) :
    Prop where
  inside : d.In text
  onward : c.offset ≤ d.offset
  holds : ∀ lo hi, lo ≤ c.offset → d.offset ≤ hi → P lo a hi

namespace Taken

variable {α β : Type} {P : Nat → α → Nat → Prop} {Q : Nat → β → Nat → Prop} {c d e : Cursor} {a : α}
  {as : List α} {b : β}

theorem imp (h : Taken text P c a d) (himp : ∀ lo hi, P lo a hi → Q lo b hi) :
    Taken text Q c b d :=
  ⟨h.inside, h.onward, fun lo hi hlo hhi => himp lo hi (h.holds lo hi hlo hhi)⟩

/-- Blanks may come before a step. -/
theorem of_skip (h : Taken text P c.skip a d) : Taken text P c a d :=
  ⟨h.inside, c.offset_le_skip.trans h.onward, fun lo hi hlo hhi =>
    h.holds lo hi (hlo.trans c.offset_le_skip) hhi⟩

theorem nil (hc : c.In text) : Taken text (InOrder P) c [] c :=
  ⟨hc, le_rfl, fun _ _ hlo hhi => hlo.trans hhi⟩

theorem cons (h : Taken text P c a d) (hmore : Taken text (InOrder P) d as e) :
    Taken text (InOrder P) c (a :: as) e :=
  ⟨hmore.inside, h.onward.trans hmore.onward, fun lo hi hlo hhi =>
    ⟨d.offset, h.holds lo _ hlo le_rfl, hmore.holds _ hi le_rfl hhi⟩⟩

end Taken

/-- Wherever the pattern reads in the text, it steps on, and what it reads has a property. -/
def Takes (text : List Char) (p : Pattern α) (P : Nat → α → Nat → Prop) : Prop :=
  ∀ c a d, c.In text → p.read c = some (a, d) → Taken text P c a d

variable {p q : Pattern α} {r : Pattern β} {P : Nat → α → Nat → Prop} {Q : Nat → β → Nat → Prop}

theorem Takes.map {f : α → β} (h : p.Takes text P) (hf : ∀ lo a hi, P lo a hi → Q lo (f a) hi) :
    (p.map f).Takes text Q := by
  intro c b d hc hread
  obtain ⟨⟨a, e⟩, ha, heq⟩ := Option.map_eq_some_iff.mp hread
  obtain ⟨rfl, rfl⟩ := Prod.mk.inj heq
  exact (h c a e hc ha).imp fun lo hi => hf lo a hi

theorem Takes.imp {P' : Nat → α → Nat → Prop} (h : p.Takes text P)
    (himp : ∀ lo a hi, P lo a hi → P' lo a hi) : p.Takes text P' := by
  intro c a d hc hread
  exact (h c a d hc hread).imp fun lo hi => himp lo a hi

theorem takes_fail : (fail : Pattern α).Takes text P := nofun

theorem takes_nothing : nothing.Takes text fun _ _ _ => True := by
  rintro c _ _ hc ⟨⟩
  exact ⟨hc, le_rfl, fun _ _ _ _ => trivial⟩

theorem takes_endOfText : endOfText.Takes text fun _ _ _ => True := by
  intro c _ d hc hread
  obtain ⟨-, hd⟩ := Option.ite_none_right_eq_some.mp hread
  obtain ⟨-, rfl⟩ := Prod.mk.inj (Option.some.inj hd)
  exact ⟨hc, le_rfl, fun _ _ _ _ => trivial⟩

/-- A symbol takes at least a byte. -/
theorem takes_symbol (x : Char) : (symbol x).Takes text fun lo _ hi => lo < hi := by
  intro c _ d hc hread
  simp only [symbol] at hread
  split at hread
  · cases hread
  · next y rest hrest =>
    obtain ⟨-, hd⟩ := Option.ite_none_right_eq_some.mp hread
    obtain ⟨-, rfl⟩ := Prod.mk.inj (Option.some.inj hd)
    have hsize : (c.after [y] rest).offset = c.offset + y.utf8Size := by simp [Cursor.after]
    have hpos := y.utf8Size_pos
    exact ⟨hc.after hrest, by omega, fun lo hi hlo hhi => by omega⟩

/-- A scanner that cuts a word off the front of what it is given. -/
def Cuts (scan : List Char → Option (List Char × List Char)) : Prop :=
  ∀ cs word rest, scan cs = some (word, rest) → cs = word ++ rest ∧ word ≠ []

/-- The range of a word is where it stands. -/
theorem takes_token (name : Rule) {scan : List Char → Option (List Char × List Char)}
    (hscan : Cuts scan) : (token name scan).Takes text fun lo r hi =>
      r.2.Lies text lo hi ∧ r.2.start < r.2.stop ∧ r.2.Spells text r.1 := by
  intro c a d hc hread
  obtain ⟨⟨word, rest⟩, hword, heq⟩ := Option.map_eq_some_iff.mp hread
  obtain ⟨rfl, rfl⟩ := Prod.mk.inj heq
  obtain ⟨hsplit, hne⟩ := hscan _ _ _ hword
  have hafter := hc.after hsplit
  have hlt : c.offset < (c.after word rest).offset :=
    Nat.lt_add_of_pos_right (Nat.pos_of_ne_zero (mt Text.byteLength_eq_zero.mp hne))
  exact ⟨hafter, hlt.le, fun lo hi hlo hhi =>
    ⟨⟨hlo, hlt.le, hhi, hc.isPlace, hafter.isPlace⟩, hlt, hc.spells_spanTo hsplit⟩⟩

/-- Of the parts of a sequence each has its property in the whole range, and the second one also
after the first. -/
theorem Takes.seq (hp : p.Takes text P) (hr : r.Takes text Q) :
    (p.seq r).Takes text fun lo ab hi =>
      P lo ab.1 hi ∧ Q lo ab.2 hi ∧ ∃ mid, P lo ab.1 mid ∧ Q mid ab.2 hi := by
  intro c ab d hc hread
  simp only [Pattern.seq] at hread
  split at hread
  · simp at hread
  · next a e ha =>
    obtain ⟨⟨b, e'⟩, hb, heq⟩ := Option.map_eq_some_iff.mp hread
    obtain ⟨rfl, rfl⟩ := Prod.mk.inj heq
    have first := hp c a e hc ha
    have second := (hr _ b e' first.inside.skip hb).of_skip
    refine ⟨second.inside, first.onward.trans second.onward, fun lo hi hlo hhi =>
      ⟨?_, ?_, e.offset, ?_, ?_⟩⟩
    · exact first.holds lo hi hlo (second.onward.trans hhi)
    · exact second.holds lo hi (hlo.trans first.onward) hhi
    · exact first.holds lo e.offset hlo le_rfl
    · exact second.holds e.offset hi le_rfl hhi

theorem Takes.seqLeft (hp : p.Takes text P) (hr : r.Takes text Q) : (p.seqLeft r).Takes text P :=
  (hp.seq hr).map fun _ _ _ h => h.1

theorem Takes.seqRight (hp : p.Takes text P) (hr : r.Takes text Q) : (p.seqRight r).Takes text Q :=
  (hp.seq hr).map fun _ _ _ h => h.2.1

theorem Takes.afterSymbol (x : Char) (h : r.Takes text Q) :
    ((symbol x).seqRight r).Takes text fun lo b hi => lo < hi ∧ Q lo b hi :=
  ((takes_symbol x).seq h).map fun _ _ _ ⟨hlt, hb, _⟩ => ⟨hlt, hb⟩

theorem Takes.orElse (hp : p.Takes text P) (hq : q.Takes text P) : (p.orElse q).Takes text P := by
  intro c a d hc hread
  obtain hread | ⟨-, hread⟩ := Option.or_eq_some_iff.mp hread
  · exact hp c a d hc hread
  · exact hq c a d hc hread

theorem Takes.optional (h : p.Takes text P) :
    p.optional.Takes text fun lo o hi => lo ≤ hi ∧ ∀ a ∈ o, P lo a hi := by
  intro c o d hc hread
  simp only [Pattern.optional] at hread
  split at hread
  · next a e ha =>
    obtain ⟨rfl, rfl⟩ := Prod.mk.inj (Option.some.inj hread)
    have step := h c a _ hc ha
    refine ⟨step.inside, step.onward, fun lo hi hlo hhi => ⟨hlo.trans (step.onward.trans hhi), ?_⟩⟩
    rintro _ ⟨⟩
    exact step.holds lo hi hlo hhi
  · obtain ⟨rfl, rfl⟩ := Prod.mk.inj (Option.some.inj hread)
    exact ⟨hc, le_rfl, fun lo hi hlo hhi => ⟨hlo.trans hhi, nofun⟩⟩

theorem Takes.readMore (h : p.Takes text P) (fuel : Nat) {c : Cursor} (hc : c.In text) :
    Taken text (InOrder P) c (p.readMore fuel c).1 (p.readMore fuel c).2 := by
  induction fuel generalizing c with
  | zero => exact .nil hc
  | succ fuel ih =>
    simp only [Pattern.readMore]
    split
    · exact .nil hc
    · next a d ha =>
      have first := (h _ a d hc.skip ha).of_skip
      exact first.cons (ih first.inside)

theorem Takes.many (h : p.Takes text P) : p.many.Takes text (InOrder P) := by
  intro c as d hc hread
  simp only [Pattern.many] at hread
  split at hread
  · obtain ⟨rfl, rfl⟩ := Prod.mk.inj (Option.some.inj hread)
    exact .nil hc
  · next a e ha =>
    obtain ⟨rfl, rfl⟩ := Prod.mk.inj (Option.some.inj hread)
    have first := h c a e hc ha
    exact first.cons (h.readMore c.rest.length first.inside)

theorem Takes.commaList (h : p.Takes text P) : (commaList p).Takes text (InOrder P) :=
  (h.seq (((takes_symbol ',').seqRight h).many.seqLeft (takes_symbol ',').optional)).map
    fun _ _ _ hr => hr.2.2

/-- The range of a rule is what its pattern took. -/
theorem Takes.rule (name : Rule) (h : p.Takes text P) :
    (rule name p).Takes text fun lo r hi =>
      P lo r.1 hi ∧ r.2.Lies text lo hi ∧ P r.2.start r.1 r.2.stop := by
  intro c r d hc hread
  obtain ⟨⟨a, e⟩, ha, heq⟩ := Option.map_eq_some_iff.mp hread
  obtain ⟨rfl, rfl⟩ := Prod.mk.inj heq
  have step := h c a e hc ha
  exact ⟨step.inside, step.onward, fun lo hi hlo hhi => ⟨step.holds lo hi hlo hhi,
    ⟨hlo, step.onward, hhi, hc.isPlace, step.inside.isPlace⟩, step.holds _ _ le_rfl le_rfl⟩⟩

end Pattern

end Syntax

end TaskDialogue
