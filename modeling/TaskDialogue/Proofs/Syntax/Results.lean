import TaskDialogue.Syntax.Pattern

/-!
# What patterns give

A property that holds of whatever a pattern reads, at any place of any text. It is carried from
the parts of a pattern to the whole by one lemma for each way to put patterns together.
-/
namespace TaskDialogue.Syntax

namespace Pattern

variable {α β : Type} {p q : Pattern α} {r : Pattern β} {P : α → Prop} {Q : β → Prop}

/-- Whatever the pattern reads has a property. -/
def Gives (p : Pattern α) (P : α → Prop) : Prop := ∀ c a d, p.read c = some (a, d) → P a

theorem Gives.map {f : α → β} (h : p.Gives P) (hf : ∀ a, P a → Q (f a)) : (p.map f).Gives Q := by
  intro c b d hread
  obtain ⟨⟨a, e⟩, ha, heq⟩ := Option.map_eq_some_iff.mp hread
  obtain ⟨rfl, rfl⟩ := Prod.mk.inj heq
  exact hf a (h c a e ha)

theorem gives_true : p.Gives fun _ => True := fun _ _ _ _ => trivial

theorem gives_fail : (fail : Pattern α).Gives P := nofun

theorem Gives.seq (hp : p.Gives P) (hr : r.Gives Q) :
    (p.seq r).Gives fun ab => P ab.1 ∧ Q ab.2 := by
  intro c ab d hread
  simp only [Pattern.seq] at hread
  split at hread
  · simp at hread
  · next a e ha =>
    obtain ⟨⟨b, e'⟩, hb, heq⟩ := Option.map_eq_some_iff.mp hread
    obtain ⟨rfl, rfl⟩ := Prod.mk.inj heq
    exact ⟨hp c a e ha, hr _ b e' hb⟩

theorem Gives.seqLeft (hp : p.Gives P) : (p.seqLeft r).Gives P :=
  (hp.seq (r := r) gives_true).map fun _ h => h.1

theorem Gives.seqRight (hr : r.Gives Q) : (p.seqRight r).Gives Q :=
  (Gives.seq (p := p) gives_true hr).map fun _ h => h.2

theorem Gives.orElse (hp : p.Gives P) (hq : q.Gives P) : (p.orElse q).Gives P := by
  intro c a d hread
  obtain hread | ⟨-, hread⟩ := Option.or_eq_some_iff.mp hread
  · exact hp c a d hread
  · exact hq c a d hread

theorem Gives.optional (h : p.Gives P) : p.optional.Gives fun o => ∀ a ∈ o, P a := by
  intro c o d hread
  simp only [Pattern.optional] at hread
  split at hread
  · next a e ha =>
    obtain ⟨rfl, rfl⟩ := Prod.mk.inj (Option.some.inj hread)
    rintro _ ⟨⟩
    exact h c a _ ha
  · obtain ⟨rfl, rfl⟩ := Prod.mk.inj (Option.some.inj hread)
    exact nofun

theorem Gives.readMore (h : p.Gives P) (fuel : Nat) (c : Cursor) :
    ∀ a ∈ (p.readMore fuel c).1, P a := by
  induction fuel generalizing c with
  | zero => exact nofun
  | succ fuel ih =>
    simp only [Pattern.readMore]
    split
    · exact nofun
    · next a d ha => exact List.forall_mem_cons.mpr ⟨h _ a d ha, ih d⟩

theorem Gives.many (h : p.Gives P) : p.many.Gives fun as => ∀ a ∈ as, P a := by
  intro c as d hread
  simp only [Pattern.many] at hread
  split at hread
  · obtain ⟨rfl, rfl⟩ := Prod.mk.inj (Option.some.inj hread)
    exact nofun
  · next a e ha =>
    obtain ⟨rfl, rfl⟩ := Prod.mk.inj (Option.some.inj hread)
    exact List.forall_mem_cons.mpr ⟨h c a e ha, h.readMore _ e⟩

theorem Gives.commaList (h : p.Gives P) : (commaList p).Gives fun as => ∀ a ∈ as, P a :=
  (h.seq h.seqRight.many.seqLeft).map fun _ hr => List.forall_mem_cons.mpr hr

theorem Gives.rule (name : Rule) (h : p.Gives P) : (rule name p).Gives fun r => P r.1 := by
  intro c r d hread
  obtain ⟨⟨a, e⟩, ha, heq⟩ := Option.map_eq_some_iff.mp hread
  obtain ⟨rfl, rfl⟩ := Prod.mk.inj heq
  exact h c a e ha

end Pattern

end TaskDialogue.Syntax
