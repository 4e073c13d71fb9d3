import Mathlib.Data.List.DropRight
import TaskDialogue.Proofs.Syntax.Printing

/-!
# Items with commas between them

When each item of a list is read back from its written form, before whatever may follow it, the
list is read back from the items with a comma and a blank between them. One lemma for the items
after the first one carries the lists, the arguments of calls and the tuples.
-/
namespace TaskDialogue.Syntax

open Pattern

variable {α β : Type} {p : Pattern α} {write : β → List Char} {R : β → α → Prop}
  {b : β} {bs : List β} {tail : List Char}

theorem afterSpace_afterSpace (cs : List Char) : afterSpace (afterSpace cs) = afterSpace cs :=
  List.dropWhile_idempotent _ _

theorem afterSpace_cons {c : Char} (h : Cursor.isSpace c = false) (cs : List Char) :
    afterSpace (c :: cs) = c :: cs := List.dropWhile_cons_of_neg (by simp [h])

/-- The written form of an item is read back before each of these texts, wherever it stands. -/
structure ItemReads (p : Pattern α) (write : β → List Char) (R : β → α → Prop) (tail : List Char)
    (b : β) : Prop where
  /-- The item starts with a character, and not with a blank. -/
  start : ∃ c cs, write b = c :: cs ∧ Cursor.isSpace c = false
  reads : ∀ rest, rest = tail ∨ rest.head? = some ',' → p.Reads (write b ++ rest) (R b) rest

namespace ItemReads

theorem afterSpace (h : ItemReads p write R tail b) (rest : List Char) :
    Pattern.afterSpace (write b ++ rest) = write b ++ rest := by
  obtain ⟨c, cs, hcons, hspace⟩ := h.start
  rw [hcons, List.cons_append, afterSpace_cons hspace]

end ItemReads

theorem head_afterComma (write : β → List Char) (bs : List β) (tail : List Char) :
    afterComma (bs.map write) ++ tail = tail ∨
      (afterComma (bs.map write) ++ tail).head? = some ',' := by
  cases bs <;> simp

theorem rounds_afterComma (h : ∀ b ∈ bs, ItemReads p write R tail b) :
    ((symbol ',').seqRight p).Rounds (bs.map R) (afterComma (bs.map write) ++ tail) tail := by
  induction bs with
  | nil => exact .nil tail
  | cons b bs ih =>
    obtain ⟨hb, hbs⟩ := List.forall_mem_cons.mp h
    have hitem := hb.reads _ (head_afterComma write bs tail)
    rw [← hb.afterSpace] at hitem
    have hround := (reads_symbol ',' (' ' :: (write b ++ (afterComma (bs.map write) ++ tail)))).seqRight
      hitem
    refine .cons ?_ ?_ (ih hbs)
    · rwa [List.map_cons, afterComma_cons, List.cons_append, List.cons_append, List.append_assoc]
    · simp only [List.map_cons, afterComma_cons, List.cons_append, List.append_assoc,
        List.length_cons, List.length_append]
      omega

/-- The items after the first one; no comma follows the last one. -/
theorem reads_afterComma (h : ∀ b ∈ bs, ItemReads p write R tail b)
    (htail : (afterSpace tail).head? ≠ some ',') :
    (((symbol ',').seqRight p).many.seqLeft (symbol ',').optional).Reads
      (afterSpace (afterComma (bs.map write) ++ tail)) (List.Forall₂ R bs) (afterSpace tail) := by
  have hend : ((symbol ',').seqRight p).Refuses (afterSpace tail) := (refuses_symbol htail).seqRight
  have hlast := (refuses_symbol htail).optional
  cases bs with
  | nil =>
    have hmany := hend.many.imp (Q := List.Forall₂ R []) fun as has => has ▸ .nil
    rw [← afterSpace_afterSpace tail] at hlast
    simpa only [List.map_nil, afterComma_nil, List.nil_append, afterSpace_afterSpace] using
      hmany.seqLeft hlast
  | cons b bs =>
    have hstart : afterSpace (afterComma ((b :: bs).map write) ++ tail) =
        afterComma ((b :: bs).map write) ++ tail := afterSpace_cons (by decide) _
    rw [hstart]
    have hmany := (rounds_afterComma h).many hstart hend
    exact (hmany.imp fun as has => List.forall₂_map_left_iff.mp has).seqLeft hlast

theorem reads_commaList (h : ∀ b' ∈ b :: bs, ItemReads p write R tail b')
    (htail : (afterSpace tail).head? ≠ some ',') :
    (commaList p).Reads (commaSeparated ((b :: bs).map write) ++ tail) (List.Forall₂ R (b :: bs))
      (afterSpace tail) := by
  obtain ⟨hb, hbs⟩ := List.forall_mem_cons.mp h
  have hfirst := hb.reads _ (head_afterComma write bs tail)
  rw [List.map_cons, commaSeparated_cons, List.append_assoc]
  exact (hfirst.seq (reads_afterComma hbs htail)).map fun r hr => .cons hr.1 hr.2

/-- A list that may be empty. -/
theorem reads_items (h : ∀ b ∈ bs, ItemReads p write R tail b) (hnone : p.Refuses tail)
    (hspace : afterSpace tail = tail) (hcomma : tail.head? ≠ some ',') :
    (commaList p).optional.Reads (afterSpace (commaSeparated (bs.map write) ++ tail))
      (fun o => List.Forall₂ R bs (o.getD [])) tail := by
  cases bs with
  | nil =>
    have hlist : (commaList p).Refuses tail := hnone.seq.map
    simp only [List.map_nil, commaSeparated_nil, List.nil_append, hspace]
    exact hlist.optional.imp fun o ho => by simp [ho]
  | cons b bs =>
    have hlist := reads_commaList h (by rwa [hspace])
    rw [hspace] at hlist
    have hstart := (h b List.mem_cons_self).afterSpace (afterComma (bs.map write) ++ tail)
    rw [← List.append_assoc, ← commaSeparated_cons, ← List.map_cons] at hstart
    rw [hstart]
    exact hlist.optional.imp fun o ⟨as, ho, has⟩ => by rwa [ho]

/-- Two items or more are a tuple. -/
theorem reads_tupleOf {b' : β} (h : ∀ c ∈ b :: b' :: bs, ItemReads p write R tail c)
    (htail : (afterSpace tail).head? ≠ some ',') :
    (tupleOf p).Reads (commaSeparated ((b :: b' :: bs).map write) ++ tail)
      (List.Forall₂ R (b :: b' :: bs)) (afterSpace tail) := by
  obtain ⟨hb, hmore⟩ := List.forall_mem_cons.mp h
  obtain ⟨hb', hbs⟩ := List.forall_mem_cons.mp hmore
  have hfirst := hb.reads _ (head_afterComma write (b' :: bs) tail)
  have hitem := hb'.reads _ (head_afterComma write bs tail)
  rw [← hb'.afterSpace] at hitem
  have hsecond : ((symbol ',').seqRight p).Reads
      (afterSpace (afterComma ((b' :: bs).map write) ++ tail)) (R b')
      (afterComma (bs.map write) ++ tail) := by
    rw [List.map_cons, afterComma_cons, List.cons_append, afterSpace_cons (by decide),
      List.cons_append, List.append_assoc]
    exact (reads_symbol ',' _).seqRight hitem
  have hseveral := (hsecond.seq (reads_afterComma hbs htail)).map
    (f := fun r => r.1 :: r.2) (R := List.Forall₂ R (b' :: bs)) fun r hr => .cons hr.1 hr.2
  rw [List.map_cons, commaSeparated_cons, List.append_assoc]
  dsimp only [tupleOf]
  exact (hfirst.seq hseveral.orElse).map fun r hr => .cons hr.1 hr.2

end TaskDialogue.Syntax
