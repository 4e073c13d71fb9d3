import TaskDialogue.Syntax.Basic
import TaskDialogue.Proofs.Syntax.Places

/-!
# Nodes of syntax trees and where they stand

Statements, expressions and keyword arguments are nodes alike: each has a range and nodes right
below it. A node fits into a range when it lies there, and so does whatever is below it, each node
within its parent and after the ones before it. Rows of such nodes are put together from left to
right, as they are read.
-/
namespace TaskDialogue

/-- A node of a syntax tree. -/
inductive Node where
  | stmt (s : Stmt)
  | expr (e : Expr)
  | keyword (k : Keyword)

namespace Node

def span : Node → Span
  | stmt s => s.span
  | expr e => e.span
  | keyword k => k.span

/-- The nodes right below a node, in the order in which their text should stand. -/
def children : Node → List Node
  | stmt s => s.parts.map expr
  | expr (.list es _) => es.map expr
  | expr (.field base _ _) => [expr base]
  | expr (.subscript base index _) => [expr base, expr index]
  | expr (.call func args keywords _) => expr func :: (args.map expr ++ keywords.map keyword)
  | expr _ => []
  | keyword k => [expr k.value]

/-- The first of two nodes ends before the second one starts. -/
def Before (n m : Node) : Prop := n.span.stop ≤ m.span.start

/-- The range of a node fits the text and the nodes right below. -/
structure Placed (text : List Char) (n : Node) : Prop where
  nonempty : n.span.start < n.span.stop
  within : n.span.stop ≤ Text.byteLength text
  places : Text.IsPlace text n.span.start ∧ Text.IsPlace text n.span.stop
  holds : ∀ m ∈ n.children, n.span.start ≤ m.span.start ∧ m.span.stop ≤ n.span.stop
  ordered : n.children.Pairwise Before
  spells : ∀ id s, n = expr (.name id s) → s.Spells text id.toList

/-- A node that is placed, with all nodes below it. -/
inductive Sound (text : List Char) : Node → Prop
  | mk {n : Node} (placed : n.Placed text) (children : ∀ m ∈ n.children, m.Sound text) :
    n.Sound text

/-- A sound node within a range. -/
structure Fits (text : List Char) (lo : Nat) (n : Node) (hi : Nat) : Prop where
  sound : n.Sound text
  lower : lo ≤ n.span.start
  upper : n.span.stop ≤ hi

end Node

/-- The nodes of a program: its statements, and what is below them. -/
inductive Program.Has (p : Program) : Node → Prop
  | statement {s : Stmt} (h : s ∈ p.body) : p.Has (.stmt s)
  | child {n m : Node} (hn : p.Has n) (h : m ∈ n.children) : p.Has m

/-! ### Nodes in order -/

namespace Node

open Syntax Pattern

variable {text : List Char} {n m : Node} {ns ms : List Node} {lo mid hi : Nat}

theorem Sound.placed (h : n.Sound text) : n.Placed text := by
  cases h with
  | mk placed _ => exact placed

theorem Sound.child (h : n.Sound text) (hm : m ∈ n.children) : m.Sound text := by
  cases h with
  | mk _ children => exact children m hm

theorem Fits.lt (h : n.Fits text lo hi) : lo < hi :=
  h.lower.trans_lt (h.sound.placed.nonempty.trans_le h.upper)

theorem Fits.mono {lo' hi' : Nat} (h : n.Fits text lo hi) (hlo : lo' ≤ lo) (hhi : hi ≤ hi') :
    n.Fits text lo' hi' :=
  ⟨h.sound, hlo.trans h.lower, h.upper.trans hhi⟩

/-- Nodes that stand one after another in a range. -/
abbrev Row (text : List Char) (lo : Nat) (ns : List Node) (hi : Nat) : Prop :=
  InOrder (Fits text) lo ns hi

theorem Row.le (h : Row text lo ns hi) : lo ≤ hi := by
  induction ns generalizing lo with
  | nil => exact h
  | cons n ns ih =>
    obtain ⟨mid, hn, hrest⟩ := h
    exact hn.lt.le.trans (ih hrest)

theorem Row.lt (h : Row text lo (n :: ns) hi) : lo < hi := by
  obtain ⟨mid, hn, hrest⟩ := h
  exact hn.lt.trans_le (Row.le hrest)

theorem row_iff (hle : lo ≤ hi) :
    Row text lo ns hi ↔ (∀ n ∈ ns, n.Fits text lo hi) ∧ ns.Pairwise Before := by
  induction ns generalizing lo with
  | nil => simpa [Row, InOrder] using hle
  | cons n ns ih =>
    rw [List.forall_mem_cons, List.pairwise_cons]
    constructor
    · rintro ⟨mid, hn, hrest⟩
      have hmid : mid ≤ hi := Row.le hrest
      obtain ⟨hns, hpair⟩ := (ih hmid).mp hrest
      exact ⟨⟨hn.mono le_rfl hmid, fun m hm => (hns m hm).mono hn.lt.le le_rfl⟩,
        fun m hm => hn.upper.trans (hns m hm).lower, hpair⟩
    · rintro ⟨⟨hn, hns⟩, hbefore, hpair⟩
      refine ⟨n.span.stop, ⟨hn.sound, hn.lower, le_rfl⟩, (ih hn.upper).mpr ⟨?_, hpair⟩⟩
      exact fun m hm => ⟨(hns m hm).sound, hbefore m hm, (hns m hm).upper⟩

theorem Row.mono {lo' hi' : Nat} (h : Row text lo ns hi) (hlo : lo' ≤ lo) (hhi : hi ≤ hi') :
    Row text lo' ns hi' := by
  obtain ⟨hns, hpair⟩ := (row_iff (Row.le h)).mp h
  exact (row_iff (hlo.trans ((Row.le h).trans hhi))).mpr
    ⟨fun n hn => (hns n hn).mono hlo hhi, hpair⟩

theorem Row.append (h : Row text lo ns mid) (hms : Row text mid ms hi) :
    Row text lo (ns ++ ms) hi := by
  induction ns generalizing lo with
  | nil => exact Row.mono hms h le_rfl
  | cons n ns ih =>
    obtain ⟨next, hn, hrest⟩ := h
    exact ⟨next, hn, ih hrest⟩

theorem Fits.row (h : n.Fits text lo hi) : Row text lo [n] hi := ⟨hi, h, le_rfl⟩

theorem Sound.row (h : n.Sound text) : Row text n.span.start n.children n.span.stop :=
  (row_iff h.placed.nonempty.le).mpr
    ⟨fun m hm => ⟨h.child hm, (h.placed.holds m hm).1, (h.placed.holds m hm).2⟩, h.placed.ordered⟩

/-- A node fits when its range lies right and the nodes below stand in order in it. -/
theorem fits_of_row (hspan : n.span.Lies text lo hi) (hlt : n.span.start < n.span.stop)
    (hrow : Row text n.span.start n.children n.span.stop)
    (hname : ∀ id s, n = expr (.name id s) → s.Spells text id.toList) : n.Fits text lo hi := by
  obtain ⟨hchildren, hordered⟩ := (row_iff hlt.le).mp hrow
  exact ⟨⟨⟨hlt, hspan.stop.le, ⟨hspan.start, hspan.stop⟩,
    fun m hm => ⟨(hchildren m hm).lower, (hchildren m hm).upper⟩, hordered, hname⟩,
    fun m hm => (hchildren m hm).sound⟩, hspan.lower, hspan.upper⟩

end Node

end TaskDialogue
