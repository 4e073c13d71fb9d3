import TaskDialogue.Number.Double

/-!
# Syntax trees of a program turn

The tree is closed: a turn is a list of statements of four shapes, built from
expressions of ten shapes. Every node but the whole program has the byte range of
the text that it was read from.
-/
namespace TaskDialogue

/-- A byte range of the turn text; `stop` is not part of it. -/
structure Span where
  start : Nat
  stop : Nat
deriving DecidableEq, Repr, Inhabited

namespace Span

/-- The range of a node that was not read from a text. -/
def none : Span := ⟨0, 0⟩

/-- The least range that covers both. -/
def merge (a b : Span) : Span := ⟨min a.start b.start, max a.stop b.stop⟩

end Span

mutual

inductive Expr where
  | none (span : Span)
  | bool (value : Bool) (span : Span)
  | int (value : Int64) (span : Span)
  | float (value : Double) (span : Span)
  | str (value : String) (span : Span)
  | list (elements : List Expr) (span : Span)
  | name (id : String) (span : Span)
  | field (base : Expr) (attr : String) (span : Span)
  | subscript (base index : Expr) (span : Span)
  | call (func : Expr) (args : List Expr) (keywords : List Keyword) (span : Span)

/-- A keyword argument of a call, `arg=value`. -/
structure Keyword where
  arg : String
  value : Expr
  span : Span

end

instance : Inhabited Expr := ⟨.none .none⟩

inductive Stmt where
  | expr (value : Expr) (span : Span)
  | assign (target value : Expr) (span : Span)
  | tupleAssign (targets values : List Expr) (span : Span)
  | append (target value : Expr) (span : Span)

/-- A parsed turn. It holds any number of statements, so that a turn with too many
can be refused with their count. -/
structure Program where
  body : List Stmt

namespace Expr

def span : Expr → Span
  | none s | bool _ s | int _ s | float _ s | str _ s | list _ s | name _ s
  | field _ _ s | subscript _ _ s | call _ _ _ s => s

/-- The identifier of a bare name. -/
def name? : Expr → Option String
  | name id _ => some id
  | _ => Option.none

/-- What kind of node this is, as messages name it. -/
def shape : Expr → String
  | none _ | bool _ _ | int _ _ | float _ _ | str _ _ => "constant"
  | list _ _ => "list"
  | name _ _ => "name"
  | field _ _ _ => "attribute"
  | subscript _ _ _ => "subscript"
  | call _ _ _ _ => "call"

mutual

/-- Whether two expressions are the same, ranges included. -/
def same : Expr → Expr → Bool
  | none s, none t => s = t
  | bool b s, bool c t => b = c && s = t
  | int n s, int m t => n = m && s = t
  | float x s, float y t => x = y && s = t
  | str a s, str b t => a = b && s = t
  | list es s, list fs t => sameAll es fs && s = t
  | name a s, name b t => a = b && s = t
  | field e a s, field f b t => e.same f && a = b && s = t
  | subscript e i s, subscript f j t => e.same f && i.same j && s = t
  | call e es ks s, call f fs ls t => e.same f && sameAll es fs && sameKeywords ks ls && s = t
  | _, _ => false

def sameAll : List Expr → List Expr → Bool
  | [], [] => true
  | e :: es, f :: fs => e.same f && sameAll es fs
  | _, _ => false

def sameKeywords : List Keyword → List Keyword → Bool
  | [], [] => true
  | k :: ks, l :: ls => sameKeyword k l && sameKeywords ks ls
  | _, _ => false

def sameKeyword : Keyword → Keyword → Bool
  | ⟨a, v, s⟩, ⟨b, w, t⟩ => a = b && v.same w && s = t

end

mutual

theorem same_iff : (e f : Expr) → (e.same f = true ↔ e = f)
  | list es s, f => by cases f <;> simp [same, sameAll_iff es]
  | field e a s, f => by cases f <;> simp [same, same_iff e, and_assoc]
  | subscript e i s, f => by cases f <;> simp [same, same_iff e, same_iff i, and_assoc]
  | call e es ks s, f => by
    cases f <;> simp [same, same_iff e, sameAll_iff es, sameKeywords_iff ks, and_assoc]
  | none s, f => by cases f <;> simp [same]
  | bool b s, f => by cases f <;> simp [same]
  | int n s, f => by cases f <;> simp [same]
  | float x s, f => by cases f <;> simp [same]
  | str a s, f => by cases f <;> simp [same]
  | name a s, f => by cases f <;> simp [same]

theorem sameAll_iff : (es fs : List Expr) → (sameAll es fs = true ↔ es = fs)
  | [], fs => by cases fs <;> simp [sameAll]
  | e :: es, fs => by cases fs <;> simp [sameAll, same_iff e, sameAll_iff es]

theorem sameKeywords_iff : (ks ls : List Keyword) → (sameKeywords ks ls = true ↔ ks = ls)
  | [], ls => by cases ls <;> simp [sameKeywords]
  | k :: ks, ls => by cases ls <;> simp [sameKeywords, sameKeyword_iff k, sameKeywords_iff ks]

theorem sameKeyword_iff : (k l : Keyword) → (sameKeyword k l = true ↔ k = l)
  | ⟨a, v, s⟩, l => by cases l; simp [sameKeyword, same_iff v, and_assoc]

end

instance : DecidableEq Expr := fun e f => decidable_of_iff _ (same_iff e f)

end Expr

instance : DecidableEq Keyword := fun k l => decidable_of_iff _ (Expr.sameKeyword_iff k l)

deriving instance DecidableEq for Stmt
deriving instance DecidableEq for Program

namespace Stmt

def span : Stmt → Span
  | expr _ s | assign _ _ s | tupleAssign _ _ s | append _ _ s => s

/-- The expressions that a statement holds directly, targets first. -/
def parts : Stmt → List Expr
  | expr value _ => [value]
  | assign target value _ => [target, value]
  | tupleAssign targets values _ => targets ++ values
  | append target value _ => [target, value]

end Stmt

/-- The statement of a program that has exactly one. -/
def Program.single? (p : Program) : Option Stmt :=
  match p.body with
  | [stmt] => some stmt
  | _ => none

end TaskDialogue
