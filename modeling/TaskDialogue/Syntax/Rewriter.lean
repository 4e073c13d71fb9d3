import TaskDialogue.Syntax.Sugar

/-!
# Rewriting

A program is rewritten by rules in order before it is classified. The sugars are the rules
that there are from the start; an application may add rules of its own.
-/
namespace TaskDialogue

/-- A rule gives another program for one that it matches, and hands back any other. -/
structure RewriteRule where
  id : String
  rewrite : Program → Program

def Sugar.rule (sugar : Sugar) : RewriteRule := ⟨sugar.id, sugar.expand⟩

/-- The rules that programs are rewritten by, in order. -/
structure Rewriter where
  rules : List RewriteRule

namespace Rewriter

def ofSugars (sugars : List Sugar) : Rewriter := ⟨sugars.map Sugar.rule⟩

instance : Coe (List Sugar) Rewriter := ⟨ofSugars⟩

/-- Rewrite by one more rule after the others. -/
def withRule (r : Rewriter) (rule : RewriteRule) : Rewriter := ⟨r.rules ++ [rule]⟩

def apply (r : Rewriter) (p : Program) : Program := r.rules.foldl (fun p rule => rule.rewrite p) p

def ruleIds (r : Rewriter) : List String := r.rules.map (·.id)

theorem apply_ofSugars (sugars : List Sugar) (p : Program) :
    (ofSugars sugars).apply p = Sugar.expandAll sugars p := by
  simp only [apply, ofSugars, List.foldl_map, Sugar.rule, Sugar.expandAll]

end Rewriter

end TaskDialogue
