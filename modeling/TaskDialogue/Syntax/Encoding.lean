import TaskDialogue.Syntax.Basic
import TaskDialogue.Json.Basic

/-!
# Syntax trees as JSON

A node is an object with its kind under `t`. The range is left out when it is
`0..0`, and a missing range reads as that one. Reading goes down one level of the
JSON value for each level of the tree, so the depth of the value is fuel enough.
-/
namespace TaskDialogue

open Json

namespace Span

def toJson (s : Span) : Json := .object [("start", .ofNat s.start), ("end", .ofNat s.stop)]

/-- The field of a range: nothing for the range of no text. -/
def field (s : Span) : List (String × Json) := if s = none then [] else [("span", s.toJson)]

def ofJson? (j : Json) : Option Span := do
  let [some start, some stop] ← j.record? ["start", "end"] | .none
  return ⟨← start.index?, ← stop.index?⟩

def ofField? : Option Json → Option Span
  | .none => some none
  | some j => ofJson? j

end Span

def node (kind : String) (fields : List (String × Json)) (span : Span) : Json :=
  .object (("t", .string kind) :: fields ++ span.field)

namespace Expr

mutual

def toJson : Expr → Json
  | none s => node "LitNone" [] s
  | bool b s => node "LitBool" [("v", .bool b)] s
  | int n s => node "LitInt" [("v", .int n.toInt)] s
  | float x s => node "LitFloat" [("v", .ofDouble x)] s
  | str v s => node "LitStr" [("v", .string v)] s
  | list es s => node "LitList" [("elements", .array (toJsonAll es))] s
  | name id s => node "Name" [("id", .string id)] s
  | field base attr s => node "Attribute" [("value", base.toJson), ("attr", .string attr)] s
  | subscript base index s => node "Subscript" [("value", base.toJson), ("index", index.toJson)] s
  | call func args keywords s =>
    node "Call" [("func", func.toJson), ("args", .array (toJsonAll args)),
      ("keywords", .array (toJsonKeywords keywords))] s

def toJsonAll : List Expr → List Json
  | [] => []
  | e :: es => e.toJson :: toJsonAll es

def toJsonKeywords : List Keyword → List Json
  | [] => []
  | k :: ks => toJsonKeyword k :: toJsonKeywords ks

def toJsonKeyword : Keyword → Json
  | ⟨arg, value, s⟩ => .object (("arg", .string arg) :: ("value", value.toJson) :: s.field)

end

def kinds : List String :=
  ["LitNone", "LitBool", "LitInt", "LitFloat", "LitStr", "LitList", "Name", "Attribute",
    "Subscript", "Call"]

mutual

/-- The expression that a JSON value describes, if it is nested less than `fuel` deep.
An expression always stands within a statement. -/
def ofJsonWithin? : (fuel : Nat) → Json → Option Expr
  | 0, _ => .none
  | fuel + 1, j => do
    let (kind, body) ← j.variant? "t" (Json.kind? kinds)
    match kind with
    | "LitNone" =>
      let [span] ← body.record? ["span"] | .none
      return .none (← Span.ofField? span)
    | "LitBool" =>
      let [some v, span] ← body.record? ["v", "span"] | .none
      return .bool (← v.bool?) (← Span.ofField? span)
    | "LitInt" =>
      let [some v, span] ← body.record? ["v", "span"] | .none
      return .int (← v.int64?) (← Span.ofField? span)
    | "LitFloat" =>
      let [some v, span] ← body.record? ["v", "span"] | .none
      return .float (← v.double?) (← Span.ofField? span)
    | "LitStr" =>
      let [some v, span] ← body.record? ["v", "span"] | .none
      return .str (← v.string?) (← Span.ofField? span)
    | "LitList" =>
      let [some elements, span] ← body.record? ["elements", "span"] | .none
      return .list (← (← elements.array?).mapM (ofJsonWithin? fuel)) (← Span.ofField? span)
    | "Name" =>
      let [some id, span] ← body.record? ["id", "span"] | .none
      return .name (← id.string?) (← Span.ofField? span)
    | "Attribute" =>
      let [some value, some attr, span] ← body.record? ["value", "attr", "span"] | .none
      return .field (← ofJsonWithin? fuel value) (← attr.string?) (← Span.ofField? span)
    | "Subscript" =>
      let [some value, some index, span] ← body.record? ["value", "index", "span"] | .none
      return .subscript (← ofJsonWithin? fuel value) (← ofJsonWithin? fuel index)
        (← Span.ofField? span)
    | "Call" =>
      let [some func, some args, some keywords, span] ←
        body.record? ["func", "args", "keywords", "span"] | .none
      return .call (← ofJsonWithin? fuel func) (← (← args.array?).mapM (ofJsonWithin? fuel))
        (← (← keywords.array?).mapM (keywordWithin? fuel)) (← Span.ofField? span)
    | _ => .none

def keywordWithin? : (fuel : Nat) → Json → Option Keyword
  | 0, _ => .none
  | fuel + 1, j => do
    let [some arg, some value, span] ← j.record? ["arg", "value", "span"] | .none
    return ⟨← arg.string?, ← ofJsonWithin? fuel value, ← Span.ofField? span⟩

end

def ofJson? (j : Json) : Option Expr := ofJsonWithin? (j.depth + 1) j

end Expr

namespace Stmt

def toJson : Stmt → Json
  | expr value s => node "Expr" [("value", value.toJson)] s
  | assign target value s => node "Assign" [("target", target.toJson), ("value", value.toJson)] s
  | tupleAssign targets values s =>
    node "TupleAssign" [("targets", .array (targets.map Expr.toJson)),
      ("values", .array (values.map Expr.toJson))] s
  | append target value s => node "Append" [("target", target.toJson), ("value", value.toJson)] s

def ofJson? (j : Json) : Option Stmt := do
  let (kind, body) ← j.tagged? "t"
  match kind with
  | "Expr" =>
    let [some value, span] ← body.record? ["value", "span"] | none
    return .expr (← Expr.ofJson? value) (← Span.ofField? span)
  | "Assign" =>
    let [some target, some value, span] ← body.record? ["target", "value", "span"] | none
    return .assign (← Expr.ofJson? target) (← Expr.ofJson? value) (← Span.ofField? span)
  | "TupleAssign" =>
    let [some targets, some values, span] ← body.record? ["targets", "values", "span"] | none
    return .tupleAssign (← (← targets.array?).mapM Expr.ofJson?)
      (← (← values.array?).mapM Expr.ofJson?) (← Span.ofField? span)
  | "Append" =>
    let [some target, some value, span] ← body.record? ["target", "value", "span"] | none
    return .append (← Expr.ofJson? target) (← Expr.ofJson? value) (← Span.ofField? span)
  | _ => none

end Stmt

namespace Program

def toJson (p : Program) : Json := .object [("body", .array (p.body.map Stmt.toJson))]

def ofJson? (j : Json) : Option Program := do
  let [some body] ← j.record? ["body"] | none
  return ⟨← (← body.array?).mapM Stmt.ofJson?⟩

end Program

end TaskDialogue
