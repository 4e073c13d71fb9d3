import TaskDialogue.Json.Writer
import TaskDialogue.Proofs.Syntax.Shape
import TaskDialogue.Proofs.Syntax.Phrases

/-!
# Statements in writing

The plain way to write a statement: items with a comma and a blank between them, blanks around the
equals sign of an assignment, strings between double quotes on one line. A sentence is a statement
that has a written form in the language: its names are names, what follows an expression follows a
name, and there are no doubles in it.
-/
namespace TaskDialogue

namespace Syntax

/-- A character between double quotes. A line end is written out, since no line ends in a string. -/
def quoteChar (c : Char) : List Char :=
  if c = '\n' then ['\\', 'n'] else if c = '\r' then ['\\', 'r'] else escapeChar c

/-- A text between double quotes. -/
def quote (text : List Char) : List Char := '"' :: (text.flatMap quoteChar ++ ['"'])

/-- Items with a comma and a blank between them. -/
def commaSeparated (items : List (List Char)) : List Char := [',', ' '].intercalate items

end Syntax

open Syntax

mutual

/-- The written form of an expression. -/
def Expr.print : Expr → List Char
  | .none _ => "None".toList
  | .bool b _ => (if b then "True" else "False").toList
  | .int n _ => Json.renderInt n.toInt
  | .float x _ => (x.render Double.plainStyle).toList
  | .str text _ => quote text.toList
  | .list es _ => '[' :: (commaSeparated (printAll es) ++ [']'])
  | .name id _ => id.toList
  | .field base attr _ => base.print ++ '.' :: attr.toList
  | .subscript base index _ => base.print ++ '[' :: (index.print ++ [']'])
  | .call func args keywords _ =>
    func.print ++ '(' :: (commaSeparated (printAll args ++ printKeywords keywords) ++ [')'])

def printAll : List Expr → List (List Char)
  | [] => []
  | e :: es => e.print :: printAll es

def printKeywords : List Keyword → List (List Char)
  | [] => []
  | ⟨name, value, _⟩ :: ks => (name.toList ++ '=' :: value.print) :: printKeywords ks

end

/-- The written form of a statement. -/
def Stmt.print : Stmt → List Char
  | .expr value _ => value.print
  | .assign target value _ => target.print ++ " = ".toList ++ value.print
  | .tupleAssign targets values _ =>
    commaSeparated (printAll targets) ++ " = ".toList ++ commaSeparated (printAll values)
  | .append target value _ => target.print ++ ".append(".toList ++ value.print ++ [')']

/-- Whether an expression is a name with what follows it. -/
def Expr.IsChain : Expr → Prop
  | .name _ _ | .field _ _ _ | .subscript _ _ _ | .call _ _ _ _ => True
  | _ => False

mutual

/-- The expressions of the language, but for doubles. -/
def Expr.IsPhrase : Expr → Prop
  | .none _ | .bool _ _ | .int _ _ | .str _ _ => True
  | .float _ _ => False
  | .list es _ => ArePhrases es
  | .name id _ => IsName id.toList
  | .field base attr _ => base.IsChain ∧ base.IsPhrase ∧ IsName attr.toList
  | .subscript base index _ => base.IsChain ∧ base.IsPhrase ∧ index.IsPhrase
  | .call func args keywords _ =>
    func.IsChain ∧ func.IsPhrase ∧ ArePhrases args ∧ AreNamed keywords ∧
      (keywords.map (·.arg)).Nodup

def ArePhrases : List Expr → Prop
  | [] => True
  | e :: es => e.IsPhrase ∧ ArePhrases es

/-- The arguments by name of the language. -/
def AreNamed : List Keyword → Prop
  | [] => True
  | ⟨name, value, _⟩ :: ks => (IsName name.toList ∧ value.IsPhrase) ∧ AreNamed ks

end

/-- The statements of the language. A single target is no tuple. -/
structure Stmt.IsSentence (stmt : Stmt) : Prop where
  shaped : stmt.Shaped
  phrases : ∀ e ∈ stmt.parts, e.IsPhrase
  several : ∀ targets values span, stmt = .tupleAssign targets values span → 2 ≤ targets.length

theorem printAll_eq_map (es : List Expr) : printAll es = es.map Expr.print := by
  induction es with
  | nil => rfl
  | cons e es ih => rw [printAll, ih, List.map_cons]

/-- The written form of an argument by name. -/
def Keyword.print (k : Keyword) : List Char := k.arg.toList ++ '=' :: k.value.print

theorem printKeywords_eq_map (ks : List Keyword) : printKeywords ks = ks.map Keyword.print := by
  induction ks with
  | nil => rfl
  | cons k ks ih =>
    obtain ⟨name, value, span⟩ := k
    rw [printKeywords, ih, List.map_cons]
    rfl

theorem arePhrases_iff {es : List Expr} : ArePhrases es ↔ ∀ e ∈ es, e.IsPhrase := by
  induction es with
  | nil => simp [ArePhrases]
  | cons e es ih => simp [ArePhrases, ih]

theorem areNamed_iff {ks : List Keyword} :
    AreNamed ks ↔ ∀ k ∈ ks, IsName k.arg.toList ∧ k.value.IsPhrase := by
  induction ks with
  | nil => simp [AreNamed]
  | cons k ks ih =>
    obtain ⟨name, value, span⟩ := k
    simp [AreNamed, ih]

namespace Syntax

/-- Items after the first one, each after a comma and a blank. -/
def afterComma (items : List (List Char)) : List Char := items.flatMap fun item => ',' :: ' ' :: item

@[simp] theorem afterComma_nil : afterComma [] = [] := rfl

@[simp] theorem afterComma_cons (item : List Char) (items : List (List Char)) :
    afterComma (item :: items) = ',' :: ' ' :: (item ++ afterComma items) := rfl

@[simp] theorem commaSeparated_nil : commaSeparated [] = [] := rfl

theorem commaSeparated_cons (item : List Char) (items : List (List Char)) :
    commaSeparated (item :: items) = item ++ afterComma items := by
  induction items generalizing item with
  | nil => simp [commaSeparated]
  | cons next items ih =>
    have hrest := ih next
    simp only [commaSeparated] at hrest ⊢
    rw [List.intercalate_cons_cons, hrest]
    simp

theorem length_le_afterComma {item : List Char} {items : List (List Char)} (h : item ∈ items) :
    item.length ≤ (afterComma items).length := by
  induction items with
  | nil => simp at h
  | cons first items ih =>
    simp only [afterComma_cons, List.length_cons, List.length_append]
    obtain rfl | h := List.mem_cons.mp h
    · omega
    · have := ih h
      omega

/-- An item is no longer than the items together. -/
theorem length_le_commaSeparated {item : List Char} {items : List (List Char)} (h : item ∈ items) :
    item.length ≤ (commaSeparated items).length := by
  cases items with
  | nil => simp at h
  | cons first items =>
    rw [commaSeparated_cons, List.length_append]
    obtain rfl | h := List.mem_cons.mp h
    · omega
    · have := length_le_afterComma h
      omega

/-! ### Strings in quotes -/

theorem unescape_quoteChar (c : Char) (cs : List Char) :
    unescape (quoteChar c ++ cs) = c :: unescape cs := by
  unfold quoteChar
  split
  · next h => simp [h, unescape, escaped]
  · split
    · next h => simp [h, unescape, escaped]
    · exact unescape_escapeChar c cs

theorem unescape_flatMap_quoteChar (text : List Char) : unescape (text.flatMap quoteChar) = text := by
  induction text with
  | nil => rfl
  | cons c text ih => rw [List.flatMap_cons, unescape_quoteChar, ih]

theorem scanQuoted_quoteChar (c : Char) (cs : List Char) :
    scanQuoted '"' (quoteChar c ++ cs) =
      (quoteChar c ++ (scanQuoted '"' cs).1, (scanQuoted '"' cs).2) := by
  unfold quoteChar
  split
  · simp [scanQuoted]
  · next hline =>
    split
    · simp [scanQuoted]
    · next hreturn => exact scanQuoted_escapeChar (not_or.mpr ⟨hline, hreturn⟩) cs

theorem scanQuoted_flatMap_quoteChar (text rest : List Char) :
    scanQuoted '"' (text.flatMap quoteChar ++ '"' :: rest) =
      (text.flatMap quoteChar, '"' :: rest) := by
  induction text with
  | nil => simp [scanQuoted]
  | cons c text ih =>
    rw [List.flatMap_cons, List.append_assoc, scanQuoted_quoteChar, ih]

/-- Whatever a text holds, it is read as a whole from between the quotes. -/
theorem scanString_quote (text rest : List Char) :
    scanString (quote text ++ rest) = some (quote text, rest) := by
  simp [quote, scanString, scanQuoted_flatMap_quoteChar]

end Syntax

end TaskDialogue
