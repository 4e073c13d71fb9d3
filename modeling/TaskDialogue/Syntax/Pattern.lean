import TaskDialogue.Syntax.Fault

/-!
# Patterns over turn text

A pattern reads a value off the front of a text, or fails and takes nothing. The
first of several alternatives that reads is taken for good. Between the parts of a
sequence blanks are skipped, also before a part that then takes nothing.

Beside its reader each pattern says what a failed attempt leaves in the trace,
which names the rules that failed farthest on. Readers never look at the trace.
-/
namespace TaskDialogue.Syntax

/-- A place in a text: the bytes before it and the characters after it. -/
structure Cursor where
  offset : Nat
  rest : List Char

namespace Cursor

/-- Blanks within a turn. A line feed is none: it separates statements. -/
def isSpace (c : Char) : Bool := c == ' ' || c == '\t' || c == '\r'

def after (c : Cursor) (taken rest : List Char) : Cursor :=
  ⟨c.offset + Text.byteLength taken, rest⟩

def skip (c : Cursor) : Cursor :=
  c.after (c.rest.takeWhile isSpace) (c.rest.dropWhile isSpace)

def spanTo (c d : Cursor) : Span := ⟨c.offset, d.offset⟩

end Cursor

/-- The farthest place where rules failed, and those rules. -/
structure Trace where
  offset : Nat
  expected : List Rule

namespace Trace

/-- How many rules failed at a place, if that is the farthest one. -/
def countAt (t : Trace) (offset : Nat) : Nat := if t.offset = offset then t.expected.length else 0

/-- Record that a rule failed at a place, where `start` is the trace from before
it was tried. A rule that failed because of a single rule at its own place says
less than that one and is left out; otherwise it stands for all that were tried
within it at its place. -/
def record (t start : Trace) (rule : Rule) (offset : Nat) : Trace :=
  if t.countAt offset = start.countAt offset + 1 then t
  else if t.offset < offset then ⟨offset, [rule]⟩
  else if t.offset = offset then ⟨offset, t.expected.take (start.countAt offset) ++ [rule]⟩
  else t

end Trace

/-- A reader of `α` with the trace of its attempts. -/
structure Pattern (α : Type) where
  read : Cursor → Option (α × Cursor)
  trace : Cursor → Trace → Trace

namespace Pattern

variable {α β : Type}

def fail : Pattern α := ⟨fun _ => none, fun _ t => t⟩

def nothing : Pattern Unit := ⟨fun c => some ((), c), fun _ t => t⟩

def symbol (s : Char) : Pattern Unit where
  read c :=
    match c.rest with
    | [] => none
    | x :: rest => if x = s then some ((), c.after [x] rest) else none
  trace _ t := t

def endOfText : Pattern Unit where
  read c := if c.rest.isEmpty then some ((), c) else none
  trace c t := if c.rest.isEmpty then t else t.record t .endOfText c.offset

/-- A word that `scan` cuts off the text, under a rule of its own. -/
def token (rule : Rule) (scan : List Char → Option (List Char × List Char)) :
    Pattern (List Char × Span) where
  read c := (scan c.rest).map fun r =>
    let d := c.after r.1 r.2
    ((r.1, c.spanTo d), d)
  trace c t := if (scan c.rest).isSome then t else t.record t rule c.offset

def map (f : α → β) (p : Pattern α) : Pattern β where
  read c := (p.read c).map fun r => (f r.1, r.2)
  trace := p.trace

/-- The one and then the other, with blanks between them. -/
def seq (p : Pattern α) (q : Pattern β) : Pattern (α × β) where
  read c :=
    match p.read c with
    | none => none
    | some (a, d) => (q.read d.skip).map fun r => ((a, r.1), r.2)
  trace c t :=
    match p.read c with
    | none => p.trace c t
    | some (_, d) => q.trace d.skip (p.trace c t)

/-- The first part of a sequence. -/
def seqLeft (p : Pattern α) (q : Pattern β) : Pattern α := (p.seq q).map (·.1)

/-- The second part of a sequence. -/
def seqRight (p : Pattern α) (q : Pattern β) : Pattern β := (p.seq q).map (·.2)

/-- The first of two alternatives that reads. -/
def orElse (p q : Pattern α) : Pattern α where
  read c := (p.read c).or (q.read c)
  trace c t := if (p.read c).isSome then p.trace c t else q.trace c (p.trace c t)

def optional (p : Pattern α) : Pattern (Option α) where
  read c :=
    match p.read c with
    | some (a, d) => some (some a, d)
    | none => some (none, c)
  trace := p.trace

/-- Further rounds of a repetition. The blanks before a round that fails are not
taken. -/
def readMore (p : Pattern α) : Nat → Cursor → List α × Cursor
  | 0, c => ([], c)
  | fuel + 1, c =>
    match p.read c.skip with
    | none => ([], c)
    | some (a, d) =>
      let r := readMore p fuel d
      (a :: r.1, r.2)

def traceMore (p : Pattern α) : Nat → Cursor → Trace → Trace
  | 0, _, t => t
  | fuel + 1, c, t =>
    match p.read c.skip with
    | none => p.trace c.skip t
    | some (_, d) => traceMore p fuel d (p.trace c.skip t)

/-- As many rounds as there are, with blanks between them. Each round takes a
character at least, so the length of the text bounds their number. -/
def many (p : Pattern α) : Pattern (List α) where
  read c :=
    match p.read c with
    | none => some ([], c)
    | some (a, d) =>
      let r := readMore p c.rest.length d
      some (a :: r.1, r.2)
  trace c t :=
    match p.read c with
    | none => p.trace c t
    | some (_, d) => traceMore p c.rest.length d (p.trace c t)

/-- One or more items with commas between them; one more comma may follow. -/
def commaList (p : Pattern α) : Pattern (List α) :=
  (p.seq (((symbol ',').seqRight p).many.seqLeft (symbol ',').optional)).map fun r => r.1 :: r.2

/-- The pattern under a rule, with the range that it took. -/
def rule (name : Rule) (p : Pattern α) : Pattern (α × Span) where
  read c := (p.read c).map fun r => ((r.1, c.spanTo r.2), r.2)
  trace c t := if (p.read c).isSome then p.trace c t else (p.trace c t).record t name c.offset

end Pattern

end TaskDialogue.Syntax
