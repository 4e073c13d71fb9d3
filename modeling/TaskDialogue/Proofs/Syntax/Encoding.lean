import TaskDialogue.Syntax.Encoding
import TaskDialogue.Proofs.Syntax.Spans

/-!
# Syntax trees as JSON and back

A node is read back as it was written. What is lost is a number that is too large for a double: it
is read from the text as an infinity, JSON has none, and the `null` that stands for it is no
number. So a program comes back whole, or not at all when such a number is in it.
-/
namespace TaskDialogue

mutual

/-- No number within is an infinity. -/
def Expr.isFinite : Expr → Bool
  | .none _ | .bool _ _ | .int _ _ | .str _ _ | .name _ _ => true
  | .float x _ => x.isFinite
  | .list es _ => Expr.areFinite es
  | .field base _ _ => base.isFinite
  | .subscript base index _ => base.isFinite && index.isFinite
  | .call func args keywords _ =>
    func.isFinite && Expr.areFinite args && Expr.areFiniteIn keywords

def Expr.areFinite : List Expr → Bool
  | [] => true
  | e :: es => e.isFinite && Expr.areFinite es

def Expr.areFiniteIn : List Keyword → Bool
  | [] => true
  | ⟨_, value, _⟩ :: ks => value.isFinite && Expr.areFiniteIn ks

end

def Stmt.isFinite (s : Stmt) : Bool := s.parts.all Expr.isFinite

def Program.isFinite (p : Program) : Bool := p.body.all Stmt.isFinite

namespace Expr

theorem areFinite_eq_all (es : List Expr) : areFinite es = es.all isFinite := by
  induction es with
  | nil => rfl
  | cons e es ih => rw [areFinite, ih, List.all_cons]

theorem areFiniteIn_eq_all (ks : List Keyword) : areFiniteIn ks = ks.all (·.value.isFinite) := by
  induction ks with
  | nil => rfl
  | cons k ks ih =>
    obtain ⟨arg, value, span⟩ := k
    rw [areFiniteIn, ih, List.all_cons]

theorem toJsonAll_eq_map (es : List Expr) : toJsonAll es = es.map toJson := by
  induction es with
  | nil => rfl
  | cons e es ih => rw [toJsonAll, ih, List.map_cons]

theorem toJsonKeywords_eq_map (ks : List Keyword) : toJsonKeywords ks = ks.map toJsonKeyword := by
  induction ks with
  | nil => rfl
  | cons k ks ih => rw [toJsonKeywords, ih, List.map_cons]

end Expr

/-! ### Depth -/

namespace Json

theorem depth_lt_array {j : Json} {js : List Json} (h : j ∈ js) : j.depth < (array js).depth := by
  suffices hle : j.depth ≤ depthItems js by
    rw [depth]
    omega
  induction js with
  | nil => cases h
  | cons k js ih =>
    rw [depthItems]
    obtain rfl | h := List.mem_cons.mp h
    · exact le_max_left _ _
    · exact (ih h).trans (le_max_right _ _)

theorem depth_lt_object {key : String} {j : Json} {fields : List (String × Json)}
    (h : (key, j) ∈ fields) : j.depth < (object fields).depth := by
  suffices hle : j.depth ≤ depthFields fields by
    rw [depth]
    omega
  induction fields with
  | nil => cases h
  | cons f fields ih =>
    rw [depthFields]
    obtain rfl | h := List.mem_cons.mp h
    · exact le_max_left _ _
    · exact (ih h).trans (le_max_right _ _)

end Json

theorem depth_lt_node {kind key : String} {j : Json} {fields : List (String × Json)} {s : Span}
    (h : (key, j) ∈ fields) : j.depth < (node kind fields s).depth :=
  Json.depth_lt_object (List.mem_cons_of_mem _ (List.mem_append_left _ h))

/-! ### What is written is read -/

namespace Json

@[simp] theorem record?_object (names : List String) (fields : List (String × Json)) :
    (object fields).record? names = some (names.map (lookup? · fields)) := rfl

@[simp] theorem lookup?_cons (key name : String) (j : Json) (fields : List (String × Json)) :
    lookup? key ((name, j) :: fields) = if name = key then some j else lookup? key fields := rfl

@[simp] theorem variant?_node (kinds : List String) (kind : String) (fields : List (String × Json))
    (s : Span) : (node kind fields s).variant? "t" (kind? kinds) =
      some (kind, object (("t", string kind) :: (fields ++ s.field))) := rfl

@[simp] theorem tagged?_node (kind : String) (fields : List (String × Json)) (s : Span) :
    (node kind fields s).tagged? "t" =
      some (kind, object (("t", string kind) :: (fields ++ s.field))) := rfl

@[simp] theorem bool?_bool (b : Bool) : (bool b).bool? = some b := rfl

@[simp] theorem string?_string (s : String) : (string s).string? = some s := rfl

@[simp] theorem array?_array (js : List Json) : (array js).array? = some js := rfl

@[simp] theorem int64?_int (n : Int64) : (int n.toInt).int64? = some n := Number.toInt64?_toInt n

theorem double?_ofDouble (x : Double) :
    (ofDouble x).double? = if x.isFinite then some x else none := by
  unfold ofDouble
  split <;> rfl

theorem index?_ofNat {n : Nat} (h : n < Text.indexBound) : (ofNat n).index? = some n := by
  have hlt : (n : Int) < (Text.indexBound : Int) := Int.ofNat_lt.mpr h
  rw [ofNat, index?, if_pos (by simp only [Int.natCast_nonneg, hlt, decide_true, Bool.and_self]),
    Int.toNat_natCast]

end Json

/-- A range is read off its ends, whatever values they are. With numbers in their place the kernel
would compare them with the bound of a word by counting down from it. -/
theorem Span.ofJson?_object (start stop : Json) :
    ofJson? (.object [("start", start), ("end", stop)]) =
      start.index?.bind fun m => stop.index?.map fun n => ⟨m, n⟩ := by
  have hrecord : (Json.object [("start", start), ("end", stop)]).record? ["start", "end"] =
      some [some start, some stop] := by
    simp
  simp only [ofJson?, hrecord, Option.bind_eq_bind, Option.bind_some]
  cases start.index? <;> cases stop.index? <;> rfl

theorem Span.ofField?_field {s : Span} (h : s.start < Text.indexBound ∧ s.stop < Text.indexBound) :
    ofField? (Json.lookup? "span" s.field) = some s := by
  unfold field
  split
  · next hnone => exact congrArg some hnone.symm
  · have hlookup : Json.lookup? "span" [("span", s.toJson)] = some s.toJson := if_pos rfl
    rw [hlookup, ofField?, toJson, ofJson?_object, Json.index?_ofNat h.1, Json.index?_ofNat h.2]
    rfl

/-- A list is read when all its items are. -/
theorem mapM_map_of_ite {α β : Type} {f : α → β} {read : β → Option α} {ok : α → Bool} {as : List α}
    (h : ∀ a ∈ as, read (f a) = if ok a then some a else none) :
    (as.map f).mapM read = if as.all ok then some as else none := by
  induction as with
  | nil => rfl
  | cons a as ih =>
    obtain ⟨ha, has⟩ := List.forall_mem_cons.mp h
    rw [List.map_cons, List.mapM_cons, ha, ih has, List.all_cons]
    cases ok a <;> cases as.all ok <;> rfl

/-- A node with ranges that a word can count, its own and those of the nodes below. -/
inductive Node.InWord : Node → Prop
  | mk {n : Node} (start : n.span.start < Text.indexBound) (stop : n.span.stop < Text.indexBound)
    (children : ∀ m ∈ n.children, m.InWord) : n.InWord

namespace Node

variable {n m : Node}

theorem InWord.child (h : n.InWord) (hm : m ∈ n.children) : m.InWord := by
  cases h with
  | mk _ _ children => exact children m hm

theorem InWord.ofField?_field (h : n.InWord) :
    Span.ofField? (Json.lookup? "span" n.span.field) = some n.span := by
  cases h with
  | mk start stop _ => exact Span.ofField?_field ⟨start, stop⟩

/-- Ranges end within the text that they were read from. -/
theorem Sound.inWord {text : List Char} (h : n.Sound text)
    (hsize : Text.byteLength text < Text.indexBound) : n.InWord := by
  induction h with
  | mk placed _ ih =>
    have hstop := placed.within.trans_lt hsize
    exact ⟨placed.nonempty.trans hstop, hstop, ih⟩

end Node

namespace Expr

/-- An expression and a keyword argument are read back as they were written when all their
numbers are finite, and not at all else. Each level of the tree takes one level of the value. -/
theorem ofJsonWithin?_toJson (fuel : Nat) :
    (∀ e : Expr, (Node.expr e).InWord → e.toJson.depth < fuel →
      ofJsonWithin? fuel e.toJson = if e.isFinite then some e else .none) ∧
    ∀ k : Keyword, (Node.keyword k).InWord → (toJsonKeyword k).depth < fuel →
      keywordWithin? fuel (toJsonKeyword k) = if k.value.isFinite then some k else .none := by
  induction fuel with
  | zero => exact ⟨nofun, nofun⟩
  | succ fuel ih =>
    obtain ⟨ihExpr, ihKeyword⟩ := ih
    have hlt : ∀ {kind key : String} {j : Json} {fields : List (String × Json)} {s : Span},
        (node kind fields s).depth < fuel + 1 → (key, j) ∈ fields → j.depth < fuel :=
      fun hdepth hmem => (depth_lt_node hmem).trans_le (Nat.le_of_lt_succ hdepth)
    have hall : ∀ {es : List Expr}, (∀ e ∈ es, (Node.expr e).InWord) →
        (Json.array (toJsonAll es)).depth < fuel →
        (toJsonAll es).mapM (ofJsonWithin? fuel) = if areFinite es then some es else .none := by
      intro es hes hdepth
      rw [toJsonAll_eq_map] at hdepth ⊢
      rw [areFinite_eq_all]
      exact mapM_map_of_ite fun e he => ihExpr e (hes e he)
        ((Json.depth_lt_array (List.mem_map_of_mem he)).trans hdepth)
    have hallIn : ∀ {ks : List Keyword}, (∀ k ∈ ks, (Node.keyword k).InWord) →
        (Json.array (toJsonKeywords ks)).depth < fuel →
        (toJsonKeywords ks).mapM (keywordWithin? fuel) =
          if areFiniteIn ks then some ks else .none := by
      intro ks hks hdepth
      rw [toJsonKeywords_eq_map] at hdepth ⊢
      rw [areFiniteIn_eq_all]
      exact mapM_map_of_ite fun k hk => ihKeyword k (hks k hk)
        ((Json.depth_lt_array (List.mem_map_of_mem hk)).trans hdepth)
    refine ⟨fun e he hdepth => ?_, fun k hk hdepth => ?_⟩
    · have hspan : Span.ofField? (Json.lookup? "span" e.span.field) = some e.span :=
        he.ofField?_field
      cases e with
      | none s | bool b s | int n s | str v s | name id s =>
        rw [toJson, ofJsonWithin?, Json.variant?_node, Option.bind_eq_bind, Option.bind_some]
        simp only [span] at hspan
        simp [isFinite, hspan]
      | float x s =>
        simp only [span] at hspan
        rw [toJson, isFinite, ofJsonWithin?, Json.variant?_node, Option.bind_eq_bind,
          Option.bind_some]
        simp [Json.double?_ofDouble, hspan, apply_ite_left Option.bind]
      | list es s =>
        simp only [toJson, span] at hdepth hspan
        have hes := hall (fun e hmem => he.child (List.mem_map_of_mem hmem)) (hlt hdepth (.head _))
        rw [toJson, isFinite, ofJsonWithin?, Json.variant?_node, Option.bind_eq_bind,
          Option.bind_some]
        simp [hes, hspan, apply_ite_left Option.bind]
      | field base attr s =>
        simp only [toJson, span] at hdepth hspan
        have hbase := ihExpr base (he.child (.head _)) (hlt hdepth (.head _))
        rw [toJson, isFinite, ofJsonWithin?, Json.variant?_node, Option.bind_eq_bind,
          Option.bind_some]
        simp [hbase, hspan, apply_ite_left Option.bind]
      | subscript base index s =>
        simp only [toJson, span] at hdepth hspan
        have hbase := ihExpr base (he.child (.head _)) (hlt hdepth (.head _))
        have hindex := ihExpr index (he.child (.tail _ (.head _))) (hlt hdepth (.tail _ (.head _)))
        rw [toJson, isFinite, ofJsonWithin?, Json.variant?_node, Option.bind_eq_bind,
          Option.bind_some]
        simp [hbase, hindex, hspan, apply_ite_left Option.bind, ite_and]
      | call func args keywords s =>
        simp only [toJson, span] at hdepth hspan
        have hfunc := ihExpr func (he.child (.head _)) (hlt hdepth (.head _))
        have hargs := hall
          (fun e hmem => he.child (.tail _ (List.mem_append_left _ (List.mem_map_of_mem hmem))))
          (hlt hdepth (.tail _ (.head _)))
        have hkeywords := hallIn
          (fun k hmem => he.child (.tail _ (List.mem_append_right _ (List.mem_map_of_mem hmem))))
          (hlt hdepth (.tail _ (.tail _ (.head _))))
        rw [toJson, isFinite, ofJsonWithin?, Json.variant?_node, Option.bind_eq_bind,
          Option.bind_some]
        simp [hfunc, hargs, hkeywords, hspan, apply_ite_left Option.bind, ite_and]
    · obtain ⟨arg, value, s⟩ := k
      have hspan : Span.ofField? (Json.lookup? "span" s.field) = some s := hk.ofField?_field
      rw [toJsonKeyword] at hdepth
      have hvalue := ihExpr value (hk.child (.head _))
        ((Json.depth_lt_object (.tail _ (.head _))).trans_le (Nat.le_of_lt_succ hdepth))
      simp [toJsonKeyword, keywordWithin?, hvalue, hspan, apply_ite_left Option.bind]

theorem ofJson?_toJson {e : Expr} (he : (Node.expr e).InWord) :
    ofJson? e.toJson = if e.isFinite then some e else .none :=
  (ofJsonWithin?_toJson _).1 e he (Nat.lt_succ_self _)

end Expr

theorem Stmt.ofJson?_toJson {s : Stmt} (hs : (Node.stmt s).InWord) :
    ofJson? s.toJson = if s.isFinite then some s else none := by
  have hspan : Span.ofField? (Json.lookup? "span" s.span.field) = some s.span :=
    hs.ofField?_field
  have hparts : ∀ e ∈ s.parts, Expr.ofJson? e.toJson = if e.isFinite then some e else none :=
    fun e he => Expr.ofJson?_toJson (hs.child (List.mem_map_of_mem he))
  cases s with
  | expr value s =>
    have hvalue := hparts value (.head _)
    simp only [span] at hspan
    rw [toJson, ofJson?, Json.tagged?_node, Option.bind_eq_bind, Option.bind_some, isFinite, parts]
    simp [hvalue, hspan, apply_ite_left Option.bind]
  | assign target value s | append target value s =>
    have htarget := hparts target (.head _)
    have hvalue := hparts value (.tail _ (.head _))
    simp only [span] at hspan
    rw [toJson, ofJson?, Json.tagged?_node, Option.bind_eq_bind, Option.bind_some, isFinite, parts]
    simp [htarget, hvalue, hspan, apply_ite_left Option.bind, ite_and]
  | tupleAssign targets values s =>
    have htargets := mapM_map_of_ite fun e he => hparts e (List.mem_append_left _ he)
    have hvalues := mapM_map_of_ite fun e he => hparts e (List.mem_append_right _ he)
    simp only [span] at hspan
    rw [toJson, ofJson?, Json.tagged?_node, Option.bind_eq_bind, Option.bind_some, isFinite, parts,
      List.all_append]
    simp [htargets, hvalues, hspan, apply_ite_left Option.bind, ite_and]

/-- A program comes back from JSON, nodes without a range included, when its numbers are finite. -/
theorem Program.ofJson?_toJson {p : Program} (hp : ∀ s ∈ p.body, (Node.stmt s).InWord) :
    ofJson? p.toJson = if p.isFinite then some p else none := by
  have hbody := mapM_map_of_ite fun s hs => Stmt.ofJson?_toJson (hp s hs)
  rw [isFinite]
  simp [toJson, ofJson?, hbody, apply_ite_left Option.bind]

/-- A program that was read from a text is the same program after it went through JSON, ranges
included, when no number in it is too large for a double; when one is, it does not come back. -/
theorem Program.ofJson?_toJson_of_parse {text : String} {p : Program}
    (h : Program.parse text = .ok p) (hsize : Text.byteLength text.toList < Text.indexBound) :
    ofJson? p.toJson = if p.isFinite then some p else none := by
  obtain ⟨stop, hrow⟩ := row_of_parse h
  have hfits := ((Node.row_iff (Node.Row.le hrow)).mp hrow).1
  exact ofJson?_toJson fun s hs => (hfits _ (List.mem_map_of_mem hs)).sound.inWord hsize

/-- A range and a number with a fraction come back. -/
theorem Program.ofJson?_toJson_of_parse_half : ∃ p, Program.parse "x.a = 0.5" = .ok p ∧
    ofJson? p.toJson = some p := by
  have hparse : Program.parse "x.a = 0.5" = .ok ⟨[.assign (.field (.name "x" ⟨0, 1⟩) "a" ⟨0, 3⟩)
      (.float ⟨0x3fe0000000000000⟩ ⟨6, 9⟩) ⟨0, 9⟩]⟩ := by
    decide +kernel
  exact ⟨_, hparse, ofJson?_toJson_of_parse hparse (by decide)⟩

/-- A number that no double holds is read as an infinity, and its program does not come back. -/
theorem Program.ofJson?_toJson_overflow : ∃ p, Program.parse "1e400" = .ok p ∧
    ofJson? p.toJson = none := by
  have hparse : Program.parse "1e400" =
      .ok ⟨[.expr (.float ⟨0x7ff0000000000000⟩ ⟨0, 5⟩) ⟨0, 5⟩]⟩ := by
    decide +kernel
  exact ⟨_, hparse, by decide +kernel⟩

end TaskDialogue
