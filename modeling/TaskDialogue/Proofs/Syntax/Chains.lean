import TaskDialogue.Proofs.Syntax.Literals

/-!
# Chains in writing

The written form of a chain is a name and the links after it. Each node of the chain adds a link to
those of its base, while the grammar reads the links one by one from the front, so the induction on
a chain adds a round at the end of a repetition.
-/
namespace TaskDialogue.Syntax

open Pattern

/-! ### How expressions start -/

/-- Whether an expression may start with a character. -/
def startsPhrase (c : Char) : Bool :=
  isIdentStart c || c.isDigit || c == '-' || c == '"' || c == '['

theorem start_print : (e : Expr) → e.IsPhrase → ∃ c cs, e.print = c :: cs ∧ startsPhrase c = true
  | .none _, _ => ⟨'N', "one".toList, rfl, by decide⟩
  | .bool true _, _ => ⟨'T', "rue".toList, rfl, by decide⟩
  | .bool false _, _ => ⟨'F', "alse".toList, rfl, by decide⟩
  | .int n _, _ => by
    obtain ⟨c, cs, hcons, hc⟩ := start_renderInt n.toInt
    refine ⟨c, cs, hcons, ?_⟩
    obtain rfl | hdigit := hc
    · decide
    · simp [startsPhrase, hdigit]
  | .str text _, _ => ⟨'"', _, rfl, by decide⟩
  | .list es _, _ => ⟨'[', _, rfl, by decide⟩
  | .name id _, h => by
    obtain ⟨c, cs, hcons, hstart⟩ := IsName.start h
    exact ⟨c, cs, hcons, by simp [startsPhrase, hstart]⟩
  | .field base attr _, h => by
    obtain ⟨c, cs, hcons, hstart⟩ := start_print base h.2.1
    exact ⟨c, _, by rw [Expr.print, hcons, List.cons_append], hstart⟩
  | .subscript base index _, h => by
    obtain ⟨c, cs, hcons, hstart⟩ := start_print base h.2.1
    exact ⟨c, _, by rw [Expr.print, hcons, List.cons_append], hstart⟩
  | .call func args keywords _, h => by
    obtain ⟨c, cs, hcons, hstart⟩ := start_print func h.2.1
    exact ⟨c, _, by rw [Expr.print, hcons, List.cons_append], hstart⟩

section

variable {e : Expr} {tail : List Char}

theorem head_print (h : e.IsPhrase) (tail : List Char) {d : Char} (hd : startsPhrase d = false) :
    (e.print ++ tail).head? ≠ some d := by
  obtain ⟨c, cs, hcons, hstart⟩ := start_print e h
  rw [hcons]
  rintro ⟨⟩
  simp [hd] at hstart

/-- No blanks stand before an expression. -/
theorem start_isSpace (h : e.IsPhrase) :
    ∃ c cs, e.print = c :: cs ∧ Cursor.isSpace c = false := by
  obtain ⟨c, cs, hcons, hstart⟩ := start_print e h
  refine ⟨c, cs, hcons, Bool.eq_false_iff.mpr fun hspace => ?_⟩
  simp only [Cursor.isSpace, Bool.or_eq_true, beq_iff_eq] at hspace
  obtain (rfl | rfl) | rfl := hspace <;> exact absurd hstart (by decide)

theorem afterSpace_print (h : e.IsPhrase) (tail : List Char) :
    afterSpace (e.print ++ tail) = e.print ++ tail := by
  obtain ⟨c, cs, hcons, hspace⟩ := start_isSpace h
  rw [hcons, List.cons_append, afterSpace_cons hspace]

/-- Only a chain starts with an identifier. -/
theorem refuses_identifier_print (h : e.IsPhrase) (hplain : ¬e.IsChain) (htail : EndsWord tail) :
    identifier.Refuses (e.print ++ tail) := by
  cases e with
  | none s => exact refuses_identifier_reserved (w := "None") (by decide) htail
  | bool b s =>
    cases b with
    | true => exact refuses_identifier_reserved (w := "True") (by decide) htail
    | false => exact refuses_identifier_reserved (w := "False") (by decide) htail
  | int n s =>
    refine refuses_identifier_of_start ?_
    obtain ⟨c, cs, hcons, hc⟩ := start_renderInt n.toInt
    rw [Expr.print, hcons]
    rintro _ ⟨⟩
    obtain rfl | hdigit := hc
    · rfl
    · exact isIdentStart_of_isDigit hdigit
  | str text s =>
    refine refuses_identifier_of_start ?_
    rintro _ ⟨⟩
    rfl
  | list es s =>
    refine refuses_identifier_of_start ?_
    rintro _ ⟨⟩
    rfl
  | float x s => exact h.elim
  | name id s => exact absurd trivial hplain
  | field base attr s => exact absurd trivial hplain
  | subscript base index s => exact absurd trivial hplain
  | call func args keywords s => exact absurd trivial hplain

end

/-! ### Arguments -/

/-- The arguments of a call, as a call in writing gives them. -/
def callArguments (args : List Expr) (keywords : List Keyword) : List Argument :=
  args.map (fun e => .positional (.ok e) e.span) ++
    keywords.map fun k => .keyword k.arg (.ok k.value) k.span

/-- The written form of an argument. -/
def Argument.print : Argument → List Char
  | .positional value _ => value.toOption.elim [] Expr.print
  | .keyword name value _ => name.toList ++ '=' :: value.toOption.elim [] Expr.print

theorem print_callArguments (args : List Expr) (keywords : List Keyword) :
    printAll args ++ printKeywords keywords = (callArguments args keywords).map Argument.print := by
  rw [printAll_eq_map, printKeywords_eq_map, callArguments, List.map_append, List.map_map,
    List.map_map]
  rfl

theorem arguments_positional (es : List Expr) (rest : List Argument) (args : List Expr) :
    arguments (es.map (fun e => .positional (.ok e) e.span) ++ rest) args [] =
      arguments rest (args ++ es) [] := by
  induction es generalizing args with
  | nil => rw [List.map_nil, List.nil_append, List.append_nil]
  | cons e es ih =>
    rw [List.map_cons, List.cons_append, arguments]
    exact (ih (args ++ [e])).trans (by rw [List.append_assoc]; rfl)

theorem arguments_keywords (ks : List Keyword) (args : List Expr) (keywords : List Keyword)
    (h : ((keywords ++ ks).map (·.arg)).Nodup) :
    arguments (ks.map fun k => .keyword k.arg (.ok k.value) k.span) args keywords =
      .ok (args, keywords ++ ks) := by
  induction ks generalizing keywords with
  | nil => rw [List.map_nil, List.append_nil, arguments]
  | cons k ks ih =>
    obtain ⟨name, value, span⟩ := k
    rw [List.append_cons] at h
    have hnew : keywords.any (·.arg = name) = false := by
      rw [List.map_append] at h
      have hfirst := (List.nodup_append.mp h).1
      rw [List.map_append, List.nodup_append] at hfirst
      simp only [List.any_eq_false, decide_eq_true_eq]
      exact fun l hl => hfirst.2.2 _ (List.mem_map_of_mem hl) _ (List.mem_singleton.mpr rfl)
    rw [List.map_cons, arguments, hnew, List.append_cons, if_neg Bool.false_ne_true]
    exact ih (keywords ++ [⟨name, value, span⟩]) h

theorem arguments_callArguments {args : List Expr} {keywords : List Keyword}
    (h : (keywords.map (·.arg)).Nodup) :
    arguments (callArguments args keywords) [] [] = .ok (args, keywords) := by
  rw [callArguments, arguments_positional, List.nil_append]
  exact arguments_keywords keywords args [] (by simpa using h)

theorem extend_callArguments (base : Expr) {args : List Expr} {keywords : List Keyword} (span : Span)
    (h : (keywords.map (·.arg)).Nodup) :
    extend base (.call (callArguments args keywords)) span =
      .ok (.call base args keywords (base.span.merge span)) := by
  rw [extend, arguments_callArguments h]
  rfl

/-! ### Chains -/

theorem chain_append (base : Expr) (xs ys : List (Suffix × Span)) :
    chain base (xs ++ ys) = (chain base xs).bind fun e => chain e ys := by
  induction xs generalizing base with
  | nil => rfl
  | cons x xs ih =>
    simp only [List.cons_append, chain]
    cases extend base x.1 x.2 with
    | error e => rfl
    | ok e => exact ih e

theorem forall₂_concat_left {α β : Type} {R : α → β → Prop} {as : List α} {a : α} {bs : List β}
    (h : List.Forall₂ R (as ++ [a]) bs) :
    ∃ bs' b, bs = bs' ++ [b] ∧ List.Forall₂ R as bs' ∧ R a b := by
  rw [← List.forall₂_reverse_iff, List.reverse_concat, List.forall₂_cons_left_iff] at h
  obtain ⟨b, bs', hb, hbs, heq⟩ := h
  refine ⟨bs'.reverse, b, by simpa using congrArg List.reverse heq, ?_, hb⟩
  rwa [← List.forall₂_reverse_iff, List.reverse_reverse]

/-- A chain in writing: a name, and links after it. -/
structure Headed (e : Expr) (name links : List Char) : Prop where
  named : IsName name
  print : e.print = name ++ links
  start : ∀ c, links.head? = some c → c = '(' ∨ c = '.' ∨ c = '['

namespace Headed

variable {e base : Expr} {name links link tail : List Char} {c : Char}

theorem of_name {id : String} (s : Span) (h : IsName id.toList) : Headed (.name id s) id.toList [] where
  named := h
  print := (List.append_nil _).symm
  start := nofun

theorem extend (h : Headed base name links) (hprint : e.print = base.print ++ c :: link)
    (hstart : c = '(' ∨ c = '.' ∨ c = '[') : Headed e name (links ++ c :: link) where
  named := h.named
  print := by rw [hprint, h.print, List.append_assoc]
  start := by
    cases links with
    | nil =>
      rintro _ ⟨⟩
      exact hstart
    | cons d links => exact fun c hc => h.start c hc

theorem endsWord (h : Headed e name links) (htail : EndsWord tail) : EndsWord (links ++ tail) := by
  intro c hc
  cases links with
  | nil => exact htail c hc
  | cons d links => obtain rfl | rfl | rfl := h.start c hc <;> rfl

theorem afterSpace (h : Headed e name links) (hne : links ≠ []) (tail : List Char) :
    Pattern.afterSpace (links ++ tail) = links ++ tail := by
  obtain ⟨c, cs, rfl⟩ := List.exists_cons_of_ne_nil hne
  refine afterSpace_cons ?_ _
  obtain rfl | rfl | rfl := h.start c rfl <;> decide

end Headed

/-- Every chain starts with a name. -/
theorem headed : (e : Expr) → e.IsChain → e.IsPhrase → ∃ name links, Headed e name links
  | .name _ s, _, h => ⟨_, _, .of_name s h⟩
  | .field base _ _, _, h => by
    obtain ⟨name, links, hbase⟩ := headed base h.1 h.2.1
    exact ⟨name, _, hbase.extend rfl (by simp)⟩
  | .subscript base _ _, _, h => by
    obtain ⟨name, links, hbase⟩ := headed base h.1 h.2.1
    exact ⟨name, _, hbase.extend rfl (by simp)⟩
  | .call func _ _ _, _, h => by
    obtain ⟨name, links, hbase⟩ := headed func h.1 h.2.1
    exact ⟨name, _, hbase.extend rfl (by simp)⟩

/-- A chain of which the grammar reads the links one by one. -/
structure Linked (x : Pattern (Draft Expr × Span)) (e : Expr) (name links : List Char)
    (Ps : List (Suffix × Span → Prop)) : Prop extends Headed e name links where
  bare : links = [] → ¬e.IsField
  rounds : ∀ tail, EndsWord tail → (suffix x).Rounds Ps (links ++ tail) tail
  chain : ∀ span rs, List.Forall₂ (fun P r => P r) Ps rs →
    Draft.Rel Expr.Like (.ok e) (chain (.name (String.ofList name) span) rs)

namespace Linked

variable {x : Pattern (Draft Expr × Span)} {e base : Expr} {name links link tail : List Char}
  {Ps : List (Suffix × Span → Prop)}

/-- A bare name. -/
theorem of_name {id : String} (s : Span) (h : IsName id.toList) :
    Linked x (.name id s) id.toList [] [] where
  toHeaded := .of_name s h
  bare _ := nofun
  rounds tail _ := .nil tail
  chain span rs hrs := by
    obtain rfl := List.forall₂_nil_left_iff.mp hrs
    exact .ok (by rw [String.ofList_toList]; rfl)

/-- One more link. -/
theorem extend (h : Linked x base name links Ps) {sfx : Suffix} {c : Char}
    (hprint : e.print = base.print ++ c :: link) (hstart : c = '(' ∨ c = '.' ∨ c = '[')
    (hread : ∀ tail, EndsWord tail →
      (suffix x).Reads (c :: link ++ tail) (fun r => sfx.Like r.1) tail)
    (hextend : ∃ span whole, Syntax.extend base sfx span = .ok whole ∧ e.Like whole) :
    Linked x e name (links ++ c :: link) (Ps ++ [fun r => sfx.Like r.1]) where
  toHeaded := h.toHeaded.extend hprint hstart
  bare := by simp
  rounds tail htail := by
    have hlink : EndsWord (c :: link ++ tail) := by
      rintro _ ⟨⟩
      obtain rfl | rfl | rfl := hstart <;> rfl
    have hspace : Cursor.isSpace c = false := by
      obtain rfl | rfl | rfl := hstart <;> decide
    have hlast := hread tail htail
    rw [List.cons_append, ← afterSpace_cons hspace] at hlast
    rw [List.append_assoc]
    refine (h.rounds _ hlink).concat hlast ?_
    simp only [List.length_append, List.length_cons]
    omega
  chain span rs hrs := by
    obtain ⟨rs, r, rfl, hfirst, hr⟩ := forall₂_concat_left hrs
    obtain ⟨base', hbase, hlike⟩ := (h.chain span rs hfirst).of_ok
    obtain ⟨s, whole, hwhole, he⟩ := hextend
    have hlast := like_extend s r.2 hlike hr
    rw [hwhole] at hlast
    obtain ⟨whole', hwhole', hlike'⟩ := hlast.of_ok
    rw [chain_append, hbase]
    simp only [Except.bind, Syntax.chain, hwhole']
    exact .ok (he.trans hlike')

end Linked

end TaskDialogue.Syntax
