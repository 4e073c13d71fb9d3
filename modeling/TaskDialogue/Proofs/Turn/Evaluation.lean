import TaskDialogue.Proofs.Store.Accessors

/-!
# What evaluation keeps

Evaluation reads the state and adds commands to its store. An invariant of evaluation says
what holds of states, of the values that come out and of commands while their slots are
filled. The steps that an invariant must survive are listed once; the induction over
expressions and argument lists is made once for all invariants.
-/
namespace TaskDialogue

namespace State

/-- More commands stand at the end of the store, and nothing else is different. -/
def Grows (s s' : State) : Prop :=
  ∃ made : List Command, s' = { s with objects := s.objects ++ made.map .command }

namespace Grows

variable {s s' s'' : State}

theorem refl (s : State) : s.Grows s := ⟨[], by simp⟩

theorem trans (first : s.Grows s') (last : s'.Grows s'') : s.Grows s'' := by
  obtain ⟨made, rfl⟩ := first
  obtain ⟨more, rfl⟩ := last
  exact ⟨made ++ more, by simp⟩

theorem alloc (s : State) (c : Command) : s.Grows (s.alloc (.command c)) := ⟨[c], rfl⟩

theorem length_le (h : s.Grows s') : s.objects.length ≤ s'.objects.length := by
  obtain ⟨made, rfl⟩ := h
  simp

end Grows

end State

/-- What an index means: an integer literal, or `None`. -/
inductive Expr.IsIndex : Expr → Option Int64 → Prop where
  | int (n : Int64) (span : Span) : IsIndex (.int n span) (some n)
  | none (span : Span) : IsIndex (.none span) Option.none

namespace Exec

theorem subscriptIndex_eq_ok {e : Expr} {index : Option Int64} :
    subscriptIndex e = .ok index ↔ e.IsIndex index := by
  constructor
  · intro h
    unfold subscriptIndex at h
    split at h
    · simp only [Except.ok.injEq] at h
      exact h ▸ .int ..
    · simp only [Except.ok.injEq] at h
      exact h ▸ .none _
    · simp at h
  · rintro (_ | _) <;> rfl

/-- What a read of an attribute gives stands in an object of the store. -/
theorem evalField_cases {s : State} {base : Expr} {attr : String} {v : Value}
    (h : evalField s base attr = .ok v) : ∃ target, (s.task target).get attr = .ok v := by
  unfold evalField at h
  split at h
  · obtain ⟨value, -, h⟩ := bind_eq_ok.mp h
    split at h
    · next id => exact ⟨⟨id, none⟩, by simpa [State.task] using h⟩
    · simp at h
  · obtain ⟨index, -, h⟩ := bind_eq_ok.mp h
    obtain ⟨value, -, h⟩ := bind_eq_ok.mp h
    split at h
    · split at h
      · simp at h
      · next id _ => exact ⟨⟨id, none⟩, by simpa [State.task] using h⟩
      · simp at h
    · obtain ⟨target, -, h⟩ := bind_eq_ok.mp h
      exact ⟨target, h⟩
  · simp at h

/-- To evaluate some expressions is to evaluate the first and then the others. -/
theorem evalAll_cons_ok {registry : Registry} {e : Expr} {es : List Expr} {s t : State}
    {vs : List Value} (h : evalAll registry (e :: es) s = (.ok vs, t)) :
    ∃ v u rest, eval registry e s = (.ok v, u) ∧ evalAll registry es u = (.ok rest, t) ∧
      vs = v :: rest := by
  simp only [evalAll] at h
  split at h
  · simp at h
  · next v u hv =>
    split at h
    · simp at h
    · next rest w hrest =>
      simp only [Prod.mk.injEq, Except.ok.injEq] at h
      obtain ⟨rfl, rfl⟩ := h
      exact ⟨v, u, rest, hv, hrest, rfl⟩

/-- An invariant of states, of values in a state and of commands in the making. -/
structure EvalInvariant (registry : Registry) (I : State → Prop) (V : State → Value → Prop)
    (C : State → Command → Prop) : Prop where
  value_grows : ∀ {s s' v}, s.Grows s' → V s v → V s' v
  command_grows : ∀ {s s' c}, s.Grows s' → C s c → C s' c
  literal : ∀ {s v} {e : Expr}, e.constant? = some v → V s v
  bound : ∀ {s var v}, I s → s.find? var = some v → V s v
  read : ∀ {s target attr v}, I s → (s.task target).get attr = .ok v → V s v
  list : ∀ {s vs}, (∀ v ∈ vs, V s v) → V s (.list vs)
  build : ∀ {s name c}, registry.build name = .ok c → C s c
  set : ∀ {s c c' attr v}, C s c → V s v → c.set attr v = .ok c' → C s c'
  alloc : ∀ {s c}, I s → C s c → I (s.alloc (.command c)) ∧ V (s.alloc (.command c)) (.object s.nextId)

/-- How a step of evaluation ends: the invariant holds, the store has grown, and what came
out, if anything did, is as it should be. -/
structure Keeps {α : Type} (I : State → Prop) (P : State → α → Prop) (s : State)
    (r : Except ExecError α × State) : Prop where
  state : I r.2
  grows : s.Grows r.2
  result : ∀ a, r.1 = .ok a → P r.2 a

namespace Keeps

variable {α β : Type} {I : State → Prop} {P : State → α → Prop} {Q : State → β → Prop}
  {s s' : State}

theorem ok {a : α} (hs : I s) (ha : P s a) : Keeps I P s (.ok a, s) :=
  ⟨hs, .refl s, fun b hb => by
    simp only [Except.ok.injEq] at hb
    exact hb ▸ ha⟩

theorem error {e : ExecError} (hs : I s) : Keeps I P s (.error e, s) :=
  ⟨hs, .refl s, by simp⟩

/-- A step that fails ends whatever it is part of. -/
theorem failed {e : ExecError} (h : Keeps I P s (.error e, s')) : Keeps I Q s (.error e, s') :=
  ⟨h.state, h.grows, by simp⟩

theorem after {r : Except ExecError β × State} (first : s.Grows s') (h : Keeps I Q s' r) :
    Keeps I Q s r :=
  ⟨h.state, first.trans h.grows, h.result⟩

end Keeps

section

variable {registry : Registry} {I : State → Prop} {V : State → Value → Prop}
  {C : State → Command → Prop}

theorem EvalInvariant.constants (h : EvalInvariant registry I V C) {s : State} {es : List Expr}
    {vs : List Value} (hvs : Expr.constantAll? es = some vs) : ∀ v ∈ vs, V s v := by
  induction es generalizing vs with
  | nil => simp_all [Expr.constantAll?]
  | cons e es ih =>
    simp only [Expr.constantAll?] at hvs
    split at hvs
    · next v rest he hes =>
      simp only [Option.some.injEq] at hvs
      subst hvs
      simpa using ⟨h.literal he, ih hes⟩
    · simp at hvs

mutual

/-- Evaluation keeps its invariants. -/
theorem EvalInvariant.eval (h : EvalInvariant registry I V C) :
    ∀ (e : Expr) {s : State}, I s → Keeps I V s (Exec.eval registry e s)
  | .none span, _, hs => .ok hs (h.literal (e := .none span) rfl)
  | .bool b span, _, hs => .ok hs (h.literal (e := .bool b span) rfl)
  | .int n span, _, hs => .ok hs (h.literal (e := .int n span) rfl)
  | .float x span, _, hs => .ok hs (h.literal (e := .float x span) rfl)
  | .str t span, _, hs => .ok hs (h.literal (e := .str t span) rfl)
  | .list es _, s, hs => by
    have hes := h.evalAll es hs
    simp only [Exec.eval]
    split
    · next values hvalues => exact .ok hs (h.list (h.constants hvalues))
    · split
      · next values t heq =>
        rw [heq] at hes
        exact .after hes.grows (.ok hes.state (h.list (hes.result _ rfl)))
      · next heq => exact .failed (heq ▸ hes)
  | .name id _, s, hs => by
    simp only [Exec.eval]
    cases hv : s.lookup id with
    | ok v => exact .ok hs (h.bound hs (State.lookup_ok hv))
    | error e => exact .error hs
  | .field base attr _, s, hs => by
    simp only [Exec.eval]
    cases hv : evalField s base attr with
    | ok v =>
      obtain ⟨target, hget⟩ := evalField_cases hv
      exact .ok hs (h.read hs hget)
    | error e => exact .error hs
  | .subscript _ _ _, _, hs => .error hs
  | .call func args keywords _, s, hs => by
    simp only [Exec.eval]
    split
    · exact .error hs
    · next name _ =>
      split
      · exact .error hs
      · next command hbuild =>
        split
        · exact .error hs
        · have hargs := h.fillPositional args command.schema.positional hs (h.build hbuild)
          split
          · next heq => exact .failed (heq ▸ hargs)
          · next filled t heq =>
            rw [heq] at hargs
            have hkeywords := h.fillKeywords keywords hargs.state (hargs.result _ rfl)
            split
            · next heq => exact .after hargs.grows (.failed (heq ▸ hkeywords))
            · next full u heq =>
              rw [heq] at hkeywords
              obtain ⟨hu, hvalue⟩ := h.alloc hkeywords.state (hkeywords.result _ rfl)
              exact .after hargs.grows (.after hkeywords.grows
                (.after (.alloc u full) (.ok hu hvalue)))

theorem EvalInvariant.evalAll (h : EvalInvariant registry I V C) :
    ∀ (es : List Expr) {s : State}, I s →
      Keeps I (fun t vs => ∀ v ∈ vs, V t v) s (Exec.evalAll registry es s)
  | [], s, hs => .ok hs (by simp)
  | e :: es, s, hs => by
    have he := h.eval e hs
    simp only [Exec.evalAll]
    split
    · next heq => exact .failed (heq ▸ he)
    · next value t heq =>
      rw [heq] at he
      have hes := h.evalAll es he.state
      split
      · next heq => exact .after he.grows (.failed (heq ▸ hes))
      · next values u heq =>
        rw [heq] at hes
        have hvalue := h.value_grows hes.grows (he.result _ rfl)
        exact .after he.grows (.after hes.grows
          (.ok hes.state (List.forall_mem_cons.mpr ⟨hvalue, hes.result _ rfl⟩)))

theorem EvalInvariant.fillPositional (h : EvalInvariant registry I V C) :
    ∀ (es : List Expr) (slots : List String) {command : Command} {s : State}, I s → C s command →
      Keeps I C s (Exec.fillPositional registry es slots command s)
  | [], _, _, _, hs, hc => .ok hs hc
  | _ :: _, [], _, _, hs, hc => .ok hs hc
  | e :: es, slot :: slots, command, s, hs, hc => by
    have he := h.eval e hs
    simp only [Exec.fillPositional]
    split
    · next heq => exact .failed (heq ▸ he)
    · next value t heq =>
      rw [heq] at he
      split
      · exact .after he.grows (.error he.state)
      · next filled hset =>
        have hfilled := h.set (h.command_grows he.grows hc) (he.result _ rfl) hset
        exact .after he.grows (h.fillPositional es slots he.state hfilled)

theorem EvalInvariant.fillKeywords (h : EvalInvariant registry I V C) :
    ∀ (ks : List Keyword) {command : Command} {s : State}, I s → C s command →
      Keeps I C s (Exec.fillKeywords registry ks command s)
  | [], _, _, hs, hc => .ok hs hc
  | ⟨slot, e, _⟩ :: ks, command, s, hs, hc => by
    have he := h.eval e hs
    simp only [Exec.fillKeywords]
    split
    · next heq => exact .failed (heq ▸ he)
    · next value t heq =>
      rw [heq] at he
      split
      · exact .after he.grows (.error he.state)
      · next filled hset =>
        have hfilled := h.set (h.command_grows he.grows hc) (he.result _ rfl) hset
        exact .after he.grows (h.fillKeywords ks he.state hfilled)

end

end

/-! ### What is made -/

section

variable {registry : Registry} {Q : Command → Prop} {s t : State}

/-- The store has grown by commands of a kind, and nothing else is different. -/
def Makes (Q : Command → Prop) (s t : State) : Prop :=
  ∃ made : List Command, (∀ c ∈ made, Q c) ∧ t = { s with objects := s.objects ++ made.map .command }

theorem Makes.refl (Q : Command → Prop) (s : State) : Makes Q s s := ⟨[], by simp, by simp⟩

theorem Makes.rest (h : Makes Q s t) : t = { s with objects := t.objects } := by
  obtain ⟨made, -, rfl⟩ := h
  rfl

/-- An object is one of before, or it was made, or it is beyond the store as before. -/
theorem Makes.object_cases (h : Makes Q s t) (id : Nat) :
    t.object id = s.object id ∨ ∃ c, Q c ∧ s.objects.length ≤ id ∧ t.object id = .command c := by
  obtain ⟨made, hmade, rfl⟩ := h
  by_cases hid : id < s.objects.length
  · exact .inl (State.object_append hid)
  · by_cases hlt : id < s.objects.length + made.length
    · refine .inr ⟨made[id - s.objects.length], hmade _ (List.getElem_mem _), by omega, ?_⟩
      refine State.object_eq ?_
      rw [List.getElem?_append_right (by omega), List.getElem?_map, List.getElem?_eq_getElem]
      rfl
    · refine .inl ?_
      rw [State.object_of_le (by simp; omega), State.object_of_le (by omega)]

theorem Makes.object_of_lt (h : Makes Q s t) {id : Nat} (hid : id < s.objects.length) :
    t.object id = s.object id := by
  obtain ⟨made, -, rfl⟩ := h
  exact State.object_append hid

/-- What holds of new commands and is kept while their slots are filled holds of all that is
made. -/
theorem makes_invariant (hbuild : ∀ {name c}, registry.build name = .ok c → Q c)
    (hset : ∀ {c c' : Command} {attr v}, Q c → c.set attr v = .ok c' → Q c') (s : State) :
    EvalInvariant registry (Makes Q s) (fun _ _ => True) (fun _ c => Q c) where
  value_grows _ _ := trivial
  command_grows _ hc := hc
  literal _ := trivial
  bound _ _ := trivial
  read _ _ := trivial
  list _ := trivial
  build h := hbuild h
  set hc _ h := hset hc h
  alloc := by
    rintro _ c ⟨made, hmade, rfl⟩ hc
    refine ⟨⟨made ++ [c], ?_, by simp [State.alloc]⟩, trivial⟩
    simpa [or_imp, forall_and] using ⟨hmade, hc⟩

end

end Exec

end TaskDialogue
