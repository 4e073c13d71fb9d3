import TaskDialogue.Proofs.Turn.Classification

/-!
# What evaluation makes

Evaluation and classification add new commands at the end of the store, and do nothing else to
the state, also when they fail half way. A new command has a schema of the registry, it has found
nothing, and nobody has told it of a recommendation. The value of a call is the last command that
it makes.
-/
namespace TaskDialogue

/-- A command as it comes out of evaluation. -/
structure Command.Built (registry : Registry) (c : Command) : Prop where
  schema : registry.get? c.name = some c.schema
  results : c.results = []
  followed : c.followed = []

namespace Registry

variable {registry : Registry} {name : String} {schema : CommandSchema} {c : Command}

/-- A schema is found by its name only. -/
theorem name_of_get? (h : registry.get? name = some schema) : schema.name = name := by
  have hfound := List.find?_some h
  exact of_decide_eq_true hfound

theorem built_of_build (h : registry.build name = .ok c) : c.Built registry := by
  unfold build at h
  split at h
  · next schema hschema =>
    simp only [Except.ok.injEq] at h
    subst h
    obtain rfl : schema.name = name := name_of_get? hschema
    exact ⟨hschema, rfl, rfl⟩
  · simp at h

end Registry

/-- A write gives a command neither another schema nor results or notes. -/
theorem Command.Built.set {registry : Registry} {c c' : Command} {attr : String} {v : Value}
    (hc : c.Built registry) (h : c.set attr v = .ok c') : c'.Built registry := by
  obtain ⟨-, b, -, rfl⟩ | ⟨-, position, slot, -, -, -, rfl⟩ := Command.set_cases h
  · exact ⟨hc.schema, hc.results, hc.followed⟩
  · exact ⟨hc.schema, hc.results, hc.followed⟩

namespace Exec

theorem Makes.imp {P Q : Command → Prop} {s t : State} (h : Makes P s t)
    (himp : ∀ c, P c → Q c) : Makes Q s t := by
  obtain ⟨made, hmade, rfl⟩ := h
  exact ⟨made, fun c hc => himp c (hmade c hc), rfl⟩

/-- Everything that evaluation makes is as it comes out of the registry, but for its slots. -/
theorem built_invariant (registry : Registry) (s : State) :
    CallInvariant registry (Makes (Command.Built registry) s) (fun _ _ => True)
      (fun _ c => c.Built registry) (fun _ _ => True) where
  toEvalInvariant := makes_invariant Registry.built_of_build (fun hc h => hc.set h) s
  found _ _ _ := trivial

theorem eval_makes (registry : Registry) (e : Expr) (s : State) :
    Makes (Command.Built registry) s (eval registry e s).2 :=
  ((built_invariant registry s).eval e (.refl _ s)).state

theorem classify_builds (registry : Registry) (policy : MultiTargetPolicy) (turn : Nat)
    (p : Program) (s : State) :
    Makes (Command.Built registry) s (classify registry policy turn p s).2 :=
  ((built_invariant registry s).classify policy turn p (.refl _ s)).state

/-- The value of a call is a new command, which stands behind all that was made for it. -/
theorem eval_call_ok {registry : Registry} {func : Expr} {args : List Expr}
    {keywords : List Keyword} {span : Span} {s t : State} {v : Value}
    (h : eval registry (.call func args keywords span) s = (.ok v, t)) :
    ∃ u c, s.Grows u ∧ v = .object u.nextId ∧ t = u.alloc (.command c) := by
  have hbuilt := (built_invariant registry s).toEvalInvariant
  simp only [eval] at h
  split at h
  · simp at h
  · split at h
    · simp at h
    · next command hbuild =>
      split at h
      · simp at h
      · have hargs := hbuilt.fillPositional args command.schema.positional (.refl _ s)
          (Registry.built_of_build hbuild)
        split at h
        · simp at h
        · next filled w hfilled =>
          rw [hfilled] at hargs
          have hkeywords := hbuilt.fillKeywords keywords hargs.state (hargs.result _ rfl)
          split at h
          · simp at h
          · next full u hfull =>
            rw [hfull] at hkeywords
            simp only [Prod.mk.injEq, Except.ok.injEq] at h
            exact ⟨u, full, hargs.grows.trans hkeywords.grows, h.1.symm, h.2.symm⟩

/-- To find the call of a program, or the value of an expression, adds new commands to the store
and changes nothing else: no object of before, no binding, neither what was completed nor what is
recommended, and not the records. This holds as well when it ends with an error. -/
theorem classify_allocates (registry : Registry) (policy : MultiTargetPolicy) (turn : Nat)
    (p : Program) (e : Expr) (s : State) :
    ∃ made more : List Command,
      (∀ c ∈ made ++ more, c.Built registry) ∧
        (classify registry policy turn p s).2 =
          { s with objects := s.objects ++ made.map .command } ∧
        (eval registry e s).2 = { s with objects := s.objects ++ more.map .command } := by
  obtain ⟨made, hmade, hclassify⟩ := classify_builds registry policy turn p s
  obtain ⟨more, hmore, heval⟩ := eval_makes registry e s
  refine ⟨made, more, fun c hc => ?_, hclassify, heval⟩
  obtain hc | hc := List.mem_append.mp hc
  · exact hmade c hc
  · exact hmore c hc

end Exec

end TaskDialogue
