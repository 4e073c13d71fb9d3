import TaskDialogue.Proofs.Turn.Classification

/-!
# What turns keep

An invariant of turns is one of evaluation and classification that the steps of a call keep
too: to bind a value, to write, append to and perform what the call acts on, to copy an
entity and to note that a recommendation was followed. What was completed and what is
recommended play no part in it. It then holds after every turn, also after one that fails.
-/
namespace TaskDialogue.Exec

/-- An invariant of everything that a turn does to objects and bindings. -/
structure TurnInvariant (registry : Registry) (I : State → Prop) (V : State → Value → Prop)
    (C : State → Command → Prop) (E : State → Entity → Prop) : Prop
    extends CallInvariant registry I V C E where
  congr : ∀ {s t : State}, I s → t.objects = s.objects → t.bindings = s.bindings →
    t.context = s.context → I t
  value_length : ∀ {s t : State} {v}, V s v → t.objects.length = s.objects.length → V t v
  entity_length : ∀ {s t : State} {e}, E s e → t.objects.length = s.objects.length → E t e
  bind : ∀ {s var v}, I s → V s v → I (s.bind var v)
  write : ∀ {s target attr v changed}, I s → V s v →
    (s.task target).set attr v = .ok changed → I (s.setTask target changed)
  append : ∀ {s target attr v changed}, I s → V s v →
    (s.task target).append attr v = .ok changed → I (s.setTask target changed)
  perform : ∀ {s target output changed}, I s →
    (s.task target).perform s.context = .ok (output, changed) → I (s.setTask target changed)
  copy : ∀ {s e}, I s → E s e →
    I (s.alloc (.entity e)) ∧ V (s.alloc (.entity e)) (.object s.nextId)
  follow : ∀ {s}, I s → I s.followRecommendation
  none : ∀ {s}, V s .none

namespace TurnInvariant

/-- An invariant that says nothing of values and commands, and that no change to a single object or
binding breaks. -/
theorem of_state {registry : Registry} {I : State → Prop} (alloc : ∀ {s : State} o, I s → I (s.alloc o))
    (bind : ∀ {s : State} var v, I s → I (s.bind var v))
    (setTask : ∀ {s : State} target changed, I s → I (s.setTask target changed))
    (follow : ∀ {s : State}, I s → I s.followRecommendation)
    (congr : ∀ {s t : State}, I s → t.objects = s.objects → t.bindings = s.bindings →
      t.context = s.context → I t) :
    TurnInvariant registry I (fun _ _ => True) (fun _ _ => True) (fun _ _ => True) where
  value_grows _ _ := trivial
  command_grows _ _ := trivial
  literal _ := trivial
  bound _ _ := trivial
  read _ _ := trivial
  list _ := trivial
  build _ := trivial
  set _ _ _ := trivial
  alloc hs _ := ⟨alloc _ hs, trivial⟩
  found _ _ _ := trivial
  congr := congr
  value_length _ _ := trivial
  entity_length _ _ := trivial
  bind hs _ := bind _ _ hs
  write hs _ _ := setTask _ _ hs
  append hs _ _ := setTask _ _ hs
  perform hs _ := setTask _ _ hs
  copy hs _ := ⟨alloc _ hs, trivial⟩
  follow := follow
  none := trivial

variable {registry : Registry} {I : State → Prop} {V : State → Value → Prop}
  {C : State → Command → Prop} {E : State → Entity → Prop} {s : State}

theorem performOrRecommend (h : TurnInvariant registry I V C E) (var : String) (index : Nat)
    (target : TaskRef) (hs : I s) : I (Exec.performOrRecommend var index target s).2 := by
  unfold Exec.performOrRecommend
  split
  · exact h.congr hs rfl rfl rfl
  · have hcleared : I { s with recommendation := Option.none } := h.congr hs rfl rfl rfl
    dsimp only
    split
    · exact hcleared
    · next hperform => exact h.congr (h.perform hcleared hperform) rfl rfl rfl

theorem applyUpdates (h : TurnInvariant registry I V C E) (var : String)
    (updates : List AttributeUpdate) (target : Option TaskRef) (hs : I s)
    (hupdates : ∀ u ∈ updates, V s u.value) : I (Exec.applyUpdates var updates target s).2 := by
  induction updates generalizing target s with
  | nil => exact hs
  | cons u rest ih =>
    obtain ⟨hu, hrest⟩ := List.forall_mem_cons.mp hupdates
    simp only [Exec.applyUpdates]
    split
    · exact hs
    · next place _ =>
      split
      · exact hs
      · next changed hset =>
        refine ih _ (h.write hs hu hset) fun w hw => ?_
        exact h.value_length (hrest w hw) (State.length_setTask ..)

theorem bindCopy (h : TurnInvariant registry I V C E) (var : String) {entity : Option Entity}
    (hs : I s) (hentity : ∀ e, entity = some e → E s e) : I (Exec.bindCopy var entity s).2 := by
  cases entity with
  | none => exact h.bind hs h.none
  | some e =>
    obtain ⟨hcopied, hvalue⟩ := h.copy hs (hentity e rfl)
    exact h.bind hcopied hvalue

theorem runKind (h : TurnInvariant registry I V C E) (var : String) (index : Nat)
    {kind : CallKind} (hs : I s) (hkind : kind.Holds V E s) :
    I (Exec.runKind var index kind s).2 := by
  cases kind with
  | command object assigned =>
    refine h.performOrRecommend var index _ ?_
    cases assigned with
    | true => exact hs
    | false => exact h.bind hs hkind
  | perform binding =>
    cases binding with
    | none => exact hs
    | some b =>
      cases b with
      | shared id => exact h.bind hs hkind
      | copied e => exact h.bindCopy var hs fun f hf => Option.some.inj hf ▸ hkind
  | assignment updates =>
    have hupdated := h.applyUpdates var updates Option.none hs hkind
    simp only [Exec.runKind]
    split
    · next heq => rwa [heq] at hupdated
    · next heq => rwa [heq] at hupdated
    · next target t heq =>
      rw [heq] at hupdated
      exact h.performOrRecommend var index target hupdated
  | append attr value =>
    simp only [Exec.runKind]
    split
    · exact hs
    · next target _ =>
      split
      · exact hs
      · next changed happend =>
        exact h.performOrRecommend var index target (h.append hs hkind happend)
  | next entity =>
    refine h.bindCopy var hs fun e he => ?_
    subst he
    exact hkind
  | value value => exact h.bind hs hkind

theorem holds_followRecommendation (h : TurnInvariant registry I V C E) {kind : CallKind}
    (hkind : kind.Holds V E s) : kind.Holds V E s.followRecommendation := by
  have hvalue : ∀ v, V s v → V s.followRecommendation v := fun v hv =>
    h.value_length hv (State.length_followRecommendation s)
  have hentity : ∀ e, E s e → E s.followRecommendation e := fun e he =>
    h.entity_length he (State.length_followRecommendation s)
  cases kind with
  | command id _ => exact hvalue _ hkind
  | perform binding =>
    cases binding with
    | none => trivial
    | some b =>
      cases b with
      | shared id => exact hvalue _ hkind
      | copied e => exact hentity _ hkind
  | assignment updates => exact fun u hu => hvalue _ (hkind u hu)
  | append _ v => exact hvalue _ hkind
  | next entity =>
    cases entity with
    | none => trivial
    | some e => exact hentity _ hkind
  | value v => exact hvalue _ hkind

theorem run (h : TurnInvariant registry I V C E) {call : Call} (followed : Bool) (hs : I s)
    (hcall : call.kind.Holds V E s) : I (Exec.run call followed s).2 := by
  cases followed with
  | true => exact h.runKind _ _ (h.follow hs) (h.holds_followRecommendation hcall)
  | false => exact h.runKind _ _ hs hcall

variable {x : Executor}

theorem executeProgram (h : TurnInvariant x.registry I V C E) (turn : Nat) (p : Program)
    (followed : Bool) (hs : I s) : I (x.executeProgram turn p followed s).2 := by
  have hcall := h.classify x.options.multiTargetPolicy turn p hs
  simp only [Executor.executeProgram, Executor.classify]
  split
  · next heq => exact (heq ▸ hcall).state
  · next call t heq =>
    rw [heq] at hcall
    exact h.run followed hcall.state (hcall.result _ rfl)

/-- A turn keeps the invariant, whatever its text and its end. -/
theorem execute (h : TurnInvariant x.registry I V C E) (turn : Nat) (text : String) (hs : I s) :
    I (x.execute turn text s).2 := by
  unfold Executor.execute
  split
  · exact hs
  · exact h.executeProgram turn _ _ hs

end TurnInvariant

end TaskDialogue.Exec
