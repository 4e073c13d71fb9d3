import TaskDialogue.Proofs.Store.Typing
import TaskDialogue.Proofs.Turn.Allocation
import TaskDialogue.Proofs.Turn.Invariants
import TaskDialogue.Proofs.Turn.Sequence

/-!
# Turns keep a store well-typed

Values come into slots when a command is made, when a field is assigned and when a list is
appended to, and each of these asks the slot whether it accepts the value. So the store is typed
after turns of any text, also after those that fail half way, and every object persists in it.
-/
namespace TaskDialogue

namespace Command

/-- The slots of a new command are empty, and every slot accepts that. -/
theorem wellTyped_of_build {registry : Registry} {name : String} {c : Command}
    (h : registry.build name = .ok c) : c.WellTyped registry := by
  have hregistered := (Registry.built_of_build h).schema
  unfold Registry.build at h
  split at h
  · next schema _ =>
    simp only [Except.ok.injEq] at h
    subst h
    refine ⟨hregistered, by simp [ofSchema], fun position slot v _ hv => ?_⟩
    simp only [ofSchema, List.getElem?_map, Option.map_eq_some_iff] at hv
    obtain ⟨_, -, rfl⟩ := hv
    exact SlotType.accepts_none _
  · simp at h

end Command

namespace Exec

/-- To be typed, and to have the objects of an earlier state, is kept by turns. -/
theorem typed_turn (registry : Registry) (context : AppContext) (first : State) :
    TurnInvariant registry (fun s => s.Typed registry context ∧ first.Persists s)
      (fun _ _ => True) (fun _ c => c.WellTyped registry ∧ c.results = [])
      (fun _ e => e.Recorded context) where
  value_grows _ _ := trivial
  command_grows _ hc := hc
  literal _ := trivial
  bound _ _ := trivial
  read _ _ := trivial
  list _ := trivial
  build h := ⟨Command.wellTyped_of_build h, (Registry.built_of_build h).results⟩
  set := by
    rintro _ c c' attr v ⟨htyped, hnone⟩ - h
    refine ⟨htyped.set h, ?_⟩
    obtain ⟨-, _, -, rfl⟩ | ⟨-, _, _, -, -, -, rfl⟩ := Command.set_cases h
    · exact hnone
    · exact hnone
  alloc hs hc := ⟨⟨hs.1.alloc (.command hc.1 (.inl hc.2)), hs.2.trans (.alloc _ _)⟩, trivial⟩
  found := by
    intro s id c e hs hc he
    have hobject := hs.1.object (State.lt_of_object_command hc)
    rw [hc] at hobject
    cases hobject with
    | command _ found => exact found.recorded he
  congr hs hobjects _ hcontext := ⟨hs.1.congr hobjects hcontext, hs.2.trans (.of_objects hobjects)⟩
  value_length _ _ := trivial
  entity_length he _ := he
  bind hs _ := ⟨hs.1.congr rfl rfl, hs.2.trans (.of_objects rfl)⟩
  write hs _ hset := (hs.1.write hset).imp_right hs.2.trans
  append hs _ happend := by
    obtain ⟨items, -, hset⟩ := TaskObject.append_cases happend
    exact (hs.1.write hset).imp_right hs.2.trans
  perform hs hperform := by
    rw [hs.1.context] at hperform
    exact (hs.1.setTask _ fun htask => htask.perform hperform).imp_right hs.2.trans
  copy hs he := ⟨⟨hs.1.alloc (.entity he), hs.2.trans (.alloc _ _)⟩, trivial⟩
  follow hs := hs.1.followRecommendation.imp_right hs.2.trans
  none := trivial

end Exec

namespace Executor

variable {x : Executor} {context : AppContext} {s : State}

/-- Turns in sequence keep a typed store typed, and every object in it. -/
theorem persists_after (hs : s.Typed x.registry context) (lines : List (Nat × String)) :
    (x.after lines s).Typed x.registry context ∧ s.Persists (x.after lines s) :=
  after_preserves (P := fun t => t.Typed x.registry context ∧ s.Persists t)
    (fun turn text _ => (Exec.typed_turn x.registry context s).execute turn text) ⟨hs, .refl s⟩ lines

/-- After any turns of a new state, whatever their texts and ends, every command in the store is
well-typed with a schema of the registry, and every entity has the shape of a record of the
application, in the store and among what a query has found. After any further turns every object
is still there, with the same schema or the same shape. The results of a query then have the shapes
that they had, even when it was performed again, since the records do not change. -/
theorem typed_after (x : Executor) (context : AppContext) (first rest : List (Nat × String)) :
    let s := x.after first (.new context)
    let t := x.after (first ++ rest) (.new context)
    s.Typed x.registry context ∧ t.Typed x.registry context ∧ s.Persists t := by
  intro s t
  have hs : s.Typed x.registry context :=
    (persists_after (State.typed_new x.registry context) first).1
  have ht : t = x.after rest s := after_append first rest
  obtain ⟨htyped, hpersists⟩ := persists_after hs rest
  exact ⟨hs, ht ▸ htyped, ht ▸ hpersists⟩

end Executor

end TaskDialogue
