import TaskDialogue.Proofs.Turn.Invariants
import TaskDialogue.Proofs.Store.Closure

/-!
# Turns keep a state closed

A turn of any text and any index takes a closed state to a closed one, also when it fails on
the way. The commands that it makes name only what was there when they were made, and what
it writes, binds and copies names only what is in the store.
-/
namespace TaskDialogue

namespace Exec

/-- To evaluate and to classify keeps a state closed, and gives values of that state. -/
theorem closed_call (registry : Registry) :
    CallInvariant registry State.Closed (fun s v => Below s.objects.length v.ids)
      (fun s c => Below s.objects.length c.ids) (fun s e => Below s.objects.length e.ids) where
  value_grows hgrows hv := hv.mono hgrows.length_le
  command_grows hgrows hc := hc.mono hgrows.length_le
  literal hv := by
    rw [Expr.ids_constant? hv]
    exact Below.nil
  bound hs hv := hs.find? hv
  read hs hget := TaskObject.below_get hget (hs.task _)
  list hvs := by simpa [Below.flatMap] using hvs
  build hbuild := by
    unfold Registry.build at hbuild
    split at hbuild
    · simp only [Except.ok.injEq] at hbuild
      simp [← hbuild]
    · simp at hbuild
  set hc hv hset := Command.below_set hset hc hv
  alloc hs hc := ⟨hs.alloc hc, by simp [State.alloc, State.nextId]⟩
  found := by
    intro s id c e hs hc he
    have hobject := hs.object id
    rw [hc] at hobject
    exact (Command.below_ids.mp hobject).2 e he

/-- To be closed is kept by turns. -/
theorem closed_turn (registry : Registry) :
    TurnInvariant registry State.Closed (fun s v => Below s.objects.length v.ids)
      (fun s c => Below s.objects.length c.ids) (fun s e => Below s.objects.length e.ids) where
  toCallInvariant := closed_call registry
  congr hs objects bindings context := hs.congr objects bindings context
  value_length hv hlength := by rwa [hlength]
  entity_length he hlength := by rwa [hlength]
  bind hs hv := hs.bind hv
  write hs hv hset := hs.setTask _ (TaskObject.below_set hset (hs.task _) hv)
  append hs hv happend := hs.setTask _ (TaskObject.below_append happend (hs.task _) hv)
  perform hs hperform := hs.setTask _ (TaskObject.below_perform hs.context hperform (hs.task _))
  copy hs he := ⟨hs.alloc he, by simp [State.alloc, State.nextId]⟩
  follow hs := hs.followRecommendation
  none := by simp [Value.ids]

end Exec

end TaskDialogue
