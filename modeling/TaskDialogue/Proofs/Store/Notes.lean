import TaskDialogue.Proofs.Store.Accessors

/-!
# What tasks are told

A command keeps the names of the recommendations that it was told were followed, in order. Writing
to an object and performing it leave these notes alone. To follow the outstanding recommendation
adds one note, the name of what is recommended, to the command that the recommended variable is
bound to.
-/
namespace TaskDialogue

/-- The names that a list of notices has for one object, in order. -/
def noticesFor (id : Nat) (notices : List (Nat × String)) : List String :=
  (notices.filter (·.1 = id)).map (·.2)

@[simp] theorem noticesFor_nil (id : Nat) : noticesFor id [] = [] := rfl

@[simp] theorem noticesFor_append (id : Nat) (first rest : List (Nat × String)) :
    noticesFor id (first ++ rest) = noticesFor id first ++ noticesFor id rest := by
  simp [noticesFor]

/-- What is told to others is not told to an object. -/
theorem noticesFor_eq_nil {id : Nat} {notices : List (Nat × String)}
    (h : ∀ name, (id, name) ∉ notices) : noticesFor id notices = [] := by
  have hnone : notices.filter (·.1 = id) = [] := by
    rw [List.filter_eq_nil_iff]
    rintro ⟨other, name⟩ hmem hid
    obtain rfl : other = id := of_decide_eq_true hid
    exact h name hmem
  rw [noticesFor, hnone, List.map_nil]

/-- A notice is for the places that there are. -/
theorem noticesFor_of_le {id n : Nat} {notice : Option (Nat × String)}
    (h : ∀ place name, notice = some (place, name) → place < n) (hid : n ≤ id) :
    noticesFor id notice.toList = [] :=
  noticesFor_eq_nil fun name hmem =>
    Nat.not_lt.mpr hid (h id name (Option.mem_toList.mp hmem))

namespace TaskObject

/-- An object before and after it was told some names: a command is a command still, with these
names behind its notes, and an entity takes no notes. -/
inductive Told (names : List String) : TaskObject → TaskObject → Prop where
  | command {c c' : Command} (followed : c'.followed = c.followed ++ names) :
    Told names (command c) (command c')
  | entity {e e' : Entity} : Told names (entity e) (entity e')

variable {o o' o'' changed : TaskObject} {place : Option Nat} {names first rest : List String}

theorem Told.refl (o : TaskObject) : o.Told [] o := by
  cases o with
  | command c => exact .command (by simp)
  | entity e => exact .entity

theorem Told.trans (h : o.Told first o') (h' : o'.Told rest o'') : o.Told (first ++ rest) o'' := by
  cases h with
  | command followed =>
    cases h' with
    | command followed' => exact .command (by rw [followed', followed, List.append_assoc])
  | entity =>
    cases h' with
    | entity => exact .entity

/-- An entity takes no notes, so it does not matter which it was told. -/
theorem Told.of_entity {e : Entity} (h : Told first (.entity e) o') : Told names (.entity e) o' := by
  cases h with
  | entity => exact .entity

theorem told_command {c : Command} (h : Told names (.command c) o') :
    ∃ c', o' = .command c' ∧ c'.followed = c.followed ++ names := by
  cases h with
  | command followed => exact ⟨_, rfl, followed⟩

theorem told_notify (name : String) (o : TaskObject) : o.Told [name] (o.notify name) := by
  cases o with
  | command c => exact .command rfl
  | entity e => exact .entity

theorem Written.told (h : o.Written o') : o.Told [] o' := by
  cases h with
  | command _ _ followed => exact .command (by simp [followed])
  | entity _ _ => exact .entity

theorem told_perform {context : AppContext} {output : Option ActionOutput}
    (h : o.perform context = .ok (output, o')) : o.Told [] o' := by
  obtain rfl | ⟨c, entity, rfl, -, -, rfl⟩ := perform_cases h
  · exact .refl o'
  · exact .command (by simp)

/-- A result of a query takes no notes, and the query keeps its own. -/
theorem told_withPart (h : (o.part place).Told [] changed) :
    o.Told [] (o.withPart place changed) := by
  cases o with
  | entity e =>
    have hpart : (TaskObject.entity e).part place = .entity e := by cases place <;> rfl
    have hwith : (TaskObject.entity e).withPart place changed = changed := by cases place <;> rfl
    rwa [hpart] at h
  | command c =>
    cases place with
    | none => rwa [part_none] at h
    | some position =>
      simp only [part] at h
      split at h
      · next e he =>
        have hlt := (List.getElem?_eq_some_iff.mp he).1
        cases h with
        | entity =>
          simp only [withPart, if_pos hlt]
          exact .command (by simp)
      · cases h with
        | command followed => exact .command followed

end TaskObject

namespace State

/-- What the outstanding recommendation is for, as far as its variable is bound to an object, and
the name of what is recommended. -/
def recommended? (s : State) : Option (Nat × String) :=
  s.recommendation.bind fun r =>
    ((s.find? r.1).bind Value.object?).map fun id => (id, r.2.name)

/-- The command that the outstanding recommendation is for, and the name of what is recommended. -/
def pending? (s : State) : Option (Nat × String) :=
  s.recommended?.filter fun r => (s.object r.1).command?.isSome

variable {s t : State} {id : Nat} {name : String}

theorem recommended?_eq_some :
    s.recommended? = some (id, name) ↔ ∃ var action,
      s.recommendation = some (var, action) ∧ s.find? var = some (.object id) ∧
        action.name = name := by
  simp only [recommended?, Option.bind_eq_some_iff, Option.map_eq_some_iff, Prod.mk.injEq]
  constructor
  · rintro ⟨⟨var, action⟩, hrecommendation, _, ⟨value, hfind, hvalue⟩, rfl, hname⟩
    refine ⟨var, action, hrecommendation, ?_, hname⟩
    cases value <;> simp_all [Value.object?]
  · rintro ⟨var, action, hrecommendation, hfind, hname⟩
    exact ⟨(var, action), hrecommendation, id, ⟨_, hfind, rfl⟩, rfl, hname⟩

/-- A recommendation is pending when its variable is bound to a command. -/
theorem pending?_eq_some :
    s.pending? = some (id, name) ↔ ∃ var action c,
      s.recommendation = some (var, action) ∧ s.find? var = some (.object id) ∧
        s.object id = .command c ∧ action.name = name := by
  simp only [pending?, Option.filter_eq_some_iff, recommended?_eq_some]
  constructor
  · rintro ⟨⟨var, action, hrecommendation, hfind, hname⟩, hcommand⟩
    cases hobject : s.object id with
    | command c => exact ⟨var, action, c, hrecommendation, hfind, rfl, hname⟩
    | entity e => simp [hobject, TaskObject.command?] at hcommand
  · rintro ⟨var, action, c, hrecommendation, hfind, hobject, hname⟩
    exact ⟨⟨var, action, hrecommendation, hfind, hname⟩, by simp [hobject, TaskObject.command?]⟩

theorem pending?_lt (h : s.pending? = some (id, name)) : id < s.objects.length := by
  obtain ⟨_, _, _, -, -, hobject, -⟩ := pending?_eq_some.mp h
  exact lt_of_object_command hobject

theorem recommended?_congr (hbindings : t.bindings = s.bindings)
    (hrecommendation : t.recommendation = s.recommendation) :
    t.recommended? = s.recommended? := by
  simp only [recommended?, find?, hbindings, hrecommendation]

theorem followRecommendation_eq (s : State) :
    s.followRecommendation =
      match s.recommended? with
      | none => s
      | some (id, name) => { s with objects := s.objects.set id ((s.object id).notify name) } := by
  unfold followRecommendation recommended?
  cases s.recommendation with
  | none => rfl
  | some r =>
    obtain ⟨var, action⟩ := r
    dsimp only [Option.bind_some]
    cases (s.find? var).bind Value.object? <;> rfl

/-- To follow a recommendation tells its task once, and no other. -/
theorem told_followRecommendation (s : State) (id : Nat) :
    (s.object id).Told (noticesFor id s.recommended?.toList) (s.followRecommendation.object id) := by
  rw [followRecommendation_eq]
  cases s.recommended? with
  | none => exact .refl _
  | some r =>
    obtain ⟨place, name⟩ := r
    dsimp only [Option.toList]
    rw [object_set]
    by_cases hid : place = id
    · subst hid
      have hname : noticesFor place [(place, name)] = [name] := by simp [noticesFor]
      rw [hname]
      split
      · exact TaskObject.told_notify name _
      · next hbeyond =>
        rw [object_of_le (by omega)]
        exact .entity
    · rw [if_neg fun h => hid h.1, noticesFor_eq_nil (by simpa using Ne.symm hid)]
      exact .refl _

theorem told_setTask {target : TaskRef} {changed : TaskObject}
    (h : (s.task target).Told [] changed) (id : Nat) :
    (s.object id).Told [] ((s.setTask target changed).object id) := by
  rw [object_setTask]
  split
  · next hid =>
    rw [← hid.1]
    exact TaskObject.told_withPart h
  · exact .refl _

/-- What is recommended is for an object of the store, if its variable is bound to an object. -/
def Anchored (s : State) : Prop :=
  ∀ id name, s.recommended? = some (id, name) → id < s.objects.length

/-- Of a command it does not matter whether the recommendation is for it or pending. -/
theorem noticesFor_pending? {c : Command} (h : s.object id = .command c) :
    noticesFor id s.pending?.toList = noticesFor id s.recommended?.toList := by
  unfold pending?
  cases s.recommended? with
  | none => rfl
  | some r =>
    obtain ⟨place, name⟩ := r
    by_cases hid : place = id
    · simp [hid, Option.filter, h, TaskObject.command?]
    · have hother : noticesFor id [(place, name)] = [] :=
        noticesFor_eq_nil (by simpa using Ne.symm hid)
      simp only [Option.filter, Option.toList]
      split <;> simp_all

end State

end TaskDialogue
