import Mathlib.Data.Finset.Max
import TaskDialogue.Proofs.Turn.Assignment

/-!
# Assignments to several targets

Each target of an assignment is an attribute of a variable, or of one of its results. Of the writes
that a statement asks for, those to the variable with most targets are made, all of them and in the
order of the statement, and no others; where only one variable may be written to, the statement
fails if there are others, and names each variable once. Which writes these are is said here without
the groups that are built on the way.
-/
namespace TaskDialogue

/-- What a target means: an attribute of a variable, or of the result of it that an index means. -/
inductive Expr.IsTarget : Expr → String × Option Int64 × String → Prop where
  | attribute (var attr : String) (varSpan span : Span) :
    IsTarget (.field (.name var varSpan) attr span) (var, Option.none, attr)
  | result {index : Expr} {i : Option Int64} (means : index.IsIndex i) (var attr : String)
      (varSpan baseSpan span : Span) :
    IsTarget (.field (.subscript (.name var varSpan) index baseSpan) attr span) (var, i, attr)

/-- No variable is more frequent than the most frequent one, and none that stands before its first
place is as frequent. -/
theorem mostFrequent_eq_some {vars : List String} {v : String} :
    mostFrequent vars = some v ↔
      (∀ w ∈ vars, vars.count w ≤ vars.count v) ∧
        ∃ before after, vars = before ++ v :: after ∧
          ∀ w ∈ before, vars.count w < vars.count v := by
  simp only [mostFrequent, List.find?_eq_some_iff_append, List.all_eq_true, decide_eq_true_eq]
  refine and_congr_right fun hmost => exists_congr fun before => exists_congr fun after =>
    and_congr_right fun hvars => forall₂_congr fun w hw => ?_
  constructor
  · intro hless
    obtain ⟨u, hu, hlt⟩ : ∃ u ∈ vars, vars.count w < vars.count u := by simpa using hless
    exact hlt.trans_le (hmost u hu)
  · intro hlt
    have hv : v ∈ vars := by simp [hvars]
    simpa using ⟨v, hv, hlt⟩

theorem mostFrequent_isSome {vars : List String} (h : vars ≠ []) :
    ∃ v, mostFrequent vars = some v := by
  obtain ⟨v, hv, hmost⟩ := Finset.exists_max_image vars.toFinset (vars.count ·)
    (List.toFinset_nonempty_iff vars |>.mpr h)
  refine Option.isSome_iff_exists.mp (List.find?_isSome.mpr ⟨v, List.mem_toFinset.mp hv, ?_⟩)
  exact List.all_eq_true.mpr fun w hw => decide_eq_true (hmost w (List.mem_toFinset.mpr hw))

namespace Exec

theorem assignmentTarget_eq_ok {e : Expr} {place : String × Option Int64 × String} :
    assignmentTarget e = .ok place ↔ e.IsTarget place := by
  constructor
  · intro h
    unfold assignmentTarget at h
    split at h
    · simp only [Except.ok.injEq] at h
      exact h ▸ .attribute ..
    · obtain ⟨index, hindex, h⟩ := bind_eq_ok.mp h
      simp only [pure, Except.pure, Except.ok.injEq] at h
      exact h ▸ .result (subscriptIndex_eq_ok.mp hindex) ..
    · simp at h
  · rintro (_ | ⟨hindex⟩)
    · rfl
    · simp [assignmentTarget, subscriptIndex_eq_ok.mpr hindex, bind, Except.bind, pure, Except.pure]

/-- The writes of values to places, each with its variable. -/
def writesTo (places : List (String × Option Int64 × String)) (values : List Value) :
    List (String × AttributeUpdate) :=
  (places.zip values).map fun w => (w.1.1, ⟨w.1.2.2, w.1.2.1, w.2⟩)

section

variable {registry : Registry} {policy : MultiTargetPolicy} {turn : Nat} {targets es : List Expr}
  {places : List (String × Option Int64 × String)} {vs : List Value} {s t : State} {var : String}
  {writes : List (String × AttributeUpdate)} {groups : List (String × List AttributeUpdate)}

/-- Where targets and values are as they should be, each write goes to its group in turn. -/
theorem assignmentGroups_eq
    (hplaces : List.Forall₂ Expr.IsTarget ((targets.zip es).map (·.1)) places)
    (hvalues : evalAll registry ((targets.zip es).map (·.2)) s = (.ok vs, t))
    (groups : List (String × List AttributeUpdate)) :
    assignmentGroups registry targets es groups s =
      (.ok ((writesTo places vs).foldl (fun gs w => addUpdate w.1 w.2 gs) groups), t) := by
  induction targets generalizing es places vs groups s with
  | nil =>
    cases hplaces
    obtain ⟨-, rfl⟩ := Prod.mk.inj hvalues
    rfl
  | cons target targets ih =>
    cases es with
    | nil =>
      cases hplaces
      obtain ⟨-, rfl⟩ := Prod.mk.inj hvalues
      rfl
    | cons e es =>
      cases hplaces with
      | cons hplace hrest =>
        obtain ⟨v, u, rest, hv, hvs, rfl⟩ := evalAll_cons_ok hvalues
        have htarget := assignmentTarget_eq_ok.mpr hplace
        simp only [assignmentGroups, htarget, hv]
        exact ih hrest hvs _

/-- By induction on the writes, from the last: a variable is new or has its group already. -/
theorem grouped_foldl (writes : List (String × AttributeUpdate)) :
    Grouped writes (writes.foldl (fun gs w => addUpdate w.1 w.2 gs) []) ∧
      (writes.foldl (fun gs w => addUpdate w.1 w.2 gs) []).map (·.1) =
        (writes.map (·.1)).eraseDups := by
  induction writes using List.reverseRecOn with
  | nil => exact ⟨.nil, by simp⟩
  | append_singleton writes w ih =>
    obtain ⟨hgrouped, hnames⟩ := ih
    rw [List.foldl_append, List.foldl_cons, List.foldl_nil]
    refine ⟨hgrouped.add w.1 w.2, ?_⟩
    rw [names_addUpdate, hnames, List.map_append, List.eraseDups_append]
    simp only [List.mem_eraseDups, List.map_cons, List.map_nil, List.removeAll]
    by_cases hold : w.1 ∈ writes.map (·.1)
    · simp [hold]
    · simp [hold, List.eraseDups_cons]

theorem Grouped.one_lt_length_iff (h : Grouped writes groups) :
    1 < groups.length ↔ ∃ v ∈ writes.map (·.1), ∃ w ∈ writes.map (·.1), v ≠ w := by
  rw [← List.length_map (·.1), ← List.toFinset_card_of_nodup h.nodup, Finset.one_lt_card]
  simp only [List.mem_toFinset, h.mem_iff]

/-- The selected writes are those to the most frequent variable. Several variables are an error for
the policy that refuses them. -/
theorem selectGroup_eq (h : Grouped writes groups)
    (hvar : mostFrequent (writes.map (·.1)) = some var) :
    selectGroup policy turn groups =
      if policy = .reject ∧ 1 < groups.length then
        .error (.crossVariableAssignment (groups.map (·.1)))
      else .ok (.on var turn (.assignment ((writes.filter (·.1 = var)).map (·.2)))) := by
  unfold selectGroup
  split
  · rfl
  · have hfirst := h.find?_longest
    rw [hvar] at hfirst
    obtain ⟨⟨name, updates⟩, hfind, rfl⟩ := Option.map_eq_some_iff.mp hfirst
    have hupdates := h.updates _ (List.mem_of_find?_eq_some hfind)
    simp only [hfind, ← hupdates]

theorem evalAll_length {es : List Expr} (h : evalAll registry es s = (.ok vs, t)) :
    vs.length = es.length := by
  induction es generalizing s vs with
  | nil =>
    obtain ⟨hvs, -⟩ := Prod.mk.inj h
    simp [← Except.ok.inj hvs]
  | cons e es ih =>
    obtain ⟨v, u, rest, -, hrest, rfl⟩ := evalAll_cons_ok h
    rw [List.length_cons, List.length_cons, ih hrest]

theorem vars_writesTo (h : places.length ≤ vs.length) :
    (writesTo places vs).map (·.1) = places.map (·.1) := by
  calc
    (writesTo places vs).map (·.1) = ((places.zip vs).map (·.1)).map (·.1) := by
      simp [writesTo, Function.comp_def]
    _ = places.map (·.1) := by rw [List.map_fst_zip h]

/-- The writes are those of the values to the places, and the most frequent variable gets its own. -/
theorem classifyAssignment_eq
    (hplaces : List.Forall₂ Expr.IsTarget ((targets.zip es).map (·.1)) places)
    (hvalues : evalAll registry ((targets.zip es).map (·.2)) s = (.ok vs, t))
    (hvar : mostFrequent (places.map (·.1)) = some var) :
    classifyAssignment registry policy turn targets es s =
      (if policy = .reject ∧ ∃ v ∈ places.map (·.1), ∃ w ∈ places.map (·.1), v ≠ w then
        .error (.crossVariableAssignment (places.map (·.1)).eraseDups)
      else .ok (.on var turn (.assignment (((writesTo places vs).filter (·.1 = var)).map (·.2)))),
        t) := by
  have hlength : places.length ≤ vs.length := by
    rw [evalAll_length hvalues, ← hplaces.length_eq, List.length_map, List.length_map]
  have hvars := vars_writesTo hlength
  obtain ⟨hgrouped, hnames⟩ := grouped_foldl (writesTo places vs)
  rw [← hvars] at hvar
  simp only [classifyAssignment, assignmentGroups_eq hplaces hvalues, selectGroup_eq hgrouped hvar,
    hgrouped.one_lt_length_iff, hnames, hvars]

/-- Where each target is an attribute and each value can be evaluated, the statement writes to the
variable with most targets, of several to the one that comes first, and makes all writes to it in
their order with the values that were found. If only one variable may be written to, the statement
fails when two targets are of different variables, and names each variable once in the order in
which they come; else it does the same. -/
theorem classify_tupleAssign (turn : Nat) (span : Span) (hsome : targets.zip es ≠ [])
    (hplaces : List.Forall₂ Expr.IsTarget ((targets.zip es).map (·.1)) places)
    (hvalues : evalAll registry ((targets.zip es).map (·.2)) s = (.ok vs, t)) :
    let vars := places.map (·.1)
    ∃ var before after,
      (vars = before ++ var :: after ∧ (∀ w ∈ before, vars.count w < vars.count var) ∧
        ∀ w ∈ vars, vars.count w ≤ vars.count var) ∧
      let updates := ((writesTo places vs).filter (·.1 = var)).map (·.2)
      classify registry .mostUpdated turn ⟨[.tupleAssign targets es span]⟩ s =
          (.ok (.on var turn (.assignment updates)), t) ∧
        classify registry .reject turn ⟨[.tupleAssign targets es span]⟩ s =
          (if ∃ v ∈ vars, ∃ w ∈ vars, v ≠ w then .error (.crossVariableAssignment vars.eraseDups)
            else .ok (.on var turn (.assignment updates)), t) := by
  intro vars
  have hne : vars ≠ [] := by
    intro hnil
    have hzero : places = [] := List.map_eq_nil_iff.mp hnil
    rw [hzero, List.forall₂_nil_right_iff, List.map_eq_nil_iff] at hplaces
    exact hsome hplaces
  obtain ⟨var, hvar⟩ := mostFrequent_isSome hne
  obtain ⟨hmost, before, after, hsplit, hfirst⟩ := mostFrequent_eq_some.mp hvar
  have hcall : ∀ policy, classify registry policy turn ⟨[.tupleAssign targets es span]⟩ s =
      (if policy = .reject ∧ ∃ v ∈ vars, ∃ w ∈ vars, v ≠ w then
        .error (.crossVariableAssignment vars.eraseDups)
      else .ok (.on var turn (.assignment (((writesTo places vs).filter (·.1 = var)).map (·.2)))),
        t) :=
    fun policy => classifyAssignment_eq hplaces hvalues hvar
  refine ⟨var, before, after, ⟨hsplit, hfirst, hmost⟩, ?_, ?_⟩
  · rw [hcall, if_neg (by simp)]
  · rw [hcall]
    simp only [true_and]

/-- Two writes to a variable go before one to another that the statement names first. -/
theorem classify_tupleAssign_timer :
    let here : Span := ⟨0, 0⟩
    let targets := [("x1", "duration"), ("x0", "time"), ("x0", "label")].map fun place =>
      Expr.field (.name place.1 here) place.2 here
    let es : List Expr := [.int 5 here, .str "8:30" here, .str "swim" here]
    let s := State.new .empty
    let updates : List AttributeUpdate := [⟨"time", none, .str "8:30"⟩, ⟨"label", none, .str "swim"⟩]
    classify (.ofSchemas []) .mostUpdated 2 ⟨[.tupleAssign targets es here]⟩ s =
        (.ok (.on "x0" 2 (.assignment updates)), s) ∧
      classify (.ofSchemas []) .reject 2 ⟨[.tupleAssign targets es here]⟩ s =
        (.error (.crossVariableAssignment ["x1", "x0"]), s) := by
  intro here targets es s updates
  have hplaces : List.Forall₂ Expr.IsTarget ((targets.zip es).map (·.1))
      [("x1", none, "duration"), ("x0", none, "time"), ("x0", none, "label")] :=
    .cons (.attribute ..) (.cons (.attribute ..) (.cons (.attribute ..) .nil))
  have hvalues : evalAll (.ofSchemas []) ((targets.zip es).map (·.2)) s =
      (.ok [.int 5, .str "8:30", .str "swim"], s) := rfl
  obtain ⟨var, before, after, ⟨hsplit, -, hmost⟩, hkept, hrefused⟩ :=
    classify_tupleAssign 2 here (by simp [targets, es]) hplaces hvalues
  have hvar : var = "x1" ∨ var = "x0" := by
    have hmem : var ∈ before ++ var :: after := List.mem_append_cons_self
    rw [← hsplit] at hmem
    simpa using hmem
  obtain rfl | rfl := hvar
  · exact absurd (hmost "x0" (by decide)) (by decide)
  · exact ⟨hkept, hrefused⟩

end

end Exec

end TaskDialogue
