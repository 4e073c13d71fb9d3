import TaskDialogue.Exec.Executor
import TaskDialogue.Proofs.Transcript.Marks

/-!
# A line with the marker

A line that is the marker adds it to the expression of the program line above, after a line feed. The
marker is looked for right after the run of the expression. So the turn is followed when the run goes
on to the end of the program line, and otherwise the marker stands behind a comment, where it says
nothing. A marker with blanks at its end is not even added, since lines are read without theirs. In
each of these cases the program is that of the line alone.
-/
namespace TaskDialogue

open Text

variable {marker cs run : List Char} {followed : Bool}

/-! ### The parts of a turn text -/

/-- The parts of a text: what is skipped before its run, the run, and what stands behind it. -/
structure SplitsAs (cs skipped run tail : List Char) : Prop where
  parts : cs = skipped ++ (run ++ tail)
  skips : ∀ c ∈ skipped, endsExpression c = true
  nonempty : run ≠ []
  goesOn : ∀ c ∈ run, endsExpression c = false
  stops : ∀ c, tail.head? = some c → endsExpression c = true

/-- Whether the marker is at the front of what stands behind a run. -/
def followedBy (marker tail : List Char) : Bool :=
  !marker.isEmpty && marker.isPrefixOf (if tail.head? = some '\n' then tail.tail else tail)

namespace SplitsAs

variable {skipped tail : List Char}

theorem dropWhile_eq (h : SplitsAs cs skipped run tail) :
    cs.dropWhile endsExpression = run ++ tail := by
  rw [h.parts, List.dropWhile_append_of_pos h.skips]
  obtain ⟨c, rest, hrun⟩ := List.exists_cons_of_ne_nil h.nonempty
  have hc := h.goesOn c (hrun ▸ List.mem_cons_self)
  rw [hrun, List.cons_append, List.dropWhile_cons_of_neg (by simp [hc])]

/-- The splitting of a text in terms of its parts. -/
theorem splitFollowMarker?_eq (h : SplitsAs cs skipped run tail) (marker : List Char) :
    splitFollowMarker? marker cs = some (run, followedBy marker tail) := by
  have hrun : ∀ c ∈ run, (!endsExpression c) = true := fun c hc => by simp [h.goesOn c hc]
  have htake : tail.takeWhile (!endsExpression ·) = [] := by
    cases tail with
    | nil => rfl
    | cons c rest => exact List.takeWhile_cons_of_neg (by simp [h.stops c rfl])
  have hdrop : tail.dropWhile (!endsExpression ·) = tail := by
    cases tail with
    | nil => rfl
    | cons c rest => exact List.dropWhile_cons_of_neg (by simp [h.stops c rfl])
  have hempty : (run ++ tail).isEmpty = false := by simp [h.nonempty]
  simp only [splitFollowMarker?, h.dropWhile_eq, hempty, List.takeWhile_append_of_pos hrun, htake,
    List.dropWhile_append_of_pos hrun, hdrop, List.append_nil, followedBy]
  rfl

end SplitsAs

theorem exists_splitsAs (h : splitFollowMarker? marker cs = some (run, followed)) :
    ∃ skipped tail, SplitsAs cs skipped run tail ∧ followed = followedBy marker tail := by
  obtain ⟨hrest, rfl⟩ := run_of_splitFollowMarker? h
  obtain ⟨c, rest, hcons⟩ := List.exists_cons_of_ne_nil hrest
  have hc : endsExpression c = false := by
    have hfirst := List.head?_dropWhile_not endsExpression cs
    rw [hcons] at hfirst
    exact hfirst
  have hparts : SplitsAs cs (cs.takeWhile endsExpression)
      ((cs.dropWhile endsExpression).takeWhile (!endsExpression ·))
      ((cs.dropWhile endsExpression).dropWhile (!endsExpression ·)) := by
    refine ⟨?_, fun d hd => List.mem_takeWhile_imp hd, ?_, fun d hd => ?_, fun d hd => ?_⟩
    · rw [List.takeWhile_append_dropWhile, List.takeWhile_append_dropWhile]
    · rw [hcons, List.takeWhile_cons_of_pos (by simp [hc])]
      exact List.cons_ne_nil _ _
    · simpa using List.mem_takeWhile_imp hd
    · have hfirst := List.head?_dropWhile_not (!endsExpression ·) (cs.dropWhile endsExpression)
      rw [hd] at hfirst
      simpa using hfirst
  refine ⟨_, _, hparts, ?_⟩
  rw [hparts.splitFollowMarker?_eq] at h
  exact (Prod.mk.inj (Option.some.inj h)).2.symm

/-! ### The marker behind an expression -/

/-- Whether nothing stands behind the run of a text. -/
def endsInRun (text : List Char) : Bool :=
  (text.dropWhile endsExpression).all (! endsExpression ·)

theorem SplitsAs.endsInRun_eq {skipped tail : List Char} (h : SplitsAs cs skipped run tail) :
    endsInRun cs = tail.isEmpty := by
  have hrun : run.all (! endsExpression ·) = true :=
    List.all_eq_true.mpr fun c hc => by simp [h.goesOn c hc]
  rw [endsInRun, h.dropWhile_eq, List.all_append, hrun, Bool.true_and]
  cases tail with
  | nil => rfl
  | cons c rest => simp [h.stops c rfl]

/-- A marker without line feeds does not go over the end of a line. -/
theorem isPrefixOf_append_lineFeed (hsingle : '\n' ∉ marker) (cs ds : List Char) :
    marker.isPrefixOf (cs ++ '\n' :: ds) = marker.isPrefixOf cs := by
  rw [Bool.eq_iff_iff, List.isPrefixOf_iff_prefix, List.isPrefixOf_iff_prefix]
  refine ⟨fun h => ?_, fun h => h.trans (List.prefix_append cs _)⟩
  by_cases hlength : marker.length ≤ cs.length
  · exact List.prefix_of_prefix_length_le h (List.prefix_append cs _) hlength
  · have hline : cs ++ ['\n'] <+: cs ++ '\n' :: ds := ⟨ds, by simp⟩
    have hover := List.prefix_of_prefix_length_le hline h (by simp; omega)
    exact absurd (hover.subset (by simp)) hsingle

/-- A line with the marker leaves the run of the line above as it is. The turn is followed if it was
already, or if nothing stands behind the run. -/
theorem splitFollowMarker?_markerLine (hne : marker ≠ []) (hsingle : '\n' ∉ marker) (hline : '\n' ∉ cs)
    (h : splitFollowMarker? marker cs = some (run, followed)) :
    splitFollowMarker? marker (cs ++ '\n' :: marker) = some (run, followed || endsInRun cs) := by
  obtain ⟨skipped, tail, hparts, rfl⟩ := exists_splitsAs h
  have hmarked : SplitsAs (cs ++ '\n' :: marker) skipped run (tail ++ '\n' :: marker) := by
    refine ⟨by simp [hparts.parts], hparts.skips, hparts.nonempty, hparts.goesOn, fun c hc => ?_⟩
    cases tail with
    | nil => exact Option.some.inj hc ▸ rfl
    | cons d rest => exact hparts.stops c hc
  have hmark : marker.isEmpty = false := by simpa using hne
  rw [hmarked.splitFollowMarker?_eq, hparts.endsInRun_eq]
  cases tail with
  | nil => simp [followedBy, hmark]
  | cons d rest =>
    have hd : d ≠ '\n' := by
      rintro rfl
      exact hline (by simp [hparts.parts])
    have hbehind := isPrefixOf_append_lineFeed hsingle (d :: rest) marker
    rw [List.cons_append] at hbehind
    simp [followedBy, hd, hbehind]

namespace Executor

/-- A program line is prepared with a line with the marker below it as it is without. -/
theorem prepare_markerLine {x : Executor} {expression : String} {p : Program}
    (hne : x.options.followMarker.toList ≠ []) (hsingle : '\n' ∉ x.options.followMarker.toList)
    (hline : '\n' ∉ expression.toList) (h : x.prepare expression = .ok (p, followed)) :
    x.prepare (String.ofList (expression.toList ++ '\n' :: x.options.followMarker.toList)) =
      .ok (p, followed || endsInRun expression.toList) := by
  unfold prepare at h ⊢
  rw [String.toList_ofList]
  cases hsplit : splitFollowMarker? x.options.followMarker.toList expression.toList with
  | none => simp [hsplit] at h
  | some parts =>
    obtain ⟨run, followed'⟩ := parts
    rw [splitFollowMarker?_markerLine hne hsingle hline hsplit]
    simp only [hsplit] at h ⊢
    cases hparse : Program.parse (String.ofList run) with
    | error e => simp [hparse, bind, Except.bind] at h
    | ok q =>
      simp only [hparse, bind, Except.bind, pure, Except.pure, Except.ok.injEq, Prod.mk.injEq] at h ⊢
      exact ⟨h.1, by rw [h.2]⟩

end Executor

/-! ### The marker on a line -/

namespace Transcript

variable {text line : List Char} {t : Turn}

/-- A line that stands for nothing adds nothing to the turn above. -/
theorem ReadsAs.nothing (h : ReadsAs marker text t) (hline : '\n' ∉ line)
    (hnothing : Line.ofChars marker (trim line) = .nothing) :
    ReadsAs marker (text ++ '\n' :: line) t := by
  intro number rest turns
  obtain ⟨number', hread⟩ := h number (line :: rest) turns
  refine ⟨number' + 1, ?_⟩
  rw [List.splitOn_append_cons_self, List.splitOn_eq_singleton hline, List.append_assoc,
    List.singleton_append, hread, readLines]
  simp only [hnothing]

/-- A line that starts with a hash sign and is not the marker is a comment. -/
theorem ofChars_comment (hne : '#' :: cs ≠ marker) : Line.ofChars marker ('#' :: cs) = .nothing := by
  have hword : ∀ word rest, splitAtBlank? ('#' :: cs) = some (word, rest) → readIndex? word = none := by
    intro word rest hsplit
    obtain ⟨c, hc, hcons⟩ := splitAtBlank?_eq_some hsplit
    cases word with
    | nil =>
      obtain rfl : '#' = c := (List.cons.inj hcons).1
      exact absurd hc (by decide)
    | cons d word =>
      obtain rfl : '#' = d := (List.cons.inj hcons).1
      simp [readIndex?, readDigits?]
  have hprogram : programLine? ('#' :: cs) = none := by
    unfold programLine?
    cases hsplit : splitAtBlank? ('#' :: cs) with
    | none => rfl
    | some parts =>
      obtain ⟨word, rest⟩ := parts
      simp [hword word rest hsplit]
  have huser : dropPrefix? Turn.userMark ('#' :: cs) = none := rfl
  have hagent : dropPrefix? Turn.agentMark ('#' :: cs) = none := rfl
  unfold Line.ofChars
  rw [if_neg hne, huser, hagent, hprogram]
  rfl

/-- A marker with blanks at its end is a comment where it stands on a line. -/
theorem ofChars_untrimmed (hhash : marker.head? = some '#') (h : ¬Trimmed marker) :
    Line.ofChars marker (trim marker) = .nothing := by
  have hstart : trimStart marker = marker :=
    trimStart_of_first fun c hc => by
      obtain rfl := Option.some.inj (hhash.symm.trans hc)
      rfl
  have htrim : trim marker = trimEnd marker := by rw [trim, hstart]
  obtain ⟨cs, hcs⟩ : ∃ cs, trim marker = '#' :: cs := by
    obtain ⟨blanks, hmarker, hblanks⟩ := trimEnd_append_blanks marker
    rw [← htrim] at hmarker
    cases hcons : trim marker with
    | nil =>
      rw [hcons, List.nil_append] at hmarker
      exact absurd (hblanks '#' (hmarker ▸ List.mem_of_head? hhash)) (by decide)
    | cons c cs =>
      rw [hmarker, hcons] at hhash
      exact ⟨cs, by rw [Option.some.inj hhash]⟩
  have hne : '#' :: cs ≠ marker := fun heq => h (Trimmed.iff_trim_eq.mpr (hcs.trans heq))
  rw [hcs]
  exact ofChars_comment hne

/-- What a line that was read as one turn stands for. -/
theorem ofChars_of_parse {line marker : String} (hline : '\n' ∉ line.toList)
    (h : parse line marker = .ok ⟨[t], marker⟩) :
    Line.ofChars marker.toList (trim line.toList) = .turn t := by
  simp only [parse, readLines_lines, List.splitOn_eq_singleton hline, readLines] at h
  split at h
  · simp [Except.map] at h
  · next heq =>
    obtain rfl : _ = t := by simpa [Except.map] using h
    exact heq
  · simp [Except.map, markLast] at h
  · simp [Except.map] at h

/-- The expression of a program line is on that line. -/
theorem fillsLine_ofChars {t : ProgramTurn} (htrim : Trimmed line) (hline : '\n' ∉ line)
    (h : Line.ofChars marker line = .turn (.program t)) : FillsLine t.expression.toList := by
  obtain ⟨_, -, ht⟩ | ⟨_, -, ht⟩ | ⟨p, hprogram, ht⟩ := ofChars_turn_cases h
  · cases ht
  · cases ht
  · obtain rfl := Turn.program.inj ht
    exact (fillsLine_programLine? htrim hline hprogram).2

/-- A program line with a line below it that holds the marker and nothing else, between any other
lines, is read as one turn. Its program is that of the line alone. It is followed if the line alone
is, or if the marker has no blanks at its end and nothing stands behind the run of the expression;
otherwise the marker is lost. -/
theorem parse_markerLine {x : Executor} {line : String} {t : ProgramTurn} {p : Program}
    {followed : Bool} (hhash : x.options.followMarker.toList.head? = some '#')
    (hsingle : '\n' ∉ x.options.followMarker.toList) (hline : '\n' ∉ line.toList)
    (hread : parse line x.options.followMarker = .ok ⟨[.program t], x.options.followMarker⟩)
    (hprepare : x.prepare t.expression = .ok (p, followed)) :
    ∃ t' followed',
      ReadsAs x.options.followMarker.toList
          (line.toList ++ '\n' :: x.options.followMarker.toList) (.program t') ∧
        parse (line ++ "\n" ++ x.options.followMarker) x.options.followMarker =
          .ok ⟨[.program t'], x.options.followMarker⟩ ∧
        t'.index = t.index ∧ x.prepare t'.expression = .ok (p, followed') ∧
        (followed' = true ↔ followed = true ∨
          (Trimmed x.options.followMarker.toList ∧ endsInRun t.expression.toList = true)) := by
  have hofChars := ofChars_of_parse hline hread
  have hreads : ReadsAs x.options.followMarker.toList line.toList (.program t) := .of_line hline hofChars
  have hne : x.options.followMarker.toList ≠ [] := by
    intro hnil
    simp [hnil] at hhash
  have hparse : ∀ t', ReadsAs x.options.followMarker.toList
      (line.toList ++ '\n' :: x.options.followMarker.toList) (.program t') →
        parse (line ++ "\n" ++ x.options.followMarker) x.options.followMarker =
          .ok ⟨[.program t'], x.options.followMarker⟩ := by
    intro t' ht'
    have htext : line ++ "\n" ++ x.options.followMarker = String.ofList
        (['\n'].intercalate [line.toList ++ '\n' :: x.options.followMarker.toList]) := by
      apply String.toList_injective
      simp
    rw [htext]
    exact parse_of_readsAs (.cons ht' .nil)
  by_cases htrim : Trimmed x.options.followMarker.toList
  · have hmarked := hreads.mark htrim hne hsingle
    have hfills := fillsLine_ofChars (Trimmed.trim line.toList)
      (fun hmem => hline (mem_of_mem_trim hmem)) hofChars
    exact ⟨_, _, hmarked, hparse _ hmarked, rfl,
      Executor.prepare_markerLine hne hsingle hfills.single hprepare, by simp [htrim]⟩
  · have hsame := hreads.nothing hsingle (ofChars_untrimmed hhash htrim)
    exact ⟨t, followed, hsame, hparse t hsame, rfl, hprepare, by simp [htrim]⟩

/-- A value that is given with the marker on the next line. -/
theorem parse_markerLine_time :
    let x : Executor := ⟨.ofSchemas [], Sugar.defaults, .defaults⟩
    ∃ t' p, parse ("1 x0.time = \"8:30\"" ++ "\n" ++ "#y") "#y" = .ok ⟨[.program t'], "#y"⟩ ∧
      x.prepare "x0.time = \"8:30\"" = .ok (p, false) ∧ x.prepare t'.expression = .ok (p, true) := by
  intro x
  have hprepare : x.prepare "x0.time = \"8:30\"" =
      .ok (⟨[.assign (.field (.name "x0" ⟨0, 2⟩) "time" ⟨0, 7⟩) (.str "8:30" ⟨10, 16⟩) ⟨0, 16⟩]⟩,
        false) := by
    decide +kernel
  have hread : parse "1 x0.time = \"8:30\"" "#y" =
      .ok ⟨[.program ⟨1, "x0.time = \"8:30\""⟩], "#y"⟩ := by
    decide +kernel
  obtain ⟨t', followed', -, hparse, -, hmarked, hfollowed⟩ :=
    parse_markerLine (x := x) (by decide) (by decide) (by decide) hread hprepare
  obtain rfl : followed' = true :=
    hfollowed.mpr (.inr ⟨Trimmed.iff_trim_eq.mpr (by decide), by decide⟩)
  exact ⟨t', _, hparse, hprepare, hmarked⟩

/-- Behind a comment the marker is lost. -/
theorem markerLine_lost :
    let x : Executor := ⟨.ofSchemas [], Sugar.defaults, .defaults⟩
    parse "0 x0 # note" "#y" = .ok ⟨[.program ⟨0, "x0 # note"⟩], "#y"⟩ ∧
      (x.prepare "x0 # note").map (·.2) = .ok false ∧
      parse "0 x0 # note\n#y" "#y" = .ok ⟨[.program ⟨0, "x0 # note\n#y"⟩], "#y"⟩ ∧
      (x.prepare "x0 # note\n#y").map (·.2) = .ok false := by
  decide +kernel

end Transcript

end TaskDialogue
