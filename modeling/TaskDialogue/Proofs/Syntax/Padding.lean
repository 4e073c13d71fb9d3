import TaskDialogue.Text.Blank
import TaskDialogue.Proofs.Syntax.Erasure
import TaskDialogue.Proofs.Syntax.Items

/-!
# Texts with blanks after them

The same text is read twice, by patterns of one shape: once as it is, and once with blanks after it
and somewhere else. Both readings fail, or both give related values and leave rests that differ in
blanks at the end again. One lemma for each way to put patterns together carries this to the
whole. How much is taken is counted along, since the number of rounds of a repetition and the depth
of the grammar are bounded by the length of the text, which is not the same in the two readings.
-/
namespace TaskDialogue.Syntax

/-- A blank that does not end a line. -/
def IsPad (c : Char) : Prop := Text.isBlank c = true ∧ c ≠ '\n'

/-- The second text is the first one with blanks after it. -/
def Padded (cs ds : List Char) : Prop := ∃ pad, (∀ c ∈ pad, IsPad c) ∧ ds = cs ++ pad

/-- The letters and digits of a name are those of ASCII. -/
theorem bounds_of_isAlphanum {c : Char} (h : c.isAlphanum = true) :
    (65 ≤ c.toNat ∧ c.toNat ≤ 90) ∨ (97 ≤ c.toNat ∧ c.toNat ≤ 122) ∨ 48 ≤ c.toNat ∧ c.toNat ≤ 57 := by
  obtain h | h : c.isAlpha = true ∨ c.isDigit = true := (Bool.or_eq_true _ _).mp h
  · obtain h | h : c.isUpper = true ∨ c.isLower = true := (Bool.or_eq_true _ _).mp h
    · have hbounds : 'A'.val ≤ c.val ∧ c.val ≤ 'Z'.val := of_decide_eq_true h
      exact .inl (hbounds.imp UInt32.le_iff_toNat_le.mp UInt32.le_iff_toNat_le.mp)
    · have hbounds : 'a'.val ≤ c.val ∧ c.val ≤ 'z'.val :=
        ((Bool.and_eq_true _ _).mp h).imp of_decide_eq_true of_decide_eq_true
      exact .inr (.inl (hbounds.imp UInt32.le_iff_toNat_le.mp UInt32.le_iff_toNat_le.mp))
  · exact .inr (.inr (Char.isDigit_iff_toNat.mp h))

namespace IsPad

variable {c : Char}

/-- A character that is no blank is none. -/
theorem ne (h : IsPad c) {d : Char} (hd : Text.isBlank d = false) : c ≠ d := by
  rintro rfl
  simp [h.1] at hd

/-- Blanks are neither letters nor digits. -/
theorem isIdentChar (h : IsPad c) : isIdentChar c = false := by
  refine Bool.eq_false_iff.mpr fun hchar => ?_
  have hblank := h.1
  simp only [Text.isBlank, Bool.or_eq_true, Bool.and_eq_true, decide_eq_true_eq, beq_iff_eq] at hblank
  obtain hchar | hchar : c.isAlphanum = true ∨ (c == '_') = true := (Bool.or_eq_true _ _).mp hchar
  · have hbounds := bounds_of_isAlphanum hchar
    omega
  · obtain rfl := eq_of_beq hchar
    exact absurd h.1 (by decide)

theorem isDigit (h : IsPad c) : c.isDigit = false := by
  have hchar := h.isIdentChar
  simp only [Syntax.isIdentChar, Char.isAlphanum, Bool.or_eq_false_iff] at hchar
  exact hchar.1.2

end IsPad

namespace Padded

variable {cs ds : List Char}

theorem self (cs : List Char) : Padded cs cs := ⟨[], by simp⟩

theorem of_nil (h : Padded [] ds) : ∀ c ∈ ds, IsPad c := by
  obtain ⟨pad, hpad, rfl⟩ := h
  exact hpad

theorem cons {c : Char} (h : Padded (c :: cs) ds) : ∃ es, ds = c :: es ∧ Padded cs es := by
  obtain ⟨pad, hpad, rfl⟩ := h
  exact ⟨cs ++ pad, rfl, pad, hpad, rfl⟩

/-- A text starts with a character that is no blank when it does with blanks after it. -/
theorem head (h : Padded cs ds) {c : Char} (hc : Text.isBlank c = false) :
    ds.head? = some c ↔ cs.head? = some c := by
  cases cs with
  | nil =>
    cases ds with
    | nil => rfl
    | cons d ds => simpa using (h.of_nil d List.mem_cons_self).ne hc
  | cons d cs =>
    obtain ⟨ds, rfl, -⟩ := h.cons
    rfl

theorem length_le (h : Padded cs ds) : cs.length ≤ ds.length := by
  obtain ⟨pad, -, rfl⟩ := h
  simp

theorem dropWhile (h : Padded cs ds) (p : Char → Bool) : Padded (cs.dropWhile p) (ds.dropWhile p) := by
  obtain ⟨pad, hpad, rfl⟩ := h
  rw [List.dropWhile_append]
  split
  · next hempty =>
    rw [List.isEmpty_iff.mp hempty]
    exact ⟨pad.dropWhile p, fun c hc => hpad c ((List.dropWhile_sublist p).subset hc), rfl⟩
  · exact ⟨pad, hpad, rfl⟩

/-- What no blank satisfies is taken from both alike. -/
theorem takeWhile (h : Padded cs ds) {p : Char → Bool} (hp : ∀ c, IsPad c → p c = false) :
    ds.takeWhile p = cs.takeWhile p := by
  obtain ⟨pad, hpad, rfl⟩ := h
  have hnone : pad.takeWhile p = [] := by
    cases pad with
    | nil => rfl
    | cons c pad => simp [hp c (hpad c List.mem_cons_self)]
  rw [List.takeWhile_append]
  split
  · next hlength => rw [hnone, List.append_nil, (List.takeWhile_prefix p).eq_of_length hlength]
  · rfl

end Padded

/-- Two readings that both fail, or give related values after `k` characters or more. -/
inductive Agrees {α β : Type} (k : Nat) (cs ds : List Char) (R : α → β → Prop) :
    Option (α × Cursor) → Option (β × Cursor) → Prop
  | none : Agrees k cs ds R none none
  | some {a : α} {b : β} {o o' : Nat} {rest rest' : List Char} (value : R a b)
    (padded : Padded rest rest') (left : rest.length + k ≤ cs.length)
    (right : rest'.length + k ≤ ds.length) :
    Agrees k cs ds R (some (a, ⟨o, rest⟩)) (some (b, ⟨o', rest'⟩))

/-- What a scanner cuts off a text it also cuts off the text with blanks after it. -/
def ScansAlike (scan : List Char → Option (List Char × List Char)) : Prop :=
  ∀ cs ds, Padded cs ds → (scan cs = none ∧ scan ds = none) ∨
    ∃ word rest rest', scan cs = some (word, rest) ∧ scan ds = some (word, rest') ∧
      Padded rest rest' ∧ rest.length ≤ cs.length ∧ rest'.length ≤ ds.length

namespace Pattern

variable {α β γ δ : Type} {k l m n : Nat} {R : α → β → Prop} {S : γ → δ → Prop}
  {p p' : Pattern α} {q q' : Pattern β} {r : Pattern γ} {s : Pattern δ}

/-- The two patterns read texts of less than `m` and `n` characters alike, of which the second is the
first one with blanks after it. -/
def Alike (k m n : Nat) (R : α → β → Prop) (p : Pattern α) (q : Pattern β) : Prop :=
  ∀ o o' cs ds, Padded cs ds → cs.length < m → ds.length < n →
    Agrees k cs ds R (p.read ⟨o, cs⟩) (q.read ⟨o', ds⟩)

namespace Alike

/-- Of shorter texts, and of fewer characters taken. -/
theorem mono (h : Alike k m n R p q) {k' m' n' : Nat} (hk : k' ≤ k) (hm : m' ≤ m) (hn : n' ≤ n) :
    Alike k' m' n' R p q := by
  intro o o' cs ds hpad hcs hds
  have hread := h o o' cs ds hpad (by omega) (by omega)
  generalize p.read ⟨o, cs⟩ = x at hread ⊢
  generalize q.read ⟨o', ds⟩ = y at hread ⊢
  cases hread with
  | none => exact .none
  | some hvalue hrest hleft hright => exact .some hvalue hrest (by omega) (by omega)

theorem fail (k n : Nat) : Alike k 0 n R p q := fun _ _ _ _ _ hcs => absurd hcs (Nat.not_lt_zero _)

theorem map {f : α → γ} {g : β → δ} (h : Alike k m n R p q) (hfg : ∀ a b, R a b → S (f a) (g b)) :
    Alike k m n S (p.map f) (q.map g) := by
  intro o o' cs ds hpad hcs hds
  have hread := h o o' cs ds hpad hcs hds
  simp only [Pattern.map]
  generalize p.read ⟨o, cs⟩ = x at hread ⊢
  generalize q.read ⟨o', ds⟩ = y at hread ⊢
  cases hread with
  | none => exact .none
  | some hvalue hrest hleft hright => exact .some (hfg _ _ hvalue) hrest hleft hright

/-- Blanks are skipped in both texts. -/
theorem skip (h : Alike k m n R p q) (o o' : Nat) {cs ds : List Char} (hpad : Padded cs ds)
    (hcs : cs.length < m) (hds : ds.length < n) :
    Agrees k cs ds R (p.read (Cursor.skip ⟨o, cs⟩)) (q.read (Cursor.skip ⟨o', ds⟩)) := by
  have hleft := (List.dropWhile_sublist (l := cs) Cursor.isSpace).length_le
  have hright := (List.dropWhile_sublist (l := ds) Cursor.isSpace).length_le
  have hread := h (o + Text.byteLength (cs.takeWhile Cursor.isSpace))
    (o' + Text.byteLength (ds.takeWhile Cursor.isSpace)) _ _ (hpad.dropWhile Cursor.isSpace)
    (by omega) (by omega)
  simp only [Cursor.skip, Cursor.after]
  generalize p.read _ = x at hread ⊢
  generalize q.read _ = y at hread ⊢
  cases hread with
  | none => exact .none
  | some hvalue hrest hleft' hright' => exact .some hvalue hrest (by omega) (by omega)

theorem seq (hp : Alike k m n R p q) (hr : Alike l (m - k) (n - k) S r s) :
    Alike (k + l) m n (fun x y => R x.1 y.1 ∧ S x.2 y.2) (p.seq r) (q.seq s) := by
  intro o o' cs ds hpad hcs hds
  have hfirst := hp o o' cs ds hpad hcs hds
  simp only [Pattern.seq]
  generalize p.read ⟨o, cs⟩ = x at hfirst ⊢
  generalize q.read ⟨o', ds⟩ = y at hfirst ⊢
  cases hfirst with
  | none => exact .none
  | @some a b o₁ o₁' rest rest' hvalue hrest hleft hright =>
    have hnext := hr.skip o₁ o₁' hrest (by omega) (by omega)
    dsimp only
    generalize r.read (Cursor.skip ⟨o₁, rest⟩) = x at hnext ⊢
    generalize s.read (Cursor.skip ⟨o₁', rest'⟩) = y at hnext ⊢
    cases hnext with
    | none => exact .none
    | some hvalue' hrest' hleft' hright' =>
      exact .some ⟨hvalue, hvalue'⟩ hrest' (by omega) (by omega)

theorem seqLeft (hp : Alike k m n R p q) (hr : Alike l (m - k) (n - k) S r s) :
    Alike (k + l) m n R (p.seqLeft r) (q.seqLeft s) :=
  (hp.seq hr).map fun _ _ h => h.1

theorem seqRight (hp : Alike k m n R p q) (hr : Alike l (m - k) (n - k) S r s) :
    Alike (k + l) m n S (p.seqRight r) (q.seqRight s) :=
  (hp.seq hr).map fun _ _ h => h.2

theorem orElse (hp : Alike k m n R p q) (hp' : Alike k m n R p' q') :
    Alike k m n R (p.orElse p') (q.orElse q') := by
  intro o o' cs ds hpad hcs hds
  have hfirst := hp o o' cs ds hpad hcs hds
  simp only [Pattern.orElse]
  generalize p.read ⟨o, cs⟩ = x at hfirst ⊢
  generalize q.read ⟨o', ds⟩ = y at hfirst ⊢
  cases hfirst with
  | none => exact hp' o o' cs ds hpad hcs hds
  | some hvalue hrest hleft hright => exact .some hvalue hrest hleft hright

theorem optional (h : Alike k m n R p q) :
    Alike 0 m n (fun a b => Option.Rel R a b) p.optional q.optional := by
  intro o o' cs ds hpad hcs hds
  have hread := h o o' cs ds hpad hcs hds
  simp only [Pattern.optional]
  generalize p.read ⟨o, cs⟩ = x at hread ⊢
  generalize q.read ⟨o', ds⟩ = y at hread ⊢
  cases hread with
  | none => exact .some .none hpad le_rfl le_rfl
  | some hvalue hrest hleft hright => exact .some (.some hvalue) hrest (by omega) (by omega)

theorem rule (name : Rule) (h : Alike k m n R p q) :
    Alike k m n (fun x y => R x.1 y.1) (Pattern.rule name p) (Pattern.rule name q) := by
  intro o o' cs ds hpad hcs hds
  have hread := h o o' cs ds hpad hcs hds
  simp only [Pattern.rule]
  generalize p.read ⟨o, cs⟩ = x at hread ⊢
  generalize q.read ⟨o', ds⟩ = y at hread ⊢
  cases hread with
  | none => exact .none
  | some hvalue hrest hleft hright => exact .some hvalue hrest hleft hright

theorem readMore_of_none {c : Cursor} (h : p.read c.skip = none) (fuel : Nat) :
    p.readMore fuel c = ([], c) := by
  cases fuel with
  | zero => rfl
  | succ fuel => simp only [Pattern.readMore, h]

/-- Each round takes a character, so there are rounds enough left in both texts. -/
theorem readMore (h : Alike 1 m n R p q) (fuel fuel' o o' : Nat) {cs ds : List Char}
    (hpad : Padded cs ds) (hcs : cs.length < m) (hds : ds.length < n) (hfuel : cs.length ≤ fuel)
    (hfuel' : ds.length ≤ fuel') :
    ∃ as bs o₁ o₁' rest rest', p.readMore fuel ⟨o, cs⟩ = (as, ⟨o₁, rest⟩) ∧
      q.readMore fuel' ⟨o', ds⟩ = (bs, ⟨o₁', rest'⟩) ∧ List.Forall₂ R as bs ∧ Padded rest rest' ∧
      rest.length ≤ cs.length ∧ rest'.length ≤ ds.length := by
  induction hlength : cs.length using Nat.strong_induction_on generalizing fuel fuel' o o' cs ds with
  | _ length ih =>
    have hround := h.skip o o' hpad hcs hds
    generalize hx : p.read (Cursor.skip ⟨o, cs⟩) = x at hround
    generalize hy : q.read (Cursor.skip ⟨o', ds⟩) = y at hround
    cases hround with
    | none =>
      exact ⟨[], [], o, o', cs, ds, readMore_of_none hx fuel, readMore_of_none hy fuel', .nil, hpad,
        hlength.le, le_rfl⟩
    | @some a b o₁ o₁' rest rest' hvalue hrest hleft hright =>
      obtain ⟨fuel, rfl⟩ : ∃ f, fuel = f + 1 := ⟨fuel - 1, by omega⟩
      obtain ⟨fuel', rfl⟩ : ∃ f, fuel' = f + 1 := ⟨fuel' - 1, by omega⟩
      obtain ⟨as, bs, o₂, o₂', last, last', has, hbs, hall, hlast, hle, hle'⟩ :=
        ih rest.length (by omega) fuel fuel' o₁ o₁' hrest
          (by omega) (by omega) (by omega) (by omega) rfl
      refine ⟨a :: as, b :: bs, o₂, o₂', last, last', ?_, ?_, .cons hvalue hall, hlast, by omega,
        by omega⟩
      · simp only [Pattern.readMore, hx, has]
      · simp only [Pattern.readMore, hy, hbs]

theorem many (h : Alike 1 m n R p q) : Alike 0 m n (List.Forall₂ R) p.many q.many := by
  intro o o' cs ds hpad hcs hds
  have hround := h o o' cs ds hpad hcs hds
  simp only [Pattern.many]
  generalize p.read ⟨o, cs⟩ = x at hround ⊢
  generalize q.read ⟨o', ds⟩ = y at hround ⊢
  cases hround with
  | none => exact .some .nil hpad le_rfl le_rfl
  | @some a b o₁ o₁' rest rest' hvalue hrest hleft hright =>
    obtain ⟨as, bs, o₂, o₂', last, last', has, hbs, hall, hlast, hle, hle'⟩ :=
      h.readMore cs.length ds.length o₁ o₁' hrest (by omega)
        (by omega) (by omega) (by omega)
    simp only [has, hbs]
    exact .some (.cons hvalue hall) hlast (by omega) (by omega)

theorem nothing : Alike 0 m n (fun _ _ => True) Pattern.nothing Pattern.nothing :=
  fun _ _ _ _ hpad _ _ => .some trivial hpad le_rfl le_rfl

/-- A character that is no blank. -/
theorem symbol {c : Char} (hc : ∀ d, IsPad d → d ≠ c) :
    Alike 1 m n (fun _ _ => True) (Pattern.symbol c) (Pattern.symbol c) := by
  intro o o' cs ds hpad _ _
  simp only [Pattern.symbol]
  cases cs with
  | nil =>
    cases ds with
    | nil => exact .none
    | cons d ds =>
      simp only [if_neg (hc d (hpad.of_nil d List.mem_cons_self))]
      exact .none
  | cons d cs =>
    obtain ⟨ds, rfl, hrest⟩ := hpad.cons
    dsimp only
    split
    · exact .some trivial hrest le_rfl le_rfl
    · exact .none

/-- A word that is cut off both texts alike. -/
theorem token (name : Rule) {scan : List Char → Option (List Char × List Char)}
    (h : ScansAlike scan) :
    Alike 0 m n (fun x y => x.1 = y.1) (Pattern.token name scan) (Pattern.token name scan) := by
  intro o o' cs ds hpad _ _
  simp only [Pattern.token]
  obtain ⟨hcs, hds⟩ | ⟨word, rest, rest', hcs, hds, hrest, hle, hle'⟩ := h cs ds hpad
  · rw [hcs, hds]
    exact .none
  · rw [hcs, hds]
    exact .some rfl hrest hle hle'

/-- A character before a pattern leaves it less to read. -/
theorem after {c : Char} (hc : Text.isBlank c = false) (h : Alike k (m - 1) (n - 1) R p q) :
    Alike 1 m n R ((Pattern.symbol c).seqRight p) ((Pattern.symbol c).seqRight q) :=
  ((symbol fun _ hd => hd.ne hc).seqRight h).mono (by omega) le_rfl le_rfl

/-- The items after the first one, each after a comma. -/
theorem more (h : Alike k m n R p q) :
    Alike 1 m n R ((Pattern.symbol ',').seqRight p) ((Pattern.symbol ',').seqRight q) :=
  after (by decide) (h.mono le_rfl (by omega) (by omega))

theorem commaList (h : Alike k m n R p q) :
    Alike k m n (List.Forall₂ R) (Pattern.commaList p) (Pattern.commaList q) := by
  have hcomma : Alike 1 m n (fun _ _ => True) (Pattern.symbol ',') (Pattern.symbol ',') :=
    symbol fun _ hd => hd.ne (by decide)
  have hrest := h.more.many.seqLeft (hcomma.optional.mono le_rfl (by omega) (by omega))
  exact (h.seq (hrest.mono le_rfl (by omega) (by omega))).map fun x y hxy => .cons hxy.1 hxy.2

/-- Two items or more, or one with a comma after it. -/
theorem tupleOf (h : Alike k m n R p q) :
    Alike k m n (List.Forall₂ R) (Syntax.tupleOf p) (Syntax.tupleOf q) := by
  have hcomma : Alike 1 m n (fun _ _ => True) (Pattern.symbol ',') (Pattern.symbol ',') :=
    symbol fun _ hd => hd.ne (by decide)
  have hrest := h.more.many.seqLeft (hcomma.optional.mono le_rfl (by omega) (by omega))
  have hseveral := (h.more.seq (hrest.mono le_rfl (by omega) (by omega))).map
    (f := fun r => r.1 :: r.2) (g := fun r => r.1 :: r.2) (S := List.Forall₂ R)
    fun x y hxy => .cons hxy.1 hxy.2
  have hsingle := hcomma.map (f := fun _ => []) (g := fun _ => []) (S := List.Forall₂ R)
    fun _ _ _ => .nil
  dsimp only [Syntax.tupleOf]
  exact (h.seq ((hseveral.orElse hsingle).mono (Nat.zero_le _) (by omega) (by omega))).map
    fun x y hxy => .cons hxy.1 hxy.2

end Alike

end Pattern

end TaskDialogue.Syntax
