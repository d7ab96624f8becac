import EnvCensus.Proofs.Text.Lines
import Mathlib.Data.List.Infix

/-!
# Numbers of lines

A line stands behind as many boundaries as there are lines before it. They are
the line feeds before it and, besides, the lone breaks: the other characters
that end a line, unless a line feed follows a carriage return and ends the line
with it. So the line feeds number the lines of a text just when there are no
lone breaks in it.
-/

namespace EnvCensus.Text

variable {c : Char} {cs xs ys line front : List Char} {k : Nat}

/-- The number of boundaries that have no line feed. -/
def loneBreaks : List Char → Nat
  | [] => 0
  | '\r' :: '\n' :: rest => loneBreaks rest
  | c :: rest => (if c != '\n' && isLineBreak c then 1 else 0) + loneBreaks rest

/-- Every boundary of the text has a line feed. -/
def FeedsOnly (cs : List Char) : Prop :=
  ∀ xs c ys, cs = xs ++ c :: ys → isLineBreak c = true →
    c = '\n' ∨ c = '\r' ∧ ys.head? = some '\n'

theorem loneBreaks_cons (single : c = '\r' → cs.head? ≠ some '\n') :
    loneBreaks (c :: cs) = (if c != '\n' && isLineBreak c then 1 else 0) + loneBreaks cs := by
  rw [loneBreaks]
  rintro rest rfl rfl
  exact single rfl rfl

/-- Every boundary counts once, as a line feed or as a lone break. -/
theorem breaks_cons (single : c = '\r' → cs.head? ≠ some '\n') :
    (c :: cs).count '\n' + loneBreaks (c :: cs) =
      (if isLineBreak c then 1 else 0) + (cs.count '\n' + loneBreaks cs) := by
  rw [loneBreaks_cons single]
  by_cases feed : c = '\n'
  · subst feed
    have boundary : isLineBreak '\n' = true := rfl
    rw [List.count_cons_self, boundary]
    simp only [bne_self_eq_false, Bool.false_and, Bool.false_eq_true, if_false, if_true]
    omega
  · rw [List.count_cons_of_ne feed, bne_iff_ne.mpr feed, Bool.true_and]
    omega

theorem loneBreaks_feed (cs : List Char) : loneBreaks ('\n' :: cs) = loneBreaks cs := by
  rw [loneBreaks_cons fun e => absurd e (by decide)]
  exact Nat.zero_add _

theorem loneBreaks_append_unbroken (h : Unbroken ys) :
    loneBreaks (xs ++ ys) = loneBreaks xs := by
  fun_induction loneBreaks xs with
  | case1 =>
    induction ys with
    | nil => rfl
    | cons c ys ih =>
      obtain ⟨hc, hys⟩ := List.forall_mem_cons.mp h
      have single : c = '\r' → ys.head? ≠ some '\n' := by
        rintro rfl
        cases hc
      rw [List.nil_append, loneBreaks_cons single, hc, Bool.and_false]
      simpa using ih hys
  | case2 rest ih => exact ih
  | case3 c rest other ih =>
    have single : c = '\r' → (rest ++ ys).head? ≠ some '\n' := by
      rintro rfl feed
      obtain ⟨next, e⟩ := List.head?_eq_some_iff.mp feed
      rcases List.append_eq_cons_iff.mp e with ⟨rfl, rfl⟩ | ⟨more, rfl, rfl⟩
      · exact h.no_feed List.mem_cons_self
      · exact other more rfl rfl
    rw [List.cons_append, loneBreaks_cons single, ih]

theorem Unbroken.count_feed (h : Unbroken cs) : cs.count '\n' = 0 :=
  List.count_eq_zero_of_not_mem h.no_feed

/-- There are no lone breaks just when every boundary has a line feed. -/
theorem loneBreaks_eq_zero_iff (cs : List Char) : loneBreaks cs = 0 ↔ FeedsOnly cs := by
  fun_induction loneBreaks cs with
  | case1 => simp [FeedsOnly]
  | case2 rest ih =>
    rw [ih]
    constructor
    · intro feeds xs c ys e boundary
      -- The boundary is the return of the pair, the feed of it, or stands in the rest.
      match xs with
      | [] =>
        cases e
        exact Or.inr ⟨rfl, rfl⟩
      | [d] =>
        cases e
        exact Or.inl rfl
      | _ :: _ :: xs =>
        cases e
        exact feeds xs c ys rfl boundary
    · intro feeds xs c ys e
      exact feeds ('\r' :: '\n' :: xs) c ys (by rw [e]; rfl)
  | case3 c rest other ih =>
    rw [Nat.add_eq_zero_iff, ih]
    constructor
    · rintro ⟨plain, feeds⟩ xs d ys e boundary
      cases xs with
      | nil =>
        cases e
        by_contra lone
        rw [not_or] at lone
        rw [boundary, Bool.and_true, if_pos (bne_iff_ne.mpr lone.1)] at plain
        exact Nat.one_ne_zero plain
      | cons x xs =>
        cases e
        exact feeds xs d ys rfl boundary
    · intro feeds
      refine ⟨if_neg fun lone => ?_, fun xs d ys e => feeds (c :: xs) d ys (by rw [e]; rfl)⟩
      rw [Bool.and_eq_true, bne_iff_ne] at lone
      rcases feeds [] c rest rfl lone.2 with feed | ⟨rfl, feed⟩
      · exact lone.1 feed
      · obtain ⟨next, rfl⟩ := List.head?_eq_some_iff.mp feed
        exact other next rfl rfl

/-! ### Lines and what stands before them -/

/-- The line stands in the content between the texts, from one boundary or end to the next. -/
structure LineAt (content before line after : List Char) : Prop where
  stands : content = before ++ line ++ after
  opened : ∀ c, before.getLast? = some c → isLineBreak c = true
  unbroken : Unbroken line
  closed : ∀ c, after.head? = some c → isLineBreak c = true

/-- One more character before a line, which ends the line before it if nothing else does. -/
theorem LineAt.cons {before after : List Char} (h : LineAt cs before line after)
    (ends : before = [] → isLineBreak c = true) : LineAt (c :: cs) (c :: before) line after where
  stands := by rw [h.stands]; rfl
  opened d last := by
    cases before with
    | nil =>
      cases last
      exact ends rfl
    | cons b before => exact h.opened d (by rwa [List.getLast?_cons_cons] at last)
  unbroken := h.unbroken
  closed := h.closed

/-- The first line stands behind nothing. -/
theorem lineAt_first (h : (lines cs).head? = some line) : ∃ after, LineAt cs [] line after := by
  induction cs generalizing line with
  | nil =>
    rw [lines_nil] at h
    cases h
  | cons c rest ih =>
    have blank (boundary : isLineBreak c = true) : LineAt (c :: rest) [] [] (c :: rest) :=
      ⟨rfl, by simp, by simp [Unbroken], by simp [boundary]⟩
    rcases lines_cons_cases c rest with ⟨next, rfl, rfl, e⟩ | ⟨hc, -, e⟩ | ⟨hc, e⟩
    · rw [e] at h
      cases h
      exact ⟨_, blank rfl⟩
    · rw [e] at h
      cases h
      exact ⟨_, blank hc⟩
    · rw [e] at h
      cases h
      -- The first line goes on in the rest, unless nothing follows.
      cases first : lines rest with
      | nil =>
        have last : rest = [] := by_contra fun ne => lines_ne_nil ne first
        exact ⟨[], by rw [last]; rfl, by simp, by simpa [Unbroken] using hc, by simp⟩
      | cons l ls =>
        have head : (lines rest).head? = some l := by rw [first, List.head?_cons]
        obtain ⟨after, stands, opened, unbroken, closed⟩ := ih head
        exact ⟨after, by rw [stands]; rfl, opened, List.forall_mem_cons.mpr ⟨hc, unbroken⟩, closed⟩

/-- The line with an index stands behind as many boundaries. -/
theorem lineAt_of_getElem? (h : (lines cs)[k]? = some line) :
    ∃ before after, LineAt cs before line after ∧ k = before.count '\n' + loneBreaks before := by
  induction cs generalizing k with
  | nil =>
    rw [lines_nil] at h
    cases h
  | cons c rest ih =>
    cases k with
    | zero =>
      obtain ⟨after, first⟩ := lineAt_first (List.head?_eq_getElem?.trans h)
      exact ⟨[], after, first, rfl⟩
    | succ k =>
      rcases lines_cons_cases c rest with ⟨next, rfl, rfl, e⟩ | ⟨hc, single, e⟩ | ⟨hc, e⟩
      · -- The feed after the return ends a line by itself, so the rest has as many lines.
        rw [e, ← lines_feed] at h
        obtain ⟨before, after, stands, number⟩ := ih h
        cases before with
        | nil => cases number
        | cons d before =>
          cases stands.stands
          rw [loneBreaks_feed] at number
          exact ⟨_, after, stands.cons (by simp), number⟩
      · -- A break by itself is one line more, and so it is one more in the count.
        rw [e] at h
        obtain ⟨before, after, stands, number⟩ := ih h
        have single' : c = '\r' → before.head? ≠ some '\n' := by
          intro ret feed
          refine single ret ?_
          rw [stands.stands, List.append_assoc, List.head?_append, feed]
          rfl
        refine ⟨c :: before, after, stands.cons fun _ => hc, ?_⟩
        rw [breaks_cons single', if_pos hc, number, Nat.add_comm]
      · -- A letter lengthens the first line; the lines after it are those of the rest.
        rw [e, List.getElem?_cons_succ, List.getElem?_tail] at h
        obtain ⟨before, after, stands, number⟩ := ih h
        have behind : before ≠ [] := by
          rintro rfl
          cases number
        have other : c ≠ '\r' := by
          rintro rfl
          cases hc
        refine ⟨c :: before, after, stands.cons fun none => absurd none behind, ?_⟩
        rw [breaks_cons fun ret => absurd ret other, hc, number]
        exact (Nat.zero_add _).symm

/-- Within a line nothing is counted. -/
theorem LineAt.counts {content before after : List Char} (h : LineAt content before line after)
    (inside : front <+: line) : (before ++ front).count '\n' = before.count '\n' ∧
      loneBreaks (before ++ front) = loneBreaks before := by
  have unbroken : Unbroken front := fun c hc => h.unbroken c (inside.subset hc)
  exact ⟨by rw [List.count_append, unbroken.count_feed, Nat.add_zero],
    loneBreaks_append_unbroken unbroken⟩

end EnvCensus.Text
