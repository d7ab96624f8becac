import EnvCensus.Gitignore
import Mathlib.Data.List.MinMax
import Mathlib.Data.List.Nodup

/-!
# Which list has its way

Of the patterns of a list that apply to a path, the last one decides. A list
selects a path when this pattern is not negated; it says nothing of a path that
none of its patterns applies to.

Several ignore lists may speak of one path, each as seen from its own folder.
A path is ignored as soon as one of them selects it. The rule by which the
deepest list that has a pattern for the path decides alone gives the same answer
but for one case: a deeper list that takes a path back is not heard as long as
an outer one selects it.
-/

namespace EnvCensus.Pattern

variable {p q : Pattern} {ps : List Pattern} {path : String}

/-- The pattern is the last one of the list that applies to the path. -/
def Decides (p : Pattern) (ps : List Pattern) (path : String) : Prop :=
  p.applies path = true ∧
    ∃ before after, ps = before ++ p :: after ∧ ∀ q ∈ after, q.applies path = false

theorem decides_iff : p.Decides ps path ↔ ps.reverse.find? (·.applies path) = some p := by
  rw [List.find?_eq_some_iff_append]
  refine and_congr_right fun _ => ⟨?_, ?_⟩
  · rintro ⟨before, after, rfl, silent⟩
    refine ⟨after.reverse, before.reverse, by simp, fun q hq => ?_⟩
    simp [silent q (List.mem_reverse.mp hq)]
  · rintro ⟨after, before, split, silent⟩
    refine ⟨before.reverse, after.reverse, ?_, fun q hq => ?_⟩
    · rw [← List.reverse_reverse ps, split]
      simp
    · simpa using silent q (List.mem_reverse.mp hq)

theorem Decides.unique (hp : p.Decides ps path) (hq : q.Decides ps path) : p = q :=
  Option.some.inj ((decides_iff.mp hp).symm.trans (decides_iff.mp hq))

/-- A list selects a path when the pattern that decides is not negated. -/
theorem selects_iff : selects ps path = true ↔
    ∃ p : Pattern, p.Decides ps path ∧ p.negated = false := by
  simp only [decides_iff, selects]
  cases ps.reverse.find? (·.applies path) with
  | none => simp
  | some p => simp

end EnvCensus.Pattern

namespace EnvCensus.Gitignore

variable {g h : Gitignore} {gs : List Gitignore} {names : List String} {folder : Bool}
  {p q : Pattern}

/-- The path lies below the folder of the list, and the pattern is the one of the list that decides
on it. -/
def Settles (g : Gitignore) (names : List String) (folder : Bool) (p : Pattern) : Prop :=
  ∃ tail, tail ≠ [] ∧ names = g.base ++ tail ∧ p.Decides g.patterns (pathText tail folder)

theorem ignores_iff_tail : g.ignores names folder = true ↔
    ∃ tail, tail ≠ [] ∧ names = g.base ++ tail ∧
      Pattern.selects g.patterns (pathText tail folder) = true := by
  simp only [ignores, Bool.and_eq_true, List.isPrefixOf_iff_prefix, bne_iff_ne]
  constructor
  · rintro ⟨⟨⟨tail, rfl⟩, below⟩, selected⟩
    rw [List.drop_left] at selected
    refine ⟨tail, ?_, rfl, selected⟩
    rintro rfl
    exact below (List.append_nil _).symm
  · rintro ⟨tail, below, rfl, selected⟩
    refine ⟨⟨List.prefix_append _ _, ?_⟩, by rwa [List.drop_left]⟩
    intro same
    exact below (List.self_eq_append_right.mp same)

/-- A path is ignored when one of the lists selects it. -/
theorem isIgnored_iff : isIgnored gs names folder = true ↔
    ∃ g ∈ gs, ∃ p, g.Settles names folder p ∧ p.negated = false := by
  simp only [isIgnored, List.any_eq_true, ignores_iff_tail, Pattern.selects_iff, Settles]
  constructor
  · rintro ⟨g, hg, tail, below, spelled, p, decides, plain⟩
    exact ⟨g, hg, p, ⟨tail, below, spelled, decides⟩, plain⟩
  · rintro ⟨g, hg, p, ⟨tail, below, spelled, decides⟩, plain⟩
    exact ⟨g, hg, tail, below, spelled, p, decides, plain⟩

/-- The pattern is the one that decides in the deepest list that has a pattern for the path. -/
def DecidesNearest (gs : List Gitignore) (names : List String) (folder : Bool) (p : Pattern) :
    Prop :=
  ∃ g ∈ gs, g.Settles names folder p ∧
    ∀ h ∈ gs, g.base.length < h.base.length → ∀ q, ¬ h.Settles names folder q

/-- As soon as a list has a pattern for the path, there is a deepest one. -/
theorem exists_decidesNearest (hg : g ∈ gs) (settles : g.Settles names folder p) :
    ∃ q, DecidesNearest gs names folder q := by
  classical
  let speaking := gs.filter fun h => decide (∃ q, h.Settles names folder q)
  have mem : ∀ h, h ∈ speaking ↔ h ∈ gs ∧ ∃ q, h.Settles names folder q := by
    simp [speaking]
  obtain ⟨deepest, hdeepest⟩ : ∃ h, h ∈ speaking.argmax fun h => h.base.length := by
    cases found : speaking.argmax fun h => h.base.length with
    | some h => exact ⟨h, rfl⟩
    | none =>
      rw [List.argmax_eq_none] at found
      have there := (mem g).mpr ⟨hg, p, settles⟩
      rw [found] at there
      cases there
  obtain ⟨here, q, hq⟩ := (mem deepest).mp (List.argmax_mem hdeepest)
  refine ⟨q, deepest, here, hq, fun h hh deeper r hr => ?_⟩
  have least := List.le_of_mem_argmax ((mem h).mpr ⟨hh, r, hr⟩) hdeepest
  omega

/-- Of lists in different folders only one is the deepest. -/
theorem DecidesNearest.unique (different : (gs.map (·.base)).Nodup)
    (hp : DecidesNearest gs names folder p) (hq : DecidesNearest gs names folder q) : p = q := by
  obtain ⟨g, hg, settles, noneDeeper⟩ := hp
  obtain ⟨h, hh, settles', noneDeeper'⟩ := hq
  have level : g.base.length = h.base.length := by
    have notBelow : ¬ g.base.length < h.base.length :=
      fun deeper => noneDeeper h hh deeper q settles'
    have notAbove : ¬ h.base.length < g.base.length :=
      fun deeper => noneDeeper' g hg deeper p settles
    omega
  obtain ⟨tail, -, spelled, decides⟩ := settles
  obtain ⟨tail', -, spelled', decides'⟩ := settles'
  obtain ⟨sameBase, sameTail⟩ := List.append_inj (spelled.symm.trans spelled') level
  have same : g = h := List.inj_on_of_nodup_map different hg hh sameBase
  rw [← same, ← sameTail] at decides'
  exact decides.unique decides'

/-- A path is ignored when one of the lists selects it. This is what the deepest list that has a
pattern for the path decides, unless that list takes back what another one ignores. -/
theorem isIgnored_nearest_iff (different : (gs.map (·.base)).Nodup) (names : List String)
    (folder : Bool) :
    (isIgnored gs names folder = true ↔
      ∃ g ∈ gs, ∃ p, g.Settles names folder p ∧ p.negated = false) ∧
    ((isIgnored gs names folder = true ↔
        ∃ p, DecidesNearest gs names folder p ∧ p.negated = false) ↔
      ¬ ((∃ p, DecidesNearest gs names folder p ∧ p.negated = true) ∧
        ∃ g ∈ gs, ∃ p, g.Settles names folder p ∧ p.negated = false)) := by
  refine ⟨isIgnored_iff, ?_⟩
  rw [isIgnored_iff]
  have nearer : (∃ p, DecidesNearest gs names folder p ∧ p.negated = false) →
      ∃ g ∈ gs, ∃ p, g.Settles names folder p ∧ p.negated = false := by
    rintro ⟨p, ⟨g, hg, settles, -⟩, plain⟩
    exact ⟨g, hg, p, settles, plain⟩
  constructor
  · rintro agree ⟨⟨p, nearest, negated⟩, selected⟩
    obtain ⟨q, nearest', plain⟩ := agree.mp selected
    rw [nearest.unique different nearest', plain] at negated
    cases negated
  · intro notTakenBack
    refine ⟨fun ⟨g, hg, p, settles, plain⟩ => ?_, nearer⟩
    obtain ⟨q, nearest⟩ := exists_decidesNearest hg settles
    cases negated : q.negated with
    | false => exact ⟨q, nearest, negated⟩
    | true => exact absurd ⟨⟨q, nearest, negated⟩, g, hg, p, settles, plain⟩ notTakenBack

/-! ### A file that is taken back -/

/-- The list of a root that ignores every file of a kind. -/
def envList : Gitignore where
  base := []
  patterns := [⟨false, .above :: .run :: ".env".toList.map .char, .segment⟩]

/-- The list of a folder below it that takes one of them back. -/
def keepList : Gitignore where
  base := ["pkg"]
  patterns := [⟨true, .above :: "keep.env".toList.map .char, .segment⟩]

theorem settles_iff_find? (tail : List String) : g.Settles (g.base ++ tail) folder p ↔
    tail ≠ [] ∧ g.patterns.reverse.find? (·.applies (pathText tail folder)) = some p := by
  constructor
  · rintro ⟨tail', below, same, decides⟩
    rw [List.append_cancel_left same]
    exact ⟨below, Pattern.decides_iff.mp decides⟩
  · rintro ⟨below, found⟩
    exact ⟨tail, below, rfl, Pattern.decides_iff.mpr found⟩

/-- Of a file that it does not take back, the deeper list has nothing to say, and the root ignores
it. -/
theorem isIgnored_nearest_devEnv : ([keepList, envList].map (·.base)).Nodup ∧
    isIgnored [keepList, envList] ["pkg", "dev.env"] false = true ∧
    ∃ p, DecidesNearest [keepList, envList] ["pkg", "dev.env"] false p ∧ p.negated = false := by
  have different : ([keepList, envList].map (·.base)).Nodup := by decide
  have ignored : isIgnored [keepList, envList] ["pkg", "dev.env"] false = true := by
    decide +kernel
  refine ⟨different, ignored, ?_⟩
  refine ((isIgnored_nearest_iff different ["pkg", "dev.env"] false).2.mpr ?_).mp ignored
  rintro ⟨⟨p, ⟨g, hg, settles, -⟩, negated⟩, -⟩
  simp only [List.mem_cons, List.not_mem_nil, or_false] at hg
  rcases hg with rfl | rfl
  · have found := ((settles_iff_find? (g := keepList) ["dev.env"]).mp settles).2
    have nothing : keepList.patterns.reverse.find? (·.applies (pathText ["dev.env"] false)) =
        none := by decide +kernel
    cases nothing.symm.trans found
  · have found := ((settles_iff_find? (g := envList) ["pkg", "dev.env"]).mp settles).2
    rw [List.mem_singleton.mp (List.mem_reverse.mp (List.mem_of_find?_eq_some found))] at negated
    cases negated

/-- The deeper list takes a file back, and it is ignored all the same, though its folder is not. -/
theorem keepEnv_still_ignored :
    patternsOf (Text.encode "*.env\n".toList) = .ok envList.patterns ∧
      patternsOf (Text.encode "!keep.env\n".toList) = .ok keepList.patterns ∧
      isIgnored [keepList, envList] ["pkg"] true = false ∧
      isIgnored [keepList, envList] ["pkg", "keep.env"] false = true ∧
      ¬ (isIgnored [keepList, envList] ["pkg", "keep.env"] false = true ↔
        ∃ p, DecidesNearest [keepList, envList] ["pkg", "keep.env"] false p ∧
          p.negated = false) := by
  have different : ([keepList, envList].map (·.base)).Nodup := by decide
  have ignored : isIgnored [keepList, envList] ["pkg", "keep.env"] false = true := by
    decide +kernel
  have found : keepList.patterns.reverse.find? (·.applies (pathText ["keep.env"] false)) =
      keepList.patterns.head? := by decide +kernel
  have nearest : ∃ p, DecidesNearest [keepList, envList] ["pkg", "keep.env"] false p ∧
      p.negated = true := by
    refine ⟨_, ⟨keepList, by simp, (settles_iff_find? ["keep.env"]).mpr ⟨by simp, found⟩, ?_⟩, rfl⟩
    intro h hh deeper
    simp only [List.mem_cons, List.not_mem_nil, or_false] at hh
    rcases hh with rfl | rfl <;> simp [keepList, envList] at deeper
  refine ⟨by decide +kernel, by decide +kernel, by decide +kernel, ignored, fun agree => ?_⟩
  obtain ⟨p, decides, negated⟩ := nearest
  obtain ⟨q, decides', plain⟩ := agree.mp ignored
  rw [decides.unique different decides', plain] at negated
  cases negated

end EnvCensus.Gitignore
