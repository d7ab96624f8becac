import EnvCensus.Finding.Merge
import EnvCensus.Proofs.Name
import Mathlib.Data.Char
import Mathlib.Data.List.Lex
import Mathlib.Data.List.Sort
import Mathlib.Data.Prod.Lex

/-!
# The order of names

Texts are compared in the order of dictionaries over code points and keys as
pairs of texts, so both orders are linear. A key keeps the name it was made
from as long as the name is ASCII, which every valid name is; a list whose
names are valid and distinct is therefore sorted strictly and in one way only.
Sorted texts are known by their members as well.
-/

namespace EnvCensus.Collation

theorem textLe_iff {as bs : List Char} : textLe as bs = true ↔ as ≤ bs := by
  rw [← not_lt]
  induction as generalizing bs with
  | nil => simp [textLe]
  | cons a as ih =>
    cases bs with
    | nil => simp [textLe]
    | cons b bs =>
      rw [List.cons_lt_cons_iff]
      by_cases h : a = b
      · subst h
        simp [textLe, ih]
      · have hba : ¬ b = a := fun e => h e.symm
        simp [textLe, h, hba, lt_iff_le_and_ne]

/-- A key as a pair in the order of dictionaries. -/
def Key.pair (k : Key) : List Char ×ₗ List Char := toLex (k.folded, k.swapped)

theorem Key.pair_injective : Function.Injective Key.pair := by
  intro k l h
  cases k
  cases l
  simpa [Key.pair] using h

theorem Key.le_iff {k l : Key} : k.le l = true ↔ k.pair ≤ l.pair := by
  unfold Key.le Key.pair
  rw [Prod.Lex.toLex_le_toLex]
  by_cases h : k.folded = l.folded
  · simp [h, textLe_iff]
  · simp [h, textLe_iff, lt_iff_le_and_ne]

/-- The name `m` comes before the name `n`. -/
def Before (m n : String) : Prop := (key m).pair < (key n).pair

theorem Before.irrefl (n : String) : ¬ Before n n := lt_irrefl _

theorem Before.trans {l m n : String} (hlm : Before l m) (hmn : Before m n) : Before l n :=
  lt_trans hlm hmn

theorem Before.asymm {m n : String} (h : Before m n) : ¬ Before n m := lt_asymm h

/-! ## Keys of ASCII names -/

/-- The opposite case of an ASCII letter; any other character stays. -/
def opposite (c : Char) : Char := if c.isUpper then c.toLower else c.toUpper

theorem opposite_opposite {c : Char} (hc : c.toNat < 128) : opposite (opposite c) = c := by
  have all : ∀ n, n < 128 → opposite (opposite (Char.ofNat n)) = Char.ofNat n := by decide
  simpa using all c.toNat hc

theorem swapAfter_ascii {cs : List Char} (hcs : ∀ c ∈ cs, c.toNat < 128) (before : List Char) :
    Text.swapAfter before cs = cs.map opposite := by
  induction cs generalizing before with
  | nil => rfl
  | cons c cs ih =>
    have hc : c.toNat < 128 := hcs c List.mem_cons_self
    have step : Text.swapChar before c cs = [opposite c] := by simp [Text.swapChar, hc, opposite]
    rw [Text.swapAfter, step, ih (fun x hx => hcs x (List.mem_cons_of_mem c hx))]
    rfl

theorem map_opposite_map_opposite {cs : List Char} (hcs : ∀ c ∈ cs, c.toNat < 128) :
    (cs.map opposite).map opposite = cs := by
  rw [List.map_map]
  conv_rhs => rw [← List.map_id cs]
  exact List.map_congr_left fun c hc => opposite_opposite (hcs c hc)

/-- Distinct ASCII names have distinct keys. -/
theorem key_injOn_ascii {m n : String} (hm : ∀ c ∈ m.toList, c.toNat < 128)
    (hn : ∀ c ∈ n.toList, c.toNat < 128) (h : key m = key n) : m = n := by
  have swapped : m.toList.map opposite = n.toList.map opposite := by
    have hs : Text.swap m.toList = Text.swap n.toList := congrArg Key.swapped h
    rwa [Text.swap, Text.swap, swapAfter_ascii hm, swapAfter_ascii hn] at hs
  have lists := congrArg (List.map opposite) swapped
  rw [map_opposite_map_opposite hm, map_opposite_map_opposite hn] at lists
  exact String.toList_inj.mp lists

/-- Distinct valid names have distinct keys. -/
theorem key_injOn_valid {m n : String} (hm : Name.isValid m = true) (hn : Name.isValid n = true)
    (h : key m = key n) : m = n :=
  key_injOn_ascii (Name.ascii_of_isValid hm) (Name.ascii_of_isValid hn) h

/-! ## Sorting -/

theorem sortBy_perm {α : Type} (name : α → String) (xs : List α) :
    (sortBy name xs).Perm xs := by
  have h := (List.mergeSort_perm (xs.map fun x => (key (name x), x))
    fun p q => p.1.le q.1).map (·.2)
  simpa [sortBy, Function.comp_def] using h

theorem mem_sortBy {α : Type} {name : α → String} {xs : List α} {x : α} :
    x ∈ sortBy name xs ↔ x ∈ xs :=
  (sortBy_perm name xs).mem_iff

/-- A sorted list has no element before a lesser one. -/
theorem sortBy_pairwise {α : Type} (name : α → String) (xs : List α) :
    (sortBy name xs).Pairwise fun x y => (key (name x)).pair ≤ (key (name y)).pair := by
  let keyed := xs.map fun x => (key (name x), x)
  have sorted : (keyed.mergeSort fun p q => p.1.le q.1).Pairwise fun p q => p.1.le q.1 = true := by
    apply List.pairwise_mergeSort
    · intro p q r hpq hqr
      exact Key.le_iff.mpr (le_trans (Key.le_iff.mp hpq) (Key.le_iff.mp hqr))
    · intro p q
      rcases le_total p.1.pair q.1.pair with h | h
      · simp [Key.le_iff.mpr h]
      · simp [Key.le_iff.mpr h]
  have own : ∀ p ∈ keyed.mergeSort fun p q => p.1.le q.1, p.1 = key (name p.2) := by
    intro p hp
    obtain ⟨x, _, rfl⟩ := List.mem_map.mp (List.mem_mergeSort.mp hp)
    rfl
  rw [sortBy, List.pairwise_map]
  refine sorted.imp_of_mem ?_
  intro p q hp hq h
  rw [← own p hp, ← own q hq]
  exact Key.le_iff.mp h

/-- Names without repetition and with keys of their own are sorted strictly. -/
theorem sortBy_before {α : Type} {name : α → String} {xs : List α}
    (nodup : (xs.map name).Nodup)
    (keys : ∀ x ∈ xs, ∀ y ∈ xs, key (name x) = key (name y) → name x = name y) :
    (sortBy name xs).Pairwise fun x y => Before (name x) (name y) := by
  have distinct : (sortBy name xs).Pairwise fun x y => name x ≠ name y := by
    have h : ((sortBy name xs).map name).Nodup := ((sortBy_perm name xs).map name).nodup_iff.mpr nodup
    exact List.pairwise_map.mp h
  refine ((sortBy_pairwise name xs).and distinct).imp_of_mem ?_
  rintro x y hx hy ⟨hle, hne⟩
  refine lt_of_le_of_ne hle fun e => hne ?_
  exact keys x (mem_sortBy.mp hx) y (mem_sortBy.mp hy) (Key.pair_injective e)

/-- Strictly sorted lists with the same members are one list. -/
theorem eq_of_before {α : Type} {name : α → String} {xs ys : List α}
    (hx : xs.Pairwise fun x y => Before (name x) (name y))
    (hy : ys.Pairwise fun x y => Before (name x) (name y))
    (same : ∀ z, z ∈ xs ↔ z ∈ ys) : xs = ys := by
  have nodup : ∀ {zs : List α}, (zs.Pairwise fun x y => Before (name x) (name y)) → zs.Nodup := by
    intro zs h
    refine List.Pairwise.imp ?_ h
    rintro x y hb rfl
    exact Before.irrefl _ hb
  have perm : xs.Perm ys := (List.perm_ext_iff_of_nodup (nodup hx) (nodup hy)).mpr same
  exact perm.eq_of_pairwise (fun _ _ _ _ hab hba => absurd hba (Before.asymm hab)) hx hy

/-! ### Sorted texts -/

/-- Texts in the order of their code points. -/
def inOrder (texts : List String) : List String :=
  texts.mergeSort fun a b => textLe a.toList b.toList

theorem inOrder_perm (texts : List String) : (inOrder texts).Perm texts :=
  List.mergeSort_perm _ _

theorem inOrder_pairwise (texts : List String) :
    (inOrder texts).Pairwise fun a b => a.toList ≤ b.toList := by
  have sorted : (inOrder texts).Pairwise fun a b => textLe a.toList b.toList = true := by
    apply List.pairwise_mergeSort
    · intro a b c hab hbc
      exact textLe_iff.mpr ((textLe_iff.mp hab).trans (textLe_iff.mp hbc))
    · intro a b
      simpa only [Bool.or_eq_true, textLe_iff] using le_total a.toList b.toList
  exact sorted.imp fun h => textLe_iff.mp h

/-- A sorted list is known by its members. -/
theorem inOrder_unique {texts sorted : List String} (perm : sorted.Perm texts)
    (h : sorted.Pairwise fun a b => a.toList ≤ b.toList) : inOrder texts = sorted :=
  ((inOrder_perm texts).trans perm.symm).eq_of_pairwise
    (fun _ _ _ _ hab hba => String.toList_inj.mp (le_antisymm hab hba)) (inOrder_pairwise texts) h

/-- Texts in order, none of them twice, ascend. -/
theorem ascending_of_inOrder {texts : List String} (once : texts.Nodup)
    (ordered : inOrder texts = texts) : texts.Pairwise fun a b => a.toList < b.toList := by
  have sorted := inOrder_pairwise texts
  rw [ordered] at sorted
  refine (sorted.and once).imp ?_
  rintro a b ⟨le, ne⟩
  exact lt_of_le_of_ne le fun same => ne (String.toList_inj.mp same)

/-- Ascending texts are known by their members. -/
theorem eq_of_ascending {xs ys : List String} (hx : xs.Pairwise fun a b => a.toList < b.toList)
    (hy : ys.Pairwise fun a b => a.toList < b.toList) (same : ∀ z, z ∈ xs ↔ z ∈ ys) : xs = ys := by
  have once : ∀ {zs : List String}, (zs.Pairwise fun a b => a.toList < b.toList) → zs.Nodup := by
    intro zs h
    refine h.imp ?_
    rintro a b lt rfl
    exact lt_irrefl _ lt
  have perm : xs.Perm ys := (List.perm_ext_iff_of_nodup (once hx) (once hy)).mpr same
  exact perm.eq_of_pairwise (fun _ _ _ _ hab hba => absurd hba (lt_asymm hab)) hx hy

/-- One more text comes between those before it and those after it. -/
theorem inOrder_insert (texts : List String) (x : String) :
    ∃ as bs, inOrder texts = as ++ bs ∧
      ∀ {more : List String}, more.Perm (x :: texts) → inOrder more = as ++ x :: bs := by
  let r : String → String → Prop := fun a b => a.toList ≤ b.toList
  let before : String → Bool := fun b => decide (¬ r x b)
  have split := List.orderedInsert_eq_take_drop r x (inOrder texts)
  refine ⟨(inOrder texts).takeWhile before, (inOrder texts).dropWhile before,
    List.takeWhile_append_dropWhile.symm, fun {more} perm => ?_⟩
  rw [← split]
  refine inOrder_unique ?_ ?_
  · exact ((List.perm_orderedInsert r x _).trans ((inOrder_perm texts).cons x)).trans perm.symm
  · have : Std.Total r := ⟨fun a b => le_total a.toList b.toList⟩
    have : IsTrans String r := ⟨fun _ _ _ => le_trans⟩
    exact List.Pairwise.orderedInsert x _ (inOrder_pairwise texts)

end EnvCensus.Collation
