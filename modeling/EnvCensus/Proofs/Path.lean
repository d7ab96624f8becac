import EnvCensus.Disk.Route
import Mathlib.Data.List.Basic

/-!
# Texts of paths

A name is proper when a path leads along it and nothing else. The text of a
place of proper names is read as that place, and a further name after a slash
leads one step on.
-/

namespace EnvCensus.Path

/-- A name that a path leads along as it stands. -/
structure Proper (name : String) : Prop where
  nonempty : name ≠ ""
  not_dot : name ≠ "."
  not_climbing : name ≠ ".."
  no_slash : '/' ∉ name.toList

instance (name : String) : Decidable (Proper name) :=
  decidable_of_iff (name ≠ "" ∧ name ≠ "." ∧ name ≠ ".." ∧ '/' ∉ name.toList)
    ⟨fun h => ⟨h.1, h.2.1, h.2.2.1, h.2.2.2⟩,
      fun h => ⟨h.nonempty, h.not_dot, h.not_climbing, h.no_slash⟩⟩

/-- A segment of some path; it is a proper name or it climbs. -/
structure Segment (name : String) : Prop where
  nonempty : name ≠ ""
  not_dot : name ≠ "."
  no_slash : '/' ∉ name.toList

theorem Proper.segment {name : String} (h : Proper name) : Segment name :=
  ⟨h.nonempty, h.not_dot, h.no_slash⟩

theorem Segment.toList_ne_nil {name : String} (h : Segment name) : name.toList ≠ [] :=
  fun e => h.nonempty (String.toList_eq_nil_iff.mp e)

/-! ### Pieces between slashes -/

theorem slashPieces_ne_nil (cs : List Char) : slashPieces cs ≠ [] := by
  fun_cases slashPieces cs <;> simp

theorem slashPieces_append (a b : List Char) :
    slashPieces (a ++ '/' :: b) = slashPieces a ++ slashPieces b := by
  induction a with
  | nil => rfl
  | cons c a ih =>
    by_cases h : c = '/'
    · subst h
      simp only [List.cons_append, slashPieces, ih]
    · rw [List.cons_append, slashPieces.eq_3 _ _ h, slashPieces.eq_3 _ _ h, ih]
      cases hp : slashPieces a with
      | nil => exact absurd hp (slashPieces_ne_nil a)
      | cons piece more => rfl

theorem slashPieces_of_no_slash {cs : List Char} (h : '/' ∉ cs) : slashPieces cs = [cs] := by
  induction cs with
  | nil => rfl
  | cons c cs ih =>
    rw [List.mem_cons, not_or] at h
    rw [slashPieces.eq_3 _ _ (fun e => h.1 e.symm), ih h.2]

/-- The segments that a list of pieces stands for. -/
def segmentsOf (pieces : List (List Char)) : List String :=
  (pieces.filter fun p => p ≠ [] && p ≠ ['.']).map String.ofList

theorem parse_segments (s : String) : (parse s).segments = segmentsOf (slashPieces s.toList) := rfl

/-- A path after a slash adds its segments to those before it. -/
theorem segments_append (s t : String) :
    (parse (s ++ "/" ++ t)).segments = (parse s).segments ++ (parse t).segments := by
  have pieces : slashPieces (s ++ "/" ++ t).toList = slashPieces s.toList ++ slashPieces t.toList := by
    simpa using slashPieces_append s.toList t.toList
  simp only [parse_segments, pieces, segmentsOf, List.filter_append, List.map_append]

theorem Segment.segments {name : String} (h : Segment name) : (parse name).segments = [name] := by
  have notDot : name.toList ≠ ['.'] := fun e => h.not_dot (String.toList_inj.mp e)
  rw [parse_segments, slashPieces_of_no_slash h.no_slash, segmentsOf]
  simp [h.nonempty, notDot]

theorem segments_intercalate {names : List String} (h : ∀ n ∈ names, Segment n) :
    (parse ("/".intercalate names)).segments = names := by
  induction names with
  | nil => rfl
  | cons n names ih =>
    have hn := (h n List.mem_cons_self).segments
    cases names with
    | nil => rw [String.intercalate_singleton, hn]
    | cons m names =>
      rw [String.intercalate_cons_cons, segments_append, hn,
        ih fun x hx => h x (List.mem_cons_of_mem _ hx)]
      rfl

/-! ### Roots -/

theorem root_of_head_ne {cs : List Char} (h : cs.head? ≠ some '/') : rootOf cs = .relative := by
  unfold rootOf
  split <;> simp_all

theorem root_slash {cs : List Char} (h : cs.head? ≠ some '/') : rootOf ('/' :: cs) = .slash := by
  unfold rootOf
  split <;> simp_all

theorem root_doubleSlash {cs : List Char} (h : cs.head? ≠ some '/') :
    rootOf ('/' :: '/' :: cs) = .doubleSlash := by
  cases cs with
  | nil => rfl
  | cons c cs =>
    have notSlash : c ≠ '/' := by simpa using h
    simp [rootOf, notSlash]

theorem isAbsolute_slash (s : String) : (parse ("/" ++ s)).isAbsolute = true := by
  have root : rootOf ('/' :: s.toList) ≠ .relative := by
    unfold rootOf
    split <;> simp_all
  simpa [isAbsolute, parse] using root

theorem Segment.head_ne {name : String} (h : Segment name) : name.toList.head? ≠ some '/' := by
  intro e
  exact h.no_slash (List.mem_of_mem_head? e)

theorem parse_proper {name : String} (h : Proper name) : parse name = ⟨.relative, [name]⟩ := by
  have segments := h.segment.segments
  have root : (parse name).root = .relative := root_of_head_ne h.segment.head_ne
  cases hp : parse name with
  | mk r ss =>
    rw [hp] at segments root
    rw [← segments, ← root]

/-! ### Texts of places -/

open Disk (Place pathOf namesFrom)

theorem pathOf_eq (place : Place) : pathOf place = "/" ++ "/".intercalate place := rfl

theorem intercalate_head_ne {names : List String} (h : ∀ n ∈ names, Segment n) :
    ("/".intercalate names).toList.head? ≠ some '/' := by
  cases names with
  | nil => simp
  | cons n names =>
    have hn := h n List.mem_cons_self
    cases names with
    | nil => simpa using hn.head_ne
    | cons m names =>
      rw [String.intercalate_cons_cons, String.append_assoc, String.toList_append,
        List.head?_append_of_ne_nil _ hn.toList_ne_nil]
      exact hn.head_ne

/-- The text of a path is read as the path. -/
theorem parse_render {p : Path} (h : ∀ n ∈ p.segments, Segment n) : parse p.render = p := by
  obtain ⟨root, names⟩ := p
  have head := intercalate_head_ne h
  have read (front : String) (empty : (parse front).segments = []) :
      (parse (front ++ "/" ++ "/".intercalate names)).segments = names := by
    rw [segments_append, empty, segments_intercalate h, List.nil_append]
  -- no name begins with a slash, so the slashes at the front are those of the root
  have whole : (parse (Path.mk root names).render).root = root ∧
      (parse (Path.mk root names).render).segments = names := by
    cases root with
    | relative =>
      cases names with
      | nil => exact ⟨rfl, rfl⟩
      | cons n names =>
        have text : (Path.mk .relative (n :: names)).render = "/".intercalate (n :: names) := by
          simp [render, Root.text]
        rw [text, segments_intercalate h]
        exact ⟨root_of_head_ne head, rfl⟩
    | slash =>
      have text : (Path.mk .slash names).render = "" ++ "/" ++ "/".intercalate names := by
        simp [render, Root.text]
      have root := root_slash head
      exact ⟨by simpa [text, parse] using root, text ▸ read "" rfl⟩
    | doubleSlash =>
      have text : (Path.mk .doubleSlash names).render =
          "/" ++ "/" ++ "/".intercalate names := by
        simp [render, Root.text]
      have root := root_doubleSlash head
      exact ⟨by simpa [text, parse] using root, text ▸ read "/" rfl⟩
  cases parsed : parse (Path.mk root names).render with
  | mk r ss =>
    rw [parsed] at whole
    rw [← whole.1, ← whole.2]

/-- The text of a place is read as the place. -/
theorem parse_pathOf {place : Place} (h : ∀ n ∈ place, Proper n) :
    parse (pathOf place) = ⟨.slash, place⟩ :=
  parse_render fun n hn => (h n hn).segment

theorem pathOf_injective {p q : Place} (hp : ∀ n ∈ p, Proper n) (hq : ∀ n ∈ q, Proper n)
    (h : pathOf p = pathOf q) : p = q := by
  have same := congrArg parse h
  rw [parse_pathOf hp, parse_pathOf hq, Path.mk.injEq] at same
  exact same.2

theorem namesFrom_pathOf {place : Place} (h : ∀ n ∈ place, Proper n) (here : Place) :
    namesFrom here (pathOf place) = place := by
  rw [namesFrom, parse_pathOf h]
  rfl

theorem namesFrom_below {place : Place} (h : ∀ n ∈ place, Proper n) {name : String}
    (hn : Proper name) (here : Place) :
    namesFrom here (pathOf place ++ "/" ++ name) = place ++ [name] := by
  have segments : (parse (pathOf place ++ "/" ++ name)).segments = place ++ [name] := by
    rw [segments_append, parse_pathOf h, hn.segment.segments]
  have absolute : (parse (pathOf place ++ "/" ++ name)).isAbsolute = true := by
    rw [pathOf_eq, String.append_assoc, String.append_assoc]
    exact isAbsolute_slash _
  rw [namesFrom, if_pos absolute, segments]

theorem join_name {place : Place} (h : ∀ n ∈ place, Proper n) {name : String} (hn : Proper name) :
    ((parse (pathOf place)).join (parse name)).render = pathOf (place ++ [name]) := by
  rw [parse_pathOf h, parse_proper hn]
  rfl

/-! ### Absolute paths -/

theorem climb_of_not_climbing (absolute : Bool) {names : List String} (h : ∀ n ∈ names, n ≠ "..")
    (done : List String) : climb absolute done names = done.reverse ++ names := by
  induction names generalizing done with
  | nil => simp [climb]
  | cons n names ih =>
    have hn : (n == "..") = false := by simpa using h n List.mem_cons_self
    have rest := ih (fun x hx => h x (List.mem_cons_of_mem _ hx)) (n :: done)
    cases done <;> simpa [climb, hn] using rest

/-- The text of a place is absolute and normal already. -/
theorem absolute_pathOf {place : Place} (h : ∀ n ∈ place, Proper n) (here : String) :
    absolute here (pathOf place) = pathOf place := by
  have climbed := climb_of_not_climbing true (fun n hn => (h n hn).not_climbing) []
  simp only [List.reverse_nil, List.nil_append] at climbed
  rw [absolute, parse_pathOf h]
  show (Path.mk .slash (climb true [] place)).render = _
  rw [climbed]
  rfl

theorem slashPieces_no_slash (cs : List Char) : ∀ piece ∈ slashPieces cs, '/' ∉ piece := by
  fun_induction slashPieces cs with
  | case1 => simp
  | case2 rest ih => simpa using ih
  | case3 c rest notSlash none ih => exact absurd none (slashPieces_ne_nil rest)
  | case4 c rest notSlash piece more split ih =>
    rw [split, List.forall_mem_cons] at ih
    refine List.forall_mem_cons.mpr ⟨?_, ih.2⟩
    rw [List.mem_cons, not_or]
    exact ⟨fun e => notSlash e.symm, ih.1⟩

/-- Pieces have no characters that the text does not have. -/
theorem slashPieces_subset (cs : List Char) : ∀ piece ∈ slashPieces cs, piece ⊆ cs := by
  fun_induction slashPieces cs with
  | case1 => simp
  | case2 rest ih =>
    exact List.forall_mem_cons.mpr
      ⟨List.nil_subset _, fun piece mem =>
        List.Subset.trans (ih piece mem) (List.subset_cons_self _ _)⟩
  | case3 c rest notSlash none ih => exact absurd none (slashPieces_ne_nil rest)
  | case4 c rest notSlash piece more pieces ih =>
    rw [pieces] at ih
    obtain ⟨first, others⟩ := List.forall_mem_cons.mp ih
    exact List.forall_mem_cons.mpr
      ⟨List.cons_subset_cons c first, fun p mem =>
        List.Subset.trans (others p mem) (List.subset_cons_self _ _)⟩

theorem mem_of_mem_segments {s n : String} (h : n ∈ (parse s).segments) {c : Char}
    (hc : c ∈ n.toList) : c ∈ s.toList := by
  obtain ⟨piece, mem, rfl⟩ := List.mem_map.mp h
  rw [String.toList_ofList] at hc
  exact slashPieces_subset _ piece (List.mem_filter.mp mem).1 hc

theorem segment_of_mem_segments {s n : String} (h : n ∈ (parse s).segments) : Segment n := by
  rw [parse_segments, segmentsOf] at h
  obtain ⟨piece, hpiece, rfl⟩ := List.mem_map.mp h
  obtain ⟨mem, special⟩ := List.mem_filter.mp hpiece
  simp only [ne_eq, Bool.and_eq_true, decide_eq_true_eq] at special
  refine ⟨?_, ?_, ?_⟩
  · simpa using special.1
  · intro e
    exact special.2 (by simpa using congrArg String.toList e)
  · simpa using slashPieces_no_slash _ piece mem

/-- A segment of a path is proper unless it climbs. -/
theorem proper_of_mem_segments {s n : String} (h : n ∈ (parse s).segments) (stays : n ≠ "..") :
    Proper n := by
  have segment := segment_of_mem_segments h
  exact ⟨segment.nonempty, segment.not_dot, stays, segment.no_slash⟩

/-- Without climbing segments at an absolute root a path is proper throughout. -/
theorem climb_proper {done names : List String} (hdone : ∀ n ∈ done, Proper n)
    (hnames : ∀ n ∈ names, n ≠ ".." → Proper n) : ∀ n ∈ climb true done names, Proper n := by
  induction names generalizing done with
  | nil => simpa [climb] using hdone
  | cons s rest ih =>
    have others : ∀ n ∈ rest, n ≠ ".." → Proper n :=
      fun n hn => hnames n (List.mem_cons_of_mem _ hn)
    by_cases climbs : s = ".."
    · cases done with
      | nil => simpa [climb, climbs] using ih hdone others
      | cons d more =>
        rw [List.forall_mem_cons] at hdone
        simpa [climb, climbs, hdone.1.not_climbing] using ih hdone.2 others
    · have longer : ∀ n ∈ s :: done, Proper n :=
        List.forall_mem_cons.mpr ⟨hnames s List.mem_cons_self climbs, hdone⟩
      cases done <;> simpa [climb, climbs] using ih longer others

/-- The text of a name in a directory leads one step on from the directory. -/
theorem namesFrom_join {name : String} (hn : Proper name) (here : Place) (directory : String) :
    namesFrom here ((parse directory).join (parse name)).render =
      namesFrom here directory ++ [name] := by
  have joined : (parse directory).join (parse name) =
      ⟨(parse directory).root, (parse directory).segments ++ [name]⟩ := by
    rw [parse_proper hn]
    rfl
  have segments : ∀ n ∈ (parse directory).segments ++ [name], Segment n := by
    intro n mem
    rcases List.mem_append.mp mem with mem | mem
    · exact segment_of_mem_segments mem
    · exact List.mem_singleton.mp mem ▸ hn.segment
  have same : (Path.mk (parse directory).root ((parse directory).segments ++ [name])).isAbsolute =
      (parse directory).isAbsolute := rfl
  rw [joined, namesFrom, parse_render segments, namesFrom]
  by_cases absolute : (parse directory).isAbsolute = true
  · rw [if_pos absolute, if_pos (same.trans absolute)]
  · rw [if_neg absolute, if_neg (same ▸ absolute), List.append_assoc]

/-- From an absolute directory every path leads to one that is absolute and proper throughout. -/
theorem normal_join {here : String} (rooted : (parse here).isAbsolute = true) (s : String) :
    ((parse here).join (parse s)).normal.isAbsolute = true ∧
      ∀ n ∈ ((parse here).join (parse s)).normal.segments, Proper n := by
  have joined : ((parse here).join (parse s)).isAbsolute = true ∧
      ∀ n ∈ ((parse here).join (parse s)).segments, n ≠ ".." → Proper n := by
    unfold join
    split
    · rename_i absolute
      exact ⟨absolute, fun n hn => proper_of_mem_segments hn⟩
    · refine ⟨rooted, fun n hn => ?_⟩
      rcases List.mem_append.mp hn with hn | hn
      · exact proper_of_mem_segments hn
      · exact proper_of_mem_segments hn
  refine ⟨joined.1, ?_⟩
  rw [normal, joined.1]
  exact climb_proper (by simp) joined.2

/-- An absolute path is the same wherever it is read from. -/
theorem absolute_absolute {here : String} (rooted : (parse here).isAbsolute = true)
    (other s : String) : absolute other (absolute here s) = absolute here s := by
  obtain ⟨absolute, proper⟩ := normal_join rooted s
  have climbed := climb_of_not_climbing true (fun n hn => (proper n hn).not_climbing) []
  simp only [List.reverse_nil, List.nil_append] at climbed
  have settled : ((parse here).join (parse s)).normal.normal =
      ((parse here).join (parse s)).normal := by
    rw [normal, absolute, climbed]
  unfold Path.absolute
  rw [parse_render fun n hn => (proper n hn).segment, join, if_pos absolute, settled]

end EnvCensus.Path
