import EnvCensus.Proofs.Distinct
import EnvCensus.Proofs.Finding
import EnvCensus.Proofs.Path
import Mathlib.Data.List.Nodup

/-!
# References and the spelling of their paths

A path text leads piece by piece to a place: an empty piece and a single dot stay
where they are, two dots climb and a name descends. The absolute form of a text is
the place that it leads to, so two references are told apart by where their texts
lead, by line and by column, and not by how the texts are spelled. Reducing a list
of references keeps the first one for each of these.
-/

namespace EnvCensus

namespace Path

open Disk (Place)

/-- Where one piece of a path text leads from a place; above the top there is nothing. -/
def follow (place : Place) (piece : List Char) : Place :=
  if piece = [] ∨ piece = ['.'] then place
  else if piece = ['.', '.'] then place.dropLast
  else place ++ [String.ofList piece]

/-- The root and the place that a path text leads to when it is read from the directory `here`. -/
def goal (here s : String) : Root × Place :=
  if rootOf s.toList = .relative then
    (rootOf here.toList, (slashPieces here.toList ++ slashPieces s.toList).foldl follow [])
  else (rootOf s.toList, (slashPieces s.toList).foldl follow [])

/-- Following the segments of a path is following all its pieces. -/
theorem foldl_follow_segmentsOf (pieces : List (List Char)) (place : Place) :
    ((segmentsOf pieces).map String.toList).foldl follow place = pieces.foldl follow place := by
  induction pieces generalizing place with
  | nil => rfl
  | cons piece pieces ih =>
    by_cases idle : piece = [] ∨ piece = ['.']
    · have skipped : segmentsOf (piece :: pieces) = segmentsOf pieces := by
        rcases idle with rfl | rfl <;> rfl
      rw [skipped, ih, List.foldl_cons, follow, if_pos idle]
    · have kept : segmentsOf (piece :: pieces) = String.ofList piece :: segmentsOf pieces := by
        simp [segmentsOf, not_or.mp idle]
      rw [kept, List.map_cons, String.toList_ofList, List.foldl_cons, ih, List.foldl_cons]

theorem follow_segment {name : String} (h : Segment name) (place : Place) :
    follow place name.toList = if name = ".." then place.dropLast else place ++ [name] := by
  have moves : ¬ (name.toList = [] ∨ name.toList = ['.']) := by
    rintro (none | dot)
    · exact h.toList_ne_nil none
    · exact h.not_dot (String.toList_inj.mp dot)
  have climbs : name.toList = ['.', '.'] ↔ name = ".." := by
    rw [← String.toList_inj]
    rfl
  rw [follow, if_neg moves, String.ofList_toList]
  simp only [climbs]

/-- Undoing the climbing segments at an absolute root is following the segments in order; the
segments that are done stand in reverse and do not climb. -/
theorem climb_eq_foldl {done names : List String} (settled : ∀ n ∈ done, n ≠ "..")
    (segments : ∀ n ∈ names, Segment n) :
    climb true done names = (names.map String.toList).foldl follow done.reverse := by
  -- one walk holds what is done latest first, the other as it is written
  induction names generalizing done with
  | nil => simp [climb]
  | cons n names ih =>
    obtain ⟨first, others⟩ := List.forall_mem_cons.mp segments
    rw [List.map_cons, List.foldl_cons, follow_segment first]
    by_cases climbs : n = ".."
    · rw [if_pos climbs]
      cases done with
      | nil => simpa [climb, climbs] using ih settled others
      | cons d more =>
        obtain ⟨low, settled⟩ := List.forall_mem_cons.mp settled
        simpa [climb, climbs, low] using ih settled others
    · have longer : ∀ m ∈ n :: done, m ≠ ".." := List.forall_mem_cons.mpr ⟨climbs, settled⟩
      rw [if_neg climbs, ← List.reverse_cons, ← ih longer others]
      cases done <;> simp [climb, climbs]

/-- From an absolute directory, the absolute form of a text is where the text leads. -/
theorem normal_join_eq_goal {here : String} (rooted : (parse here).isAbsolute = true) (s : String) :
    ((parse here).join (parse s)).normal = ⟨(goal here s).1, (goal here s).2⟩ := by
  have place : ∀ pieces, (∀ n ∈ segmentsOf pieces, Segment n) →
      climb true [] (segmentsOf pieces) = pieces.foldl follow [] := fun pieces segments => by
    rw [climb_eq_foldl (by simp) segments, List.reverse_nil, foldl_follow_segmentsOf]
  have segments : ∀ t : String, ∀ n ∈ segmentsOf (slashPieces t.toList), Segment n :=
    fun t n => segment_of_mem_segments (s := t)
  by_cases relative : rootOf s.toList = .relative
  · have below : (parse here).join (parse s) =
        ⟨rootOf here.toList, segmentsOf (slashPieces here.toList ++ slashPieces s.toList)⟩ := by
      have unrooted : (parse s).isAbsolute = false := by simp [isAbsolute, parse, relative]
      rw [join, unrooted, segmentsOf, List.filter_append, List.map_append]
      rfl
    have both : ∀ n ∈ segmentsOf (slashPieces here.toList ++ slashPieces s.toList), Segment n := by
      intro n mem
      rw [segmentsOf, List.filter_append, List.map_append] at mem
      rcases List.mem_append.mp mem with mem | mem
      · exact segments here n mem
      · exact segments s n mem
    have absolute : (Path.mk (rootOf here.toList)
        (segmentsOf (slashPieces here.toList ++ slashPieces s.toList))).isAbsolute = true := rooted
    rw [below, normal, absolute, place _ both, goal, if_pos relative]
  · have absolute : (parse s).isAbsolute = true := by simpa [isAbsolute, parse] using relative
    rw [join, if_pos absolute, normal, absolute, goal, if_neg relative]
    simp only [parse_segments, place _ (segments s)]
    rfl

/-- Two texts have one absolute form just when they lead to one place. -/
theorem absolute_eq_iff {here there s t : String} (rooted : (parse here).isAbsolute = true)
    (rooted' : (parse there).isAbsolute = true) :
    absolute here s = absolute there t ↔ goal here s = goal there t := by
  have segments {here : String} (rooted : (parse here).isAbsolute = true) (s : String) :
      ∀ n ∈ ((parse here).join (parse s)).normal.segments, Segment n :=
    fun n mem => ((normal_join rooted s).2 n mem).segment
  constructor
  · intro same
    have read := congrArg parse same
    unfold absolute at read
    rw [parse_render (segments rooted s), parse_render (segments rooted' t),
      normal_join_eq_goal rooted, normal_join_eq_goal rooted', Path.mk.injEq] at read
    exact Prod.ext read.1 read.2
  · intro same
    rw [absolute, absolute, normal_join_eq_goal rooted, normal_join_eq_goal rooted', same]

end Path

namespace FileRef

/-- A reference as it is asked for: a path in some spelling, read from a directory, with a line and
a column. -/
structure Mention where
  here : String
  path : String
  line : Int
  column : Int
  context : Option String := none
  hint : Option String := none
  rooted : (Path.parse here).isAbsolute = true := by decide

namespace Mention

/-- The reference is made from the mention. -/
def Makes (m : Mention) (r : FileRef) : Prop :=
  make m.here m.path m.line m.column m.context m.hint = .ok r

/-- Where the mention points, however its path is spelled. -/
def spot (m : Mention) : (Path.Root × Disk.Place) × Int × Int :=
  (Path.goal m.here m.path, m.line, m.column)

theorem Makes.eq_absolute {m : Mention} {r : FileRef} (h : m.Makes r) :
    r.path = Path.absolute m.here m.path ∧
      (r.line : Int) = m.line ∧ (r.column : Int) = m.column := by
  unfold Makes make at h
  split at h
  · cases h
  · rename_i inRange
    cases h
    have counted : 1 ≤ m.line ∧ 1 ≤ m.column := by simpa using inRange
    exact ⟨rfl, Int.toNat_of_nonneg (by omega), Int.toNat_of_nonneg (by omega)⟩

/-- References have one key just when their mentions point to one spot. -/
theorem Makes.key_eq_iff {m n : Mention} {r s : FileRef} (hm : m.Makes r) (hn : n.Makes s) :
    r.key = s.key ↔ m.spot = n.spot := by
  obtain ⟨path, line, column⟩ := hm.eq_absolute
  obtain ⟨path', line', column'⟩ := hn.eq_absolute
  simp only [key, spot, Prod.mk.injEq, path, path', ← line, ← line', ← column, ← column',
    Int.natCast_inj, Path.absolute_eq_iff m.rooted n.rooted]

/-- Two spellings of one path point to one spot. -/
example : Mention.spot ⟨"/project", "src/./app.js", 3, 1, none, none, by decide⟩ =
    Mention.spot ⟨"/project/src", "../lib/..//src/app.js", 3, 1, some "", none, by decide⟩ := by
  decide

end Mention

/-- What is kept of a list of references: a part of it, in its order, with the first reference for
each key and no other. For references that were made from mentions the first mention of each spot
is kept, and no other. -/
structure KeepsFirst (refs kept : List FileRef) : Prop where
  part : kept.Sublist refs
  once : (kept.map key).Nodup
  first : ∀ k, kept.find? (fun r => r.key == k) = refs.find? (fun r => r.key == k)
  mentioned : ∀ {before m after}, List.Forall₂ Mention.Makes (before ++ m :: after) refs →
    (∀ b ∈ before, b.spot ≠ m.spot) → ∃ r ∈ kept, m.Makes r
  apart : ∀ {m n : Mention} {r s}, m.Makes r → n.Makes s → m.spot = n.spot →
    r ∈ kept → s ∈ kept → r = s

/-- The first mention of a spot makes the first reference with its key. -/
theorem find?_of_first {before after : List Mention} {m : Mention} {refs : List FileRef}
    (made : List.Forall₂ Mention.Makes (before ++ m :: after) refs)
    (new : ∀ b ∈ before, b.spot ≠ m.spot) :
    ∃ r, m.Makes r ∧ refs.find? (fun s => s.key == r.key) = some r := by
  induction before generalizing refs with
  | nil =>
    obtain ⟨r, rest, makes, -, rfl⟩ := List.forall₂_cons_left_iff.mp made
    exact ⟨r, makes, List.find?_cons_of_pos (beq_self_eq_true _)⟩
  | cons b before ih =>
    obtain ⟨s, rest, makes, others, rfl⟩ := List.forall₂_cons_left_iff.mp made
    obtain ⟨other, new⟩ := List.forall_mem_cons.mp new
    obtain ⟨r, makes_r, found⟩ := ih others new
    have unlike : (s.key == r.key) = false :=
      beq_false_of_ne fun same => other ((Mention.Makes.key_eq_iff makes makes_r).mp same)
    exact ⟨r, makes_r, by rw [List.find?_cons, unlike, found]⟩

theorem keepsFirst_dedupe (refs : List FileRef) : KeepsFirst refs (dedupe refs) where
  part := distinctBy_sublist refs
  once := nodup_keys_distinctBy refs
  first k := find?_distinctBy k refs
  mentioned made new := by
    obtain ⟨r, makes, found⟩ := find?_of_first made new
    exact ⟨r, List.mem_of_find?_eq_some ((find?_distinctBy r.key refs).trans found), makes⟩
  apart makes makes' same hr hs :=
    List.inj_on_of_nodup_map (nodup_keys_distinctBy refs) hr hs
      ((Mention.Makes.key_eq_iff makes makes').mpr same)

/-- Of every list of references the first one for each key is kept; reducing once more, or reducing
two parts of a list beforehand, changes nothing. -/
theorem dedupe_keeps_first (xs ys : List FileRef) :
    KeepsFirst xs (dedupe xs) ∧ dedupe (dedupe xs) = dedupe xs ∧
      dedupe (xs ++ ys) = dedupe (dedupe xs ++ dedupe ys) :=
  ⟨keepsFirst_dedupe xs, distinctBy_distinctBy xs,
    distinctBy_append_congr (distinctBy_distinctBy xs).symm (distinctBy_distinctBy ys).symm⟩

end FileRef

end EnvCensus
