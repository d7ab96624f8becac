import EnvCensus.Proofs.Discovery.Completion

/-!
# What a walk takes on its visits

A walk takes files in the folders that it comes to, and every name list that it
finds is the way to such a folder with the name of a file in it. Each of the
ways is a route over the disk, which leads to the folder itself.
-/

namespace EnvCensus.Discovery

open Disk

variable {d : Disk} {q q' : Query} {lists lists' : List Gitignore} {n : String} {e : Disk}
  {real : Place} {x : List String}

theorem target?_route {links left : Nat} {place final : Place} {t : String}
    (h : target? d links place t = some (e, final, left)) :
    d.routeFrom links (linkStart place t).1 (linkStart place t).2 = .ok (final, left) := by
  unfold target? at h
  split at h
  · rename_i f l route
    obtain ⟨there, -, same⟩ := Option.map_eq_some_iff.mp h
    cases same
    exact route
  · cases h

namespace Visit

variable {v w w' : Visit}

/-- With these lists the walk takes, at an entry of the folder, the file at a place: the entry is
that file or a link to it. -/
inductive Takes (d : Disk) (q : Query) (v : Visit) (lists : List Gitignore) :
    String × Disk → Place → Prop
  | file {n : String} {bytes : List UInt8}
      (taken : q.takesFile lists (v.names ++ [n]) bytes = true) :
      Takes d q v lists (n, .file bytes) (v.place ++ [n])
  | link {n t : String} {bytes : List UInt8} {place : Place} {links left : Nat}
      (spare : v.links = links + 1)
      (leads : target? d links v.place t = some (.file bytes, place, left))
      (taken : q.takesFile lists (v.names ++ [n]) bytes = true) :
      Takes d q v lists (n, .link t) place

/-- In the folder, the walk takes the file at a place under a name. -/
def Finds (d : Disk) (q : Query) (v : Visit) (n : String) (real : Place) : Prop :=
  ∃ lists, q.listsBelow d v.links v.place v.names v.lists = .ok lists ∧
    ∃ e, (n, e) ∈ v.entries ∧ Takes d q v lists (n, e) real

/-! ### One entry -/

/-- Whatever is asked for, no entry is both a file to take and a folder to go into. -/
theorem Takes.not_enters (h : Takes d q v lists (n, e) real) :
    ¬ Enters d q' v lists' (n, e) w := by
  intro entered
  cases h with
  | file taken => cases entered
  | link spare leads taken =>
    cases entered with
    | link spare' leads' =>
      cases spare.symm.trans spare'
      rw [leads] at leads'
      cases leads'

theorem Enters.unique (h : Enters d q v lists (n, e) w) (h' : Enters d q v lists (n, e) w') :
    w = w' := by
  cases h with
  | folder kept =>
    cases h'
    rfl
  | link spare leads =>
    cases h' with
    | link spare' leads' =>
      cases spare.symm.trans spare'
      rw [leads] at leads'
      cases leads'
      rfl

theorem walkEntry_of_takes (h : Takes d q v lists (n, e) real) :
    walkEntry d q v.links v.place lists (v.names ++ [n]) e = .ok [v.names ++ [n]] := by
  cases h with
  | file taken => rw [walkEntry_file, taken, if_pos rfl]
  | link spare leads taken =>
    rw [spare, walkEntry]
    split
    · rename_i file
      rw [leads] at file
      cases file
      rw [taken, if_pos rfl]
    · rename_i folder
      rw [leads] at folder
      cases folder
    · rename_i neither _
      exact (neither _ _ _ leads).elim

theorem walkEntry_of_passed (taken : ∀ real, ¬ Takes d q v lists (n, e) real)
    (entered : ∀ w, ¬ Enters d q v lists (n, e) w) :
    walkEntry d q v.links v.place lists (v.names ++ [n]) e = .ok [] := by
  cases e with
  | file bytes =>
    rw [walkEntry_file, if_neg fun h => taken _ (.file h)]
  | folder es =>
    have left : q.entersFolder lists (v.names ++ [n]) = false :=
      Bool.eq_false_iff.mpr fun kept => entered _ (.folder kept)
    rw [walkEntry, left]
    rfl
  | link t =>
    cases spare : v.links with
    | zero => rw [walkEntry]
    | succ links =>
      rw [walkEntry]
      split
      · rename_i leads
        rw [if_neg fun h => taken _ (.link spare leads h)]
      · rename_i leads
        have left : (!q.followSymlinks || !q.entersFolder lists (v.names ++ [n])) = true := by
          by_contra both
          rw [Bool.or_eq_true, not_or, Bool.not_eq_true', Bool.not_eq_true',
            Bool.not_eq_false, Bool.not_eq_false] at both
          exact entered _ (.link spare leads both.1 both.2)
        rw [if_pos left]
        rfl
      · rfl

/-- What is found at an entry is the entry, if it is taken, or is found in the folder that the walk
enters there. -/
theorem mem_walkEntry {found : List (List String)}
    (h : walkEntry d q v.links v.place lists (v.names ++ [n]) e = .ok found) :
    x ∈ found ↔ (x = v.names ++ [n] ∧ ∃ real, Takes d q v lists (n, e) real) ∨
      ∃ w, Enters d q v lists (n, e) w ∧ ∃ inner, w.walk d q = .ok inner ∧ x ∈ inner := by
  by_cases taken : ∃ real, Takes d q v lists (n, e) real
  · obtain ⟨real, takes⟩ := taken
    rw [walkEntry_of_takes takes] at h
    cases h
    rw [List.mem_singleton, or_iff_left fun ⟨w, entered, _⟩ => takes.not_enters entered]
    exact ⟨fun here => ⟨here, real, takes⟩, And.left⟩
  · rw [or_iff_right fun here => taken here.2]
    by_cases entered : ∃ w, Enters d q v lists (n, e) w
    · obtain ⟨w, enters⟩ := entered
      rw [walkEntry_of_enters enters] at h
      constructor
      · exact fun hx => ⟨w, enters, found, h, hx⟩
      · rintro ⟨w', enters', inner, walked, hx⟩
        rw [← enters.unique enters', h] at walked
        cases walked
        exact hx
    · rw [walkEntry_of_passed (not_exists.mp taken) (not_exists.mp entered)] at h
      cases h
      refine iff_of_false List.not_mem_nil ?_
      rintro ⟨w, enters, -⟩
      exact entered ⟨w, enters⟩

theorem mem_walkEntries {links : Nat} {place : Place} {names : List String}
    {es : List (String × Disk)} {found : List (List String)}
    (h : walkEntries d q links place lists names es = .ok found) :
    x ∈ found ↔ ∃ entry ∈ es, ∃ inner,
      walkEntry d q links place lists (names ++ [entry.1]) entry.2 = .ok inner ∧ x ∈ inner := by
  induction es generalizing found with
  | nil =>
    rw [walkEntries] at h
    cases h
    simp
  | cons entry es ih =>
    obtain ⟨first, rest, hfirst, hrest, rfl⟩ := walkEntries_cons_ok.mp h
    have here : x ∈ first ↔ ∃ inner,
        walkEntry d q links place lists (names ++ [entry.1]) entry.2 = .ok inner ∧ x ∈ inner := by
      simp [hfirst]
    simp only [List.mem_append, List.exists_mem_cons_iff, here, ih hrest]

/-! ### A whole walk -/

/-- A walk finds what it takes in the folders that it comes to. -/
theorem mem_walk (v : Visit) {found : List (List String)} (h : v.walk d q = .ok found) :
    x ∈ found ↔ ∃ w, v.Reaches d q w ∧ ∃ n, x = w.names ++ [n] ∧ ∃ real, w.Finds d q n real := by
  induction v using deeper_wellFounded.induction generalizing found with
  | _ v ih =>
    have further := ((walk_step d q v).result h).2
    obtain ⟨lists, below, inside⟩ := bind_eq_ok.mp h
    rw [mem_walkEntries inside]
    -- what is found is taken here or in a folder one step down, whose walk is part of this one
    constructor
    · rintro ⟨⟨n, e⟩, hentry, inner, walked, hx⟩
      rcases (mem_walkEntry walked).mp hx with ⟨rfl, real, taken⟩ | ⟨w, entered, deep, given, hx⟩
      · exact ⟨v, .refl, n, rfl, real, lists, below, e, hentry, taken⟩
      · have step : Step d q v w := ⟨lists, below, _, hentry, entered⟩
        obtain ⟨w', reached, rest⟩ := (ih w step.lt given).mp hx
        exact ⟨w', .head step reached, rest⟩
    · rintro ⟨w, reached, n, rfl, real, finds⟩
      rcases Relation.ReflTransGen.cases_head reached with rfl | ⟨next, step, rest⟩
      · obtain ⟨lists', below', e, hentry, taken⟩ := finds
        rw [below] at below'
        cases below'
        exact ⟨(n, e), hentry, _, walkEntry_of_takes taken, List.mem_singleton_self _⟩
      · obtain ⟨deep, given⟩ := further next step
        have hx := (ih next step.lt given).mpr ⟨w, rest, n, rfl, real, finds⟩
        obtain ⟨lists', below', ⟨m, e⟩, hentry, entered⟩ := step
        rw [below] at below'
        cases below'
        exact ⟨(m, e), hentry, deep, walkEntry_of_enters entered ▸ given, hx⟩

/-! ### Where the visits are -/

/-- The folder that the walk goes into stands where its name leads. -/
theorem Step.route (named : Named d) (there : d.at? v.place = some (.folder v.entries))
    (h : Step d q v w) :
    d.at? w.place = some (.folder w.entries) ∧ ∃ n, w.names = v.names ++ [n] ∧ Path.Proper n ∧
      d.routeFrom v.links v.place [n] = .ok (w.place, w.links) := by
  obtain ⟨lists, -, ⟨n, e⟩, hentry, entered⟩ := h
  have inside := named.at? there
  have proper := inside.proper _ hentry
  have child := inside.child? hentry
  cases entered with
  | folder kept =>
    refine ⟨?_, n, rfl, proper, ?_⟩
    · rw [at?_concat, there]
      exact child
    · rw [routeFrom_step _ _ there proper.not_climbing child rfl, routeFrom]
  | @link _ t es place links left spare leads follows kept =>
    refine ⟨target?_at leads, n, rfl, proper, ?_⟩
    rw [spare, routeFrom_link _ _ there proper.not_climbing child, List.append_nil]
    exact target?_route leads

/-- The way to a folder that the walk comes to is a route of proper names. -/
theorem Reaches.route (named : Named d) (there : d.at? v.place = some (.folder v.entries))
    (h : v.Reaches d q w) :
    d.at? w.place = some (.folder w.entries) ∧ ∃ tail, w.names = v.names ++ tail ∧
      (∀ n ∈ tail, Path.Proper n) ∧
      d.routeFrom v.links v.place tail = .ok (w.place, w.links) := by
  induction h with
  | refl => exact ⟨there, [], by simp, by simp, by rw [routeFrom]⟩
  | tail _ step ih =>
    obtain ⟨folder, tail, spelled, proper, route⟩ := ih
    obtain ⟨folder', n, spelled', proper', route'⟩ := step.route named folder
    refine ⟨folder', tail ++ [n], by rw [spelled', spelled, List.append_assoc], ?_, ?_⟩
    · exact List.forall_mem_append.mpr ⟨proper, List.forall_mem_singleton.mpr proper'⟩
    · rw [routeFrom_append [n] route folder]
      exact route'

/-- The file that the walk takes in a folder stands where its name there leads. -/
theorem Finds.route (named : Named d) (there : d.at? v.place = some (.folder v.entries))
    (h : v.Finds d q n real) :
    Path.Proper n ∧ ∃ bytes left, d.at? real = some (.file bytes) ∧
      d.routeFrom v.links v.place [n] = .ok (real, left) := by
  obtain ⟨lists, -, e, hentry, taken⟩ := h
  have inside := named.at? there
  have proper := inside.proper _ hentry
  have child := inside.child? hentry
  refine ⟨proper, ?_⟩
  cases taken with
  | @file _ bytes taken =>
    refine ⟨bytes, v.links, ?_, ?_⟩
    · rw [at?_concat, there]
      exact child
    · rw [routeFrom_step _ _ there proper.not_climbing child rfl, routeFrom]
  | @link _ t bytes place links left spare leads taken =>
    refine ⟨bytes, left, target?_at leads, ?_⟩
    rw [spare, routeFrom_link _ _ there proper.not_climbing child, List.append_nil]
    exact target?_route leads

end Visit

end EnvCensus.Discovery
