import EnvCensus.Discovery
import EnvCensus.Proofs.Disk.Route
import EnvCensus.Proofs.Except

/-!
# What a walk finds

The steps of a walk that follows no links to folders, as equations on what
stands at each entry, and what its results look like: every name list that is
found begins with the names of the entry and leads to a file or link below it.
-/

namespace EnvCensus.Discovery

open Disk

variable {d d' : Disk} {q : Query} {links : Nat} {place : Place} {lists : List Gitignore}
  {names : List String}

/-! ### Ignore lists -/

theorem ofFolder?_eq (d : Disk) (links : Nat) (place : Place) (base : List String) :
    Gitignore.ofFolder? d links place base =
      match d.fileFrom? links place [Gitignore.fileName] with
      | some bytes => do
        let patterns ← (Gitignore.patternsOf bytes).mapError Failure.pattern
        return some ⟨base, patterns⟩
      | none => .ok none := by
  unfold Gitignore.ofFolder? fileFrom?
  cases d.routeFrom links place [Gitignore.fileName] with
  | error _ => rfl
  | ok r =>
    cases h : d.at? r.1 with
    | none => simp only [h]
    | some e => cases e <;> simp only [h]

/-- The lists that apply below a folder depend on the list in the folder alone. -/
theorem listsBelow_congr
    (same : d'.fileFrom? links place [Gitignore.fileName] =
      d.fileFrom? links place [Gitignore.fileName]) :
    q.listsBelow d' links place names lists = q.listsBelow d links place names lists := by
  unfold Query.listsBelow
  rw [ofFolder?_eq, ofFolder?_eq, same]

theorem listsBelow_of_none (none : d.fileFrom? links place [Gitignore.fileName] = none) :
    q.listsBelow d links place names lists = .ok lists := by
  unfold Query.listsBelow
  rw [ofFolder?_eq, none]
  cases q.respectGitignore <;> rfl

/-! ### Steps of a walk -/

theorem walkEntry_file (bytes : List UInt8) :
    walkEntry d q links place lists names (.file bytes) =
      .ok (if q.takesFile lists names bytes then [names] else []) := by
  rw [walkEntry]

theorem linkedFile?_eq (d : Disk) (links : Nat) (place : Place) (t : String) :
    d.linkedFile? links place t =
      match target? d links place t with
      | some (.file bytes, _, _) => some bytes
      | _ => none := by
  unfold linkedFile? fileFrom? target?
  cases d.routeFrom links (linkStart place t).1 (linkStart place t).2 with
  | error _ => rfl
  | ok r =>
    cases h : d.at? r.1 with
    | none => simp only [h, Option.map_none]
    | some e => cases e <;> simp only [h, Option.map_some]

/-- A link is taken for the file that it stands for. -/
theorem walkEntry_link (stays : q.followSymlinks = false) (t : String) :
    walkEntry d q (links + 1) place lists names (.link t) =
      .ok (match d.linkedFile? links place t with
        | some bytes => if q.takesFile lists names bytes then [names] else []
        | none => []) := by
  have linked := linkedFile?_eq d links place t
  rw [walkEntry]
  split
  · rename_i target
    rw [target] at linked
    rw [linked]
  · rename_i target
    rw [target] at linked
    rw [linked]
    simp [stays, pure, Except.pure]
  · rename_i notFile _
    cases h : target? d links place t with
    | none => rw [linked, h]
    | some r =>
      obtain ⟨e, p, l⟩ := r
      cases e with
      | file bytes => exact absurd h (notFile bytes p l)
      | folder es => rw [linked, h]
      | link t' => rw [linked, h]

theorem walkEntry_folder_ok {n : String} {es : List (String × Disk)}
    {found : List (List String)} :
    walkEntry d q links place lists (names ++ [n]) (.folder es) = .ok found ↔
      (q.entersFolder lists (names ++ [n]) = false ∧ found = []) ∨
      (q.entersFolder lists (names ++ [n]) = true ∧ ∃ lists',
        q.listsBelow d links (place ++ [n]) (names ++ [n]) lists = .ok lists' ∧
        walkEntries d q links (place ++ [n]) lists' (names ++ [n]) es = .ok found) := by
  have last : (names ++ [n]).getLastD "" = n := by simp
  rw [walkEntry, last]
  cases q.entersFolder lists (names ++ [n]) with
  | false => simp [pure, Except.pure, eq_comm]
  | true =>
    cases h : q.listsBelow d links (place ++ [n]) (names ++ [n]) lists with
    | error e => simp [bind, Except.bind, h]
    | ok lists' => simp [bind, Except.bind, h]

theorem walkEntries_cons_ok {n : String} {e : Disk} {es : List (String × Disk)}
    {found : List (List String)} :
    walkEntries d q links place lists names ((n, e) :: es) = .ok found ↔
      ∃ first rest, walkEntry d q links place lists (names ++ [n]) e = .ok first ∧
        walkEntries d q links place lists names es = .ok rest ∧ found = first ++ rest := by
  rw [walkEntries]
  cases walkEntry d q links place lists (names ++ [n]) e with
  | error f => simp [bind, Except.bind]
  | ok first =>
    cases walkEntries d q links place lists names es with
    | error f => simp [bind, Except.bind]
    | ok rest => simp [bind, Except.bind, pure, Except.pure, eq_comm]

/-- In a folder of files a walk finds the ones that are taken. -/
theorem walkEntries_files (d : Disk) (q : Query) (links : Nat) (place : Place)
    (lists : List Gitignore) (names : List String) (es : List (String × List UInt8)) :
    walkEntries d q links place lists names (es.map fun e => (e.1, .file e.2)) =
      .ok ((es.filter fun e => q.takesFile lists (names ++ [e.1]) e.2).map
        fun e => names ++ [e.1]) := by
  induction es with
  | nil => rw [List.map_nil, walkEntries]; rfl
  | cons e es ih =>
    rw [List.map_cons, walkEntries_cons_ok]
    refine ⟨_, _, walkEntry_file e.2, ih, ?_⟩
    rw [List.filter_cons]
    split <;> rfl

/-! ### What is found -/

mutual

/-- What is found at an entry leads to a file or link at it or below it. -/
theorem walkEntry_finds (stays : q.followSymlinks = false) {place : Place}
    {lists : List Gitignore} {names : List String} {n : String} {found : List (List String)}
    (e : Disk) (named : Named e)
    (h : walkEntry d q links place lists (names ++ [n]) e = .ok found) {x : List String}
    (hx : x ∈ found) :
    ∃ tail f, x = names ++ n :: tail ∧ e.at? tail = some f ∧ f.isFolder = false := by
  cases e with
  | file bytes =>
    rw [walkEntry_file] at h
    cases h
    split at hx
    · exact ⟨[], .file bytes, List.mem_singleton.mp hx, rfl, rfl⟩
    · cases hx
  | link t =>
    cases links with
    | zero =>
      rw [walkEntry] at h
      cases h
      cases hx
    | succ links =>
      rw [walkEntry_link stays] at h
      cases h
      split at hx
      · split at hx
        · exact ⟨[], .link t, List.mem_singleton.mp hx, rfl, rfl⟩
        · cases hx
      · cases hx
  | folder es =>
    rcases walkEntry_folder_ok.mp h with ⟨_, rfl⟩ | ⟨_, lists', _, inside⟩
    · cases hx
    · obtain ⟨m, c, mem, tail, f, rfl, there, leaf⟩ :=
        walkEntries_finds stays es named.within inside hx
      refine ⟨m :: tail, f, by simp, ?_, leaf⟩
      rw [at?, named.child? mem]
      exact there
termination_by sizeOf e

/-- What is found among entries is found at one of them. -/
theorem walkEntries_finds (stays : q.followSymlinks = false) {place : Place}
    {lists : List Gitignore} {names : List String} {found : List (List String)}
    (es : List (String × Disk)) (named : ∀ e ∈ es, Named e.2)
    (h : walkEntries d q links place lists names es = .ok found) {x : List String}
    (hx : x ∈ found) :
    ∃ n e, (n, e) ∈ es ∧
      ∃ tail f, x = names ++ n :: tail ∧ e.at? tail = some f ∧ f.isFolder = false := by
  match es with
  | [] =>
    rw [walkEntries] at h
    cases h
    cases hx
  | (n, e) :: es =>
    obtain ⟨first, rest, hfirst, hrest, rfl⟩ := walkEntries_cons_ok.mp h
    rcases List.mem_append.mp hx with hx | hx
    · exact ⟨n, e, List.mem_cons_self,
        walkEntry_finds stays e (named _ List.mem_cons_self) hfirst hx⟩
    · obtain ⟨m, c, mem, below⟩ :=
        walkEntries_finds stays es (fun e he => named e (List.mem_cons_of_mem _ he)) hrest hx
      exact ⟨m, c, List.mem_cons_of_mem _ mem, below⟩
termination_by sizeOf es

end

/-- What is found from a folder on stands below the folder. -/
theorem walkEntries_leaf (stays : q.followSymlinks = false) (named : Named d)
    {es : List (String × Disk)} (folder : d.at? place = some (.folder es))
    {found : List (List String)} (h : walkEntries d q links place lists names es = .ok found)
    {x : List String} (hx : x ∈ found) :
    ∃ tail e, x = names ++ tail ∧ tail ≠ [] ∧ d.at? (place ++ tail) = some e ∧
      e.isFolder = false := by
  have namedEs := named.at? folder
  obtain ⟨n, e, he, tail, f, rfl, there, leaf⟩ := walkEntries_finds stays es namedEs.within h hx
  refine ⟨n :: tail, f, rfl, by simp, ?_, leaf⟩
  rw [at?_append, folder, Option.bind_some, at?, namedEs.child? he]
  exact there

/-! ### Files of a directory -/

theorem files_ok {here root : Place} {directory : String} {options : Options}
    {furtherInclude furtherExclude : List String} {es : List (String × Disk)}
    {paths : List String} (settled : d.settle here directory = some root)
    (folder : d.at? root = some (.folder es)) :
    files d here directory options furtherInclude furtherExclude = .ok paths ↔
      ∃ q lists found, Query.make options furtherInclude furtherExclude = .ok q ∧
        q.listsBelow d linkLimit root [] [] = .ok lists ∧
        walkEntries d q linkLimit root lists [] es = .ok found ∧
        paths = Collation.inOrder (found.map fun names => pathOf (root ++ names)) := by
  rw [files, settled]
  simp only [folder]
  cases Query.make options furtherInclude furtherExclude with
  | error e => simp [bind, Except.bind]
  | ok q =>
    cases hl : q.listsBelow d linkLimit root [] [] with
    | error e => simp [bind, Except.bind, hl]
    | ok lists =>
      cases hw : walkEntries d q linkLimit root lists [] es with
      | error e => simp [bind, Except.bind, hl, hw]
      | ok found =>
        simp [bind, Except.bind, pure, Except.pure, hl, hw, Collation.inOrder, eq_comm]

theorem followSymlinks_make {options : Options} {furtherInclude furtherExclude : List String}
    (h : Query.make options furtherInclude furtherExclude = .ok q) :
    q.followSymlinks = options.followSymlinks := by
  unfold Query.make at h
  obtain ⟨included, -, h⟩ := bind_eq_ok.mp h
  obtain ⟨excluded, -, h⟩ := bind_eq_ok.mp h
  cases h
  rfl

/-- The path of a file or link below the root. -/
def IsLeafPath (d : Disk) (root : Place) (path : String) : Prop :=
  ∃ names e, names ≠ [] ∧ path = pathOf (root ++ names) ∧ d.at? (root ++ names) = some e ∧
    e.isFolder = false

/-- The files of a directory are paths of files and links below it. -/
theorem files_leaf {here root : Place} {directory : String} {options : Options}
    {furtherInclude furtherExclude : List String} {es : List (String × Disk)}
    {paths : List String} (settled : d.settle here directory = some root)
    (folder : d.at? root = some (.folder es)) (named : Named d)
    (stays : options.followSymlinks = false)
    (h : files d here directory options furtherInclude furtherExclude = .ok paths) :
    ∀ path ∈ paths, IsLeafPath d root path := by
  obtain ⟨q, lists, found, hq, _, hfound, rfl⟩ := (files_ok settled folder).mp h
  intro path hpath
  have mem := (Collation.inOrder_perm _).mem_iff.mp hpath
  obtain ⟨names, hnames, rfl⟩ := List.mem_map.mp mem
  obtain ⟨tail, e, rfl, ne, there, leaf⟩ :=
    walkEntries_leaf ((followSymlinks_make hq).trans stays) named folder hfound hnames
  exact ⟨_, e, ne, rfl, there, leaf⟩

/-! ### Names of what is found -/

theorem target?_at {e : Disk} {links left : Nat} {final : Place} {t : String}
    (h : target? d links place t = some (e, final, left)) : d.at? final = some e := by
  unfold target? at h
  split at h
  · obtain ⟨there, hthere, same⟩ := Option.map_eq_some_iff.mp h
    cases same
    exact hthere
  · cases h

mutual

/-- What is found at an entry is found once and begins with the names of the entry; every name on
the way to it is proper, also behind links. -/
theorem walkEntry_once (named : Named d) {links : Nat} {place : Place} {lists : List Gitignore}
    {names : List String} {found : List (List String)} (e : Disk) (namedE : Named e)
    (proper : ∀ n ∈ names, Path.Proper n)
    (h : walkEntry d q links place lists names e = .ok found) :
    found.Nodup ∧ ∀ x ∈ found, names <+: x ∧ ∀ n ∈ x, Path.Proper n := by
  have here : ∀ taken : Bool, (if taken then [names] else []).Nodup ∧
      ∀ x ∈ (if taken then [names] else []), names <+: x ∧ ∀ n ∈ x, Path.Proper n := by
    intro taken
    cases taken with
    | false => simp
    | true => simpa using proper
  have deeper : ∀ {es : List (String × Disk)}, (found.Nodup ∧ ∀ x ∈ found,
      (∃ n ∈ es.map (·.1), names ++ [n] <+: x) ∧ ∀ n ∈ x, Path.Proper n) →
      found.Nodup ∧ ∀ x ∈ found, names <+: x ∧ ∀ n ∈ x, Path.Proper n := by
    rintro es ⟨nodup, below⟩
    refine ⟨nodup, fun x hx => ?_⟩
    obtain ⟨⟨n, -, start⟩, properX⟩ := below x hx
    exact ⟨(List.prefix_append names [n]).trans start, properX⟩
  match e with
  | .file bytes =>
    rw [walkEntry_file] at h
    cases h
    exact here _
  | .folder es =>
    rw [walkEntry] at h
    split at h
    · cases h
      simp
    · obtain ⟨lists', -, h⟩ := bind_eq_ok.mp h
      exact deeper (walkEntries_once named es namedE proper h)
  | .link t =>
    -- A link leads anywhere, but with fewer links left: the measure is lexicographic.
    match links with
    | 0 =>
      rw [walkEntry] at h
      cases h
      simp
    | links + 1 =>
      rw [walkEntry] at h
      split at h
      · cases h
        exact here _
      · rename_i es final left target
        have fewer : left ≤ links := target?_links target
        split at h
        · cases h
          simp
        · obtain ⟨lists', -, h⟩ := bind_eq_ok.mp h
          exact deeper (walkEntries_once named es (named.at? (target?_at target)) proper h)
      · cases h
        simp
termination_by (links, sizeOf e)

/-- What is found among entries is found once and begins with the names of one of them. -/
theorem walkEntries_once (named : Named d) {links : Nat} {place : Place} {lists : List Gitignore}
    {names : List String} {found : List (List String)} (es : List (String × Disk))
    (namedEs : Named (.folder es)) (proper : ∀ n ∈ names, Path.Proper n)
    (h : walkEntries d q links place lists names es = .ok found) :
    found.Nodup ∧ ∀ x ∈ found,
      (∃ n ∈ es.map (·.1), names ++ [n] <+: x) ∧ ∀ n ∈ x, Path.Proper n := by
  match es with
  | [] =>
    rw [walkEntries] at h
    cases h
    simp
  | (n, e) :: es =>
    obtain ⟨first, rest, hfirst, hrest, rfl⟩ := walkEntries_cons_ok.mp h
    have different := namedEs.different
    rw [List.map_cons, List.nodup_cons] at different
    have longer : ∀ m ∈ names ++ [n], Path.Proper m := List.forall_mem_append.mpr
      ⟨proper, List.forall_mem_singleton.mpr (namedEs.proper _ List.mem_cons_self)⟩
    obtain ⟨once, at_n⟩ :=
      walkEntry_once named e (namedEs.within _ List.mem_cons_self) longer hfirst
    obtain ⟨others, below⟩ := walkEntries_once named es namedEs.tail proper hrest
    refine ⟨List.nodup_append.mpr ⟨once, others, ?_⟩, ?_⟩
    · -- What begins with the names of two entries begins with those of one entry twice.
      rintro x hx y hy rfl
      obtain ⟨⟨m, hm, start⟩, -⟩ := below x hy
      have same : names ++ [n] = names ++ [m] :=
        (List.prefix_of_prefix_length_le (at_n x hx).1 start (by simp)).eq_of_length (by simp)
      have : n = m := by simpa using same
      exact different.1 (this ▸ hm)
    · intro x hx
      rcases List.mem_append.mp hx with hx | hx
      · exact ⟨⟨n, List.mem_cons_self, (at_n x hx).1⟩, (at_n x hx).2⟩
      · obtain ⟨⟨m, hm, start⟩, properX⟩ := below x hx
        exact ⟨⟨m, List.mem_cons_of_mem _ hm, start⟩, properX⟩
termination_by (links, sizeOf es)

end

/-- The files of a directory are the paths of places of proper names, none of them twice, in
order. -/
theorem files_found (named : Named d) {here : Place} {directory : String} {options : Options}
    {furtherInclude furtherExclude : List String} {paths : List String}
    (h : files d here directory options furtherInclude furtherExclude = .ok paths) :
    ∃ places : List Place, places.Nodup ∧ (∀ place ∈ places, ∀ n ∈ place, Path.Proper n) ∧
      paths = Collation.inOrder (places.map pathOf) := by
  cases settled : d.settle here directory with
  | none =>
    rw [files, settled] at h
    cases h
  | some root =>
    cases there : d.at? root with
    | none =>
      simp only [files, settled, there] at h
      cases h
    | some e =>
      cases e with
      | folder es =>
        obtain ⟨q, lists, found, -, -, hfound, rfl⟩ := (files_ok settled there).mp h
        obtain ⟨once, below⟩ := walkEntries_once named es (named.at? there) (by simp) hfound
        refine ⟨found.map (root ++ ·), once.map fun _ _ => List.append_cancel_left, ?_, ?_⟩
        · rw [List.forall_mem_map]
          exact fun names hnames => List.forall_mem_append.mpr
            ⟨named.proper_of_at? there, (below names hnames).2⟩
        · rw [List.map_map]
          rfl
      | _ =>
        simp only [files, settled, there] at h
        cases h

/-- The files of a directory have paths of proper names throughout. -/
theorem files_proper (named : Named d) {here : Place} {directory : String} {options : Options}
    {furtherInclude furtherExclude : List String} {paths : List String}
    (h : files d here directory options furtherInclude furtherExclude = .ok paths) :
    ∀ path ∈ paths, ∃ place : Place, (∀ n ∈ place, Path.Proper n) ∧ path = pathOf place := by
  obtain ⟨places, -, proper, rfl⟩ := files_found named h
  intro path hpath
  obtain ⟨place, hplace, rfl⟩ := List.mem_map.mp ((Collation.inOrder_perm _).mem_iff.mp hpath)
  exact ⟨place, proper place hplace, rfl⟩

/-- The files of a directory are in the order of their paths, none of them twice. -/
theorem files_ordered (named : Named d) {here : Place} {directory : String} {options : Options}
    {furtherInclude furtherExclude : List String} {paths : List String}
    (h : files d here directory options furtherInclude furtherExclude = .ok paths) :
    paths.Nodup ∧ Collation.inOrder paths = paths := by
  obtain ⟨places, once, proper, rfl⟩ := files_found named h
  have different : (places.map pathOf).Nodup := List.Nodup.map_on
    (fun p hp q hq same => Path.pathOf_injective (proper p hp) (proper q hq) same) once
  refine ⟨(Collation.inOrder_perm _).nodup_iff.mpr different, ?_⟩
  exact Collation.inOrder_unique (.refl _) (Collation.inOrder_pairwise _)

end EnvCensus.Discovery

/-!
## Discoveries that fail

A discovery has nothing to fail by but its directory, which is not there or
leads in a circle of links, and the patterns that it meets, in its query or in
the ignore lists on the way.
-/

namespace EnvCensus

/-- The failure is about a pattern. -/
def Failure.OfPattern (e : Failure) : Prop := ∃ fault, e = .pattern fault

namespace Discovery

open Disk

variable {d : Disk} {q : Query} {links : Nat} {place : Place} {lists : List Gitignore}
  {names : List String}

theorem mapError_pattern_ends {α : Type} (x : Except Pattern.Fault α) :
    Ends Failure.OfPattern (fun _ => True) (x.mapError Failure.pattern) := by
  cases x with
  | ok a => exact .ok trivial
  | error fault => exact .error ⟨fault, rfl⟩

theorem make_ends (options : Options) (furtherInclude furtherExclude : List String) :
    Ends Failure.OfPattern (fun _ => True)
      (Query.make options furtherInclude furtherExclude) := by
  refine (mapError_pattern_ends _).bind fun included _ => ?_
  exact (mapError_pattern_ends _).bind fun excluded _ => .ok trivial

theorem listsBelow_ends (q : Query) (d : Disk) (links : Nat) (place : Place) (names : List String)
    (lists : List Gitignore) :
    Ends Failure.OfPattern (fun _ => True) (q.listsBelow d links place names lists) := by
  unfold Query.listsBelow
  split
  · exact .ok trivial
  · rw [ofFolder?_eq]
    refine Ends.bind (P := fun _ => True) ?_ fun _ _ => .ok trivial
    split
    · exact (mapError_pattern_ends _).bind fun _ _ => .ok trivial
    · exact .ok trivial

mutual

/-- A walk through an entry fails by a pattern only. -/
theorem walkEntry_ends (d : Disk) (q : Query) (links : Nat) (place : Place)
    (lists : List Gitignore) (names : List String) (e : Disk) :
    Ends Failure.OfPattern (fun _ => True) (walkEntry d q links place lists names e) := by
  match e with
  | .file bytes =>
    rw [walkEntry_file]
    exact .ok trivial
  | .folder es =>
    rw [walkEntry]
    split
    · exact .ok trivial
    · exact (listsBelow_ends ..).bind fun lists' _ => walkEntries_ends d q _ _ lists' _ es
  | .link t =>
    match links with
    | 0 =>
      rw [walkEntry]
      exact .ok trivial
    | links + 1 =>
      rw [walkEntry]
      split
      · exact .ok trivial
      · rename_i es final left target
        have fewer : left ≤ links := target?_links target
        split
        · exact .ok trivial
        · exact (listsBelow_ends ..).bind fun lists' _ => walkEntries_ends d q _ _ lists' _ es
      · exact .ok trivial
termination_by (links, sizeOf e)

theorem walkEntries_ends (d : Disk) (q : Query) (links : Nat) (place : Place)
    (lists : List Gitignore) (names : List String) (es : List (String × Disk)) :
    Ends Failure.OfPattern (fun _ => True) (walkEntries d q links place lists names es) := by
  match es with
  | [] =>
    rw [walkEntries]
    exact .ok trivial
  | (n, e) :: es =>
    rw [walkEntries]
    refine (walkEntry_ends d q links place lists (names ++ [n]) e).bind fun _ _ => ?_
    exact (walkEntries_ends d q links place lists names es).bind fun _ _ => .ok trivial
termination_by (links, sizeOf es)

end

/-- What can be wrong with a discovery: the directory, a circle of links or a pattern. -/
theorem files_ends (d : Disk) (here : Place) (directory : String) (options : Options)
    (furtherInclude furtherExclude : List String) :
    Ends (fun e => e = .linkCircle directory ∨ (∃ path, e = .noDirectory path) ∨ e.OfPattern)
      (fun _ => True) (files d here directory options furtherInclude furtherExclude) := by
  have fromPattern : ∀ e : Failure, e.OfPattern →
      e = .linkCircle directory ∨ (∃ path, e = .noDirectory path) ∨ e.OfPattern :=
    fun _ h => Or.inr (Or.inr h)
  unfold files
  split
  · exact .error (Or.inl rfl)
  · split
    · refine Ends.imp ?_ fromPattern fun _ => id
      refine (make_ends ..).bind fun q _ => (listsBelow_ends ..).bind fun lists _ => ?_
      exact (walkEntries_ends ..).bind fun found _ => .ok trivial
    · exact .error (Or.inr (Or.inl ⟨_, rfl⟩))

end Discovery

end EnvCensus
