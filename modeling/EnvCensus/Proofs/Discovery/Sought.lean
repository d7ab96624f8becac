import EnvCensus.Proofs.Discovery
import EnvCensus.Proofs.Gitignore

/-!
# What is sought in a tree

In a tree without links, what a walk is to find can be told from the tree and
the patterns alone. A file is sought when it is wanted for itself and nothing
leaves out one of the folders above it; what the ignore lists leave out is told
by the lists that lie above. A walk carries lists along and adds the one of each
folder that it goes into: at every entry the lists it carries are the ones that
lie above, so that what it finds is what is sought.
-/

namespace EnvCensus.Discovery

open Disk

variable {d : Disk} {q : Query} {root : Place} {lists : List Gitignore}
  {names start base : List String} {folder : Bool} {patterns : List Pattern}

/-! ### What is sought -/

/-- On a disk of proper names there is a folder at the root, and no link below it. -/
structure IsTree (d : Disk) (root : Place) : Prop where
  named : Named d
  folder : ∃ es, d.at? root = some (.folder es)
  linkless : ∀ names target, d.at? (root ++ names) ≠ some (.link target)

theorem IsTree.of_linkFree {es : List (String × Disk)} (named : Named d)
    (folder : d.at? root = some (.folder es)) (free : LinkFree (.folder es)) : IsTree d root where
  named := named
  folder := ⟨es, folder⟩
  linkless names target := by
    rw [at?_append, folder]
    exact free.no_link names target

/-- The folder that the names lead to has an ignore list of these patterns. -/
def HasList (d : Disk) (root : Place) (base : List String) (patterns : List Pattern) : Prop :=
  ∃ bytes, d.at? (root ++ (base ++ [Gitignore.fileName])) = some (.file bytes) ∧
    Gitignore.patternsOf bytes = .ok patterns

/-- Every ignore list of the tree can be read. -/
def ListsAccepted (d : Disk) (root : Place) : Prop :=
  ∀ base bytes, d.at? (root ++ (base ++ [Gitignore.fileName])) = some (.file bytes) →
    ∃ patterns, Gitignore.patternsOf bytes = .ok patterns

/-- The list of a folder above selects the path, as seen from that folder. -/
def IgnoredFromAbove (d : Disk) (root : Place) (names : List String) (folder : Bool) : Prop :=
  ∃ base tail patterns, names = base ++ tail ∧ tail ≠ [] ∧ HasList d root base patterns ∧
    Pattern.selects patterns (Gitignore.pathText tail folder) = true

/-- Nothing leaves out the path itself: not what is excluded, and no list above as far as lists
count. -/
structure Query.Admits (q : Query) (d : Disk) (root : Place) (names : List String)
    (folder : Bool) : Prop where
  kept : Pattern.selects q.excluded (Gitignore.pathText names folder) = false
  heeded : q.respectGitignore = true → ¬ IgnoredFromAbove d root names folder

/-- The file at the names is looked for, whatever folders it lies in. -/
structure Query.Wants (q : Query) (d : Disk) (root : Place) (names : List String)
    (bytes : List UInt8) : Prop where
  there : d.at? (root ++ names) = some (.file bytes)
  included : q.included.selects (Gitignore.pathText names false) = true
  small : (bytes.length : Int) ≤ q.maxFileSize
  admitted : q.Admits d root names false

/-- The file at the names is looked for, and nothing leaves out a folder between it and the
root. -/
structure Query.Seeks (q : Query) (d : Disk) (root : Place) (names : List String) : Prop where
  wanted : ∃ bytes, q.Wants d root names bytes
  reached : ∀ above, above <+: names → above ≠ [] → above ≠ names → q.Admits d root above true

/-! ### The lists in force -/

/-- The lists are the ones of the folders above the names, as far as lists count. -/
def InForce (q : Query) (d : Disk) (root : Place) (names : List String)
    (lists : List Gitignore) : Prop :=
  ∀ g : Gitignore, g ∈ lists ↔ q.respectGitignore = true ∧
    (g.base <+: names ∧ g.base ≠ names) ∧ HasList d root g.base g.patterns

theorem HasList.unique {patterns' : List Pattern} (h : HasList d root base patterns)
    (h' : HasList d root base patterns') : patterns = patterns' := by
  obtain ⟨bytes, there, read⟩ := h
  obtain ⟨bytes', there', read'⟩ := h'
  rw [there] at there'
  cases there'
  rw [read] at read'
  cases read'
  rfl

theorem inForce_nil : InForce q d root [] [] := by
  intro g
  refine ⟨fun h => (List.not_mem_nil h).elim, ?_⟩
  rintro ⟨-, ⟨above, below⟩, -⟩
  exact (below (List.prefix_nil.mp above)).elim

/-- Of the lists in force, the ones above the path tell what the lists above it in the tree tell. -/
theorem InForce.isIgnored_iff (inForce : InForce q d root names lists) :
    Gitignore.isIgnored lists names folder = true ↔
      q.respectGitignore = true ∧ IgnoredFromAbove d root names folder := by
  simp only [Gitignore.isIgnored, List.any_eq_true, Gitignore.ignores_iff_tail]
  constructor
  · rintro ⟨g, hg, tail, below, spelled, selected⟩
    obtain ⟨respected, -, has⟩ := (inForce g).mp hg
    exact ⟨respected, g.base, tail, g.patterns, spelled, below, has, selected⟩
  · rintro ⟨respected, base, tail, patterns, rfl, below, has, selected⟩
    have notSelf : base ≠ base ++ tail := fun same => below (List.self_eq_append_right.mp same)
    exact ⟨⟨base, patterns⟩, (inForce _).mpr ⟨respected, ⟨List.prefix_append _ _, notSelf⟩, has⟩,
      tail, below, rfl, selected⟩

theorem InForce.admits_iff (inForce : InForce q d root names lists) :
    q.Admits d root names folder ↔
      Pattern.selects q.excluded (Gitignore.pathText names folder) = false ∧
        Gitignore.isIgnored lists names folder = false := by
  rw [← Bool.not_eq_true (Gitignore.isIgnored _ _ _), inForce.isIgnored_iff, not_and]
  exact ⟨fun h => ⟨h.kept, h.heeded⟩, fun h => ⟨h.1, h.2⟩⟩

theorem InForce.entersFolder_iff (inForce : InForce q d root names lists) :
    q.entersFolder lists names = true ↔ q.Admits d root names true := by
  rw [inForce.admits_iff, Query.entersFolder]
  simp

theorem InForce.takesFile_iff (inForce : InForce q d root names lists) {bytes : List UInt8}
    (there : d.at? (root ++ names) = some (.file bytes)) :
    q.takesFile lists names bytes = true ↔ q.Wants d root names bytes := by
  have taken : q.takesFile lists names bytes = true ↔
      q.included.selects (Gitignore.pathText names false) = true ∧
        (bytes.length : Int) ≤ q.maxFileSize ∧ q.Admits d root names false := by
    rw [inForce.admits_iff, Query.takesFile]
    simp only [Bool.and_eq_true, Bool.not_eq_true', decide_eq_true_eq]
    tauto
  rw [taken]
  exact ⟨fun ⟨included, small, admitted⟩ => ⟨there, included, small, admitted⟩,
    fun h => ⟨h.included, h.small, h.admitted⟩⟩

/-- What lies above an entry of a folder is the folder or lies above the folder. -/
theorem above_entry_iff {n : String} : (base <+: names ++ [n] ∧ base ≠ names ++ [n]) ↔
    base = names ∨ (base <+: names ∧ base ≠ names) := by
  rw [List.prefix_concat_iff]
  constructor
  · rintro ⟨rfl | above, below⟩
    · exact (below rfl).elim
    · exact or_iff_not_imp_left.mpr fun ne => ⟨above, ne⟩
  · intro h
    have above : base <+: names := h.elim (fun same => same ▸ List.prefix_refl _) And.left
    refine ⟨Or.inr above, ?_⟩
    rintro rfl
    exact absurd above.length_le (by simp)

/-- In a folder, the list of the folder joins the ones in force. -/
theorem InForce.join (inForce : InForce q d root names lists) {lists' : List Gitignore}
    (joined : ∀ g : Gitignore, g ∈ lists' ↔
      (q.respectGitignore = true ∧ g.base = names ∧ HasList d root names g.patterns) ∨ g ∈ lists)
    (n : String) : InForce q d root (names ++ [n]) lists' := by
  intro g
  rw [joined g, above_entry_iff, inForce g]
  constructor
  · rintro (⟨respected, rfl, has⟩ | ⟨respected, above, has⟩)
    · exact ⟨respected, Or.inl rfl, has⟩
    · exact ⟨respected, Or.inr above, has⟩
  · rintro ⟨respected, rfl | above, has⟩
    · exact Or.inl ⟨respected, rfl, has⟩
    · exact Or.inr ⟨respected, above, has⟩

/-- What a walk reads as the list of a folder is the file of that name in it. -/
theorem IsTree.listFile_iff (tree : IsTree d root) {es : List (String × Disk)}
    (there : d.at? (root ++ names) = some (.folder es)) (bytes : List UInt8) :
    d.fileFrom? linkLimit (root ++ names) [Gitignore.fileName] = some bytes ↔
      d.at? (root ++ (names ++ [Gitignore.fileName])) = some (.file bytes) := by
  rw [← List.append_assoc]
  refine fileFrom?_solid 39 there (by decide) fun t => ?_
  rw [List.append_assoc]
  exact tree.linkless _ t

/-- On the way into a folder the lists stay the ones in force. -/
theorem InForce.listsBelow (tree : IsTree d root)
    (accepted : q.respectGitignore = true → ListsAccepted d root)
    (inForce : InForce q d root names lists) {es : List (String × Disk)}
    (there : d.at? (root ++ names) = some (.folder es)) :
    ∃ lists', q.listsBelow d linkLimit (root ++ names) names lists = .ok lists' ∧
      ∀ n, InForce q d root (names ++ [n]) lists' := by
  unfold Query.listsBelow
  cases respected : q.respectGitignore with
  | false => exact ⟨lists, rfl, inForce.join fun g => by simp [respected]⟩
  | true =>
    rw [ofFolder?_eq]
    cases file : d.fileFrom? linkLimit (root ++ names) [Gitignore.fileName] with
    | none =>
      refine ⟨lists, rfl, inForce.join fun g => ?_⟩
      have nothing : ¬ HasList d root names g.patterns := by
        rintro ⟨bytes, listed, -⟩
        rw [← tree.listFile_iff there, file] at listed
        cases listed
      simp [nothing]
    | some bytes =>
      have listed := (tree.listFile_iff there bytes).mp file
      obtain ⟨patterns, read⟩ := accepted respected names bytes listed
      have has : HasList d root names patterns := ⟨bytes, listed, read⟩
      refine ⟨⟨names, patterns⟩ :: lists, ?_, inForce.join fun g => ?_⟩
      · simp only [read]
        rfl
      · rw [List.mem_cons]
        refine or_congr ⟨?_, ?_⟩ Iff.rfl
        · rintro rfl
          exact ⟨respected, rfl, has⟩
        · rintro ⟨-, rfl, has'⟩
          rw [has.unique has']

/-! ### Walks -/

/-- Nothing leaves out a folder on the way from `start` to the names. -/
def Query.Reaches (q : Query) (d : Disk) (root : Place) (start names : List String) : Prop :=
  ∀ above, start <+: above → above <+: names → above ≠ names → q.Admits d root above true

theorem Query.reaches_self : q.Reaches d root names names := by
  intro above onward back ne
  exact (ne (back.eq_of_length_le onward.length_le)).elim

theorem Query.reaches_cons {n : String} {tail : List String} :
    q.Reaches d root start (start ++ n :: tail) ↔
      q.Admits d root start true ∧ q.Reaches d root (start ++ [n]) (start ++ n :: tail) := by
  constructor
  · intro reaches
    refine ⟨reaches start (List.prefix_refl _) (List.prefix_append _ _) (by simp), ?_⟩
    exact fun above below => reaches above ((List.prefix_append _ _).trans below)
  · rintro ⟨admitted, further⟩ above ⟨rest, rfl⟩ way ne
    cases rest with
    | nil => simpa using admitted
    | cons m rest =>
      have same : m = n := (List.cons_prefix_cons.mp ((List.prefix_append_right_inj _).mp way)).1
      exact further _ ⟨rest, by simp [same]⟩ way ne

/-- What a walk from `start` on is to find. -/
structure Query.Finds (q : Query) (d : Disk) (root : Place) (start names : List String) :
    Prop where
  below : start <+: names
  wanted : ∃ bytes, q.Wants d root names bytes
  reached : q.Reaches d root start names

theorem Query.finds_file {bytes : List UInt8} (there : d.at? (root ++ start) = some (.file bytes)) :
    q.Finds d root start names ↔ names = start ∧ q.Wants d root start bytes := by
  constructor
  · rintro ⟨⟨tail, rfl⟩, ⟨bytes', wanted⟩, -⟩
    have stands := wanted.there
    rw [← List.append_assoc, at?_append, there, Option.bind_some] at stands
    obtain ⟨rfl, rfl⟩ := file_at? stands
    rw [List.append_nil] at wanted ⊢
    exact ⟨rfl, wanted⟩
  · rintro ⟨rfl, wanted⟩
    exact ⟨List.prefix_refl _, ⟨bytes, wanted⟩, Query.reaches_self⟩

/-- Below a folder that is not left out there is to be found what is to be found at its entries. -/
theorem Query.finds_folder {es : List (String × Disk)}
    (there : d.at? (root ++ start) = some (.folder es)) :
    q.Finds d root start names ↔
      q.Admits d root start true ∧ ∃ e ∈ es, q.Finds d root (start ++ [e.1]) names := by
  constructor
  · rintro ⟨⟨tail, rfl⟩, ⟨bytes, wanted⟩, reached⟩
    have stands := wanted.there
    rw [← List.append_assoc, at?_append, there, Option.bind_some] at stands
    obtain ⟨e, he, rest, rfl, -⟩ := folder_at?_file stands
    obtain ⟨admitted, further⟩ := Query.reaches_cons.mp reached
    exact ⟨admitted, e, he, ⟨rest, by simp⟩, ⟨bytes, wanted⟩, further⟩
  · rintro ⟨admitted, e, -, ⟨tail, rfl⟩, wanted, further⟩
    rw [List.append_assoc, List.singleton_append] at wanted further ⊢
    exact ⟨List.prefix_append _ _, wanted, Query.reaches_cons.mpr ⟨admitted, further⟩⟩

-- The induction is on what stands at the entry. A walk hands the lists it carries from a folder on
-- to each of its entries, so `InForce` is assumed at the entry and not of the walk as a whole.
mutual

/-- A walk at an entry of a tree finds what is to be found from the entry on. -/
theorem walkEntry_exact (tree : IsTree d root)
    (accepted : q.respectGitignore = true → ListsAccepted d root) {lists : List Gitignore}
    {names : List String} {n : String} (e : Disk)
    (inForce : InForce q d root (names ++ [n]) lists)
    (there : d.at? (root ++ (names ++ [n])) = some e) :
    ∃ found, walkEntry d q linkLimit (root ++ names) lists (names ++ [n]) e = .ok found ∧
      ∀ x, x ∈ found ↔ q.Finds d root (names ++ [n]) x := by
  match e with
  | .file bytes =>
    refine ⟨_, walkEntry_file bytes, fun x => ?_⟩
    rw [Query.finds_file there, ← inForce.takesFile_iff there]
    cases q.takesFile lists (names ++ [n]) bytes <;> simp
  | .link target => exact absurd there (tree.linkless _ target)
  | .folder es =>
    cases enters : q.entersFolder lists (names ++ [n]) with
    | false =>
      refine ⟨[], walkEntry_folder_ok.mpr (Or.inl ⟨enters, rfl⟩), fun x => ?_⟩
      rw [Query.finds_folder there, ← inForce.entersFolder_iff, enters]
      simp
    | true =>
      obtain ⟨lists', hlists, further⟩ := inForce.listsBelow tree accepted there
      obtain ⟨found, hfound, hexact⟩ := walkEntries_exact tree accepted es further fun c hc => by
        rw [← List.append_assoc, at?_concat, there]
        exact (tree.named.at? there).child? hc
      rw [← List.append_assoc] at hlists hfound
      refine ⟨found, walkEntry_folder_ok.mpr (Or.inr ⟨enters, lists', hlists, hfound⟩), fun x => ?_⟩
      rw [Query.finds_folder there, ← inForce.entersFolder_iff, hexact x]
      simp [enters]
termination_by sizeOf e

/-- A walk along entries of a folder finds what is to be found from one of them on. -/
theorem walkEntries_exact (tree : IsTree d root)
    (accepted : q.respectGitignore = true → ListsAccepted d root) {lists : List Gitignore}
    {names : List String} (es : List (String × Disk))
    (inForce : ∀ n, InForce q d root (names ++ [n]) lists)
    (there : ∀ e ∈ es, d.at? (root ++ (names ++ [e.1])) = some e.2) :
    ∃ found, walkEntries d q linkLimit (root ++ names) lists names es = .ok found ∧
      ∀ x, x ∈ found ↔ ∃ e ∈ es, q.Finds d root (names ++ [e.1]) x := by
  match es with
  | [] =>
    refine ⟨[], by rw [walkEntries], fun x => ?_⟩
    simp
  | (n, e) :: es =>
    obtain ⟨first, hfirst, exactFirst⟩ :=
      walkEntry_exact tree accepted e (inForce n) (there _ List.mem_cons_self)
    obtain ⟨rest, hrest, exactRest⟩ := walkEntries_exact tree accepted es inForce
      fun c hc => there c (List.mem_cons_of_mem _ hc)
    refine ⟨first ++ rest, walkEntries_cons_ok.mpr ⟨first, rest, hfirst, hrest, rfl⟩, fun x => ?_⟩
    simp [exactFirst x, exactRest x]
termination_by sizeOf es

end

end EnvCensus.Discovery
