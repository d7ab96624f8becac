import EnvCensus.Proofs.Distinct
import EnvCensus.Proofs.Except
import EnvCensus.Proofs.Finding
import EnvCensus.Proofs.Shell.Assignments
import EnvCensus.Proofs.Shell.References
import EnvCensus.Shell.Findings

/-!
# Findings of one script

The uses of a script are those of its lines. Every use is of an exact name and
stands in a column and on a line from one on.

A reference is kept or dropped by its own name and clause and by what the whole
script assigns. Each kept reference is recorded in the findings made so far, and
recording all of them one after the other gives what they give when they are
taken together: one finding for each name, with all the references of the name
in their order.
-/

namespace EnvCensus.Shell

/-! ### The uses of a script -/

/-- A use of an exact name at a place that is counted from one. -/
structure Use.Placed (u : Use) : Prop where
  name : Name.Exact u.reference.name
  line : 1 ≤ u.line
  column : 1 ≤ u.reference.column

theorem mem_usesOfLine {assigned : List String} {n : Nat} {line : List Char}
    {above : List (List Char)} {u : Use} : u ∈ usesOfLine assigned n line above ↔
      isCode line = true ∧ ∃ r ∈ references line, isUse assigned r = true ∧
        ⟨r, n, contextOf line above, String.ofList ((Text.trim line).take hintLength)⟩ = u := by
  unfold usesOfLine
  split
  · rename_i code
    simp only [code, true_and, List.mem_map, List.mem_filter, and_assoc]
  · rename_i comment
    simp [comment]

/-- The uses of a text are those of its lines. -/
theorem mem_usesFrom_iff {assigned : List String} {n : Nat} {above ls : List (List Char)}
    {u : Use} : u ∈ usesFrom assigned n above ls ↔
      ∃ k line, ls[k]? = some line ∧
        u ∈ usesOfLine assigned (n + k) line ((ls.take k).reverse ++ above) := by
  -- the lines above are held latest first, and each line that is passed joins them
  induction ls generalizing n above with
  | nil => simp [usesFrom]
  | cons l ls ih =>
    rw [usesFrom, List.mem_append, ih]
    constructor
    · rintro (h | ⟨k, line, at_k, h⟩)
      · exact ⟨0, l, rfl, h⟩
      · refine ⟨k + 1, line, at_k, ?_⟩
        rwa [List.take_succ_cons, List.reverse_cons, List.append_assoc, ← Nat.add_assoc,
          Nat.add_right_comm]
    · rintro ⟨k, line, at_k, h⟩
      cases k with
      | zero =>
        cases at_k
        exact Or.inl h
      | succ k =>
        refine Or.inr ⟨k, line, at_k, ?_⟩
        rwa [List.take_succ_cons, List.reverse_cons, List.append_assoc, ← Nat.add_assoc,
          Nat.add_right_comm] at h

/-- A use is a reference on the line that it names. -/
theorem mem_usesFrom {assigned : List String} {n : Nat} {above ls : List (List Char)} {u : Use}
    (h : u ∈ usesFrom assigned n above ls) :
    ∃ k line, ls[k]? = some line ∧ u.line = n + k ∧ u.reference ∈ references line := by
  obtain ⟨k, line, at_k, mem⟩ := mem_usesFrom_iff.mp h
  obtain ⟨-, r, hr, -, rfl⟩ := mem_usesOfLine.mp mem
  exact ⟨k, line, at_k, rfl, hr⟩

theorem usesFrom_placed (assigned : List String) {n : Nat} (hn : 1 ≤ n)
    (above lines : List (List Char)) : ∀ u ∈ usesFrom assigned n above lines, u.Placed := by
  intro u hu
  obtain ⟨k, line, -, number, mem⟩ := mem_usesFrom hu
  obtain ⟨before, form, after, stands⟩ := exists_stands mem
  exact ⟨stands.exact, by omega, by rw [stands.column]; omega⟩

theorem uses_placed (content : String) : ∀ u ∈ uses content, u.Placed :=
  usesFrom_placed _ (Nat.le_refl 1) [] _

/-! ### The references that are kept -/

variable {here path content name : String} {options : Options} {us group : List Use} {u v : Use}
  {r : Reference} {assigned : List String} {line : List Char} {above lines : List (List Char)}

/-- The use is a reference on the line with the index, and it is kept. The line is neither blank nor
a comment, blanks at its ends apart; the name is none of the shell's own; and there is a fallback
clause, or no line of the script assigns or declares the name. -/
structure Kept (lines : List (List Char)) (k : Nat) (line : List Char) (u : Use) : Prop where
  stands : lines[k]? = some line
  code : ∃ c rest, Text.trim line = c :: rest ∧ c ≠ '#'
  refers : u.reference ∈ references line
  foreign : u.reference.name ∉ ownNames
  free : u.reference.fallback ≠ none ∨ ∀ l ∈ lines, ¬ Sets u.reference.name l
  number : u.line = k + 1
  context : u.context = contextOf line (lines.take k).reverse
  hint : u.hint = String.ofList ((Text.trim line).take hintLength)

theorem isUse_iff : isUse assigned r = true ↔
    r.name ∉ ownNames ∧ (r.fallback ≠ none ∨ r.name ∉ assigned) := by
  simp [isUse, Option.isSome_iff_ne_none]

theorem not_mem_assignedNames (h : r ∈ references line) :
    r.name ∉ assignedNames lines ↔ ∀ l ∈ lines, ¬ Sets r.name l := by
  obtain ⟨before, form, after, stands⟩ := exists_stands h
  rw [mem_assignedNames]
  simp [stands.exact]

theorem mem_uses_iff : u ∈ uses content ↔ ∃ k line, Kept (Text.lines content.toList) k line u := by
  rw [uses, mem_usesFrom_iff]
  simp only [List.append_nil, mem_usesOfLine, isCode_iff, isUse_iff]
  constructor
  · rintro ⟨k, line, stands, code, r, refers, ⟨foreign, free⟩, rfl⟩
    rw [not_mem_assignedNames refers] at free
    exact ⟨k, line, stands, code, refers, foreign, free, Nat.add_comm 1 k, rfl, rfl⟩
  · rintro ⟨k, line, kept⟩
    have free := kept.free
    rw [← not_mem_assignedNames kept.refers] at free
    refine ⟨k, line, kept.stands, kept.code, u.reference, kept.refers, ⟨kept.foreign, free⟩, ?_⟩
    rw [Nat.add_comm 1 k, ← kept.number, ← kept.context, ← kept.hint]

/-- The use stands before the other one in the text. -/
def Use.Before (u v : Use) : Prop :=
  u.line < v.line ∨ u.line = v.line ∧ u.reference.column < v.reference.column

theorem usesOfLine_pairwise (assigned : List String) (n : Nat) (line : List Char)
    (above : List (List Char)) : (usesOfLine assigned n line above).Pairwise Use.Before := by
  have columns := (scans_references line).pairwise.imp Reference.EndsBefore.column_lt
  unfold usesOfLine
  split
  · refine List.pairwise_map.mpr ((columns.filter _).imp fun sooner => ?_)
    exact Or.inr ⟨rfl, sooner⟩
  · exact .nil

theorem usesFrom_pairwise (assigned : List String) (n : Nat) (above ls : List (List Char)) :
    (usesFrom assigned n above ls).Pairwise Use.Before := by
  induction ls generalizing n above with
  | nil => exact .nil
  | cons l ls ih =>
    refine List.pairwise_append.mpr ⟨usesOfLine_pairwise assigned n l above, ih _ _, ?_⟩
    intro u hu v hv
    obtain ⟨-, r, -, -, rfl⟩ := mem_usesOfLine.mp hu
    obtain ⟨k, -, -, number, -⟩ := mem_usesFrom hv
    exact Or.inl (by simp only; omega)

theorem uses_pairwise (content : String) : (uses content).Pairwise Use.Before :=
  usesFrom_pairwise _ _ _ _

/-! ### One finding for each name -/

/-- The reference that is recorded for the use. -/
def Use.ref (here path : String) (u : Use) : FileRef :=
  ⟨Path.absolute here path, u.line, u.reference.column, some u.context, some u.hint⟩

/-- The uses of the name. -/
def usesOf (name : String) (us : List Use) : List Use := us.filter fun u => u.reference.name == name

/-- The finding for all uses of a name. -/
def gathered (here path : String) (options : Options) (name : String) (group : List Use) :
    Finding where
  name := name
  source := .shell
  files := group.map (Use.ref here path)
  required := group.all fun u => !u.reference.fallback.isSome
  defaultValue := group.findSome? fun u => nonEmpty u.reference.fallback
  isPublic := Name.isPublic name options.publicPrefixes
  notes := []

theorem firstFinding_eq (valid : Name.isValid u.reference.name = true) :
    firstFinding options u (u.ref here path) =
      .ok (gathered here path options u.reference.name [u]) := by
  rw [firstFinding, Finding.make_eq_ok (List.cons_ne_nil _ _) valid]
  simp [gathered]

theorem nonEmpty_findSome? (group : List Use) :
    nonEmpty (group.findSome? fun u => nonEmpty u.reference.fallback) =
      group.findSome? fun u => nonEmpty u.reference.fallback := by
  cases h : group.findSome? fun u => nonEmpty u.reference.fallback with
  | none => rfl
  | some text =>
    obtain ⟨u, -, found⟩ := List.exists_of_findSome?_eq_some h
    exact Option.filter_some_pos (Option.filter_eq_some_iff.mp found).2

theorem furtherFinding_eq (valid : Name.isValid name = true) :
    furtherFinding (gathered here path options name group) u (u.ref here path) =
      .ok (gathered here path options name (group ++ [u])) := by
  have named : Name.isValid (gathered here path options name group).name = true := valid
  rw [furtherFinding, Finding.make_eq_ok (by simp) named]
  simp [gathered, nonEmpty_findSome?, List.findSome?_append]

theorem usesOf_append_self (us : List Use) (u : Use) :
    usesOf u.reference.name (us ++ [u]) = usesOf u.reference.name us ++ [u] := by
  simp [usesOf]

theorem usesOf_append_other (us : List Use) (other : name ≠ u.reference.name) :
    usesOf name (us ++ [u]) = usesOf name us := by
  simp [usesOf, Ne.symm other]

/-- One more use is taken up by the finding of its name, which is made when it is the first. -/
theorem record_gathered (valid : Name.isValid u.reference.name = true) {names : List String}
    (once : names.Nodup)
    (known : u.reference.name ∈ us.map (·.reference.name) → u.reference.name ∈ names)
    (valids : ∀ name ∈ names, Name.isValid name = true) :
    record options u (u.ref here path)
        (names.map fun name => gathered here path options name (usesOf name us)) =
      .ok ((names ++ if u.reference.name ∈ names then [] else [u.reference.name]).map fun name =>
        gathered here path options name (usesOf name (us ++ [u]))) := by
  -- along the findings made so far: that of the name grows, and the others are passed unchanged
  induction names with
  | nil =>
    have first : usesOf u.reference.name us = [] := by
      refine List.filter_eq_nil_iff.mpr fun v hv same => ?_
      exact List.not_mem_nil (known (List.mem_map.mpr ⟨v, hv, by simpa using same⟩))
    simp only [List.map_nil, record, firstFinding_eq valid, List.not_mem_nil, if_false,
      List.nil_append, List.map_cons, usesOf_append_self, first]
    rfl
  | cons name names ih =>
    obtain ⟨fresh, once⟩ := List.nodup_cons.mp once
    obtain ⟨first, others⟩ := List.forall_mem_cons.mp valids
    by_cases same : name = u.reference.name
    · have rest : ∀ other ∈ names, gathered here path options other (usesOf other us) =
          gathered here path options other (usesOf other (us ++ [u])) := by
        intro other mem
        rw [usesOf_append_other us fun e => fresh (same.trans e.symm ▸ mem)]
      subst same
      rw [List.map_cons, record, if_pos (by simp [gathered]), furtherFinding_eq valid,
        List.map_congr_left rest, ← usesOf_append_self]
      simp
    · have later : u.reference.name ∈ us.map (·.reference.name) → u.reference.name ∈ names :=
        fun mem => (List.mem_cons.mp (known mem)).resolve_left (Ne.symm same)
      rw [List.map_cons, record, if_neg (by simpa [gathered] using same), ih once later others,
        ← usesOf_append_other us same]
      simp [Ne.symm same]

/-- The findings for all uses, taken together. -/
def batch (here path : String) (options : Options) (us : List Use) : List Finding :=
  (distinctBy id (us.map (·.reference.name))).map fun name =>
    gathered here path options name (usesOf name us)

theorem record_batch (valid : ∀ v ∈ us ++ [u], Name.isValid v.reference.name = true) :
    record options u (u.ref here path) (batch here path options us) =
      .ok (batch here path options (us ++ [u])) := by
  have names : distinctBy id ((us ++ [u]).map (·.reference.name)) =
      distinctBy id (us.map (·.reference.name)) ++
        if u.reference.name ∈ distinctBy id (us.map (·.reference.name)) then []
        else [u.reference.name] := by
    simp only [List.map_append, List.map_cons, List.map_nil, distinctBy_id_concat,
      mem_distinctBy_id]
  rw [batch, batch, names]
  refine record_gathered (valid u (by simp)) (nodup_distinctBy_id _) mem_distinctBy_id.mpr ?_
  intro name mem
  obtain ⟨v, hv, rfl⟩ := List.mem_map.mp (mem_distinctBy_id.mp mem)
  exact valid v (List.mem_append_left _ hv)

/-- Recording the uses one after the other gives their findings. -/
theorem foldlM_batch (seen : List Use) (placed : ∀ u ∈ seen ++ us, u.Placed) :
    us.foldlM (fun found u => do
        let ref ← Failure.ofRange
          (FileRef.make here path u.line u.reference.column (some u.context) (some u.hint))
        Failure.ofBreach (record options u ref found)) (batch here path options seen) =
      .ok (batch here path options (seen ++ us)) := by
  induction us generalizing seen with
  | nil => simp; rfl
  | cons u us ih =>
    have here_u := placed u (by simp)
    -- the findings so far are those of the uses seen, and recording one use gives those of one more
    have valid : ∀ v ∈ seen ++ [u], Name.isValid v.reference.name = true := by
      intro v hv
      refine (placed v ?_).name.isValid
      rw [List.append_cons]
      exact List.mem_append_left us hv
    rw [List.foldlM_cons, FileRef.make_counted here path _ _ here_u.line here_u.column]
    show Failure.ofBreach (record options u (u.ref here path) _) >>= _ = _
    rw [record_batch valid]
    have next := ih (seen ++ [u]) (by simpa using placed)
    rwa [List.append_assoc] at next

theorem scan_eq_batch (here content path : String) (options : Options) :
    scan here content path options = .ok (batch here path options (uses content)) :=
  foldlM_batch [] (uses_placed content)

/-- What is found is made of the uses of a name that is used. -/
theorem mem_scan {found : List Finding} (h : scan here content path options = .ok found)
    {f : Finding} (hf : f ∈ found) :
    ∃ u ∈ uses content, f = gathered here path options u.reference.name
      (usesOf u.reference.name (uses content)) := by
  rw [scan_eq_batch] at h
  cases h
  obtain ⟨name, mem, rfl⟩ := List.mem_map.mp hf
  obtain ⟨u, hu, rfl⟩ := List.mem_map.mp (mem_distinctBy_id.mp mem)
  exact ⟨u, hu, rfl⟩

/-- Reading a shell script never fails, and what is found has a name and a reference. -/
theorem scan_ends (here content path : String) (options : Options) :
    Ends (fun _ => False) (fun found => ∀ f ∈ found, f.Valid)
      (scan here content path options) := by
  have total := scan_eq_batch here content path options
  rw [total]
  refine .ok fun f hf => ?_
  obtain ⟨u, hu, rfl⟩ := mem_scan total hf
  have mem : u ∈ usesOf u.reference.name (uses content) := List.mem_filter.mpr ⟨hu, by simp⟩
  exact ⟨List.ne_nil_of_mem (List.mem_map_of_mem mem), (uses_placed content u hu).name.isValid⟩

/-- What the finding of a name takes from the uses of the name: their places, each once, and the
first fallback that is not empty. One use with a fallback makes the variable optional. -/
structure Gathers (here path : String) (options : Options) (group : List Use) (f : Finding) :
    Prop where
  source : f.source = .shell
  files : f.files = group.map (Use.ref here path)
  places : (f.files.map fun r => (r.line, r.column)).Nodup
  required : f.required = true ↔ ∀ u ∈ group, u.reference.fallback = none
  defaultValue : f.defaultValue = (group.filterMap (·.reference.fallback)).find? (· ≠ "")
  isPublic : f.isPublic = Name.isPublic f.name options.publicPrefixes
  notes : f.notes = []

/-- The findings of a script: one for each name among the uses, in the order of first uses, each
with all uses of its name, in their order, and with no others. -/
structure Groups (here path : String) (options : Options) (us : List Use) (found : List Finding) :
    Prop where
  names : found.map (·.name) = (us.map (·.reference.name)).eraseDups
  each : ∀ f ∈ found, Gathers here path options (usesOf f.name us) f

theorem gathered_gathers (ordered : group.Pairwise Use.Before) :
    Gathers here path options group (gathered here path options name group) where
  source := rfl
  files := rfl
  places := by
    simp only [gathered, List.map_map]
    refine List.pairwise_map.mpr (ordered.imp fun before same => ?_)
    obtain ⟨line, column⟩ := Prod.mk.inj same
    simp only [Use.ref, Use.Before] at before line column
    omega
  required := by simp [gathered]
  defaultValue := findSome?_filter _ _ group
  isPublic := rfl
  notes := rfl

theorem batch_groups (ordered : us.Pairwise Use.Before) :
    Groups here path options us (batch here path options us) where
  names := by
    have named : (·.name) ∘ (fun name => gathered here path options name (usesOf name us)) = id :=
      rfl
    rw [batch, List.map_map, named, List.map_id, distinctBy_eq_eraseDupsBy]
    rfl
  each := by
    intro f hf
    obtain ⟨name, -, rfl⟩ := List.mem_map.mp hf
    exact gathered_gathers (ordered.filter _)

/-- Reading a script gives one finding for each name among the references that are kept, which are
listed in the order of the text. -/
theorem scan_groups (here content path : String) (options : Options) :
    ∃ kept found, (∀ u, u ∈ kept ↔ ∃ k line, Kept (Text.lines content.toList) k line u) ∧
      kept.Pairwise Use.Before ∧ scan here content path options = .ok found ∧
      Groups here path options kept found :=
  ⟨uses content, batch here path options (uses content), fun _ => mem_uses_iff,
    uses_pairwise content, scan_eq_batch here content path options,
    batch_groups (uses_pairwise content)⟩

end EnvCensus.Shell
