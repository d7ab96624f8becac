import EnvCensus.Proofs.Manifest.Items

/-!
# Workflows

A workflow has an environment, and so has each of its jobs and each step of a
job. They are read one after the other, and every entry with a valid name is a
finding at its own place. What is no mapping has no entries, what is no list has no
steps, and neither has a say in what stands beside it: a step keeps its number
whatever the steps before it are.
-/

namespace EnvCensus.Manifest

variable {here path : String} {options : Options} {document : Value} {env : List (Value × Value)}

/-! ### Environments -/

/-- The entries with valid names, each with its place among all entries, from one. -/
def placedEntries (entries : List (Value × Value)) : List ((Value × Value) × Nat) :=
  (entries.mapIdx fun i e => (e, i + 1)).filter fun e => Name.isValid e.1.1.display

/-- An environment in a workflow, with what is said of its place. -/
structure Block where
  context : String
  hint : Option String
  entries : List (Value × Value)

/-- The finding of an entry at a place. -/
def Block.findingAt (here path : String) (options : Options) (b : Block)
    (e : (Value × Value) × Nat) : Finding where
  name := e.1.1.display
  source := .gha
  files := [⟨Path.absolute here path, e.2, 1, some b.context, b.hint⟩]
  required := false
  defaultValue := nonEmpty (scalarText e.1.2)
  isPublic := Name.isPublic e.1.1.display options.publicPrefixes

/-- What is found in an environment, in the order of its entries. -/
def Block.found (here path : String) (options : Options) (b : Block) : List Finding :=
  (placedEntries b.entries).map (b.findingAt here path options)

/-- The environment of the `n`-th step of a job. -/
def stepBlock (job : String) (n : Nat) (step : Value) : Block where
  context := s!"Job: {job}, Step: {n}"
  hint := if (step.field "name").isEmpty then none else some (step.field "name").display
  entries := (step.field "env").entriesOf

/-- The environment of a job and those of its steps. -/
def jobBlocks (j : Value × Value) : List Block :=
  if j.2.isMap then
    ⟨s!"Job: {j.1.display}", none, (j.2.field "env").entriesOf⟩ ::
      (stepsOf j.2).mapIdx fun i step => stepBlock j.1.display (i + 1) step
  else []

/-- All environments of a workflow, its own one first. -/
def workflowBlocks (document : Value) : List Block :=
  ⟨"Workflow environment", none, (document.field "env").entriesOf⟩ ::
    (document.field "jobs").entriesOf.flatMap jobBlocks

/-! ### Findings -/

theorem placed_entryDeclarations (entries : List (Value × Value)) :
    placed (entries.map entryDeclaration) =
      (placedEntries entries).map fun e => (entryDeclaration e.1, e.2) := by
  have places : (entries.map entryDeclaration).mapIdx (fun i d => (d, i + 1)) =
      (entries.mapIdx fun i e => (e, i + 1)).map fun e => (entryDeclaration e.1, e.2) :=
    List.ext_getElem (by simp) fun i _ _ => by simp
  rw [placed, places, List.filter_map]
  rfl

/-- An environment is found as it is, once what has to be written out of it has been. -/
theorem blockFindings_eq (b : Block) :
    blockFindings here path options b.context b.hint b.entries = (do
      writeOut (b.entries.flatMap writtenEntry)
      return b.found here path options) := by
  have each : (placed (b.entries.map entryDeclaration)).mapM
      (findingOf here path options .gha false b.context b.hint) =
        .ok (b.found here path options) := by
    rw [placed_entryDeclarations, List.mapM_map]
    refine mapM_eq_map fun e he => ?_
    obtain ⟨valid, line⟩ := placed_valid (b.entries.map entryDeclaration)
      (entryDeclaration e.1, e.2) (placed_entryDeclarations _ ▸ List.mem_map_of_mem he)
    exact findingOf_eq_ok valid line
  rw [blockFindings, each]
  rfl

theorem blockFindings_eq_ok (here path : String) (options : Options) (b : Block)
    (h : ∀ v ∈ b.entries.flatMap writtenEntry, v.isWritable = true) :
    blockFindings here path options b.context b.hint b.entries =
      .ok (b.found here path options) := by
  rw [blockFindings_eq, writeOut_eq_ok h]
  rfl

theorem stepFindings_eq_ok (job : String) (n : Nat) (step : Value)
    (h : ∀ v ∈ writtenStep step, v.isWritable = true) :
    stepFindings here path options job n step =
      .ok ((stepBlock job n step).found here path options) := by
  obtain ⟨named, entries⟩ := List.forall_mem_append.mp h
  have block := blockFindings_eq_ok here path options (stepBlock job n step) entries
  have hint : ((some (step.field "name")).filter fun v => !v.isEmpty).map Value.display =
      (stepBlock job n step).hint := by
    cases empty : (step.field "name").isEmpty <;> simp [stepBlock, empty, Option.filter]
  rw [stepFindings, stepName_eq, writeOut_eq_ok named, ok_bind, hint]
  exact block

/-- The steps of a job are read one after the other, each with its number. -/
theorem mapM_stepFindings_eq_ok (job : String) (steps : List Value)
    (h : ∀ v ∈ steps.flatMap writtenStep, v.isWritable = true) :
    ((steps.mapIdx fun i s => (i + 1, s)).mapM fun (n, s) =>
        stepFindings here path options job n s) =
      .ok ((steps.mapIdx fun i s => stepBlock job (i + 1) s).map
        (Block.found here path options)) := by
  have blocks : (steps.mapIdx fun i s => stepBlock job (i + 1) s) =
      (steps.mapIdx fun i s => (i + 1, s)).map fun e => stepBlock job e.1 e.2 :=
    List.ext_getElem (by simp) fun i _ _ => by simp
  rw [blocks, List.map_map]
  refine mapM_eq_map fun e he => stepFindings_eq_ok job e.1 e.2 fun v hv => h v ?_
  obtain ⟨i, hi, rfl⟩ := List.mem_mapIdx.mp he
  exact List.mem_flatMap.mpr ⟨steps[i], List.getElem_mem hi, hv⟩

theorem jobFindings_eq_ok (j : Value × Value) (h : ∀ v ∈ writtenJob j, v.isWritable = true) :
    jobFindings here path options j =
      .ok ((jobBlocks j).flatMap (Block.found here path options)) := by
  cases isMap : j.2.isMap with
  | false =>
    rw [jobFindings, jobBlocks, isMap]
    rfl
  | true =>
    rw [writtenJob, if_pos isMap, List.cons_append, List.forall_mem_cons,
      List.forall_mem_append] at h
    obtain ⟨name, own, steps⟩ := h
    have block := blockFindings_eq_ok here path options
      ⟨s!"Job: {j.1.display}", none, (j.2.field "env").entriesOf⟩ own
    rw [jobFindings_eq _ _ _ isMap, writeOut_eq_ok (List.forall_mem_singleton.mpr name), ok_bind,
      block, ok_bind, mapM_stepFindings_eq_ok _ _ steps, ok_bind, jobBlocks, if_pos isMap,
      List.flatMap_cons]
    rfl

theorem decode_workflow (mapping : document.isMap = true) (other : isComposePath path = false)
    (under : isWorkflowPath path = true) : decode path document =
      .workflow (document.field "env").entriesOf (document.field "jobs").entriesOf := by
  rw [decode, mapping, other, under]
  rfl

/-- A workflow is found just when all that has to be written out of it can be; what is found is then
exactly what its environments hold, in their order. -/
theorem workflow_found_iff (here : String) (options : Options) (mapping : document.isMap = true)
    (other : isComposePath path = false) (under : isWorkflowPath path = true) :
    findings here path options (decode path document) =
        .ok ((workflowBlocks document).flatMap (Block.found here path options)) ↔
      ∀ v ∈ written (decode path document), v.isWritable = true := by
  constructor
  · intro read
    exact (Ends.result (findings_writes here path options _) read).1
  · intro h
    rw [decode_workflow mapping other under] at h ⊢
    obtain ⟨own, jobs⟩ := List.forall_mem_append.mp h
    have each : (document.field "jobs").entriesOf.mapM (jobFindings here path options) =
        .ok ((document.field "jobs").entriesOf.map fun j =>
          (jobBlocks j).flatMap (Block.found here path options)) :=
      mapM_eq_map fun j hj => jobFindings_eq_ok j fun v hv =>
        jobs v (List.mem_flatMap.mpr ⟨j, hj, hv⟩)
    have block := blockFindings_eq_ok here path options
      ⟨"Workflow environment", none, (document.field "env").entriesOf⟩ own
    rw [findings, block, ok_bind, each, ok_bind, workflowBlocks, List.flatMap_cons,
      List.flatMap_assoc]
    rfl

/-- A workflow with jobs and steps of the wrong shapes among the others. -/
def nightly : Value := .map
  [(.text "env", .map [(.text "CI", .bool true), (.text "9LIVES", .int 9), (.text "EMPTY", .null)]),
    (.text "jobs", .map
      [(.text "lint", .text "none"),
        (.text "docs", .map [(.text "env", .list [.text "A"]), (.text "steps", .text "none")]),
        (.text "test", .map
          [(.text "steps", .list
            [.text "checkout",
              .map [(.text "name", .text "Run"),
                (.text "env", .map [(.text "MODE", .text "full")])],
              .map [(.text "env", .map [(.text "LEVEL", .int 3)])]])])])]

/-- Nothing that has a right shape is lost, and steps count as they stand. -/
theorem nightly_found :
    nightly.isMap = true ∧ isComposePath "/workflows/ci.yml" = false ∧
    isWorkflowPath "/workflows/ci.yml" = true ∧
    ∃ found, findings "/" "/workflows/ci.yml" {} (decode "/workflows/ci.yml" nightly) = .ok found ∧
      found.map (fun f =>
          (f.name, f.defaultValue, f.files.map fun r => (r.line, r.context, r.hint))) =
        [("CI", some "true", [(1, some "Workflow environment", none)]),
          ("EMPTY", none, [(3, some "Workflow environment", none)]),
          ("MODE", some "full", [(1, some "Job: test, Step: 2", some "Run")]),
          ("LEVEL", some "3", [(1, some "Job: test, Step: 3", none)])] := by
  have other : isComposePath "/workflows/ci.yml" = false := by decide +kernel
  have under : isWorkflowPath "/workflows/ci.yml" = true := by decide +kernel
  have short : ∀ v ∈ written (decode "/workflows/ci.yml" nightly), v.isWritable = true := by
    decide +kernel
  exact ⟨rfl, other, under, _, (workflow_found_iff "/" {} rfl other under).mpr short,
    by decide +kernel⟩

/-- A workflow whose environment gives one variable an integer with too many digits. -/
def longWorkflow : Value :=
  .map [(.text "env", .map [(.text "CI", .bool true), (.text "SEED", hexadecimal 100)])]

/-- Two variables have values, and nothing is found. -/
theorem longWorkflow_ends :
    ((workflowBlocks longWorkflow).flatMap (Block.found "/" "/workflows/ci.yml" {})).map (·.name) =
      ["CI", "SEED"] ∧
    ∃ text, findings "/" "/workflows/ci.yml" {} (decode "/workflows/ci.yml" longWorkflow) =
      .error (.scalar (.tooManyDigits text)) := by
  have decoded : decode "/workflows/ci.yml" longWorkflow =
      .workflow [(.text "CI", .bool true), (.text "SEED", hexadecimal 100)] [] :=
    decode_workflow rfl (by decide +kernel) (by decide +kernel)
  have held : hexadecimal 100 ∈ writtenEntry (.text "SEED", hexadecimal 100) := by
    rw [writtenEntry, if_pos (by decide +kernel)]
    exact List.mem_cons_of_mem _ List.mem_cons_self
  rw [decoded]
  refine ⟨by decide +kernel, Writes.fails (findings_writes "/" "/workflows/ci.yml" {} _)
    (List.mem_append_left _ (List.mem_flatMap.mpr ⟨_, ?_, held⟩)) ?_⟩
  · exact List.mem_cons_of_mem _ List.mem_cons_self
  · exact hexadecimal_isWritable (by decide)

end EnvCensus.Manifest
