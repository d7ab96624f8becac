import EnvCensus.Proofs.Discovery.Queries
import EnvCensus.Proofs.Distinct
import EnvCensus.Proofs.Selection
import Mathlib.Data.List.Induction

/-!
# Lines that are repeated

Of lines that are repeated, a discovery keeps the first one, while the last line
with a verdict on a path decides. So a line that is repeated behind one with the
other verdict counts for nothing, and a discovery is what it would be with every
line as often as it is listed just when no such repetition decides about a file
or a folder.
-/

namespace EnvCensus

namespace Pattern

variable {judge : String → Option Bool} {lines : List String} {l : String} {v : Bool}
  {fault : Fault}

/-- Of the lines with a verdict, the last one that has not stood before has this verdict. -/
def LastNewVerdict (judge : String → Option Bool) (lines : List String) (v : Bool) : Prop :=
  ∃ before line after, lines = before ++ line :: after ∧ line ∉ before ∧ judge line = some v ∧
    ∀ l ∈ after, judge l = none ∨ l ∈ before ∨ l = line

theorem lastVerdict_concat : LastVerdict judge (lines ++ [l]) v ↔
    judge l = some v ∨ (judge l = none ∧ LastVerdict judge lines v) := by
  rw [lastVerdict_iff, lastVerdict_iff, List.reverse_concat, List.findSome?_cons]
  cases judge l <;> simp

theorem lastNewVerdict_concat : LastNewVerdict judge (lines ++ [l]) v ↔
    (l ∉ lines ∧ judge l = some v) ∨
      ((judge l = none ∨ l ∈ lines) ∧ LastNewVerdict judge lines v) := by
  constructor
  · rintro ⟨before, line, after, split, new, said, silent⟩
    -- the deciding line is the one at the end, or it decided before that one came
    rcases List.eq_nil_or_concat' after with rfl | ⟨after, last, rfl⟩
    · obtain ⟨rfl, same⟩ := List.append_inj' split rfl
      obtain rfl := List.singleton_inj.mp same
      exact Or.inl ⟨new, said⟩
    · have longer : before ++ line :: (after ++ [last]) = before ++ line :: after ++ [last] := by
        simp
      rw [longer] at split
      obtain ⟨rfl, same⟩ := List.append_inj' split rfl
      obtain rfl := List.singleton_inj.mp same
      refine Or.inr ⟨(silent l (by simp)).imp_right fun known => ?_, ?_⟩
      · rcases known with known | rfl
        · exact List.mem_append_left _ known
        · simp
      · exact ⟨before, line, after, rfl, new, said, fun l hl => silent l (by simp [hl])⟩
  · rintro (⟨new, said⟩ | ⟨quiet, before, line, after, rfl, new, said, silent⟩)
    · exact ⟨lines, l, [], rfl, new, said, by simp⟩
    · refine ⟨before, line, after ++ [l], by simp, new, said, ?_⟩
      refine List.forall_mem_append.mpr ⟨silent, List.forall_mem_singleton.mpr ?_⟩
      rcases quiet with quiet | known
      · exact Or.inl quiet
      · rcases List.mem_append.mp known with known | known
        · exact Or.inr (Or.inl known)
        · rcases List.mem_cons.mp known with rfl | known
          · exact Or.inr (Or.inr rfl)
          · exact silent l known

/-- Where only first occurrences are kept, the last one of them with a verdict decides. -/
theorem lastVerdict_distinct :
    LastVerdict judge (distinctBy id lines) v ↔ LastNewVerdict judge lines v := by
  induction lines using List.reverseRecOn with
  | nil =>
    constructor
    · rintro ⟨before, line, after, split, -⟩
      simp [distinctBy] at split
    · rintro ⟨before, line, after, split, -⟩
      simp at split
  | append_singleton lines l ih =>
    rw [distinctBy_id_concat, lastNewVerdict_concat]
    by_cases known : l ∈ lines
    · rw [if_pos known, List.append_nil, ih]
      simp [known]
    · rw [if_neg known, lastVerdict_concat, ih]
      simp [known]

theorem parseAll_concat : parseAll (lines ++ [l]) = do
    let ps ← parseAll lines
    let p ← parse l
    return ps ++ p.toList := by
  unfold parseAll
  rw [List.mapM_append, List.mapM_cons, List.mapM_nil]
  cases lines.mapM parse with
  | error _ => rfl
  | ok parsed =>
    cases parse l with
    | error _ => rfl
    | ok p => cases p <;> simp [ok_bind, pure, Except.pure]

/-- A line that has been refused before is not looked at again. -/
theorem parseAll_distinct (lines : List String) :
    FailAlike (parseAll (distinctBy id lines)) (parseAll lines) := by
  induction lines using List.reverseRecOn with
  | nil => exact fun _ => Iff.rfl
  | append_singleton lines l ih =>
    rw [distinctBy_id_concat, parseAll_concat]
    by_cases known : l ∈ lines
    · rw [if_pos known, List.append_nil]
      rcases ih.cases_on with ⟨fault, first, whole⟩ | ⟨ps', ps, first, whole⟩
      · rw [first, whole]
        exact fun _ => Iff.rfl
      · obtain ⟨p, read⟩ := parseAll_ok_iff.mp ⟨ps, whole⟩ l known
        rw [first, whole, read]
        exact fun _ => iff_of_false nofun nofun
    · rw [if_neg known, parseAll_concat]
      exact ih.both (fun _ => Iff.rfl) fun ps (p : Option Pattern) => ps ++ p.toList

end Pattern

namespace Selection

variable {lines : List String} {fault : Pattern.Fault}

theorem ofKind_distinct (slashed : Bool) (lines : List String) :
    ofKind slashed (distinctBy id lines) = distinctBy id (ofKind slashed lines) :=
  (distinctBy_filter (fun l : String => decide ('/' ∈ l.toList) == slashed) lines).symm

theorem ofLines_distinct (lines : List String) :
    FailAlike (ofLines (distinctBy id lines)) (ofLines lines) := by
  rw [ofLines_eq, ofLines_eq, ofKind_distinct, ofKind_distinct]
  exact (Pattern.parseAll_distinct _).both (Pattern.parseAll_distinct _) Selection.mk

end Selection

namespace Discovery

open Disk
open Pattern (LastVerdict LastNewVerdict)

variable {q : Query} {options : Options} {included excluded names base : List String}
  {n : String} {furtherInclude furtherExclude : List String}

/-! ### What lines say of names -/

/-- No folder at the names or above them is turned down by what the reading makes of the lines. -/
def LinesClear (reading : (String → Option Bool) → List String → Bool → Prop)
    (excluded names : List String) : Prop :=
  ∀ above, above <+: names → above ≠ [] →
    ¬ reading (Pattern.verdict? · (Gitignore.pathText above true)) excluded true

/-- The reading of the lines includes the file of this name in the folder at the names, and leaves
out neither the file nor a folder above it. -/
def LinesPick (reading : (String → Option Bool) → List String → Bool → Prop)
    (included excluded base : List String) (n : String) : Prop :=
  (∃ slashed, reading (Selection.verdict? · (Gitignore.pathText (base ++ [n]) false))
    (Selection.ofKind slashed included) true) ∧
  ¬ reading (Pattern.verdict? · (Gitignore.pathText (base ++ [n]) false)) excluded true ∧
  LinesClear reading excluded base

/-- The query takes paths as the reading of the lines says. -/
structure Query.Reads (q : Query)
    (reading : (String → Option Bool) → List String → Bool → Prop)
    (included excluded : List String) : Prop where
  included : ∀ path, q.included.selects path = true ↔
    ∃ slashed, reading (Selection.verdict? · path) (Selection.ofKind slashed included) true
  excluded : ∀ path, Pattern.selects q.excluded path = true ↔
    reading (Pattern.verdict? · path) excluded true

section

variable {reading : (String → Option Bool) → List String → Bool → Prop}

theorem Query.Reads.clears (reads : q.Reads reading included excluded) :
    q.Clears names ↔ LinesClear reading excluded names := by
  unfold Query.Clears LinesClear
  simp only [← reads.excluded, Bool.not_eq_true]

theorem Query.Reads.picks (reads : q.Reads reading included excluded) :
    q.Picks base n ↔ LinesPick reading included excluded base n := by
  unfold Query.Picks LinesPick
  rw [reads.clears, reads.included, ← reads.excluded, Bool.not_eq_true]

end

/-- What is read from lines without repetition is what is read from their first occurrences. -/
theorem Query.Reads.distinct
    (reads : q.Reads LastVerdict (distinctBy id included) (distinctBy id excluded)) :
    q.Reads LastNewVerdict included excluded where
  included path := by
    simp only [reads.included, Selection.ofKind_distinct, Pattern.lastVerdict_distinct]
  excluded path := by rw [reads.excluded, Pattern.lastVerdict_distinct]

/-! ### Queries of lines -/

/-- The query for lines as they are listed, with the settings of the options. -/
def Query.ofLines (options : Options) (included excluded : List String) :
    Except Failure Query := do
  let included ← (Selection.ofLines included).mapError Failure.pattern
  let excluded ← (Pattern.parseAll excluded).mapError Failure.pattern
  return ⟨included, excluded, options.respectGitignore, options.followSymlinks,
    options.maxFileSize⟩

theorem Query.make_eq (options : Options) (furtherInclude furtherExclude : List String) :
    Query.make options furtherInclude furtherExclude =
      Query.ofLines options (distinctBy id (options.includePatterns ++ furtherInclude))
        (distinctBy id (options.excludePatterns ++ furtherExclude)) := rfl

theorem Query.ofLines_ok_iff : (∃ q, Query.ofLines options included excluded = .ok q) ↔
    ∀ line ∈ included ++ excluded, ∃ p, Pattern.parse line = .ok p := by
  rw [List.forall_mem_append, ← Selection.ofLines_ok_iff, ← Pattern.parseAll_ok_iff]
  constructor
  · rintro ⟨q, h⟩
    obtain ⟨selection, names, h⟩ := bind_eq_ok.mp h
    obtain ⟨patterns, others, -⟩ := bind_eq_ok.mp h
    exact ⟨⟨_, mapError_eq_ok.mp names⟩, ⟨_, mapError_eq_ok.mp others⟩⟩
  · rintro ⟨⟨selection, names⟩, ⟨patterns, others⟩⟩
    rw [Query.ofLines, names, others]
    exact ⟨_, rfl⟩

theorem Query.ofLines_distinct (options : Options) (included excluded : List String) :
    FailAlike (Query.ofLines options (distinctBy id included) (distinctBy id excluded))
      (Query.ofLines options included excluded) :=
  ((Selection.ofLines_distinct included).mapError Failure.pattern).both
    ((Pattern.parseAll_distinct excluded).mapError Failure.pattern)
    fun included excluded => Query.mk included excluded options.respectGitignore
      options.followSymlinks options.maxFileSize

/-- What a query of lines takes, and its settings. -/
theorem Query.ofLines_spec (h : Query.ofLines options included excluded = .ok q) :
    q.Reads LastVerdict included excluded ∧ q.respectGitignore = options.respectGitignore ∧
      q.followSymlinks = options.followSymlinks ∧ q.maxFileSize = options.maxFileSize := by
  obtain ⟨selection, names, h⟩ := bind_eq_ok.mp h
  obtain ⟨patterns, others, h⟩ := bind_eq_ok.mp h
  cases h
  exact ⟨⟨Selection.selects_iff (mapError_eq_ok.mp names),
    Pattern.selects_iff_lastVerdict (mapError_eq_ok.mp others)⟩, rfl, rfl, rfl⟩

/-! ### Discoveries -/

/-- The files of a directory when every line counts as often as it is listed. -/
def filesAsListed (d : Disk) (here : Place) (directory : String) (options : Options)
    (furtherInclude furtherExclude : List String) : Except Failure (List String) :=
  filesBy d here directory (Query.ofLines options (options.includePatterns ++ furtherInclude)
    (options.excludePatterns ++ furtherExclude))

/-- Repeated lines can be dropped, on every disk, just when a line is refused, or else when the last
line with a verdict and the last new one say the same of every folder, as far as lists are read,
and of every file, if any is small enough. -/
theorem files_asListed_iff (options : Options) (furtherInclude furtherExclude : List String) :
    (∀ d, Named d → ∀ here directory,
      files d here directory options furtherInclude furtherExclude =
        filesAsListed d here directory options furtherInclude furtherExclude) ↔
    ((∀ line ∈ (options.includePatterns ++ furtherInclude) ++
        (options.excludePatterns ++ furtherExclude), ∃ p, Pattern.parse line = .ok p) →
      (options.respectGitignore = true → ∀ names, (∀ n ∈ names, Path.Proper n) →
        (LinesClear LastNewVerdict (options.excludePatterns ++ furtherExclude) names ↔
          LinesClear LastVerdict (options.excludePatterns ++ furtherExclude) names)) ∧
      (0 ≤ options.maxFileSize → ∀ base n, (∀ m ∈ base ++ [n], Path.Proper m) →
        (LinesPick LastNewVerdict (options.includePatterns ++ furtherInclude)
            (options.excludePatterns ++ furtherExclude) base n ↔
          LinesPick LastVerdict (options.includePatterns ++ furtherInclude)
            (options.excludePatterns ++ furtherExclude) base n))) := by
  simp only [files_eq_filesBy, Query.make_eq, filesAsListed]
  generalize options.includePatterns ++ furtherInclude = included
  generalize options.excludePatterns ++ furtherExclude = excluded
  rcases (Query.ofLines_distinct options included excluded).cases_on with
    ⟨f, made, listed⟩ | ⟨q, q', made, listed⟩
  · refine iff_of_true (fun d _ here directory => by rw [made, listed]) fun accepted => ?_
    obtain ⟨q, given⟩ := Query.ofLines_ok_iff.mpr accepted
    rw [listed] at given
    cases given
  · have accepted := Query.ofLines_ok_iff.mp ⟨q', listed⟩
    obtain ⟨reads, gitignore, symlinks, size⟩ := Query.ofLines_spec made
    obtain ⟨reads', gitignore', symlinks', size'⟩ := Query.ofLines_spec listed
    have respect := gitignore.trans gitignore'.symm
    have follow := symlinks.trans symlinks'.symm
    have room := size.trans size'.symm
    simp only [made, listed, filesBy_alike_iff respect follow room, ← gitignore, ← size,
      ← reads.distinct.clears, ← reads.distinct.picks, ← reads'.clears, ← reads'.picks]
    exact ⟨fun agree _ => ⟨agree.clears, agree.picks⟩,
      fun same => ⟨respect, follow, room, (same accepted).1, (same accepted).2⟩⟩

/-! ### A folder that is left out again -/

/-- Scripts are looked for; what has been built is left out, and then it is not. -/
def reopenedOptions : Options :=
  { includePatterns := ["*.js"], excludePatterns := ["dist/", "!dist/"] }

/-- The query for scripts, except for what these patterns leave out. -/
def scriptQuery (excluded : List Pattern) : Query where
  included := ⟨[⟨false, .above :: .run :: ".js".toList.map .char, .segment⟩], []⟩
  excluded := excluded
  respectGitignore := true
  followSymlinks := false
  maxFileSize := defaultMaxFileSize

/-- What the line for built files is read as, or the line that takes it back. -/
def distPattern (negated : Bool) : Pattern := ⟨negated, .above :: "dist".toList.map .char, .below⟩

/-- A script that is left out by a line beside those of the options is found all the same, because
the options have that line too, before they take it back. -/
theorem reopened_still_found :
    ∃ paths paths',
      files (single ["dist"] "app.js" []) [] "/" reopenedOptions [] ["dist/"] = .ok paths ∧
      filesAsListed (single ["dist"] "app.js" []) [] "/" reopenedOptions [] ["dist/"] =
        .ok paths' ∧
      pathOf ["dist", "app.js"] ∈ paths ∧ pathOf ["dist", "app.js"] ∉ paths' := by
  have scripts : Selection.ofLines ["*.js"] = .ok (scriptQuery []).included := by decide +kernel
  have once : Pattern.parseAll ["dist/", "!dist/"] = .ok [distPattern false, distPattern true] := by
    decide +kernel
  have again : Pattern.parseAll ["dist/", "!dist/", "dist/"] =
      .ok [distPattern false, distPattern true, distPattern false] := by decide +kernel
  have made : Query.make reopenedOptions [] ["dist/"] =
      .ok (scriptQuery [distPattern false, distPattern true]) := by
    have kept : distinctBy id ["dist/", "!dist/", "dist/"] = ["dist/", "!dist/"] := by
      decide
    have same : distinctBy id ["*.js"] = ["*.js"] := rfl
    change Query.ofLines reopenedOptions (distinctBy id ["*.js"])
      (distinctBy id ["dist/", "!dist/", "dist/"]) = _
    rw [kept, same, Query.ofLines, scripts, once]
    rfl
  have listed : Query.ofLines reopenedOptions ["*.js"] ["dist/", "!dist/", "dist/"] =
      .ok (scriptQuery [distPattern false, distPattern true, distPattern false]) := by
    rw [Query.ofLines, scripts, again]
    rfl
  have proper : ∀ m ∈ ["dist"] ++ ["app.js"], Path.Proper m := by decide
  obtain ⟨paths, given, mine⟩ := filesBy_single
    (q := scriptQuery [distPattern false, distPattern true]) proper
  obtain ⟨paths', given', other⟩ := filesBy_single
    (q := scriptQuery [distPattern false, distPattern true, distPattern false]) proper
  have clear : (scriptQuery [distPattern false, distPattern true]).Clears ([] ++ ["dist"]) :=
    Query.clears_concat.mpr ⟨by decide, Query.clears_nil⟩
  refine ⟨paths, paths', ?_, ?_, mine.mpr ⟨⟨?_, ?_, clear⟩, ?_⟩, fun found => ?_⟩
  · rw [files_eq_filesBy, made, given]
  · exact (congrArg (filesBy _ [] "/") listed).trans given'
  · decide
  · decide
  · decide
  · exact absurd (other.mp found).1.2.1 (by decide)

end Discovery

end EnvCensus
