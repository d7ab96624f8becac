import EnvCensus.Proofs.Script.Accesses
import EnvCensus.Script.Syntax

/-!
# Layout of environment objects

The tokens of `process.env` and of `import.meta.env` may have gaps between them.
An environment object is told by its text without spaces, so gaps of spaces
change nothing, and any other gap, a line break or a tab among them, hides the
object and every access to it. Gaps behind the object never matter.
-/

namespace EnvCensus.Script

/-- The text is that of the tokens, with the gaps between them. -/
inductive LaidOut : List (List Char) → List (List Char) → List Char → Prop
  | last (token : List Char) : LaidOut [token] [] token
  | next (token gap : List Char) {tokens gaps : List (List Char)} {text : List Char}
      (more : LaidOut tokens gaps text) :
      LaidOut (token :: tokens) (gap :: gaps) (token ++ gap ++ text)

/-- The environment objects by their tokens. -/
def objectTokens : List (Source × List (List Char)) :=
  [(.process, ["process", ".", "env"].map String.toList),
    (.importMeta, ["import", ".", "meta", ".", "env"].map String.toList)]

/-- The gaps are of spaces only. -/
def Spaced (gaps : List (List Char)) : Prop := ∀ gap ∈ gaps, ∀ c ∈ gap, c = ' '

variable {source : Source} {tokens gaps : List (List Char)} {text : List Char}

/-! ### Texts without spaces -/

def unspaced (text : List Char) : List Char := text.filter (· ≠ ' ')

@[simp] theorem unspaced_append (xs ys : List Char) :
    unspaced (xs ++ ys) = unspaced xs ++ unspaced ys :=
  List.filter_append _ _

theorem unspaced_eq_nil {gap : List Char} : unspaced gap = [] ↔ ∀ c ∈ gap, c = ' ' := by
  simp [unspaced, List.filter_eq_nil_iff]

theorem LaidOut.unspaced_eq (h : LaidOut tokens gaps text) (spaced : Spaced gaps) :
    unspaced text = unspaced tokens.flatten := by
  induction h with
  | last token => simp
  | next token gap more ih =>
    obtain ⟨first, others⟩ := List.forall_mem_cons.mp spaced
    rw [unspaced_append, unspaced_append, unspaced_eq_nil.mpr first, List.append_nil, ih others,
      List.flatten_cons, unspaced_append]

/-- Every character of a gap but the spaces is left over. -/
theorem LaidOut.length_unspaced (h : LaidOut tokens gaps text) :
    (unspaced text).length = (unspaced tokens.flatten).length + (unspaced gaps.flatten).length := by
  induction h with
  | last token => simp [unspaced]
  | next token gap more ih =>
    simp only [unspaced_append, List.length_append, List.flatten_cons, ih]
    omega

theorem LaidOut.unspaced_eq_iff (h : LaidOut tokens gaps text) :
    unspaced text = unspaced tokens.flatten ↔ Spaced gaps := by
  refine ⟨fun same => ?_, h.unspaced_eq⟩
  have lengths := h.length_unspaced
  rw [same] at lengths
  have none : unspaced gaps.flatten = [] := List.eq_nil_of_length_eq_zero (by omega)
  intro gap hgap c hc
  exact unspaced_eq_nil.mp none c (List.mem_flatten_of_mem hgap hc)

/-! ### Environment objects -/

/-- The texts that name environment objects. -/
theorem lookup_environmentRoots :
    environmentRoots.lookup text = some source ↔
      (source, text) ∈ objectTokens.map fun o => (o.1, unspaced o.2.flatten) := by
  generalize process : "process.env".toList = p
  generalize importMeta : "import.meta.env".toList = i
  have keys : (objectTokens.map fun o => (o.1, unspaced o.2.flatten)) =
      [(.process, p), (.importMeta, i)] := by
    rw [← process, ← importMeta]
    decide
  have other : p ≠ i := by
    rw [← process, ← importMeta]
    decide
  simp only [environmentRoots, process, importMeta, keys, List.lookup_cons, List.lookup_nil,
    List.mem_cons, Prod.mk.injEq, List.not_mem_nil, or_false]
  by_cases first : text = p
  · simp [first, other, eq_comm]
  · by_cases second : text = i
    · simp [second, beq_false_of_ne other.symm, other.symm, eq_comm]
    · simp [first, second, beq_false_of_ne first, beq_false_of_ne second]

theorem LaidOut.prefix_unspaced {token : List Char} (h : LaidOut (token :: tokens) gaps text) :
    unspaced token <+: unspaced text := by
  cases h with
  | last => exact List.prefix_refl _
  | next token gap more =>
    rw [unspaced_append, unspaced_append, List.append_assoc]
    exact List.prefix_append _ _

/-- The text of the tokens of an environment object names that object and no other, just when the
gaps are of spaces. -/
theorem lookup_laidOut (object : (source, tokens) ∈ objectTokens)
    (laid : LaidOut tokens gaps text) (named : Source) :
    environmentRoots.lookup (unspaced text) = some named ↔ named = source ∧ Spaced gaps := by
  rw [lookup_environmentRoots, ← laid.unspaced_eq_iff]
  simp only [objectTokens, List.map_cons, List.map_nil, List.mem_cons, Prod.mk.injEq,
    List.not_mem_nil, or_false] at object ⊢
  rcases object with ⟨rfl, rfl⟩ | ⟨rfl, rfl⟩
  · have other : unspaced text ≠
        unspaced
          ["import".toList, ".".toList, "meta".toList, ".".toList, "env".toList].flatten := by
      intro same
      have front := laid.prefix_unspaced
      rw [same] at front
      exact absurd front (by decide)
    simp only [other, and_false, or_false]
  · have other : unspaced text ≠ unspaced ["process".toList, ".".toList, "env".toList].flatten := by
      intro same
      have front := laid.prefix_unspaced
      rw [same] at front
      exact absurd front (by decide)
    simp only [other, and_false, false_or]

/-- However an environment object is laid out, it is seen just when its gaps are of spaces; then an
access to it shows its variable, guarded as it is, and else nothing. -/
theorem environmentObject_seen_iff {o : Tree} (object : (source, tokens) ∈ objectTokens)
    (member : o.kind = .memberExpression) (laid : LaidOut tokens gaps o.text) :
    (environmentSource o = some source ↔ Spaced gaps) ∧
    (environmentSource o = none ↔ ¬ Spaced gaps) ∧
    ∀ (r : Role) (name : String) (a : Tree), AccessTo o r name a → Name.Exact name →
      ∀ (above : List Tree) (context : Option String),
        (Spaced gaps → observe a above context = (guardOf a above).map fun g =>
          [⟨name, source, a.start, a.stop, g.guarded, g.default, context⟩]) ∧
        (¬ Spaced gaps → observe a above context = .ok []) := by
  have named : ∀ s, environmentSource o = some s ↔ s = source ∧ Spaced gaps := by
    intro s
    rw [environmentSource, if_pos member]
    exact lookup_laidOut object laid s
  have seen : environmentSource o = some source ↔ Spaced gaps := by simp [named]
  have hidden : environmentSource o = none ↔ ¬ Spaced gaps := by
    simp [Option.eq_none_iff_forall_ne_some, named]
  refine ⟨seen, hidden, fun r name a access exact above context => ?_⟩
  let x : Taking := ⟨name, none, exact, by simp, by simp⟩
  have shown := AccessTo.observe_eq (x := x) access above context
  refine ⟨fun spaced => ?_, fun broken => ?_⟩
  · rw [shown, seen.mpr spaced]
  · rw [shown, hidden.mpr broken]

/-- The tree of `process.env` with a gap behind its first token. -/
def processGapEnv (gap : List Char) : Tree :=
  .node .object .memberExpression
    [Spot.token ⟨[], ⟨0, 0⟩, ⟨0, 7⟩⟩ .object .identifier "process".toList,
      Spot.token ⟨gap, ⟨0, 7⟩, ⟨0, 8⟩⟩ .plain .mark ".".toList,
      Spot.token ⟨[], ⟨0, 8⟩, ⟨0, 11⟩⟩ .property .propertyIdentifier "env".toList]

theorem laidOut_processGapEnv (gap : List Char) :
    LaidOut (["process", ".", "env"].map String.toList) [gap, []] (processGapEnv gap).text := by
  have text : (processGapEnv gap).text =
      "process".toList ++ gap ++ (".".toList ++ [] ++ "env".toList) := by
    simp [processGapEnv, Spot.token, Tree.text, Tree.textAll, Tree.writtenAll, Tree.written]
  rw [text]
  exact .next _ _ (.next _ _ (.last _))

/-- Two spaces before the dot do no harm. -/
theorem processGapEnv_spaces_seen :
    (.process, ["process", ".", "env"].map String.toList) ∈ objectTokens ∧
    (processGapEnv "  ".toList).kind = .memberExpression ∧
    LaidOut (["process", ".", "env"].map String.toList) ["  ".toList, []]
      (processGapEnv "  ".toList).text ∧
    environmentSource (processGapEnv "  ".toList) = some .process := by
  have object : (.process, ["process", ".", "env"].map String.toList) ∈ objectTokens := by decide
  have spaced : Spaced ["  ".toList, []] := by
    intro gap hgap
    simp only [List.mem_cons, List.not_mem_nil, or_false] at hgap
    rcases hgap with rfl | rfl <;> simp
  have laid := laidOut_processGapEnv "  ".toList
  exact ⟨object, rfl, laid, (environmentObject_seen_iff object rfl laid).1.mpr spaced⟩

/-- A line break before the dot hides the object and the access to it; the same access is observed
where the line breaks behind the object. -/
theorem processGapEnv_brokenLine_hidden :
    LaidOut (["process", ".", "env"].map String.toList) ["\n  ".toList, []]
      (processGapEnv "\n  ".toList).text ∧
    environmentSource (processGapEnv "\n  ".toList) = none ∧
    (parse? .javascript "process\n  .env.KEY;\n".toList).map walk = some (.ok []) ∧
    (parse? .javascript "process.env\n  .KEY;\n".toList).map walk =
      some (.ok [⟨"KEY", .process, ⟨0, 0⟩, ⟨1, 6⟩, false, none, none⟩]) :=
  ⟨laidOut_processGapEnv _, by decide +kernel⟩

end EnvCensus.Script
