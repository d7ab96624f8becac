import EnvCensus.Pattern
import EnvCensus.Proofs.Except
import Mathlib.Data.List.TakeWhile

/-!
# Which line has the last word

A line of a pattern list has a verdict on the paths that its pattern applies
to: it selects them, or it turns them down when it is negated. Of a list, the
last line with a verdict decides.

A selection of files reads its lines as two lists, one about the names of files
and one about paths, and takes what either of them selects. That is what the
last of all the lines says, unless it turns down what the lines of the other
kind select.
-/

namespace EnvCensus

namespace Pattern

variable {judge judge' : String → Option Bool} {line path : String} {lines lines' : List String}
  {ps : List Pattern} {v w : Bool}

/-- What a line says of a path: whether it selects it or turns it down, when it is a pattern that
applies to it. -/
def verdict? (line path : String) : Option Bool :=
  match parse line with
  | .ok (some p) => if p.applies path then some (!p.negated) else none
  | _ => none

/-- Of the lines with a verdict, the last one has this verdict. -/
def LastVerdict (judge : String → Option Bool) (lines : List String) (v : Bool) : Prop :=
  ∃ before line after, lines = before ++ line :: after ∧ judge line = some v ∧
    ∀ l ∈ after, judge l = none

theorem lastVerdict_iff : LastVerdict judge lines v ↔ lines.reverse.findSome? judge = some v := by
  rw [List.findSome?_eq_some_iff]
  constructor
  · rintro ⟨before, line, after, rfl, said, silent⟩
    refine ⟨after.reverse, line, before.reverse, by simp, said, fun l hl => ?_⟩
    exact silent l (List.mem_reverse.mp hl)
  · rintro ⟨after, line, before, split, said, silent⟩
    refine ⟨before.reverse, line, after.reverse, ?_, said, fun l hl => ?_⟩
    · rw [← List.reverse_reverse lines, split]
      simp
    · exact silent l (List.mem_reverse.mp hl)

instance : Decidable (LastVerdict judge lines v) := decidable_of_iff _ lastVerdict_iff.symm

theorem LastVerdict.unique (h : LastVerdict judge lines v) (h' : LastVerdict judge lines w) :
    v = w :=
  Option.some.inj ((lastVerdict_iff.mp h).symm.trans (lastVerdict_iff.mp h'))

/-- Where a line has a verdict, there is a last one. -/
theorem exists_lastVerdict (there : line ∈ lines) (said : judge line = some v) :
    ∃ w, LastVerdict judge lines w := by
  simp only [lastVerdict_iff, ← Option.isSome_iff_exists, List.findSome?_isSome_iff]
  exact ⟨line, List.mem_reverse.mpr there, by simp [said]⟩

theorem LastVerdict.exists_mem (h : LastVerdict judge lines v) :
    ∃ line ∈ lines, judge line = some v := by
  obtain ⟨before, line, after, rfl, said, -⟩ := h
  exact ⟨line, by simp, said⟩

theorem LastVerdict.congr (same : ∀ l ∈ lines, judge l = judge' l) (h : LastVerdict judge lines v) :
    LastVerdict judge' lines v := by
  obtain ⟨before, line, after, rfl, said, silent⟩ := h
  refine ⟨before, line, after, rfl, ?_, fun l hl => ?_⟩
  · rw [← same line (by simp), said]
  · rw [← same l (by simp [hl]), silent l hl]

/-! ### Lists of patterns -/

theorem parseAll_cons_ok : parseAll (line :: lines) = .ok ps ↔
    ∃ p rest, parse line = .ok p ∧ parseAll lines = .ok rest ∧ ps = p.toList ++ rest := by
  unfold parseAll
  rw [List.mapM_cons]
  cases parse line with
  | error e => simp [bind, Except.bind]
  | ok p =>
    cases lines.mapM parse with
    | error e => simp [bind, Except.bind]
    | ok parsed => cases p <;> simp [bind, Except.bind, pure, Except.pure, eq_comm]

theorem parseAll_ok_iff : (∃ ps, parseAll lines = .ok ps) ↔
    ∀ line ∈ lines, ∃ p, parse line = .ok p := by
  rw [← mapM_ok_iff]
  exact bind_ok_iff fun parsed => ⟨_, rfl⟩

/-- The pattern that decides has the verdict of the last line that has one. -/
theorem findSome?_verdict? (read : parseAll lines = .ok ps) (path : String) :
    lines.reverse.findSome? (verdict? · path) =
      (ps.reverse.find? (·.applies path)).map fun p => !p.negated := by
  induction lines generalizing ps with
  | nil =>
    cases read
    rfl
  | cons line lines ih =>
    obtain ⟨p, rest, parsed, others, rfl⟩ := parseAll_cons_ok.mp read
    have here : verdict? line path =
        (p.toList.find? (·.applies path)).map fun p => !p.negated := by
      unfold verdict?
      rw [parsed]
      cases p with
      | none => rfl
      | some p => cases h : p.applies path <;> simp [h]
    have single : p.toList.reverse = p.toList := by cases p <;> rfl
    rw [List.reverse_cons, List.findSome?_append, ih others, List.findSome?_singleton, here,
      List.reverse_append, List.find?_append, Option.map_or, single]

/-- A list selects a path when the last line with a verdict on it does. -/
theorem selects_iff_lastVerdict (read : parseAll lines = .ok ps) (path : String) :
    selects ps path = true ↔ LastVerdict (verdict? · path) lines true := by
  rw [lastVerdict_iff, findSome?_verdict? read, selects]
  cases ps.reverse.find? (·.applies path) <;> simp

end Pattern

namespace Selection

open Pattern (LastVerdict lastVerdict_iff exists_lastVerdict)

variable {line path : String} {lines : List String} {s : Selection} {v : Bool}

/-- What a line says of a path: a line with a slash is about the path, one without about the name
of the file. -/
def verdict? (line path : String) : Option Bool :=
  Pattern.verdict? line (if '/' ∈ line.toList then path else fileName path)

/-- The lines that have a slash, or those that have none. -/
def ofKind (slashed : Bool) (lines : List String) : List String :=
  lines.filter fun l => decide ('/' ∈ l.toList) == slashed

theorem isPathLine_eq (line : String) : isPathLine line = decide ('/' ∈ line.toList) := by
  have marks : '/' ∉ line.toList.takeWhile (· == '!') := by
    intro h
    simpa using List.mem_takeWhile_imp h
  have split : '/' ∈ line.toList ↔ '/' ∈ line.toList.takeWhile (· == '!') ∨
      '/' ∈ line.toList.dropWhile (· == '!') := by
    rw [← List.mem_append, List.takeWhile_append_dropWhile]
  rw [isPathLine, Bool.eq_iff_iff, List.contains_iff_mem, decide_eq_true_iff, split,
    or_iff_right marks]

theorem ofLines_eq (lines : List String) : ofLines lines = do
    let names ← Pattern.parseAll (ofKind false lines)
    let paths ← Pattern.parseAll (ofKind true lines)
    return ⟨names, paths⟩ := by
  have names : (lines.filter fun l => !isPathLine l) = ofKind false lines :=
    List.filter_congr fun l _ => by rw [isPathLine_eq]; cases decide ('/' ∈ l.toList) <;> rfl
  have paths : lines.filter isPathLine = ofKind true lines :=
    List.filter_congr fun l _ => by rw [isPathLine_eq]; cases decide ('/' ∈ l.toList) <;> rfl
  rw [ofLines, names, paths]

theorem mem_ofKind {slashed : Bool} :
    line ∈ ofKind slashed lines ↔ line ∈ lines ∧ decide ('/' ∈ line.toList) = slashed := by
  simp [ofKind]

/-- A selection is made when no line is refused. -/
theorem ofLines_ok_iff : (∃ s, ofLines lines = .ok s) ↔
    ∀ line ∈ lines, ∃ p, Pattern.parse line = .ok p := by
  have kinds : (∀ line ∈ lines, ∃ p, Pattern.parse line = .ok p) ↔
      (∃ ps, Pattern.parseAll (ofKind false lines) = .ok ps) ∧
        ∃ ps, Pattern.parseAll (ofKind true lines) = .ok ps := by
    simp only [Pattern.parseAll_ok_iff, mem_ofKind]
    refine ⟨fun all => ⟨fun l hl => all l hl.1, fun l hl => all l hl.1⟩, ?_⟩
    intro ⟨names, paths⟩ l hl
    cases kind : decide ('/' ∈ l.toList) with
    | false => exact names l ⟨hl, kind⟩
    | true => exact paths l ⟨hl, kind⟩
  rw [kinds, ofLines_eq]
  cases Pattern.parseAll (ofKind false lines) with
  | error e => simp [bind, Except.bind]
  | ok names =>
    cases Pattern.parseAll (ofKind true lines) <;>
      simp [bind, Except.bind, pure, Except.pure]

/-- A selection takes a path when the last line of one of the kinds does. -/
theorem selects_iff (read : ofLines lines = .ok s) (path : String) :
    s.selects path = true ↔
      ∃ slashed, LastVerdict (verdict? · path) (ofKind slashed lines) true := by
  rw [ofLines_eq] at read
  obtain ⟨names, hnames, read⟩ := bind_eq_ok.mp read
  obtain ⟨paths, hpaths, read⟩ := bind_eq_ok.mp read
  cases read
  have about (slashed : Bool) : ∀ l ∈ ofKind slashed lines, verdict? l path =
      Pattern.verdict? l (if slashed then path else fileName path) := by
    intro l hl
    obtain ⟨-, rfl⟩ := mem_ofKind.mp hl
    simp [verdict?]
  have each (slashed : Bool) : LastVerdict (verdict? · path) (ofKind slashed lines) true ↔
      LastVerdict (Pattern.verdict? · (if slashed then path else fileName path))
        (ofKind slashed lines) true :=
    ⟨.congr (about slashed), .congr fun l hl => (about slashed l hl).symm⟩
  rw [selects, Bool.or_eq_true, Pattern.selects_iff_lastVerdict hnames,
    Pattern.selects_iff_lastVerdict hpaths, Bool.exists_bool, each, each]
  rfl

/-- The last of all lines is the last one of its kind. -/
theorem lastVerdict_ofKind {judge : String → Option Bool} (h : LastVerdict judge lines v) :
    ∃ slashed, LastVerdict judge (ofKind slashed lines) v := by
  obtain ⟨before, line, after, rfl, said, silent⟩ := h
  let slashed := decide ('/' ∈ line.toList)
  refine ⟨slashed, ofKind slashed before, line, ofKind slashed after, ?_, said, fun l hl => ?_⟩
  · simp [ofKind, slashed]
  · exact silent l (mem_ofKind.mp hl).1

/-- A selection takes a path when the last line with a slash, or the last one without, says so.
This is what the last of all lines says, unless that one turns the path down and the last one of
the other kind does not. -/
theorem selects_last_iff (accepted : ∀ line ∈ lines, ∃ p, Pattern.parse line = .ok p)
    (path : String) :
    ∃ s, ofLines lines = .ok s ∧
      (s.selects path = true ↔
        ∃ slashed, LastVerdict (verdict? · path) (ofKind slashed lines) true) ∧
      ((s.selects path = true ↔ LastVerdict (verdict? · path) lines true) ↔
        ¬ (LastVerdict (verdict? · path) lines false ∧
          ∃ slashed, LastVerdict (verdict? · path) (ofKind slashed lines) true)) := by
  obtain ⟨s, read⟩ := ofLines_ok_iff.mpr accepted
  refine ⟨s, read, selects_iff read path, ?_⟩
  rw [selects_iff read path]
  constructor
  · rintro agree ⟨turnedDown, taken⟩
    cases turnedDown.unique (agree.mp taken)
  · refine fun heard => ⟨fun taken => ?_, lastVerdict_ofKind⟩
    obtain ⟨slashed, ofOneKind⟩ := taken
    obtain ⟨line, hline, said⟩ := ofOneKind.exists_mem
    obtain ⟨last, decided⟩ : ∃ w, LastVerdict (verdict? · path) lines w :=
      exists_lastVerdict (mem_ofKind.mp hline).1 said
    cases last with
    | true => exact decided
    | false => exact absurd ⟨decided, slashed, ofOneKind⟩ heard

/-! ### Scripts that are not wanted -/

/-- Scripts, but no tests, wherever they are, and not one script at its path. -/
def unlessSkipped : List String := ["*.js", "!*.test.js", "!src/skip.js"]

theorem unlessSkipped_accepted : ∀ line ∈ unlessSkipped, ∃ p, Pattern.parse line = .ok p := by
  have read : (unlessSkipped.mapM Pattern.parse).isOk = true := by decide +kernel
  rw [← mapM_ok_iff]
  cases h : unlessSkipped.mapM Pattern.parse with
  | error e =>
    rw [h] at read
    cases read
  | ok parsed => exact ⟨parsed, rfl⟩

/-- A test is left out, as the last line for it says. -/
theorem selects_last_test : (∀ line ∈ unlessSkipped, ∃ p, Pattern.parse line = .ok p) ∧
    LastVerdict (verdict? · "src/app.test.js") unlessSkipped false ∧
    ∃ s, ofLines unlessSkipped = .ok s ∧ s.selects "src/app.test.js" = false := by
  have turnedDown : LastVerdict (verdict? · "src/app.test.js") unlessSkipped false := by
    decide +kernel
  refine ⟨unlessSkipped_accepted, turnedDown, ?_⟩
  obtain ⟨s, read, -, agree⟩ := selects_last_iff unlessSkipped_accepted "src/app.test.js"
  have heard : ¬ ∃ slashed, LastVerdict (verdict? · "src/app.test.js")
      (ofKind slashed unlessSkipped) true := by decide +kernel
  refine ⟨s, read, Bool.eq_false_iff.mpr fun taken => ?_⟩
  cases turnedDown.unique ((agree.mpr fun both => heard both.2).mp taken)

/-- The last line for the other script turns it down, and it is taken all the same. -/
theorem skipped_still_selected :
    LastVerdict (verdict? · "src/skip.js") unlessSkipped false ∧
    ∃ s, ofLines unlessSkipped = .ok s ∧ s.selects "src/skip.js" = true ∧
      ¬ (s.selects "src/skip.js" = true ↔
        LastVerdict (verdict? · "src/skip.js") unlessSkipped true) := by
  have turnedDown : LastVerdict (verdict? · "src/skip.js") unlessSkipped false := by
    decide +kernel
  obtain ⟨s, read⟩ := ofLines_ok_iff.mpr unlessSkipped_accepted
  have taken : s.selects "src/skip.js" = true := by
    refine (selects_iff read _).mpr ⟨false, ?_⟩
    decide +kernel
  refine ⟨turnedDown, s, read, taken, fun agree => ?_⟩
  cases turnedDown.unique (agree.mp taken)

end Selection

end EnvCensus
