import EnvCensus.Proofs.Path
import EnvCensus.Provider
import Mathlib.Data.List.Infix

/-!
# Names that the default patterns cover

Which files a discovery takes and which of them a provider handles is written
down twice: as patterns, which tell capital letters from small ones, and as
suffixes and names, which the providers compare without regard to case. So a
name that some provider handles is selected by default when it is spelled as it
is listed, and left out when it is not.
-/

namespace EnvCensus

namespace Pattern

variable {cs tail : List Char} {e : Ending} {ps : List Piece} {name text : String}

/-! ### Patterns of one segment -/

theorem tailsAfterSlash_eq_nil (h : '/' ∉ cs) : tailsAfterSlash cs = [] := by
  induction cs with
  | nil => rfl
  | cons c cs ih =>
    rw [List.mem_cons, not_or] at h
    have other : (c == '/') = false := beq_false_of_ne (Ne.symm h.1)
    rw [tailsAfterSlash, other, ih h.2]
    simp

theorem accepts_above (h : '/' ∉ cs) : accepts e (.above :: ps) cs = accepts e ps cs := by
  cases cs with
  | nil => simp [accepts, Piece.leaves]
  | cons c cs =>
    have none := tailsAfterSlash_eq_nil (List.not_mem_of_not_mem_cons h)
    simp [accepts, Piece.leaves, none]

theorem accepts_chars (chars : List Char) :
    accepts e (chars.map .char ++ ps) cs = true ↔
      ∃ rest, cs = chars ++ rest ∧ accepts e ps rest = true := by
  induction chars generalizing cs with
  | nil => simp
  | cons d chars ih =>
    cases cs with
    | nil => simp [accepts, Piece.leaves]
    | cons c cs =>
      by_cases same : c = d
      · subst same
        simp [accepts, Piece.leaves, ih]
      · simp [accepts, Piece.leaves, same]

theorem mem_tailsWithinSegment (h : '/' ∉ cs) : tail ∈ tailsWithinSegment cs ↔ tail <:+ cs := by
  induction cs with
  | nil => simp [tailsWithinSegment]
  | cons c cs ih =>
    rw [List.mem_cons, not_or] at h
    have other : (c == '/') = false := beq_false_of_ne (Ne.symm h.1)
    rw [tailsWithinSegment, other, List.suffix_cons_iff, ← ih h.2]
    simp

theorem accepts_run (h : '/' ∉ cs) : accepts e (.run :: ps) cs = true ↔
    ∃ tail, tail <:+ cs ∧ accepts e ps tail = true := by
  simp only [accepts, Piece.leaves, List.any_eq_true, mem_tailsWithinSegment h]

theorem accepts_segment (h : '/' ∉ cs) :
    accepts .segment [] cs = true ↔ cs = [] ∨ cs = ['\n'] := by
  have ahead : cs.head? ≠ some '/' := fun first => h (List.mem_of_head? first)
  simp [accepts, Ending.accepts, ahead]

/-- What a text stands for at the end of a pattern: itself, with one more line feed or without. -/
theorem accepts_text (h : '/' ∉ cs) (chars : List Char) :
    accepts .segment (chars.map .char) cs = true ↔ cs = chars ∨ cs = chars ++ ['\n'] := by
  rw [← List.append_nil (chars.map Piece.char), accepts_chars]
  constructor
  · rintro ⟨rest, rfl, ended⟩
    rcases (accepts_segment fun slash => h (List.mem_append_right _ slash)).mp ended with rfl | rfl
    · exact Or.inl (List.append_nil _)
    · exact Or.inr rfl
  · rintro (rfl | fed)
    · exact ⟨[], by simp, rfl⟩
    · exact ⟨_, fed, rfl⟩

/-- The pattern for one name. -/
def ofName (text : String) : Pattern := ⟨false, .above :: text.toList.map .char, .segment⟩

/-- The pattern for names that end in a text. -/
def ofEnding (text : String) : Pattern :=
  ⟨false, .above :: .run :: text.toList.map .char, .segment⟩

/-- The pattern for names that begin with a text. -/
def ofBeginning (text : String) : Pattern :=
  ⟨false, .above :: (text.toList.map .char ++ [.run]), .segment⟩

section

variable (h : '/' ∉ name.toList)
include h

theorem applies_iff_accepts (p : Pattern) :
    p.applies name = true ↔ accepts p.ending p.pieces name.toList = true := by
  have same : viewed name.toList = name.toList := by
    unfold viewed
    split
    · rename_i first
      exact absurd (first ▸ List.mem_cons_self) h
    · rename_i first
      exact absurd (first ▸ List.mem_cons_of_mem _ List.mem_cons_self) h
    · rfl
  rw [applies, same]

theorem ofName_applies : (ofName text).applies name = true ↔
    name.toList = text.toList ∨ name.toList = text.toList ++ ['\n'] := by
  rw [applies_iff_accepts h, ofName, accepts_above h, accepts_text h]

theorem ofEnding_applies : (ofEnding text).applies name = true ↔
    text.toList <:+ name.toList ∨ text.toList ++ ['\n'] <:+ name.toList := by
  rw [applies_iff_accepts h, ofEnding, accepts_above h, accepts_run h]
  constructor
  · rintro ⟨tail, back, accepted⟩
    rcases (accepts_text (fun slash => h (back.subset slash)) _).mp accepted with rfl | rfl
    · exact Or.inl back
    · exact Or.inr back
  · rintro (back | back)
    · exact ⟨_, back, (accepts_text (fun slash => h (back.subset slash)) _).mpr (Or.inl rfl)⟩
    · exact ⟨_, back, (accepts_text (fun slash => h (back.subset slash)) _).mpr (Or.inr rfl)⟩

theorem ofBeginning_applies : (ofBeginning text).applies name = true ↔
    text.toList <+: name.toList := by
  rw [applies_iff_accepts h, ofBeginning, accepts_above h, accepts_chars]
  constructor
  · rintro ⟨rest, split, -⟩
    exact ⟨rest, split.symm⟩
  · rintro ⟨rest, split⟩
    refine ⟨rest, split.symm, (accepts_run fun slash => h ?_).mpr ⟨[], List.nil_suffix, rfl⟩⟩
    exact split ▸ List.mem_append_right _ slash

end

/-- Where no pattern is negated, a list selects what one of its patterns applies to. -/
theorem selects_iff_exists {patterns : List Pattern} {path : String}
    (plain : ∀ p ∈ patterns, p.negated = false) :
    selects patterns path = true ↔ ∃ p ∈ patterns, p.applies path = true := by
  unfold selects
  cases decided : patterns.reverse.find? fun p => p.applies path with
  | none =>
    refine iff_of_false nofun ?_
    rintro ⟨p, hp, applied⟩
    exact List.find?_eq_none.mp decided p (List.mem_reverse.mpr hp) applied
  | some p =>
    have hp := List.mem_reverse.mp (List.mem_of_find?_eq_some decided)
    exact iff_of_true (by simp [plain p hp]) ⟨p, hp, by simpa using List.find?_some decided⟩

end Pattern

/-! ### Suffixes of names -/

namespace Path

theorem suffixOf_suffix (cs : List Char) : suffixOf cs <:+ cs := by
  have split := List.takeWhile_append_dropWhile (p := (· ≠ '.')) (l := cs.reverse)
  have stop := List.head?_dropWhile_not (· ≠ '.') cs.reverse
  unfold suffixOf
  generalize cs.reverse.takeWhile (· ≠ '.') = tail at split ⊢
  dsimp only
  split_ifs with dotted
  · cases rest : cs.reverse.dropWhile (· ≠ '.') with
    | nil =>
      rw [rest, List.append_nil] at split
      rw [split] at dotted
      simp only [List.length_reverse, Bool.and_eq_true, decide_eq_true_eq] at dotted
      omega
    | cons d more =>
      rw [rest] at split stop
      obtain rfl : d = '.' := by simpa using stop
      have whole := congrArg List.reverse split
      exact ⟨more.reverse, by simpa using whole⟩
  · exact List.nil_suffix

/-- What stands behind something and has its only dot in front is the suffix. -/
theorem suffixOf_append {stem tail : List Char} (something : stem ≠ []) (more : tail ≠ [])
    (only : '.' ∉ tail) : suffixOf (stem ++ '.' :: tail) = '.' :: tail := by
  have back : (stem ++ '.' :: tail).reverse = tail.reverse ++ '.' :: stem.reverse := by simp
  have plain : ∀ c ∈ tail.reverse, decide (c ≠ '.') = true := by
    intro c hc
    rw [decide_eq_true_iff]
    rintro rfl
    exact only (List.mem_reverse.mp hc)
  have last : (stem ++ '.' :: tail).reverse.takeWhile (· ≠ '.') = tail.reverse := by
    rw [back, List.takeWhile_append_of_pos plain, List.takeWhile_cons_of_neg (by simp),
      List.append_nil]
  have room := List.length_pos_iff.mpr something
  rw [suffixOf, last, List.reverse_reverse, if_pos]
  simp only [List.length_reverse, List.length_append, List.length_cons, Bool.and_eq_true,
    decide_eq_true_eq, ne_eq, List.reverse_eq_nil_iff]
  exact ⟨by omega, more⟩

end Path

namespace Provider

variable {name : String}

/-- The suffixes of scripts, component files and manifests. -/
def suffixes : List String := Script.extensions ++ Manifest.extensions ++ Shell.extensions

/-- What the default patterns are read as: one for each suffix and each name that a provider
knows. -/
def defaultNames : List Pattern :=
  suffixes.map Pattern.ofEnding ++ Shell.fileNames.map Pattern.ofName ++
    [.ofName ".env", .ofBeginning ".env.", .ofEnding ".env", .ofName "env", .ofName "environment",
      .ofName "package.json"]

theorem ofLines_default : Selection.ofLines defaultIncludePatterns = .ok ⟨defaultNames, []⟩ := by
  decide +kernel

theorem default_selects_iff (proper : Path.Proper name) :
    Selection.selects ⟨defaultNames, []⟩ name = true ↔
      ∃ p ∈ defaultNames, p.applies name = true := by
  have plain : ∀ p ∈ defaultNames, p.negated = false := by decide
  have itself : Selection.fileName name = name := by
    rw [Selection.fileName, Path.slashPieces_of_no_slash proper.no_slash]
    exact String.ofList_toList
  have none : Pattern.selects [] name = false := rfl
  rw [Selection.selects, itself, none, Bool.or_false, Pattern.selects_iff_exists plain]

theorem handled_iff : (∃ p ∈ Registry.standard.providers, p.handles name = true) ↔
    Script.handles name = true ∨ Dotenv.handles name = true ∨ Manifest.handles name = true ∨
      Shell.handles name = true := by
  simp [Registry.standard, builtIn, script, dotenv, manifest, shell, ofReading]

/-! ### Names that are handled -/

/-- The suffix of the name, or the name of a start-up file, is known when its case is left out of
account. -/
def Known (name : String) : Prop :=
  Text.lowerAscii (Path.parse name).suffix ∈ suffixes ∨ Text.lowerAscii name ∈ Shell.fileNames

theorem parse_name (proper : Path.Proper name) : (Path.parse name).name = name := by
  rw [Path.parse_proper proper]
  rfl

theorem suffix_toList (proper : Path.Proper name) :
    (Path.parse name).suffix.toList = Path.suffixOf name.toList := by
  rw [Path.suffix, parse_name proper, String.toList_ofList]

/-- A name that is handled, and not as that of a declaration file, is known. -/
theorem known_of_handled (proper : Path.Proper name)
    (handled : ∃ p ∈ Registry.standard.providers, p.handles name = true)
    (other : ¬ Dotenv.handles name = true) : Known name := by
  unfold Known suffixes
  rcases handled_iff.mp handled with script | dotenv | manifest | shell
  · simp only [Script.handles, Bool.and_eq_true, List.contains_iff_mem] at script
    simp [script.2]
  · exact (other dotenv).elim
  · simp only [Manifest.handles, List.contains_iff_mem] at manifest
    simp [manifest]
  · simp only [Shell.handles, Bool.or_eq_true, List.contains_iff_mem, parse_name proper] at shell
    rcases shell with suffix | whole
    · simp [suffix]
    · exact Or.inr whole

theorem lowerAscii_toList (text : String) :
    (Text.lowerAscii text).toList = text.toList.map Char.toLower := String.toList_ofList

/-- A known name has no line feed at its end. -/
theorem Known.unfed (known : Known name) (proper : Path.Proper name) (text : List Char) :
    ¬ text ++ ['\n'] <:+ name.toList := by
  have ending : ∃ tail word, tail <:+ name.toList ∧ word ∈ suffixes ++ Shell.fileNames ∧
      tail.map Char.toLower = word.toList := by
    rcases known with suffix | whole
    · refine ⟨_, _, Path.suffixOf_suffix _, List.mem_append_left _ suffix, ?_⟩
      rw [lowerAscii_toList, suffix_toList proper]
    · exact ⟨_, _, List.suffix_refl _, List.mem_append_right _ whole, (lowerAscii_toList _).symm⟩
  obtain ⟨tail, word, back, listed, folded⟩ := ending
  have words : ∀ word ∈ suffixes ++ Shell.fileNames, word.toList ≠ [] ∧ '\n' ∉ word.toList := by
    decide
  obtain ⟨nonempty, unfed⟩ := words word listed
  rintro fed
  have last : ['\n'] <:+ tail := by
    refine List.suffix_of_suffix_length_le ((List.suffix_append _ _).trans fed) back ?_
    rw [← folded] at nonempty
    exact List.length_pos_iff.mpr fun none => nonempty (by rw [none]; rfl)
  refine unfed (folded ▸ ?_)
  exact List.mem_map_of_mem (f := Char.toLower) (last.subset (List.mem_singleton_self _))

/-- A known name is not that of a declaration file, unless it is one all the same. -/
theorem Known.not_env (known : Known name) (proper : Path.Proper name)
    (other : ¬ Dotenv.handles name = true) : ¬ ".env".toList <:+ name.toList := by
  rintro ⟨stem, split⟩
  by_cases something : stem = []
  · subst something
    have same : ".env" = name := String.toList_inj.mp split
    rw [← same] at other
    exact other (by decide)
  rcases known with suffix | whole
  · have tail : Path.suffixOf name.toList = ".env".toList := by
      rw [← split]
      exact Path.suffixOf_append something (by decide) (by decide)
    have same : (Path.parse name).suffix = ".env" :=
      String.toList_inj.mp ((suffix_toList proper).trans tail)
    rw [same] at suffix
    exact absurd suffix (by decide)
  · have ends : ".env".toList <:+ (Text.lowerAscii name).toList := by
      rw [lowerAscii_toList, ← split, List.map_append]
      exact List.suffix_append _ _
    have words : ∀ word ∈ Shell.fileNames, ¬ ".env".toList <:+ word.toList := by decide
    exact words _ whole ends

/-! ### What is selected -/

theorem mem_defaultNames {p : Pattern} : p ∈ defaultNames ↔
    (∃ word ∈ suffixes, Pattern.ofEnding word = p) ∨
    (∃ word ∈ Shell.fileNames, Pattern.ofName word = p) ∨
    (∃ word ∈ [".env", "env", "environment", "package.json"], Pattern.ofName word = p) ∨
    Pattern.ofEnding ".env" = p ∨ Pattern.ofBeginning ".env." = p := by
  simp only [defaultNames, List.mem_append, List.mem_map, List.mem_cons, List.not_mem_nil,
    or_false, exists_eq_or_imp, exists_eq_left, @eq_comm _ p]
  grind

theorem dropFinalFeed_cases (cs : List Char) :
    cs = Dotenv.dropFinalFeed cs ∨ cs = Dotenv.dropFinalFeed cs ++ ['\n'] := by
  unfold Dotenv.dropFinalFeed
  split
  · rename_i fed
    exact Or.inr (List.dropLast_append_getLast? _ (by simpa using fed)).symm
  · exact Or.inl rfl

/-- The names of declaration files are selected. -/
theorem default_selects_env (proper : Path.Proper name) (handled : Dotenv.handles name = true) :
    ∃ p ∈ defaultNames, p.applies name = true := by
  have slashless := proper.no_slash
  have fed := dropFinalFeed_cases name.toList
  have whole : ∀ word ∈ [".env", "env", "environment", "package.json"],
      Dotenv.dropFinalFeed name.toList = word.toList →
        ∃ p ∈ defaultNames, p.applies name = true := by
    intro word hword base
    rw [base] at fed
    exact ⟨_, mem_defaultNames.mpr (Or.inr (Or.inr (Or.inl ⟨word, hword, rfl⟩))),
      (Pattern.ofName_applies slashless).mpr fed⟩
  rw [Dotenv.handles, parse_name proper, Dotenv.isFileName] at handled
  simp only [Bool.or_eq_true, Bool.and_eq_true, beq_iff_eq, List.isPrefixOf_iff_prefix,
    List.isSuffixOf_iff_suffix] at handled
  rcases handled with ((base | base) | base) | ⟨-, ⟨front, -⟩ | ⟨back, -⟩⟩
  · exact whole ".env" (by simp) base
  · exact whole "env" (by simp) base
  · exact whole "environment" (by simp) base
  · refine ⟨_, mem_defaultNames.mpr (Or.inr (Or.inr (Or.inr (Or.inr rfl)))),
      (Pattern.ofBeginning_applies slashless).mpr ?_⟩
    rcases fed with same | same
    · rwa [same]
    · rw [same]
      exact front.trans (List.prefix_append _ _)
  · refine ⟨_, mem_defaultNames.mpr (Or.inr (Or.inr (Or.inr (Or.inl rfl)))),
      (Pattern.ofEnding_applies slashless).mpr ?_⟩
    rcases fed with same | same
    · exact Or.inl (by rwa [same])
    · obtain ⟨stem, split⟩ := back
      refine Or.inr ⟨stem, ?_⟩
      rw [same, ← split, List.append_assoc]

/-- A known name with a suffix of the list at its end has that suffix. -/
theorem Known.suffix_eq (known : Known name) (proper : Path.Proper name) {word : String}
    (listed : word ∈ suffixes) (back : word.toList <:+ name.toList) :
    (Path.parse name).suffix = word := by
  obtain ⟨stem, split⟩ := back
  have words : ∀ word ∈ suffixes, word.toList = '.' :: word.toList.tail ∧
      word.toList.tail ≠ [] ∧ '.' ∉ word.toList.tail := by decide
  obtain ⟨dotted, more, only⟩ := words word listed
  refine String.toList_inj.mp ((suffix_toList proper).trans ?_)
  by_cases something : stem = []
  · subst something
    obtain rfl : word = name := String.toList_inj.mp split
    have unknown : ∀ word ∈ suffixes, Text.lowerAscii (Path.parse word).suffix ∉ suffixes ∧
        Text.lowerAscii word ∉ Shell.fileNames := by decide
    exact (known.elim (unknown word listed).1 (unknown word listed).2).elim
  · rw [← split, dotted]
    exact Path.suffixOf_append something more only

/-- What selects a known name, other than that of a declaration file, is spelled as the name is. -/
theorem Known.spelled (known : Known name) (proper : Path.Proper name)
    (other : ¬ Dotenv.handles name = true) {p : Pattern} (listed : p ∈ defaultNames)
    (applied : p.applies name = true) :
    ".env.".toList <+: name.toList ∨ (Path.parse name).suffix ∈ suffixes ∨
      name ∈ Shell.fileNames := by
  have slashless := proper.no_slash
  have ending : ∀ word, (Pattern.ofEnding word).applies name = true →
      word.toList <:+ name.toList := fun word applied =>
    ((Pattern.ofEnding_applies slashless).mp applied).resolve_right (known.unfed proper _)
  have whole : ∀ word, (Pattern.ofName word).applies name = true → name = word :=
    fun word applied => String.toList_inj.mp (((Pattern.ofName_applies slashless).mp applied).resolve_right
      fun fed => known.unfed proper word.toList (fed ▸ List.suffix_refl _))
  rcases mem_defaultNames.mp listed with ⟨word, hword, rfl⟩ | ⟨word, hword, rfl⟩ |
    ⟨word, hword, rfl⟩ | rfl | rfl
  · exact Or.inr (Or.inl (known.suffix_eq proper hword (ending word applied) ▸ hword))
  · exact Or.inr (Or.inr (whole word applied ▸ hword))
  · obtain rfl := whole word applied
    have others : ∀ word ∈ [".env", "env", "environment", "package.json"],
        Dotenv.handles word = true ∨ Text.lowerAscii (Path.parse word).suffix ∉ suffixes ∧
          Text.lowerAscii word ∉ Shell.fileNames := by decide
    have unknown := (others name hword).resolve_left other
    exact (known.elim unknown.1 unknown.2).elim
  · exact (known.not_env proper other (ending ".env" applied)).elim
  · exact Or.inl ((Pattern.ofBeginning_applies slashless).mp applied)

/-- A name spelled as it is listed is selected. -/
theorem default_selects_spelled (proper : Path.Proper name)
    (spelled : ".env.".toList <+: name.toList ∨ (Path.parse name).suffix ∈ suffixes ∨
      name ∈ Shell.fileNames) : ∃ p ∈ defaultNames, p.applies name = true := by
  have slashless := proper.no_slash
  rcases spelled with front | suffix | whole
  · exact ⟨_, mem_defaultNames.mpr (Or.inr (Or.inr (Or.inr (Or.inr rfl)))),
      (Pattern.ofBeginning_applies slashless).mpr front⟩
  · refine ⟨_, mem_defaultNames.mpr (Or.inl ⟨_, suffix, rfl⟩),
      (Pattern.ofEnding_applies slashless).mpr (Or.inl ?_)⟩
    rw [suffix_toList proper]
    exact Path.suffixOf_suffix _
  · exact ⟨_, mem_defaultNames.mpr (Or.inr (Or.inl ⟨_, whole, rfl⟩)),
      (Pattern.ofName_applies slashless).mpr (Or.inl rfl)⟩

theorem lowerAscii_suffix (proper : Path.Proper name) (small : Text.lowerAscii name = name) :
    Text.lowerAscii (Path.parse name).suffix = (Path.parse name).suffix := by
  have letters : name.toList.map Char.toLower = name.toList.map id := by
    rw [List.map_id, ← lowerAscii_toList, small]
  refine String.toList_inj.mp ?_
  rw [lowerAscii_toList, suffix_toList proper]
  refine (List.map_congr_left fun c hc => ?_).trans (List.map_id _)
  exact List.map_inj_left.mp letters c ((Path.suffixOf_suffix _).subset hc)

/-- Of the names that some provider handles, the default patterns select those of declaration files,
those that begin with `.env.`, and those that have a suffix of the list, or are a name of it, as it
is spelled there. A name without capital letters is always selected. -/
theorem default_covers (proper : Path.Proper name)
    (handled : ∃ p ∈ Registry.standard.providers, p.handles name = true) :
    ∃ s, Selection.ofLines defaultIncludePatterns = .ok s ∧
      (s.selects name = true ↔ Dotenv.handles name = true ∨ ".env.".toList <+: name.toList ∨
        (Path.parse name).suffix ∈ suffixes ∨ name ∈ Shell.fileNames) ∧
      (Text.lowerAscii name = name → s.selects name = true) := by
  have selected : Selection.selects ⟨defaultNames, []⟩ name = true ↔
      Dotenv.handles name = true ∨ ".env.".toList <+: name.toList ∨
        (Path.parse name).suffix ∈ suffixes ∨ name ∈ Shell.fileNames := by
    rw [default_selects_iff proper]
    constructor
    · rintro ⟨p, listed, applied⟩
      by_cases other : Dotenv.handles name = true
      · exact Or.inl other
      · exact Or.inr ((known_of_handled proper handled other).spelled proper other listed applied)
    · rintro (dotenv | spelled)
      · exact default_selects_env proper dotenv
      · exact default_selects_spelled proper spelled
  refine ⟨_, ofLines_default, selected, fun small => selected.mpr ?_⟩
  by_cases other : Dotenv.handles name = true
  · exact Or.inl other
  rcases known_of_handled proper handled other with suffix | whole
  · exact Or.inr (Or.inr (Or.inl (lowerAscii_suffix proper small ▸ suffix)))
  · exact Or.inr (Or.inr (Or.inr (small ▸ whole)))

theorem default_covers_script : Path.Proper "app.js" ∧
    (∃ p ∈ Registry.standard.providers, p.handles "app.js" = true) ∧
    ∃ s, Selection.ofLines defaultIncludePatterns = .ok s ∧ s.selects "app.js" = true := by
  have proper : Path.Proper "app.js" := by decide
  have handled : ∃ p ∈ Registry.standard.providers, p.handles "app.js" = true :=
    handled_iff.mpr (Or.inl (by decide))
  obtain ⟨s, read, selected, -⟩ := default_covers proper handled
  refine ⟨proper, handled, s, read, selected.mpr (Or.inr (Or.inr (Or.inl ?_)))⟩
  decide

/-- Capital letters do not keep a provider from a file, but they keep the file from the provider. -/
theorem capitals_left_out :
    ∃ s, Selection.ofLines defaultIncludePatterns = .ok s ∧ ∀ name ∈ ["App.JS", ".BASHRC"],
      (∃ p ∈ Registry.standard.providers, p.handles name = true) ∧ s.selects name = false := by
  refine ⟨_, ofLines_default, ?_⟩
  simp only [handled_iff]
  decide

end Provider

end EnvCensus
