import EnvCensus.Proofs.Dotenv
import EnvCensus.Proofs.Provider.References
import EnvCensus.Proofs.Script.Embedded
import EnvCensus.Proofs.Script.Places
import EnvCensus.Proofs.Shell.Grouping
import EnvCensus.Proofs.Text.LineNumbers

/-!
# Lines of references

References in scripts have the lines that the line feeds before them give.
References in declaration files and shell scripts have the lines that the
boundaries before them give, so lone breaks count there too. The lines of a
component file are those of its script, which has the same ones as long as it
has the layout of the file.
-/

namespace EnvCensus

namespace Text

/-- The place behind the text is on the line with the number, counted by boundaries; by line feeds
it is so just when every boundary before it has one. -/
structure Numbered (before : List Char) (number : Nat) : Prop where
  breaks : number = 1 + before.count '\n' + loneBreaks before
  feeds : number = 1 + before.count '\n' ↔ FeedsOnly before

theorem numbered_of_breaks {before : List Char} {number : Nat}
    (h : number = 1 + before.count '\n' + loneBreaks before) : Numbered before number := by
  refine ⟨h, ?_⟩
  rw [← loneBreaks_eq_zero_iff]
  omega

/-- All places on a line have its number. -/
theorem LineAt.numbered {content before line after front : List Char}
    (h : LineAt content before line after) (inside : front <+: line) :
    Numbered (before ++ front) (1 + (before.count '\n' + loneBreaks before)) := by
  obtain ⟨feeds, breaks⟩ := h.counts inside
  exact numbered_of_breaks (by rw [feeds, breaks, Nat.add_assoc])

end Text

open Text

variable {here content path : String} {options : Options} {found : List Finding}

/-! ### Declaration files -/

namespace Dotenv

/-- On a line of the content the variable is declared, and the places on it have the number. -/
def DeclaredAt (content : List Char) (name : String) (number : Nat) : Prop :=
  ∃ before line after e, LineAt content before line after ∧ parseLine line number = some e ∧
    e.name = name ∧ ∀ front, front <+: line → Numbered (before ++ front) number

theorem declaredAt_of_mem_parse {e : Entry} (h : e ∈ parse content) :
    DeclaredAt content.toList e.name e.line := by
  obtain ⟨k, line, at_k, parsed⟩ := mem_parseLines h
  obtain ⟨before, after, stands, number⟩ := lineAt_of_getElem? at_k
  have counted : e.line = 1 + (before.count '\n' + loneBreaks before) := by
    rw [(parseLine_named parsed).2, number]
  refine ⟨before, line, after, e, stands, ?_, rfl, fun front inside => ?_⟩
  · rwa [(parseLine_named parsed).2]
  · rw [counted]
    exact stands.numbered inside

theorem findingOf_line {e : Entry} {f : Finding} (h : findingOf here path options e = .ok f) :
    f.name = e.name ∧ ∀ r ∈ f.files, r.line = e.line := by
  obtain ⟨ref, made, h⟩ := bind_eq_ok.mp h
  obtain ⟨source, rfl⟩ := Finding.make_cases (mapError_eq_ok.mp h)
  exact ⟨rfl, List.forall_mem_singleton.mpr (FileRef.make_counts (mapError_eq_ok.mp made)).1⟩

/-- Every reference to a declaration file is to the line of a declaration. -/
theorem scan_declaredAt (h : scan here content path options = .ok found) :
    ∀ f ∈ found, ∀ r ∈ f.files, DeclaredAt content.toList f.name r.line := by
  refine all_of_mapM h fun e he f hf r hr => ?_
  obtain ⟨named, lines⟩ := findingOf_line hf
  rw [named, lines r hr]
  exact declaredAt_of_mem_parse he

end Dotenv

/-! ### Shell scripts -/

namespace Shell

/-- On a line of the content the variable is referred to, by a dollar sign in the column, and the
place of the sign has the number. -/
def UsedAt (content : List Char) (name : String) (number column : Nat) : Prop :=
  ∃ before front rest after fallback behind, LineAt content before (front ++ '$' :: rest) after ∧
    reference? rest = some (name.toList, fallback, behind) ∧ column = 1 + front.length ∧
    Numbered (before ++ front) number

theorem usedAt_of_mem_uses {u : Use} (h : u ∈ uses content) :
    UsedAt content.toList u.reference.name u.line u.reference.column := by
  obtain ⟨k, line, at_k, number, mem⟩ := mem_usesFrom h
  obtain ⟨before, after, stands, counted⟩ := lineAt_of_getElem? at_k
  obtain ⟨front, form, behind, there⟩ := exists_stands mem
  obtain ⟨fallback, read, -⟩ := there.reads
  obtain rfl := there.text
  refine ⟨before, front, form ++ behind, after, fallback, behind, stands, read, ?_, ?_⟩
  · rw [there.column, Nat.add_comm]
  rw [number, counted]
  exact stands.numbered (List.prefix_append front _)

/-- Every reference to a shell script is to a use of the variable. -/
theorem scan_usedAt (h : scan here content path options = .ok found) :
    ∀ f ∈ found, ∀ r ∈ f.files, UsedAt content.toList f.name r.line r.column := by
  intro f hf r hr
  obtain ⟨u, -, rfl⟩ := mem_scan h hf
  obtain ⟨v, hv, rfl⟩ := List.mem_map.mp hr
  obtain ⟨mem, same⟩ := List.mem_filter.mp hv
  have used := usedAt_of_mem_uses mem
  rwa [eq_of_beq same] at used

end Shell

/-! ### Scripts -/

namespace Script

/-- The text that is read as a script in a file with the suffix, and its dialect. -/
def scriptIn (content : List Char) (suffix : String) : List Char × Dialect :=
  if componentSuffixes.contains suffix then extract content suffix else (content, dialectOf suffix)

/-- In the script of the content there stands an access to the variable, and the number counts the
line feeds before it; before the same place the content has as many, unless a body begins inside
the front matter of a page. -/
def AccessedAt (content : List Char) (suffix name : String) (number : Nat) : Prop :=
  ∃ before, AccessBehind (scriptIn content suffix).2 (scriptIn content suffix).1 name before ∧
    number = 1 + before.count '\n' ∧
    ((suffix = ".astro" → ¬ BodyInMatter content) →
      number = 1 + (content.take before.length).count '\n')

theorem sameLayout_scriptIn {content : List Char} {suffix : String}
    (calm : suffix = ".astro" → ¬ BodyInMatter content) :
    SameLayout content (scriptIn content suffix).1 := by
  unfold scriptIn
  split
  · exact sameLayout_extract calm
  · exact .refl content

theorem accessedAt_of_behind {content before : List Char} {suffix name : String} {number : Nat}
    (access : AccessBehind (scriptIn content suffix).2 (scriptIn content suffix).1 name before)
    (counted : number = 1 + before.count '\n') : AccessedAt content suffix name number := by
  refine ⟨before, access, counted, fun calm => ?_⟩
  obtain ⟨_, _, _, _, _, _, _, _, _, stands⟩ := access
  rw [← (sameLayout_scriptIn calm).count_feed, stands, List.append_assoc, List.take_left]
  exact counted

theorem scanSource_of_scan (h : scan here content path options = .ok found) :
    found = [] ∨ ∃ source d,
      scriptIn content.toList (lowerAscii (Path.parse path).suffix) = (source, d) ∧
        scanSource here path options d source = .ok found := by
  unfold scan at h
  generalize lowerAscii (Path.parse path).suffix = suffix at h ⊢
  by_cases component : componentSuffixes.contains suffix = true
  · rw [scriptIn, if_pos component]
    simp only [if_pos component] at h
    split at h
    · cases h
      exact Or.inl rfl
    · exact Or.inr ⟨_, _, rfl, h⟩
  · rw [scriptIn, if_neg component]
    simp only [if_neg component] at h
    exact Or.inr ⟨_, _, rfl, h⟩

/-- Every reference to a script or a component file is to an access to the variable. -/
theorem scan_accessedAt (h : scan here content path options = .ok found) :
    ∀ f ∈ found, ∀ r ∈ f.files,
      AccessedAt content.toList (lowerAscii (Path.parse path).suffix) f.name r.line := by
  rcases scanSource_of_scan h with rfl | ⟨source, d, script, scanned⟩
  · simp
  · intro f hf r hr
    obtain ⟨before, access, counted⟩ := scanSource_behind scanned f hf r hr
    exact accessedAt_of_behind (by rw [script]; exact access) counted

end Script

/-- What the lines of references count. In declaration files and shell scripts, which are always
read to the end, they count the boundaries before a place, and so the line feeds just when every
boundary has one. In scripts they count the line feeds, wherever the text that is read as a script
has the layout of the file. -/
theorem Provider.lines_counted (here content path : String) (options : Options) :
    (∃ found, Dotenv.scan here content path options = .ok found ∧
      ∀ f ∈ found, ∀ r ∈ f.files, Dotenv.DeclaredAt content.toList f.name r.line) ∧
    (∃ found, Shell.scan here content path options = .ok found ∧
      ∀ f ∈ found, ∀ r ∈ f.files, Shell.UsedAt content.toList f.name r.line r.column) ∧
    ∀ found, Script.scan here content path options = .ok found →
      ∀ f ∈ found, ∀ r ∈ f.files,
        Script.AccessedAt content.toList (lowerAscii (Path.parse path).suffix) f.name r.line := by
  refine ⟨?_, ?_, fun found scanned => Script.scan_accessedAt scanned⟩
  · obtain ⟨found, scanned⟩ := Dotenv.scan_total here content path options
    exact ⟨found, scanned, Dotenv.scan_declaredAt scanned⟩
  · cases scanned : Shell.scan here content path options with
    | ok found => exact ⟨found, rfl, Shell.scan_usedAt scanned⟩
    | error e => exact ((Shell.scan_ends here content path options).failure scanned).elim

/-- Two declarations with a form feed between them. -/
def pagedDeclarations : String := "A=1\x0cB=2\n"

theorem lines_pagedDeclarations :
    lines pagedDeclarations.toList = ["A=1".toList, "B=2".toList] := by
  have unbroken : Unbroken "A=1".toList ∧ Unbroken "B=2".toList := by decide
  have page : lines "\x0cB=2\n".toList = [] :: lines "B=2\n".toList :=
    lines_boundary (c := '\x0c') rfl (by decide)
  have first : lines pagedDeclarations.toList = "A=1".toList :: lines "B=2\n".toList := by
    refine (lines_unbroken_append unbroken.1 (by decide) "\x0cB=2\n".toList).trans ?_
    rw [page]
    rfl
  have second : lines "B=2\n".toList = ["B=2".toList] := by
    refine (lines_unbroken_append unbroken.2 (by decide) ['\n']).trans ?_
    rw [lines_feed, lines_nil]
    rfl
  rw [first, second]

/-- The second declaration stands behind no line feed, and yet it is not on the first line. -/
theorem Dotenv.line_behind_formFeed :
    pagedDeclarations.toList = "A=1\x0c".toList ++ "B=2\n".toList ∧
    ∃ found, scan "/" pagedDeclarations "/.env" {} = .ok found ∧
      ∃ f ∈ found, f.name = "B" ∧ ∃ r ∈ f.files, r.line = 2 ∧
        r.line ≠ 1 + "A=1\x0c".toList.count '\n' := by
  have parsed : parse pagedDeclarations =
      [{ name := "A", value := some "1", line := 1 },
        { name := "B", value := some "2", line := 2 }] := by
    rw [parse, lines_pagedDeclarations]
    decide +kernel
  obtain ⟨found, scanned⟩ := scan_total "/" pagedDeclarations "/.env" {}
  obtain ⟨f, hf, made⟩ := mem_mapM scanned (parsed ▸ List.mem_cons_of_mem _ List.mem_cons_self)
  obtain ⟨named, places⟩ := findingOf_line made
  obtain ⟨r, hr⟩ := List.exists_mem_of_ne_nil _ (scan_valid scanned f hf).1
  have line : r.line = 2 := places r hr
  exact ⟨rfl, found, scanned, f, hf, named, r, hr, line, by rw [line]; decide⟩

end EnvCensus
