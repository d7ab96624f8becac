import EnvCensus.Census.Scan
import EnvCensus.Proofs.Console
import EnvCensus.Proofs.Display.Characters
import EnvCensus.Proofs.Name

/-!
# When a report can be shown

The figures and the sources of a scan can always be shown. Whether its table
can is decided by the defaults of the findings: each of them is read as
marked-up text after it has been shortened. A report whose target and whose
defaults have no halves of characters in them has none.
-/

namespace EnvCensus.Report.Terminal

open Display
open Text (Whole)

variable {s : String} {width : Nat} {c : Census} {f : Finding} {fs : List Finding}
  {lines : List (List Char)}

theorem sourceStyle_mem (s : Source) : sourceStyle s.tag ∈ Console.styles := by
  cases s <;> decide

/-- What is left of a default has a bracket only if the default has it. -/
theorem bracket_of_shortened (h : '[' ∈ (shortened s).toList) : '[' ∈ s.toList := by
  unfold shortened at h
  split at h
  · exact h
  · rw [String.toList_append, String.toList_ofList, List.mem_append] at h
    rcases h with cut | dots
    · exact List.take_subset _ _ cut
    · exact absurd dots (by decide)

section Halves

variable [Text.Halves] [Text.LawfulHalves]

theorem whole_printed (width : Nat) (h : ∀ line ∈ lines, Whole line) :
    Whole (printed width lines).toList := by
  rw [printed, Text.whole_join, List.forall_mem_map]
  intro line hline
  have feed : Whole ['\n'] := Text.whole_of_all (by decide)
  rw [String.toList_ofList, Text.whole_append]
  refine ⟨?_, feed⟩
  split
  · exact h line hline
  · exact whole_fit width (h line hline)

theorem whole_shortened (whole : Whole s.toList) : Whole (shortened s).toList := by
  unfold shortened
  split
  · exact whole
  · rw [String.toList_append, String.toList_ofList, Text.whole_append]
    exact ⟨whole.of_subset (List.take_subset _ _), Text.whole_of_all (by decide)⟩

/-- A name has neither brackets nor halves. -/
theorem plain_of_valid (valid : f.Valid) : '[' ∉ f.name.toList ∧ Whole f.name.toList := by
  constructor
  · intro bracket
    rcases Name.isTail_of_isValid valid.2 bracket with tail | feed
    · exact absurd tail (by decide)
    · cases feed
  · intro c hc
    refine Text.isHalf_eq_false ?_
    rcases Name.isTail_of_isValid valid.2 hc with tail | rfl
    · have small := Name.toNat_lt_of_isTail tail
      exact Text.isSpare_eq_false_of_lt (by rw [Text.firstSpare]; omega)
    · decide

theorem whole_summaryLines {target : String} (named : Whole target.toList)
    (known : ∀ tag ∈ c.framework, ∃ f : Framework, f.tag = tag) :
    ∀ line ∈ summaryLines width c target, Whole line := by
  have label {text : String} (plain : (text.toList.all fun c => !Text.isSpare c) = true) :
      Whole text.toList := Text.whole_of_all plain
  have int (n : Int) : Whole n.repr.toList := Text.whole_int n
  have framework : ∀ s ∈ (c.framework.filter (· ≠ "")).map fun tag =>
      s!"Framework: {((Framework.ofTag? tag).map Framework.name).getD tag}", Whole s.toList := by
    intro s hs
    obtain ⟨tag, there, rfl⟩ := Option.map_eq_some_iff.mp hs
    obtain ⟨f, rfl⟩ := known tag (Option.filter_eq_some_iff.mp there).1
    cases f <;> exact label (by decide +kernel)
  have summary : Whole (summaryText c target).toList := by
    rw [summaryText, Text.whole_intercalate (label (by decide))]
    simp only [List.forall_mem_append, List.forall_mem_cons, Option.mem_toList, toString,
      String.toList_append, Text.whole_append]
    have none : ∀ s ∈ ([] : List String), Whole s.toList := List.forall_mem_nil _
    exact ⟨⟨⟨⟨label (by decide), named⟩, none⟩, framework⟩, ⟨label (by decide), int _⟩,
      ⟨⟨⟨⟨⟨⟨label (by decide), int _⟩, label (by decide)⟩, Text.whole_nat _⟩, label (by decide)⟩,
        Text.whole_nat _⟩, label (by decide)⟩,
      ⟨label (by decide), int _⟩, ⟨⟨label (by decide), int _⟩, label (by decide)⟩, none⟩
  exact whole_panel width (label (by decide)) (summary.of_subset List.filter_sublist.subset)

end Halves

/-! ### Messages -/

theorem message_ok_iff [Console] (width : Nat) :
    (∃ text, message width s = .ok text) ↔ ∃ cs, Console.read s = .ok cs :=
  bind_ok_iff fun _ => ⟨_, rfl⟩

variable [Text.Halves] [Text.LawfulHalves] [Console] [Console.Lawful]

theorem whole_message {text : String} (whole : Whole s.toList)
    (shows : message width s = .ok text) : Whole text.toList := by
  obtain ⟨cs, read, e⟩ := bind_eq_ok.mp shows
  cases e
  exact whole_printed width (whole_wrap _ _ _ (Console.Lawful.whole read whole))

/-! ### The sources -/

/-- The name of every source shows in its style. -/
theorem read_source (s : Source) :
    ∃ cs, Console.read (styled (sourceStyle s.tag) s.tag) = .ok cs ∧ Whole cs := by
  have plain : Console.Plain s.tag := by
    cases s <;> decide
  have alone : "" ++ styled (sourceStyle s.tag) s.tag ++ "" = styled (sourceStyle s.tag) s.tag := by
    simp
  have closed : Console.Closed (styled (sourceStyle s.tag) s.tag) :=
    alone ▸ .styled (sourceStyle_mem s) (by decide) plain (by decide)
  obtain ⟨cs, read⟩ := Console.shows_closed closed
  refine ⟨cs, read, Console.Lawful.whole read (Text.whole_of_all ?_)⟩
  cases s <;> decide

theorem countLines_total (width : Nat) (sources : ∀ e ∈ c.tally.bySource, ∃ s : Source, e.1 = s.tag) :
    ∃ lines, countLines width c = .ok lines ∧ ∀ line ∈ lines, Whole line := by
  have cells : ∀ e ∈ c.tally.bySource.filter (fun f => f.2 > 0), ∃ row : List (List Char),
      (do return [← Console.read (styled (sourceStyle e.1) e.1), (toString e.2).toList] :
        Except Failure (List (List Char))) = .ok row ∧ ∀ cell ∈ row, Whole cell := by
    intro e he
    obtain ⟨s, hs⟩ := sources e (List.mem_of_mem_filter he)
    obtain ⟨cs, read, whole⟩ := read_source s
    rw [hs, read]
    have count : Whole e.2.repr.toList := Text.whole_int e.2
    exact ⟨_, rfl, by simp [whole, count]⟩
  obtain ⟨rows, hrows⟩ := mapM_ok_iff.mpr fun e he => (cells e he).imp fun _ h => h.1
  have whole : ∀ row ∈ rows, ∀ cell ∈ row, Whole cell := all_of_mapM hrows fun e he row hrow => by
    obtain ⟨row', made, each⟩ := cells e he
    cases hrow.symm.trans made
    exact each
  have title : Whole "◆ Variables by source".toList := Text.whole_of_all (by decide)
  have headers : ∀ c ∈ [Column.mk "Source" .left (some 14), ⟨"Variables", .right, some 10⟩],
      Whole c.header.toList :=
    List.forall_mem_cons.mpr ⟨Text.whole_of_all (by decide),
      List.forall_mem_singleton.mpr (Text.whole_of_all (by decide))⟩
  unfold countLines
  split
  · exact ⟨_, rfl, nofun⟩
  · refine ⟨_, bind_eq_ok.mpr ⟨rows, hrows, rfl⟩, ?_⟩
    exact List.forall_mem_append.mpr ⟨List.forall_mem_cons.mpr ⟨Text.whole_nil,
      whole_wrap _ _ _ title⟩, Table.whole_lines width headers whole⟩

/-! ### The table of the findings -/

/-- The default of the finding can be shown in the table. -/
def ShowsDefault (f : Finding) : Prop :=
  ∃ cs, Console.read (shortened (f.defaultValue.getD "")) = .ok cs

/-- The default of the finding has no half of a character. -/
def DefaultWhole (f : Finding) : Prop := Whole (f.defaultValue.getD "").toList

omit [Text.LawfulHalves] in
/-- A default without an opening bracket can be shown. -/
theorem showsDefault_of_unmarked (h : '[' ∉ (f.defaultValue.getD "").toList) : ShowsDefault f :=
  Console.shows_unmarked fun bracket => h (bracket_of_shortened bracket)

omit [Text.LawfulHalves] in
/-- A default whose first bracket begins a closing tag cannot, if the tag is in what is shown. -/
theorem not_showsDefault_of_closing {front name back : String} (plain : Console.Plain front)
    (named : '[' ∉ name.toList ∧ ']' ∉ name.toList)
    (spelled : shortened (f.defaultValue.getD "") = front ++ "[/" ++ name ++ "]" ++ back) :
    ¬ ShowsDefault f := by
  rintro ⟨cs, shows⟩
  obtain ⟨e, stops⟩ := Console.Lawful.unopened back (.plain plain) named
  rw [spelled, stops] at shows
  cases shows

theorem findingCells_ok_iff (valid : f.Valid) :
    (∃ cells, findingCells f = .ok cells) ↔ ShowsDefault f := by
  obtain ⟨name, hname⟩ := Console.shows_unmarked (plain_of_valid valid).1
  rw [findingCells, hname, ok_bind, ShowsDefault]
  exact bind_ok_iff fun _ => ⟨_, rfl⟩

theorem whole_findingCells (valid : f.Valid) (whole : DefaultWhole f) {cells : List (List Char)}
    (shows : findingCells f = .ok cells) : ∀ cell ∈ cells, Whole cell := by
  obtain ⟨name, hname, shows⟩ := bind_eq_ok.mp shows
  obtain ⟨default, hdefault, e⟩ := bind_eq_ok.mp shows
  cases e
  have tick (b : Bool) : Whole (tick b) := by
    cases b <;> exact Text.whole_of_all (by decide)
  have source : Whole f.source.tag.toList := by
    cases f.source <;> exact Text.whole_of_all (by decide)
  have count : Whole (toString f.files.length).toList := Text.whole_nat _
  simp only [List.forall_mem_cons]
  exact ⟨Console.Lawful.whole hname (plain_of_valid valid).2, tick _, tick _, source,
    Console.Lawful.whole hdefault (whole_shortened whole), count, nofun⟩

/-- The table of findings can be shown just when each of their defaults can. -/
theorem findingLines_ok_iff (valid : ∀ f ∈ fs, f.Valid) :
    (∃ lines, findingLines width fs = .ok lines) ↔ ∀ f ∈ fs, ShowsDefault f := by
  have rows : (∃ rows, fs.mapM findingCells = .ok rows) ↔ ∀ f ∈ fs, ShowsDefault f :=
    mapM_ok_iff.trans (forall₂_congr fun f hf => findingCells_ok_iff (valid f hf))
  exact (bind_ok_iff fun _ => ⟨_, rfl⟩).trans rows

theorem whole_findingLines (valid : ∀ f ∈ fs, f.Valid) (whole : ∀ f ∈ fs, DefaultWhole f)
    (shows : findingLines width fs = .ok lines) : ∀ line ∈ lines, Whole line := by
  obtain ⟨rows, hrows, e⟩ := bind_eq_ok.mp shows
  cases e
  have headers : ∀ c ∈ (findingsTable rows).columns, Whole c.header.toList := by
    have plain : ∀ c ∈ (findingsTable []).columns,
        (c.header.toList.all fun d => !Text.isSpare d) = true := by decide
    exact fun c hc => Text.whole_of_all (plain c hc)
  exact Table.whole_lines width headers
    (all_of_mapM hrows fun f hf _ => whole_findingCells (valid f hf) (whole f hf))

/-! ### The report on a scan -/

theorem overviewText_total (width : Nat) (target : String)
    (sources : ∀ e ∈ c.tally.bySource, ∃ s : Source, e.1 = s.tag) :
    ∃ text, overviewText width c target = .ok text := by
  obtain ⟨counts, hcounts, -⟩ := countLines_total width sources
  exact ⟨_, bind_eq_ok.mpr ⟨counts, hcounts, rfl⟩⟩

theorem variablesText_ok_iff (valid : ∀ f ∈ c.findings, f.Valid) :
    (∃ text, variablesText width c true = .ok text) ↔ ∀ f ∈ c.findings, ShowsDefault f :=
  (bind_ok_iff fun _ => ⟨_, rfl⟩).trans (findingLines_ok_iff valid)

/-- The report on a scan can be shown just when the defaults of its findings can. -/
theorem censusText_ok_iff (width : Nat) (target : String) (valid : ∀ f ∈ c.findings, f.Valid)
    (sources : ∀ e ∈ c.tally.bySource, ∃ s : Source, e.1 = s.tag) :
    (∃ text, censusText width c target true = .ok text) ↔ ∀ f ∈ c.findings, ShowsDefault f := by
  obtain ⟨overview, hoverview⟩ := overviewText_total width target sources
  rw [censusText, hoverview, ok_bind]
  exact (bind_ok_iff fun _ => ⟨_, rfl⟩).trans (variablesText_ok_iff valid)

/-- The report on a scan has no halves when neither its target nor its defaults have any. -/
theorem whole_censusText {target text : String} (valid : ∀ f ∈ c.findings, f.Valid)
    (sources : ∀ e ∈ c.tally.bySource, ∃ s : Source, e.1 = s.tag)
    (known : ∀ tag ∈ c.framework, ∃ f : Framework, f.tag = tag)
    (named : Whole target.toList) (whole : ∀ f ∈ c.findings, DefaultWhole f)
    (shows : censusText width c target true = .ok text) : Whole text.toList := by
  obtain ⟨counts, hcounts, countsWhole⟩ := countLines_total width sources
  obtain ⟨overview, hoverview, shows⟩ := bind_eq_ok.mp shows
  obtain ⟨below, hbelow, e⟩ := bind_eq_ok.mp shows
  cases e
  rw [overviewText, hcounts] at hoverview
  cases hoverview
  obtain ⟨table, htable, e⟩ := bind_eq_ok.mp hbelow
  cases e
  have tableWhole := whole_findingLines valid whole htable
  rw [String.toList_append, Text.whole_append]
  refine ⟨whole_printed width (List.forall_mem_append.mpr ⟨List.forall_mem_cons.mpr
    ⟨Text.whole_nil, whole_summaryLines named known⟩, countsWhole⟩), whole_printed width ?_⟩
  refine List.forall_mem_append.mpr ⟨?_, List.forall_mem_singleton.mpr Text.whole_nil⟩
  split
  · exact List.forall_mem_cons.mpr ⟨Text.whole_nil, tableWhole⟩
  · nofun

/-- The report on a scan fails for the defaults of its findings alone. -/
theorem variablesText_ends (width : Nat) (valid : ∀ f ∈ c.findings, f.Valid) :
    Ends (fun e => ∃ f ∈ c.findings, Console.read (shortened (f.defaultValue.getD "")) = .error e)
      (fun _ => True) (variablesText width c true) := by
  have cells : ∀ f ∈ c.findings, Ends
      (fun e => ∃ f ∈ c.findings, Console.read (shortened (f.defaultValue.getD "")) = .error e)
      (fun _ => True) (findingCells f) := by
    intro f hf
    obtain ⟨name, hname⟩ := Console.shows_unmarked (plain_of_valid (valid f hf)).1
    rw [findingCells, hname, ok_bind]
    cases read : Console.read (shortened (f.defaultValue.getD "")) with
    | ok cs => exact .ok trivial
    | error e => exact .error ⟨f, hf, read⟩
  have table := (Ends.mapM cells).bind fun rows _ =>
    Ends.ok (a := (findingsTable rows).lines width) (P := fun _ => True) trivial
  exact table.bind fun _ _ => .ok trivial

end EnvCensus.Report.Terminal
