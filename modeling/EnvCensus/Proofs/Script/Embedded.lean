import EnvCensus.Script.Embedded
import Mathlib.Data.List.TakeWhile

/-!
# Places in component files

The script of a component file is as long as the file, breaks its lines where
the file breaks them, and elsewhere holds what the file holds or a blank. It
does so as long as no two of the parts that are kept overlap. Bodies of script
elements never do, and front matter stands before all of them; but the body of
an element may begin inside of it. From there to the end of the front matter
the text is then taken twice, and whatever follows is moved on.
-/

namespace EnvCensus.Script

variable {content xs ys cs rest : List Char} {position n : Nat} {spans : List Span} {e : Element}

/-- The script has the layout of the content: places in the one are places in the other. -/
structure SameLayout (content script : List Char) : Prop where
  length : script.length = content.length
  feeds : ∀ i : Nat, script[i]? = some '\n' ↔ content[i]? = some '\n'
  others : ∀ (i : Nat) (c : Char), script[i]? = some c → c = ' ' ∨ content[i]? = some c

namespace SameLayout

theorem refl (content : List Char) : SameLayout content content where
  length := rfl
  feeds _ := Iff.rfl
  others _ _ := Or.inr

theorem blanked (content : List Char) : SameLayout content (blanked content) where
  length := List.length_map _
  feeds i := by
    rw [Script.blanked, List.getElem?_map, Option.map_eq_some_iff]
    constructor
    · rintro ⟨c, hc, feed⟩
      split at feed
      · rwa [← feed]
      · cases feed
    · exact fun h => ⟨'\n', h, rfl⟩
  others i c h := by
    rw [Script.blanked, List.getElem?_map, Option.map_eq_some_iff] at h
    obtain ⟨d, hd, rfl⟩ := h
    split
    · exact Or.inr hd
    · exact Or.inl rfl

theorem append {xs' ys' : List Char} (h : SameLayout xs ys) (h' : SameLayout xs' ys') :
    SameLayout (xs ++ xs') (ys ++ ys') where
  length := by rw [List.length_append, List.length_append, h.length, h'.length]
  feeds i := by
    rw [List.getElem?_append, List.getElem?_append, h.length]
    split
    · exact h.feeds i
    · exact h'.feeds _
  others i c := by
    rw [List.getElem?_append, List.getElem?_append, h.length]
    split
    · exact h.others i c
    · exact h'.others _ c

end SameLayout

/-- Before a place the script has as many line feeds as the content has before the same place. -/
theorem SameLayout.count_feed {script : List Char} (h : SameLayout content script) (n : Nat) :
    (script.take n).count '\n' = (content.take n).count '\n' := by
  have marks : script.map (· == '\n') = content.map (· == '\n') := by
    refine List.ext_getElem (by simp [h.length]) fun i hi hi' => ?_
    rw [List.length_map] at hi hi'
    have feeds := h.feeds i
    rw [List.getElem?_eq_getElem hi, List.getElem?_eq_getElem hi', Option.some_inj,
      Option.some_inj] at feeds
    rw [List.getElem_map, List.getElem_map, Bool.eq_iff_iff, beq_iff_eq, beq_iff_eq]
    exact feeds
  have count (cs : List Char) : cs.count '\n' = (cs.map (· == '\n')).count true := by
    rw [List.count, List.count, List.countP_map]
    exact List.countP_congr (by simp)
  rw [count, count, List.map_take, List.map_take, marks]

/-! ### Spans -/

/-- The span lies in the text. -/
structure Span.Within (s : Span) (content : List Char) : Prop where
  ordered : s.start ≤ s.stop
  inside : s.stop ≤ content.length

/-- The number of characters before `position`, and in one of the spans, that a later span takes up
again. -/
def overlap (position : Nat) : List Span → Nat
  | [] => 0
  | s :: rest => (position - s.start) + overlap s.stop rest

theorem length_slice {start stop : Nat} (h : stop ≤ content.length) :
    (slice content start stop).length = stop - start := by
  rw [slice, List.length_take, List.length_drop]
  omega

/-- What is kept and blanked is longer than the text by what is taken up again. -/
theorem length_keepFrom (within : ∀ s ∈ spans, s.Within content)
    (h : position ≤ content.length) :
    (keepFrom content position spans).length =
      content.length - position + overlap position spans := by
  induction spans generalizing position with
  | nil => rw [keepFrom, (SameLayout.blanked _).length, List.length_drop, overlap, Nat.add_zero]
  | cons s rest ih =>
    obtain ⟨first, others⟩ := List.forall_mem_cons.mp within
    obtain ⟨ordered, inside⟩ := first
    rw [keepFrom, List.length_append, List.length_append, (SameLayout.blanked _).length,
      length_slice (Nat.le_trans ordered inside), length_slice inside, ih others inside, overlap]
    omega

/-- The text from a position on begins with what stands before a later one. -/
theorem drop_eq_slice_append {start stop : Nat} (h : start ≤ stop) :
    content.drop start = slice content start stop ++ content.drop stop := by
  have whole := (List.take_append_drop (stop - start) (content.drop start)).symm
  rwa [List.drop_drop, Nat.add_sub_cancel' h] at whole

/-- Spans that take up nothing again keep the layout. -/
theorem keepFrom_sameLayout (within : ∀ s ∈ spans, s.Within content)
    (apart : overlap position spans = 0) :
    SameLayout (content.drop position) (keepFrom content position spans) := by
  induction spans generalizing position with
  | nil => exact .blanked _
  | cons s rest ih =>
    obtain ⟨first, others⟩ := List.forall_mem_cons.mp within
    obtain ⟨onward, further⟩ := Nat.add_eq_zero_iff.mp apart
    rw [keepFrom, drop_eq_slice_append (Nat.sub_eq_zero_iff_le.mp onward),
      drop_eq_slice_append first.ordered, ← List.append_assoc]
    exact ((SameLayout.blanked _).append (.refl _)).append (ih others further)

theorem sameLayout_keepFrom_iff (within : ∀ s ∈ spans, s.Within content) :
    SameLayout content (keepFrom content 0 spans) ↔ overlap 0 spans = 0 := by
  constructor
  · intro same
    have length := same.length
    rw [length_keepFrom within (Nat.zero_le _)] at length
    omega
  · exact fun apart => keepFrom_sameLayout within apart

/-- Spans of which each ends before the next one starts. -/
def Apart (spans : List Span) : Prop := spans.Pairwise fun s t => s.stop ≤ t.start

/-- Spans that are apart take up nothing again but what stands before the position. -/
theorem overlap_eq_zero_iff (within : ∀ s ∈ spans, s.Within content) (apart : Apart spans) :
    overlap position spans = 0 ↔ ∀ s ∈ spans, position ≤ s.start := by
  induction spans generalizing position with
  | nil => simp [overlap]
  | cons s rest ih =>
    obtain ⟨first, others⟩ := List.forall_mem_cons.mp within
    obtain ⟨next, apart⟩ := List.pairwise_cons.mp apart
    have later : overlap s.stop rest = 0 := (ih others apart).mpr next
    rw [overlap, later, Nat.add_zero, Nat.sub_eq_zero_iff_le, List.forall_mem_cons]
    constructor
    · intro h
      exact ⟨h, fun t ht => Nat.le_trans (Nat.le_trans h first.ordered) (next t ht)⟩
    · exact And.left

/-! ### Elements -/

theorem length_afterLoose? {word : List Char} (h : afterLoose? word cs = some rest) :
    cs.length = word.length + rest.length := by
  fun_induction afterLoose? word cs with
  | case1 cs =>
    cases h
    simp
  | case2 w ws c cs _ ih =>
    have := ih h
    simp only [List.length_cons]
    omega
  | case3 => cases h
  | case4 => cases h

theorem closingTag?_le (h : closingTag? cs = some n) : n ≤ cs.length := by
  obtain ⟨rest, -, h⟩ := Option.bind_eq_some_iff.mp h
  split at h
  · cases h
    exact Nat.sub_le _ _
  · cases h

/-- What stands before the closing tag lies in the text, and so does the tag. -/
theorem closingFrom_le {before close : Nat} (h : closingFrom before cs = some (n, close)) :
    n + close ≤ before + cs.length := by
  fun_induction closingFrom before cs with
  | case1 => cases h
  | case2 before c cs _ k tag =>
    cases h
    have := closingTag?_le tag
    omega
  | case3 before c cs _ _ ih =>
    have := ih h
    simp only [List.length_cons]
    omega
  | case4 before c cs _ ih =>
    have := ih h
    simp only [List.length_cons]
    omega

/-- The body of an element lies behind the first character and in the text. -/
theorem element?_fits (h : element? cs = some e) :
    0 < e.bodyStart ∧ e.bodyStart + e.bodyLength ≤ e.length ∧ e.length ≤ cs.length := by
  obtain ⟨rest, word, h⟩ := Option.bind_eq_some_iff.mp h
  have begun := length_afterLoose? word
  split at h
  · cases h
  · split at h
    · cases h
    · simp only at h
      split at h
      · cases h
      · rename_i c more _ _ close body opened
        obtain ⟨⟨k, tag⟩, closed, h⟩ := Option.bind_eq_some_iff.mp h
        cases h
        have parts := congrArg List.length
          (List.takeWhile_append_dropWhile (p := (· ≠ '>')) (l := c :: more))
        rw [opened, List.length_append, List.length_cons] at parts
        have inside := closingFrom_le closed
        have seven : "<script".toList.length = 7 := rfl
        simp only
        omega

/-- The element that the text begins with, if it begins with a bracket. -/
def first? (c : Char) (cs : List Char) : Option Element :=
  if c == '<' then element? (c :: cs) else none

theorem elementsFrom_zero (at_ : Nat) (found : List (Nat × Element)) (c : Char) (cs : List Char) :
    elementsFrom at_ 0 found (c :: cs) =
      match first? c cs with
      | some e => elementsFrom (at_ + 1) (e.length - 1) ((at_, e) :: found) cs
      | none => elementsFrom (at_ + 1) 0 found cs := by
  rw [elementsFrom, first?]
  split <;> rfl

/-- The elements that were found before stay in front. -/
theorem elementsFrom_eq (at_ skip : Nat) (found : List (Nat × Element)) (cs : List Char) :
    elementsFrom at_ skip found cs = found.reverse ++ elementsFrom at_ skip [] cs := by
  induction cs generalizing at_ skip found with
  | nil => simp [elementsFrom]
  | cons c cs ih =>
    cases skip with
    | succ k => exact ih (at_ + 1) k found
    | zero =>
      rw [elementsFrom_zero, elementsFrom_zero]
      cases first? c cs with
      | none => exact ih (at_ + 1) 0 found
      | some e =>
        simp only
        rw [ih _ _ (_ :: _), ih _ _ [_], List.reverse_cons, List.append_assoc]
        rfl

/-- The element is read at its place, which is that of an angle bracket. -/
structure StandsAt (cs : List Char) (at_ : Nat) (e : Element) : Prop where
  bracket : cs[at_]? = some '<'
  reads : element? (cs.drop at_) = some e

theorem standsAt_of_first? {c : Char} (h : first? c cs = some e) : StandsAt (c :: cs) 0 e := by
  unfold first? at h
  split at h
  · rename_i bracket
    exact ⟨congrArg some (eq_of_beq bracket), h⟩
  · cases h

/-- Elements are found behind what is skipped, at their places. -/
theorem standsAt_of_mem_elementsFrom {at_ skip : Nat} {p : Nat × Element}
    (h : p ∈ elementsFrom at_ skip [] cs) :
    ∃ k, p.1 = at_ + k ∧ skip ≤ k ∧ StandsAt cs k p.2 := by
  induction cs generalizing at_ skip with
  | nil => simp [elementsFrom] at h
  | cons c cs ih =>
    have later : ∀ {skip : Nat}, p ∈ elementsFrom (at_ + 1) skip [] cs →
        ∃ k, p.1 = at_ + k ∧ skip + 1 ≤ k ∧ StandsAt (c :: cs) k p.2 := by
      intro skip h
      obtain ⟨k, place, behind, stands⟩ := ih h
      exact ⟨k + 1, by omega, by omega, stands.bracket, stands.reads⟩
    have anyhow : ∀ {skip : Nat}, p ∈ elementsFrom (at_ + 1) skip [] cs →
        ∃ k, p.1 = at_ + k ∧ 0 ≤ k ∧ StandsAt (c :: cs) k p.2 := by
      intro skip h
      obtain ⟨k, place, -, stands⟩ := later h
      exact ⟨k, place, Nat.zero_le k, stands⟩
    cases skip with
    | succ k => exact later h
    | zero =>
      rw [elementsFrom_zero] at h
      cases found : first? c cs with
      | none =>
        rw [found] at h
        exact anyhow h
      | some e =>
        simp only [found] at h
        rw [elementsFrom_eq] at h
        rcases List.mem_append.mp h with h | h
        · obtain rfl := List.mem_singleton.mp h
          exact ⟨0, rfl, Nat.le_refl 0, standsAt_of_first? found⟩
        · exact anyhow h

/-- Elements that are found follow one another. -/
theorem elementsFrom_pairwise (at_ skip : Nat) (cs : List Char) :
    (elementsFrom at_ skip [] cs).Pairwise fun p q => p.1 + p.2.length ≤ q.1 := by
  induction cs generalizing at_ skip with
  | nil => simp [elementsFrom]
  | cons c cs ih =>
    cases skip with
    | succ k => exact ih (at_ + 1) k
    | zero =>
      rw [elementsFrom_zero]
      cases first? c cs with
      | none => exact ih (at_ + 1) 0
      | some e =>
        simp only
        rw [elementsFrom_eq]
        refine List.pairwise_cons.mpr ⟨fun q hq => ?_, ih ..⟩
        obtain ⟨k, place, behind, -⟩ := standsAt_of_mem_elementsFrom hq
        simp only
        omega

/-- The bodies of the elements of a text. -/
def bodies (content : List Char) : List Span := (elements content).map fun p => p.2.span p.1

theorem standsAt_of_mem_elements {p : Nat × Element} (h : p ∈ elements content) :
    StandsAt content p.1 p.2 := by
  obtain ⟨k, place, -, stands⟩ := standsAt_of_mem_elementsFrom h
  rwa [place, Nat.zero_add]

theorem StandsAt.lt {at_ : Nat} (h : StandsAt content at_ e) : at_ < content.length :=
  (List.getElem?_eq_some_iff.mp h.bracket).1

/-- The body of an element lies behind its bracket, in the element and in the text. -/
theorem StandsAt.span {at_ : Nat} (h : StandsAt content at_ e) :
    at_ < (e.span at_).start ∧ (e.span at_).stop ≤ at_ + e.length ∧
      (e.span at_).Within content := by
  obtain ⟨behind, inside, short⟩ := element?_fits h.reads
  have there := h.lt
  rw [List.length_drop] at short
  refine ⟨?_, ?_, ?_, ?_⟩ <;> simp only [Element.span] <;> omega

theorem within_of_mem_bodies : ∀ s ∈ bodies content, s.Within content := by
  intro s hs
  obtain ⟨p, hp, rfl⟩ := List.mem_map.mp hs
  exact (standsAt_of_mem_elements hp).span.2.2

theorem bodies_apart (content : List Char) : Apart (bodies content) := by
  refine List.pairwise_map.mpr ((elementsFrom_pairwise 0 0 content).imp_of_mem ?_)
  intro p q hp hq follows
  have first := (standsAt_of_mem_elements hp).span.2.1
  have second := (standsAt_of_mem_elements hq).span.1
  omega

/-! ### Front matter -/

theorem fenceFrom_le {before : Nat} (h : fenceFrom before cs = some n) :
    before ≤ n ∧ n ≤ before + cs.length := by
  induction cs generalizing before with
  | nil => cases h
  | cons c cs ih =>
    rw [fenceFrom] at h
    split at h
    · cases h
      omega
    · have := ih h
      rw [List.length_cons]
      omega

/-- Front matter lies in the text, and no angle bracket stands before it. -/
theorem frontMatter?_spec {m : Span} (h : frontMatter? content = some m) :
    m.Within content ∧ '<' ∉ content.take m.start := by
  unfold frontMatter? at h
  split at h
  · rename_i rest fence
    split at h
    · rename_i body opened
      obtain ⟨n, closed, rfl⟩ := Option.map_eq_some_iff.mp h
      obtain ⟨front, rfl, plain⟩ : ∃ front, content = front ++ body ∧ '<' ∉ front := by
        refine ⟨content.takeWhile Text.isBlank ++ ['-', '-', '-'] ++
          rest.takeWhile (fun c => c == ' ' || c == '\t') ++ ['\n'], ?_, ?_⟩
        · have blanks := (List.takeWhile_append_dropWhile (p := Text.isBlank) (l := content)).symm
          rw [show content.dropWhile Text.isBlank = _ from fence,
            ← List.takeWhile_append_dropWhile (p := fun c => c == ' ' || c == '\t') (l := rest),
            opened] at blanks
          simpa using blanks
        · simp only [List.mem_append, not_or]
          refine ⟨⟨⟨fun mem => ?_, by decide⟩, fun mem => ?_⟩, by decide⟩
          · exact absurd (List.mem_takeWhile_imp mem) (by decide)
          · exact absurd (List.mem_takeWhile_imp mem) (by decide)
      have fits := (fenceFrom_le closed).2
      rw [List.length_append, Nat.add_sub_cancel]
      refine ⟨⟨Nat.le_add_right _ _, ?_⟩, by rwa [List.take_left]⟩
      simp only [List.length_append]
      omega
    · cases h
  · cases h

/-! ### Scripts and their files -/

/-- The body of some element begins inside the front matter. -/
def BodyInMatter (content : List Char) : Prop :=
  ∃ m, frontMatter? content = some m ∧ ∃ s ∈ bodies content, s.start < m.stop

/-- Bodies start behind the start of the front matter. -/
theorem start_lt_of_mem_bodies {m s : Span} (matter : frontMatter? content = some m)
    (hs : s ∈ bodies content) : m.start < s.start := by
  obtain ⟨p, hp, rfl⟩ := List.mem_map.mp hs
  have stands := standsAt_of_mem_elements hp
  refine Nat.lt_of_not_le fun early => (frontMatter?_spec matter).2 ?_
  have bracket : (content.take m.start)[p.1]? = some '<' := by
    rw [List.getElem?_take, if_pos (Nat.lt_of_lt_of_le stands.span.1 early)]
    exact stands.bracket
  exact List.mem_of_getElem? bracket

theorem Span.le_of_lt {s t : Span} (h : s.start < t.start) : s.le t = true := by
  simp [Span.le, h]

/-- Bodies that are apart are in order. -/
theorem bodies_pairwise (content : List Char) :
    (bodies content).Pairwise fun s t => s.le t = true := by
  refine (bodies_apart content).imp_of_mem fun hs ht follows => ?_
  have := (within_of_mem_bodies _ hs).ordered
  have := (within_of_mem_bodies _ ht).ordered
  simp only [Span.le, Bool.or_eq_true, Bool.and_eq_true, decide_eq_true_eq, beq_iff_eq]
  omega

/-- Without front matter, a script has the layout of its file. -/
theorem sameLayout_bodies (content : List Char) :
    SameLayout content (keepFrom content 0 ((bodies content).mergeSort Span.le)) := by
  rw [List.mergeSort_of_pairwise (bodies_pairwise content),
    sameLayout_keepFrom_iff within_of_mem_bodies,
    overlap_eq_zero_iff within_of_mem_bodies (bodies_apart content)]
  exact fun s _ => Nat.zero_le s.start

/-- With front matter it does so just when every body begins behind it. -/
theorem sameLayout_matter_iff {m : Span} (matter : frontMatter? content = some m) :
    SameLayout content (keepFrom content 0 ((m :: bodies content).mergeSort Span.le)) ↔
      ∀ s ∈ bodies content, m.stop ≤ s.start := by
  have sorted : (m :: bodies content).Pairwise fun s t => s.le t = true :=
    List.pairwise_cons.mpr
      ⟨fun s hs => Span.le_of_lt (start_lt_of_mem_bodies matter hs), bodies_pairwise content⟩
  have within : ∀ s ∈ m :: bodies content, s.Within content :=
    List.forall_mem_cons.mpr ⟨(frontMatter?_spec matter).1, within_of_mem_bodies⟩
  rw [List.mergeSort_of_pairwise sorted, sameLayout_keepFrom_iff within, overlap, Nat.zero_sub,
    Nat.zero_add, overlap_eq_zero_iff within_of_mem_bodies (bodies_apart content)]

theorem extract_script (content : List Char) (suffix : String) : (extract content suffix).1 =
    keepFrom content 0 (((if suffix == ".astro" then (frontMatter? content).toList else []) ++
      bodies content).mergeSort Span.le) := rfl

/-- The script has the layout of the file unless a body begins inside the front matter of a page. -/
theorem sameLayout_extract {suffix : String}
    (calm : suffix = ".astro" → ¬ BodyInMatter content) :
    SameLayout content (extract content suffix).1 := by
  rw [extract_script]
  by_cases page : suffix = ".astro"
  · rw [if_pos (beq_iff_eq.mpr page)]
    cases matter : frontMatter? content with
    | none => exact sameLayout_bodies content
    | some m =>
      rw [Option.toList_some, List.singleton_append, sameLayout_matter_iff matter]
      exact fun s hs => Nat.le_of_not_lt fun early => calm page ⟨m, matter, s, hs, early⟩
  · rw [if_neg (mt beq_iff_eq.mp page), List.nil_append]
    exact sameLayout_bodies content

/-- The script of a component file has the layout of the file, unless the file is a page in whose
front matter the body of an element begins. -/
theorem extract_sameLayout_iff (content : List Char) (suffix : String) :
    SameLayout content (extract content suffix).1 ↔
      (suffix = ".astro" → ¬ BodyInMatter content) := by
  refine ⟨?_, sameLayout_extract⟩
  rintro same rfl ⟨m, matter, s, hs, early⟩
  rw [extract_script, if_pos (beq_self_eq_true _), matter, Option.toList_some,
    List.singleton_append, sameLayout_matter_iff matter] at same
  exact Nat.not_lt_of_le (same s hs) early

/-- A page whose front matter mentions a script element. -/
def taggedPage : List Char := "---\nconst tag = \"<script>x</script>\";\n---\n".toList

/-- The script of the page does not have its layout. -/
theorem taggedPage_not_sameLayout : ¬ SameLayout taggedPage (extract taggedPage ".astro").1 := by
  have matter : frontMatter? taggedPage = some ⟨4, 37⟩ := by decide +kernel
  have body : (⟨25, 26⟩ : Span) ∈ bodies taggedPage := by decide +kernel
  rw [extract_script, if_pos (beq_self_eq_true _), matter, Option.toList_some,
    List.singleton_append, sameLayout_matter_iff matter]
  intro behind
  exact absurd (behind _ body) (by decide)

end EnvCensus.Script
