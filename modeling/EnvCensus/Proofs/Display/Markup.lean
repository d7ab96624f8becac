import EnvCensus.Display.Markup
import EnvCensus.Proofs.Except
import EnvCensus.Proofs.Text.Blank
import EnvCensus.Proofs.Text.Half

/-!
# When marked-up text can be shown

Whether a text with markup shows is decided by its tags, one after the other. A
tag and the tag that closes it leave nothing behind, and a closing tag where
nothing is open stops the reading. What a text shows are its own characters and
pictographs.
-/

namespace EnvCensus.Display

namespace Style

/-- Only a colour by its parts can be faulty. -/
theorem color_ends {word : String} (h : between? "rgb(" word.toList = none) :
    Ends (· = .meaningless) (fun _ => True) (color word) := by
  unfold color
  split
  · exact .ok trivial
  · rw [h]
    exact .error rfl

theorem partsOf_ends {ws : List (String × String)} (p : Parts)
    (h : ∀ w ∈ ws, between? "rgb(" w.2.toList = none) :
    Ends (· = .meaningless) (fun _ => True) (partsOf p ws) := by
  have later {w : String × String} {ws : List (String × String)}
      (h : ∀ v ∈ w :: ws, between? "rgb(" v.2.toList = none) :
      ∀ v ∈ ws, between? "rgb(" v.2.toList = none := fun v hv => h v (List.mem_cons_of_mem _ hv)
  fun_induction partsOf p ws with
  | case1 => exact .ok trivial
  | case2 => exact .error rfl
  | case3 => exact .ok trivial
  | case4 => exact (color_ends (h _ List.mem_cons_self)).map fun _ _ => trivial
  | case5 _ _ _ _ _ _ _ ih =>
    exact (color_ends (later h _ List.mem_cons_self)).bind fun c _ => ih c (later (later h))
  | case6 _ _ _ _ _ _ _ _ _ _ ih => exact ih (later (later h))
  | case7 => exact .error rfl
  | case8 _ _ _ _ _ _ _ _ _ ih => exact ih (later (later h))
  | case9 _ _ _ _ _ _ _ _ _ _ _ ih => exact ih (later h)
  | case10 _ _ _ _ _ _ _ _ _ _ ih =>
    exact (color_ends (h _ List.mem_cons_self)).bind fun c _ => ih c (later h)

/-- Such words have a normal form. -/
theorem normalForm_of_words {s : String}
    (h : ∀ w ∈ wordsOf s.toList, between? "rgb(" (Text.lowerAscii w).toList = none) :
    ∃ form, normalForm s = .ok form := by
  have ends := partsOf_ends {} (List.forall_mem_map.mpr h :
    ∀ w ∈ (wordsOf s.toList).map fun w => (w, Text.lowerAscii w), between? "rgb(" w.2.toList = none)
  unfold normalForm
  simp only
  split
  · exact ⟨_, rfl⟩
  · cases read : partsOf {} ((wordsOf s.toList).map fun w => (w, Text.lowerAscii w)) with
    | ok p => exact ⟨_, rfl⟩
    | error e =>
      cases ends.failure read
      exact ⟨_, rfl⟩

end Style

namespace Markup

open Text

variable {c : Char} {cs tag rest style : List Char} {opened : List Opened} {ps : List Part}
  {s : String}

/-- The tags among the parts of a text. -/
def tagsOf (ps : List Part) : List (List Char) :=
  ps.filterMap fun
    | .tag cs => some cs
    | .plain _ => none

/-- The tags of a text. -/
def tags (cs : List Char) : List (List Char) := tagsOf (parts cs)

theorem tagsOf_prepend (c : Char) (ps : List Part) : tagsOf (Part.prepend c ps) = tagsOf ps := by
  unfold Part.prepend
  split <;> rfl

theorem tagsOf_prepend_all (front : List Char) (ps : List Part) :
    tagsOf (front.foldr Part.prepend ps) = tagsOf ps := by
  induction front with
  | nil => rfl
  | cons c front ih => rw [List.foldr_cons, tagsOf_prepend, ih]

/-! ### Tags and brackets -/

theorem tag?_eq (h : tag? cs = some (tag, rest)) : cs = tag ++ ']' :: rest := by
  unfold tag? at h
  split at h
  · split at h
    · split at h
      · rename_i r hr
        cases h
        rw [← hr, List.takeWhile_append_dropWhile]
      · cases h
    · cases h
  · cases h

/-- What is neither a backslash nor a bracket has no part in the tags that follow. -/
theorem tags_cons (slash : c ≠ '\\') (bracket : c ≠ '[') (cs : List Char) :
    tags (c :: cs) = tags cs := by
  rw [tags, parts, partsAfter.eq_def]
  split
  · rename_i e
    cases e
  · rename_i e
    cases e
    exact absurd rfl slash
  · rename_i e
    cases e
    exact absurd rfl bracket
  · rename_i e
    cases e
    exact (tagsOf_prepend_all [] _).trans (tagsOf_prepend _ _)

theorem tags_tag (h : tag? rest = some (tag, cs)) : tags ('[' :: rest) = tag :: tags cs := by
  rw [tags, parts, partsAfter]
  split
  · rename_i e
    cases h.symm.trans e
    rfl
  · rename_i e
    cases h.symm.trans e

theorem tags_append {front : List Char} (slash : '\\' ∉ front) (bracket : '[' ∉ front)
    (cs : List Char) : tags (front ++ cs) = tags cs := by
  induction front with
  | nil => rfl
  | cons c front ih =>
    rw [List.mem_cons, not_or] at slash bracket
    rw [List.cons_append, tags_cons (Ne.symm slash.1) (Ne.symm bracket.1), ih slash.2 bracket.2]

theorem tag?_bracketed (first : startsTag c = true) (closing : ']' ∉ c :: tag)
    (bracket : '[' ∉ c :: tag) (rest : List Char) :
    tag? (c :: tag ++ ']' :: rest) = some (c :: tag, rest) := by
  have inside : ∀ d ∈ c :: tag, (d != ']' && d != '[') = true := by
    intro d hd
    have other : d ≠ ']' ∧ d ≠ '[' := ⟨fun e => closing (e ▸ hd), fun e => bracket (e ▸ hd)⟩
    simp [other]
  have scanned : (c :: tag ++ ']' :: rest).dropWhile (fun d => d != ']' && d != '[') =
        ']' :: rest ∧
      (c :: tag ++ ']' :: rest).takeWhile (fun d => d != ']' && d != '[') = c :: tag := by
    rw [List.dropWhile_append_of_pos inside, List.takeWhile_append_of_pos inside]
    simp
  rw [List.cons_append] at scanned ⊢
  simp only [tag?, first, scanned, if_true]

/-- Without an opening bracket there are no tags. -/
theorem tags_of_unmarked (h : '[' ∉ cs) : tags cs = [] := by
  -- The slashes that are waiting take no part, so the claim is made for any number of them.
  have waiting : ∀ slashes, tagsOf (partsAfter slashes cs) = [] := by
    intro slashes
    fun_induction partsAfter slashes cs with
    | case1 => rfl
    | case2 => rfl
    | case3 slashes rest ih => exact ih fun mem => h (List.mem_cons_of_mem _ mem)
    | case4 => exact absurd List.mem_cons_self h
    | case5 => exact absurd List.mem_cons_self h
    | case6 slashes c rest _ _ ih =>
      rw [tagsOf_prepend_all, tagsOf_prepend]
      exact ih fun mem => h (List.mem_cons_of_mem _ mem)
  exact waiting 0

/-! ### Tags one after the other -/

/-- The parts show just when all their tags can be taken, and fail as these do. -/
theorem shown_settled (opened : List Opened) (ps : List Part) :
    (shown opened ps).map (fun _ => ()) =
      ((tagsOf ps).foldlM afterTag opened).map fun _ => () := by
  induction ps generalizing opened with
  | nil => rfl
  | cons p ps ih =>
    cases p with
    | plain cs =>
      have same : tagsOf (.plain cs :: ps) = tagsOf ps := rfl
      rw [shown, same, ← ih]
      cases shown opened ps <;> rfl
    | tag cs =>
      have first : tagsOf (.tag cs :: ps) = cs :: tagsOf ps := rfl
      rw [shown, first, List.foldlM_cons]
      cases afterTag opened cs with
      | error e => rfl
      | ok next => exact ih next

/-- A text is read just when all its tags can be taken, and fails as these do. -/
theorem read_settled (s : String) :
    (read s).map (fun _ => ()) = ((tags s.toList).foldlM afterTag []).map fun _ => () := by
  unfold read
  split
  · rw [tags, ← shown_settled]
    cases shown [] (parts s.toList) <;> rfl
  · rename_i unmarked
    rw [tags_of_unmarked (by simpa using unmarked)]
    rfl

theorem read_of_ok {after : List Opened} (h : (tags s.toList).foldlM afterTag [] = .ok after) :
    ∃ cs, read s = .ok cs := by
  have settled := read_settled s
  rw [h] at settled
  obtain ⟨cs, shows, -⟩ := map_eq_ok.mp settled
  exact ⟨cs, shows⟩

theorem read_of_error {e : Fault} (h : (tags s.toList).foldlM afterTag [] = .error e) :
    read s = .error e := by
  have settled := read_settled s
  rw [h] at settled
  exact map_eq_error.mp settled

/-! ### Styled text -/

/-- A word that opens a style as a tag and closes it after a slash. -/
structure IsStyle (style : List Char) : Prop where
  first : style.head?.any startsTag = true
  opens : style.head? ≠ some '/'
  closing : ']' ∉ style
  bracket : '[' ∉ style
  equals : '=' ∉ style
  trimmed : trim style = style
  normal : ∃ form, normalName style = .ok form

theorem IsStyle.tagName (h : IsStyle style) : tagName style = style :=
  List.takeWhile_eq_self_iff.mpr fun c hc => by
    have other : c ≠ '=' := fun e => h.equals (e ▸ hc)
    simp [other]

theorem IsStyle.tagParameters (h : IsStyle style) : tagParameters style = none := by
  have all : style.dropWhile (· != '=') = [] := List.dropWhile_eq_nil_iff.mpr fun c hc => by
    have other : c ≠ '=' := fun e => h.equals (e ▸ hc)
    simp [other]
  rw [Markup.tagParameters, all]

/-- The tag of a style opens it, and its closing tag takes it away again. -/
theorem IsStyle.afterTag (h : IsStyle style) (opened : List Opened) : ∃ s,
    Markup.afterTag opened style = .ok (s :: opened) ∧
      Markup.afterTag (s :: opened) ('/' :: style) = .ok opened := by
  obtain ⟨form, named⟩ := h.normal
  have closes : Markup.tagName ('/' :: style) = '/' :: style := by
    have name := h.tagName
    rw [Markup.tagName] at name ⊢
    rw [List.takeWhile_cons_of_pos (by decide), name]
  refine ⟨⟨form, none⟩, ?_, ?_⟩
  · unfold Markup.afterTag
    rw [h.tagName]
    split
    · exact absurd rfl h.opens
    · rw [named, h.tagParameters]
      rfl
  · have closable : canClose ⟨form, none⟩ = true := by simp [canClose]
    unfold Markup.afterTag
    rw [closes]
    simp only [h.trimmed]
    split
    · simp [closable, pure, Except.pure, bind, Except.bind]
    · simp [named, closeNamed, closable, pure, Except.pure, bind, Except.bind]

/-- The tags around a styled text leave nothing open. -/
theorem foldlM_tags_styled (h : IsStyle style) {text : List Char}
    (slash : '\\' ∉ text) (bracket : '[' ∉ text) (rest : List Char) :
    (tags ('[' :: style ++ ']' :: text ++ '[' :: '/' :: style ++ ']' :: rest)).foldlM
      Markup.afterTag opened = (tags rest).foldlM Markup.afterTag opened := by
  obtain ⟨c, word, rfl⟩ : ∃ c word, style = c :: word := by
    cases style with
    | nil => exact absurd h.first (by simp)
    | cons c word => exact ⟨c, word, rfl⟩
  have spelled : '[' :: (c :: word) ++ ']' :: text ++ '[' :: '/' :: (c :: word) ++ ']' :: rest =
      '[' :: (c :: word ++ ']' :: (text ++ '[' :: ('/' :: (c :: word) ++ ']' :: rest))) := by simp
  have opening := tag?_bracketed (by simpa using h.first) h.closing h.bracket
    (text ++ '[' :: ('/' :: (c :: word) ++ ']' :: rest))
  have closing : tag? ('/' :: (c :: word) ++ ']' :: rest) = some ('/' :: c :: word, rest) :=
    tag?_bracketed rfl (by simpa using h.closing) (by simpa using h.bracket) rest
  obtain ⟨s, first, last⟩ := h.afterTag opened
  rw [spelled, tags_tag opening, tags_append slash bracket, tags_tag closing, List.foldlM_cons,
    first, ok_bind, List.foldlM_cons, last, ok_bind]

/-! ### Closing tags -/

/-- Where nothing is open, nothing can be closed. -/
theorem afterTag_closing (name : List Char) : ∃ e, afterTag [] ('/' :: name) = .error e := by
  have closes : tagName ('/' :: name) = '/' :: name.takeWhile (· != '=') :=
    List.takeWhile_cons_of_pos (by decide)
  unfold afterTag
  rw [closes]
  simp only
  split
  · exact ⟨.unopened, rfl⟩
  · cases normalName (trim (name.takeWhile (· != '='))) with
    | error e => exact ⟨e, rfl⟩
    | ok form => exact ⟨.unopened, rfl⟩

/-- Where nothing is open, a closing tag stops the reading. -/
theorem closing_stops {name : List Char} (opening : '[' ∉ name) (closing : ']' ∉ name)
    (back : List Char) :
    ∃ e, (tags ('[' :: '/' :: name ++ ']' :: back)).foldlM afterTag [] = .error e := by
  have tagged : tag? ('/' :: name ++ ']' :: back) = some ('/' :: name, back) :=
    tag?_bracketed rfl (by simpa using closing) (by simpa using opening) back
  have split : '[' :: '/' :: name ++ ']' :: back = '[' :: ('/' :: name ++ ']' :: back) := rfl
  obtain ⟨e, stops⟩ := afterTag_closing name
  rw [split, tags_tag tagged, List.foldlM_cons, stops]
  exact ⟨e, rfl⟩

/-! ### What is shown -/

theorem unescaped_subset (cs : List Char) : unescaped cs ⊆ cs := by
  fun_induction unescaped cs with
  | case1 rest ih =>
    exact List.cons_subset.mpr ⟨by simp, fun c hc => by simp [ih hc]⟩
  | case2 c rest _ ih =>
    exact List.cons_subset.mpr ⟨List.mem_cons_self, fun c hc => List.mem_cons_of_mem _ (ih hc)⟩
  | case3 => exact List.Subset.refl _

section Halves

variable [Halves] [LawfulHalves]

/-- Nothing in the plain parts stands in for a half. -/
def PlainWhole (ps : List Part) : Prop := ∀ cs, .plain cs ∈ ps → Whole cs

omit [LawfulHalves] in
theorem plainWhole_cons_plain : PlainWhole (.plain cs :: ps) ↔ Whole cs ∧ PlainWhole ps := by
  simp [PlainWhole]

omit [LawfulHalves] in
theorem plainWhole_cons_tag : PlainWhole (.tag cs :: ps) ↔ PlainWhole ps := by
  simp [PlainWhole]

omit [LawfulHalves] in
theorem PlainWhole.prepend (own : Halves.isHalf c = false) (h : PlainWhole ps) :
    PlainWhole (Part.prepend c ps) := by
  unfold Part.prepend
  split
  · obtain ⟨first, later⟩ := plainWhole_cons_plain.mp h
    exact plainWhole_cons_plain.mpr ⟨whole_cons.mpr ⟨own, first⟩, later⟩
  · exact plainWhole_cons_plain.mpr ⟨whole_cons.mpr ⟨own, whole_nil⟩, h⟩

theorem PlainWhole.slashed (slashes : Nat) (h : PlainWhole ps) :
    PlainWhole ((List.replicate slashes '\\').foldr Part.prepend ps) := by
  induction slashes with
  | zero => exact h
  | succ n ih =>
    rw [List.replicate_succ, List.foldr_cons]
    exact ih.prepend (isHalf_eq_false (by decide))

theorem PlainWhole.guardedTag (slashes : Nat) (tagged : Whole tag) (h : PlainWhole ps) :
    PlainWhole (guardedTag slashes tag ++ ps) := by
  have shown : Whole ('[' :: tag ++ [']']) := whole_append.mpr
    ⟨whole_cons.mpr ⟨isHalf_eq_false (by decide), tagged⟩, whole_of_all (by decide)⟩
  have last : PlainWhole
      ((if slashes % 2 == 1 then .plain ('[' :: tag ++ [']']) else .tag tag) :: ps) := by
    split
    · exact plainWhole_cons_plain.mpr ⟨shown, h⟩
    · exact plainWhole_cons_tag.mpr h
  unfold Markup.guardedTag
  split
  · exact last
  · exact plainWhole_cons_plain.mpr ⟨whole_replicate _ (by decide), last⟩

/-- The plain parts of a text hold what it holds. -/
theorem plainWhole_partsAfter (slashes : Nat) (h : Whole cs) : PlainWhole (partsAfter slashes cs) := by
  fun_induction partsAfter slashes cs with
  | case1 => simp [PlainWhole]
  | case2 slashes => exact plainWhole_cons_plain.mpr ⟨whole_replicate _ (by decide), nofun⟩
  | case3 slashes rest ih => exact ih (whole_cons.mp h).2
  | case4 slashes rest t after ht _ ih =>
    have own := (whole_cons.mp h).2
    rw [tag?_eq ht, whole_append] at own
    exact (ih (whole_cons.mp own.2).2).guardedTag slashes own.1
  | case5 slashes rest _ ih =>
    obtain ⟨bracket, later⟩ := whole_cons.mp h
    exact ((ih later).prepend bracket).slashed slashes
  | case6 slashes c rest _ _ ih =>
    obtain ⟨first, later⟩ := whole_cons.mp h
    exact ((ih later).prepend first).slashed slashes

/-! ### Pictographs -/

omit [Halves] [LawfulHalves] in
theorem toNat_ofNat_le (n : Nat) : (Char.ofNat n).toNat ≤ n := by
  by_cases valid : n.isValidChar
  · rw [Char.ofNat, dif_pos valid]
    exact Nat.le_refl n
  · rw [Char.ofNat, dif_neg valid]
    exact Nat.zero_le _

theorem whole_codesFrom {n : Nat} (small : n < 0x100000) (cs : List Char) :
    Whole (Pictograph.codesFrom n cs) := by
  have code {n : Nat} (small : n < 0x100000) : Halves.isHalf (Char.ofNat n) = false :=
    isHalf_eq_false (isSpare_eq_false_of_lt
      (Nat.lt_of_le_of_lt (toNat_ofNat_le n) (Nat.lt_trans small (by decide))))
  fun_induction Pictograph.codesFrom n cs with
  | case1 n => exact whole_cons.mpr ⟨code small, whole_nil⟩
  | case2 n rest ih => exact whole_cons.mpr ⟨code small, ih (by decide)⟩
  | case3 n d rest _ ih => exact ih (Nat.mod_lt _ (by decide))

theorem whole_rowOf? {name : List Char} {mark : Char}
    (h : Pictograph.rowOf? name mark = some cs) : Whole cs := by
  obtain ⟨row, -, found⟩ := List.exists_of_findSome?_eq_some h
  obtain ⟨entry, -, rfl⟩ := Option.map_eq_some_iff.mp found
  exact whole_codesFrom (by decide) _

theorem whole_toned? {name : List Char} (h : Pictograph.toned? name = some cs) : Whole cs := by
  have modifiers : ∀ t ∈ Pictograph.tones, isSpare t.2 = false := by decide
  obtain ⟨⟨ending, modifier⟩, mem, toned⟩ := List.exists_of_findSome?_eq_some h
  obtain ⟨base, -, toned⟩ := Option.bind_eq_some_iff.mp toned
  obtain ⟨codes, row, toned⟩ := Option.bind_eq_some_iff.mp toned
  have codesWhole := whole_rowOf? row
  cases codes with
  | nil => cases toned
  | cons c rest =>
    cases toned
    obtain ⟨first, later⟩ := whole_cons.mp codesWhole
    exact whole_cons.mpr ⟨first, whole_cons.mpr ⟨isHalf_eq_false (modifiers _ mem), later⟩⟩

theorem whole_ofName? {name : List Char} (h : Pictograph.ofName? name = some cs) : Whole cs := by
  unfold Pictograph.ofName? at h
  split at h
  · cases h
  · rcases Option.or_eq_some_iff.mp h with row | ⟨-, toned⟩
    · rcases Option.or_eq_some_iff.mp row with row | ⟨-, row⟩
      · exact whole_rowOf? row
      · exact whole_rowOf? row
    · exact whole_toned? toned

theorem whole_ofCode? {code : List Char} (h : Pictograph.ofCode? code = some cs) : Whole cs := by
  have selectors : ∀ v ∈ Pictograph.variants, isSpare v.2 = false := by decide
  unfold Pictograph.ofCode? at h
  simp only at h
  split at h
  · rename_i name selector found
    obtain ⟨plain, named, rfl⟩ := Option.map_eq_some_iff.mp h
    obtain ⟨⟨ending, c⟩, mem, shown⟩ := List.exists_of_findSome?_eq_some found
    obtain ⟨n, -, e⟩ := Option.map_eq_some_iff.mp shown
    cases e
    exact whole_append.mpr ⟨whole_ofName? named,
      whole_cons.mpr ⟨isHalf_eq_false (selectors _ mem), whole_nil⟩⟩
  · exact whole_ofName? h

omit [Halves] [LawfulHalves] in
theorem upToColon?_eq {code after : List Char}
    (h : Pictograph.upToColon? cs = some (code, after)) : cs = code ++ ':' :: after := by
  unfold Pictograph.upToColon? at h
  split at h
  · rename_i rest hr
    cases h
    rw [← hr, List.takeWhile_append_dropWhile]
  · cases h

theorem whole_replaced (h : Whole cs) : Whole (Pictograph.replaced cs) := by
  fun_induction Pictograph.replaced cs with
  | case1 => exact h
  | case2 rest code after split _ ih =>
    obtain ⟨colon, later⟩ := whole_cons.mp h
    rw [upToColon?_eq split, whole_append] at later
    refine whole_append.mpr ⟨?_, ih (whole_cons.mp later.2).2⟩
    cases named : Pictograph.ofCode? code with
    | some shown => exact whole_ofCode? named
    | none =>
      rw [Option.getD_none]
      exact whole_append.mpr
        ⟨whole_cons.mpr ⟨colon, later.1⟩, whole_cons.mpr ⟨colon, whole_nil⟩⟩
  | case3 rest _ ih => exact whole_cons.mpr ⟨(whole_cons.mp h).1, ih (whole_cons.mp h).2⟩
  | case4 c rest _ ih => exact whole_cons.mpr ⟨(whole_cons.mp h).1, ih (whole_cons.mp h).2⟩

/-! ### Whole texts -/

theorem whole_shown {cs : List Char} (each : PlainWhole ps) (h : shown opened ps = .ok cs) :
    Whole cs := by
  induction ps generalizing opened cs with
  | nil =>
    cases h
    exact whole_nil
  | cons p ps ih =>
    cases p with
    | plain ds =>
      obtain ⟨own, others⟩ := plainWhole_cons_plain.mp each
      obtain ⟨rest, later, e⟩ := bind_eq_ok.mp h
      cases e
      exact whole_append.mpr
        ⟨whole_replaced (own.of_subset (unescaped_subset ds)), ih others later⟩
    | tag ds =>
      obtain ⟨next, -, later⟩ := bind_eq_ok.mp h
      exact ih (plainWhole_cons_tag.mp each) later

/-- What is shown of a whole text is whole. -/
theorem whole_read (h : Whole s.toList) (shows : read s = .ok cs) : Whole cs := by
  have kept {ds : List Char} (h : Whole ds) : Whole (withoutControls ds) :=
    h.of_subset List.filter_sublist.subset
  unfold read at shows
  split at shows
  · obtain ⟨ds, shown, rfl⟩ := map_eq_ok.mp shows
    exact kept (whole_shown (plainWhole_partsAfter 0 h) shown)
  · cases shows
    exact kept (whole_replaced h)

end Halves

end Markup

end EnvCensus.Display
