import EnvCensus.Proofs.Display.Markup
import EnvCensus.Report.Terminal

/-!
# What reports rely on

A display may read marked-up text in its own way. Reports rely on this much: a
text without tags shows, also behind a styled text of theirs, and a tag with
nothing to close stops the display. What is shown of a text without halves has
none.
-/

namespace EnvCensus

open Text (Whole)
open Report.Terminal (styled)

namespace Console

/-- The styles that reports and messages use. -/
def styles : List String :=
  ["red", "yellow", "green", "dim", "cyan", "blue", "magenta", "white"]

/-- Neither backslashes nor opening brackets stand in the text. -/
def Plain (s : String) : Prop := '\\' ∉ s.toList ∧ '[' ∉ s.toList

instance (s : String) : Decidable (Plain s) := inferInstanceAs (Decidable (_ ∧ _))

/-- A text after which no style is open: a plain one, or one with a styled text in it. -/
inductive Closed : String → Prop
  | plain {s : String} : Plain s → Closed s
  | styled {front style text back : String} : style ∈ styles → Plain front → Plain text →
      Plain back → Closed (front ++ styled style text ++ back)

class Lawful [Text.Halves] [Console] : Prop where
  shows {s back : String} : Closed s → '[' ∉ back.toList → ∃ cs, Console.read (s ++ back) = .ok cs
  unopened {s name : String} (back : String) : Closed s →
    ('[' ∉ name.toList ∧ ']' ∉ name.toList) →
    ∃ e, Console.read (s ++ "[/" ++ name ++ "]" ++ back) = .error e
  whole {s : String} {cs : List Char} : Console.read s = .ok cs → Whole s.toList → Whole cs

theorem shows_closed [Text.Halves] [Console] [Lawful] {s : String} (h : Closed s) :
    ∃ cs, Console.read s = .ok cs := by
  have alone : ∃ cs, Console.read (s ++ "") = .ok cs := Lawful.shows h (by decide)
  rwa [String.append_empty] at alone

/-- A text without an opening bracket shows. -/
theorem shows_unmarked [Text.Halves] [Console] [Lawful] {s : String} (h : '[' ∉ s.toList) :
    ∃ cs, Console.read s = .ok cs := by
  have alone := Lawful.shows (.plain (by decide : Plain "")) h
  rwa [String.empty_append] at alone

end Console

namespace Display.Markup

open Console (Closed)

theorem isStyle_of_mem {style : String} (h : style ∈ Console.styles) : IsStyle style.toList := by
  have shape : ∀ style ∈ Console.styles, style.toList.head?.any startsTag = true ∧
      style.toList.head? ≠ some '/' ∧ ']' ∉ style.toList ∧ '[' ∉ style.toList ∧
      '=' ∉ style.toList ∧ Text.trim style.toList = style.toList := by decide
  have words : ∀ style ∈ Console.styles, ∀ w ∈ Style.wordsOf style.toList,
      Style.between? "rgb(" (Text.lowerAscii w).toList = none := by decide +kernel
  obtain ⟨first, opens, closing, bracket, equals, trimmed⟩ := shape style h
  obtain ⟨form, normal⟩ := Style.normalForm_of_words (words style h)
  refine ⟨first, opens, closing, bracket, equals, trimmed, form, mapError_eq_ok.mpr ?_⟩
  rw [String.ofList_toList]
  exact normal

/-- The tags behind a text that leaves no style open are taken as if they stood alone. -/
theorem foldlM_tags_closed {s : String} (h : Closed s) (cs : List Char) :
    (tags (s.toList ++ cs)).foldlM afterTag [] = (tags cs).foldlM afterTag [] := by
  cases h with
  | plain plain => rw [tags_append plain.1 plain.2]
  | @styled front style text back known before inside after =>
    have parts : styled style text = "[" ++ style ++ "]" ++ text ++ "[/" ++ style ++ "]" := rfl
    have spelled : (front ++ styled style text ++ back).toList ++ cs = front.toList ++
        ('[' :: style.toList ++ ']' :: text.toList ++
          '[' :: '/' :: style.toList ++ ']' :: (back.toList ++ cs)) := by
      simp [parts]
    rw [spelled, tags_append before.1 before.2,
      foldlM_tags_styled (isStyle_of_mem known) inside.1 inside.2, tags_append after.1 after.2]

theorem read_of_closed {s back : String} (h : Closed s) (unmarked : '[' ∉ back.toList) :
    ∃ cs, read (s ++ back) = .ok cs := by
  have settled : (tags (s ++ back).toList).foldlM afterTag [] = .ok [] := by
    rw [String.toList_append, foldlM_tags_closed h, tags_of_unmarked unmarked]
    rfl
  exact read_of_ok settled

theorem read_unopened {s name : String} (back : String) (h : Closed s)
    (named : '[' ∉ name.toList ∧ ']' ∉ name.toList) :
    ∃ e, read (s ++ "[/" ++ name ++ "]" ++ back) = .error e := by
  have spelled : (s ++ "[/" ++ name ++ "]" ++ back).toList =
      s.toList ++ ('[' :: '/' :: name.toList ++ ']' :: back.toList) := by
    simp
  obtain ⟨e, stops⟩ := closing_stops named.1 named.2 back.toList
  exact ⟨e, read_of_error (by rw [spelled, foldlM_tags_closed h, stops])⟩

end Display.Markup

open Display.Markup in
instance Console.lawful : Console.Lawful where
  shows closed unmarked := by
    obtain ⟨cs, shows⟩ := read_of_closed closed unmarked
    exact ⟨cs, mapError_eq_ok.mpr shows⟩
  unopened back closed named := by
    obtain ⟨e, stops⟩ := read_unopened back closed named
    exact ⟨.ofTag e, congrArg (Except.mapError Failure.ofTag) stops⟩
  whole shows whole := whole_read whole (mapError_eq_ok.mp shows)

end EnvCensus
