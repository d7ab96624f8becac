import EnvCensus.Proofs.Script.Lexemes
import EnvCensus.Script.Grammar.Rule

/-!
# Parsers spell out what they read

A parser spells out its text when the tokens of what it gives are the text that
it has passed, in order and each at its place. The property is put together in
the way in which parsers are: a parser that follows another one is told which
tokens have been read already, and at the end what is given must have all of
them.
-/

namespace EnvCensus.Script

/-- The tokens of what a parser gives; what is merely learned from a text has none. -/
class HasLexemes (α : Type) where
  lexemesOf : α → List Lexeme

open HasLexemes

instance : HasLexemes Tree := ⟨Tree.lexemes⟩

instance : HasLexemes (List Tree) := ⟨lexemesAll⟩

instance : HasLexemes Unit := ⟨fun _ => []⟩

instance : HasLexemes Bool := ⟨fun _ => []⟩

instance : HasLexemes String := ⟨fun _ => []⟩

instance : HasLexemes (List Char) := ⟨fun _ => []⟩

@[simp] theorem lexemesOf_tree (t : Tree) : lexemesOf t = t.lexemes := rfl

@[simp] theorem lexemesOf_trees (ts : List Tree) : lexemesOf ts = lexemesAll ts := rfl

@[simp] theorem lexemesOf_unit (u : Unit) : lexemesOf u = [] := rfl

@[simp] theorem lexemesOf_bool (b : Bool) : lexemesOf b = [] := rfl

@[simp] theorem lexemesOf_string (s : String) : lexemesOf s = [] := rfl

@[simp] theorem lexemesOf_chars (cs : List Char) : lexemesOf cs = [] := rfl

/-! ### Cursors -/

namespace Cursor

variable {c c' c'' : Cursor} {ks ls : List Lexeme}

/-- The cursor has the gap and the rest that its text has. -/
def Sound (c : Cursor) : Prop := Cursor.at c.rawAt c.raw = c

theorem sound_at (p : Point) (cs : List Char) : (Cursor.at p cs).Sound := rfl

/-- From the first cursor to the second these tokens are passed, and stand where they say. -/
structure Passes (c : Cursor) (ks : List Lexeme) (c' : Cursor) : Prop where
  raw : c.raw = spelled ks ++ c'.raw
  rawAt : c'.rawAt = c.rawAt.advance (spelled ks)
  placed : Placed c.rawAt ks
  sound : c'.Sound

theorem Passes.refl (sound : c.Sound) : c.Passes [] c where
  raw := rfl
  rawAt := rfl
  placed := trivial
  sound := sound

theorem Passes.append (h : c.Passes ks c') (h' : c'.Passes ls c'') : c.Passes (ks ++ ls) c'' where
  raw := by rw [h.raw, h'.raw, spelled_append, List.append_assoc]
  rawAt := by rw [h'.rawAt, h.rawAt, spelled_append, Point.advance_append]
  placed := placed_append.mpr ⟨h.placed, h.rawAt ▸ h'.placed⟩
  sound := h'.sound

/-- Behind the last token a sound cursor has the gap and then the rest. -/
theorem Sound.raw_eq (sound : c.Sound) : c.raw = c.gap ++ c.rest := by
  rw [← sound]
  exact (List.take_append_drop _ _).symm

theorem Sound.here_eq (sound : c.Sound) : c.here = c.rawAt.advance c.gap := by
  rw [← sound]
  rfl

end Cursor

namespace Parser

variable {α β : Type} [HasLexemes α] [HasLexemes β] {before before' done : List Lexeme}

/-- After these tokens, the parser gives something that has them and the tokens that it passes. -/
def Spells (before : List Lexeme) (p : Parser α) : Prop :=
  ∀ c : Cursor, c.Sound → ∀ a c', p c = some (a, c') →
    ∃ ks, c.Passes ks c' ∧ lexemesOf a = before ++ ks

namespace Spells

/-! ### Putting parsers together -/

theorem pure {a : α} (all : lexemesOf a = before) : Spells before (Pure.pure a : Parser α) := by
  intro c sound a' c' h
  cases h
  exact ⟨[], .refl sound, by rw [all, List.append_nil]⟩

/-- The first parser goes on with some of the tokens that have been read. -/
theorem bindAfter {p : Parser α} {f : α → Parser β} (first : Spells done p)
    (next : ∀ a, Spells (before ++ lexemesOf a) (f a)) : Spells (before ++ done) (p >>= f) := by
  intro c sound b c'' h
  obtain ⟨⟨a, c'⟩, read, further⟩ := Option.bind_eq_some_iff.mp h
  obtain ⟨ks, passed, spelled⟩ := first c sound a c' read
  obtain ⟨ls, passed', spelled'⟩ := next a c' passed.sound b c'' further
  refine ⟨ks ++ ls, passed.append passed', ?_⟩
  rw [spelled', spelled, List.append_assoc, List.append_assoc, List.append_assoc]

theorem bind {p : Parser α} {f : α → Parser β} (first : Spells [] p)
    (next : ∀ a, Spells (before ++ lexemesOf a) (f a)) : Spells before (p >>= f) :=
  List.append_nil before ▸ first.bindAfter next

theorem of_eq {p : Parser α} (h : Spells before p) (same : before = before') : Spells before' p :=
  same ▸ h

theorem failure : Spells before (Alternative.failure : Parser α) := by
  intro c _ a c' h
  cases h

theorem orElse {p q : Parser α} (first : Spells before p) (second : Spells before q) :
    Spells before (p <|> q) := by
  intro c sound a c' h
  cases read : p c with
  | none =>
    have other : (p <|> q) c = q c := by
      change (p c <|> q c) = q c
      rw [read]
      rfl
    exact second c sound a c' (other ▸ h)
  | some r =>
    have this : (p <|> q) c = some r := by
      change (p c <|> q c) = some r
      rw [read]
      rfl
    rw [this] at h
    cases h
    exact first c sound a c' read

theorem ite {b : Prop} [Decidable b] {p q : Parser α} (first : Spells before p)
    (second : Spells before q) : Spells before (if b then p else q) := by
  split
  · exact first
  · exact second

/-- A parser that leaves the cursor where it is spells out nothing. -/
theorem of_stays {p : Parser α} (stays : ∀ c a c', p c = some (a, c') → c' = c)
    (nothing : ∀ a : α, lexemesOf a = []) : Spells [] p := by
  intro c sound a c' h
  rw [stays c a c' h, nothing a]
  exact ⟨[], .refl sound, rfl⟩

theorem peek : Spells [] Parser.peek :=
  of_stays (by rintro c _ _ ⟨⟩; rfl) fun _ => rfl

theorem peekRaw : Spells [] Parser.peekRaw :=
  of_stays (by rintro c _ _ ⟨⟩; rfl) fun _ => rfl

theorem brokenLine : Spells [] Parser.brokenLine :=
  of_stays (by rintro c _ _ ⟨⟩; rfl) fun _ => rfl

theorem peekWord : Spells [] Parser.peekWord := .bind .peek fun _ => .pure rfl

theorem peekOperator : Spells [] Parser.peekOperator := .bind .peek fun _ => .pure rfl

theorem ensure (b : Bool) : Spells [] (Parser.ensure b) := by
  refine of_stays ?_ fun _ => rfl
  intro c a c' h
  unfold Parser.ensure at h
  split at h
  · cases h
    rfl
  · cases h

theorem ahead (p : Parser Unit) : Spells [] (Parser.ahead p) := by
  refine of_stays ?_ fun _ => rfl
  intro c a c' h
  unfold Parser.ahead at h
  split at h <;> cases h <;> rfl

/-- What follows a condition may make use of it. -/
theorem ensure_bind {b : Bool} {f : Unit → Parser β} (next : b = true → Spells before (f ())) :
    Spells before (Parser.ensure b >>= f) := by
  cases b with
  | false =>
    intro c _ a c' h
    cases h
  | true =>
    intro c sound a c' h
    exact next rfl c sound a c' h

/-! ### Tokens -/

theorem take (kind : Kind) (n : Nat) : Spells [] (Parser.take kind n) := by
  intro c sound a c' h
  cases h
  refine ⟨[⟨c.gap, c.rest.take n, c.here⟩], ⟨?_, ?_, ⟨sound.here_eq, trivial⟩, Cursor.sound_at _ _⟩, ?_⟩
  · simp [sound.raw_eq, Cursor.at]
  · simp [sound.here_eq, Cursor.at, Point.advance_append]
  · simp

theorem takeRaw (kind : Kind) (n : Nat) : Spells [] (Parser.takeRaw kind n) := by
  intro c sound a c' h
  cases h
  refine ⟨[⟨[], c.raw.take n, c.rawAt⟩], ⟨?_, ?_, ⟨rfl, trivial⟩, Cursor.sound_at _ _⟩, ?_⟩
  · simp [Cursor.at]
  · simp [Cursor.at]
  · simp

theorem mark (s : String) : Spells [] (Parser.mark s) :=
  .bind .peek fun _ => .bind (.ensure _) fun _ => .take _ _

theorem shortMark (s : String) : Spells [] (Parser.shortMark s) :=
  .bind .peek fun _ => .bind (.ensure _) fun _ => .take _ _

theorem keyword (s : String) : Spells [] (Parser.keyword s) :=
  .bind .peek fun _ => .bind (.ensure _) fun _ => .take _ _

theorem keywordIn (ws : List String) : Spells [] (Parser.keywordIn ws) :=
  .bind .peek fun _ => .bind (.ensure _) fun _ => .take _ _

theorem word (kind : Kind) : Spells [] (Parser.word kind) :=
  .bind .peek fun _ => .bind (.ensure _) fun _ => .take _ _

theorem name (d : Dialect) : Spells [] (Parser.name d) :=
  .bind .peekWord fun _ => .bind (.ensure _) fun _ => .take _ _

theorem privateName : Spells [] Parser.privateName := by
  refine .bind .peek fun cs => ?_
  split
  · exact .bind (.ensure _) fun _ => .take _ _
  · exact .failure

theorem string : Spells [] Parser.string := by
  refine .bind .peek fun cs => ?_
  split
  · exact .take _ _
  · exact .failure

theorem number : Spells [] Parser.number :=
  .bind .peek fun _ => .bind (.ensure _) fun _ => .take _ _

theorem regex : Spells [] Parser.regex := by
  refine .bind .peek fun cs => ?_
  split
  · exact .take _ _
  · exact .failure

/-! ### Nodes and repetition -/

/-- Another form of the same tokens. -/
theorem map {p : Parser α} {f : α → β} (h : Spells before p)
    (same : ∀ a, lexemesOf (f a) = lexemesOf a) : Spells before (do return f (← p)) := by
  intro c sound b c' read
  obtain ⟨⟨a, c''⟩, first, rest⟩ := Option.bind_eq_some_iff.mp read
  cases rest
  obtain ⟨ks, passed, spelled⟩ := h c sound a c' first
  exact ⟨ks, passed, (same a).trans spelled⟩

theorem one {p : Parser Tree} (h : Spells before p) : Spells before (Parser.one p) :=
  h.map fun _ => by simp

theorem nodeOf {kind : Kind} {p : Parser (List Tree)} (h : Spells before p) :
    Spells before (Parser.nodeOf kind p) :=
  h.map fun _ => by simp

theorem maybe {p : Parser (List Tree)} (h : Spells [] p) : Spells [] (Parser.maybe p) :=
  h.orElse (.pure rfl)

theorem manyFrom {p : Parser (List Tree)} (h : Spells [] p) (fuel : Nat) (done : List Tree) :
    Spells (lexemesAll done.reverse) (Parser.manyFrom p fuel done) := by
  -- the trees that are done count as spelled, which makes the claim one about any number of them
  induction fuel generalizing done with
  | zero => exact .pure rfl
  | succ fuel ih =>
    intro c sound a c'' read
    rw [Parser.manyFrom] at read
    split at read
    · rename_i ts c' first
      obtain ⟨ks, passed, spelled⟩ := h c sound ts c' first
      obtain ⟨ls, passed', spelled'⟩ := ih _ c' passed.sound a c'' read
      refine ⟨ks ++ ls, passed.append passed', ?_⟩
      rw [lexemesOf_trees, List.nil_append] at spelled
      rw [spelled', List.reverse_append, List.reverse_reverse, lexemesAll_append, spelled,
        List.append_assoc]
    · cases read
      exact ⟨[], .refl sound, by simp⟩

theorem many {p : Parser (List Tree)} (h : Spells [] p) (fuel : Nat) :
    Spells [] (Parser.many fuel p) :=
  h.manyFrom fuel []

theorem semicolon (d : Dialect) (afterOperand : Bool) :
    Spells [] (Parser.semicolon d afterOperand) := by
  refine .bind .peek fun cs => ?_
  split
  · exact .one (.take _ _)
  · exact .bind .peekRaw fun _ => .bind (.ensure _) fun _ => .pure rfl

end Spells

end Parser

/-! ### Parsers of a grammar -/

namespace Grammar

open Script.Parser

/-- All rules of the grammar spell out what they read. -/
def Spells (g : Grammar) : Prop := ∀ r, Parser.Spells [] (g.rule r)

variable {g : Grammar} {p : Parser (List Tree)}

theorem many_spells (h : Parser.Spells [] p) : Parser.Spells [] (g.many p) := h.many g.bound

theorem steps_spells {step : Tree → Parser Tree} (h : ∀ t, Parser.Spells t.lexemes (step t))
    (n : Nat) (t : Tree) : Parser.Spells t.lexemes (iterate.steps step n t) := by
  induction n generalizing t with
  | zero => exact .pure rfl
  | succ n ih =>
    intro c sound a c'' read
    simp only [iterate.steps] at read
    split at read
    · rename_i u c' first
      obtain ⟨ks, passed, spelled⟩ := h t c sound u c' first
      obtain ⟨ls, passed', spelled'⟩ := ih u c' passed.sound a c'' read
      refine ⟨ks ++ ls, passed.append passed', ?_⟩
      rw [lexemesOf_tree] at spelled
      rw [spelled', spelled, List.append_assoc]
    · cases read
      exact ⟨[], .refl sound, by simp⟩

theorem iterate_spells {step : Tree → Parser Tree} (h : ∀ t, Parser.Spells t.lexemes (step t))
    (t : Tree) : Parser.Spells t.lexemes (g.iterate step t) :=
  steps_spells h g.bound t

theorem ifTyped_spells (h : Parser.Spells [] p) : Parser.Spells [] (g.ifTyped p) := by
  unfold ifTyped
  split
  · exact .maybe h
  · exact .pure rfl

theorem listUpTo_spells (close : String) (h : Parser.Spells [] p) :
    Parser.Spells [] (g.listUpTo close p) := by
  have item : Parser.Spells [] (do
      let x ← p
      let next ← peekOperator
      ensure (next == "," || next == close)
      return x) :=
    .bind h fun _ => .bind .peekOperator fun _ => .bind (.ensure _) fun _ => .pure (by simp)
  refine .bind (many_spells ?_) fun body => .bind (.mark _) fun _ => .pure (by simp)
  exact .bind .peekOperator fun _ => .bind (.ensure _) fun _ => .orElse (.one (.mark _)) item

theorem commaList_spells (h : Parser.Spells [] p) : Parser.Spells [] (g.commaList p) := by
  refine .bind h fun first => .bind (many_spells ?_) fun more => .pure (by simp)
  exact .bind (.mark _) fun comma => .bind h fun _ => .pure (by simp)

end Grammar

end EnvCensus.Script
