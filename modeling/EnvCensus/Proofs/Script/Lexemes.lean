import EnvCensus.Script.Tree
import Mathlib.Data.List.Infix

/-!
# Lexemes of a tree

What a tree covers of its source are its tokens, in their order: the gap before
each of them, its text and the place where the text begins. The roles and kinds
of a tree and the nodes over its tokens do not matter here, so trees that a
grammar builds in different ways over the same tokens are not told apart.
-/

namespace EnvCensus.Script

/-- What a token covers of its source, and where its text begins. -/
structure Lexeme where
  gap : List Char
  text : List Char
  start : Point

mutual

/-- The tokens of a tree from left to right. -/
def Tree.lexemes : Tree → List Lexeme
  | .token _ _ gap text start _ => [⟨gap, text, start⟩]
  | .node _ _ cs => lexemesAll cs

def lexemesAll : List Tree → List Lexeme
  | [] => []
  | c :: cs => c.lexemes ++ lexemesAll cs

end

variable {t u : Tree} {ts us : List Tree} {ks ls : List Lexeme} {p q : Point} {xs ys : List Char}

@[simp] theorem Tree.lexemes_node (r : Role) (k : Kind) (ts : List Tree) :
    (Tree.node r k ts).lexemes = lexemesAll ts := by
  rw [Tree.lexemes]

@[simp] theorem Tree.lexemes_token (r : Role) (k : Kind) (gap text : List Char)
    (start stop : Point) : (Tree.token r k gap text start stop).lexemes = [⟨gap, text, start⟩] := by
  rw [Tree.lexemes]

@[simp] theorem Tree.lexemes_as (t : Tree) (r : Role) : (t.as r).lexemes = t.lexemes := by
  cases t <;> simp [Tree.as]

@[simp] theorem Tree.lexemes_asKind (t : Tree) (k : Kind) : (t.asKind k).lexemes = t.lexemes := by
  cases t <;> simp [Tree.asKind]

@[simp] theorem lexemesAll_nil : lexemesAll [] = [] := by rw [lexemesAll]

@[simp] theorem lexemesAll_cons (t : Tree) (ts : List Tree) :
    lexemesAll (t :: ts) = t.lexemes ++ lexemesAll ts := by
  rw [lexemesAll]

theorem lexemesAll_eq_flatMap (ts : List Tree) : lexemesAll ts = ts.flatMap Tree.lexemes := by
  induction ts with
  | nil => rfl
  | cons t ts ih => rw [lexemesAll_cons, ih, List.flatMap_cons]

@[simp] theorem lexemesAll_append (ts us : List Tree) :
    lexemesAll (ts ++ us) = lexemesAll ts ++ lexemesAll us := by
  simp only [lexemesAll_eq_flatMap, List.flatMap_append]

@[simp] theorem lexemesAll_map_as (ts : List Tree) (r : Role) :
    lexemesAll (ts.map fun t => t.as r) = lexemesAll ts := by
  simp only [lexemesAll_eq_flatMap, List.flatMap_map, Tree.lexemes_as]

/-! ### Spelling -/

/-- The characters of the tokens, with the gap before each of them. -/
def spelled (ks : List Lexeme) : List Char := ks.flatMap fun k => k.gap ++ k.text

/-- The characters from the text of the first token on. -/
def covered : List Lexeme → List Char
  | [] => []
  | k :: ks => k.text ++ spelled ks

@[simp] theorem spelled_append (ks ls : List Lexeme) : spelled (ks ++ ls) = spelled ks ++ spelled ls :=
  List.flatMap_append

@[simp] theorem spelled_nil : spelled [] = [] := rfl

@[simp] theorem spelled_cons (k : Lexeme) (ks : List Lexeme) :
    spelled (k :: ks) = k.gap ++ k.text ++ spelled ks := rfl

mutual

/-- What is written of a tree is what its tokens spell. -/
theorem Tree.written_eq_spelled (t : Tree) : t.written = spelled t.lexemes := by
  cases t with
  | token r k gap text start stop => simp [Tree.written]
  | node r k ts => rw [Tree.written, Tree.lexemes, writtenAll_eq_spelled ts]

theorem writtenAll_eq_spelled (ts : List Tree) :
    Tree.writtenAll ts = spelled (lexemesAll ts) := by
  match ts with
  | [] => simp [Tree.writtenAll]
  | t :: ts =>
    rw [Tree.writtenAll, lexemesAll_cons, spelled_append, t.written_eq_spelled,
      writtenAll_eq_spelled ts]

end

mutual

/-- A tree without tokens has no text. -/
theorem Tree.text_eq_nil {t : Tree} (none : t.lexemes = []) : t.text = [] := by
  cases t with
  | token r k gap text start stop => simp at none
  | node r k ts =>
    rw [Tree.text]
    exact textAll_eq_nil (by simpa using none)

theorem textAll_eq_nil {ts : List Tree} (none : lexemesAll ts = []) : Tree.textAll ts = [] := by
  match ts with
  | [] => rw [Tree.textAll]
  | t :: ts =>
    obtain ⟨first, others⟩ := List.append_eq_nil_iff.mp ((lexemesAll_cons t ts).symm.trans none)
    rw [Tree.textAll, Tree.text_eq_nil first, writtenAll_eq_spelled, others]
    rfl

end

/-! ### Places -/

theorem Point.advance_append (p : Point) (xs ys : List Char) :
    p.advance (xs ++ ys) = (p.advance xs).advance ys :=
  List.foldl_append

/-- Each line feed leads one row down, and nothing else does. -/
theorem Point.advance_row (p : Point) (xs : List Char) :
    (p.advance xs).row = p.row + xs.count '\n' := by
  induction xs generalizing p with
  | nil => rfl
  | cons c xs ih =>
    have step : p.advance (c :: xs) = (p.after c).advance xs := rfl
    rw [step, ih, List.count_cons]
    by_cases feed : c = '\n'
    · simp only [Point.after, feed, beq_self_eq_true, if_true]
      omega
    · simp [Point.after, feed]

/-- From the point on, the tokens stand where they say. -/
def Placed (p : Point) : List Lexeme → Prop
  | [] => True
  | k :: ks => k.start = p.advance k.gap ∧ Placed (p.advance (k.gap ++ k.text)) ks

theorem placed_append :
    Placed p (ks ++ ls) ↔ Placed p ks ∧ Placed (p.advance (spelled ks)) ls := by
  induction ks generalizing p with
  | nil => simp [Placed, Point.advance]
  | cons k ks ih =>
    rw [List.cons_append, Placed, Placed, ih, spelled_cons, Point.advance_append _ (k.gap ++ k.text),
      and_assoc]

mutual

/-- A tree starts where its first token does. -/
theorem Tree.start?_eq (t : Tree) : t.start? = t.lexemes.head?.map (·.start) := by
  cases t with
  | token r k gap text start stop => simp [Tree.start?]
  | node r k ts => rw [Tree.start?, Tree.lexemes, startAll?_eq ts]

theorem startAll?_eq (ts : List Tree) :
    Tree.startAll? ts = (lexemesAll ts).head?.map (·.start) := by
  match ts with
  | [] => simp [Tree.startAll?]
  | t :: ts =>
    rw [Tree.startAll?, t.start?_eq, lexemesAll_cons, List.head?_append, startAll?_eq ts]
    cases t.lexemes.head? <;> rfl

end

/-- The beginning of a source. -/
def origin : Point := ⟨0, 0⟩

/-- Tokens in the midst of others stand behind what is spelled before them, and the first of them
starts there. -/
theorem covered_of_placed {before after : List Lexeme} (placed : Placed origin (before ++ ks ++ after)) :
    ∃ above below, spelled (before ++ ks ++ after) = above ++ covered ks ++ below ∧
      (ks.head?.map (·.start)).getD origin = origin.advance above := by
  cases ks with
  | nil => exact ⟨[], spelled (before ++ [] ++ after), rfl, rfl⟩
  | cons k ks =>
    obtain ⟨⟨-, placed⟩, -⟩ := by
      rw [placed_append, placed_append] at placed
      exact placed
    refine ⟨spelled before ++ k.gap, spelled after, ?_, ?_⟩
    · simp [covered]
    · rw [Point.advance_append]
      exact placed.1

/-! ### Trees within a tree -/

/-- The first tree stands somewhere in the second, or is the second. -/
inductive Tree.Within (t : Tree) : Tree → Prop
  | refl : Within t t
  | child {c u : Tree} (below : Within t c) (mem : c ∈ u.children) : Within t u

theorem Tree.lexemes_infix_of_mem_children (h : t ∈ u.children) : t.lexemes <:+: u.lexemes := by
  cases u with
  | token => cases h
  | node r k ts =>
    obtain ⟨before, after, rfl⟩ := List.append_of_mem (a := t) (l := ts) h
    exact ⟨lexemesAll before, lexemesAll after, by simp⟩

/-- The tokens of a tree within another one follow one another there. -/
theorem Tree.Within.lexemes_infix (h : t.Within u) : t.lexemes <:+: u.lexemes := by
  induction h with
  | refl => exact List.infix_refl _
  | child _ mem ih => exact ih.trans (lexemes_infix_of_mem_children mem)

theorem Tree.Within.trans {s : Tree} (h : s.Within t) (h' : t.Within u) : s.Within u := by
  induction h' with
  | refl => exact h
  | child _ mem ih => exact .child ih mem

end EnvCensus.Script
