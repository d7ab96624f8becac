import EnvCensus.Proofs.Script.Grammar.Patterns
import EnvCensus.Script.Grammar.Expressions

/-!
# Expressions spell out what they read

One lemma for each construct, in the order of the grammar. Members, subscripts,
calls and binary operators are steps from a tree that has been read, so what
they give begins with the tokens of that tree.
-/

namespace EnvCensus.Script.Grammar

variable {g : Grammar} (h : g.Spells)

include h

theorem sequence_spells : Parser.Spells [] g.sequence := by
  refine .bind (commaList_spells (.one (h _))) fun ts => ?_
  split
  · exact .pure (by simp)
  · exact .pure (by simp)

theorem parenthesized_spells : Parser.Spells [] g.parenthesized := by
  refine .nodeOf (.bind (.mark _) fun opening => .bind (h _) fun inner => ?_)
  refine .bind (ifTyped_spells (.one (typeClause_spells h))) fun t => ?_
  exact .bind (.mark _) fun closing => .pure (by simp)

theorem propertyName_spells : Parser.Spells [] g.propertyName := by
  refine .orElse .string (.orElse .number (.orElse .privateName (.orElse (.word _) (.nodeOf ?_))))
  exact .bind (.mark _) fun _ => .bind (h _) fun _ => .bind (.mark _) fun _ => .pure (by simp)

theorem template_spells : Parser.Spells [] g.template := by
  refine .nodeOf (.bind .peek fun _ => .bind (.ensure _) fun _ => .bind (.take _ _) fun opening => ?_)
  refine .bind (many_spells (.bind .peekRaw fun cs => ?_)) fun parts => ?_
  · dsimp only
    split
    · exact .one (.takeRaw _ _)
    · refine .one (.nodeOf (.bind .peekRaw fun _ => .bind (.ensure _) fun _ => ?_))
      refine .bind (.takeRaw _ _) fun start => .bind (h _) fun t => ?_
      exact .bind (.mark _) fun closing => .pure (by simp)
  · refine .bind .peekRaw fun _ => .bind (.ensure _) fun _ => ?_
    exact .bind (.takeRaw _ _) fun closing => .pure (by simp)

theorem method_spells : Parser.Spells [] g.method := by
  refine .nodeOf (.bind (many_spells (modifier_spells _)) fun mods => ?_)
  refine .bind (.maybe (.one (.mark _))) fun star => .bind (h _) fun n => ?_
  refine .bind (ifTyped_spells (.one (.mark _))) fun optional => ?_
  refine .bind .peekOperator fun _ => .bind .peekOperator fun _ => .bind (.ensure _) fun _ => ?_
  exact .bind (callSignature_spells h) fun signature => .bind (h _) fun body => .pure (by simp)

theorem spread_spells : Parser.Spells [] g.spread :=
  .nodeOf (.bind (.mark _) fun _ => .bind (h _) fun _ => .pure (by simp))

theorem objectMember_spells : Parser.Spells [] g.objectMember := by
  refine .one (.orElse (spread_spells h) (.orElse (method_spells h) (.orElse (.nodeOf ?_) ?_)))
  · refine .bind (h _) fun key => .bind (.mark _) fun colon => ?_
    exact .bind (h _) fun value => .pure (by simp)
  · exact .bind .peekWord fun _ => .bind (.ensure _) fun _ => .word _

theorem object_spells : Parser.Spells [] g.object := by
  refine .nodeOf (.bind (.mark _) fun opening => ?_)
  exact .bind (listUpTo_spells _ (objectMember_spells h)) fun _ => .pure (by simp)

theorem array_spells : Parser.Spells [] g.array := by
  refine .nodeOf (.bind (.mark _) fun opening => ?_)
  exact .bind (listUpTo_spells _ (.one (.orElse (spread_spells h) (h _)))) fun _ => .pure (by simp)

theorem assignedPattern_spells : Parser.Spells [] g.assignedPattern :=
  .bind (h _) fun _ => .bind .peekOperator fun _ => .bind (.ensure _) fun _ => .pure (by simp)

theorem literalOrPattern_spells {literal : Parser Tree} (plain : Parser.Spells [] literal) :
    Parser.Spells [] (g.literalOrPattern literal) := by
  have bound : Parser.Spells [] (do
      let p ← g.rule .binding
      Parser.ensure ((← Parser.peekOperator) == "=")
      return p : Parser Tree) :=
    .bind (h _) fun _ => .bind .peekOperator fun _ => .bind (.ensure _) fun _ => .pure (by simp)
  intro c sound a c' read
  unfold literalOrPattern at read
  split at read
  · rename_i t c'' literal_read
    split at read
    · exact assignedPattern_spells h c sound a c' read
    · cases read
      exact plain c sound a c' literal_read
  · exact bound c sound a c' read

/-! ### Functions and classes -/

theorem arrowTail_spells (head : List Tree) :
    Parser.Spells (lexemesAll head) (g.arrowTail head) := by
  refine .bind (.mark _) fun arrow => .bind .peekOperator fun op => ?_
  split
  · exact .bind (h _) fun body => .pure (by simp)
  · exact .bind (h _) fun body => .pure (by simp)

theorem arrowFunction_spells : Parser.Spells [] g.arrowFunction := by
  refine .bind (.maybe ?_) fun async => .bind ?_ fun signature => ?_
  · refine .bind (.keyword _) fun w => .bind .peekOperator fun _ => .bind .peekOperator fun _ => ?_
    exact .bind (.ensure _) fun _ => .pure (by simp)
  · exact .bind .peekOperator fun _ => .bind (.ensure _) fun _ => callSignature_spells h
  · exact (arrowTail_spells h _).of_eq (by simp)

theorem bareArrow_spells : Parser.Spells [] g.bareArrow := by
  refine .bind (.maybe ?_) fun async => .bind (.name _) fun p => ?_
  · refine .bind (.keyword _) fun w => .bind .peekWord fun _ => ?_
    exact .bind (.ensure _) fun _ => .pure (by simp)
  · refine .bind .peekOperator fun _ => .bind (.ensure _) fun _ => ?_
    exact (arrowTail_spells h _).of_eq (by simp)

theorem functionExpression_spells : Parser.Spells [] g.functionExpression := by
  refine .bind (.maybe (.one (.keyword _))) fun async => .bind (.keyword _) fun function => ?_
  refine .bind (.maybe (.one (.mark _))) fun star => .bind (.maybe (.one (.name _))) fun n => ?_
  exact .bind (callSignature_spells h) fun signature => .bind (h _) fun body => .pure (by simp)

theorem classExpression_spells : Parser.Spells [] g.classExpression := by
  refine .bind (decorators_spells h) fun decs => ?_
  refine .bind (ifTyped_spells (.one (.keyword _))) fun abstract => ?_
  exact .bind (.keyword _) fun class_ => .bind (h _) fun rest => .pure (by simp)

omit h in
theorem metaProperty_spells (w field : String) : Parser.Spells [] (metaProperty w field) := by
  refine .nodeOf (.bind (.keyword _) fun _ => .bind (.mark _) fun _ => ?_)
  exact .bind (.keyword _) fun _ => .pure (by simp)

theorem newExpression_spells : Parser.Spells [] g.newExpression := by
  refine .nodeOf (.bind (.keyword _) fun new => .bind (h _) fun callee => ?_)
  refine .bind (ifTyped_spells ?_) fun types => .bind (.maybe ?_) fun call => .pure (by simp)
  · refine .bind (.one (h _)) fun ts => .bind .peekOperator fun _ => ?_
    exact .bind (.ensure _) fun _ => .pure (by simp)
  · exact .bind .peekOperator fun _ => .bind (.ensure _) fun _ => .one (arguments_spells h)

theorem yieldExpression_spells : Parser.Spells [] g.yieldExpression := by
  refine .nodeOf (.bind (.keyword _) fun yield_ => .bind (.maybe (.one (.mark _))) fun star => ?_)
  refine .bind (.maybe ?_) fun value => .pure (by simp)
  exact .bind .brokenLine fun _ => .bind (.ensure _) fun _ => .one (h _)

/-! ### Operands -/

theorem wordOperand_spells (w : String) : Parser.Spells [] (g.wordOperand w) := by
  unfold wordOperand
  split
  · exact functionExpression_spells h
  · exact classExpression_spells h
  · exact .orElse (metaProperty_spells _ _) (newExpression_spells h)
  · refine .orElse (metaProperty_spells _ _) ?_
    refine .bind (.word _) fun t => .bind .peekOperator fun _ => ?_
    exact .bind (.ensure _) fun _ => .pure (by simp)
  · exact .word _
  · exact .word _
  · exact .word _
  · exact .word _
  · exact .word _
  · exact yieldExpression_spells h
  · exact .orElse (functionExpression_spells h)
      (.orElse (arrowFunction_spells h) (.orElse (bareArrow_spells h) (.word _)))
  · exact .bind (.ensure _) fun _ => .orElse (bareArrow_spells h) (.word _)

theorem primary_spells : Parser.Spells [] g.primary := by
  refine .bind .peek fun cs => ?_
  split
  · exact .failure
  · refine .ite (.orElse (arrowFunction_spells h) (parenthesized_spells h)) ?_
    refine .ite (literalOrPattern_spells h (array_spells h)) ?_
    refine .ite (literalOrPattern_spells h (object_spells h)) ?_
    refine .ite (template_spells h) (.ite .string (.ite .number (.ite .regex ?_)))
    refine .ite (classExpression_spells h) (.ite .privateName (.ite (.ite ?_ (h _)) ?_))
    · exact .orElse (arrowFunction_spells h) (.ite (h _) .failure)
    · exact .bind .peekWord fun w => wordOperand_spells h w

theorem applied_spells (calls : Bool) (t : Tree) :
    Parser.Spells t.lexemes (g.applied calls t) := by
  have name : Parser.Spells [] (Parser.privateName <|> Parser.word .propertyIdentifier) :=
    .orElse .privateName (.word _)
  refine .bind .peekOperator fun op => ?_
  split
  · exact .bind (.mark _) fun dot => .bind name fun p => .pure (by simp)
  · refine .bind (.mark _) fun dot => .bind .peekOperator fun next => ?_
    split
    · refine .bind (.mark _) fun opening => .bind (h _) fun i => ?_
      exact .bind (.mark _) fun closing => .pure (by simp)
    · exact .bind (.ensure _) fun _ => .bind (arguments_spells h) fun _ => .pure (by simp)
    · refine .bind (.ensure _) fun _ => .bind (h _) fun types => ?_
      exact .bind (arguments_spells h) fun _ => .pure (by simp)
    · exact .bind name fun p => .pure (by simp)
  · refine .bind (.mark _) fun opening => .bind (h _) fun i => ?_
    exact .bind (.mark _) fun closing => .pure (by simp)
  · exact .bind (.ensure _) fun _ => .bind (arguments_spells h) fun _ => .pure (by simp)
  · exact .bind (.ensure _) fun _ => .bind (template_spells h) fun _ => .pure (by simp)
  · refine .bind .brokenLine fun _ => .bind (.ensure _) fun _ => ?_
    exact .bind (.mark _) fun sure => .pure (by simp)
  · refine .bind (.ensure _) fun _ => .bind (h _) fun types => .bind .peekOperator fun next => ?_
    split
    · exact .bind (arguments_spells h) fun _ => .pure (by simp)
    · exact .bind (template_spells h) fun _ => .pure (by simp)
    · exact .bind .peekWord fun _ => .bind (.ensure _) fun _ => .pure (by simp)
  · exact .failure

theorem reference_spells : Parser.Spells [] g.reference :=
  .bind (primary_spells h) fun t => iterate_spells (applied_spells h true) t

theorem callee_spells : Parser.Spells [] g.callee :=
  .bind (primary_spells h) fun t => iterate_spells (applied_spells h false) t

/-! ### Operators -/

theorem assignable_spells : Parser.Spells [] g.assignable := by
  refine .bind (h _) fun t => .bind .peekOperator fun op => ?_
  refine .bind .brokenLine fun _ => .ite ?_ (.ite ?_ (.pure (by simp)))
  · exact .bind (.mark _) fun o => .pure (by simp)
  · exact .bind (.mark _) fun o => .bind (h _) fun value => .pure (by simp)

theorem operand_spells : Parser.Spells [] g.operand := by
  refine .bind .peekOperator fun op => .ite ?_ (.ite ?_ (.ite ?_ (.bind .peekWord fun w => ?_)))
  · exact .nodeOf (.bind (.mark _) fun o => .bind (h _) fun t => .pure (by simp))
  · exact .nodeOf (.bind (.mark _) fun o => .bind (h _) fun t => .pure (by simp))
  · refine .orElse (arrowFunction_spells h) (.nodeOf (.bind (.shortMark _) fun opening => ?_))
    refine .bind (h _) fun t => .bind (.shortMark _) fun closing => ?_
    exact .bind (h _) fun u => .pure (by simp)
  have typeofLike : Parser.Spells [] (Parser.nodeOf .unaryExpression (do
      return [(← Parser.word .mark).as .operator, ← g.rule .operand])) :=
    .nodeOf (.bind (.word _) fun o => .bind (h _) fun t => .pure (by simp))
  split
  · exact typeofLike
  · exact typeofLike
  · exact typeofLike
  · refine .orElse (.nodeOf ?_) (assignable_spells h)
    exact .bind (.keyword _) fun await => .bind (h _) fun t => .pure (by simp)
  · exact assignable_spells h

theorem asserted_spells (level : Nat) (t : Tree) :
    Parser.Spells t.lexemes (g.asserted level t) := by
  refine .bind .brokenLine fun _ => .bind (.ensure _) fun _ => .bind (.keywordIn _) fun as_ => ?_
  exact .bind (h _) fun u => .pure (by simp)

theorem operated_spells (level : Nat) (t : Tree) :
    Parser.Spells t.lexemes (g.operated level t) := by
  refine .orElse (.bind .peekOperator fun op => .bind .peekWord fun w => ?_) (asserted_spells h level t)
  dsimp only
  split
  · refine .bind (.ensure _) fun _ => .ite ?_ ?_
    · exact .bind (.mark _) fun o => .bind (h _) fun right => .pure (by simp)
    · exact .bind (.word _) fun o => .bind (h _) fun right => .pure (by simp)
  · exact .failure

theorem binary_spells (level : Nat) : Parser.Spells [] (g.binary level) :=
  .bind (h _) fun t => iterate_spells (operated_spells h level) t

theorem expression_spells : Parser.Spells [] g.expression := by
  refine .bind (h _) fun t => .bind .peekOperator fun op => ?_
  split
  · refine .orElse (.bind (.mark _) fun q => .bind (h _) fun yes => ?_) (.pure (by simp))
    exact .bind (.mark _) fun colon => .bind (h _) fun no => .pure (by simp)
  · exact .pure (by simp)

end EnvCensus.Script.Grammar
