import EnvCensus.Proofs.Script.Grammar.Types
import EnvCensus.Script.Grammar.Elements
import EnvCensus.Script.Grammar.Patterns

/-!
# Patterns and elements spell out what they read

One lemma for each construct, in the order of the grammar. A pattern is read by
given parsers for its parts, which are taken to spell out what they read.
-/

namespace EnvCensus.Script.Grammar

variable {g : Grammar} (h : g.Spells)

include h

theorem initializer_spells : Parser.Spells [] g.initializer :=
  .bind (.mark _) fun _ => .bind (h _) fun _ => .pure (by simp)

section Targets

variable {target leaf : Parser Tree} (parts : Parser.Spells [] target)

include parts

theorem patternWithDefault_spells : Parser.Spells [] (g.patternWithDefault target) := by
  refine .bind parts fun left => .bind (.maybe (initializer_spells h)) fun init => ?_
  split
  · exact .pure (by simp)
  · exact .pure (by simp)

omit h in
theorem restPattern_spells : Parser.Spells [] (restPattern target) :=
  .nodeOf (.bind (.mark _) fun _ => .bind parts fun _ => .pure (by simp))

theorem patternProperty_spells : Parser.Spells [] (g.patternProperty target) := by
  refine .orElse ?_ (.orElse (.nodeOf ?_) ?_)
  · exact .bind .peekOperator fun _ => .bind (.ensure _) fun _ => restPattern_spells parts
  · refine .bind (h _) fun key => .bind (.mark _) fun colon => ?_
    exact .bind (patternWithDefault_spells h parts) fun value => .pure (by simp)
  · refine .bind (.name _) fun n => .bind (.maybe (initializer_spells h)) fun init => ?_
    split
    · exact .pure (by simp)
    · exact .pure (by simp)

theorem objectPattern_spells : Parser.Spells [] (g.objectPattern target) := by
  refine .nodeOf (.bind (.mark _) fun opening => ?_)
  exact .bind (listUpTo_spells _ (.one (patternProperty_spells h parts))) fun _ => .pure (by simp)

theorem arrayPattern_spells : Parser.Spells [] (g.arrayPattern target) := by
  refine .nodeOf (.bind (.mark _) fun opening => ?_)
  refine .bind (listUpTo_spells _ (.one (.orElse ?_ (patternWithDefault_spells h parts))))
    fun _ => .pure (by simp)
  exact .bind .peekOperator fun _ => .bind (.ensure _) fun _ => restPattern_spells parts

theorem patternOf_spells (leaves : Parser.Spells [] leaf) :
    Parser.Spells [] (g.patternOf target leaf) := by
  refine .bind .peekOperator fun op => ?_
  split
  · exact objectPattern_spells h parts
  · exact arrayPattern_spells h parts
  · exact leaves

end Targets

theorem binding_spells : Parser.Spells [] g.binding := patternOf_spells h (h _) (.name _)

theorem target_spells : Parser.Spells [] g.target :=
  patternOf_spells h (h _) (.bind (h _) fun _ => .bind (.ensure _) fun _ => .pure (by simp))

/-! ### Parameters -/

omit h in
theorem decoratorName_spells : Parser.Spells [] g.decoratorName := by
  refine .bind (.word _) fun first => .bind (many_spells ?_) fun more => .pure (by simp)
  exact .bind (.mark _) fun dot => .bind (.word _) fun n => .pure (by simp)

theorem arguments_spells : Parser.Spells [] g.arguments := by
  refine .nodeOf (.bind (.mark _) fun opening => ?_)
  refine .bind (listUpTo_spells _ (.one (.orElse (.nodeOf ?_) (h _)))) fun _ => .pure (by simp)
  exact .bind (.mark _) fun dots => .bind (h _) fun t => .pure (by simp)

theorem decorator_spells : Parser.Spells [] g.decorator := by
  refine .nodeOf (.bind (.mark _) fun at_ => ?_)
  refine .bind (.orElse ?_ decoratorName_spells) fun callee => ?_
  · refine .bind .peekOperator fun _ => .bind (.ensure _) fun _ => .bind (.mark _) fun _ => ?_
    exact .bind (h _) fun _ => .bind (.mark _) fun _ => .pure (by simp)
  refine .bind (ifTyped_spells ?_) fun types => .bind (.maybe ?_) fun call => .pure (by simp)
  · exact .bind .peekOperator fun _ => .bind (.ensure _) fun _ => .one (h _)
  · exact .bind .peekOperator fun _ => .bind (.ensure _) fun _ => .one (arguments_spells h)

theorem decorators_spells : Parser.Spells [] g.decorators :=
  many_spells (.bind .peekOperator fun _ => .bind (.ensure _) fun _ => .one (decorator_spells h))

theorem typedParameter_spells : Parser.Spells [] g.typedParameter := by
  refine .bind (decorators_spells h) fun decs => .bind (many_spells (modifier_spells _)) fun mods => ?_
  refine .bind (.maybe (.one (.mark _))) fun dots => .bind (.orElse ?_ (h _)) fun p => ?_
  · exact .bind .peekWord fun _ => .bind (.ensure _) fun _ => .word _
  refine .bind (.maybe (.one (.mark _))) fun optional => ?_
  refine .bind (.maybe (.one (typeClause_spells h))) fun t => ?_
  exact .bind (.maybe (initializer_spells h)) fun init => .pure (by simp)

theorem untypedParameter_spells : Parser.Spells [] g.untypedParameter := by
  refine .one (.orElse ?_ (patternWithDefault_spells h (h _)))
  exact .bind .peekOperator fun _ => .bind (.ensure _) fun _ => restPattern_spells (h _)

theorem parameters_spells : Parser.Spells [] g.parameters := by
  have parameter : Parser.Spells []
      (if g.isTyped then g.typedParameter else g.untypedParameter) := by
    split
    · exact typedParameter_spells h
    · exact untypedParameter_spells h
  refine .nodeOf (.bind (.mark _) fun opening => .bind (.maybe ?_) fun items => ?_)
  · refine .bind (commaList_spells parameter) fun ps => ?_
    exact .bind (.maybe (.one (.mark _))) fun comma => .pure (by simp)
  · exact .bind (.mark _) fun closing => .pure (by simp)

/-! ### Elements -/

omit h in
theorem tagWord_spells : Parser.Spells [] tagWord :=
  .bind .peek fun _ => .bind (.ensure _) fun _ => .take _ _

omit h in
theorem tagName_spells : Parser.Spells [] g.tagName := by
  refine .bind tagWord_spells fun first => .bind (many_spells ?_) fun more => .pure (by simp)
  exact .bind (.orElse (.mark _) (.mark _)) fun _ => .bind tagWord_spells fun _ => .pure (by simp)

theorem elementBraces_spells : Parser.Spells [] g.elementBraces := by
  refine .nodeOf (.bind (.mark _) fun opening => ?_)
  refine .bind (.maybe (.one (.orElse (.nodeOf ?_) (h _)))) fun inner => ?_
  · exact .bind (.mark _) fun dots => .bind (h _) fun t => .pure (by simp)
  · exact .bind (.mark _) fun closing => .pure (by simp)

omit h in
theorem attributeString_spells : Parser.Spells [] attributeString := by
  refine .bind .peek fun cs => ?_
  split
  · refine .bind (.ensure _) fun _ => ?_
    split
    · exact .take _ _
    · exact .failure
  · exact .failure

theorem tagAttribute_spells : Parser.Spells [] g.tagAttribute := by
  refine .orElse (elementBraces_spells h) (.nodeOf (.bind tagName_spells fun n => ?_))
  refine .bind (.maybe (.bind (.shortMark _) fun eq => ?_)) fun value => .pure (by simp)
  exact .bind (.orElse attributeString_spells (.orElse (elementBraces_spells h) (h _)))
    fun _ => .pure (by simp)

theorem elementChild_spells : Parser.Spells [] g.elementChild := by
  refine .bind .peekRaw fun raw => ?_
  dsimp only
  split
  · exact .one (.takeRaw _ _)
  · split
    · exact .bind (.ensure _) fun _ => .one (.takeRaw _ _)
    · exact .one (elementBraces_spells h)
    · exact .one (h _)
    · exact .failure

theorem element_spells : Parser.Spells [] g.element := by
  refine .nodeOf (.bind (.shortMark _) fun opening => .bind (.maybe ?_) fun head => .orElse ?_ ?_)
  · refine .bind tagName_spells fun n => .bind (ifTyped_spells (.one (h _))) fun types => ?_
    exact .bind (many_spells (.one (tagAttribute_spells h))) fun attributes => .pure (by simp)
  · refine .bind (.ensure _) fun _ => .bind (.mark _) fun slash => ?_
    exact .bind (.shortMark _) fun closing => .pure (by simp)
  · refine .bind (.shortMark _) fun close => ?_
    refine .bind (many_spells (elementChild_spells h)) fun children => ?_
    refine .bind (.shortMark _) fun less => .bind (.mark _) fun slash => ?_
    refine .bind (.maybe tagName_spells) fun name => ?_
    exact .bind (.shortMark _) fun closing => .pure (by simp)

end EnvCensus.Script.Grammar
