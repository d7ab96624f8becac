import EnvCensus.Proofs.Script.Spelling
import EnvCensus.Script.Grammar.Types

/-!
# Types spell out what they read

One lemma for each construct of types, in the order of the grammar.
-/

namespace EnvCensus.Script.Grammar

variable {g : Grammar} (h : g.Spells)

include h

theorem typeClause_spells : Parser.Spells [] g.typeClause :=
  .nodeOf (.bind (.mark _) fun _ => .bind (h _) fun _ => .pure (by simp))

theorem typeOrClaim_spells : Parser.Spells [] g.typeOrClaim := by
  refine .orElse ?_ (.orElse ?_ (.one (h _)))
  · refine .bind (.keyword _) fun asserts => .bind (.word _) fun subject => ?_
    refine .bind (.maybe ?_) fun claim => .pure (by simp)
    exact .bind (.keyword _) fun is_ => .bind (h _) fun t => .pure (by simp)
  · exact .bind (.word _) fun subject => .bind (.keyword _) fun is_ => .bind (h _) fun t =>
      .pure (by simp)

theorem returnClause_spells : Parser.Spells [] g.returnClause :=
  .nodeOf (.bind (.mark _) fun _ => .bind (typeOrClaim_spells h) fun _ => .pure (by simp))

theorem typeArguments_spells : Parser.Spells [] g.typeArguments := by
  refine .nodeOf (.bind (.shortMark _) fun opening => ?_)
  refine .bind (commaList_spells (.one (h _))) fun items => ?_
  refine .bind (.maybe (.one (.mark _))) fun comma => ?_
  exact .bind (.shortMark _) fun closing => .pure (by simp)

theorem typeParameter_spells : Parser.Spells [] g.typeParameter := by
  refine .bind (many_spells ?_) fun mods => .bind (.word _) fun n => ?_
  · refine .bind (.keywordIn _) fun w => .bind .peekWord fun _ => .bind .peekWord fun _ => ?_
    exact .bind (.ensure _) fun _ => .pure (by simp)
  refine .bind (.maybe ?_) fun upper => .bind (.maybe ?_) fun default => .pure (by simp)
  · exact .bind (.keyword _) fun _ => .bind (h _) fun _ => .pure (by simp)
  · exact .bind (.mark _) fun _ => .bind (h _) fun _ => .pure (by simp)

theorem typeParameters_spells : Parser.Spells [] g.typeParameters := by
  refine .nodeOf (.bind (.shortMark _) fun opening => ?_)
  refine .bind (commaList_spells (typeParameter_spells h)) fun items => ?_
  refine .bind (.maybe (.one (.mark _))) fun comma => ?_
  exact .bind (.shortMark _) fun closing => .pure (by simp)

theorem functionType_spells : Parser.Spells [] g.functionType := by
  refine .bind (.maybe (.one (h _))) fun types => .bind (h _) fun ps => ?_
  exact .bind (.mark _) fun arrow => .bind (typeOrClaim_spells h) fun _ => .pure (by simp)

theorem constructorType_spells : Parser.Spells [] g.constructorType := by
  refine .bind (.maybe (.one (.keyword _))) fun abstract => .bind (.keyword _) fun new => ?_
  exact .bind (functionType_spells h) fun _ => .pure (by simp)

omit h in
theorem queryStep_spells (subject : Tree) :
    Parser.Spells subject.lexemes (queryStep subject) := by
  refine .orElse ?_ ?_
  · refine .bind (.orElse (.mark _) (.mark _)) fun dot => ?_
    exact .bind (.orElse .privateName (.word _)) fun property => .pure (by simp)
  · refine .bind .brokenLine fun _ => .bind (.ensure _) fun _ => ?_
    refine .bind (.mark _) fun opening => .bind (.orElse .string .number) fun index => ?_
    exact .bind (.mark _) fun closing => .pure (by simp)

omit h in
theorem importedType_spells : Parser.Spells [] importedType := by
  refine .bind (.keyword _) fun _ => .bind (.mark _) fun _ => .bind .string fun _ => ?_
  exact .bind (.mark _) fun _ => .pure (by simp)

theorem typeQuery_spells : Parser.Spells [] g.typeQuery := by
  refine .bind (.keyword _) fun typeof => .bind (.orElse ?_ (.nodeOf importedType_spells))
    fun subject => ?_
  · exact .bind .peekWord fun _ => .bind (.ensure _) fun _ => .word _
  refine .bindAfter (iterate_spells queryStep_spells subject) fun query => ?_
  exact .bind (.maybe (.one (h _))) fun types => .pure (by simp)

theorem tupleItem_spells : Parser.Spells [] g.tupleItem := by
  refine .bind (.maybe (.one (.mark _))) fun dots => .bind (.maybe ?_) fun label => ?_
  · refine .bind (.word _) fun n => .bind (.maybe (.one (.mark _))) fun optional => ?_
    exact .bind (.mark _) fun colon => .pure (by simp)
  · refine .bind (h _) fun t => .bind (.maybe (.one (.mark _))) fun optional => ?_
    exact .pure (by simp)

theorem namedType_spells : Parser.Spells [] g.namedType := by
  refine .bind (.word _) fun first => .bind (many_spells ?_) fun more => ?_
  · exact .bind (.mark _) fun dot => .bind (.word _) fun n => .pure (by simp)
  refine .bind (.maybe ?_) fun types => .pure (by simp)
  exact .bind .brokenLine fun _ => .bind (.ensure _) fun _ => .one (h _)

theorem templateType_spells : Parser.Spells [] g.templateType := by
  refine .bind .peek fun _ => .bind (.ensure _) fun _ => .bind (.take _ _) fun opening => ?_
  refine .bind (many_spells (.bind .peekRaw fun cs => ?_)) fun parts => ?_
  · dsimp only
    split
    · exact .one (.takeRaw _ _)
    · refine .bind .peekRaw fun _ => .bind (.ensure _) fun _ => .bind (.takeRaw _ _) fun start => ?_
      exact .bind (h _) fun t => .bind (.mark _) fun closing => .pure (by simp)
  refine .bind .peekRaw fun _ => .bind (.ensure _) fun _ => ?_
  exact .bind (.takeRaw _ _) fun closing => .pure (by simp)

theorem literalType_spells : Parser.Spells [] g.literalType := by
  refine .orElse (.one .string) (.orElse (.one .number) (.orElse ?_ (templateType_spells h)))
  exact .bind (.mark _) fun sign => .bind .number fun n => .pure (by simp)

theorem typePrimary_spells : Parser.Spells [] g.typePrimary := by
  refine .bind .peekOperator fun op => ?_
  split
  · exact .bind (.mark _) fun _ => .bind (h _) fun _ => .bind (.mark _) fun _ => .pure (by simp)
  · exact .bind (.mark _) fun _ => .bind (listUpTo_spells _ (tupleItem_spells h)) fun _ =>
      .pure (by simp)
  · exact .one (h _)
  · exact .one (.mark _)
  · refine .bind .peekWord fun w => ?_
    split
    · exact typeQuery_spells h
    · refine .bind importedType_spells fun call => .bind (many_spells ?_) fun more => ?_
      · exact .bind (.mark _) fun dot => .bind (.word _) fun n => .pure (by simp)
      · exact .bind (.maybe (.one (h _))) fun types => .pure (by simp)
    · exact literalType_spells h
    · exact namedType_spells h

theorem typeOperand_spells : Parser.Spells [] g.typeOperand := by
  refine .nodeOf (.orElse ?_ (.orElse ?_ ?_))
  · exact .bind (.keywordIn _) fun op => .bind (h _) fun t => .pure (by simp)
  · refine .bind (.keyword _) fun infer => .bind (.word _) fun n => .bind (.maybe ?_) fun bound => ?_
    · refine .bind (.keyword _) fun extends_ => .bind (h _) fun t => ?_
      exact .bind .peekOperator fun _ => .bind (.ensure _) fun _ => .pure (by simp)
    · exact .pure (by simp)
  · refine .bind (typePrimary_spells h) fun t => .bind (many_spells ?_) fun more => .pure (by simp)
    refine .bind .brokenLine fun _ => .bind (.ensure _) fun _ => .bind (.mark _) fun opening => ?_
    exact .bind (.maybe (.one (h _))) fun index => .bind (.mark _) fun closing => .pure (by simp)

omit h in
theorem operatorList_spells (op : String) {item : Parser (List Tree)}
    (each : Parser.Spells [] item) : Parser.Spells [] (g.operatorList op item) := by
  refine .bind (.maybe (.one (.mark _))) fun leading => .bind each fun first => ?_
  refine .bind (many_spells ?_) fun more => .pure (by simp)
  exact .bind (.mark _) fun o => .bind each fun _ => .pure (by simp)

theorem unionType_spells : Parser.Spells [] g.unionType := by
  refine operatorList_spells _ (operatorList_spells _ (.orElse ?_ (.one (h _))))
  refine .bind .peekOperator fun _ => .bind .peekOperator fun _ => .bind (.ensure _) fun _ => ?_
  exact functionType_spells h

theorem typeExpression_spells : Parser.Spells [] g.typeExpression := by
  refine .nodeOf (.orElse (constructorType_spells h) ?_)
  refine .bind (unionType_spells h) fun subject => .bind (.maybe ?_) fun choice => .pure (by simp)
  refine .bind .brokenLine fun _ => .bind (.ensure _) fun _ => .bind (.keyword _) fun extends_ => ?_
  refine .bind (h _) fun upper => .bind (.mark _) fun q => .bind (h _) fun yes => ?_
  exact .bind (.mark _) fun colon => .bind (h _) fun no => .pure (by simp)

theorem indexBrackets_spells : Parser.Spells [] g.indexBrackets := by
  refine .bind (.mark _) fun opening => .bind (.word _) fun n => ?_
  refine .bind (.orElse (.one (typeClause_spells h)) ?_) fun range => ?_
  · refine .bind (.keyword _) fun in_ => .bind (h _) fun t => .bind (.maybe ?_) fun renamed => ?_
    · exact .bind (.keyword _) fun as_ => .bind (h _) fun t => .pure (by simp)
    · exact .pure (by simp)
  · exact .bind (.mark _) fun closing => .pure (by simp)

omit h in
theorem mappedSign_spells : Parser.Spells [] mappedSign :=
  .maybe (.one (.orElse (.mark _) (.mark _)))

theorem indexSignature_spells : Parser.Spells [] g.indexSignature := by
  refine .bind (.maybe ?_) fun readonly => .bind (indexBrackets_spells h) fun brackets => ?_
  · exact .bind mappedSign_spells fun sign => .bind (.keyword _) fun _ => .pure (by simp)
  refine .bind (.maybe ?_) fun optional => .bind (.maybe (.one (typeClause_spells h))) fun t => ?_
  · exact .bind mappedSign_spells fun sign => .bind (.mark _) fun _ => .pure (by simp)
  · exact .pure (by simp)

theorem callSignature_spells : Parser.Spells [] g.callSignature := by
  refine .bind (ifTyped_spells (.one (h _))) fun types => .bind (h _) fun ps => ?_
  exact .bind (ifTyped_spells (.one (returnClause_spells h))) fun result => .pure (by simp)

omit h in
theorem modifier_spells (ws : List String) : Parser.Spells [] (modifier ws) := by
  refine .bind (.keywordIn _) fun w => .bind .peekOperator fun next => .bind .peek fun _ => ?_
  exact .bind (.ensure _) fun _ => .pure (by simp)

theorem memberSignature_spells : Parser.Spells [] g.memberSignature := by
  refine .bind (many_spells (modifier_spells _)) fun mods => ?_
  refine .bind (.maybe (.one (.mark _))) fun star => .bind (h _) fun n => ?_
  refine .bind (.maybe (.one (.mark _))) fun optional => ?_
  refine .bind (.orElse (callSignature_spells h) (.maybe (.one (typeClause_spells h)))) fun rest => ?_
  exact .pure (by simp)

theorem typeMember_spells : Parser.Spells [] g.typeMember := by
  refine .orElse (indexSignature_spells h) (.orElse ?_
    (.orElse (callSignature_spells h) (memberSignature_spells h)))
  refine .bind (.maybe (.one (.keyword _))) fun abstract => .bind (.keyword _) fun new => ?_
  exact .bind (callSignature_spells h) fun _ => .pure (by simp)

theorem objectType_spells : Parser.Spells [] g.objectType := by
  refine .nodeOf (.bind (.mark _) fun opening => ?_)
  refine .bind (.maybe (.one (.orElse (.mark _) (.mark _)))) fun leading => ?_
  refine .bind (many_spells ?_) fun members => .bind (.mark _) fun closing => .pure (by simp)
  refine .bind .peekOperator fun _ => .bind (.ensure _) fun _ => ?_
  refine .bind (.nodeOf (typeMember_spells h)) fun m => ?_
  exact .bind (.orElse (.one (.mark _)) (.semicolon _ _)) fun sep => .pure (by simp)

end EnvCensus.Script.Grammar
