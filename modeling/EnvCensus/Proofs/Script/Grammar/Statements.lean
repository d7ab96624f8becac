import EnvCensus.Proofs.Script.Grammar.Expressions
import EnvCensus.Script.Grammar.Statements

/-!
# Classes and statements spell out what they read

One lemma for each construct, in the order of the grammar.
-/

namespace EnvCensus.Script.Grammar

variable {g : Grammar} (h : g.Spells)

include h

/-! ### Classes -/

theorem heritage_spells : Parser.Spells [] g.heritage := by
  refine .bind (.maybe (.bind (.keyword _) fun extends_ => ?_)) fun parent => ?_
  · have rest : ∀ first : Tree, Parser.Spells (extends_.lexemes ++ first.lexemes) (do
        let types ← g.ifTyped (Parser.one (g.rule .typeArguments))
        return extends_ :: first :: types) :=
      fun first => .bind (ifTyped_spells (.one (h _))) fun types => .pure (by simp)
    exact .ite (.bind (h _) rest) (.bind (h _) rest)
  · refine .bind (ifTyped_spells (.bind (.keyword _) fun implements_ => ?_)) fun contracts => ?_
    · exact .bind (commaList_spells (.one (h _))) fun _ => .pure (by simp)
    · exact .pure (by simp)

theorem staticBlock_spells : Parser.Spells [] g.staticBlock := by
  refine .bind (.keyword _) fun static => .bind .peekOperator fun _ => .bind (.ensure _) fun _ => ?_
  exact .bind (h _) fun body => .pure (by simp)

omit h in
theorem memberEnd_spells (afterOperand : Bool) : Parser.Spells [] (g.memberEnd afterOperand) :=
  .orElse (.bind (.ensure _) fun _ => .one (.mark _)) (.semicolon _ _)

theorem fieldTail_spells : Parser.Spells [] g.fieldTail := by
  refine .bind (ifTyped_spells (.one (.orElse (.mark _) (.mark _)))) fun sign => ?_
  refine .bind (ifTyped_spells (.one (typeClause_spells h))) fun t => ?_
  refine .bind (.maybe ?_) fun init => .bind (memberEnd_spells _) fun _ => .pure (by simp)
  exact .bind (.mark _) fun eq => .bind (h _) fun value => .pure (by simp)

theorem methodTail_spells (head : List Tree) :
    Parser.Spells (lexemesAll head) (g.methodTail head) := by
  refine .bind (ifTyped_spells (.one (.mark _))) fun optional => ?_
  refine .bind .peekOperator fun _ => .bind .peekOperator fun _ => .bind (.ensure _) fun _ => ?_
  refine .bind (callSignature_spells h) fun signature => .bind .peekOperator fun _ => .ite ?_ ?_
  · exact .bind (h _) fun body => .pure (by simp)
  · exact .bind (.ensure _) fun _ => .bind (memberEnd_spells _) fun _ => .pure (by simp)

theorem classMember_spells : Parser.Spells [] g.classMember := by
  refine .orElse (.one (.mark _)) (.orElse (staticBlock_spells h) ?_)
  refine .bind (decorators_spells h) fun decs => .bind (many_spells (modifier_spells _)) fun mods => ?_
  refine .orElse ?_ (.bind (.maybe (.one (.mark _))) fun star => .bind (h _) fun n => ?_)
  · refine .bind .peekOperator fun _ => .bind (.ensure _) fun _ => ?_
    exact .bind (indexSignature_spells h) fun index => .bind (memberEnd_spells _) fun _ =>
      .pure (by simp)
  · refine .orElse ((methodTail_spells h _).of_eq (by simp)) (.ensure_bind fun none => ?_)
    obtain rfl := List.isEmpty_iff.mp none
    exact .bind (fieldTail_spells h) fun _ => .pure (by simp)

theorem classRest_spells : Parser.Spells [] g.classRest := by
  refine .nodeOf (.bind (.maybe ?_) fun n => ?_)
  · exact .bind .peekWord fun _ => .bind (.ensure _) fun _ => .one (.name _)
  refine .bind (ifTyped_spells (.one (h _))) fun types => .bind (heritage_spells h) fun parents => ?_
  refine .bind (.mark _) fun opening => .bind (many_spells (classMember_spells h)) fun members => ?_
  exact .bind (.mark _) fun closing => .pure (by simp)

/-! ### Declarations -/

omit h in
theorem close_spells : Parser.Spells [] g.close := .semicolon _ _

omit h in
theorem closeBare_spells : Parser.Spells [] g.closeBare := .semicolon _ _

theorem block_spells : Parser.Spells [] g.block := by
  refine .nodeOf (.bind (.mark _) fun opening => .bind (many_spells ?_) fun body => ?_)
  · exact .bind .peekOperator fun _ => .bind (.ensure _) fun _ => .one (h _)
  · exact .bind (.mark _) fun closing => .pure (by simp)

theorem declarator_spells : Parser.Spells [] g.declarator := by
  refine .nodeOf (.bind (h _) fun n => .bind (ifTyped_spells ?_) fun t => .bind (.maybe ?_)
    fun init => .pure (by simp))
  · exact .bind (.maybe (.one (.mark _))) fun sure => .bind (typeClause_spells h) fun _ =>
      .pure (by simp)
  · exact .bind (.mark _) fun eq => .bind (h _) fun value => .pure (by simp)

theorem declared_spells : Parser.Spells [] g.declared :=
  .bind (.keywordIn _) fun _ => .bind (commaList_spells (.one (declarator_spells h))) fun _ =>
    .pure (by simp)

theorem variableDeclaration_spells : Parser.Spells [] g.variableDeclaration :=
  .nodeOf (.bind (declared_spells h) fun _ => .bind (.semicolon _ _) fun _ => .pure (by simp))

theorem functionDeclaration_spells : Parser.Spells [] g.functionDeclaration := by
  refine .bind (.maybe (.one (.keyword _))) fun async => .bind (.keyword _) fun function => ?_
  refine .bind (.maybe (.one (.mark _))) fun star => .bind (.name _) fun n => ?_
  refine .bind (callSignature_spells h) fun signature => .bind .peekOperator fun _ => .ite ?_ ?_
  · exact .bind (h _) fun body => .pure (by simp)
  · exact .bind (.ensure _) fun _ => .bind closeBare_spells fun _ => .pure (by simp)

theorem classDeclaration_spells : Parser.Spells [] g.classDeclaration := by
  refine .nodeOf (.bind (decorators_spells h) fun decs => ?_)
  refine .bind (ifTyped_spells (.one (.keyword _))) fun abstract => .bind (.keyword _) fun class_ => ?_
  exact .bind .peekWord fun _ => .bind (.ensure _) fun _ => .bind (h _) fun rest => .pure (by simp)

theorem enumMember_spells : Parser.Spells [] g.enumMember := by
  refine .bind (h _) fun n => .bind (.maybe ?_) fun value => .pure (by simp)
  exact .bind (.mark _) fun eq => .bind (h _) fun _ => .pure (by simp)

theorem enumDeclaration_spells : Parser.Spells [] g.enumDeclaration := by
  refine .nodeOf (.bind (.maybe (.one (.keyword _))) fun const => .bind (.keyword _) fun enum => ?_)
  refine .bind (.word _) fun n => .bind (.mark _) fun opening => ?_
  exact .bind (listUpTo_spells _ (enumMember_spells h)) fun _ => .pure (by simp)

theorem interfaceDeclaration_spells : Parser.Spells [] g.interfaceDeclaration := by
  refine .nodeOf (.bind (.keyword _) fun interface => .bind (.word _) fun n => ?_)
  refine .bind (.maybe (.one (h _))) fun types => .bind (.maybe ?_) fun parents => ?_
  · exact .bind (.keyword _) fun extends_ => .bind (commaList_spells (.one (h _))) fun _ =>
      .pure (by simp)
  · exact .bind (h _) fun body => .pure (by simp)

theorem aliasDeclaration_spells : Parser.Spells [] g.aliasDeclaration := by
  refine .nodeOf (.bind (.keyword _) fun type => .bind (.word _) fun n => ?_)
  refine .bind (.maybe (.one (h _))) fun types => .bind (.mark _) fun eq => .bind (h _) fun t => ?_
  exact .bind closeBare_spells fun _ => .pure (by simp)

omit h in
/-- A qualified name. -/
theorem qualified_spells : Parser.Spells [] (do
    let first ← Parser.word .identifier
    let more ← g.many (do return [← Parser.mark ".", ← Parser.word .identifier])
    return first :: more) := by
  refine .bind (.word _) fun first => .bind (many_spells ?_) fun more => .pure (by simp)
  exact .bind (.mark _) fun dot => .bind (.word _) fun n => .pure (by simp)

theorem moduleDeclaration_spells : Parser.Spells [] g.moduleDeclaration := by
  refine .nodeOf (.bind (.keywordIn _) fun w => ?_)
  refine .bind (.orElse (.one .string) qualified_spells) fun n => ?_
  exact .bind (.orElse (.one (h _)) closeBare_spells) fun body => .pure (by simp)

omit h in
theorem importAlias_spells : Parser.Spells [] g.importAlias := by
  refine .nodeOf (.bind (.keyword _) fun import_ => .bind (.maybe ?_) fun kind => ?_)
  · refine .bind (.keyword _) fun type => .bind .peekOperator fun _ => ?_
    exact .bind (.ensure _) fun _ => .pure (by simp)
  refine .bind (.word _) fun n => .bind (.mark _) fun eq => ?_
  refine .bind (.orElse ?_ qualified_spells) fun subject => .bind closeBare_spells fun _ =>
    .pure (by simp)
  refine .bind (.keyword _) fun _ => .bind (.mark _) fun _ => .bind .string fun _ => ?_
  exact .bind (.mark _) fun _ => .pure (by simp)

theorem declarationFor_spells (w : String) : Parser.Spells [] (g.declarationFor w) := by
  have function : Parser.Spells [] (do
      Parser.ensure (← Parser.ahead functionStart)
      g.functionDeclaration) :=
    .bind (.ahead _) fun _ => .bind (.ensure _) fun _ => functionDeclaration_spells h
  unfold declarationFor
  split
  · exact variableDeclaration_spells h
  · exact .orElse (.ite (enumDeclaration_spells h) .failure) (variableDeclaration_spells h)
  · exact variableDeclaration_spells h
  · exact function
  · exact function
  · exact classDeclaration_spells h
  · refine .ite ?_ .failure
    split
    · exact classDeclaration_spells h
    · exact enumDeclaration_spells h
    · exact interfaceDeclaration_spells h
    · exact aliasDeclaration_spells h
    · exact moduleDeclaration_spells h
    · exact moduleDeclaration_spells h
    · exact importAlias_spells
    · exact .failure

theorem declaration_spells : Parser.Spells [] g.declaration := by
  refine .bind .peekOperator fun op => .ite (classDeclaration_spells h) ?_
  exact .bind .peekWord fun w => declarationFor_spells h w

theorem ambientDeclaration_spells : Parser.Spells [] g.ambientDeclaration := by
  refine .nodeOf (.bind (.keyword _) fun declare => ?_)
  refine .bind (.orElse ?_ (.one (declaration_spells h))) fun rest => .pure (by simp)
  exact .bind (.keyword _) fun w => .bind (h _) fun body => .pure (by simp)

/-! ### Control -/

theorem condition_spells : Parser.Spells [] g.condition :=
  (parenthesized_spells h).map fun _ => by simp

theorem ifStatement_spells : Parser.Spells [] g.ifStatement := by
  refine .nodeOf (.bind (.keyword _) fun if_ => .bind (condition_spells h) fun c => ?_)
  refine .bind (h _) fun yes => .bind (.maybe (.one (.nodeOf ?_))) fun no => .pure (by simp)
  exact .bind (.keyword _) fun else_ => .bind (h _) fun no => .pure (by simp)

theorem caseHead_spells : Parser.Spells [] g.caseHead := by
  refine .orElse (.bind (.keyword _) fun case_ => .bind (h _) fun t => ?_) ?_
  · exact .bind (.mark _) fun colon => .pure (by simp)
  · exact .bind (.keyword _) fun default => .bind (.mark _) fun colon => .pure (by simp)

theorem switchCase_spells : Parser.Spells [] g.switchCase := by
  refine .bind (caseHead_spells h) fun head => .bind (many_spells ?_) fun body => .pure (by simp)
  refine .bind .peekOperator fun _ => .bind (.ensure _) fun _ => .bind .peekWord fun w => ?_
  exact .bind (.ensure _) fun _ => .one (h _)

theorem switchStatement_spells : Parser.Spells [] g.switchStatement := by
  refine .nodeOf (.bind (.keyword _) fun switch => .bind (condition_spells h) fun subject => ?_)
  refine .bind (.mark _) fun opening => .bind (many_spells (switchCase_spells h)) fun cases => ?_
  exact .bind (.mark _) fun closing => .pure (by simp)

theorem eachHead_spells : Parser.Spells [] g.eachHead := by
  refine .bind (.mark _) fun opening => .bind (.orElse ?_ (.one (h _))) fun left => ?_
  · refine .bind (.keywordIn _) fun w => .bind (h _) fun b => .bind (.maybe ?_) fun init => ?_
    · exact .bind (.ensure _) fun _ => .bind (.mark _) fun eq => .bind (h _) fun t => .pure (by simp)
    · exact .pure (by simp)
  · refine .bind (.keywordIn _) fun op => .bind (h _) fun t => ?_
    exact .bind (.mark _) fun closing => .pure (by simp)

theorem countHead_spells : Parser.Spells [] g.countHead := by
  have clause : Parser.Spells [] (Parser.maybe (Parser.one (g.rule .sequence))) :=
    .maybe (.one (h _))
  refine .bind (.mark _) fun opening => .bind (.orElse ?_ clause) fun init => ?_
  · exact .bind (declared_spells h) fun vs => .pure (by simp)
  refine .bind (.mark _) fun first => .bind clause fun test => .bind (.mark _) fun second => ?_
  exact .bind clause fun next => .bind (.mark _) fun closing => .pure (by simp)

theorem forStatement_spells : Parser.Spells [] g.forStatement := by
  refine .nodeOf (.bind (.keyword _) fun for_ => .bind (.maybe (.one (.keyword _))) fun await => ?_)
  refine .bind (.orElse (eachHead_spells h) ?_) fun head => .bind (h _) fun body => .pure (by simp)
  exact .bind (.ensure _) fun _ => countHead_spells h

theorem whileStatement_spells : Parser.Spells [] g.whileStatement := by
  refine .nodeOf (.bind (.keywordIn _) fun w => .bind (condition_spells h) fun c => ?_)
  exact .bind (h _) fun body => .pure (by simp)

theorem doStatement_spells : Parser.Spells [] g.doStatement := by
  refine .nodeOf (.bind (.keyword _) fun do_ => .bind (h _) fun body => ?_)
  refine .bind (.keyword _) fun while_ => .bind (condition_spells h) fun c => ?_
  exact .bind (.maybe closeBare_spells) fun _ => .pure (by simp)

theorem tryStatement_spells : Parser.Spells [] g.tryStatement := by
  refine .nodeOf (.bind (.keyword _) fun try_ => .bind (h _) fun body => ?_)
  refine .bind (.maybe ?_) fun handler => .bind (.maybe ?_) fun final => .pure (by simp)
  · refine .bind (.keyword _) fun catch_ => .bind (.maybe ?_) fun parameter => ?_
    · refine .bind (.mark _) fun opening => .bind (h _) fun b => ?_
      refine .bind (ifTyped_spells (.one (typeClause_spells h))) fun t => ?_
      exact .bind (.mark _) fun closing => .pure (by simp)
    · exact .bind (h _) fun handled => .pure (by simp)
  · exact .bind (.keyword _) fun finally_ => .bind (h _) fun b => .pure (by simp)

omit h in
theorem jumpStatement_spells : Parser.Spells [] g.jumpStatement := by
  refine .nodeOf (.bind (.keywordIn _) fun w => .bind (.maybe ?_) fun label => ?_)
  · exact .bind .peekRaw fun _ => .bind (.ensure _) fun _ => .one (.name _)
  · exact .bind closeBare_spells fun _ => .pure (by simp)

theorem returnStatement_spells : Parser.Spells [] g.returnStatement := by
  refine .nodeOf (.bind (.keyword _) fun return_ => .bind (.maybe ?_) fun value => ?_)
  · exact .bind .peekRaw fun _ => .bind (.ensure _) fun _ => .one (h _)
  · exact .bind (.semicolon _ _) fun _ => .pure (by simp)

theorem throwStatement_spells : Parser.Spells [] g.throwStatement := by
  refine .nodeOf (.bind (.keyword _) fun throw_ => .bind (h _) fun value => ?_)
  exact .bind close_spells fun _ => .pure (by simp)

theorem labeledStatement_spells : Parser.Spells [] g.labeledStatement := by
  refine .nodeOf (.bind (.name _) fun label => .bind (.mark _) fun colon => ?_)
  exact .bind (h _) fun body => .pure (by simp)

theorem expressionStatement_spells : Parser.Spells [] g.expressionStatement :=
  .nodeOf (.bind (h _) fun _ => .bind close_spells fun _ => .pure (by simp))

/-! ### Imports and exports -/

section Exchange

omit h

theorem stringOrWord_spells :
    Parser.Spells [] (Parser.string <|> Parser.word .identifier) :=
  .orElse .string (.word _)

theorem exchangedName_spells : Parser.Spells [] g.exchangedName := by
  refine .bind (ifTyped_spells ?_) fun kind => .bind stringOrWord_spells fun n => ?_
  · refine .bind (.keywordIn _) fun w => .bind .peekWord fun next => .bind .peek fun _ => ?_
    exact .bind (.ensure _) fun _ => .pure (by simp)
  refine .bind (.maybe ?_) fun renamed => .pure (by simp)
  exact .bind (.keyword _) fun as_ => .bind stringOrWord_spells fun n => .pure (by simp)

theorem exchangedNames_spells : Parser.Spells [] g.exchangedNames :=
  .bind (.mark _) fun _ => .bind (listUpTo_spells _ exchangedName_spells) fun _ => .pure (by simp)

theorem fromClause_spells : Parser.Spells [] fromClause :=
  .bind (.keyword _) fun _ => .bind .string fun _ => .pure (by simp)

theorem wholeImport_spells : Parser.Spells [] wholeImport := by
  refine .bind (.mark _) fun star => .bind (.keyword _) fun as_ => ?_
  exact .bind (.word _) fun n => .pure (by simp)

theorem importClause_spells : Parser.Spells [] g.importClause := by
  refine .orElse wholeImport_spells (.orElse exchangedNames_spells (.bind (.word _) fun n => ?_))
  refine .bind (.maybe (.bind (.mark _) fun comma => ?_)) fun more => .pure (by simp)
  exact .bind (.orElse wholeImport_spells exchangedNames_spells) fun _ => .pure (by simp)

end Exchange

theorem importAttributes_spells : Parser.Spells [] g.importAttributes :=
  .maybe (.bind (.keywordIn _) fun _ => .bind (object_spells h) fun _ => .pure (by simp))

theorem importStatement_spells : Parser.Spells [] g.importStatement := by
  refine .nodeOf (.bind (.keyword _) fun import_ => ?_)
  refine .bind (.orElse (.one .string) (.orElse ?_ ?_)) fun origin => ?_
  · refine .bind (ifTyped_spells (.one (.keywordIn _))) fun kind => ?_
    exact .bind importClause_spells fun clause => .bind fromClause_spells fun _ => .pure (by simp)
  · exact .bind importClause_spells fun clause => .bind fromClause_spells fun _ => .pure (by simp)
  · refine .bind (importAttributes_spells h) fun attributes => ?_
    exact .bind closeBare_spells fun _ => .pure (by simp)

theorem exportTail_spells : Parser.Spells [] g.exportTail := by
  refine .orElse ?_ (.orElse ?_ (.orElse ?_ (.orElse ?_ (.orElse ?_
    (.orElse (.one (declaration_spells h)) ?_)))))
  · refine .bind (.keyword _) fun default => .bind (.orElse ?_ ?_) fun subject => .pure (by simp)
    · refine .bind .peekOperator fun _ => .bind .peekOperator fun _ => .bind (.ensure _) fun _ => ?_
      exact .one (declaration_spells h)
    · exact .bind (h _) fun value => .bind close_spells fun _ => .pure (by simp)
  · refine .bind (.mark _) fun star => .bind (.maybe ?_) fun renamed => ?_
    · exact .bind (.keyword _) fun as_ => .bind stringOrWord_spells fun n => .pure (by simp)
    · refine .bind fromClause_spells fun source => .bind (importAttributes_spells h) fun attrs => ?_
      exact .bind closeBare_spells fun _ => .pure (by simp)
  · refine .bind (ifTyped_spells (.one (.keyword _))) fun kind => ?_
    refine .bind exchangedNames_spells fun names => .bind (.maybe fromClause_spells) fun source => ?_
    exact .bind (importAttributes_spells h) fun attrs => .bind closeBare_spells fun _ =>
      .pure (by simp)
  · refine .bind (.ensure _) fun _ => .bind (.mark _) fun eq => .bind (h _) fun value => ?_
    exact .bind close_spells fun _ => .pure (by simp)
  · refine .bind (.ensure _) fun _ => .bind (.keyword _) fun as_ => .bind (.keyword _) fun ns => ?_
    exact .bind (.word _) fun n => .bind closeBare_spells fun _ => .pure (by simp)
  · exact .bind (.ensure _) fun _ => .one (ambientDeclaration_spells h)

theorem exportStatement_spells : Parser.Spells [] g.exportStatement := by
  refine .nodeOf (.bind (decorators_spells h) fun decs => .bind (.keyword _) fun export_ => ?_)
  exact .bind (exportTail_spells h) fun _ => .pure (by simp)

/-! ### Statements -/

theorem wordStatement_spells (w : String) : Parser.Spells [] (g.wordStatement w) := by
  have labeled : Parser.Spells [] (g.labeledStatement <|> g.expressionStatement) :=
    .orElse (labeledStatement_spells h) (expressionStatement_spells h)
  unfold wordStatement
  split
  · exact ifStatement_spells h
  · exact forStatement_spells h
  · exact whileStatement_spells h
  · exact whileStatement_spells h
  · exact doStatement_spells h
  · exact switchStatement_spells h
  · exact tryStatement_spells h
  · exact returnStatement_spells h
  · exact throwStatement_spells h
  · exact jumpStatement_spells
  · exact jumpStatement_spells
  · exact jumpStatement_spells
  · refine .orElse (importStatement_spells h) (.orElse ?_ (expressionStatement_spells h))
    exact .ite importAlias_spells .failure
  · exact exportStatement_spells h
  · exact declarationFor_spells h _
  · exact declarationFor_spells h _
  · exact .bind (.ahead _) fun _ => .ite (classDeclaration_spells h) (expressionStatement_spells h)
  · exact .bind (.ahead _) fun _ => .ite (functionDeclaration_spells h) labeled
  · exact .bind (.ahead _) fun _ => .ite (functionDeclaration_spells h) labeled
  · exact .orElse (.ite (ambientDeclaration_spells h) (declarationFor_spells h _)) labeled

omit h in
theorem markupComment_spells : Parser.Spells [] markupComment :=
  .bind .peek fun _ => .bind (.ensure _) fun _ => .one (.take _ _)

theorem braceStatement_spells (rest : List Char) : Parser.Spells [] (g.braceStatement rest) :=
  .ite (expressionStatement_spells h)
    (.ite (.orElse (h _) (expressionStatement_spells h)) (h _))

theorem statement_spells : Parser.Spells [] g.statement := by
  refine .bind .peek fun cs => ?_
  split
  · exact .failure
  · rename_i c rest
    refine .ite (.take _ _) (.ite (braceStatement_spells h rest) (.ite ?_ (.ite ?_ ?_)))
    · exact .orElse (exportStatement_spells h) (classDeclaration_spells h)
    · exact .orElse (.nodeOf markupComment_spells) (expressionStatement_spells h)
    · refine .bind .peekWord fun w => ?_
      split
      · exact expressionStatement_spells h
      · exact wordStatement_spells h _

theorem program_spells : Parser.Spells [] g.program := by
  refine .nodeOf (.bind .peekRaw fun cs => ?_)
  have rest : ∀ line : List Tree, Parser.Spells (lexemesAll line) (do
      let body ← g.many (Parser.one (g.rule .statement))
      Parser.ensure ((← Parser.peek) == [])
      return line ++ body) := by
    refine fun line => .bind (many_spells (.one (h _))) fun body => .bind .peek fun _ => ?_
    exact .bind (.ensure _) fun _ => .pure (by simp)
  exact .ite (.bind (.one (.takeRaw _ _)) rest) (.bind (.pure rfl) rest)

end EnvCensus.Script.Grammar
