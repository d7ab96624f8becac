import EnvCensus.Proofs.Name
import EnvCensus.Proofs.Script

/-!
# Direct accesses

A script takes a variable from an environment object by a member or a subscript
of it. The trees of these accesses are spelled out here, with the trees of the
objects. Such an access shows the variable once, guarded as it stands; to the
left of a fallback the value to the right of it is the default.
-/

namespace EnvCensus.Script

/-! ### Trees without accesses -/

/-- The tree takes something from an environment object. -/
def Tree.Takes (t : Tree) : Prop :=
  ((t.kind = .memberExpression ∨ t.kind = .subscriptExpression) ∧
      (t.child? .object).bind environmentSource ≠ none) ∨
    (t.kind = .variableDeclarator ∧ (t.child? .value).bind environmentSource ≠ none)

/-- Nothing is taken from an environment object in the tree. -/
inductive Tree.Free : Tree → Prop
  | mk {t : Tree} (calm : ¬ t.Takes) (below : ∀ c ∈ t.namedChildren, c.Free) : Free t

theorem observe_of_not_takes {t : Tree} (calm : ¬ t.Takes) (above : List Tree)
    (context : Option String) : observe t above context = .ok [] := by
  unfold observe
  split
  · rename_i member
    have none : (t.child? .object).bind environmentSource = .none :=
      not_ne_iff.mp fun some => calm (Or.inl ⟨Or.inl member, some⟩)
    rw [observeMember, none]
  · rename_i subscript
    have none : (t.child? .object).bind environmentSource = .none :=
      not_ne_iff.mp fun some => calm (Or.inl ⟨Or.inr subscript, some⟩)
    rw [observeSubscript, none]
  · rename_i declarator
    have none : (t.child? .value).bind environmentSource = .none :=
      not_ne_iff.mp fun some => calm (Or.inr ⟨declarator, some⟩)
    rw [observeDeclarator, none]
  · rfl

theorem below_free {v : Visit} (free : ∀ c ∈ v.tree.namedChildren, c.Free) :
    ∀ w ∈ v.below, w.tree.Free := by
  intro w hw
  obtain ⟨c, hc, rfl⟩ := List.mem_map.mp hw
  exact free c hc

theorem walkStack_free {stack : List Visit} {found : List Observation}
    (free : ∀ v ∈ stack, v.tree.Free) : walkStack stack found = .ok found.reverse := by
  fun_induction walkStack stack found with
  | case1 found => rfl
  | case2 found v rest here shown ih =>
    obtain ⟨⟨calm, below⟩, others⟩ := List.forall_mem_cons.mp free
    have nothing : v.shows = .ok [] := observe_of_not_takes calm _ _
    obtain rfl : here = [] := by
      rw [nothing] at shown
      cases shown
      rfl
    exact ih (List.forall_mem_append.mpr ⟨below_free below, others⟩)
  | case3 found v rest e shown =>
    obtain ⟨⟨calm, -⟩, -⟩ := List.forall_mem_cons.mp free
    have nothing : v.shows = .ok [] := observe_of_not_takes calm _ _
    rw [nothing] at shown
    cases shown

theorem walkStack_silent {v : Visit} {rest : List Visit} {found : List Observation}
    (silent : v.shows = .ok []) :
    walkStack (v :: rest) found = walkStack (v.below ++ rest) found := by
  rw [walkStack, silent]
  rfl

/-- A walk gives what the first tree shows, if nothing is taken in the trees below it and after. -/
theorem walkStack_first {v : Visit} {rest : List Visit}
    (below : ∀ c ∈ v.tree.namedChildren, c.Free) (others : ∀ w ∈ rest, w.tree.Free) :
    walkStack (v :: rest) [] = v.shows := by
  rw [walkStack]
  cases v.shows with
  | error e => rfl
  | ok here =>
    have free : ∀ w ∈ v.below ++ rest, w.tree.Free :=
      List.forall_mem_append.mpr ⟨below_free below, others⟩
    simp only [walkStack_free free, List.append_nil, List.reverse_reverse]

/-! ### Tokens and environment objects -/

/-- Where a token stands, and what stands before it. -/
structure Spot where
  gap : List Char
  start : Point
  stop : Point

/-- The token with a text at the spot. -/
def Spot.token (s : Spot) (r : Role) (k : Kind) (text : List Char) : Tree :=
  .token r k s.gap text s.start s.stop

@[simp] theorem Spot.role_token (s : Spot) (r : Role) (k : Kind) (text : List Char) :
    (s.token r k text).role = r := rfl

@[simp] theorem Spot.kind_token (s : Spot) (r : Role) (k : Kind) (text : List Char) :
    (s.token r k text).kind = k := rfl

@[simp] theorem Tree.role_node (r : Role) (k : Kind) (ts : List Tree) :
    (Tree.node r k ts).role = r := rfl

@[simp] theorem Tree.kind_node (r : Role) (k : Kind) (ts : List Tree) :
    (Tree.node r k ts).kind = k := rfl

@[simp] theorem Tree.child?_node (r q : Role) (k : Kind) (ts : List Tree) :
    (Tree.node r k ts).child? q = ts.find? fun t => t.role == q := rfl

theorem Spot.token_free (s : Spot) (r : Role) (k : Kind) (text : List Char) :
    (s.token r k text).Free := by
  refine .mk ?_ fun c hc => by cases hc
  rintro (⟨-, some⟩ | ⟨-, some⟩)
  · exact some rfl
  · exact some rfl

theorem named_free {ts : List Tree} (free : ∀ c ∈ ts, c.Free) :
    ∀ c ∈ ts.filter Tree.isNamed, c.Free :=
  fun c hc => free c (List.mem_of_mem_filter hc)

/-- Nothing is taken by a node of another kind if nothing is taken in its named children. -/
theorem Tree.free_node {r : Role} {k : Kind} {ts : List Tree}
    (other : k ∉ [Kind.memberExpression, .subscriptExpression, .variableDeclarator])
    (below : ∀ c ∈ ts.filter isNamed, c.Free) : (Tree.node r k ts).Free := by
  refine .mk ?_ below
  simp only [List.mem_cons, List.not_mem_nil, or_false, not_or] at other
  rintro (⟨member | subscript, -⟩ | ⟨declarator, -⟩)
  · exact other.1 member
  · exact other.2.1 subscript
  · exact other.2.2 declarator

/-- The tree is `process.env` or `import.meta.env`, perhaps with spaces within. -/
inductive EnvironmentObject (r : Role) : Source → Tree → Prop
  | process (p d e : Spot) (tight : ∀ c ∈ d.gap ++ e.gap, c = ' ') :
      EnvironmentObject r .process (.node r .memberExpression
        [p.token .object .identifier "process".toList, d.token .plain .mark ".".toList,
          e.token .property .propertyIdentifier "env".toList])
  | importMeta (i d m d' e : Spot)
      (tight : ∀ c ∈ d.gap ++ m.gap ++ d'.gap ++ e.gap, c = ' ') :
      EnvironmentObject r .importMeta (.node r .memberExpression
        [.node .object .metaProperty
          [i.token .plain .mark "import".toList, d.token .plain .mark ".".toList,
            m.token .plain .mark "meta".toList],
          d'.token .plain .mark ".".toList, e.token .property .propertyIdentifier "env".toList])

variable {r : Role} {source : Source} {o : Tree}

theorem filter_spaces {gap : List Char} (tight : ∀ c ∈ gap, c = ' ') :
    (gap.filter fun c => !decide (c = ' ')) = [] := by
  refine List.filter_eq_nil_iff.mpr fun c hc => ?_
  simp [tight c hc]

theorem EnvironmentObject.source_eq (h : EnvironmentObject r source o) :
    environmentSource o = some source := by
  have known : environmentRoots.lookup "process.env".toList = some .process ∧
      environmentRoots.lookup "import.meta.env".toList = some .importMeta := by decide
  have member : o.kind = .memberExpression := by cases h <;> rfl
  rw [environmentSource, if_pos member]
  cases h with
  | process p d e tight =>
    obtain ⟨hd, he⟩ := List.forall_mem_append.mp tight
    rw [← known.1]
    refine congrArg (fun text => List.lookup text environmentRoots) ?_
    simp [Tree.text, Tree.textAll, Tree.writtenAll, Tree.written, Spot.token, filter_spaces hd,
      filter_spaces he]
  | importMeta i d m d' e tight =>
    simp only [List.forall_mem_append] at tight
    obtain ⟨⟨⟨hd, hm⟩, hd'⟩, he⟩ := tight
    rw [← known.2]
    refine congrArg (fun text => List.lookup text environmentRoots) ?_
    simp [Tree.text, Tree.textAll, Tree.writtenAll, Tree.written, Spot.token, filter_spaces hd,
      filter_spaces hm, filter_spaces hd', filter_spaces he]

/-- An environment object by itself takes nothing. -/
theorem EnvironmentObject.free (h : EnvironmentObject r source o) : o.Free := by
  cases h with
  | process p d e tight =>
    refine .mk ?_ (named_free ?_)
    · simp [Tree.Takes, environmentSource]
    · simp [Tree.children, Spot.token_free]
  | importMeta i d m d' e tight =>
    have inner : (Tree.node .object .metaProperty
        [i.token .plain .mark "import".toList, d.token .plain .mark ".".toList,
          m.token .plain .mark "meta".toList]).Free :=
      Tree.free_node (by decide) (named_free (by simp [Spot.token_free]))
    refine .mk ?_ (named_free ?_)
    · simp [Tree.Takes, environmentSource]
    · simpa [Tree.children, Spot.token_free] using inner

/-! ### Variables that are taken -/

/-- A variable that a script takes, and the value that stands in for it where it is missing: the
right operand of a fallback, or of the equals sign in a pattern. -/
structure Taking where
  name : String
  fallback : Option Tree
  exact : Name.Exact name
  right : ∀ e ∈ fallback, e.role = .right
  free : ∀ e ∈ fallback, e.Free

/-- What a walk is to show of a variable that is taken at a tree. -/
def Taking.shown (x : Taking) (source : Source) (context : Option String) (t : Tree) :
    Except EscapeFault (List Observation) :=
  match x.fallback with
  | some e =>
    (literalValue e).map fun d => [⟨x.name, source, t.start, t.stop, true, d, context⟩]
  | none => .ok [⟨x.name, source, t.start, t.stop, false, none, context⟩]

theorem Taking.shown_bare {x : Taking} (none : x.fallback = none) (source : Source)
    (context : Option String) (t : Tree) : x.shown source context t =
      .ok [⟨x.name, source, t.start, t.stop, false, .none, context⟩] := by
  rw [shown, none]

theorem Taking.shown_default {x : Taking} {e : Tree} (default : x.fallback = some e)
    (source : Source) (context : Option String) (t : Tree) : x.shown source context t =
      (literalValue e).map fun d => [⟨x.name, source, t.start, t.stop, true, d, context⟩] := by
  rw [shown, default]

theorem Taking.noted_eq (x : Taking) (source : Source) (t : Tree) (g : Guard)
    (context : Option String) : noted x.name source t g context =
      [⟨x.name, source, t.start, t.stop, g.guarded, g.default, context⟩] := by
  rw [noted, if_pos x.exact.isValid]

theorem Taking.textString_token (x : Taking) (s : Spot) (r : Role) (k : Kind) :
    (s.token r k x.name.toList).textString = x.name := by
  rw [Spot.token, Tree.textString, Tree.text, String.ofList_toList]

/-- A text without a backslash is its own value. -/
theorem decodeFrom_plain {cs : List Char} (plain : '\\' ∉ cs) : decodeFrom 0 cs = .ok cs := by
  induction cs with
  | nil => rfl
  | cons c cs ih =>
    rw [List.mem_cons, not_or] at plain
    have other : (c == '\\') = false := beq_eq_false_iff_ne.mpr (Ne.symm plain.1)
    rw [decodeFrom, other, Bool.false_and, if_neg (by decide), ih plain.2]
    rfl

/-- The value of a name between quotes is the name. -/
theorem Taking.literalValue_quoted (x : Taking) (s : Spot) (r : Role) (q : Char) :
    literalValue (s.token r .string (q :: x.name.toList ++ [q])) = .ok (some x.name) := by
  have plain : '\\' ∉ x.name.toList := fun h => absurd (x.exact.isTail h) (by decide)
  have literal : isTextLiteral (s.token r .string (q :: x.name.toList ++ [q])) = true := rfl
  have inner : innerText (s.token r .string (q :: x.name.toList ++ [q])).text = x.name.toList := by
    rw [Spot.token, Tree.text, innerText, List.cons_append, List.drop_one, List.tail_cons,
      List.dropLast_concat]
  rw [literalValue, if_pos literal, inner, decodeEscapes, decodeFrom_plain plain]
  simp [Except.map]

/-! ### Accesses -/

/-- The tree is `object.NAME`, `object["NAME"]` or `object['NAME']`. -/
inductive Access (r : Role) (source : Source) (name : String) : Tree → Prop
  | member {o : Tree} (object : EnvironmentObject .object source o) (d p : Spot) (dot : List Char) :
      Access r source name (.node r .memberExpression
        [o, d.token .plain .mark dot, p.token .property .propertyIdentifier name.toList])
  | subscript {o : Tree} (object : EnvironmentObject .object source o) (b i c : Spot) {q : Char}
      (quote : q ∈ ['"', '\'']) :
      Access r source name (.node r .subscriptExpression
        [o, b.token .plain .mark "[".toList, i.token .index .string (q :: name.toList ++ [q]),
          c.token .plain .mark "]".toList])

/-- No fallback and no condition guards the tree. -/
def Unguarded (t : Tree) (above : List Tree) : Prop :=
  fallbackRight? t above = none ∧ inCondition guardDepth t above = false

theorem EnvironmentObject.role_eq (h : EnvironmentObject r source o) : o.role = r := by
  cases h <;> rfl

theorem Access.role_eq {name : String} {a : Tree} (h : Access r source name a) : a.role = r := by
  cases h <;> rfl

theorem Access.below_free {name : String} {a : Tree} (h : Access r source name a) :
    ∀ c ∈ a.namedChildren, c.Free := by
  refine named_free ?_
  cases h with
  | member object d p dot => simp [Tree.children, Spot.token_free, object.free]
  | subscript object b i c quote => simp [Tree.children, Spot.token_free, object.free]

/-- The tree is `object.NAME`, `object["NAME"]` or `object['NAME']`, whatever the object is. -/
inductive AccessTo (o : Tree) (r : Role) (name : String) : Tree → Prop
  | member (object : o.role = .object) (d p : Spot) (dot : List Char) :
      AccessTo o r name (.node r .memberExpression
        [o, d.token .plain .mark dot, p.token .property .propertyIdentifier name.toList])
  | subscript (object : o.role = .object) (b i c : Spot) {q : Char} (quote : q ∈ ['"', '\'']) :
      AccessTo o r name (.node r .subscriptExpression
        [o, b.token .plain .mark "[".toList, i.token .index .string (q :: name.toList ++ [q]),
          c.token .plain .mark "]".toList])

/-- An access shows its variable, guarded as it is, if its object is an environment object. -/
theorem AccessTo.observe_eq {x : Taking} {o a : Tree} (h : AccessTo o r x.name a)
    (above : List Tree) (context : Option String) : observe a above context =
      match environmentSource o with
      | some source => (guardOf a above).map fun g =>
          [⟨x.name, source, a.start, a.stop, g.guarded, g.default, context⟩]
      | none => .ok [] := by
  cases h with
  | member object d p dot =>
    let a := Tree.node r .memberExpression
      [o, d.token .plain .mark dot, p.token .property .propertyIdentifier x.name.toList]
    have hobject : a.child? .object = some o := by
      simp [a, object]
    have hproperty : a.child? .property =
        some (p.token .property .propertyIdentifier x.name.toList) := by
      simp [a, object]
    have member : observe a above context = observeMember a above context := rfl
    rw [member, observeMember, hobject, hproperty, Option.bind_some]
    cases environmentSource o with
    | none => rfl
    | some source =>
      simp only [Spot.kind_token, if_true, x.textString_token, x.noted_eq]
      cases guardOf a above <;> rfl
  | @subscript object b i c q quote =>
    let a := Tree.node r .subscriptExpression
      [o, b.token .plain .mark "[".toList, i.token .index .string (q :: x.name.toList ++ [q]),
        c.token .plain .mark "]".toList]
    have hobject : a.child? .object = some o := by
      simp [a, object]
    have hindex : a.child? .index = some (i.token .index .string (q :: x.name.toList ++ [q])) := by
      simp [a, object]
    have subscript : observe a above context = observeSubscript a above context := rfl
    rw [subscript, observeSubscript, hobject, hindex, Option.bind_some]
    cases environmentSource o with
    | none => rfl
    | some source =>
      simp only [literalValue?, x.literalValue_quoted, ok_bind, x.noted_eq]
      cases guardOf a above <;> rfl

theorem Access.accessTo {name : String} {a : Tree} (h : Access r source name a) :
    ∃ o, environmentSource o = some source ∧ AccessTo o r name a := by
  cases h with
  | @member o object d p dot => exact ⟨o, object.source_eq, .member object.role_eq d p dot⟩
  | @subscript o object b i c q quote =>
    exact ⟨o, object.source_eq, .subscript object.role_eq b i c quote⟩

/-- An access shows its variable, guarded as it is. -/
theorem Access.observe_eq {x : Taking} {a : Tree} (h : Access r source x.name a)
    (above : List Tree) (context : Option String) : observe a above context =
      (guardOf a above).map fun g =>
        [⟨x.name, source, a.start, a.stop, g.guarded, g.default, context⟩] := by
  obtain ⟨o, object, access⟩ := h.accessTo
  rw [access.observe_eq, object]

/-! ### Walks through accesses -/

theorem Access.contextIn_eq {name : String} {a : Tree} (h : Access r source name a)
    (above : List Tree) (context : Option String) : contextIn a above context = context := by
  cases h <;> rfl

/-- An access outside any guard shows its variable without a value. -/
theorem walkStack_access {x : Taking} {a : Tree} {above : List Tree} (bare : x.fallback = none)
    (access : Access r source x.name a) (unguarded : Unguarded a above) (context : Option String) :
    walkStack [⟨a, above, context⟩] [] = x.shown source context a := by
  have guard : guardOf a above = .ok .none := by
    rw [guardOf, unguarded.1, unguarded.2]
    rfl
  rw [walkStack_first access.below_free (by simp), Visit.shows, access.contextIn_eq,
    access.observe_eq, guard, Taking.shown_bare bare]
  rfl

/-- The left operand of a fallback is guarded by the right one. -/
theorem guardOf_fallback {a e : Tree} (left : a.role = .left) (right : e.role = .right) (s : Spot)
    {op : List Char} (falls : op ∈ fallbackOperators) (above : List Tree) :
    guardOf a (.node r .binaryExpression [a, s.token .operator .mark op, e] :: above) =
      (literalValue e).map fun d => ⟨true, d⟩ := by
  have text : (s.token .operator .mark op).text = op := by rw [Spot.token, Tree.text]
  have fallback : fallbackRight? a
      (.node r .binaryExpression [a, s.token .operator .mark op, e] :: above) = some (some e) := by
    simp [fallbackRight?, withParentheses, guardDepth, left, right, text, falls]
  rw [guardOf, fallback]
  rfl

/-- An access to the left of a fallback shows its variable with the value to the right. -/
theorem walkStack_fallback {x : Taking} {a e : Tree} (default : x.fallback = some e)
    (access : Access .left source x.name a) (s : Spot) {op : List Char}
    (falls : op ∈ fallbackOperators) (above : List Tree) (context : Option String) :
    walkStack [⟨.node r .binaryExpression [a, s.token .operator .mark op, e], above, context⟩] [] =
      x.shown source context a := by
  have right : e.role = .right := x.right e default
  have free : e.Free := x.free e default
  let whole := Tree.node r .binaryExpression [a, s.token .operator .mark op, e]
  have named : a.isNamed = true := by cases access <;> rfl
  have children : whole.namedChildren = a :: [e].filter Tree.isNamed := by
    have unnamed : ¬ (s.token .operator .mark op).isNamed = true := by simp [Tree.isNamed]
    rw [Tree.namedChildren, Tree.children, List.filter_cons_of_pos named,
      List.filter_cons_of_neg unnamed]
  have below : Visit.below ⟨whole, above, context⟩ = ⟨a, whole :: above, context⟩ ::
      ([e].filter Tree.isNamed).map fun c => ⟨c, whole :: above, context⟩ := by
    rw [Visit.below, children]
    rfl
  -- the value may be any tree, so it is not known here whether it is visited at all
  have others : ∀ w ∈ ([e].filter Tree.isNamed).map
      fun c => (⟨c, whole :: above, context⟩ : Visit), w.tree.Free := by
    intro w hw
    obtain ⟨c, hc, rfl⟩ := List.mem_map.mp hw
    obtain rfl := List.mem_singleton.mp (List.mem_of_mem_filter hc)
    exact free
  have guard : guardOf a (whole :: above) = (literalValue e).map fun d => ⟨true, d⟩ :=
    guardOf_fallback access.role_eq right s falls above
  rw [walkStack_silent rfl, List.append_nil, below, walkStack_first access.below_free others,
    Visit.shows, access.contextIn_eq, access.observe_eq, guard,
    Taking.shown_default default]
  cases literalValue e <;> rfl

end EnvCensus.Script
