import TsxCompiler.Proofs.OperatorTrees
import TsxCompiler.Proofs.ParsedTrees

/-!
# Operator expressions that were read

A property that goes through the operators holds of every expression that was read, if it holds of
the operands of other kinds (`yields_keeps`): functions, classes, objects and markup. The property
need not hold of the name `await`: the grammar takes `await` for an operator wherever an operand may
stand, so among operators that name is never read. Only the callee of a `new` may be that name, so a
callee has a property of its own.
-/

namespace TsxCompiler

/-- Whether an expression is a name, a literal, an array, a call, a member access or made with an
operator. -/
def Expr.isOperator : Expr → Bool
  | .this | .ident _ | .lit _ | .array _ | .call .. | .member .. | .unary .. | .binary .. | .cond ..
  | .assign .. => true
  | _ => false

/-- Whether a node is a pattern or such an expression. -/
def Node.isOperator : Node → Bool
  | .pattern _ => true
  | .expr e => e.isOperator
  | _ => false

namespace Grammar

open Peg Peg.Parser Text

variable {d : Dialect} {B : Parser (List Stmt)} {E : Parser Expr} {F : Node → Prop}
  {Q : Expr → Prop}

/-- A property of expressions that goes through operators. It is asked for only where all nodes
pass a test; what operand a unary operator may have, and whether there may be conditionals, is up to
the test as well. -/
structure OperatorClosed (F : Node → Prop) (Q : Expr → Prop) : Prop where
  this : Q .this
  ident : ∀ {name : String}, isName name = true → name ≠ "await" → Q (.ident name)
  lit : ∀ {value : Literal}, value.WellFormed → Q (.lit value)
  array : ∀ {elems : List Argument}, (∀ a ∈ elems, Q a.value) → Q (.array elems)
  call : ∀ {callee : Expr} {args : List Argument} (optional : Bool), Q callee →
    (∀ a ∈ args, Q a.value) → Q (.call callee args optional)
  member : ∀ {object : Expr} {name : String} (optional : Bool), Q object →
    isIdentifier name = true → Q (.member object (.ident name) optional)
  computed : ∀ {object key : Expr}, Q object → Q key → Q (.member object (.computed key) false)
  unary : ∀ {op : UnaryOp} {arg : Expr}, F (.expr (.unary op arg)) → Q arg → Q (.unary op arg)
  binary : ∀ (op : BinaryOp) {left right : Expr}, Q left → Q right → Q (.binary op left right)
  cond : ∀ {test cons alt : Expr}, F (.expr (.cond test cons alt)) → Q test → Q cons → Q alt →
    Q (.cond test cons alt)
  assign : ∀ (op : AssignOp) {target value : Expr}, Q target → Q value →
    Q (.assign op target value)

/-- The property holds of an expression if its nodes pass the test. -/
def Keeps (F : Node → Prop) (Q : Expr → Prop) (e : Expr) : Prop :=
  AllNodes F e.nodes → Q e

/-- The property holds of the operands that are made with no operator, given that it holds of the
expressions in them, and of a `new` whose callee has the property `C`. -/
structure OperandClosed (d : Dialect) (B : Parser (List Stmt)) (F : Node → Prop) (Q C : Expr → Prop) :
    Prop where
  arrow : ∀ {X : Parser Expr}, Yields (Keeps F Q) X → Yields (Keeps F Q) (arrowExpr d B X)
  function : ∀ {X : Parser Expr}, Yields (Keeps F Q) X → Yields (Keeps F Q) (functionExpr d B X)
  classes : ∀ {X : Parser Expr}, Yields (Keeps F Q) X → Yields (Keeps F Q) (classExpr d B X)
  object : ∀ {X : Parser Expr}, Yields (Keeps F Q) X → Yields (Keeps F Q) (objectExpr X)
  markup : ∀ {X : Parser Expr}, Yields (Keeps F Q) X → Yields (Keeps F Q) (markupExpr d X)
  callee : ∀ {e : Expr}, Q e → C e
  calleeAwait : C (.ident "await")
  calleeMember : ∀ {object : Expr} {name : String} (optional : Bool), C object →
    isIdentifier name = true → C (.member object (.ident name) optional)
  calleeComputed : ∀ {object key : Expr}, C object → Q key → C (.member object (.computed key) false)
  new : ∀ {callee : Expr} {args : Option (List Argument)}, F (.expr (.new callee args)) → C callee →
    (∀ a ∈ args.getD [], Q a.value) → Q (.new callee args)

/-- Where the nodes that pass the test are operators and markup, there is nothing to show of other
operands. -/
theorem operandClosed_of_fragment
    (hfragment : ∀ {e : Expr}, F (.expr e) → e.isOperator = true ∨ (Node.expr e).isMarkup = true)
    (hmarkup : ∀ {X : Parser Expr}, Yields (Keeps F Q) X →
      Yields (Keeps F Q) (markupExpr d X)) : OperandClosed d B F Q fun _ => True := by
  have hother : ∀ {e : Expr}, e.isOperator = false → (Node.expr e).isMarkup = false →
      ¬ F (.expr e) := by
    intro e hoperator hmarkup h
    rcases hfragment h with hf | hf
    · simp [hoperator] at hf
    · simp [hmarkup] at hf
  exact {
    arrow := fun _ => (Yields.trivial _).both (Yields.trivial _) fun x body _ _ h =>
      absurd h.ofExpr (hother rfl rfl)
    function := fun _ => (Yields.trivial _).map fun x _ h => absurd h.ofExpr (hother rfl rfl)
    classes := fun _ => (Yields.trivial _).map fun x _ h => absurd h.ofExpr (hother rfl rfl)
    object := fun _ => (Yields.trivial _).map fun x _ h => absurd h.ofExpr (hother rfl rfl)
    markup := hmarkup
    callee := fun _ => trivial
    calleeAwait := trivial
    calleeMember := fun _ _ _ => trivial
    calleeComputed := fun _ _ => trivial
    new := fun h => absurd h (hother rfl rfl) }

section Rules

variable {C : Expr → Prop} (hQ : OperatorClosed F Q)
include hQ

variable (hE : Yields (Keeps F Q) E)
include hE

omit hQ in
theorem yields_argument_keeps :
    Yields (fun args => ∀ a ∈ args, Keeps F Q a.value) (sepByTrailing (sym ",") (argument E)) :=
  .sepByTrailing _ ((Yields.trivial _).both hE fun _ _ _ he => he)

omit hE in
theorem keeps_array {elems : List Argument} (h : ∀ a ∈ elems, Keeps F Q a.value) :
    Keeps F Q (.array elems) := by
  intro hnodes
  have hparts := hnodes.tail
  rw [Argument.nodesAll_eq, allNodes_flatMap] at hparts
  exact hQ.array fun a ha => h a ha (hparts a ha)

omit hE in
theorem keeps_call {callee : Expr} {args : List Argument} {optional : Bool}
    (hcallee : Keeps F Q callee) (hargs : ∀ a ∈ args, Keeps F Q a.value) :
    Keeps F Q (.call callee args optional) := by
  intro hnodes
  have hparts := hnodes.tail.right
  rw [Argument.nodesAll_eq, allNodes_flatMap] at hparts
  exact hQ.call optional (hcallee hnodes.tail.left) fun a ha => hargs a ha (hparts a ha)

theorem yields_memberSuffix_keeps :
    Yields (fun f => ∀ e, Keeps F Q e → Keeps F Q (f e)) (memberSuffix E) := by
  refine .choice ((yields_word.skipThen _).map fun name hname e he hnodes => ?_)
    (.choice ((yields_word.skipThen _).map fun name hname e he hnodes => ?_)
      ((hE.between _ _).map fun key hkey e he hnodes => ?_))
  · exact hQ.member true (he hnodes.tail.left) hname
  · exact hQ.member false (he hnodes.tail.left) hname
  · exact hQ.computed (he hnodes.tail.left) (hkey hnodes.tail.right)

theorem yields_callSuffix_keeps :
    Yields (fun f => ∀ e, Keeps F Q e → Keeps F Q (f e)) (callSuffix E) := by
  have hargs := (yields_argument_keeps hE).between (sym "(") (sym ")")
  exact .choice ((hargs.skipThen _).map fun args h e he => keeps_call hQ he h)
    (hargs.map fun args h e he => keeps_call hQ he h)

omit hQ hE in
theorem keeps_applySuffixes {e : Expr} {suffixes : List (Expr → Expr)} (he : Keeps F Q e)
    (h : ∀ f ∈ suffixes, ∀ e, Keeps F Q e → Keeps F Q (f e)) :
    Keeps F Q (applySuffixes e suffixes) := by
  induction suffixes generalizing e with
  | nil => exact he
  | cons f fs ih => exact ih (h f (by simp) e he) fun g hg => h g (by simp [hg])

variable (hrules : OperandClosed d B F Q C)
include hrules

/-- An operand that is read by itself may be the name `await`. -/
theorem keeps_of_run_primary {s r : List Char} {e : Expr}
    (h : run (primary d B E) s = some (e, r)) :
    Keeps F Q e ∨ e = .ident "await" ∧ run (keyword "await") s ≠ none := by
  have hliteral : Yields (Keeps F Q) literalExpr := by
    refine Yields.map (P := Literal.WellFormed) ?_ fun value hvalue _ => hQ.lit hvalue
    exact .choice (yields_stringLit.map fun _ h => h)
      (.choice (yields_template.map fun _ h => h)
        (.choice (yields_number.map fun _ h => h)
          (.choice (.yielding trivial _) (.choice (.yielding trivial _) (.yielding trivial _)))))
  have hrest : Yields (Keeps F Q) (choice (arrayExpr E) [objectExpr E, inParens E]) :=
    .choice (((yields_argument_keeps hE).between _ _).map fun args hargs => keeps_array hQ hargs)
      (.choice (hrules.object hE) (hE.between _ _))
  -- the kinds of operands in the order in which they are tried
  rcases run_choice_cons_inv h with h | ⟨-, h⟩
  · exact .inl (hrules.arrow hE s e r h)
  rcases run_choice_cons_inv h with h | ⟨-, h⟩
  · exact .inl (hrules.function hE s e r h)
  rcases run_choice_cons_inv h with h | ⟨-, h⟩
  · exact .inl (hrules.classes hE s e r h)
  rcases run_choice_cons_inv h with h | ⟨-, h⟩
  · exact .inl (hrules.markup hE s e r h)
  rcases run_choice_cons_inv h with h | ⟨-, h⟩
  · exact .inl (hliteral s e r h)
  rcases run_choice_cons_inv h with h | ⟨-, h⟩
  · exact .inl (Yields.yielding (fun _ => hQ.this) (keyword "this") s e r h)
  rcases run_choice_cons_inv h with h | ⟨-, h⟩
  · obtain ⟨name, hname, rfl⟩ := run_map_inv h
    obtain ⟨hshape, t, rfl, hend, rfl⟩ := run_identifier_inv hname
    -- `await` is a name here, though an operator was tried on it before
    by_cases hawait : name = "await"
    · subst hawait
      refine .inr ⟨rfl, ?_⟩
      rw [run_keyword_append rfl hend]
      exact Option.some_ne_none _
    · exact .inl fun _ => hQ.ident hshape hawait
  · exact .inl (hrest s e r h)

/-- The callee of a `new` with the members behind it. -/
theorem yields_callee_keeps :
    Yields (Keeps F C) (both applySuffixes (primary d B E) (many (memberSuffix E))) := by
  have hmember : Yields (fun f => ∀ e, Keeps F C e → Keeps F C (f e)) (memberSuffix E) := by
    refine .choice ((yields_word.skipThen _).map fun name hname e he hnodes => ?_)
      (.choice ((yields_word.skipThen _).map fun name hname e he hnodes => ?_)
        ((hE.between _ _).map fun key hkey e he hnodes => ?_))
    · exact hrules.calleeMember true (he hnodes.tail.left) hname
    · exact hrules.calleeMember false (he hnodes.tail.left) hname
    · exact hrules.calleeComputed (he hnodes.tail.left) (hkey hnodes.tail.right)
  intro s e r h
  obtain ⟨head, suffixes, t, hhead, hsuffixes, rfl⟩ := run_both_inv h
  refine keeps_applySuffixes ?_ (hmember.many t suffixes r hsuffixes)
  rcases keeps_of_run_primary hQ hE hrules hhead with hkeeps | ⟨rfl, -⟩
  · exact fun hnodes => hrules.callee (hkeeps hnodes)
  · exact fun _ => hrules.calleeAwait

theorem yields_newExpr_keeps : Yields (Keeps F Q) (newExpr d B E) := by
  refine ((yields_callee_keeps hQ hE hrules).skipThen _).both
    ((yields_argument_keeps hE).between (sym "(") (sym ")")).optional
    fun callee args hcallee hargs hnodes => ?_
  cases args with
  | none => exact hrules.new hnodes.head (hcallee hnodes.tail) (by simp)
  | some args =>
    have hparts := hnodes.tail.right
    rw [Argument.nodesAll_eq, allNodes_flatMap] at hparts
    exact hrules.new hnodes.head (hcallee hnodes.tail.left) fun a ha =>
      hargs args rfl a ha (hparts a ha)

/-- An operand with the operators in front of it: all words `await` are among the operators. -/
theorem yields_unaryExpr_keeps : Yields (Keeps F Q) (unaryExpr d B E) := by
  refine Yields.thenSkip ?_ _
  intro s e r h
  obtain ⟨ops, arg, t, hops, harg, rfl⟩ := run_both_inv h
  have hstop : run unaryOp t = none :=
    run_many_induct (motive := fun _ _ r => run unaryOp r = none) (fun _ hs => hs)
      (fun _ _ _ _ _ _ _ ih => ih) hops
  have hawait : run (keyword "await") t = none := by
    simp only [unaryOp, run_choice_cons, run_choice_nil, run_yielding, Option.or_eq_none_iff,
      Option.map_eq_none_iff] at hstop
    exact hstop.2.2.2.2.2
  have hkeeps : Keeps F Q arg := by
    obtain ⟨head, suffixes, u, hhead, hsuffixes, rfl⟩ := run_both_inv harg
    refine keeps_applySuffixes ?_ (((yields_memberSuffix_keeps hQ hE).orElse
      (yields_callSuffix_keeps hQ hE)).many u suffixes r hsuffixes)
    rcases run_orElse_inv hhead with hnew | ⟨-, hprimary⟩
    · exact yields_newExpr_keeps hQ hE hrules t head u hnew
    · exact (keeps_of_run_primary hQ hE hrules hprimary).resolve_right fun h => h.2 hawait
  clear hops h harg
  induction ops with
  | nil => exact hkeeps
  | cons op ops ih => exact fun hnodes => hQ.unary hnodes.head (ih hnodes.tail)

omit hE hrules in
theorem yields_binaryLevel_keeps {operand : Parser Expr} {op : Parser BinaryOp}
    (h : Yields (Keeps F Q) operand) : Yields (Keeps F Q) (binaryLevel operand op) := by
  refine h.both ((Yields.trivial op).seq h).many fun first rest hfirst hrest => ?_
  induction rest generalizing first with
  | nil => exact hfirst
  | cons x rest ih =>
    refine ih _ (fun hnodes => ?_) fun y hy => hrest y (by simp [hy])
    exact hQ.binary x.1 (hfirst hnodes.tail.left) ((hrest x (by simp)).2 hnodes.tail.right)

theorem yields_expressionBody_keeps : Yields (Keeps F Q) (expressionBody d B E) := by
  have hlevel : ∀ {operand : Parser Expr} {op : Parser BinaryOp}, Yields (Keeps F Q) operand →
      Yields (Keeps F Q) (binaryLevel operand op) := yields_binaryLevel_keeps hQ
  have hnullish : Yields (Keeps F Q) (nullish d B E) :=
    hlevel (hlevel (hlevel (hlevel (hlevel (hlevel (hlevel
      (yields_unaryExpr_keeps hQ hE hrules)))))))
  have hconditional : Yields (Keeps F Q) (conditional d B E) := by
    refine hnullish.both (((hE.skipThen _).thenSkip _).seq hE).optional
      fun test branches ht hb => ?_
    cases branches with
    | none => exact ht
    | some x =>
      obtain ⟨hcons, halt⟩ := hb x rfl
      exact fun hnodes => hQ.cond hnodes.head (ht hnodes.tail.left.left) (hcons hnodes.tail.left.right)
        (halt hnodes.tail.right)
  refine hconditional.both ((Yields.trivial assignOp).seq hE).optional fun target value ht hv => ?_
  cases value with
  | none => exact ht
  | some x =>
    exact fun hnodes => hQ.assign x.1 (ht hnodes.tail.left) ((hv x rfl).2 hnodes.tail.right)

omit hE in
/-- Expressions that were read have the property if their nodes pass the test. -/
theorem yields_keeps : Yields (Keeps F Q) (expression d B) :=
  .fix fun _ hX => yields_expressionBody_keeps hQ hX hrules

end Rules

/-- Operator trees are closed under all that the reader builds of operators. -/
theorem operatorTree_closed : OperatorClosed (fun n => n.isOperator = true) OperatorTree where
  this := .this
  ident := .ident
  lit {value} h := by
    cases value with
    | string lit => exact .string h
    | number text => exact .number h
    | bool b => exact .bool b
    | null => exact .null
    | template raw => exact .template h
  array := .array
  call := .call
  member := .member
  computed := .computedMember
  unary _ := .unary _
  binary := .binary
  cond _ := .cond
  assign := .assign

/-- What was read and is made of operators over names and literals is an operator tree. -/
theorem yields_operatorTree :
    Yields (Keeps (fun n => n.isOperator = true) OperatorTree) (expression d B) := by
  refine yields_keeps operatorTree_closed (operandClosed_of_fragment .inl fun _ => ?_)
  unfold markupExpr
  split
  · exact (Yields.trivial _).map fun el _ hnodes => Bool.noConfusion hnodes.head
  · exact (Yields.trivial _).check nofun

end Grammar

end TsxCompiler
