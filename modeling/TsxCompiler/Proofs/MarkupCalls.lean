import Mathlib.Logic.Basic
import TsxCompiler.Lower.Markup
import TsxCompiler.Proofs.Renaming
import TsxCompiler.Proofs.WellFormed

/-!
# Markup and the calls it stands for

Markup is lowered in two recursions: a walk from the inside out changes the expressions, and at each
outermost element a second recursion turns the whole element into a call. Here the same is said in
one recursion from the outside in, `Program.withCalls`: an element is a call of the pragma with its
tag, its attributes and its children, and everything else stays what it is.

## Results

* `Expr.traverse_lowerMarkup`  — the two recursions make what the one recursion makes.
* `Expr.withCalls_plain`       — no markup is left, in whatever position.
* `Program.withCalls_eq_self`  — where there is no markup, nothing changes.
* `lowerMarkup_eq_withCalls`   — lowering gives `Program.withCalls`, or fails on its pragmas alone.
-/

namespace TsxCompiler

open Text

/-! ## The direct translation -/

mutual

/-- An expression with a call in the place of each element. -/
def Expr.withCalls (pragma : Pragma) : Expr → Expr
  | .jsx element => element.asCall pragma
  | .this => .this
  | .ident name => .ident name
  | .lit value => .lit value
  | .array elems => .array (Argument.withCallsAll pragma elems)
  | .object props => .object (Property.withCallsAll pragma props)
  | .func name body => .func name (body.withCalls pragma)
  | .arrow isAsync params body =>
    .arrow isAsync (Pattern.withCallsAll pragma params) (body.withCalls pragma)
  | .classExpr name body => .classExpr name (body.withCalls pragma)
  | .call callee args optional =>
    .call (callee.withCalls pragma) (Argument.withCallsAll pragma args) optional
  | .new callee none => .new (callee.withCalls pragma) none
  | .new callee (some args) =>
    .new (callee.withCalls pragma) (some (Argument.withCallsAll pragma args))
  | .member object key optional =>
    .member (object.withCalls pragma) (key.withCalls pragma) optional
  | .unary op arg => .unary op (arg.withCalls pragma)
  | .binary op left right => .binary op (left.withCalls pragma) (right.withCalls pragma)
  | .cond test cons alt =>
    .cond (test.withCalls pragma) (cons.withCalls pragma) (alt.withCalls pragma)
  | .assign op target value => .assign op (target.withCalls pragma) (value.withCalls pragma)

/-- The call of the pragma with the tag, the attributes as an object, or `null` where there are
none, and the children. -/
def Element.asCall (pragma : Pragma) : Element → Expr
  | ⟨name, attributes, children, _⟩ =>
    .apply (.ofPath pragma.element)
      (name.elim (.ofPath pragma.fragment) tagExpr ::
        Attribute.asArgument pragma attributes :: Child.asArguments pragma children)

def Attribute.asArgument (pragma : Pragma) : List Attribute → Expr
  | [] => .lit .null
  | a :: rest => .object (a.asProperty pragma :: Attribute.asProperties pragma rest)

/-- An attribute without a value is `true`. -/
def Attribute.asProperty (pragma : Pragma) : Attribute → Property
  | .named name none => .keyed (attributeKey name) (.ofBool true)
  | .named name (some value) => .keyed (attributeKey name) (value.asExpr pragma)
  | .spread value => .spread (value.withCalls pragma)

def Attribute.asProperties (pragma : Pragma) : List Attribute → List Property
  | [] => []
  | a :: rest => a.asProperty pragma :: Attribute.asProperties pragma rest

def AttributeValue.asExpr (pragma : Pragma) : AttributeValue → Expr
  | .string lit => .lit (.string lit)
  | .expr value => value.withCalls pragma
  | .element element => element.asCall pragma

/-- Text that vanishes and containers that are empty make no argument. -/
def Child.asArgument (pragma : Pragma) : Child → Option Expr
  | .text raw => (MarkupText.normalize raw.toList).map fun text => .ofString (String.ofList text)
  | .expr none => none
  | .expr (some value) => some (value.withCalls pragma)
  | .element element => some (element.asCall pragma)

def Child.asArguments (pragma : Pragma) : List Child → List Expr
  | [] => []
  | child :: rest => (child.asArgument pragma).toList ++ Child.asArguments pragma rest

def Argument.withCallsAll (pragma : Pragma) : List Argument → List Argument
  | [] => []
  | ⟨spread, value⟩ :: rest =>
    ⟨spread, value.withCalls pragma⟩ :: Argument.withCallsAll pragma rest

def Property.withCalls (pragma : Pragma) : Property → Property
  | .spread value => .spread (value.withCalls pragma)
  | .keyed key value => .keyed (key.withCalls pragma) (value.withCalls pragma)
  | .shorthand name => .shorthand name

def Property.withCallsAll (pragma : Pragma) : List Property → List Property
  | [] => []
  | p :: rest => p.withCalls pragma :: Property.withCallsAll pragma rest

def PropertyKey.withCalls (pragma : Pragma) : PropertyKey → PropertyKey
  | .ident name => .ident name
  | .string lit => .string lit
  | .number text => .number text
  | .computed value => .computed (value.withCalls pragma)

def MemberKey.withCalls (pragma : Pragma) : MemberKey → MemberKey
  | .ident name => .ident name
  | .computed value => .computed (value.withCalls pragma)

def ArrowBody.withCalls (pragma : Pragma) : ArrowBody → ArrowBody
  | .block stmts => .block (Stmt.withCallsAll pragma stmts)
  | .expr value => .expr (value.withCalls pragma)

def Pattern.withCalls (pragma : Pragma) : Pattern → Pattern
  | .ident name => .ident name
  | .array elems => .array (Pattern.withCallsAll pragma elems)
  | .object props => .object (PatternProperty.withCallsAll pragma props)
  | .withDefault target value => .withDefault (target.withCalls pragma) (value.withCalls pragma)
  | .rest target => .rest (target.withCalls pragma)

def Pattern.withCallsAll (pragma : Pragma) : List Pattern → List Pattern
  | [] => []
  | p :: rest => p.withCalls pragma :: Pattern.withCallsAll pragma rest

def PatternProperty.withCalls (pragma : Pragma) : PatternProperty → PatternProperty
  | .keyed key target => .keyed (key.withCalls pragma) (target.withCalls pragma)
  | .shorthand name none => .shorthand name none
  | .shorthand name (some value) => .shorthand name (some (value.withCalls pragma))
  | .rest target => .rest (target.withCalls pragma)

def PatternProperty.withCallsAll (pragma : Pragma) : List PatternProperty → List PatternProperty
  | [] => []
  | p :: rest => p.withCalls pragma :: PatternProperty.withCallsAll pragma rest

def Func.withCalls (pragma : Pragma) : Func → Func
  | ⟨isAsync, params, body⟩ =>
    ⟨isAsync, Pattern.withCallsAll pragma params, Stmt.withCallsAll pragma body⟩

def ClassBody.withCalls (pragma : Pragma) : ClassBody → ClassBody
  | ⟨none, members⟩ => ⟨none, ClassMember.withCallsAll pragma members⟩
  | ⟨some superClass, members⟩ =>
    ⟨some (superClass.withCalls pragma), ClassMember.withCallsAll pragma members⟩

def ClassMember.withCalls (pragma : Pragma) : ClassMember → ClassMember
  | .method key body isStatic => .method (key.withCalls pragma) (body.withCalls pragma) isStatic
  | .field key none isStatic => .field (key.withCalls pragma) none isStatic
  | .field key (some value) isStatic =>
    .field (key.withCalls pragma) (some (value.withCalls pragma)) isStatic

def ClassMember.withCallsAll (pragma : Pragma) : List ClassMember → List ClassMember
  | [] => []
  | x :: rest => x.withCalls pragma :: ClassMember.withCallsAll pragma rest

def Stmt.withCalls (pragma : Pragma) : Stmt → Stmt
  | .block stmts => .block (Stmt.withCallsAll pragma stmts)
  | .decl decl => .decl (decl.withCalls pragma)
  | .expr value => .expr (value.withCalls pragma)
  | .ret none => .ret none
  | .ret (some value) => .ret (some (value.withCalls pragma))
  | .branch test cons none => .branch (test.withCalls pragma) (cons.withCalls pragma) none
  | .branch test cons (some alt) =>
    .branch (test.withCalls pragma) (cons.withCalls pragma) (some (alt.withCalls pragma))
  | .throw value => .throw (value.withCalls pragma)
  | .empty => .empty

def Stmt.withCallsAll (pragma : Pragma) : List Stmt → List Stmt
  | [] => []
  | s :: rest => s.withCalls pragma :: Stmt.withCallsAll pragma rest

def Decl.withCalls (pragma : Pragma) : Decl → Decl
  | .var kind declarators => .var kind (Declarator.withCallsAll pragma declarators)
  | .func name body => .func name (body.withCalls pragma)
  | .classDecl name body => .classDecl name (body.withCalls pragma)
  | .typeDecl name => .typeDecl name

def Declarator.withCalls (pragma : Pragma) : Declarator → Declarator
  | ⟨target, none⟩ => ⟨target.withCalls pragma, none⟩
  | ⟨target, some value⟩ => ⟨target.withCalls pragma, some (value.withCalls pragma)⟩

def Declarator.withCallsAll (pragma : Pragma) : List Declarator → List Declarator
  | [] => []
  | d :: rest => d.withCalls pragma :: Declarator.withCallsAll pragma rest

end

def DefaultExport.withCalls (pragma : Pragma) : DefaultExport → DefaultExport
  | .func name body => .func name (body.withCalls pragma)
  | .classDef name body => .classDef name (body.withCalls pragma)
  | .expr value => .expr (value.withCalls pragma)

def Export.withCalls (pragma : Pragma) : Export → Export
  | .decl d => .decl (d.withCalls pragma)
  | .default value => .default (value.withCalls pragma)
  | .list specifiers source => .list specifiers source
  | .all source => .all source

def Item.withCalls (pragma : Pragma) : Item → Item
  | .imports decl => .imports decl
  | .exports decl => .exports (decl.withCalls pragma)
  | .stmt s => .stmt (s.withCalls pragma)

/-- A module with a call in the place of each element. -/
def Program.withCalls (pragma : Pragma) (p : Program) : Program :=
  ⟨p.body.map (Item.withCalls pragma)⟩

/-! ## Two recursions make what one makes -/

/-- The walk that lowers markup. -/
abbrev Pragma.walk (pragma : Pragma) : Traversal Id :=
  Traversal.onExprs (Expr.lowerMarkup pragma)

variable {pragma : Pragma}

-- The walk itself leaves elements inside elements as they are; only the element on the outside is
-- turned into a call, with all elements in it. So there are two statements: one about the walk, for
-- everything that is not markup, and one about the walk and the call together, for markup.

mutual

/-- The walk comes to an element when its parts are lowered already; in one recursion the parts are
lowered as the call is built. All other constructors are passed over by both. -/
theorem Expr.traverse_lowerMarkup (e : Expr) :
    (e.traverse pragma.walk).run = e.withCalls pragma := by
  match e with
  | .this | .ident _ | .lit _ => rfl
  | .array elems => exact congrArg Expr.array (Argument.traverseAll_lowerMarkup elems)
  | .object props => exact congrArg Expr.object (Property.traverseAll_lowerMarkup props)
  | .func name body => exact congrArg (Expr.func name) body.traverse_lowerMarkup
  | .arrow isAsync params body =>
    show Expr.arrow isAsync _ _ = Expr.arrow isAsync _ _
    congr 1
    · exact Pattern.traverseAll_lowerMarkup params
    · exact body.traverse_lowerMarkup
  | .classExpr name body => exact congrArg (Expr.classExpr name) body.traverse_lowerMarkup
  | .call callee args optional =>
    show Expr.call _ _ optional = Expr.call _ _ optional
    congr 1
    · exact callee.traverse_lowerMarkup
    · exact Argument.traverseAll_lowerMarkup args
  | .new callee none => exact congrArg (Expr.new · none) callee.traverse_lowerMarkup
  | .new callee (some args) =>
    show Expr.new _ (some _) = Expr.new _ (some _)
    congr 1
    · exact callee.traverse_lowerMarkup
    · exact congrArg some (Argument.traverseAll_lowerMarkup args)
  | .member object key optional =>
    show Expr.member _ _ optional = Expr.member _ _ optional
    congr 1
    · exact object.traverse_lowerMarkup
    · exact key.traverse_lowerMarkup
  | .unary op arg => exact congrArg (Expr.unary op) arg.traverse_lowerMarkup
  | .binary op left right =>
    show Expr.binary op _ _ = Expr.binary op _ _
    congr 1
    · exact left.traverse_lowerMarkup
    · exact right.traverse_lowerMarkup
  | .cond test cons alt =>
    show Expr.cond _ _ _ = Expr.cond _ _ _
    congr 1
    · exact test.traverse_lowerMarkup
    · exact cons.traverse_lowerMarkup
    · exact alt.traverse_lowerMarkup
  | .assign op target value =>
    show Expr.assign op _ _ = Expr.assign op _ _
    congr 1
    · exact target.traverse_lowerMarkup
    · exact value.traverse_lowerMarkup
  | .jsx element => exact element.toCall_traverse

theorem Element.toCall_traverse (e : Element) :
    (e.traverse pragma.walk).run.toCall pragma = e.asCall pragma := by
  match e with
  | ⟨name, attributes, children, selfClosing⟩ =>
    have htag : (match name with
        | some name => tagExpr name
        | none => .ofPath pragma.fragment) =
          name.elim (.ofPath pragma.fragment) tagExpr := by
      cases name <;> rfl
    have hattributes := Attribute.toArgument_traverseAll attributes
    have hchildren := Child.toArguments_traverseAll children
    exact congrArg (Expr.apply (.ofPath pragma.element))
      (congrArg₂ List.cons htag (congrArg₂ List.cons hattributes hchildren))

theorem Attribute.toArgument_traverseAll (attributes : List Attribute) :
    (if (Attribute.traverseAll pragma.walk attributes).run.isEmpty then .lit .null
      else .object (Attribute.toProperties pragma
        (Attribute.traverseAll pragma.walk attributes).run)) =
      Attribute.asArgument pragma attributes := by
  match attributes with
  | [] => rfl
  | a :: rest =>
    exact congrArg Expr.object ((a.toProperties_traverse _).trans
      (congrArg _ (Attribute.toProperties_traverseAll rest)))

theorem Attribute.toProperties_traverse (a : Attribute) (rest : List Attribute) :
    Attribute.toProperties pragma ((a.traverse pragma.walk).run :: rest) =
      a.asProperty pragma :: Attribute.toProperties pragma rest := by
  match a with
  | .named name none => rfl
  | .named name (some value) =>
    exact congrArg (fun value => Property.keyed (attributeKey name) value :: _)
      value.toExpr_traverse
  | .spread value =>
    exact congrArg (fun value => Property.spread value :: _) value.traverse_lowerMarkup

theorem Attribute.toProperties_traverseAll (attributes : List Attribute) :
    Attribute.toProperties pragma (Attribute.traverseAll pragma.walk attributes).run =
      Attribute.asProperties pragma attributes := by
  match attributes with
  | [] => rfl
  | a :: rest =>
    exact (a.toProperties_traverse _).trans
      (congrArg _ (Attribute.toProperties_traverseAll rest))

theorem AttributeValue.toExpr_traverse (v : AttributeValue) :
    (v.traverse pragma.walk).run.toExpr pragma = v.asExpr pragma := by
  match v with
  | .string lit => rfl
  | .expr value => exact value.traverse_lowerMarkup
  | .element element => exact element.toCall_traverse

theorem Child.toArguments_traverse (c : Child) (rest : List Child) :
    Child.toArguments pragma ((c.traverse pragma.walk).run :: rest) =
      (c.asArgument pragma).toList ++ Child.toArguments pragma rest := by
  match c with
  | .text raw =>
    show (match MarkupText.normalize raw.toList with
      | some text => _ :: _
      | none => _) = ((MarkupText.normalize raw.toList).map _).toList ++ _
    cases MarkupText.normalize raw.toList <;> rfl
  | .expr none => rfl
  | .expr (some value) => exact congrArg (· :: _) value.traverse_lowerMarkup
  | .element element => exact congrArg (· :: _) element.toCall_traverse

theorem Child.toArguments_traverseAll (children : List Child) :
    Child.toArguments pragma (Child.traverseAll pragma.walk children).run =
      Child.asArguments pragma children := by
  match children with
  | [] => rfl
  | c :: rest =>
    exact (c.toArguments_traverse _).trans (congrArg _ (Child.toArguments_traverseAll rest))

theorem Argument.traverseAll_lowerMarkup (args : List Argument) :
    (Argument.traverseAll pragma.walk args).run = Argument.withCallsAll pragma args := by
  match args with
  | [] => rfl
  | ⟨spread, value⟩ :: rest =>
    show Argument.mk spread _ :: _ = Argument.mk spread _ :: _
    congr 1
    · exact congrArg (Argument.mk spread) value.traverse_lowerMarkup
    · exact Argument.traverseAll_lowerMarkup rest

theorem Property.traverse_lowerMarkup (p : Property) :
    (p.traverse pragma.walk).run = p.withCalls pragma := by
  match p with
  | .spread value => exact congrArg Property.spread value.traverse_lowerMarkup
  | .keyed key value =>
    show Property.keyed _ _ = Property.keyed _ _
    congr 1
    · exact key.traverse_lowerMarkup
    · exact value.traverse_lowerMarkup
  | .shorthand name => rfl

theorem Property.traverseAll_lowerMarkup (props : List Property) :
    (Property.traverseAll pragma.walk props).run = Property.withCallsAll pragma props := by
  match props with
  | [] => rfl
  | p :: rest =>
    show _ :: _ = _ :: _
    congr 1
    · exact p.traverse_lowerMarkup
    · exact Property.traverseAll_lowerMarkup rest

theorem PropertyKey.traverse_lowerMarkup (key : PropertyKey) :
    (key.traverse pragma.walk).run = key.withCalls pragma := by
  match key with
  | .ident _ | .string _ | .number _ => rfl
  | .computed value => exact congrArg PropertyKey.computed value.traverse_lowerMarkup

theorem MemberKey.traverse_lowerMarkup (key : MemberKey) :
    (key.traverse pragma.walk).run = key.withCalls pragma := by
  match key with
  | .ident _ => rfl
  | .computed value => exact congrArg MemberKey.computed value.traverse_lowerMarkup

theorem ArrowBody.traverse_lowerMarkup (body : ArrowBody) :
    (body.traverse pragma.walk).run = body.withCalls pragma := by
  match body with
  | .block stmts => exact congrArg ArrowBody.block (Stmt.traverseAll_lowerMarkup stmts)
  | .expr value => exact congrArg ArrowBody.expr value.traverse_lowerMarkup

theorem Pattern.traverse_lowerMarkup (p : Pattern) :
    (p.traverse pragma.walk).run = p.withCalls pragma := by
  match p with
  | .ident name => rfl
  | .array elems => exact congrArg Pattern.array (Pattern.traverseAll_lowerMarkup elems)
  | .object props => exact congrArg Pattern.object (PatternProperty.traverseAll_lowerMarkup props)
  | .withDefault target value =>
    show Pattern.withDefault _ _ = Pattern.withDefault _ _
    congr 1
    · exact target.traverse_lowerMarkup
    · exact value.traverse_lowerMarkup
  | .rest target => exact congrArg Pattern.rest target.traverse_lowerMarkup

theorem Pattern.traverseAll_lowerMarkup (ps : List Pattern) :
    (Pattern.traverseAll pragma.walk ps).run = Pattern.withCallsAll pragma ps := by
  match ps with
  | [] => rfl
  | p :: rest =>
    show _ :: _ = _ :: _
    congr 1
    · exact p.traverse_lowerMarkup
    · exact Pattern.traverseAll_lowerMarkup rest

theorem PatternProperty.traverse_lowerMarkup (p : PatternProperty) :
    (p.traverse pragma.walk).run = p.withCalls pragma := by
  match p with
  | .keyed key target =>
    show PatternProperty.keyed _ _ = PatternProperty.keyed _ _
    congr 1
    · exact key.traverse_lowerMarkup
    · exact target.traverse_lowerMarkup
  | .shorthand name none => rfl
  | .shorthand name (some value) =>
    exact congrArg (fun value => PatternProperty.shorthand name (some value))
      value.traverse_lowerMarkup
  | .rest target => exact congrArg PatternProperty.rest target.traverse_lowerMarkup

theorem PatternProperty.traverseAll_lowerMarkup (props : List PatternProperty) :
    (PatternProperty.traverseAll pragma.walk props).run =
      PatternProperty.withCallsAll pragma props := by
  match props with
  | [] => rfl
  | p :: rest =>
    show _ :: _ = _ :: _
    congr 1
    · exact p.traverse_lowerMarkup
    · exact PatternProperty.traverseAll_lowerMarkup rest

theorem Func.traverse_lowerMarkup (f : Func) :
    (f.traverse pragma.walk).run = f.withCalls pragma := by
  match f with
  | ⟨isAsync, params, body⟩ =>
    show Func.mk isAsync _ _ = Func.mk isAsync _ _
    congr 1
    · exact Pattern.traverseAll_lowerMarkup params
    · exact Stmt.traverseAll_lowerMarkup body

theorem ClassBody.traverse_lowerMarkup (c : ClassBody) :
    (c.traverse pragma.walk).run = c.withCalls pragma := by
  match c with
  | ⟨none, members⟩ =>
    exact congrArg (ClassBody.mk none) (ClassMember.traverseAll_lowerMarkup members)
  | ⟨some superClass, members⟩ =>
    show ClassBody.mk (some _) _ = ClassBody.mk (some _) _
    congr 1
    · exact congrArg some superClass.traverse_lowerMarkup
    · exact ClassMember.traverseAll_lowerMarkup members

theorem ClassMember.traverse_lowerMarkup (x : ClassMember) :
    (x.traverse pragma.walk).run = x.withCalls pragma := by
  match x with
  | .method key body isStatic =>
    show ClassMember.method _ _ isStatic = ClassMember.method _ _ isStatic
    congr 1
    · exact key.traverse_lowerMarkup
    · exact body.traverse_lowerMarkup
  | .field key none isStatic =>
    exact congrArg (ClassMember.field · none isStatic) key.traverse_lowerMarkup
  | .field key (some value) isStatic =>
    show ClassMember.field _ (some _) isStatic = ClassMember.field _ (some _) isStatic
    congr 1
    · exact key.traverse_lowerMarkup
    · exact congrArg some value.traverse_lowerMarkup

theorem ClassMember.traverseAll_lowerMarkup (members : List ClassMember) :
    (ClassMember.traverseAll pragma.walk members).run =
      ClassMember.withCallsAll pragma members := by
  match members with
  | [] => rfl
  | x :: rest =>
    show _ :: _ = _ :: _
    congr 1
    · exact x.traverse_lowerMarkup
    · exact ClassMember.traverseAll_lowerMarkup rest

theorem Stmt.traverse_lowerMarkup (s : Stmt) :
    (s.traverse pragma.walk).run = s.withCalls pragma := by
  match s with
  | .block stmts => exact congrArg Stmt.block (Stmt.traverseAll_lowerMarkup stmts)
  | .decl decl => exact congrArg Stmt.decl decl.traverse_lowerMarkup
  | .expr value => exact congrArg Stmt.expr value.traverse_lowerMarkup
  | .ret none => rfl
  | .ret (some value) =>
    exact congrArg (fun value => Stmt.ret (some value)) value.traverse_lowerMarkup
  | .branch test cons none =>
    show Stmt.branch _ _ none = Stmt.branch _ _ none
    congr 1
    · exact test.traverse_lowerMarkup
    · exact cons.traverse_lowerMarkup
  | .branch test cons (some alt) =>
    show Stmt.branch _ _ (some _) = Stmt.branch _ _ (some _)
    congr 1
    · exact test.traverse_lowerMarkup
    · exact cons.traverse_lowerMarkup
    · exact congrArg some alt.traverse_lowerMarkup
  | .throw value => exact congrArg Stmt.throw value.traverse_lowerMarkup
  | .empty => rfl

theorem Stmt.traverseAll_lowerMarkup (stmts : List Stmt) :
    (Stmt.traverseAll pragma.walk stmts).run = Stmt.withCallsAll pragma stmts := by
  match stmts with
  | [] => rfl
  | s :: rest =>
    show _ :: _ = _ :: _
    congr 1
    · exact s.traverse_lowerMarkup
    · exact Stmt.traverseAll_lowerMarkup rest

theorem Decl.traverse_lowerMarkup (d : Decl) :
    (d.traverse pragma.walk).run = d.withCalls pragma := by
  match d with
  | .var kind declarators =>
    exact congrArg (Decl.var kind) (Declarator.traverseAll_lowerMarkup declarators)
  | .func name body => exact congrArg (Decl.func name) body.traverse_lowerMarkup
  | .classDecl name body => exact congrArg (Decl.classDecl name) body.traverse_lowerMarkup
  | .typeDecl name => rfl

theorem Declarator.traverse_lowerMarkup (d : Declarator) :
    (d.traverse pragma.walk).run = d.withCalls pragma := by
  match d with
  | ⟨target, none⟩ => exact congrArg (Declarator.mk · none) target.traverse_lowerMarkup
  | ⟨target, some value⟩ =>
    show Declarator.mk _ (some _) = Declarator.mk _ (some _)
    congr 1
    · exact target.traverse_lowerMarkup
    · exact congrArg some value.traverse_lowerMarkup

theorem Declarator.traverseAll_lowerMarkup (declarators : List Declarator) :
    (Declarator.traverseAll pragma.walk declarators).run =
      Declarator.withCallsAll pragma declarators := by
  match declarators with
  | [] => rfl
  | d :: rest =>
    show _ :: _ = _ :: _
    congr 1
    · exact d.traverse_lowerMarkup
    · exact Declarator.traverseAll_lowerMarkup rest

end

theorem Item.traverse_lowerMarkup (x : Item) :
    (x.traverse pragma.walk).run = x.withCalls pragma := by
  match x with
  | .imports decl => rfl
  | .stmt s => exact congrArg Item.stmt s.traverse_lowerMarkup
  | .exports (.decl d) => exact congrArg (fun d => Item.exports (.decl d)) d.traverse_lowerMarkup
  | .exports (.default (.func name body)) =>
    exact congrArg (fun body => Item.exports (.default (.func name body)))
      body.traverse_lowerMarkup
  | .exports (.default (.classDef name body)) =>
    exact congrArg (fun body => Item.exports (.default (.classDef name body)))
      body.traverse_lowerMarkup
  | .exports (.default (.expr value)) =>
    exact congrArg (fun value => Item.exports (.default (.expr value))) value.traverse_lowerMarkup
  | .exports (.list specifiers source) => rfl
  | .exports (.all source) => rfl

theorem Program.mapExprs_lowerMarkup (p : Program) :
    p.mapExprs (Expr.lowerMarkup pragma) = p.withCalls pragma := by
  have hwalk : Item.traverse pragma.walk = fun x => pure (x.withCalls pragma) :=
    funext fun x => x.traverse_lowerMarkup
  simp only [Program.mapExprs, Program.traverse, hwalk, List.mapM_pure]
  rfl

/-! ## No markup is left -/

/-- No node of a list is markup. -/
abbrev NoMarkup : List Node → Prop := AllNodes fun n => n.isMarkup = false

theorem noMarkup_apply {callee : Expr} {args : List Expr} (hcallee : NoMarkup callee.nodes)
    (hargs : ∀ arg ∈ args, NoMarkup arg.nodes) : NoMarkup (callee.apply args).nodes := by
  refine .cons rfl (.append hcallee ?_)
  rw [Argument.nodesAll_eq, List.flatMap_map]
  exact (allNodes_flatMap _ _).2 hargs

theorem noMarkup_ofPath (path : String) : NoMarkup (Expr.ofPath path).nodes := by
  have hfold : ∀ (names : List String) (e : Expr), NoMarkup e.nodes →
      NoMarkup (names.foldl Expr.dot e).nodes := by
    intro names
    induction names with
    | nil => exact fun _ he => he
    | cons name names ih =>
      intro e he
      exact ih _ (.cons rfl (.append he allNodes_nil))
  unfold Expr.ofPath
  split
  · exact .cons rfl allNodes_nil
  · exact hfold _ _ (.cons rfl allNodes_nil)

theorem noMarkup_tag (pragma : Pragma) (name : Option String) :
    NoMarkup (name.elim (Expr.ofPath pragma.fragment) tagExpr).nodes := by
  cases name with
  | none => exact noMarkup_ofPath _
  | some name =>
    simp only [Option.elim, tagExpr]
    split
    · exact .cons rfl allNodes_nil
    · exact noMarkup_ofPath name

theorem noMarkup_attributeKey (name : String) : NoMarkup (attributeKey name).nodes := by
  unfold attributeKey
  split <;> exact allNodes_nil

mutual

/-- An element is gone, whatever it stood in: one case for each constructor. -/
theorem Expr.withCalls_plain (e : Expr) : NoMarkup (e.withCalls pragma).nodes := by
  match e with
  | .this | .ident _ | .lit _ => exact .cons rfl allNodes_nil
  | .array elems => exact .cons rfl (Argument.withCallsAll_plain elems)
  | .object props => exact .cons rfl (Property.withCallsAll_plain props)
  | .func name body => exact .cons rfl body.withCalls_plain
  | .arrow isAsync params body =>
    exact .cons rfl (.append (Pattern.withCallsAll_plain params) body.withCalls_plain)
  | .classExpr name body => exact .cons rfl body.withCalls_plain
  | .call callee args optional =>
    exact .cons rfl (.append callee.withCalls_plain (Argument.withCallsAll_plain args))
  | .new callee none => exact .cons rfl callee.withCalls_plain
  | .new callee (some args) =>
    exact .cons rfl (.append callee.withCalls_plain (Argument.withCallsAll_plain args))
  | .member object key optional =>
    exact .cons rfl (.append object.withCalls_plain key.withCalls_plain)
  | .unary op arg => exact .cons rfl arg.withCalls_plain
  | .binary op left right => exact .cons rfl (.append left.withCalls_plain right.withCalls_plain)
  | .cond test cons alt =>
    exact .cons rfl (.append (.append test.withCalls_plain cons.withCalls_plain)
      alt.withCalls_plain)
  | .assign op target value =>
    exact .cons rfl (.append target.withCalls_plain value.withCalls_plain)
  | .jsx element => exact element.asCall_plain

theorem Element.asCall_plain (e : Element) : NoMarkup (e.asCall pragma).nodes := by
  match e with
  | ⟨name, attributes, children, selfClosing⟩ =>
    exact noMarkup_apply (noMarkup_ofPath _) (List.forall_mem_cons.2 ⟨noMarkup_tag pragma name,
      List.forall_mem_cons.2 ⟨Attribute.asArgument_plain attributes,
        Child.asArguments_plain children⟩⟩)

theorem Attribute.asArgument_plain (attributes : List Attribute) :
    NoMarkup (Attribute.asArgument pragma attributes).nodes := by
  match attributes with
  | [] => exact .cons rfl allNodes_nil
  | a :: rest => exact .cons rfl (.append a.asProperty_plain (Attribute.asProperties_plain rest))

theorem Attribute.asProperty_plain (a : Attribute) : NoMarkup (a.asProperty pragma).nodes := by
  match a with
  | .named name none => exact .append (noMarkup_attributeKey name) (.cons rfl allNodes_nil)
  | .named name (some value) => exact .append (noMarkup_attributeKey name) value.asExpr_plain
  | .spread value => exact value.withCalls_plain

theorem Attribute.asProperties_plain (attributes : List Attribute) :
    NoMarkup (Property.nodesAll (Attribute.asProperties pragma attributes)) := by
  match attributes with
  | [] => exact allNodes_nil
  | a :: rest => exact .append a.asProperty_plain (Attribute.asProperties_plain rest)

theorem AttributeValue.asExpr_plain (v : AttributeValue) : NoMarkup (v.asExpr pragma).nodes := by
  match v with
  | .string lit => exact .cons rfl allNodes_nil
  | .expr value => exact value.withCalls_plain
  | .element element => exact element.asCall_plain

theorem Child.asArgument_plain (c : Child) :
    ∀ e ∈ c.asArgument pragma, NoMarkup e.nodes := by
  match c with
  | .text raw =>
    intro e he
    obtain ⟨text, -, rfl⟩ := Option.map_eq_some_iff.1 he
    exact .cons rfl allNodes_nil
  | .expr none => exact fun e he => nomatch he
  | .expr (some value) => exact fun e he => Option.some.inj he ▸ value.withCalls_plain
  | .element element => exact fun e he => Option.some.inj he ▸ element.asCall_plain

theorem Child.asArguments_plain (children : List Child) :
    ∀ e ∈ Child.asArguments pragma children, NoMarkup e.nodes := by
  match children with
  | [] => exact fun e he => nomatch he
  | c :: rest =>
    intro e he
    rcases List.mem_append.1 he with he | he
    · exact c.asArgument_plain e (Option.mem_toList.1 he)
    · exact Child.asArguments_plain rest e he

theorem Argument.withCallsAll_plain (args : List Argument) :
    NoMarkup (Argument.nodesAll (Argument.withCallsAll pragma args)) := by
  match args with
  | [] => exact allNodes_nil
  | ⟨spread, value⟩ :: rest =>
    exact .append value.withCalls_plain (Argument.withCallsAll_plain rest)

theorem Property.withCalls_plain (p : Property) : NoMarkup (p.withCalls pragma).nodes := by
  match p with
  | .spread value => exact value.withCalls_plain
  | .keyed key value => exact .append key.withCalls_plain value.withCalls_plain
  | .shorthand name => exact allNodes_nil

theorem Property.withCallsAll_plain (props : List Property) :
    NoMarkup (Property.nodesAll (Property.withCallsAll pragma props)) := by
  match props with
  | [] => exact allNodes_nil
  | p :: rest => exact .append p.withCalls_plain (Property.withCallsAll_plain rest)

theorem PropertyKey.withCalls_plain (key : PropertyKey) :
    NoMarkup (key.withCalls pragma).nodes := by
  match key with
  | .ident _ | .string _ | .number _ => exact allNodes_nil
  | .computed value => exact value.withCalls_plain

theorem MemberKey.withCalls_plain (key : MemberKey) : NoMarkup (key.withCalls pragma).nodes := by
  match key with
  | .ident name => exact allNodes_nil
  | .computed value => exact value.withCalls_plain

theorem ArrowBody.withCalls_plain (body : ArrowBody) :
    NoMarkup (body.withCalls pragma).nodes := by
  match body with
  | .block stmts => exact Stmt.withCallsAll_plain stmts
  | .expr value => exact value.withCalls_plain

theorem Pattern.withCalls_plain (p : Pattern) : NoMarkup (p.withCalls pragma).nodes := by
  match p with
  | .ident name => exact .cons rfl allNodes_nil
  | .array elems => exact .cons rfl (Pattern.withCallsAll_plain elems)
  | .object props => exact .cons rfl (PatternProperty.withCallsAll_plain props)
  | .withDefault target value =>
    exact .cons rfl (.append target.withCalls_plain value.withCalls_plain)
  | .rest target => exact .cons rfl target.withCalls_plain

theorem Pattern.withCallsAll_plain (ps : List Pattern) :
    NoMarkup (Pattern.nodesAll (Pattern.withCallsAll pragma ps)) := by
  match ps with
  | [] => exact allNodes_nil
  | p :: rest => exact .append p.withCalls_plain (Pattern.withCallsAll_plain rest)

theorem PatternProperty.withCalls_plain (p : PatternProperty) :
    NoMarkup (p.withCalls pragma).nodes := by
  match p with
  | .keyed key target => exact .append key.withCalls_plain target.withCalls_plain
  | .shorthand name none => exact allNodes_nil
  | .shorthand name (some value) => exact value.withCalls_plain
  | .rest target => exact target.withCalls_plain

theorem PatternProperty.withCallsAll_plain (props : List PatternProperty) :
    NoMarkup (PatternProperty.nodesAll (PatternProperty.withCallsAll pragma props)) := by
  match props with
  | [] => exact allNodes_nil
  | p :: rest => exact .append p.withCalls_plain (PatternProperty.withCallsAll_plain rest)

theorem Func.withCalls_plain (f : Func) : NoMarkup (f.withCalls pragma).nodes := by
  match f with
  | ⟨isAsync, params, body⟩ =>
    exact .cons rfl (.append (Pattern.withCallsAll_plain params) (Stmt.withCallsAll_plain body))

theorem ClassBody.withCalls_plain (c : ClassBody) : NoMarkup (c.withCalls pragma).nodes := by
  match c with
  | ⟨none, members⟩ => exact .cons rfl (ClassMember.withCallsAll_plain members)
  | ⟨some superClass, members⟩ =>
    exact .cons rfl (.append superClass.withCalls_plain (ClassMember.withCallsAll_plain members))

theorem ClassMember.withCalls_plain (x : ClassMember) : NoMarkup (x.withCalls pragma).nodes := by
  match x with
  | .method key body isStatic => exact .append key.withCalls_plain body.withCalls_plain
  | .field key none isStatic => exact key.withCalls_plain
  | .field key (some value) isStatic => exact .append key.withCalls_plain value.withCalls_plain

theorem ClassMember.withCallsAll_plain (members : List ClassMember) :
    NoMarkup (ClassMember.nodesAll (ClassMember.withCallsAll pragma members)) := by
  match members with
  | [] => exact allNodes_nil
  | x :: rest => exact .append x.withCalls_plain (ClassMember.withCallsAll_plain rest)

theorem Stmt.withCalls_plain (s : Stmt) : NoMarkup (s.withCalls pragma).nodes := by
  match s with
  | .block stmts => exact .cons rfl (Stmt.withCallsAll_plain stmts)
  | .decl decl => exact .cons rfl (Decl.withCalls_plain decl)
  | .expr value => exact .cons rfl value.withCalls_plain
  | .ret none => exact .cons rfl allNodes_nil
  | .ret (some value) => exact .cons rfl value.withCalls_plain
  | .branch test cons none =>
    exact .cons rfl (.append test.withCalls_plain cons.withCalls_plain)
  | .branch test cons (some alt) =>
    exact .cons rfl (.append (.append test.withCalls_plain cons.withCalls_plain)
      alt.withCalls_plain)
  | .throw value => exact .cons rfl value.withCalls_plain
  | .empty => exact .cons rfl allNodes_nil

theorem Stmt.withCallsAll_plain (stmts : List Stmt) :
    NoMarkup (Stmt.nodesAll (Stmt.withCallsAll pragma stmts)) := by
  match stmts with
  | [] => exact allNodes_nil
  | s :: rest => exact .append s.withCalls_plain (Stmt.withCallsAll_plain rest)

theorem Decl.withCalls_plain (d : Decl) : NoMarkup (d.withCalls pragma).nodes := by
  match d with
  | .var kind declarators => exact .cons rfl (Declarator.withCallsAll_plain declarators)
  | .func name body => exact .cons rfl body.withCalls_plain
  | .classDecl name body => exact .cons rfl (.cons rfl body.withCalls_plain)
  | .typeDecl name => exact .cons rfl allNodes_nil

theorem Declarator.withCalls_plain (d : Declarator) : NoMarkup (d.withCalls pragma).nodes := by
  match d with
  | ⟨target, none⟩ => exact target.withCalls_plain
  | ⟨target, some value⟩ => exact .append target.withCalls_plain value.withCalls_plain

theorem Declarator.withCallsAll_plain (declarators : List Declarator) :
    NoMarkup (Declarator.nodesAll (Declarator.withCallsAll pragma declarators)) := by
  match declarators with
  | [] => exact allNodes_nil
  | d :: rest => exact .append d.withCalls_plain (Declarator.withCallsAll_plain rest)

end

theorem Item.withCalls_plain (x : Item) : NoMarkup (x.withCalls pragma).nodes := by
  match x with
  | .imports decl => exact .cons rfl (.cons rfl allNodes_nil)
  | .stmt s => exact .cons rfl s.withCalls_plain
  | .exports (.decl d) => exact .cons rfl d.withCalls_plain
  | .exports (.default (.func name body)) => exact .cons rfl body.withCalls_plain
  | .exports (.default (.classDef name body)) => exact .cons rfl body.withCalls_plain
  | .exports (.default (.expr value)) => exact .cons rfl value.withCalls_plain
  | .exports (.list specifiers source) => exact .cons rfl allNodes_nil
  | .exports (.all source) => exact .cons rfl allNodes_nil

theorem Program.withCalls_plain (p : Program) : NoMarkup (p.withCalls pragma).nodes := by
  refine (allNodes_flatMap _ _).2 fun x hx => ?_
  obtain ⟨y, -, rfl⟩ := List.mem_map.1 hx
  exact y.withCalls_plain

/-- Where there is no markup, nothing changes. -/
theorem Program.withCalls_eq_self (p : Program) (h : NoMarkup p.nodes) :
    p.withCalls pragma = p := by
  rw [← p.mapExprs_lowerMarkup]
  refine p.relabels.walk_eq_self _ fun e he => ?_
  cases e with
  | jsx element => exact Bool.noConfusion (h _ he)
  | _ => rfl

/-! ## Lowering -/

/-- Both pragmas are dotted paths of identifiers. -/
def Pragma.IsDotted (pragma : Pragma) : Prop :=
  (∀ part ∈ parts '.' pragma.element, isIdentifier part = true) ∧
    ∀ part ∈ parts '.' pragma.fragment, isIdentifier part = true

instance (pragma : Pragma) : Decidable pragma.IsDotted :=
  inferInstanceAs (Decidable (_ ∧ _))

/-- The pragma that lowering complains about. -/
def Pragma.refused (pragma : Pragma) : String :=
  if isDottedPath pragma.element then pragma.fragment else pragma.element

theorem isDottedPath_iff (path : String) :
    isDottedPath path = true ↔ ∀ part ∈ parts '.' path, isIdentifier part = true := by
  rw [isDottedPath, List.all_eq_true]

/-- With pragmas that are dotted paths, lowering gives the direct translation, in which no markup is
left and which is the module itself where that has no markup. With other pragmas it fails, whatever
the module. -/
theorem lowerMarkup_eq_withCalls (pragma : Pragma) (p : Program) :
    (pragma.IsDotted →
      p.lowerMarkup pragma = .ok (p.withCalls pragma) ∧
      (∀ n ∈ (p.withCalls pragma).nodes, n.isMarkup = false) ∧
      ((∀ n ∈ p.nodes, n.isMarkup = false) → p.lowerMarkup pragma = .ok p)) ∧
    (¬ pragma.IsDotted → p.lowerMarkup pragma = .error (.invalidPragma pragma.refused)) := by
  rw [Pragma.IsDotted, ← isDottedPath_iff, ← isDottedPath_iff]
  refine ⟨?_, ?_⟩
  · rintro ⟨helement, hfragment⟩
    have hok : p.lowerMarkup pragma = .ok (p.withCalls pragma) := by
      rw [Program.lowerMarkup, p.mapExprs_lowerMarkup]
      simp [helement, hfragment]
    refine ⟨hok, p.withCalls_plain, fun h => ?_⟩
    rw [hok, p.withCalls_eq_self h]
  · intro hdotted
    rw [Program.lowerMarkup, Pragma.refused]
    by_cases helement : isDottedPath pragma.element = true
    · have hfragment : isDottedPath pragma.fragment = false := by
        simpa [helement] using hdotted
      simp [helement, hfragment]
    · simp [helement]

/-- `<b c={<i/>}>{}{x}</b>`, with an element in an attribute and an empty container. -/
theorem lowerMarkup_nested :
    Pragma.standard.IsDotted ∧
    (⟨[.stmt (.expr (.jsx ⟨some "b", [.named "c" (some (.expr (.jsx ⟨some "i", [], [], true⟩)))],
      [.expr none, .expr (some (.ident "x"))], false⟩))]⟩ : Program).lowerMarkup .standard =
      .ok ⟨[.stmt (.expr ((Expr.ofPath "React.createElement").apply
        [.ofString "b",
          .object [.keyed (.ident "c")
            ((Expr.ofPath "React.createElement").apply [.ofString "i", .lit .null])],
          .ident "x"]))]⟩ :=
  have hdotted : Pragma.standard.IsDotted := by decide
  ⟨hdotted, ((lowerMarkup_eq_withCalls .standard _).1 hdotted).1.trans rfl⟩

end TsxCompiler
