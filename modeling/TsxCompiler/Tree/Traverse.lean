import TsxCompiler.Tree.Syntax

/-!
# Traversing a tree

A traversal has one hook per kind of node. A hook is given the node and the walk through its parts,
and decides what becomes of it: take the walk as it is, do something before or after it, or leave
the parts alone. Parts are walked in source order.
-/

namespace TsxCompiler

/-- What to do at each kind of node: the node comes with the walk through its parts. -/
structure Traversal (m : Type → Type) where
  item : Item → m Item → m Item := fun _ walk => walk
  stmt : Stmt → m Stmt → m Stmt := fun _ walk => walk
  block : List Stmt → m (List Stmt) → m (List Stmt) := fun _ walk => walk
  decl : Decl → m Decl → m Decl := fun _ walk => walk
  func : Func → m Func → m Func := fun _ walk => walk
  classBody : ClassBody → m ClassBody → m ClassBody := fun _ walk => walk
  pattern : Pattern → m Pattern → m Pattern := fun _ walk => walk
  expr : Expr → m Expr → m Expr := fun _ walk => walk
  element : Element → m Element → m Element := fun _ walk => walk

variable {m : Type → Type} [Monad m]

mutual

def Expr.traverse (r : Traversal m) : Expr → m Expr
  | .this => r.expr .this (pure .this)
  | .ident name => r.expr (.ident name) (pure (.ident name))
  | .lit value => r.expr (.lit value) (pure (.lit value))
  | .array elems => r.expr (.array elems) (do return .array (← Argument.traverseAll r elems))
  | .object props => r.expr (.object props) (do return .object (← Property.traverseAll r props))
  | .func name body => r.expr (.func name body) (do return .func name (← body.traverse r))
  | .arrow isAsync params body =>
    r.expr (.arrow isAsync params body)
      (do return .arrow isAsync (← Pattern.traverseAll r params) (← body.traverse r))
  | .classExpr name body =>
    r.expr (.classExpr name body) (do return .classExpr name (← body.traverse r))
  | .call callee args optional =>
    r.expr (.call callee args optional)
      (do return .call (← callee.traverse r) (← Argument.traverseAll r args) optional)
  | .new callee none =>
    r.expr (.new callee none) (do return .new (← callee.traverse r) none)
  | .new callee (some args) =>
    r.expr (.new callee (some args))
      (do return .new (← callee.traverse r) (some (← Argument.traverseAll r args)))
  | .member object key optional =>
    r.expr (.member object key optional)
      (do return .member (← object.traverse r) (← key.traverse r) optional)
  | .unary op arg => r.expr (.unary op arg) (do return .unary op (← arg.traverse r))
  | .binary op left right =>
    r.expr (.binary op left right)
      (do return .binary op (← left.traverse r) (← right.traverse r))
  | .cond test cons alt =>
    r.expr (.cond test cons alt)
      (do return .cond (← test.traverse r) (← cons.traverse r) (← alt.traverse r))
  | .assign op target value =>
    r.expr (.assign op target value)
      (do return .assign op (← target.traverse r) (← value.traverse r))
  | .jsx element => r.expr (.jsx element) (do return .jsx (← element.traverse r))

def Argument.traverseAll (r : Traversal m) : List Argument → m (List Argument)
  | [] => pure []
  | ⟨spread, value⟩ :: rest =>
    do return ⟨spread, ← value.traverse r⟩ :: (← Argument.traverseAll r rest)

def Property.traverse (r : Traversal m) : Property → m Property
  | .spread value => do return .spread (← value.traverse r)
  | .keyed key value => do return .keyed (← key.traverse r) (← value.traverse r)
  | .shorthand name => pure (.shorthand name)

def Property.traverseAll (r : Traversal m) : List Property → m (List Property)
  | [] => pure []
  | p :: rest => do return (← p.traverse r) :: (← Property.traverseAll r rest)

def PropertyKey.traverse (r : Traversal m) : PropertyKey → m PropertyKey
  | .ident name => pure (.ident name)
  | .string lit => pure (.string lit)
  | .number text => pure (.number text)
  | .computed value => do return .computed (← value.traverse r)

def MemberKey.traverse (r : Traversal m) : MemberKey → m MemberKey
  | .ident name => pure (.ident name)
  | .computed value => do return .computed (← value.traverse r)

def ArrowBody.traverse (r : Traversal m) : ArrowBody → m ArrowBody
  | .block stmts => do return .block (← r.block stmts (Stmt.traverseAll r stmts))
  | .expr value => do return .expr (← value.traverse r)

def Pattern.traverse (r : Traversal m) : Pattern → m Pattern
  | .ident name => r.pattern (.ident name) (pure (.ident name))
  | .array elems => r.pattern (.array elems) (do return .array (← Pattern.traverseAll r elems))
  | .object props =>
    r.pattern (.object props) (do return .object (← PatternProperty.traverseAll r props))
  | .withDefault target value =>
    r.pattern (.withDefault target value)
      (do return .withDefault (← target.traverse r) (← value.traverse r))
  | .rest target => r.pattern (.rest target) (do return .rest (← target.traverse r))

def Pattern.traverseAll (r : Traversal m) : List Pattern → m (List Pattern)
  | [] => pure []
  | p :: rest => do return (← p.traverse r) :: (← Pattern.traverseAll r rest)

def PatternProperty.traverse (r : Traversal m) : PatternProperty → m PatternProperty
  | .keyed key target => do return .keyed (← key.traverse r) (← target.traverse r)
  | .shorthand name none => pure (.shorthand name none)
  | .shorthand name (some value) => do return .shorthand name (some (← value.traverse r))
  | .rest target => do return .rest (← target.traverse r)

def PatternProperty.traverseAll (r : Traversal m) : List PatternProperty → m (List PatternProperty)
  | [] => pure []
  | p :: rest => do return (← p.traverse r) :: (← PatternProperty.traverseAll r rest)

def Func.traverse (r : Traversal m) : Func → m Func
  | ⟨isAsync, params, body⟩ =>
    r.func ⟨isAsync, params, body⟩
      (do return ⟨isAsync, ← Pattern.traverseAll r params,
        ← r.block body (Stmt.traverseAll r body)⟩)

def ClassBody.traverse (r : Traversal m) : ClassBody → m ClassBody
  | ⟨none, members⟩ =>
    r.classBody ⟨none, members⟩ (do return ⟨none, ← ClassMember.traverseAll r members⟩)
  | ⟨some superClass, members⟩ =>
    r.classBody ⟨some superClass, members⟩
      (do return ⟨some (← superClass.traverse r), ← ClassMember.traverseAll r members⟩)

def ClassMember.traverse (r : Traversal m) : ClassMember → m ClassMember
  | .method key body isStatic =>
    do return .method (← key.traverse r) (← body.traverse r) isStatic
  | .field key none isStatic => do return .field (← key.traverse r) none isStatic
  | .field key (some value) isStatic =>
    do return .field (← key.traverse r) (some (← value.traverse r)) isStatic

def ClassMember.traverseAll (r : Traversal m) : List ClassMember → m (List ClassMember)
  | [] => pure []
  | x :: rest => do return (← x.traverse r) :: (← ClassMember.traverseAll r rest)

def Stmt.traverse (r : Traversal m) : Stmt → m Stmt
  | .block stmts =>
    r.stmt (.block stmts) (do return .block (← r.block stmts (Stmt.traverseAll r stmts)))
  | .decl decl => r.stmt (.decl decl) (do return .decl (← decl.traverse r))
  | .expr value => r.stmt (.expr value) (do return .expr (← value.traverse r))
  | .ret none => r.stmt (.ret none) (pure (.ret none))
  | .ret (some value) => r.stmt (.ret (some value)) (do return .ret (some (← value.traverse r)))
  | .branch test cons none =>
    r.stmt (.branch test cons none)
      (do return .branch (← test.traverse r) (← cons.traverse r) none)
  | .branch test cons (some alt) =>
    r.stmt (.branch test cons (some alt))
      (do return .branch (← test.traverse r) (← cons.traverse r) (some (← alt.traverse r)))
  | .throw value => r.stmt (.throw value) (do return .throw (← value.traverse r))
  | .empty => r.stmt .empty (pure .empty)

def Stmt.traverseAll (r : Traversal m) : List Stmt → m (List Stmt)
  | [] => pure []
  | s :: rest => do return (← s.traverse r) :: (← Stmt.traverseAll r rest)

def Decl.traverse (r : Traversal m) : Decl → m Decl
  | .var kind declarators =>
    r.decl (.var kind declarators) (do return .var kind (← Declarator.traverseAll r declarators))
  | .func name body => r.decl (.func name body) (do return .func name (← body.traverse r))
  | .classDecl name body =>
    r.decl (.classDecl name body) (do return .classDecl name (← body.traverse r))
  | .typeDecl name => r.decl (.typeDecl name) (pure (.typeDecl name))

def Declarator.traverse (r : Traversal m) : Declarator → m Declarator
  | ⟨target, none⟩ => do return ⟨← target.traverse r, none⟩
  | ⟨target, some value⟩ => do return ⟨← target.traverse r, some (← value.traverse r)⟩

def Declarator.traverseAll (r : Traversal m) : List Declarator → m (List Declarator)
  | [] => pure []
  | d :: rest => do return (← d.traverse r) :: (← Declarator.traverseAll r rest)

def Element.traverse (r : Traversal m) : Element → m Element
  | ⟨name, attributes, children, selfClosing⟩ =>
    r.element ⟨name, attributes, children, selfClosing⟩
      (do return ⟨name, ← Attribute.traverseAll r attributes, ← Child.traverseAll r children,
        selfClosing⟩)

def Attribute.traverse (r : Traversal m) : Attribute → m Attribute
  | .named name none => pure (.named name none)
  | .named name (some value) => do return .named name (some (← value.traverse r))
  | .spread value => do return .spread (← value.traverse r)

def Attribute.traverseAll (r : Traversal m) : List Attribute → m (List Attribute)
  | [] => pure []
  | a :: rest => do return (← a.traverse r) :: (← Attribute.traverseAll r rest)

def AttributeValue.traverse (r : Traversal m) : AttributeValue → m AttributeValue
  | .string lit => pure (.string lit)
  | .expr value => do return .expr (← value.traverse r)
  | .element element => do return .element (← element.traverse r)

def Child.traverse (r : Traversal m) : Child → m Child
  | .text raw => pure (.text raw)
  | .expr none => pure (.expr none)
  | .expr (some value) => do return .expr (some (← value.traverse r))
  | .element element => do return .element (← element.traverse r)

def Child.traverseAll (r : Traversal m) : List Child → m (List Child)
  | [] => pure []
  | c :: rest => do return (← c.traverse r) :: (← Child.traverseAll r rest)

end

/-! ## Modules -/

def DefaultExport.traverse (r : Traversal m) : DefaultExport → m DefaultExport
  | .func name body => do return .func name (← body.traverse r)
  | .classDef name body => do return .classDef name (← body.traverse r)
  | .expr value => do return .expr (← value.traverse r)

def Export.traverse (r : Traversal m) : Export → m Export
  | .decl d => do return .decl (← d.traverse r)
  | .default value => do return .default (← value.traverse r)
  | .list specifiers source => pure (.list specifiers source)
  | .all source => pure (.all source)

def Item.traverse (r : Traversal m) : Item → m Item
  | .imports decl => r.item (.imports decl) (pure (.imports decl))
  | .exports decl => r.item (.exports decl) (do return .exports (← decl.traverse r))
  | .stmt s => r.item (.stmt s) (do return .stmt (← s.traverse r))

/-- Walks through a module item by item. -/
def Program.traverse (r : Traversal m) (p : Program) : m Program :=
  do return ⟨← p.body.mapM (Item.traverse r)⟩

/-! ## Changing expressions from the inside out -/

/-- The traversal that changes every expression after its parts. -/
def Traversal.onExprs (f : Expr → Expr) : Traversal Id where
  expr _ walk := f (Id.run walk)

/-- Changes every expression of a module, parts first. -/
def Program.mapExprs (f : Expr → Expr) (p : Program) : Program :=
  Id.run (p.traverse (Traversal.onExprs f))

end TsxCompiler
