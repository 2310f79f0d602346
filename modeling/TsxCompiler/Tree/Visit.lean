import TsxCompiler.Tree.Syntax

/-!
# Visiting a tree

A visitor looks at a tree without changing it. It has one hook per kind of node; a hook is given the
node and the visit of its parts, and decides whether and when to make it. Parts are visited in source
order.
-/

namespace TsxCompiler

/-- What to do at each kind of node: the node comes with the visit of its parts. -/
structure Visitor (m : Type → Type) where
  item : Item → m Unit → m Unit := fun _ parts => parts
  imports : Import → m Unit → m Unit := fun _ parts => parts
  stmt : Stmt → m Unit → m Unit := fun _ parts => parts
  block : List Stmt → m Unit → m Unit := fun _ parts => parts
  decl : Decl → m Unit → m Unit := fun _ parts => parts
  classDecl : String → m Unit → m Unit := fun _ parts => parts
  func : Func → m Unit → m Unit := fun _ parts => parts
  classBody : ClassBody → m Unit → m Unit := fun _ parts => parts
  pattern : Pattern → m Unit → m Unit := fun _ parts => parts
  expr : Expr → m Unit → m Unit := fun _ parts => parts
  element : Element → m Unit → m Unit := fun _ parts => parts

variable {m : Type → Type} [Monad m]

mutual

def Expr.visit (v : Visitor m) : Expr → m Unit
  | .this => v.expr .this (pure ())
  | .ident name => v.expr (.ident name) (pure ())
  | .lit value => v.expr (.lit value) (pure ())
  | .array elems => v.expr (.array elems) (Argument.visitAll v elems)
  | .object props => v.expr (.object props) (Property.visitAll v props)
  | .func name body => v.expr (.func name body) (body.visit v)
  | .arrow isAsync params body =>
    v.expr (.arrow isAsync params body) (do Pattern.visitAll v params; body.visit v)
  | .classExpr name body => v.expr (.classExpr name body) (body.visit v)
  | .call callee args optional =>
    v.expr (.call callee args optional) (do callee.visit v; Argument.visitAll v args)
  | .new callee none => v.expr (.new callee none) (callee.visit v)
  | .new callee (some args) =>
    v.expr (.new callee (some args)) (do callee.visit v; Argument.visitAll v args)
  | .member object key optional =>
    v.expr (.member object key optional) (do object.visit v; key.visit v)
  | .unary op arg => v.expr (.unary op arg) (arg.visit v)
  | .binary op left right => v.expr (.binary op left right) (do left.visit v; right.visit v)
  | .cond test cons alt =>
    v.expr (.cond test cons alt) (do test.visit v; cons.visit v; alt.visit v)
  | .assign op target value =>
    v.expr (.assign op target value) (do target.visit v; value.visit v)
  | .jsx element => v.expr (.jsx element) (element.visit v)

def Argument.visitAll (v : Visitor m) : List Argument → m Unit
  | [] => pure ()
  | ⟨_, value⟩ :: rest => do value.visit v; Argument.visitAll v rest

def Property.visit (v : Visitor m) : Property → m Unit
  | .spread value => value.visit v
  | .keyed key value => do key.visit v; value.visit v
  | .shorthand _ => pure ()

def Property.visitAll (v : Visitor m) : List Property → m Unit
  | [] => pure ()
  | p :: rest => do p.visit v; Property.visitAll v rest

def PropertyKey.visit (v : Visitor m) : PropertyKey → m Unit
  | .ident _ | .string _ | .number _ => pure ()
  | .computed value => value.visit v

def MemberKey.visit (v : Visitor m) : MemberKey → m Unit
  | .ident _ => pure ()
  | .computed value => value.visit v

def ArrowBody.visit (v : Visitor m) : ArrowBody → m Unit
  | .block stmts => v.block stmts (Stmt.visitAll v stmts)
  | .expr value => value.visit v

def Pattern.visit (v : Visitor m) : Pattern → m Unit
  | .ident name => v.pattern (.ident name) (pure ())
  | .array elems => v.pattern (.array elems) (Pattern.visitAll v elems)
  | .object props => v.pattern (.object props) (PatternProperty.visitAll v props)
  | .withDefault target value =>
    v.pattern (.withDefault target value) (do target.visit v; value.visit v)
  | .rest target => v.pattern (.rest target) (target.visit v)

def Pattern.visitAll (v : Visitor m) : List Pattern → m Unit
  | [] => pure ()
  | p :: rest => do p.visit v; Pattern.visitAll v rest

def PatternProperty.visit (v : Visitor m) : PatternProperty → m Unit
  | .keyed key target => do key.visit v; target.visit v
  | .shorthand _ none => pure ()
  | .shorthand _ (some value) => value.visit v
  | .rest target => target.visit v

def PatternProperty.visitAll (v : Visitor m) : List PatternProperty → m Unit
  | [] => pure ()
  | p :: rest => do p.visit v; PatternProperty.visitAll v rest

def Func.visit (v : Visitor m) : Func → m Unit
  | ⟨isAsync, params, body⟩ =>
    v.func ⟨isAsync, params, body⟩
      (do Pattern.visitAll v params; v.block body (Stmt.visitAll v body))

def ClassBody.visit (v : Visitor m) : ClassBody → m Unit
  | ⟨none, members⟩ => v.classBody ⟨none, members⟩ (ClassMember.visitAll v members)
  | ⟨some superClass, members⟩ =>
    v.classBody ⟨some superClass, members⟩
      (do superClass.visit v; ClassMember.visitAll v members)

def ClassMember.visit (v : Visitor m) : ClassMember → m Unit
  | .method key body _ => do key.visit v; body.visit v
  | .field key none _ => key.visit v
  | .field key (some value) _ => do key.visit v; value.visit v

def ClassMember.visitAll (v : Visitor m) : List ClassMember → m Unit
  | [] => pure ()
  | x :: rest => do x.visit v; ClassMember.visitAll v rest

def Stmt.visit (v : Visitor m) : Stmt → m Unit
  | .block stmts => v.stmt (.block stmts) (v.block stmts (Stmt.visitAll v stmts))
  | .decl decl => v.stmt (.decl decl) (decl.visit v)
  | .expr value => v.stmt (.expr value) (value.visit v)
  | .ret none => v.stmt (.ret none) (pure ())
  | .ret (some value) => v.stmt (.ret (some value)) (value.visit v)
  | .branch test cons none =>
    v.stmt (.branch test cons none) (do test.visit v; cons.visit v)
  | .branch test cons (some alt) =>
    v.stmt (.branch test cons (some alt)) (do test.visit v; cons.visit v; alt.visit v)
  | .throw value => v.stmt (.throw value) (value.visit v)
  | .empty => v.stmt .empty (pure ())

def Stmt.visitAll (v : Visitor m) : List Stmt → m Unit
  | [] => pure ()
  | s :: rest => do s.visit v; Stmt.visitAll v rest

def Decl.visit (v : Visitor m) : Decl → m Unit
  | .var kind declarators => v.decl (.var kind declarators) (Declarator.visitAll v declarators)
  | .func name body => v.decl (.func name body) (body.visit v)
  | .classDecl name body => v.decl (.classDecl name body) (v.classDecl name (body.visit v))
  | .typeDecl name => v.decl (.typeDecl name) (pure ())

def Declarator.visit (v : Visitor m) : Declarator → m Unit
  | ⟨target, none⟩ => target.visit v
  | ⟨target, some value⟩ => do target.visit v; value.visit v

def Declarator.visitAll (v : Visitor m) : List Declarator → m Unit
  | [] => pure ()
  | d :: rest => do d.visit v; Declarator.visitAll v rest

def Element.visit (v : Visitor m) : Element → m Unit
  | ⟨name, attributes, children, selfClosing⟩ =>
    v.element ⟨name, attributes, children, selfClosing⟩
      (do Attribute.visitAll v attributes; Child.visitAll v children)

def Attribute.visit (v : Visitor m) : Attribute → m Unit
  | .named _ none => pure ()
  | .named _ (some value) => value.visit v
  | .spread value => value.visit v

def Attribute.visitAll (v : Visitor m) : List Attribute → m Unit
  | [] => pure ()
  | a :: rest => do a.visit v; Attribute.visitAll v rest

def AttributeValue.visit (v : Visitor m) : AttributeValue → m Unit
  | .string _ => pure ()
  | .expr value => value.visit v
  | .element element => element.visit v

def Child.visit (v : Visitor m) : Child → m Unit
  | .text _ | .expr none => pure ()
  | .expr (some value) => value.visit v
  | .element element => element.visit v

def Child.visitAll (v : Visitor m) : List Child → m Unit
  | [] => pure ()
  | c :: rest => do c.visit v; Child.visitAll v rest

end

/-! ## Modules -/

def DefaultExport.visit (v : Visitor m) : DefaultExport → m Unit
  | .func _ body => body.visit v
  | .classDef _ body => body.visit v
  | .expr value => value.visit v

def Export.visit (v : Visitor m) : Export → m Unit
  | .decl d => d.visit v
  | .default value => value.visit v
  | .list _ _ | .all _ => pure ()

def Item.visit (v : Visitor m) : Item → m Unit
  | .imports decl => v.item (.imports decl) (v.imports decl (pure ()))
  | .exports decl => v.item (.exports decl) (decl.visit v)
  | .stmt s => v.item (.stmt s) (s.visit v)

/-- Visits a module item by item. -/
def Program.visit (v : Visitor m) (p : Program) : m Unit :=
  p.body.forM (Item.visit v)

end TsxCompiler
