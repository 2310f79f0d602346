import TsxCompiler.Tree.Syntax

/-!
# The nodes of a tree in source order

Every node comes before its parts, and the parts come in source order. The list has what a visit
stops at, imports and the names of class declarations among it, but for blocks.
-/

namespace TsxCompiler

/-- A node of a module. -/
inductive Node where
  | item (item : Item)
  | imports (decl : Import)
  | stmt (stmt : Stmt)
  | decl (decl : Decl)
  | classDecl (name : String)
  | func (body : Func)
  | classBody (body : ClassBody)
  | pattern (pattern : Pattern)
  | expr (expr : Expr)
  | element (element : Element)

/-- The name of a node that is an identifier among the expressions. -/
def Node.identifier? : Node → Option String
  | .expr (.ident name) => some name
  | _ => none

mutual

def Expr.nodes : Expr → List Node
  | .this => [.expr .this]
  | .ident name => [.expr (.ident name)]
  | .lit value => [.expr (.lit value)]
  | .array elems => .expr (.array elems) :: Argument.nodesAll elems
  | .object props => .expr (.object props) :: Property.nodesAll props
  | .func name body => .expr (.func name body) :: body.nodes
  | .arrow isAsync params body =>
    .expr (.arrow isAsync params body) :: (Pattern.nodesAll params ++ body.nodes)
  | .classExpr name body => .expr (.classExpr name body) :: body.nodes
  | .call callee args optional =>
    .expr (.call callee args optional) :: (callee.nodes ++ Argument.nodesAll args)
  | .new callee none => .expr (.new callee none) :: callee.nodes
  | .new callee (some args) =>
    .expr (.new callee (some args)) :: (callee.nodes ++ Argument.nodesAll args)
  | .member object key optional =>
    .expr (.member object key optional) :: (object.nodes ++ key.nodes)
  | .unary op arg => .expr (.unary op arg) :: arg.nodes
  | .binary op left right => .expr (.binary op left right) :: (left.nodes ++ right.nodes)
  | .cond test cons alt =>
    .expr (.cond test cons alt) :: (test.nodes ++ cons.nodes ++ alt.nodes)
  | .assign op target value =>
    .expr (.assign op target value) :: (target.nodes ++ value.nodes)
  | .jsx element => .expr (.jsx element) :: element.nodes

def Argument.nodesAll : List Argument → List Node
  | [] => []
  | ⟨_, value⟩ :: rest => value.nodes ++ Argument.nodesAll rest

def Property.nodes : Property → List Node
  | .spread value => value.nodes
  | .keyed key value => key.nodes ++ value.nodes
  | .shorthand _ => []

def Property.nodesAll : List Property → List Node
  | [] => []
  | p :: rest => p.nodes ++ Property.nodesAll rest

def PropertyKey.nodes : PropertyKey → List Node
  | .ident _ => []
  | .string _ => []
  | .number _ => []
  | .computed value => value.nodes

def MemberKey.nodes : MemberKey → List Node
  | .ident _ => []
  | .computed value => value.nodes

def ArrowBody.nodes : ArrowBody → List Node
  | .block stmts => Stmt.nodesAll stmts
  | .expr value => value.nodes

def Pattern.nodes : Pattern → List Node
  | .ident name => [.pattern (.ident name)]
  | .array elems => .pattern (.array elems) :: Pattern.nodesAll elems
  | .object props => .pattern (.object props) :: PatternProperty.nodesAll props
  | .withDefault target value =>
    .pattern (.withDefault target value) :: (target.nodes ++ value.nodes)
  | .rest target => .pattern (.rest target) :: target.nodes

def Pattern.nodesAll : List Pattern → List Node
  | [] => []
  | p :: rest => p.nodes ++ Pattern.nodesAll rest

def PatternProperty.nodes : PatternProperty → List Node
  | .keyed key target => key.nodes ++ target.nodes
  | .shorthand _ none => []
  | .shorthand _ (some value) => value.nodes
  | .rest target => target.nodes

def PatternProperty.nodesAll : List PatternProperty → List Node
  | [] => []
  | p :: rest => p.nodes ++ PatternProperty.nodesAll rest

def Func.nodes : Func → List Node
  | ⟨isAsync, params, body⟩ =>
    .func ⟨isAsync, params, body⟩ :: (Pattern.nodesAll params ++ Stmt.nodesAll body)

def ClassBody.nodes : ClassBody → List Node
  | ⟨none, members⟩ => .classBody ⟨none, members⟩ :: ClassMember.nodesAll members
  | ⟨some superClass, members⟩ =>
    .classBody ⟨some superClass, members⟩ :: (superClass.nodes ++ ClassMember.nodesAll members)

def ClassMember.nodes : ClassMember → List Node
  | .method key body _ => key.nodes ++ body.nodes
  | .field key none _ => key.nodes
  | .field key (some value) _ => key.nodes ++ value.nodes

def ClassMember.nodesAll : List ClassMember → List Node
  | [] => []
  | x :: rest => x.nodes ++ ClassMember.nodesAll rest

def Stmt.nodes : Stmt → List Node
  | .block stmts => .stmt (.block stmts) :: Stmt.nodesAll stmts
  | .decl decl => .stmt (.decl decl) :: decl.nodes
  | .expr value => .stmt (.expr value) :: value.nodes
  | .ret none => [.stmt (.ret none)]
  | .ret (some value) => .stmt (.ret (some value)) :: value.nodes
  | .branch test cons none => .stmt (.branch test cons none) :: (test.nodes ++ cons.nodes)
  | .branch test cons (some alt) =>
    .stmt (.branch test cons (some alt)) :: (test.nodes ++ cons.nodes ++ alt.nodes)
  | .throw value => .stmt (.throw value) :: value.nodes
  | .empty => [.stmt .empty]

def Stmt.nodesAll : List Stmt → List Node
  | [] => []
  | s :: rest => s.nodes ++ Stmt.nodesAll rest

def Decl.nodes : Decl → List Node
  | .var kind declarators => .decl (.var kind declarators) :: Declarator.nodesAll declarators
  | .func name body => .decl (.func name body) :: body.nodes
  | .classDecl name body => .decl (.classDecl name body) :: .classDecl name :: body.nodes
  | .typeDecl name => [.decl (.typeDecl name)]

def Declarator.nodes : Declarator → List Node
  | ⟨target, none⟩ => target.nodes
  | ⟨target, some value⟩ => target.nodes ++ value.nodes

def Declarator.nodesAll : List Declarator → List Node
  | [] => []
  | d :: rest => d.nodes ++ Declarator.nodesAll rest

def Element.nodes : Element → List Node
  | ⟨name, attributes, children, selfClosing⟩ =>
    .element ⟨name, attributes, children, selfClosing⟩ ::
      (Attribute.nodesAll attributes ++ Child.nodesAll children)

def Attribute.nodes : Attribute → List Node
  | .named _ none => []
  | .named _ (some value) => value.nodes
  | .spread value => value.nodes

def Attribute.nodesAll : List Attribute → List Node
  | [] => []
  | a :: rest => a.nodes ++ Attribute.nodesAll rest

def AttributeValue.nodes : AttributeValue → List Node
  | .string _ => []
  | .expr value => value.nodes
  | .element element => element.nodes

def Child.nodes : Child → List Node
  | .text _ => []
  | .expr none => []
  | .expr (some value) => value.nodes
  | .element element => element.nodes

def Child.nodesAll : List Child → List Node
  | [] => []
  | c :: rest => c.nodes ++ Child.nodesAll rest

end

/-! ## Modules -/

def DefaultExport.nodes : DefaultExport → List Node
  | .func _ body => body.nodes
  | .classDef _ body => body.nodes
  | .expr value => value.nodes

def Export.nodes : Export → List Node
  | .decl d => d.nodes
  | .default value => value.nodes
  | .list _ _ => []
  | .all _ => []

def Item.nodes : Item → List Node
  | .imports decl => [.item (.imports decl), .imports decl]
  | .exports decl => .item (.exports decl) :: decl.nodes
  | .stmt s => .item (.stmt s) :: s.nodes

/-- The nodes of a module in source order, each before its parts. -/
def Program.nodes (p : Program) : List Node :=
  p.body.flatMap Item.nodes

end TsxCompiler
