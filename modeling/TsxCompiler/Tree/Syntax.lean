import TsxCompiler.Tree.Operator

/-!
# The program tree

What a module is made of: imports, exports and statements over an expression language with JSX.
Type annotations leave no node behind; only the name of a type declaration does. The tree keeps no
parentheses: printing puts them back from the binding powers.
-/

namespace TsxCompiler

/-- A string literal. `raw` is its spelling with quotes when it came from source text. -/
structure StringLit where
  value : String
  raw : Option String
deriving DecidableEq, Repr

/-- A literal that made-up code holds: no spelling of its own. -/
def StringLit.ofValue (value : String) : StringLit := ⟨value, none⟩

/-- A literal. Numbers keep their spelling; a template is the text between its backquotes. -/
inductive Literal where
  | string (lit : StringLit)
  | number (text : String)
  | bool (value : Bool)
  | null
  | template (raw : String)
deriving DecidableEq, Repr

mutual

inductive Expr where
  | this
  | ident (name : String)
  | lit (value : Literal)
  | array (elems : List Argument)
  | object (props : List Property)
  | func (name : Option String) (body : Func)
  | arrow (isAsync : Bool) (params : List Pattern) (body : ArrowBody)
  | classExpr (name : Option String) (body : ClassBody)
  | call (callee : Expr) (args : List Argument) (optional : Bool)
  /-- `new` with an argument list or, when there is none, without. -/
  | new (callee : Expr) (args : Option (List Argument))
  | member (object : Expr) (key : MemberKey) (optional : Bool)
  | unary (op : UnaryOp) (arg : Expr)
  | binary (op : BinaryOp) (left right : Expr)
  | cond (test cons alt : Expr)
  | assign (op : AssignOp) (target value : Expr)
  | jsx (element : Element)

/-- An element of an array or argument list, spread or not. -/
structure Argument where
  spread : Bool
  value : Expr

/-- An entry of an object literal. -/
inductive Property where
  | spread (value : Expr)
  | keyed (key : PropertyKey) (value : Expr)
  | shorthand (name : String)

/-- The name of a property or class member. -/
inductive PropertyKey where
  | ident (name : String)
  | string (lit : StringLit)
  | number (text : String)
  | computed (value : Expr)

/-- What is read from an object. -/
inductive MemberKey where
  | ident (name : String)
  | computed (value : Expr)

/-- The body of an arrow function. -/
inductive ArrowBody where
  | block (stmts : List Stmt)
  | expr (value : Expr)

/-- A binding pattern. -/
inductive Pattern where
  | ident (name : String)
  | array (elems : List Pattern)
  | object (props : List PatternProperty)
  | withDefault (target : Pattern) (value : Expr)
  | rest (target : Pattern)

/-- An entry of an object pattern. -/
inductive PatternProperty where
  | keyed (key : PropertyKey) (target : Pattern)
  | shorthand (name : String) (default : Option Expr)
  | rest (target : Pattern)

/-- Parameters and body of a function. -/
structure Func where
  isAsync : Bool
  params : List Pattern
  body : List Stmt

/-- Heritage and members of a class. -/
structure ClassBody where
  superClass : Option Expr
  members : List ClassMember

inductive ClassMember where
  | method (key : PropertyKey) (body : Func) (isStatic : Bool)
  | field (key : PropertyKey) (value : Option Expr) (isStatic : Bool)

inductive Stmt where
  | block (stmts : List Stmt)
  | decl (decl : Decl)
  | expr (value : Expr)
  | ret (value : Option Expr)
  | branch (test : Expr) (cons : Stmt) (alt : Option Stmt)
  | throw (value : Expr)
  | empty

inductive Decl where
  | var (kind : VarKind) (declarators : List Declarator)
  | func (name : String) (body : Func)
  | classDecl (name : String) (body : ClassBody)
  /-- A type declaration, of which nothing is emitted. -/
  | typeDecl (name : String)

/-- A declared pattern with its initial value. -/
structure Declarator where
  target : Pattern
  init : Option Expr

/-- A JSX element; without a name it is a fragment. -/
structure Element where
  name : Option String
  attributes : List Attribute
  children : List Child
  selfClosing : Bool

inductive Attribute where
  | named (name : String) (value : Option AttributeValue)
  | spread (value : Expr)

inductive AttributeValue where
  | string (lit : StringLit)
  | expr (value : Expr)
  | element (element : Element)

/-- What stands between the tags of an element. -/
inductive Child where
  /-- Text exactly as written. -/
  | text (raw : String)
  /-- A container, which may be empty or hold only a comment. -/
  | expr (value : Option Expr)
  | element (element : Element)

end

/-! ## Modules -/

/-- A name that an import binds. -/
inductive ImportSpecifier where
  | default (binding : String)
  | star (binding : String)
  | named (binding : String) (imported : Option String)
deriving DecidableEq, Repr

structure Import where
  specifiers : List ImportSpecifier
  source : StringLit
  typeOnly : Bool
deriving DecidableEq, Repr

/-- An entry of an export list. -/
structure ExportSpecifier where
  binding : String
  exported : Option String
deriving DecidableEq, Repr

/-- The name the binding is exported under. -/
def ExportSpecifier.exportedName (s : ExportSpecifier) : String :=
  s.exported.getD s.binding

inductive DefaultExport where
  | func (name : Option String) (body : Func)
  | classDef (name : Option String) (body : ClassBody)
  | expr (value : Expr)

inductive Export where
  | decl (decl : Decl)
  | default (value : DefaultExport)
  | list (specifiers : List ExportSpecifier) (source : Option StringLit)
  | all (source : StringLit)

/-- A top-level item of a module. -/
inductive Item where
  | imports (decl : Import)
  | exports (decl : Export)
  | stmt (stmt : Stmt)

/-- A module. -/
structure Program where
  body : List Item

end TsxCompiler
