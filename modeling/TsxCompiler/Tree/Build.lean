import TsxCompiler.Text.Split
import TsxCompiler.Tree.Syntax

/-!
# Nodes for made-up code

Short ways to write the trees that passes and lowerings put into a program.
-/

namespace TsxCompiler

namespace Expr

/-- A string literal without a spelling of its own. -/
def ofString (value : String) : Expr := .lit (.string (.ofValue value))

/-- `true` or `false`. -/
def ofBool (value : Bool) : Expr := .lit (.bool value)

/-- `object.name` -/
def dot (object : Expr) (name : String) : Expr := .member object (.ident name) false

/-- `callee(args…)` -/
def apply (callee : Expr) (args : List Expr) : Expr :=
  .call callee (args.map fun value => ⟨false, value⟩) false

/-- The member chain that a dotted path stands for. -/
def ofPath (path : String) : Expr :=
  match Text.parts '.' path with
  | [] => .ident ""
  | head :: rest => rest.foldl dot (.ident head)

end Expr

namespace Stmt

/-- `target = value;` -/
def assign (target value : Expr) : Stmt := .expr (.assign .plain target value)

/-- `kind name = init;` -/
def declare (kind : VarKind) (name : String) (init : Expr) : Stmt :=
  .decl (.var kind [⟨.ident name, some init⟩])

end Stmt

end TsxCompiler
