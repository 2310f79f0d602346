import TsxCompiler.Tree.Syntax

/-!
# Binding powers

How tightly an expression holds together, and where its text would be taken for something else.
Printing puts parentheses around an expression that binds more loosely than its place needs.
-/

namespace TsxCompiler

namespace Power

def assignment : Nat := 2

def conditional : Nat := 3

def unary : Nat := 16

/-- Members, calls and `new`. -/
def access : Nat := 18

def primary : Nat := 20

end Power

namespace Expr

/-- The binding power of an expression. -/
def power : Expr → Nat
  | .assign .. | .arrow .. => Power.assignment
  | .cond .. => Power.conditional
  | .binary op _ _ => op.precedence
  | .unary .. => Power.unary
  | .call .. | .new .. | .member .. => Power.access
  | _ => Power.primary

/-- Whether the text of an expression starts like a block or a declaration. -/
def startsAmbiguously : Expr → Bool
  | .object _ | .func .. | .classExpr .. => true
  | .call callee _ _ => callee.startsAmbiguously
  | .member obj _ _ => obj.startsAmbiguously
  | .binary _ left _ => left.startsAmbiguously
  | .cond test _ _ => test.startsAmbiguously
  | .assign _ target _ => target.startsAmbiguously
  | _ => false

/-- Whether an expression is a call. -/
def isCall : Expr → Bool
  | .call .. => true
  | _ => false

/-- Whether an expression starts with a sign. -/
def isSigned : Expr → Bool
  | .unary op _ => op.isSign
  | _ => false

end Expr

namespace Stmt

/-- Statements that nothing is printed for. -/
def isErased : Stmt → Bool
  | .empty | .decl (.typeDecl _) => true
  | _ => false

/-- Whether a statement is a block. -/
def isBlock : Stmt → Bool
  | .block _ => true
  | _ => false

/-- Whether a statement is an `if`. -/
def isBranch : Stmt → Bool
  | .branch .. => true
  | _ => false

end Stmt

end TsxCompiler
