/-!
# Operators and small tags

The operators of the expression language with their spelling, and how tightly the binary ones bind.
-/

namespace TsxCompiler

/-- An operator in front of its operand. -/
inductive UnaryOp where
  | not
  | minus
  | plus
  | typeOf
  | void
  | await
deriving DecidableEq, Repr

namespace UnaryOp

/-- How the operator is written. -/
def symbol : UnaryOp → String
  | not => "!"
  | minus => "-"
  | plus => "+"
  | typeOf => "typeof"
  | void => "void"
  | await => "await"

/-- Operators that are words need a space before their operand. -/
def isWord : UnaryOp → Bool
  | typeOf | void | await => true
  | _ => false

/-- The two operators that run together with a sign behind them. -/
def isSign : UnaryOp → Bool
  | minus | plus => true
  | _ => false

end UnaryOp

/-- An operator between two operands. -/
inductive BinaryOp where
  | nullish
  | or
  | and
  | strictEq
  | strictNe
  | eq
  | ne
  | lt
  | le
  | gt
  | ge
  | instanceOf
  | isIn
  | add
  | sub
  | mul
  | div
  | mod
deriving DecidableEq, Repr

namespace BinaryOp

/-- How the operator is written. -/
def symbol : BinaryOp → String
  | nullish => "??"
  | or => "||"
  | and => "&&"
  | strictEq => "==="
  | strictNe => "!=="
  | eq => "=="
  | ne => "!="
  | lt => "<"
  | le => "<="
  | gt => ">"
  | ge => ">="
  | instanceOf => "instanceof"
  | isIn => "in"
  | add => "+"
  | sub => "-"
  | mul => "*"
  | div => "/"
  | mod => "%"

/-- Binding power: a higher operator binds tighter. -/
def precedence : BinaryOp → Nat
  | nullish => 4
  | or => 5
  | and => 6
  | strictEq | strictNe | eq | ne => 10
  | lt | le | gt | ge | instanceOf | isIn => 11
  | add | sub => 13
  | mul | div | mod => 14

end BinaryOp

/-- An assignment, plain or combined with an operation. -/
inductive AssignOp where
  | plain
  | add
  | sub
  | or
  | and
  | nullish
deriving DecidableEq, Repr

/-- How the assignment is written. -/
def AssignOp.symbol : AssignOp → String
  | plain => "="
  | add => "+="
  | sub => "-="
  | or => "||="
  | and => "&&="
  | nullish => "??="

/-- The keyword a variable is declared with. -/
inductive VarKind where
  | var
  | letVar
  | const
deriving DecidableEq, Repr

/-- The keyword itself. -/
def VarKind.keyword : VarKind → String
  | var => "var"
  | letVar => "let"
  | const => "const"

end TsxCompiler
