import TsxCompiler.Grammar.Callable
import TsxCompiler.Grammar.Markup

/-!
# Expressions

One rule per level of binding power, from primary expressions up to assignments. Function bodies
hold statements, so the rules take the rule for blocks as an argument; `expr` is the rule for whole
expressions itself.
-/

namespace TsxCompiler.Grammar

open Peg Peg.Parser

/-! ## Primary expressions -/

/-- Strings, templates, numbers and the three constants. -/
def literalExpr : Parser Expr :=
  (choice (stringLit.map Literal.string)
    [ template.map Literal.template,
      number.map Literal.number,
      (keyword "true").yielding (.bool true),
      (keyword "false").yielding (.bool false),
      (keyword "null").yielding .null ]).map Expr.lit

/-- A value that may be spread. -/
def argument (expr : Parser Expr) : Parser Argument :=
  both Argument.mk ((sym "...").optional.map Option.isSome) expr

/-- Arguments in parentheses. -/
def arguments (expr : Parser Expr) : Parser (List Argument) :=
  inParens (sepByTrailing (sym ",") (argument expr))

/-- An array literal. -/
def arrayExpr (expr : Parser Expr) : Parser Expr :=
  (inBrackets (sepByTrailing (sym ",") (argument expr))).map Expr.array

/-- An entry of an object literal. -/
def property (expr : Parser Expr) : Parser Property :=
  choice (((sym "...").skipThen expr).map Property.spread)
    [ both Property.keyed ((propertyKey expr).thenSkip (sym ":")) expr,
      identifier.map Property.shorthand ]

/-- An object literal. -/
def objectExpr (expr : Parser Expr) : Parser Expr :=
  (inBraces (sepByTrailing (sym ",") (property expr))).map Expr.object

/-- The body of an arrow function. A brace always opens a block: an object needs parentheses. -/
def arrowBody (expr : Parser Expr) (block : Parser (List Stmt)) : Parser ArrowBody :=
  (block.map ArrowBody.block).orElse
    (((satisfy (· != '{')).peek.skipThen expr).map ArrowBody.expr)

/-- An arrow function. -/
def arrowExpr (d : Dialect) (block : Parser (List Stmt)) (expr : Parser Expr) : Parser Expr :=
  both (fun (isAsync, params) body => .arrow isAsync params body)
    (((asyncMark.seq
      ((params d expr).orElse (identifier.map fun name => [Pattern.ident name]))).thenSkip
      (ascription d)).thenSkip (sym "=>"))
    (arrowBody expr block)

/-- A function expression. -/
def functionExpr (d : Dialect) (block : Parser (List Stmt)) (expr : Parser Expr) : Parser Expr :=
  (functionWith identifier.optional d expr block).map fun (name, body) => .func name body

/-- A class expression. -/
def classExpr (d : Dialect) (block : Parser (List Stmt)) (expr : Parser Expr) : Parser Expr :=
  (classWith identifier.optional d expr block).map fun (name, body) => .classExpr name body

/-- An element, where markup is part of the language. -/
def markupExpr (d : Dialect) (expr : Parser Expr) : Parser Expr :=
  if d.markup then (lexeme (element expr)).map Expr.jsx
  else (char '<').check fun _ => .error "JSX syntax requires the markup extension"

/-- An expression that no operator takes apart. Arrow functions are tried before anything that
starts like their parameters. -/
def primary (d : Dialect) (block : Parser (List Stmt)) (expr : Parser Expr) : Parser Expr :=
  choice (arrowExpr d block expr)
    [ functionExpr d block expr,
      classExpr d block expr,
      markupExpr d expr,
      literalExpr,
      (keyword "this").yielding .this,
      identifier.map Expr.ident,
      arrayExpr expr,
      objectExpr expr,
      inParens expr ]

/-! ## Members and calls -/

/-- A step from an object to something in it. -/
def memberSuffix (expr : Parser Expr) : Parser (Expr → Expr) :=
  choice (((sym "?.").skipThen word).map fun name object => .member object (.ident name) true)
    [ ((sym ".").skipThen word).map fun name object => .member object (.ident name) false,
      (inBrackets expr).map fun key object =>
        .member object (.computed key) false ]

/-- A call of what stands before. -/
def callSuffix (expr : Parser Expr) : Parser (Expr → Expr) :=
  choice (((sym "?.").skipThen (arguments expr)).map fun args callee => .call callee args true)
    [(arguments expr).map fun args callee => .call callee args false]

/-- Applies suffixes from left to right. -/
def applySuffixes (e : Expr) (suffixes : List (Expr → Expr)) : Expr :=
  suffixes.foldl (fun object suffix => suffix object) e

/-- `new` with its callee, which no call takes part in, and its arguments. -/
def newExpr (d : Dialect) (block : Parser (List Stmt)) (expr : Parser Expr) : Parser Expr :=
  both Expr.new
    ((keyword "new").skipThen
      (both applySuffixes (primary d block expr) (many (memberSuffix expr))))
    (arguments expr).optional

/-- A primary expression or `new`, with members and calls behind it. -/
def postfixExpr (d : Dialect) (block : Parser (List Stmt)) (expr : Parser Expr) : Parser Expr :=
  both applySuffixes ((newExpr d block expr).orElse (primary d block expr))
    (many ((memberSuffix expr).orElse (callSuffix expr)))

/-! ## Operators -/

/-- An operator in front of its operand. -/
def unaryOp : Parser UnaryOp :=
  choice ((sym "!").yielding .not)
    [ (sym "-").yielding .minus,
      (sym "+").yielding .plus,
      (keyword "typeof").yielding .typeOf,
      (keyword "void").yielding .void,
      (keyword "await").yielding .await ]

/-- Casts, which are read and forgotten. -/
def casts (d : Dialect) : Parser Unit :=
  whenTyped d (forget (many ((keyword "as").skipThen typeExpr)))

/-- An operand with the operators in front of it. -/
def unaryExpr (d : Dialect) (block : Parser (List Stmt)) (expr : Parser Expr) : Parser Expr :=
  (both (fun ops arg => ops.foldr Expr.unary arg) (many unaryOp)
    (postfixExpr d block expr)).thenSkip (casts d)

/-- Operands with operators of one level between them, grouped from the left. -/
def binaryLevel (operand : Parser Expr) (op : Parser BinaryOp) : Parser Expr :=
  both (fun first rest => rest.foldl (fun left (op, right) => .binary op left right) first)
    operand (many (op.seq operand))

def multiplicativeOp : Parser BinaryOp :=
  choice ((sym "*").yielding .mul) [(sym "/").yielding .div, (sym "%").yielding .mod]

def additiveOp : Parser BinaryOp :=
  choice ((sym "+").yielding .add) [(sym "-").yielding .sub]

def relationalOp : Parser BinaryOp :=
  choice ((sym "<=").yielding .le)
    [ (sym ">=").yielding .ge,
      (sym "<").yielding .lt,
      (sym ">").yielding .gt,
      (keyword "instanceof").yielding .instanceOf,
      (keyword "in").yielding .isIn ]

def equalityOp : Parser BinaryOp :=
  choice ((sym "===").yielding .strictEq)
    [ (sym "!==").yielding .strictNe,
      (sym "==").yielding .eq,
      (sym "!=").yielding .ne ]

def multiplicative (d : Dialect) (block : Parser (List Stmt)) (expr : Parser Expr) :
    Parser Expr :=
  binaryLevel (unaryExpr d block expr) multiplicativeOp

def additive (d : Dialect) (block : Parser (List Stmt)) (expr : Parser Expr) : Parser Expr :=
  binaryLevel (multiplicative d block expr) additiveOp

def relational (d : Dialect) (block : Parser (List Stmt)) (expr : Parser Expr) : Parser Expr :=
  binaryLevel (additive d block expr) relationalOp

def equality (d : Dialect) (block : Parser (List Stmt)) (expr : Parser Expr) : Parser Expr :=
  binaryLevel (relational d block expr) equalityOp

def conjunction (d : Dialect) (block : Parser (List Stmt)) (expr : Parser Expr) : Parser Expr :=
  binaryLevel (equality d block expr) ((sym "&&").yielding .and)

def disjunction (d : Dialect) (block : Parser (List Stmt)) (expr : Parser Expr) : Parser Expr :=
  binaryLevel (conjunction d block expr) ((sym "||").yielding .or)

def nullish (d : Dialect) (block : Parser (List Stmt)) (expr : Parser Expr) : Parser Expr :=
  binaryLevel (disjunction d block expr) ((sym "??").yielding .nullish)

/-- `test ? cons : alt`, or only the test. -/
def conditional (d : Dialect) (block : Parser (List Stmt)) (expr : Parser Expr) : Parser Expr :=
  both (fun test branches => match branches with
      | some (cons, alt) => .cond test cons alt
      | none => test)
    (nullish d block expr)
    ((((sym "?").skipThen expr).thenSkip (sym ":")).seq expr).optional

def assignOp : Parser AssignOp :=
  choice ((sym "??=").yielding .nullish)
    [ (sym "||=").yielding .or,
      (sym "&&=").yielding .and,
      (sym "+=").yielding .add,
      (sym "-=").yielding .sub,
      (sym "=").yielding .plain ]

/-- The body of the recursive rule for expressions: an assignment, or only its target. -/
def expressionBody (d : Dialect) (block : Parser (List Stmt)) (expr : Parser Expr) :
    Parser Expr :=
  both (fun target assignment => match assignment with
      | some (op, value) => .assign op target value
      | none => target)
    (conditional d block expr)
    (assignOp.seq expr).optional

/-- An expression. -/
def expression (d : Dialect) (block : Parser (List Stmt)) : Parser Expr :=
  fix (expressionBody d block)

end TsxCompiler.Grammar
