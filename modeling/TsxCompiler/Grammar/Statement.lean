import TsxCompiler.Grammar.Expression

/-!
# Statements and declarations
-/

namespace TsxCompiler.Grammar

open Peg Peg.Parser

/-- Statements in braces. -/
def blockOf (stmt : Parser Stmt) : Parser (List Stmt) :=
  inBraces (many stmt)

/-! ## Declarations -/

/-- A declared pattern with its initial value. -/
def declarator (d : Dialect) (expr : Parser Expr) : Parser Declarator :=
  both Declarator.mk ((bindingPattern expr).thenSkip (ascription d)) (initializer expr)

/-- A variable declaration. -/
def varDecl (d : Dialect) (expr : Parser Expr) : Parser Decl :=
  (both Decl.var
    (choice ((keyword "const").yielding .const)
      [(keyword "let").yielding .letVar, (keyword "var").yielding .var])
    (sepBy1 (sym ",") (declarator d expr))).thenSkip terminator

/-- A function declaration. -/
def functionDecl (d : Dialect) (expr : Parser Expr) (block : Parser (List Stmt)) : Parser Decl :=
  (functionWith identifier d expr block).map fun (name, body) => .func name body

/-- A class declaration. -/
def classDecl (d : Dialect) (expr : Parser Expr) (block : Parser (List Stmt)) : Parser Decl :=
  (classWith identifier d expr block).map fun (name, body) => .classDecl name body

/-- `type X = …` -/
def typeAlias : Parser String :=
  (((((keyword "type").skipThen identifier).thenSkip typeParams).thenSkip (sym "=")).thenSkip
    typeExpr).thenSkip terminator

/-- `interface X { … }` -/
def interfaceDecl : Parser String :=
  ((((keyword "interface").skipThen identifier).thenSkip typeParams).thenSkip
    ((keyword "extends").skipThen (sepBy1 (sym ",") typeExpr)).optional).thenSkip typeExpr

/-- A declaration that binds something at run time. -/
def runtimeDecl (d : Dialect) (expr : Parser Expr) (block : Parser (List Stmt)) : Parser Decl :=
  choice (varDecl d expr) [functionDecl d expr block, classDecl d expr block]

/-- A declaration. -/
def declaration (d : Dialect) (expr : Parser Expr) (block : Parser (List Stmt)) : Parser Decl :=
  if d.isTypeScript then
    (runtimeDecl d expr block).orElse ((typeAlias.orElse interfaceDecl).map Decl.typeDecl)
  else runtimeDecl d expr block

/-! ## Statements -/

/-- `return`, with or without a value. -/
def returnStmt (expr : Parser Expr) : Parser Stmt :=
  (((keyword "return").skipThen expr.optional).thenSkip terminator).map Stmt.ret

/-- `if`, with or without `else`. -/
def branchStmt (expr : Parser Expr) (stmt : Parser Stmt) : Parser Stmt :=
  both (fun (test, cons) alt => .branch test cons alt)
    (((keyword "if").skipThen (inParens expr)).seq stmt)
    ((keyword "else").skipThen stmt).optional

/-- `throw` -/
def throwStmt (expr : Parser Expr) : Parser Stmt :=
  (((keyword "throw").skipThen expr).thenSkip terminator).map Stmt.throw

/-- The body of the recursive rule for statements. -/
def statementBody (d : Dialect) (stmt : Parser Stmt) : Parser Stmt :=
  let block := blockOf stmt
  let expr := expression d block
  choice (block.map Stmt.block)
    [ (declaration d expr block).map Stmt.decl,
      returnStmt expr,
      branchStmt expr stmt,
      throwStmt expr,
      (sym ";").yielding .empty,
      (expr.thenSkip terminator).map Stmt.expr ]

/-- A statement. -/
def statement (d : Dialect) : Parser Stmt := fix (statementBody d)

end TsxCompiler.Grammar
