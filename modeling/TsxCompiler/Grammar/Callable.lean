import TsxCompiler.Grammar.Pattern

/-!
# Functions and classes

What follows the name of a function or a class. The rules take the expression rule and the rule for
blocks as arguments.
-/

namespace TsxCompiler.Grammar

open Peg Peg.Parser

/-- Parameters and body of a function, with the type syntax around them. -/
def functionTail (d : Dialect) (expr : Parser Expr) (block : Parser (List Stmt)) :
    Parser (List Pattern × List Stmt) :=
  (((genericParams d).skipThen (params d expr)).thenSkip (ascription d)).seq block

/-- An optional `async`, as whether it was there. -/
def asyncMark : Parser Bool := (keyword "async").optional.map Option.isSome

/-- A function from `async` on, given the rule for its name. -/
def functionWith {α : Type} (name : Parser α) (d : Dialect) (expr : Parser Expr)
    (block : Parser (List Stmt)) : Parser (α × Func) :=
  both (fun (isAsync, name) (params, body) => (name, ⟨isAsync, params, body⟩))
    ((asyncMark.thenSkip (keyword "function")).seq name) (functionTail d expr block)

/-! ## Classes -/

/-- Access modifiers, which are read and forgotten. -/
def modifiers (d : Dialect) : Parser Unit :=
  whenTyped d (forget (many (choice (keyword "public")
    [keyword "private", keyword "protected", keyword "readonly", keyword "override"])))

/-- The interfaces of a class, which are read and forgotten. -/
def implementsClause (d : Dialect) : Parser Unit :=
  whenTyped d
    (forget ((keyword "implements").skipThen (sepBy1 (sym ",") typeExpr)).optional)

/-- A method, still without `static`. -/
def methodMember (d : Dialect) (expr : Parser Expr) (block : Parser (List Stmt)) :
    Parser (Bool → ClassMember) :=
  both (fun (isAsync, key) (params, body) => .method key ⟨isAsync, params, body⟩)
    (asyncMark.seq (propertyKey expr)) (functionTail d expr block)

/-- A field, still without `static`. -/
def fieldMember (d : Dialect) (expr : Parser Expr) : Parser (Bool → ClassMember) :=
  (both ClassMember.field
    (((propertyKey expr).thenSkip (optionalMark d)).thenSkip (ascription d))
    (initializer expr)).thenSkip terminator

/-- A member of a class. -/
def classMember (d : Dialect) (expr : Parser Expr) (block : Parser (List Stmt)) :
    Parser ClassMember :=
  both (fun isStatic member => member isStatic)
    (((keyword "static").optional.map Option.isSome).thenSkip (modifiers d))
    ((methodMember d expr block).orElse (fieldMember d expr))

/-- The members of a class in braces, with stray semicolons between them. -/
def classMembers (d : Dialect) (expr : Parser Expr) (block : Parser (List Stmt)) :
    Parser (List ClassMember) :=
  inBraces
    ((many (sym ";")).skipThen
      (many ((classMember d expr block).thenSkip (many (sym ";")))))

/-- Heritage and members of a class, with the type syntax around them. -/
def classTail (d : Dialect) (expr : Parser Expr) (block : Parser (List Stmt)) :
    Parser ClassBody :=
  both ClassBody.mk
    (((genericParams d).skipThen ((keyword "extends").skipThen expr).optional).thenSkip
      (implementsClause d))
    (classMembers d expr block)

/-- A class from its keyword on, given the rule for its name. -/
def classWith {α : Type} (name : Parser α) (d : Dialect) (expr : Parser Expr)
    (block : Parser (List Stmt)) : Parser (α × ClassBody) :=
  ((keyword "class").skipThen name).seq (classTail d expr block)

end TsxCompiler.Grammar
