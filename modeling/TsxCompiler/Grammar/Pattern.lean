import TsxCompiler.Grammar.TypeExpr

/-!
# Binding patterns and parameters

Patterns need the expression rule for their defaults and computed keys, so every rule here takes it
as an argument.
-/

namespace TsxCompiler.Grammar

open Peg Peg.Parser

/-- A pattern with its default, if it has one. -/
def withDefault (target : Pattern) : Option Expr → Pattern
  | some value => .withDefault target value
  | none => target

/-- The name of a property: a string, a number, an expression in brackets or a word. -/
def propertyKey (expr : Parser Expr) : Parser PropertyKey :=
  choice (stringLit.map PropertyKey.string)
    [ number.map PropertyKey.number,
      (inBrackets expr).map PropertyKey.computed,
      word.map PropertyKey.ident ]

/-- `= value`, or nothing. -/
def initializer (expr : Parser Expr) : Parser (Option Expr) :=
  ((sym "=").skipThen expr).optional

/-- An element of an array pattern. -/
def patternElement (expr : Parser Expr) (pattern : Parser Pattern) : Parser Pattern :=
  (((sym "...").skipThen pattern).map Pattern.rest).orElse
    (both withDefault pattern (initializer expr))

/-- `[a, b = 1, ...rest]` -/
def arrayPattern (expr : Parser Expr) (pattern : Parser Pattern) : Parser Pattern :=
  (inBrackets (sepByTrailing (sym ",") (patternElement expr pattern))).map
    Pattern.array

/-- An entry of an object pattern. -/
def patternProperty (expr : Parser Expr) (pattern : Parser Pattern) : Parser PatternProperty :=
  choice (((sym "...").skipThen pattern).map PatternProperty.rest)
    [ both (fun entry value => .keyed entry.1 (withDefault entry.2 value))
        (((propertyKey expr).thenSkip (sym ":")).seq pattern) (initializer expr),
      both PatternProperty.shorthand identifier (initializer expr) ]

/-- `{ a, b: c, ...rest }` -/
def objectPattern (expr : Parser Expr) (pattern : Parser Pattern) : Parser Pattern :=
  (inBraces (sepByTrailing (sym ",") (patternProperty expr pattern))).map
    Pattern.object

/-- The body of the recursive rule for patterns. -/
def patternBody (expr : Parser Expr) (pattern : Parser Pattern) : Parser Pattern :=
  choice (arrayPattern expr pattern)
    [objectPattern expr pattern, identifier.map Pattern.ident]

/-- A binding pattern without a default of its own. -/
def bindingPattern (expr : Parser Expr) : Parser Pattern := fix (patternBody expr)

/-- A parameter that takes the remaining arguments. -/
def restParam (d : Dialect) (expr : Parser Expr) : Parser Pattern :=
  (((sym "...").skipThen (bindingPattern expr)).thenSkip (ascription d)).map Pattern.rest

/-- A parameter with its default. -/
def plainParam (d : Dialect) (expr : Parser Expr) : Parser Pattern :=
  both withDefault
    (((bindingPattern expr).thenSkip (optionalMark d)).thenSkip (ascription d)) (initializer expr)

/-- Parameters in parentheses. -/
def params (d : Dialect) (expr : Parser Expr) : Parser (List Pattern) :=
  inParens
    (sepByTrailing (sym ",") ((restParam d expr).orElse (plainParam d expr)))

end TsxCompiler.Grammar
