import TsxCompiler.Dialect
import TsxCompiler.Grammar.Lexeme
import TsxCompiler.Peg.Recursion

/-!
# Type annotations

Types are read and forgotten: references with type arguments, unions and intersections, arrays,
tuples, object and function types, and literal types.
-/

namespace TsxCompiler.Grammar

open Peg Peg.Parser

variable {α : Type}

/-- Reads something and forgets it. -/
def forget (p : Parser α) : Parser Unit := p.yielding ()

/-- `<A, B>` -/
def typeArgs (type : Parser Unit) : Parser Unit :=
  forget (inAngles (sepBy1 (sym ",") type))

/-- `a.b.C<D>` -/
def typeReference (type : Parser Unit) : Parser Unit :=
  forget ((sepBy1 (sym ".") word).seq (typeArgs type).optional)

/-- A string or a number as a type. -/
def literalType : Parser Unit := (forget stringLit).orElse (forget number)

/-- `label?: string` in an object type. -/
def memberType (type : Parser Unit) : Parser Unit :=
  forget ((((forget word).orElse (forget stringLit)).seq (sym "?").optional).thenSkip (sym ":")
    |>.seq type)

/-- Members in braces, divided by `;` or `,`. -/
def objectType (type : Parser Unit) : Parser Unit :=
  forget (inBraces
    (sepByTrailing ((sym ";").orElse (sym ",")) (memberType type)))

/-- Types in brackets. -/
def tupleType (type : Parser Unit) : Parser Unit :=
  forget (inBrackets (sepByTrailing (sym ",") type))

/-- A parameter of a function type, annotated or not. -/
def paramType (type : Parser Unit) : Parser Unit :=
  forget ((((sym "...").optional.seq word).seq (sym "?").optional).seq
    ((sym ":").skipThen type).optional)

/-- `(a: A) => B` -/
def functionType (type : Parser Unit) : Parser Unit :=
  forget (((inParens (sepByTrailing (sym ",") (paramType type))).thenSkip
    (sym "=>")).seq type)

/-- A type in parentheses. -/
def parenType (type : Parser Unit) : Parser Unit :=
  inParens type

/-- A type without array brackets behind it. -/
def primaryType (type : Parser Unit) : Parser Unit :=
  choice (functionType type)
    [parenType type, objectType type, tupleType type, literalType, typeReference type]

/-- A type with any number of array brackets behind it. -/
def arrayType (type : Parser Unit) : Parser Unit :=
  forget ((primaryType type).seq (many ((sym "[").seq (sym "]"))))

/-- The body of the recursive rule for types: a union or intersection, which may start with a bar. -/
def typeBody (type : Parser Unit) : Parser Unit :=
  forget ((sym "|").optional.skipThen
    (sepBy1 ((sym "|").orElse (sym "&")) (arrayType type)))

/-- A type. -/
def typeExpr : Parser Unit := fix typeBody

/-- `: Type`, or nothing. -/
def typeAscription : Parser Unit :=
  forget ((sym ":").skipThen typeExpr).optional

/-- A declared type parameter with its bound and its default. -/
def typeParam : Parser Unit :=
  forget ((word.seq ((keyword "extends").skipThen typeExpr).optional).seq
    ((sym "=").skipThen typeExpr).optional)

/-- `<T, U extends X>`, or nothing. -/
def typeParams : Parser Unit :=
  forget (inAngles (sepBy1 (sym ",") typeParam)).optional

/-! ## What a dialect reads -/

/-- Reads `p` where types are part of the language and nothing elsewhere. -/
def whenTyped (d : Dialect) (p : Parser Unit) : Parser Unit :=
  if d.isTypeScript then p else succeed ()

/-- An optional type annotation. -/
def ascription (d : Dialect) : Parser Unit := whenTyped d typeAscription

/-- The `?` behind an optional parameter or field. -/
def optionalMark (d : Dialect) : Parser Unit := whenTyped d (forget (sym "?").optional)

/-- Optional type parameters. -/
def genericParams (d : Dialect) : Parser Unit := whenTyped d typeParams

end TsxCompiler.Grammar
