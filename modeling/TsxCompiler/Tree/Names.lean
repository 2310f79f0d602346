import TsxCompiler.Tree.Syntax

/-!
# Bound names

The names that patterns and declarations bind, in source order. Type declarations bind nothing at
run time.
-/

namespace TsxCompiler

mutual

/-- The names a pattern binds. -/
def Pattern.boundNames : Pattern → List String
  | .ident name => [name]
  | .array elems => Pattern.boundNamesOf elems
  | .object props => PatternProperty.boundNamesOf props
  | .withDefault target _ => target.boundNames
  | .rest target => target.boundNames

/-- The names a list of patterns binds. -/
def Pattern.boundNamesOf : List Pattern → List String
  | [] => []
  | p :: rest => p.boundNames ++ Pattern.boundNamesOf rest

/-- The names an entry of an object pattern binds. -/
def PatternProperty.boundNames : PatternProperty → List String
  | .keyed _ target => target.boundNames
  | .shorthand name _ => [name]
  | .rest target => target.boundNames

/-- The names the entries of an object pattern bind. -/
def PatternProperty.boundNamesOf : List PatternProperty → List String
  | [] => []
  | p :: rest => p.boundNames ++ PatternProperty.boundNamesOf rest

end

/-- The names a declaration binds at run time. -/
def Decl.boundNames : Decl → List String
  | .var _ declarators => declarators.flatMap fun d => d.target.boundNames
  | .func name _ => [name]
  | .classDecl name _ => [name]
  | .typeDecl _ => []

/-! ## Imports -/

/-- The name an import specifier binds. -/
def ImportSpecifier.binding : ImportSpecifier → String
  | .default binding => binding
  | .star binding => binding
  | .named binding _ => binding

/-- The specifiers of an import sorted by kind. Of several defaults or stars the last one counts. -/
structure ImportClause where
  default : Option String
  star : Option String
  /-- Bindings with the name they are imported by, where it differs. -/
  named : List (String × Option String)

/-- The specifiers of an import sorted by kind. -/
def ImportClause.ofSpecifiers (specifiers : List ImportSpecifier) : ImportClause where
  default := (specifiers.filterMap fun
    | .default binding => some binding
    | _ => none).getLast?
  star := (specifiers.filterMap fun
    | .star binding => some binding
    | _ => none).getLast?
  named := specifiers.filterMap fun
    | .named binding imported => some (binding, imported)
    | _ => none

end TsxCompiler
