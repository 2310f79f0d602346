/-!
# Dialects

The two base languages a source may be written in, each with or without markup (JSX), and the
names they go by.
-/

namespace TsxCompiler

/-- The base language. -/
inductive Language where
  | ecmaScript
  | typeScript
deriving DecidableEq, Repr

namespace Language

/-- The name the language is shown by. -/
def name : Language → String
  | ecmaScript => "ecmascript"
  | typeScript => "typescript"

/-- The name of the markup switch in the settings of this language. -/
def markupFlag : Language → String
  | ecmaScript => "jsx"
  | typeScript => "tsx"

/-- The language that a name in the settings stands for. -/
def ofName? : String → Option Language
  | "ecmascript" | "es" | "javascript" => some ecmaScript
  | "typescript" | "ts" => some typeScript
  | _ => none

end Language

/-- A base language and whether markup is part of it. -/
structure Dialect where
  language : Language
  markup : Bool
deriving DecidableEq, Repr

namespace Dialect

/-- TypeScript with markup. -/
def tsx : Dialect := ⟨.typeScript, true⟩

/-- Whether type annotations are read. -/
def isTypeScript (d : Dialect) : Bool :=
  d.language == .typeScript

/-- The name the dialect is shown by. -/
def name (d : Dialect) : String :=
  if d.markup then d.language.name ++ "+" ++ d.language.markupFlag else d.language.name

end Dialect

end TsxCompiler
