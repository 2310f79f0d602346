import TsxCompiler.Grammar.Statement

/-!
# Modules

Imports, exports and the rule for a whole module.
-/

namespace TsxCompiler.Grammar

open Peg Peg.Parser

/-! ## Imports -/

/-- An entry of an import list. -/
def namedImport : Parser ImportSpecifier :=
  both (fun imported binding => match binding with
      | some name => .named name (some imported)
      | none => .named imported none)
    word ((keyword "as").skipThen identifier).optional

/-- `{ a, b as c }` -/
def importList : Parser (List ImportSpecifier) :=
  inBraces (sepByTrailing (sym ",") namedImport)

/-- `* as all` -/
def starImport : Parser (List ImportSpecifier) :=
  (((sym "*").skipThen (keyword "as")).skipThen identifier).map fun name => [.star name]

/-- A default import, alone or with a list or a star behind it. -/
def defaultImport : Parser (List ImportSpecifier) :=
  both (fun name rest => .default name :: rest.getD [])
    identifier ((sym ",").skipThen (importList.orElse starImport)).optional

/-- The names between `import` and `from`. -/
def importClause : Parser (List ImportSpecifier) :=
  choice importList [starImport, defaultImport]

/-- The `type` of an import that exists for types only. -/
def typeOnlyMark (d : Dialect) : Parser Bool :=
  if d.isTypeScript then (keyword "type").optional.map Option.isSome else succeed false

/-- An import declaration. -/
def importDecl (d : Dialect) : Parser Import :=
  ((keyword "import").skipThen
    ((stringLit.map fun source => ⟨[], source, false⟩).orElse
      (both (fun (typeOnly, specifiers) source => ⟨specifiers, source, typeOnly⟩)
        (((typeOnlyMark d).seq importClause).thenSkip (keyword "from")) stringLit))).thenSkip
    terminator

/-! ## Exports -/

/-- `export default …` from `default` on. -/
def defaultExport (d : Dialect) (expr : Parser Expr) (block : Parser (List Stmt)) :
    Parser DefaultExport :=
  (keyword "default").skipThen
    (choice ((functionWith identifier.optional d expr block).map fun (name, body) =>
        .func name body)
      [ (classWith identifier.optional d expr block).map fun (name, body) => .classDef name body,
        (expr.thenSkip terminator).map DefaultExport.expr ])

/-- An entry of an export list. -/
def exportSpecifier : Parser ExportSpecifier :=
  both ExportSpecifier.mk word ((keyword "as").skipThen word).optional

/-- `{ a, b as c }`, with or without a source. -/
def exportList : Parser Export :=
  (both Export.list
    (inBraces (sepByTrailing (sym ",") exportSpecifier))
    ((keyword "from").skipThen stringLit).optional).thenSkip terminator

/-- `* from 'x'` -/
def exportAll : Parser Export :=
  ((((sym "*").skipThen (keyword "from")).skipThen stringLit).thenSkip terminator).map Export.all

/-- An export declaration. -/
def exportDecl (d : Dialect) (expr : Parser Expr) (block : Parser (List Stmt)) : Parser Export :=
  (keyword "export").skipThen
    (choice ((defaultExport d expr block).map Export.default)
      [exportAll, exportList, (declaration d expr block).map Export.decl])

/-! ## Whole modules -/

/-- A top-level item. -/
def moduleItem (d : Dialect) : Parser Item :=
  let block := blockOf (statement d)
  choice ((importDecl d).map Item.imports)
    [ (exportDecl d (expression d block) block).map Item.exports,
      (statement d).map Item.stmt ]

/-- A whole module, up to the end of the text. -/
def program (d : Dialect) : Parser Program :=
  ((trivia.skipThen (many (moduleItem d))).thenSkip atEnd).map Program.mk

end TsxCompiler.Grammar
