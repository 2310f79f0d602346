import TsxCompiler.Print.Tree
import TsxCompiler.Tree.Names

/-!
# Printing modules

Import and export declarations as they are written in a module. What exists for types only is left
out.
-/

namespace TsxCompiler

open Print

/-- An import list in braces. -/
def ImportClause.printNamed (named : List (String × Option String)) : String :=
  "\x7b " ++ commaList (named.map fun (binding, imported) =>
    match imported with
    | some imported => imported ++ " as " ++ binding
    | none => binding) ++ " \x7d"

/-- The parts of an import clause: the default, the star, the list. -/
def ImportClause.print (clause : ImportClause) : List String :=
  clause.default.toList ++ (clause.star.map ("* as " ++ ·)).toList ++
    (if clause.named.isEmpty then [] else [ImportClause.printNamed clause.named])

/-- The line of an import. -/
def Import.print (i : Import) : String :=
  if i.typeOnly then ""
  else
    let parts := (ImportClause.ofSpecifiers i.specifiers).print
    line ("import " ++ textIf (!parts.isEmpty) (commaList parts ++ " from ") ++ i.source.print ++
      ";") 0

/-- An entry of an export list. -/
def ExportSpecifier.print (s : ExportSpecifier) : String :=
  match s.exported with
  | some exported => s.binding ++ " as " ++ exported
  | none => s.binding

/-- The text behind `export default`. -/
def DefaultExport.print : DefaultExport → String
  | .func name body => body.print ("function" ++ nameAfter name) 0
  | .classDef name body => "class" ++ nameAfter name ++ body.print 0
  | .expr value => value.unambiguous (value.print 0) ++ ";"

/-- The line of an export. -/
def Export.print : Export → String
  | .decl (.typeDecl _) => ""
  | .decl d => line ("export " ++ d.print 0) 0
  | .default value => line ("export default " ++ value.print) 0
  | .list specifiers source =>
    line ("export " ++ bracesAround (specifiers.map ExportSpecifier.print) ++
      (match source with
        | some source => " from " ++ source.print
        | none => "") ++ ";") 0
  | .all source => line ("export * from " ++ source.print ++ ";") 0

/-- The lines of an item. -/
def Item.print : Item → String
  | .imports decl => decl.print
  | .exports decl => decl.print
  | .stmt s => s.asLine s.print 0

/-- The lines of a module. -/
def Program.print (p : Program) : String :=
  String.join (p.body.map Item.print)

end TsxCompiler
