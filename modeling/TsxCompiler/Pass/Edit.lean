import TsxCompiler.Pass.Basic
import TsxCompiler.Tree.Build
import TsxCompiler.Tree.Traverse

/-!
# Small edits

Passes that make one plain change to a module each.
-/

namespace TsxCompiler

/-- A plain change to a module. -/
inductive Edit where
  /-- Adds a text as a statement at the end. -/
  | append (text : String)
  /-- Adds the values of the run as a statement at the end. -/
  | context
  /-- Refuses every module. -/
  | fail (message : String)
  /-- Removes all items. -/
  | clear
  /-- Reverses the items. -/
  | reverse
  /-- Renames the identifiers that are expressions. -/
  | rename (source target : String)
  /-- Forgets how string literals were written. -/
  | unraw
  /-- Makes every member access and every call optional. -/
  | optional
  /-- Gathers all import specifiers in the first import, at the front. -/
  | mergeImports
deriving DecidableEq, Repr

/-- A module with a text as a statement at the end. -/
def Program.appendText (text : String) (p : Program) : Program :=
  ⟨p.body ++ [.stmt (.expr (.ofString text))]⟩

/-- The values of a run on one line. -/
def RunContext.summary (ctx : RunContext) : String :=
  "|".intercalate [ctx.runId, toString ctx.skipEnvChecks, ctx.env.getD "unset",
    toString ctx.isDevelopment, ctx.sourceName]

/-- An identifier of one name gets another. -/
def Expr.renamed (source target : String) : Expr → Expr
  | .ident name => .ident (if name = source then target else name)
  | e => e

/-- Renames the identifiers that are expressions. -/
def Program.rename (source target : String) (p : Program) : Program :=
  p.mapExprs (Expr.renamed source target)

/-- A string literal without the form it was written in. -/
def Expr.unraw : Expr → Expr
  | .lit (.string s) => .lit (.string ⟨s.value, none⟩)
  | e => e

/-- A member access or call that stops at a missing value. -/
def Expr.asOptional : Expr → Expr
  | .call callee args _ => .call callee args true
  | .member base key _ => .member base key true
  | e => e

/-- The import of an item. -/
def Item.import? : Item → Option Import
  | .imports i => some i
  | _ => none

/-- Gathers all import specifiers in the first import, at the front. -/
def Program.mergeImports (p : Program) : Program :=
  match p.body.filterMap Item.import? with
  | [] => p
  | first :: rest =>
    let merged := { first with specifiers := first.specifiers ++ rest.flatMap Import.specifiers }
    ⟨.imports merged :: p.body.filter fun item => item.import?.isNone⟩

/-- What an edit does. -/
def Edit.transform : Edit → Transform
  | append text => fun p _ => .ok (p.appendText text)
  | context => fun p ctx => .ok (p.appendText ctx.summary)
  | fail message => fun _ _ => .error ⟨message⟩
  | clear => fun _ _ => .ok ⟨[]⟩
  | reverse => fun p _ => .ok ⟨p.body.reverse⟩
  | rename source target => fun p _ => .ok (p.rename source target)
  | unraw => fun p _ => .ok (p.mapExprs Expr.unraw)
  | optional => fun p _ => .ok (p.mapExprs Expr.asOptional)
  | mergeImports => fun p _ => .ok p.mergeImports

end TsxCompiler
