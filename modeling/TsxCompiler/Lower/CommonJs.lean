import TsxCompiler.Emit.Error
import TsxCompiler.Lower.Helper
import TsxCompiler.Text.CharClass
import TsxCompiler.Tree.Build
import TsxCompiler.Tree.Names

/-!
# Imports and exports as CommonJS

An import becomes a `require` bound to a name of its own and one constant per imported name. An
exported declaration is followed by its assignments to `exports`. Export lists and
`export default name` speak of bindings that may be declared further down, so their assignments
are deferred to the end of the module.
-/

namespace TsxCompiler

/-! ## Names at module scope -/

/-- The names an item binds at module scope. -/
def Item.boundNames : Item → List String
  | .stmt (.decl decl) => decl.boundNames
  | .exports (.decl decl) => decl.boundNames
  | .exports (.default (.func (some name) _)) => [name]
  | .exports (.default (.classDef (some name) _)) => [name]
  | .imports decl => decl.specifiers.map ImportSpecifier.binding
  | _ => []

/-- The names a module binds at its top level. -/
def Program.topLevelNames (p : Program) : List String :=
  p.body.flatMap Item.boundNames

/-- The name a required module is bound to when it is free: an underscore and the last segment of
the source without its extension. -/
def bindingBase (source : String) : String :=
  let segment := (Text.parts '/' source).getLast?.getD source
  let stem := (Text.parts '.' segment).head?.getD segment
  let chars := stem.toList.map fun c => if Text.isWordPart c then c else '_'
  if chars.isEmpty then "_module" else String.ofList ('_' :: chars)

/-- The `n`th name to try: the base itself, then the base with a number. -/
def candidateName (base : String) : Nat → String
  | 0 => base
  | n + 1 => base ++ toString (n + 1)

/-- The first name made from a base that is not taken; one more candidate than taken names is always
enough. -/
def freshName (taken : List String) (base : String) : String :=
  (((List.range (taken.length + 1)).map (candidateName base)).find?
    fun name => !taken.contains name).getD base

/-! ## Lowered code -/

/-- What items are lowered to. -/
structure Linked where
  /-- Statements in place. -/
  body : List Stmt
  /-- Assignments to `exports` that wait for the end of the module. -/
  deferred : List Stmt
  /-- The exported names in the order they are met. -/
  exported : List String
  /-- The helpers that are called. -/
  helpers : List Helper

namespace Linked

/-- Nothing. -/
def empty : Linked := ⟨[], [], [], []⟩

/-- One after the other. -/
def append (a b : Linked) : Linked :=
  ⟨a.body ++ b.body, a.deferred ++ b.deferred, a.exported ++ b.exported, a.helpers ++ b.helpers⟩

/-- Statements in place. -/
def ofBody (body : List Stmt) : Linked := { empty with body }

/-- `exports.name = value;` in place. -/
def exportNow (name : String) (value : Expr) : Linked :=
  { empty with
    body := [.assign (.dot (.ident "exports") name) value]
    exported := [name] }

/-- `exports.name = value;` at the end of the module. -/
def exportLater (name : String) (value : Expr) : Linked :=
  { empty with
    deferred := [.assign (.dot (.ident "exports") name) value]
    exported := [name] }

/-- All of them one after the other. -/
def concat (parts : List Linked) : Linked :=
  parts.foldr append empty

end Linked

/-- `require("source")` -/
def requireCall (source : String) : Expr :=
  .apply (.ident "require") [.ofString source]

/-- A call of a helper, which is a member of its own module when helpers are external. -/
def Helper.callWith (isExternal : Bool) (helper : Helper) (args : List Expr) : Expr :=
  .apply (if isExternal then .dot (.ident helper.name) "_" else .ident helper.name) args

/-- The helper that the module behind an import goes through. A default import needs one that
supplies the default; beside other names, or for the whole module, all names have to be kept. -/
def ImportClause.helper? (clause : ImportClause) : Option Helper :=
  if clause.star.isSome || (clause.default.isSome && !clause.named.isEmpty) then
    some .interopWildcard
  else if clause.default.isSome then some .interopDefault
  else none

/-- A required module, through a helper if it needs one. -/
def interop (isExternal : Bool) (helper : Option Helper) (required : Expr) : Expr :=
  match helper with
  | some helper => helper.callWith isExternal [required]
  | none => required

/-- Lowers an import, given the names that are taken; yields the taken names after it. -/
def Import.link (isExternal : Bool) (taken : List String) (i : Import) : Linked × List String :=
  if i.typeOnly then (.empty, taken)
  else if i.specifiers.isEmpty then
    (.ofBody [.expr (requireCall i.source.value)], taken)
  else
    let clause := ImportClause.ofSpecifiers i.specifiers
    let helper := clause.helper?
    let (binding, taken) := match clause.star with
      | some binding => (binding, taken)
      | none =>
        let name := freshName taken (bindingBase i.source.value)
        (name, name :: taken)
    let required := interop isExternal helper (requireCall i.source.value)
    let memberOf (name member : String) : Stmt :=
      .declare .const name (.dot (.ident binding) member)
    let body :=
      .declare .const binding required ::
        ((clause.default.map fun name => memberOf name "default").toList ++
          clause.named.map fun (name, imported) => memberOf name (imported.getD name))
    ({ Linked.ofBody body with helpers := helper.toList }, taken)

/-- Lowers an export, given the names that are taken; yields the taken names after it. -/
def Export.link (isExternal : Bool) (taken : List String) : Export → Linked × List String
  | .decl d =>
    (.append (.ofBody [.decl d]) (.concat (d.boundNames.map fun name =>
      .exportNow name (.ident name))), taken)
  | .default (.func (some name) body) =>
    (.append (.ofBody [.decl (.func name body)]) (.exportNow "default" (.ident name)), taken)
  | .default (.func none body) => (.exportNow "default" (.func none body), taken)
  | .default (.classDef (some name) body) =>
    (.append (.ofBody [.decl (.classDecl name body)]) (.exportNow "default" (.ident name)), taken)
  | .default (.classDef none body) => (.exportNow "default" (.classExpr none body), taken)
  | .default (.expr (.ident name)) => (.exportLater "default" (.ident name), taken)
  | .default (.expr value) => (.exportNow "default" value, taken)
  | .list specifiers none =>
    (.concat (specifiers.map fun s => .exportLater s.exportedName (.ident s.binding)), taken)
  | .list specifiers (some source) =>
    let binding := freshName taken (bindingBase source.value)
    (.append (.ofBody [.declare .const binding (requireCall source.value)])
      (.concat (specifiers.map fun s =>
        .exportNow s.exportedName (.dot (.ident binding) s.binding))), binding :: taken)
  | .all source =>
    ({ Linked.ofBody [.expr (Helper.exportStar.callWith isExternal
        [requireCall source.value, .ident "exports"])] with helpers := [.exportStar] }, taken)

/-- Lowers an item, given the names that are taken; yields the taken names after it. -/
def Item.link (isExternal : Bool) (taken : List String) : Item → Linked × List String
  | .stmt s => (.ofBody [s], taken)
  | .imports decl => decl.link isExternal taken
  | .exports decl => decl.link isExternal taken

/-- Lowers items in order. -/
def Item.linkAll (isExternal : Bool) : List String → List Item → Linked
  | _, [] => .empty
  | taken, item :: rest =>
    let (linked, taken) := item.link isExternal taken
    linked.append (Item.linkAll isExternal taken rest)

/-! ## Modules -/

/-- A module without import and export syntax. -/
structure CommonJsModule where
  body : List Stmt
  helpers : List Helper
  hasExports : Bool

/-- The first element that occurred before. -/
def firstRepeated (seen : List String) : List String → Option String
  | [] => none
  | x :: rest => if seen.contains x then some x else firstRepeated (x :: seen) rest

/-- Lowers a module. A name may be exported once only. -/
def Program.toCommonJs (isExternal : Bool) (p : Program) : Except EmitError CommonJsModule :=
  let linked := Item.linkAll isExternal p.topLevelNames p.body
  match firstRepeated [] linked.exported with
  | some name => .error (.duplicateExport name)
  | none =>
    .ok
      { body := linked.body ++ linked.deferred
        helpers := Helper.all.filter fun h => linked.helpers.contains h
        hasExports := !linked.exported.isEmpty || linked.helpers.contains .exportStar }

end TsxCompiler
