import TsxCompiler.Pass.Basic
import TsxCompiler.Pass.Component

/-!
# Fast refresh

Registers the components that a module defines with the refresh runtime, so that an edited module
swaps them in place and their state survives. Components that call hooks get a signature, by which
the runtime knows whether the state still fits. A module without components is left alone.
-/

namespace TsxCompiler

namespace Refresh

def registerRef : Expr := .ofPath "global.$RefreshReg$"

def signatureRef : Expr := .ofPath "global.$RefreshSig$"

/-- A component that a module registers. -/
structure Component where
  name : String
  /-- The hooks its body calls. -/
  hooks : List String
deriving DecidableEq, Repr

namespace Component

/-- Whether the component has a signature. -/
def hasHooks (c : Component) : Bool := !c.hooks.isEmpty

/-- Whether a hook other than the built-in ones is called. -/
def hasCustomHooks (c : Component) : Bool :=
  c.hooks.any fun hook => !builtinHooks.contains hook

/-- The statements that register the component. -/
def register (moduleId : String) (c : Component) : List Stmt :=
  (if c.hasHooks then
    [.expr (.apply (.ident "__s")
      [.ident c.name, .ofString (moduleId ++ ":" ++ c.name), .ofBool c.hasCustomHooks])]
    else []) ++
  [ .expr (.apply registerRef [.ident c.name, .ofString c.name]),
    .expr (.apply (.dot
      (.apply (.ofPath "global.$RefreshRuntime$.getContext") [.ident c.name]) "accept") []) ]

end Component

/-- The statements in front of a module with components. -/
def prologue (components : List Component) : List Stmt :=
  [ .declare .var "__prevRefreshReg" registerRef,
    .declare .var "__prevRefreshSig" signatureRef,
    .assign registerRef (.apply (.ofPath "global.$RefreshRuntime$.getRegisterFunction") []) ] ++
  (if components.any Component.hasHooks then
    [ .assign signatureRef
        (.apply (.ofPath "global.$RefreshRuntime$.getCreateSignatureFunction") []),
      .declare .var "__s" (.apply signatureRef []) ]
    else [])

/-- The statements behind a module with components. -/
def epilogue (moduleId : String) (components : List Component) : List Stmt :=
  components.flatMap (Component.register moduleId) ++
  [ .assign registerRef (.ident "__prevRefreshReg"),
    .assign signatureRef (.ident "__prevRefreshSig") ]

/-- Signs the components of a list of items. A name is registered once, and not when it is one of
those given. -/
def signAll : List String → List Item → List Item × List Component
  | _, [] => ([], [])
  | skip, item :: rest =>
    match item.candidateName.filter fun name => isComponentName name && !skip.contains name with
    | none =>
      let (items, components) := signAll skip rest
      (item :: items, components)
    | some name =>
      let (signed, scan) := item.sign
      if scan.isEmpty then
        let (items, components) := signAll skip rest
        (signed :: items, components)
      else
        let (items, components) := signAll (name :: skip) rest
        (signed :: items, ⟨name, scan.hooks⟩ :: components)

/-- A module that registers its components under an id. -/
def instrument (moduleId : String) (p : Program) : Program :=
  let (items, components) := signAll p.ignoredComponents p.body
  if components.isEmpty then ⟨items⟩
  else
    ⟨(prologue components).map Item.stmt ++ items ++
      (epilogue moduleId components).map Item.stmt⟩

/-! ## Options -/

/-- The options of the pass. -/
structure Options where
  /-- The id components are registered under; the run's own id when there is none. -/
  moduleId : Option String
  /-- Whether the pass runs outside development. -/
  skipEnvCheck : Bool
deriving DecidableEq, Repr

/-- The spellings of the module id. -/
def moduleIdNames : List String := ["moduleId", "module_id", "moduleid"]

/-- The spellings of the switch for the environment check. -/
def skipEnvCheckNames : List String := ["skipEnvCheck", "skip_env_check", "skipenvcheck"]

/-- The options read so far; an option that has not been met is `none`. -/
structure Reading where
  moduleId : Option (Option String)
  skipEnvCheck : Option Bool

/-- A text, or nothing for `null`. -/
def optionalText : Datum → Except OptionError (Option String)
  | .string value => .ok (some value)
  | .null => .ok none
  | other => .error (.wrongKind other.describe "a string")

/-- A truth value. -/
def truthValue : Datum → Except OptionError Bool
  | .bool value => .ok value
  | other => .error (.wrongKind other.describe "a boolean")

/-- Reads one option. -/
def readOption (r : Reading) (name : String) (value : Datum) : Except OptionError Reading :=
  if moduleIdNames.contains name then
    if r.moduleId.isSome then .error (.repeated "moduleId")
    else return { r with moduleId := some (← optionalText value) }
  else if skipEnvCheckNames.contains name then
    if r.skipEnvCheck.isSome then .error (.repeated "skipEnvCheck")
    else return { r with skipEnvCheck := some (← truthValue value) }
  else .error (.unknown name (moduleIdNames ++ skipEnvCheckNames))

/-- Reads the options of a bag in order; the first problem is reported. -/
def Options.ofBag (bag : OptionBag) : Except OptionError Options := do
  let r ← bag.foldlM (fun r (name, value) => readOption r name value) (⟨none, none⟩ : Reading)
  return ⟨r.moduleId.getD none, r.skipEnvCheck.getD false⟩

/-! ## The pass -/

/-- Why the pass will not run in an environment. -/
def wrongEnvironment (env : Option String) : PassError :=
  ⟨"react-refresh transform should only be enabled in development environment (current: " ++
    env.getD "unset" ++
    "). If you want to override this check, pass `skipEnvCheck` as pass options."⟩

/-- Instruments a module, in development or where the check is turned off. -/
def transform (options : Options) : Transform := fun program ctx =>
  if options.skipEnvCheck || ctx.skipEnvChecks || ctx.isDevelopment then
    .ok (instrument (options.moduleId.getD ctx.runId) program)
  else .error (wrongEnvironment ctx.env)

end Refresh

end TsxCompiler
