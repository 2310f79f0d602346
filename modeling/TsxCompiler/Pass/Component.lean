import TsxCompiler.Text.CharClass
import TsxCompiler.Tree.Build
import TsxCompiler.Tree.Names
import TsxCompiler.Tree.Preorder
import TsxCompiler.Tree.Traverse

/-!
# Components

Which top-level items may define a component, and which hooks its body calls. The body is the first
block that a walk through the item comes to.
-/

namespace TsxCompiler

/-- A component name starts in upper case. -/
def isComponentName (name : String) : Bool :=
  name.toList.head?.any Text.isUppercase

/-! ## Candidates -/

/-- Whether an initial value may be a component: a function, or a call that may wrap one. -/
def Expr.mayBeComponent : Expr → Bool
  | .func .. | .arrow .. | .call .. => true
  | _ => false

/-- The name of the component that a declaration would define. -/
def Decl.candidateName : Decl → Option String
  | .func name _ => some name
  | .var _ [⟨.ident name, some init⟩] => if init.mayBeComponent then some name else none
  | _ => none

/-- The name of the component that an item would define, if it has the shape of one. -/
def Item.candidateName : Item → Option String
  | .stmt (.decl d) => d.candidateName
  | .exports (.decl d) => d.candidateName
  | .exports (.default (.func name _)) => name
  | _ => none

/-- The names of imported bindings that look like components. A star import is no component. -/
def Import.componentNames (i : Import) : List String :=
  (i.specifiers.filterMap fun
    | .default binding => some binding
    | .named binding _ => some binding
    | .star _ => none).filter isComponentName

/-- Names that look like components but are never registered: imported ones belong to the module
they come from, and classes keep their state in a way that cannot be refreshed. -/
def Program.ignoredComponents (p : Program) : List String :=
  p.nodes.flatMap fun
    | .imports decl => decl.componentNames
    | .classDecl name => if isComponentName name then [name] else []
    | _ => []

/-! ## Hooks -/

/-- The hooks that the framework itself provides. -/
def builtinHooks : List String :=
  ["useState", "useReducer", "useEffect", "useLayoutEffect", "useMemo", "useCallback", "useRef",
    "useContext", "useImperativeHandle", "useDebugValue"]

/-- Any name that starts with `use` is a hook. -/
def isHookName (name : String) : Bool :=
  "use".toList.isPrefixOf name.toList

/-- The name a call goes by: that of the callee, or of the member it calls. -/
def Expr.calledName : Expr → Option String
  | .call (.ident name) _ _ => some name
  | .call (.member _ (.ident name) _) _ _ => some name
  | _ => none

/-- The hook that an expression calls. -/
def Expr.calledHook (e : Expr) : Option String :=
  e.calledName.filter fun name => builtinHooks.contains name || isHookName name

/-- The hooks that a statement calls directly: as a statement of its own, or to initialise a
variable. -/
def Stmt.hooks : Stmt → List String
  | .expr value => value.calledHook.toList
  | .decl (.var _ declarators) =>
    declarators.flatMap fun d => (d.init.bind Expr.calledHook).toList
  | _ => []

/-- The call that signs a component's body. -/
def signatureCall : Stmt := .expr (.apply (.ident "__s") [])

/-- What the walk through an item has found. -/
structure BodyScan where
  /-- Whether a block has been reached. -/
  seen : Bool
  /-- Whether that block was empty. -/
  isEmpty : Bool
  /-- The hooks its statements call. -/
  hooks : List String
deriving DecidableEq, Repr

/-- The scan before any block. -/
def BodyScan.start : BodyScan := ⟨false, false, []⟩

/-- The traversal that signs the first block it reaches when hooks are called there. Blocks are not
walked through. -/
def Traversal.signing : Traversal (StateM BodyScan) where
  block stmts _ := do
    if (← get).seen then return stmts
    else
      let hooks := stmts.flatMap Stmt.hooks
      set (⟨true, stmts.isEmpty, hooks⟩ : BodyScan)
      return if hooks.isEmpty then stmts else signatureCall :: stmts

/-- An item with its component body signed, and what was found there. -/
def Item.sign (item : Item) : Item × BodyScan :=
  (item.traverse Traversal.signing).run .start

end TsxCompiler
