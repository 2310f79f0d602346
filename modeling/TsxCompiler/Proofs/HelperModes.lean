import TsxCompiler.Emit.Emit
import TsxCompiler.Proofs.Provenance

/-!
# Helpers of either kind

Helpers are required from a module of their own, and called as `helper._`, or written out at the top
and called by their name. The choice shows in generated calls and nowhere else: names, order, errors
and the set of helpers are the same, and a helper is made available exactly if it is called
(`toCommonJs_modesAgree`). A module may call something of the same name itself; such calls are left
alone and count for nothing.
-/

namespace TsxCompiler

/-! ## Callees -/

/-- What is called where a helper is called. -/
def Helper.callee (isExternal : Bool) (helper : Helper) : Expr :=
  if isExternal then .dot (.ident helper.name) "_" else .ident helper.name

/-- The callee in `callee(…);` or in a declaration of one variable as `callee(…)`. -/
def Stmt.callee? : Stmt → Option Expr
  | .expr (.call callee _ _) => some callee
  | .decl (.var _ [⟨_, some (.call callee _ _)⟩]) => some callee
  | _ => none

/-- Another callee in the same place. -/
def Stmt.mapCallee (f : Expr → Expr) : Stmt → Stmt
  | .expr (.call callee args optional) => .expr (.call (f callee) args optional)
  | .decl (.var kind [⟨target, some (.call callee args optional)⟩]) =>
    .decl (.var kind [⟨target, some (.call (f callee) args optional)⟩])
  | s => s

/-- `helper` in place of `helper._`. -/
def Expr.inlineHelper : Expr → Expr
  | .member (.ident name) (.ident "_") false =>
    if Helper.all.any (·.name == name) then .ident name else .dot (.ident name) "_"
  | e => e

/-- A statement of a lowered module with `helper` in place of `helper._`, if it was generated. -/
def LoweredStmt.inlineHelper (l : LoweredStmt) (s : Stmt) : Stmt :=
  match l with
  | own _ => s
  | _ => s.mapCallee Expr.inlineHelper

/-- A generated statement of a lowered body calls the helper. -/
def CallsHelper (isExternal : Bool) (p : Program) (body : List Stmt) (helper : Helper) : Prop :=
  ∃ l s, (l, s) ∈ p.layout.zip body ∧ l.own? = none ∧ s.callee? = some (helper.callee isExternal)

theorem Helper.callee_injective {isExternal : Bool} {a b : Helper}
    (h : a.callee isExternal = b.callee isExternal) : a = b := by
  have hnames : a.name = b.name := by
    cases isExternal <;> simpa [callee, Expr.dot] using h
  revert hnames
  cases a <;> cases b <;> decide

theorem Helper.callee_ne_require (isExternal : Bool) (helper : Helper) :
    helper.callee isExternal ≠ .ident "require" := by
  cases isExternal with
  | true => simp [callee, Expr.dot]
  | false => cases helper <;> simp [callee, name]

namespace LoweredStmt

/-- A statement is generated to call a helper exactly if it calls it. -/
theorem helper?_eq_some_iff (isExternal : Bool) (l : LoweredStmt) (helper : Helper) :
    l.helper? = some helper ↔
      l.own? = none ∧ (l.stmt isExternal).callee? = some (helper.callee isExternal) := by
  -- calls of `require` are not calls of a helper
  have hrequire := (helper.callee_ne_require isExternal).symm
  cases l with
  | own s => simp [helper?, own?]
  | load source => simpa [helper?, own?, stmt, requireCall, Expr.apply, Stmt.callee?] using hrequire
  | bind name via source =>
    cases via with
    | none =>
      simpa [helper?, own?, stmt, interop, requireCall, Stmt.declare, Expr.apply, Stmt.callee?]
        using hrequire
    | some via =>
      have hcallee : ((bind name (some via) source).stmt isExternal).callee? =
          some (via.callee isExternal) := rfl
      rw [hcallee, Option.some.injEq]
      simp only [helper?, own?, true_and, Option.some.injEq]
      exact ⟨fun h => h ▸ rfl, Helper.callee_injective⟩
  | member name binding key => simp [helper?, stmt, Stmt.declare, Expr.dot, Stmt.callee?]
  | exportBinding name binding => simp [helper?, stmt, exportStmt, Stmt.assign, Stmt.callee?]
  | exportMember name binding key => simp [helper?, stmt, exportStmt, Stmt.assign, Stmt.callee?]
  | exportValue value => simp [helper?, stmt, exportStmt, Stmt.assign, Stmt.callee?]
  | exportAll source =>
    have hcallee : ((exportAll source).stmt isExternal).callee? =
        some (Helper.exportStar.callee isExternal) := rfl
    rw [hcallee, Option.some.injEq]
    simp only [helper?, own?, true_and, Option.some.injEq]
    exact ⟨fun h => h ▸ rfl, Helper.callee_injective⟩

/-- The two ways to call helpers differ in the callee of generated calls only. -/
theorem inlineHelper_stmt (l : LoweredStmt) : l.inlineHelper (l.stmt true) = l.stmt false := by
  cases l with
  | bind name via source =>
    cases via with
    | none => rfl
    | some via => cases via <;> rfl
  | own s => rfl
  | load source => rfl
  | member name binding key => rfl
  | exportBinding name binding => rfl
  | exportMember name binding key => rfl
  | exportValue value => rfl
  | exportAll source => rfl

end LoweredStmt

/-! ## Modules -/

section Modules

variable (isExternal : Bool) (p : Program)

theorem Program.mem_calledHelpers (helper : Helper) :
    helper ∈ p.calledHelpers ↔
      CallsHelper isExternal p (p.layout.map (LoweredStmt.stmt isExternal)) helper := by
  have hzip : p.layout.zip (p.layout.map (LoweredStmt.stmt isExternal)) =
      p.layout.map fun l => (l, l.stmt isExternal) := by
    rw [List.zip_map_right, List.zip_eq_zipWith, List.zipWith_self, List.map_map]
    rfl
  rw [calledHelpers, List.mem_filterMap, CallsHelper, hzip]
  simp only [List.mem_map, Prod.mk.injEq]
  constructor
  · rintro ⟨l, hl, hhelper⟩
    exact ⟨l, _, ⟨l, hl, rfl, rfl⟩, (l.helper?_eq_some_iff isExternal helper).1 hhelper⟩
  · rintro ⟨_, _, ⟨l, hl, rfl, rfl⟩, hcall⟩
    exact ⟨l, hl, (l.helper?_eq_some_iff isExternal helper).2 hcall⟩

end Modules

/-- A lowered module makes a helper available, once and in front of its body, exactly if a generated
statement of the body calls it. -/
structure HelpersAsCalled (isExternal : Bool) (p : Program) (m : CommonJsModule) : Prop where
  called : ∀ helper, helper ∈ m.helpers ↔ CallsHelper isExternal p m.body helper
  once : m.helpers.Nodup
  in_front : ∀ options : EmitOptions, m.print options =
    useStrict.topLine ++ (if m.hasExports then esModuleMarker.topLine else "") ++
      String.join (m.helpers.map
        (Helper.prologue options.externalHelpers options.helpersModule)) ++
      String.join (m.body.map Stmt.topLine)

/-- A module lowered with helpers of either kind. -/
structure ModesAgree (p : Program) (required inlined : CommonJsModule) : Prop where
  hasExports : required.hasExports = inlined.hasExports
  helpers : required.helpers = inlined.helpers
  laid_out : LaidOut true p required.body
  body : inlined.body = List.zipWith LoweredStmt.inlineHelper p.layout required.body
  required_called : HelpersAsCalled true p required
  inlined_called : HelpersAsCalled false p inlined

theorem helpersAsCalled (isExternal : Bool) (p : Program) (hasExports : Bool) :
    HelpersAsCalled isExternal p
      { body := p.layout.map (LoweredStmt.stmt isExternal)
        helpers := Helper.all.filter fun h => p.calledHelpers.contains h
        hasExports } where
  called helper := by
    have hall : helper ∈ Helper.all := by cases helper <;> decide
    rw [← p.mem_calledHelpers isExternal, List.mem_filter, and_iff_right hall,
      List.contains_iff_mem]
  once := by
    have hall : Helper.all.Nodup := by decide
    exact hall.sublist List.filter_sublist
  in_front _ := rfl

theorem body_inlined (p : Program) :
    p.layout.map (LoweredStmt.stmt false) =
      List.zipWith LoweredStmt.inlineHelper p.layout (p.layout.map (LoweredStmt.stmt true)) := by
  rw [List.zipWith_map_right, List.zipWith_self]
  exact List.map_congr_left fun l _ => l.inlineHelper_stmt.symm

/-- With helpers of either kind, lowering fails for the same reason, or yields modules that differ in
the callees of generated calls only, with the same helpers, which are those that are called. -/
theorem toCommonJs_modesAgree (p : Program) :
    (∃ e, p.toCommonJs true = .error e ∧ p.toCommonJs false = .error e) ∨
      ∃ required inlined, p.toCommonJs true = .ok required ∧ p.toCommonJs false = .ok inlined ∧
        ModesAgree p required inlined := by
  rw [toCommonJs_eq, toCommonJs_eq]
  cases firstRepeated [] p.exportedNames with
  | some name => exact .inl ⟨_, rfl, rfl⟩
  | none =>
    refine .inr ⟨_, _, rfl, rfl, ?_⟩
    exact ⟨rfl, rfl, laidOut_layout true p, body_inlined p, helpersAsCalled _ _ _,
      helpersAsCalled _ _ _⟩

end TsxCompiler
