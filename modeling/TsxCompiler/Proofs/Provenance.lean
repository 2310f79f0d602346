import TsxCompiler.Proofs.ModuleScope

/-!
# Where lowered statements come from

A lowered module mixes statements of the module itself with generated ones, and the two can look
alike: a module may assign to `exports` or call `_export_star._` on its own. Here every statement is
kept with its origin. `Program.layout` lists the origins in the order of the lowered module; it knows
nothing of how helpers are made available, and the lowered body is what it reads as
(`toCommonJs_eq`).

* `LoweredStmt` — a statement of a lowered module by its origin;
* `Program.layout` — what is lowered in place, then the exports that wait;
* `Program.exportedNames` — the names that a module exports, in order;
* `LaidOut` — a lowered body reads as the layout.
-/

namespace TsxCompiler

/-! ## Origins -/

/-- A statement of a lowered module by its origin. -/
inductive LoweredStmt where
  /-- A statement or a declaration of the module itself. -/
  | own (stmt : Stmt)
  /-- `require(source);` -/
  | load (source : String)
  /-- `const name = require(source);`, through a helper or not. -/
  | bind (name : String) (via : Option Helper) (source : String)
  /-- `const name = binding.key;` -/
  | member (name binding key : String)
  /-- `exports.name = binding;` -/
  | exportBinding (name binding : String)
  /-- `exports.name = binding.key;` -/
  | exportMember (name binding key : String)
  /-- `exports.default = value;`, where the value has no name. -/
  | exportValue (value : Expr)
  /-- The call that copies the exports of another module. -/
  | exportAll (source : String)

namespace LoweredStmt

/-- The statement as it stands in the lowered module. -/
def stmt (isExternal : Bool) : LoweredStmt → Stmt
  | own s => s
  | load source => .expr (requireCall source)
  | bind name via source => .declare .const name (interop isExternal via (requireCall source))
  | member name binding key => .declare .const name (.dot (.ident binding) key)
  | exportBinding name binding => exportStmt name (.ident binding)
  | exportMember name binding key => exportStmt name (.dot (.ident binding) key)
  | exportValue value => exportStmt "default" value
  | exportAll source =>
    .expr (Helper.exportStar.callWith isExternal [requireCall source, .ident "exports"])

/-- The statement, if it is one of the module itself. -/
def own? : LoweredStmt → Option Stmt
  | own s => some s
  | _ => none

/-- The helper that the statement was generated to call. -/
def helper? : LoweredStmt → Option Helper
  | bind _ via _ => via
  | exportAll _ => some .exportStar
  | _ => none

end LoweredStmt

/-! ## The layout of a lowered module -/

/-- The constants for the names of a clause, read from the module that it is bound to. -/
def ImportClause.layout (binding : String) (clause : ImportClause) : List LoweredStmt :=
  (clause.default.map fun name => .member name binding "default").toList ++
    clause.named.map fun x => .member x.1 binding (x.2.getD x.1)

/-- What an import is lowered to, given the names that are taken. -/
def Import.layout (taken : List String) (i : Import) : List LoweredStmt :=
  let clause := ImportClause.ofSpecifiers i.specifiers
  if i.typeOnly then []
  else if i.specifiers.isEmpty then [.load i.source.value]
  else .bind (i.moduleName taken) clause.helper? i.source.value :: clause.layout (i.moduleName taken)

/-- What an export is lowered to in place, given the names that are taken. -/
def Export.layout (taken : List String) : Export → List LoweredStmt
  | .decl d => .own (.decl d) :: d.boundNames.map fun name => .exportBinding name name
  | .default (.func (some name) body) =>
    [.own (.decl (.func name body)), .exportBinding "default" name]
  | .default (.func none body) => [.exportValue (.func none body)]
  | .default (.classDef (some name) body) =>
    [.own (.decl (.classDecl name body)), .exportBinding "default" name]
  | .default (.classDef none body) => [.exportValue (.classExpr none body)]
  | .default (.expr (.ident _)) => []
  | .default (.expr value) => [.exportValue value]
  | .list _ none => []
  | .list specifiers (some source) =>
    let binding := freshName taken (bindingBase source.value)
    .bind binding none source.value ::
      specifiers.map fun s => .exportMember s.exportedName binding s.binding
  | .all source => [.exportAll source.value]

def Item.layout (taken : List String) : Item → List LoweredStmt
  | .stmt s => [.own s]
  | .imports i => i.layout taken
  | .exports e => e.layout taken

/-- What items are lowered to in place, one after the other. -/
def Item.layoutAll : List String → List Item → List LoweredStmt
  | _, [] => []
  | taken, item :: rest =>
    item.layout taken ++ Item.layoutAll ((item.madeUp? taken).toList ++ taken) rest

/-- What a module is lowered to in place. -/
def Program.inPlace (p : Program) : List LoweredStmt := Item.layoutAll p.topLevelNames p.body

/-- The exports that wait for the end of a module. -/
def Program.deferred (p : Program) : List LoweredStmt :=
  p.bareExports.map fun e => .exportBinding e.1 e.2

/-- The statements of a lowered module in order, by their origin. -/
def Program.layout (p : Program) : List LoweredStmt := p.inPlace ++ p.deferred

/-- The statements that an item brings along itself. -/
def Item.ownStmts : Item → List Stmt
  | .stmt s => [s]
  | .exports (.decl d) => [.decl d]
  | .exports (.default (.func (some name) body)) => [.decl (.func name body)]
  | .exports (.default (.classDef (some name) body)) => [.decl (.classDecl name body)]
  | _ => []

/-! ## Exported names -/

/-- The names that an export gives to other modules. -/
def Export.exportedNames : Export → List String
  | .decl d => d.boundNames
  | .default _ => ["default"]
  | .list specifiers _ => specifiers.map ExportSpecifier.exportedName
  | .all _ => []

def Item.exportedNames : Item → List String
  | .exports e => e.exportedNames
  | _ => []

/-- The names that a module exports, in the order of its items. -/
def Program.exportedNames (p : Program) : List String := p.body.flatMap Item.exportedNames

theorem Item.map_exported (item : Item) : item.exported.map Prod.fst = item.exportedNames := by
  cases item with
  | imports i => rfl
  | stmt s => rfl
  | exports e =>
    cases e with
    | decl d =>
      simp [exported, exportedNames, Export.exported, Export.exportedNames, Function.comp_def]
    | default value =>
      cases value with
      | func name f => cases name <;> rfl
      | classDef name c => cases name <;> rfl
      | expr value => rfl
    | list specifiers source =>
      cases source <;>
        simp [exported, exportedNames, Export.exported, Export.exportedNames]
    | all source => rfl

/-! ## Layouts of items -/

theorem ImportClause.exists_of_mem_layout {binding : String} {clause : ImportClause}
    {l : LoweredStmt} (h : l ∈ clause.layout binding) : ∃ name key, l = .member name binding key := by
  simp only [layout, List.mem_append, Option.mem_toList, Option.map_eq_some_iff, List.mem_map] at h
  rcases h with ⟨name, -, rfl⟩ | ⟨x, -, rfl⟩
  · exact ⟨name, "default", rfl⟩
  · exact ⟨x.1, x.2.getD x.1, rfl⟩

theorem ImportClause.filterMap_layout {α : Type} {f : LoweredStmt → Option α} {binding : String}
    (hf : ∀ name key, f (.member name binding key) = none) (clause : ImportClause) :
    (clause.layout binding).filterMap f = [] := by
  rw [List.filterMap_eq_nil_iff]
  intro l hl
  obtain ⟨name, key, rfl⟩ := exists_of_mem_layout hl
  exact hf name key

theorem ImportClause.map_layout (isExternal : Bool) (binding : String) (clause : ImportClause) :
    (clause.layout binding).map (LoweredStmt.stmt isExternal) =
      Import.memberConstants binding clause := by
  cases hdefault : clause.default <;>
    simp [layout, Import.memberConstants, hdefault, LoweredStmt.stmt, Function.comp_def]

/-- An import leaves nothing behind, loads its source, or binds it and reads the names from it. -/
theorem Import.layout_cases (taken : List String) (i : Import) :
    i.layout taken = [] ∨ i.layout taken = [.load i.source.value] ∨
      i.layout taken =
        .bind (i.moduleName taken) (ImportClause.ofSpecifiers i.specifiers).helper? i.source.value ::
          (ImportClause.ofSpecifiers i.specifiers).layout (i.moduleName taken) := by
  simp only [layout]
  split
  · exact .inl rfl
  · split
    · exact .inr (.inl rfl)
    · exact .inr (.inr rfl)

/-- What none of the statements for imports has is not found in the layout of an import. -/
theorem Import.filterMap_layout {α : Type} {f : LoweredStmt → Option α}
    (hload : ∀ source, f (.load source) = none)
    (hbind : ∀ name via source, f (.bind name via source) = none)
    (hmember : ∀ name binding key, f (.member name binding key) = none) (taken : List String)
    (i : Import) : (i.layout taken).filterMap f = [] := by
  rcases i.layout_cases taken with hlayout | hlayout | hlayout
  · rw [hlayout, List.filterMap_nil]
  · rw [hlayout, List.filterMap_cons_none (hload _), List.filterMap_nil]
  · rw [hlayout, List.filterMap_cons_none (hbind _ _ _)]
    exact ImportClause.filterMap_layout (hmember · _) _

theorem Item.own_layout (taken : List String) (item : Item) :
    (item.layout taken).filterMap LoweredStmt.own? = item.ownStmts := by
  cases item with
  | stmt s => rfl
  | imports i =>
    exact i.filterMap_layout (fun _ => rfl) (fun _ _ _ => rfl) (fun _ _ _ => rfl) taken
  | exports e =>
    cases e with
    | decl d => simp [layout, Export.layout, LoweredStmt.own?, ownStmts]
    | default value =>
      cases value with
      | func name f => cases name <;> rfl
      | classDef name c => cases name <;> rfl
      | expr value => cases value <;> rfl
    | list specifiers source =>
      cases source with
      | none => rfl
      | some source => simp [layout, Export.layout, LoweredStmt.own?, ownStmts]
    | all source => rfl

/-- What is found in the layout of each item is found in the layout of all, in order. -/
theorem filterMap_layoutAll {α : Type} {f : LoweredStmt → Option α} {g : Item → List α}
    (h : ∀ taken item, (Item.layout taken item).filterMap f = g item) (taken : List String)
    (items : List Item) : (Item.layoutAll taken items).filterMap f = items.flatMap g := by
  induction items generalizing taken with
  | nil => rfl
  | cons item rest ih =>
    rw [Item.layoutAll, List.filterMap_append, h, ih, List.flatMap_cons]

/-- The statements of the module itself are kept in their order. -/
theorem Program.own_layout (p : Program) :
    p.layout.filterMap LoweredStmt.own? = p.body.flatMap Item.ownStmts := by
  have hdeferred : p.deferred.filterMap LoweredStmt.own? = [] := by
    simp [deferred, LoweredStmt.own?]
  rw [layout, List.filterMap_append, hdeferred, List.append_nil]
  exact filterMap_layoutAll Item.own_layout _ _

/-! ## The lowered module reads as its layout -/

section Items

variable (isExternal : Bool) (taken : List String)

theorem Import.link_eq_layout (i : Import) :
    (i.link isExternal taken).1.body = (i.layout taken).map (LoweredStmt.stmt isExternal) ∧
      (i.link isExternal taken).1.helpers = (i.layout taken).filterMap LoweredStmt.helper? := by
  cases ht : i.typeOnly with
  | true => simp [link, layout, ht, Linked.empty]
  | false =>
    by_cases hne : i.specifiers = []
    · simp [link, layout, ht, hne, Linked.ofBody, Linked.empty, LoweredStmt.stmt,
        LoweredStmt.helper?]
    · have hempty : i.specifiers.isEmpty = false := by simpa using hne
      have hlayout : i.layout taken =
          .bind (i.moduleName taken) (ImportClause.ofSpecifiers i.specifiers).helper?
            i.source.value :: (ImportClause.ofSpecifiers i.specifiers).layout (i.moduleName taken) := by
        simp [layout, ht, hempty]
      have hhelpers : (i.link isExternal taken).1.helpers =
          (ImportClause.ofSpecifiers i.specifiers).helper?.toList := by
        simp only [link, ht, hempty]
        rfl
      rw [hlayout, link_body ht hne, hhelpers, List.map_cons, ImportClause.map_layout]
      refine ⟨rfl, ?_⟩
      rw [← List.singleton_append, List.filterMap_append,
        ImportClause.filterMap_layout (fun _ _ => rfl), List.append_nil]
      cases hhelper : (ImportClause.ofSpecifiers i.specifiers).helper? <;> rfl

/-- The layout of an export, written out as statements, is what lowering makes of it, and names the
helpers that are needed. -/
theorem Export.link_eq_layout (e : Export) :
    (e.link isExternal taken).1.body = (e.layout taken).map (LoweredStmt.stmt isExternal) ∧
      (e.link isExternal taken).1.helpers = (e.layout taken).filterMap LoweredStmt.helper? := by
  cases e with
  | decl d =>
    rw [link, concat_exportNow]
    simp [Linked.append, Linked.ofBody, Linked.empty, layout, LoweredStmt.stmt,
      LoweredStmt.helper?, Function.comp_def]
  | default value =>
    cases value with
    | func name f => cases name <;> exact ⟨rfl, rfl⟩
    | classDef name c => cases name <;> exact ⟨rfl, rfl⟩
    | expr value => cases value <;> exact ⟨rfl, rfl⟩
  | list specifiers source =>
    cases source with
    | none =>
      rw [link, concat_exportLater]
      exact ⟨rfl, rfl⟩
    | some source =>
      rw [link, concat_exportNow]
      simp [Linked.append, Linked.ofBody, Linked.empty, layout, LoweredStmt.stmt,
        LoweredStmt.helper?, interop, Function.comp_def]
  | all source => exact ⟨rfl, rfl⟩

/-- What one item is lowered to reads as its layout, and calls the helpers of its layout. -/
theorem Item.link_eq_layout (item : Item) :
    (item.link isExternal taken).1.body = (item.layout taken).map (LoweredStmt.stmt isExternal) ∧
      (item.link isExternal taken).1.helpers =
        (item.layout taken).filterMap LoweredStmt.helper? := by
  cases item with
  | imports i => exact i.link_eq_layout isExternal taken
  | exports e => exact e.link_eq_layout isExternal taken
  | stmt s => exact ⟨rfl, rfl⟩

theorem linkAll_eq_layout (items : List Item) :
    (Item.linkAll isExternal taken items).body =
        (Item.layoutAll taken items).map (LoweredStmt.stmt isExternal) ∧
      (Item.linkAll isExternal taken items).helpers =
        (Item.layoutAll taken items).filterMap LoweredStmt.helper? := by
  induction items generalizing taken with
  | nil => exact ⟨rfl, rfl⟩
  | cons item rest ih =>
    obtain ⟨hbody, hhelpers⟩ := item.link_eq_layout isExternal taken
    obtain ⟨hrest, hrestHelpers⟩ := ih ((item.madeUp? taken).toList ++ taken)
    rw [linkAll_cons, item.link_taken, Linked.append, Item.layoutAll, List.map_append,
      List.filterMap_append]
    exact ⟨by rw [hbody, hrest], by rw [hhelpers, hrestHelpers]⟩

end Items

/-- The helpers that are called in the lowered module. -/
def Program.calledHelpers (p : Program) : List Helper := p.layout.filterMap LoweredStmt.helper?

/-- Lowering a module, told by its layout and the names that it exports. -/
theorem toCommonJs_eq (isExternal : Bool) (p : Program) :
    p.toCommonJs isExternal =
      match firstRepeated [] p.exportedNames with
      | some name => .error (.duplicateExport name)
      | none => .ok
        { body := p.layout.map (LoweredStmt.stmt isExternal)
          helpers := Helper.all.filter fun h => p.calledHelpers.contains h
          hasExports := !p.exportedNames.isEmpty || p.calledHelpers.contains .exportStar } := by
  obtain ⟨hbody, hhelpers⟩ := linkAll_eq_layout isExternal p.topLevelNames p.body
  have hexported : (Item.linkAll isExternal p.topLevelNames p.body).exported = p.exportedNames := by
    rw [linkAll_exported, List.map_flatMap, Program.exportedNames]
    exact List.flatMap_congr fun item _ => item.map_exported
  have hcalled : p.calledHelpers = p.inPlace.filterMap LoweredStmt.helper? := by
    simp [Program.calledHelpers, Program.layout, Program.deferred, List.filterMap_map,
      LoweredStmt.helper?, Function.comp_def]
  have hlayout : p.layout.map (LoweredStmt.stmt isExternal) =
      (Item.linkAll isExternal p.topLevelNames p.body).body ++
        (Item.linkAll isExternal p.topLevelNames p.body).deferred := by
    rw [hbody, linkAll_deferred_eq, Program.layout, List.map_append, Program.deferred, List.map_map]
    rfl
  -- the run and its layout now agree in all parts that the result is made of
  rw [Program.toCommonJs, hexported, hhelpers, hlayout, hcalled]
  rfl

/-- A lowered body reads as the layout of its module, in which all statements are generated but those
of the module itself. -/
structure LaidOut (isExternal : Bool) (p : Program) (body : List Stmt) : Prop where
  body_eq : body = p.layout.map (LoweredStmt.stmt isExternal)
  own_kept : p.layout.filterMap LoweredStmt.own? = p.body.flatMap Item.ownStmts

theorem laidOut_layout (isExternal : Bool) (p : Program) :
    LaidOut isExternal p (p.layout.map (LoweredStmt.stmt isExternal)) :=
  ⟨rfl, p.own_layout⟩

theorem laidOut_of_toCommonJs {p : Program} {isExternal : Bool} {m : CommonJsModule}
    (h : p.toCommonJs isExternal = .ok m) : LaidOut isExternal p m.body := by
  rw [toCommonJs_eq] at h
  split at h
  · cases h
  · cases h
    exact laidOut_layout isExternal p

end TsxCompiler
