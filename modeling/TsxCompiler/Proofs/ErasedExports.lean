import TsxCompiler.Proofs.ModuleScope

/-!
# Exports of what is erased

Types leave nothing behind in a lowered module: a type declaration binds nothing, and an import of
types is dropped. An export list speaks of its bindings by name only, so the assignment for a type
stays and reads a name that is not there (`toCommonJs_dangles_iff`).
-/

namespace TsxCompiler

/-! ## Names of values and of types -/

/-- The names that an item binds to values. -/
def Item.valueNames : Item → List String
  | .imports i => if i.typeOnly then [] else i.specifiers.map ImportSpecifier.binding
  | item => item.boundNames ++ item.hoistedNames

/-- The names that an item binds to types only. -/
def Item.typeNames : Item → List String
  | .imports i => if i.typeOnly then i.specifiers.map ImportSpecifier.binding else []
  | .stmt (.decl (.typeDecl name)) => [name]
  | .exports (.decl (.typeDecl name)) => [name]
  | _ => []

def Program.valueNames (p : Program) : List String := p.body.flatMap Item.valueNames

def Program.typeNames (p : Program) : List String := p.body.flatMap Item.typeNames

/-- Nothing that an import can say is lost when its specifiers are sorted. -/
theorem Item.mem_keptNames {item : Item} (hshape : ∀ i, item = .imports i → ImportShape i.specifiers)
    {name : String} : name ∈ item.keptNames ↔ name ∈ item.valueNames := by
  cases item with
  | imports i =>
    cases ht : i.typeOnly with
    | true => simp [keptNames, valueNames, ht]
    | false =>
      simp only [keptNames, valueNames, ht]
      exact (names_clause_of_shape (hshape i rfl)).mem_iff
  | exports e => rfl
  | stmt s => rfl

theorem mem_keptNames_of_parse {d : Dialect} {text : String} {p : Program}
    (hparse : Program.parse d text = .ok p) {name : String} :
    name ∈ p.body.flatMap Item.keptNames ↔ name ∈ p.valueNames := by
  rw [Program.valueNames, List.mem_flatMap, List.mem_flatMap]
  refine exists_congr fun item => and_congr_right fun hitem => Item.mem_keptNames fun i hi => ?_
  exact importShape_of_parse hparse (hi ▸ hitem)

/-! ## Dangling exports -/

/-- The statements export a binding under a name, and none of them brings it into scope. -/
def Dangles (body : List Stmt) (name binding : String) : Prop :=
  exportStmt name (.ident binding) ∈ body ∧ binding ∉ body.flatMap Stmt.scopeNames

/-- An export by name dangles in the lowered module exactly if the module binds the name to no value
and lowering has not made it up for a required module. The latter happens to names of type
declarations only; so of the names that are imported, or declared as values, those dangle that are
imported as types. -/
theorem toCommonJs_dangles_iff {d : Dialect} {text : String} {p : Program} {isExternal : Bool}
    {m : CommonJsModule} (hparse : Program.parse d text = .ok p)
    (h : p.toCommonJs isExternal = .ok m) {name binding : String}
    (hexport : (name, binding) ∈ p.bareExports) :
    (Dangles m.body name binding ↔ binding ∉ p.valueNames ∧ binding ∉ p.moduleBindings) ∧
      (binding ∈ p.topLevelNames → (Dangles m.body name binding ↔ binding ∉ p.valueNames)) := by
  have hassigned : exportStmt name (.ident binding) ∈ m.body := by
    rw [body_of_toCommonJs h]
    exact List.mem_append_right _ (List.mem_map.2 ⟨_, hexport, rfl⟩)
  have hscope : binding ∈ m.body.flatMap Stmt.scopeNames ↔
      binding ∈ p.valueNames ∨ binding ∈ p.moduleBindings := by
    rw [(scopeNames_of_toCommonJs h).mem_iff, List.mem_append, mem_keptNames_of_parse hparse, or_comm]
  have hdangles : Dangles m.body name binding ↔
      binding ∉ p.valueNames ∧ binding ∉ p.moduleBindings := by
    rw [Dangles, hscope, not_or, and_iff_right hassigned]
  refine ⟨hdangles, fun htop => ?_⟩
  rw [hdangles]
  exact and_iff_left fun hmade => p.moduleBindings_fresh.2 _ hmade htop

/-- A module that exports a type it imports, beside a value. -/
def exportedType : String :=
  "import type \x7b T \x7d from './t';\nexport const a = 1;\nexport \x7b T, a as b \x7d;\n"

theorem toCommonJs_dangles_iff_exportedType :
    ∃ p m, Program.parse .tsx exportedType = .ok p ∧ p.toCommonJs true = .ok m ∧
      Dangles m.body "T" "T" ∧ ¬ Dangles m.body "b" "a" := by
  have hrun : ((Program.parse .tsx exportedType).toOption.bind fun p =>
      (p.toCommonJs true).toOption.map fun _ =>
        (p.bareExports, p.topLevelNames, p.valueNames)) =
      some ([("T", "T"), ("b", "a")], ["T", "a"], ["a"]) := by
    decide +kernel
  obtain ⟨p, m, hparse, hlower, hresult⟩ := exists_of_lowered hrun
  simp only [Prod.mk.injEq] at hresult
  obtain ⟨hexports, htop, hvalues⟩ := hresult
  have hiff : ∀ {name binding : String}, (name, binding) ∈ p.bareExports →
      binding ∈ p.topLevelNames → (Dangles m.body name binding ↔ binding ∉ p.valueNames) :=
    fun hexport => (toCommonJs_dangles_iff hparse hlower hexport).2
  refine ⟨p, m, hparse, hlower, (hiff ?_ ?_).2 ?_, fun hdangles => (hiff ?_ ?_).1 hdangles ?_⟩ <;>
    simp [hexports, htop, hvalues]

/-- A type that is exported by name is still assigned, although nothing declares it any more. -/
theorem not_bareExports_declared :
    ¬ ∀ (d : Dialect) (text : String) (p : Program) (isExternal : Bool) (m : CommonJsModule),
      Program.parse d text = .ok p → p.toCommonJs isExternal = .ok m →
      ∀ name binding, (name, binding) ∈ p.bareExports →
        binding ∈ p.valueNames ++ p.typeNames → exportStmt name (.ident binding) ∈ m.body →
        binding ∈ m.body.flatMap Stmt.scopeNames := by
  intro hdeclared
  have hrun : ((Program.parse ⟨.typeScript, false⟩
      "type T = string\nexport const a = 1\nexport \x7b T \x7d").toOption.bind fun p =>
      (p.toCommonJs true).toOption.map fun m =>
        (p.bareExports, p.typeNames, m.body.flatMap Stmt.scopeNames)) =
      some ([("T", "T")], ["T"], ["a"]) := by
    decide +kernel
  obtain ⟨p, m, hparse, hlower, hresult⟩ := exists_of_lowered hrun
  simp only [Prod.mk.injEq] at hresult
  obtain ⟨hexports, htypes, hscope⟩ := hresult
  have hassigned : exportStmt "T" (.ident "T") ∈ m.body := by
    rw [body_of_toCommonJs hlower, hexports]
    exact List.mem_append_right _ (List.mem_cons_self ..)
  have hmem := hdeclared _ _ p true m hparse hlower "T" "T" (by simp [hexports])
    (by simp [htypes]) hassigned
  rw [hscope] at hmem
  simp at hmem

end TsxCompiler
