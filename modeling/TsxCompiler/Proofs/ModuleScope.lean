import TsxCompiler.Proofs.LinkInterface

/-!
# The scope of a lowered module

Which names the statements of a lowered module bring into its scope. They are the names that the
module itself binds at run time, and one made-up name for each module that is required without a name
of its own (`linkAll_scopeNames`). A made-up name is never one of those that were taken before
(`madeUp_fresh`), which are the names of declarations and imports at the top level; variables that are
hoisted out of blocks are not among them.
-/

namespace TsxCompiler

/-! ## Names in scope -/

mutual

/-- The names of the `var` declarations in a statement, in its blocks and branches too. -/
def Stmt.varNames : Stmt → List String
  | .block stmts => Stmt.varNamesAll stmts
  | .branch _ cons none => cons.varNames
  | .branch _ cons (some alt) => cons.varNames ++ alt.varNames
  | .decl (.var .var declarators) => (Decl.var .var declarators).boundNames
  | _ => []

/-- The names of the `var` declarations in some statements. -/
def Stmt.varNamesAll : List Stmt → List String
  | [] => []
  | s :: rest => s.varNames ++ Stmt.varNamesAll rest

end

/-- The names of variables that are hoisted out of a statement. -/
def Stmt.hoistedNames : Stmt → List String
  | .decl _ => []
  | s => s.varNames

/-- The names that a statement at the top level brings into the scope of the module. -/
def Stmt.scopeNames (s : Stmt) : List String := s.boundNames ++ s.hoistedNames

def Item.hoistedNames : Item → List String
  | .stmt s => s.hoistedNames
  | _ => []

/-- The names of variables that are hoisted to the scope of a module. -/
def Program.hoistedNames (p : Program) : List String := p.body.flatMap Item.hoistedNames

/-- The names that a clause binds. -/
def ImportClause.names (clause : ImportClause) : List String :=
  clause.star.toList ++ (clause.default.toList ++ clause.named.map Prod.fst)

/-- The names that an item binds at run time. Of several defaults or stars of one import the last
one counts. -/
def Item.keptNames : Item → List String
  | .imports i => if i.typeOnly then [] else (ImportClause.ofSpecifiers i.specifiers).names
  | item => item.boundNames ++ item.hoistedNames

/-! ## Made-up names -/

/-- The source of the module that an item requires under a made-up name: one that it takes names
from without binding it as a whole. -/
def Item.boundSource? : Item → Option String
  | .imports i =>
    if i.typeOnly || i.specifiers.isEmpty ||
      (ImportClause.ofSpecifiers i.specifiers).star.isSome then none
    else some i.source.value
  | .exports (.list _ (some source)) => some source.value
  | _ => none

/-- The name that is made up for the module that an item requires. -/
def Item.madeUp? (taken : List String) (item : Item) : Option String :=
  item.boundSource?.map fun source => freshName taken (bindingBase source)

/-- The names that are made up for the modules that items require, in order. -/
def Item.madeUp : List String → List Item → List String
  | _, [] => []
  | taken, item :: rest =>
    (item.madeUp? taken).toList ++ Item.madeUp ((item.madeUp? taken).toList ++ taken) rest

/-- The names that lowering a module makes up. -/
def Program.moduleBindings (p : Program) : List String := Item.madeUp p.topLevelNames p.body

theorem freshName_eq_candidateName (taken : List String) (base : String) :
    ∃ n, freshName taken base = candidateName base n := by
  unfold freshName
  cases hfind : ((List.range (taken.length + 1)).map (candidateName base)).find?
      fun name => !taken.contains name with
  | some name =>
    obtain ⟨n, -, hn⟩ := List.mem_map.1 (List.mem_of_find?_eq_some hfind)
    exact ⟨n, hn.symm⟩
  | none => exact ⟨0, rfl⟩

theorem freshName_of_not_mem {taken : List String} {base : String} (h : base ∉ taken) :
    freshName taken base = base := by
  have hfirst : (!taken.contains base) = true := by simpa using h
  rw [freshName, List.range_succ_eq_map, List.map_cons, candidateName, List.find?_cons, hfirst]
  rfl

/-- Made-up names are distinct, and none of them was taken. -/
theorem madeUp_fresh (taken : List String) (items : List Item) :
    (Item.madeUp taken items).Nodup ∧ ∀ n ∈ Item.madeUp taken items, n ∉ taken := by
  induction items generalizing taken with
  | nil => simp [Item.madeUp]
  | cons item rest ih =>
    rw [Item.madeUp]
    cases hsource : item.boundSource? with
    | none => simpa [Item.madeUp?, hsource] using ih taken
    | some source =>
      have hfree := freshName_not_mem taken (bindingBase source)
      obtain ⟨hnodup, hrest⟩ := ih (freshName taken (bindingBase source) :: taken)
      simp only [Item.madeUp?, hsource, Option.map_some, Option.toList_some, List.singleton_append,
        List.nodup_cons, List.forall_mem_cons]
      refine ⟨⟨fun hmem => hrest _ hmem (List.mem_cons_self ..), hnodup⟩, hfree, fun n hn hmem => ?_⟩
      exact hrest n hn (List.mem_cons_of_mem _ hmem)

theorem Program.moduleBindings_fresh (p : Program) :
    p.moduleBindings.Nodup ∧ ∀ n ∈ p.moduleBindings, n ∉ p.topLevelNames :=
  madeUp_fresh p.topLevelNames p.body

/-! ## What lowering brings into scope -/

@[simp] theorem scopeNames_decl (d : Decl) : (Stmt.decl d).scopeNames = d.boundNames := by
  simp [Stmt.scopeNames, Stmt.boundNames, Stmt.hoistedNames]

@[simp] theorem scopeNames_expr (e : Expr) : (Stmt.expr e).scopeNames = [] := by
  simp [Stmt.scopeNames, Stmt.boundNames, Stmt.hoistedNames, Stmt.varNames]

@[simp] theorem scopeNames_declare (kind : VarKind) (name : String) (value : Expr) :
    (Stmt.declare kind name value).scopeNames = [name] := by
  simp [Stmt.declare, Decl.boundNames, Pattern.boundNames]

theorem scopeNames_exportStmts {α : Type} (xs : List α) (name : α → String) (value : α → Expr) :
    (xs.map fun x => exportStmt (name x) (value x)).flatMap Stmt.scopeNames = [] := by
  simp [exportStmt, Stmt.assign]

theorem Import.scopeNames_memberConstants (binding : String) (clause : ImportClause) :
    (memberConstants binding clause).flatMap Stmt.scopeNames =
      clause.default.toList ++ clause.named.map Prod.fst := by
  rw [← boundNames_memberConstants binding clause]
  refine List.flatMap_congr fun s hs => ?_
  simp only [memberConstants, List.mem_append, Option.mem_toList, Option.map_eq_some_iff,
    List.mem_map] at hs
  rcases hs with ⟨name, -, rfl⟩ | ⟨x, -, rfl⟩ <;> simp

section Items

variable {isExternal : Bool} {taken : List String}

theorem Import.link_scopeNames (i : Import) :
    (i.link isExternal taken).1.body.flatMap Stmt.scopeNames =
      ((Item.imports i).madeUp? taken).toList ++ (Item.imports i).keptNames := by
  cases ht : i.typeOnly with
  | true => simp [link, ht, Item.madeUp?, Item.boundSource?, Item.keptNames, Linked.empty]
  | false =>
    by_cases hne : i.specifiers = []
    · simp [link, ht, hne, Item.madeUp?, Item.boundSource?, Item.keptNames, Linked.ofBody,
        ImportClause.names, ImportClause.ofSpecifiers]
    · rw [link_body ht hne, List.flatMap_cons, scopeNames_declare, scopeNames_memberConstants]
      cases hstar : (ImportClause.ofSpecifiers i.specifiers).star <;>
        simp [moduleName, Item.madeUp?, Item.boundSource?, Item.keptNames, ImportClause.names, ht,
          hne, hstar]

theorem Export.link_scopeNames (e : Export) :
    (e.link isExternal taken).1.body.flatMap Stmt.scopeNames =
      ((Item.exports e).madeUp? taken).toList ++ (Item.exports e).keptNames := by
  cases e with
  | decl d =>
    rw [link, concat_exportNow]
    change ([Stmt.decl d] ++ _).flatMap Stmt.scopeNames = d.boundNames ++ []
    rw [List.flatMap_append, scopeNames_exportStmts]
    simp
  | default value =>
    cases value with
    | func name f => cases name <;> rfl
    | classDef name c => cases name <;> rfl
    | expr value => cases value <;> rfl
  | list specifiers source =>
    cases source with
    | none =>
      rw [link, concat_exportLater]
      rfl
    | some source =>
      rw [link, concat_exportNow]
      change ([Stmt.declare .const _ _] ++ _).flatMap Stmt.scopeNames = _ ++ []
      rw [List.flatMap_append, scopeNames_exportStmts]
      simp [Item.madeUp?, Item.boundSource?]
  | all source => rfl

/-- Lowering an item brings into scope the name that is made up for it, if any, and the names that it
binds at run time. -/
theorem Item.link_scopeNames (item : Item) :
    (item.link isExternal taken).1.body.flatMap Stmt.scopeNames =
      (item.madeUp? taken).toList ++ item.keptNames := by
  cases item with
  | imports i => exact i.link_scopeNames
  | exports e => exact e.link_scopeNames
  | stmt s =>
    have hbound : (Item.stmt s).boundNames = s.boundNames := by cases s <;> rfl
    simp [Item.link, Linked.ofBody, madeUp?, boundSource?, keptNames, hbound, Item.hoistedNames,
      Stmt.scopeNames]

/-- Only the name that is made up for an item is taken behind it. -/
theorem Item.link_taken (item : Item) :
    (item.link isExternal taken).2 = (item.madeUp? taken).toList ++ taken := by
  cases item with
  | imports i =>
    cases ht : i.typeOnly with
    | true => simp [Item.link, Import.link, ht, madeUp?, boundSource?]
    | false =>
      by_cases hne : i.specifiers = []
      · simp [Item.link, Import.link, ht, hne, madeUp?, boundSource?]
      · rw [Item.link, Import.link_taken ht hne]
        cases hstar : (ImportClause.ofSpecifiers i.specifiers).star <;>
          simp [Import.moduleName, madeUp?, boundSource?, ht, hne, hstar]
  | exports e =>
    cases e with
    | default value =>
      cases value with
      | func name f => cases name <;> rfl
      | classDef name c => cases name <;> rfl
      | expr value => cases value <;> rfl
    | list specifiers source => cases source <;> rfl
    | decl d => rfl
    | all source => rfl
  | stmt s => rfl

end Items

/-! ## Modules -/

section Modules

variable {isExternal : Bool}

/-- Lowering items brings into scope the names that are made up for them and those that they bind at
run time. -/
theorem linkAll_scopeNames (taken : List String) (items : List Item) :
    ((Item.linkAll isExternal taken items).body.flatMap Stmt.scopeNames).Perm
      (Item.madeUp taken items ++ items.flatMap Item.keptNames) := by
  induction items generalizing taken with
  | nil => exact .refl _
  | cons item rest ih =>
    rw [linkAll_cons, Linked.append, List.flatMap_append, item.link_scopeNames, item.link_taken,
      Item.madeUp, List.flatMap_cons]
    exact ((ih _).append_left _).trans (perm_append_append _ _ _ _)

/-- A lowered module is made of the statements of its items and the exports that waited. -/
theorem body_of_toCommonJs {p : Program} {m : CommonJsModule} (h : p.toCommonJs isExternal = .ok m) :
    m.body = (Item.linkAll isExternal p.topLevelNames p.body).body ++
      p.bareExports.map fun e => exportStmt e.1 (.ident e.2) := by
  simp only [Program.toCommonJs] at h
  split at h
  · cases h
  cases h
  simp only [linkAll_deferred_eq]
  rfl

/-- The scope of a lowered module. -/
theorem scopeNames_of_toCommonJs {p : Program} {m : CommonJsModule}
    (h : p.toCommonJs isExternal = .ok m) :
    (m.body.flatMap Stmt.scopeNames).Perm
      (p.moduleBindings ++ p.body.flatMap Item.keptNames) := by
  rw [body_of_toCommonJs h, List.flatMap_append, scopeNames_exportStmts, List.append_nil]
  exact linkAll_scopeNames _ _

end Modules

/-- A text that is read and lowered to something with a result is a module that can be lowered. -/
theorem exists_of_lowered {α : Type} {d : Dialect} {text : String} {isExternal : Bool}
    {f : Program → CommonJsModule → α} {result : α}
    (h : ((Program.parse d text).toOption.bind fun p =>
      (p.toCommonJs isExternal).toOption.map (f p)) = some result) :
    ∃ p m, Program.parse d text = .ok p ∧ p.toCommonJs isExternal = .ok m ∧ f p m = result := by
  obtain ⟨p, hp, hlowered⟩ := Option.bind_eq_some_iff.1 h
  obtain ⟨m, hm, hresult⟩ := Option.map_eq_some_iff.1 hlowered
  exact ⟨p, m, eq_ok_of_toOption hp, eq_ok_of_toOption hm, hresult⟩

end TsxCompiler
