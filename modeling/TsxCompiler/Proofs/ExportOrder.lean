import TsxCompiler.Proofs.Provenance

/-!
# Exports, once and in order

A module may export a name once. Lowering fails exactly if a name is exported twice, and names the
first that is met again. Otherwise every exported name is assigned once: first the exports that are
lowered in place, in the order of the items, then those that wait for the end, in that order too
(`toCommonJs_exports_iff`).
-/

namespace TsxCompiler

/-! ## The first name that is met again -/

/-- A name that stands in a list behind distinct names, of which it is one. -/
def FirstRepeat (names : List String) (name : String) : Prop :=
  ∃ before after, names = before ++ name :: after ∧ before.Nodup ∧ name ∈ before

theorem firstRepeated_cons_of_mem {seen : List String} {n : String} (h : n ∈ seen)
    (names : List String) : firstRepeated seen (n :: names) = some n := by
  simp [firstRepeated, h]

theorem firstRepeated_cons_of_not_mem {seen : List String} {n : String} (h : n ∉ seen)
    (names : List String) : firstRepeated seen (n :: names) = firstRepeated (n :: seen) names := by
  simp [firstRepeated, h]

/-- Distinct names that are new are passed over. -/
theorem firstRepeated_append {seen before : List String} (hnodup : before.Nodup)
    (hnew : ∀ n ∈ before, n ∉ seen) (names : List String) :
    firstRepeated seen (before ++ names) = firstRepeated (before.reverse ++ seen) names := by
  induction before generalizing seen with
  | nil => rfl
  | cons n before ih =>
    obtain ⟨hn, hnodup⟩ := List.nodup_cons.1 hnodup
    obtain ⟨hfirst, hnew⟩ := List.forall_mem_cons.1 hnew
    have hrest : ∀ m ∈ before, m ∉ n :: seen := by
      intro m hm hmem
      rcases List.mem_cons.1 hmem with rfl | hmem
      · exact hn hm
      · exact hnew m hm hmem
    rw [List.cons_append, firstRepeated_cons_of_not_mem hfirst, ih hnodup hrest,
      List.reverse_cons, List.append_assoc, List.singleton_append]

/-- The first repeated name stands behind names that are all different and were not seen before. -/
theorem exists_of_firstRepeated {seen names : List String} {name : String}
    (h : firstRepeated seen names = some name) :
    ∃ before after, names = before ++ name :: after ∧ before.Nodup ∧ (∀ n ∈ before, n ∉ seen) ∧
      name ∈ before ++ seen := by
  -- the induction is on what is left, so the name may be one that was seen before it
  induction names generalizing seen with
  | nil => cases h
  | cons n names ih =>
    by_cases hn : n ∈ seen
    · rw [firstRepeated_cons_of_mem hn] at h
      cases h
      exact ⟨[], names, rfl, .nil, by simp, hn⟩
    · rw [firstRepeated_cons_of_not_mem hn] at h
      obtain ⟨before, after, rfl, hnodup, hnew, hmem⟩ := ih h
      have hfirst : n ∉ before := fun hbefore => hnew n hbefore (List.mem_cons_self ..)
      refine ⟨n :: before, after, rfl, List.nodup_cons.2 ⟨hfirst, hnodup⟩, ?_, ?_⟩
      · exact List.forall_mem_cons.2 ⟨hn, fun m hm hseen => hnew m hm (List.mem_cons_of_mem _ hseen)⟩
      · exact List.perm_middle.mem_iff.1 hmem

theorem firstRepeated_nil_eq_some_iff {names : List String} {name : String} :
    firstRepeated [] names = some name ↔ FirstRepeat names name := by
  constructor
  · intro h
    obtain ⟨before, after, hnames, hnodup, -, hmem⟩ := exists_of_firstRepeated h
    exact ⟨before, after, hnames, hnodup, by simpa using hmem⟩
  · rintro ⟨before, after, rfl, hnodup, hmem⟩
    rw [firstRepeated_append hnodup (by simp)]
    exact firstRepeated_cons_of_mem (by simpa using hmem) after

theorem firstRepeated_nil_eq_none_iff {names : List String} :
    firstRepeated [] names = none ↔ names.Nodup := by
  constructor
  · exact fun h => (nodup_of_firstRepeated h).1
  · intro hnodup
    cases hfound : firstRepeated [] names with
    | none => rfl
    | some name =>
      obtain ⟨before, after, rfl, -, hmem⟩ := firstRepeated_nil_eq_some_iff.1 hfound
      exact absurd rfl ((List.nodup_append.1 hnodup).2.2 name hmem name (List.mem_cons_self ..))

/-! ## Generated exports -/

/-- The name in `exports.name = value;`, for a generated statement. -/
def LoweredStmt.exportedName? (isExternal : Bool) (l : LoweredStmt) : Option String :=
  match l with
  | own _ => none
  | l => (l.stmt isExternal).exportAssignment?.map Prod.fst

/-- Whether the exports of an item wait for the end of the module: export lists without a source, and
a default that is a name. -/
def Item.waits : Item → Bool
  | .exports (.default (.expr (.ident _))) => true
  | .exports (.list _ none) => true
  | _ => false

section Items

variable (isExternal : Bool)

theorem filterMap_exportedName? {α : Type} (xs : List α) (l : α → LoweredStmt) (name : α → String)
    (h : ∀ x, (l x).exportedName? isExternal = some (name x)) :
    (xs.map l).filterMap (LoweredStmt.exportedName? isExternal) = xs.map name := by
  simp [List.filterMap_map, h]

/-- The exports of an item are assigned in place, unless they wait. -/
theorem Item.exportedName?_layout (taken : List String) (item : Item) :
    (item.layout taken).filterMap (LoweredStmt.exportedName? isExternal) =
      if item.waits then [] else item.exportedNames := by
  cases item with
  | stmt s => rfl
  | imports i =>
    exact i.filterMap_layout (fun _ => rfl) (fun _ _ _ => rfl) (fun _ _ _ => rfl) taken
  | exports e =>
    cases e with
    | decl d =>
      rw [layout, Export.layout, List.filterMap_cons_none rfl,
        filterMap_exportedName? isExternal _ _ id fun _ => rfl, List.map_id]
      rfl
    | default value =>
      cases value with
      | func name f => cases name <;> rfl
      | classDef name c => cases name <;> rfl
      | expr value => cases value <;> rfl
    | list specifiers source =>
      cases source with
      | none => rfl
      | some source =>
        rw [layout, Export.layout, List.filterMap_cons_none rfl,
          filterMap_exportedName? isExternal _ _ ExportSpecifier.exportedName fun _ => rfl]
        rfl
    | all source => rfl

theorem Item.map_bareExports (item : Item) :
    item.bareExports.map Prod.fst = if item.waits then item.exportedNames else [] := by
  cases item with
  | stmt s => rfl
  | imports i => rfl
  | exports e =>
    cases e with
    | decl d => rfl
    | default value =>
      cases value with
      | func name f => rfl
      | classDef name c => rfl
      | expr value => cases value <;> rfl
    | list specifiers source =>
      cases source with
      | none => simp [bareExports, waits, exportedNames, Export.exportedNames]
      | some source => rfl
    | all source => rfl

end Items

/-! ## Modules -/

/-- The exported names of a lowered module, generated assignment by generated assignment. -/
structure ExportsInOrder (isExternal : Bool) (p : Program) (body : List Stmt) : Prop where
  laid_out : LaidOut isExternal p body
  /-- The exports that wait end the layout. -/
  layout_eq : p.layout = p.inPlace ++ p.deferred
  in_place : p.inPlace.filterMap (LoweredStmt.exportedName? isExternal) =
    (p.body.filter fun item => !item.waits).flatMap Item.exportedNames
  /-- What waits for the end is nothing but assignments. -/
  at_end : p.deferred.map (LoweredStmt.exportedName? isExternal) =
    ((p.body.filter Item.waits).flatMap Item.exportedNames).map some
  each_once : (p.layout.filterMap (LoweredStmt.exportedName? isExternal)).Perm p.exportedNames

theorem flatMap_filter_eq {α β : Type} (test : α → Bool) (f : α → List β) (xs : List α) :
    (xs.filter test).flatMap f = xs.flatMap fun x => if test x then f x else [] := by
  induction xs with
  | nil => rfl
  | cons x xs ih => cases htest : test x <;> simp [htest, ih]

section Modules

variable (isExternal : Bool) (p : Program)

theorem Program.exportedName?_inPlace :
    p.inPlace.filterMap (LoweredStmt.exportedName? isExternal) =
      (p.body.filter fun item => !item.waits).flatMap Item.exportedNames := by
  rw [inPlace, filterMap_layoutAll (Item.exportedName?_layout isExternal), flatMap_filter_eq]
  refine List.flatMap_congr fun item _ => ?_
  cases item.waits <;> rfl

theorem Program.exportedName?_deferred :
    p.deferred.map (LoweredStmt.exportedName? isExternal) =
      ((p.body.filter Item.waits).flatMap Item.exportedNames).map some := by
  have hnames : p.bareExports.map Prod.fst =
      (p.body.filter Item.waits).flatMap Item.exportedNames := by
    rw [bareExports, List.map_flatMap, flatMap_filter_eq]
    exact List.flatMap_congr fun item _ => item.map_bareExports
  rw [← hnames, deferred, List.map_map, List.map_map]
  rfl

theorem Program.exportsInOrder :
    ExportsInOrder isExternal p (p.layout.map (LoweredStmt.stmt isExternal)) where
  laid_out := laidOut_layout isExternal p
  layout_eq := rfl
  in_place := p.exportedName?_inPlace isExternal
  at_end := p.exportedName?_deferred isExternal
  each_once := by
    have hdeferred : p.deferred.filterMap (LoweredStmt.exportedName? isExternal) =
        (p.body.filter Item.waits).flatMap Item.exportedNames := by
      have hassigned := congrArg (List.filterMap id) (p.exportedName?_deferred isExternal)
      simpa [List.filterMap_map] using hassigned
    rw [layout, List.filterMap_append, p.exportedName?_inPlace isExternal, hdeferred,
      ← List.flatMap_append, exportedNames]
    refine List.Perm.flatMap_right _ (List.perm_append_comm.trans ?_)
    exact List.filter_append_perm _ _

end Modules

/-- Lowering fails exactly if the module exports a name twice, with the first that is met again; what
is lowered assigns each exported name once, those in place before those that wait. -/
theorem toCommonJs_exports_iff (p : Program) (isExternal : Bool) :
    ((∃ e, p.toCommonJs isExternal = .error e) ↔ ¬ p.exportedNames.Nodup) ∧
      (∀ e, p.toCommonJs isExternal = .error e ↔
        ∃ name, e = .duplicateExport name ∧ FirstRepeat p.exportedNames name) ∧
      ∀ m, p.toCommonJs isExternal = .ok m → ExportsInOrder isExternal p m.body := by
  rw [toCommonJs_eq]
  cases hrepeated : firstRepeated [] p.exportedNames with
  -- no repeated name: the module is lowered
  | none =>
    have hnodup := firstRepeated_nil_eq_none_iff.1 hrepeated
    refine ⟨by simp [hnodup], fun e => ?_, fun m hm => ?_⟩
    · refine iff_of_false (by simp) ?_
      rintro ⟨name, -, hfirst⟩
      rw [firstRepeated_nil_eq_some_iff.2 hfirst] at hrepeated
      cases hrepeated
    · cases hm
      exact p.exportsInOrder isExternal
  -- the first repeated name is the one that is reported
  | some name =>
    have hnodup : ¬ p.exportedNames.Nodup := by
      rw [← firstRepeated_nil_eq_none_iff, hrepeated]
      simp
    refine ⟨by simp [hnodup], fun e => ?_, fun m hm => by cases hm⟩
    constructor
    · rintro ⟨⟩
      exact ⟨name, rfl, firstRepeated_nil_eq_some_iff.1 hrepeated⟩
    · rintro ⟨other, rfl, hfirst⟩
      rw [← firstRepeated_nil_eq_some_iff, hrepeated] at hfirst
      cases hfirst
      rfl

/-- Exports of all kinds, some of which wait. -/
def waitingExports : String :=
  "export \x7b a as z \x7d;\nexport const \x7b a, x: [b] \x7d = f();\n" ++
  "export \x7b y \x7d from 'n';\nexport default a;\n"

theorem toCommonJs_exports_iff_waitingExports :
    ∃ p m, Program.parse .tsx waitingExports = .ok p ∧ p.toCommonJs true = .ok m ∧
      LaidOut true p m.body ∧ p.exportedNames = ["z", "a", "b", "y", "default"] ∧
      p.inPlace.filterMap (LoweredStmt.exportedName? true) = ["a", "b", "y"] ∧
      p.deferred.map (LoweredStmt.exportedName? true) = [some "z", some "default"] := by
  have hrun : ((Program.parse .tsx waitingExports).toOption.bind fun p =>
      (p.toCommonJs true).toOption.map fun _ => (p.exportedNames,
        (p.body.filter fun item => !item.waits).flatMap Item.exportedNames,
        (p.body.filter Item.waits).flatMap Item.exportedNames)) =
      some (["z", "a", "b", "y", "default"], ["a", "b", "y"], ["z", "default"]) := by
    decide +kernel
  obtain ⟨p, m, hparse, hlower, hresult⟩ := exists_of_lowered hrun
  simp only [Prod.mk.injEq] at hresult
  obtain ⟨hnames, hplaced, hwaiting⟩ := hresult
  have horder := (toCommonJs_exports_iff p true).2.2 m hlower
  refine ⟨p, m, hparse, hlower, horder.laid_out, hnames, ?_, ?_⟩
  · rw [horder.in_place, hplaced]
  · rw [horder.at_end, hwaiting]
    rfl

end TsxCompiler
