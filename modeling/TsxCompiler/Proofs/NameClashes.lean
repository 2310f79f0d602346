import TsxCompiler.Proofs.ModuleScope

/-!
# Names that clash

Three kinds of names meet in the scope of a lowered module: those of the module itself, those that
are made up for required modules, and those of helpers. Made-up names keep clear of the declarations
and imports of the module and of each other. They do not keep clear of variables that are hoisted out
of blocks, and helpers have fixed names that nothing keeps clear of. So the names are distinct exactly
if the module uses no name of a helper, asks for none with a source, and hoists no variable by a
made-up name (`toCommonJs_names_nodup_iff`).
-/

namespace TsxCompiler

/-- The names that a module has at its own scope: those of declarations and imports at the top
level, and of variables hoisted out of blocks and branches. -/
def Program.scopeNames (p : Program) : List String := p.topLevelNames ++ p.hoistedNames

/-- The sources of the modules that are required under made-up names. -/
def Program.boundSources (p : Program) : List String := p.body.filterMap Item.boundSource?

/-- The names that meet in the scope of a lowered module. -/
def CommonJsModule.meetingNames (p : Program) (m : CommonJsModule) : List String :=
  m.helpers.map Helper.name ++ (p.moduleBindings ++ p.scopeNames)

/-! ## Made-up names and the sources they are made from -/

/-- A made-up name comes from one of the sources. -/
theorem candidateName_of_mem_madeUp {taken : List String} {items : List Item} {name : String}
    (h : name ∈ Item.madeUp taken items) :
    ∃ source ∈ items.filterMap Item.boundSource?, ∃ n,
      name = candidateName (bindingBase source) n := by
  induction items generalizing taken with
  | nil => simp [Item.madeUp] at h
  | cons item rest ih =>
    rw [Item.madeUp] at h
    cases hsource : item.boundSource? with
    | none => simpa [hsource] using ih (by simpa [Item.madeUp?, hsource] using h)
    | some source =>
      simp only [Item.madeUp?, hsource, Option.map_some, Option.toList_some, List.singleton_append,
        List.mem_cons] at h
      rw [List.filterMap_cons_some hsource]
      rcases h with rfl | h
      · exact ⟨source, List.mem_cons_self .., freshName_eq_candidateName ..⟩
      · obtain ⟨other, hother, hname⟩ := ih h
        exact ⟨other, List.mem_cons_of_mem _ hother, hname⟩

/-- The first name that a source asks for is made up for one of the modules, unless it was taken. -/
theorem bindingBase_mem_madeUp {taken : List String} {items : List Item} {source : String}
    (h : source ∈ items.filterMap Item.boundSource?) :
    bindingBase source ∈ taken ∨ bindingBase source ∈ Item.madeUp taken items := by
  induction items generalizing taken with
  | nil => simp at h
  | cons item rest ih =>
    rw [Item.madeUp]
    cases hsource : item.boundSource? with
    | none => simpa [Item.madeUp?, hsource] using ih (by simpa [hsource] using h)
    | some first =>
      simp only [Item.madeUp?, hsource, Option.map_some, Option.toList_some, List.singleton_append,
        List.mem_cons]
      rw [List.filterMap_cons_some hsource, List.mem_cons] at h
      rcases h with rfl | h
      · by_cases htaken : bindingBase source ∈ taken
        · exact .inl htaken
        · exact .inr (.inl (freshName_of_not_mem htaken).symm)
      · have hrest : bindingBase source ∈ freshName taken (bindingBase first) :: taken ∨ _ := ih h
        rcases hrest with htaken | hmade
        · exact (List.mem_cons.1 htaken).elim (fun heq => .inr (.inl heq)) .inl
        · exact .inr (.inr hmade)

/-- No helper has a name that ends in a number. -/
theorem Helper.name_ne_candidateName (helper : Helper) (base : String) (n : Nat) :
    helper.name ≠ candidateName base (n + 1) := by
  intro h
  have hdigits : (toString (n + 1)).toList = Nat.toDigits 10 (n + 1) := Nat.toList_repr
  have hne : Nat.toDigits 10 (n + 1) ≠ [] := Nat.toDigits_ne_nil
  have hlast : helper.name.toList.getLast? = some ((Nat.toDigits 10 (n + 1)).getLast hne) := by
    rw [h, candidateName, String.toList_append, hdigits, List.getLast?_append_of_ne_nil _ hne,
      List.getLast?_eq_getLast_of_ne_nil hne]
  have hletter : helper.name.toList.getLast?.any Char.isDigit = false := by cases helper <;> decide
  rw [hlast, Option.any_some] at hletter
  exact absurd (Nat.isDigit_of_mem_toDigits (b := 10) (by decide) (by decide) (List.getLast_mem hne))
    (by simp [hletter])

/-- A name of a helper is made up for a module exactly if one of the sources asks for it, as long as
the module does not use the name itself. -/
theorem Helper.name_mem_moduleBindings {p : Program} {helper : Helper}
    (hfree : helper.name ∉ p.topLevelNames) :
    helper.name ∈ p.moduleBindings ↔ ∃ source ∈ p.boundSources, bindingBase source = helper.name := by
  constructor
  · intro h
    obtain ⟨source, hsource, n, hname⟩ := candidateName_of_mem_madeUp h
    cases n with
    | zero => exact ⟨source, hsource, hname.symm⟩
    | succ n => exact absurd hname (helper.name_ne_candidateName _ n)
  · rintro ⟨source, hsource, hname⟩
    have hmade := (bindingBase_mem_madeUp hsource).resolve_left (hname ▸ hfree)
    exact hname ▸ hmade

/-! ## All names together -/

theorem nodup_helperNames {p : Program} {isExternal : Bool} {m : CommonJsModule}
    (h : p.toCommonJs isExternal = .ok m) : (m.helpers.map Helper.name).Nodup := by
  simp only [Program.toCommonJs] at h
  split at h
  · cases h
  cases h
  have hall : (Helper.all.map Helper.name).Nodup := by decide
  exact hall.sublist (List.filter_sublist.map _)

/-- Made-up names are distinct from each other and from the declarations and imports of the module,
so they can clash with hoisted variables only. -/
theorem nodup_moduleBindings_append_iff {p : Program} (hnames : p.scopeNames.Nodup) :
    (p.moduleBindings ++ p.scopeNames).Nodup ↔ ∀ n ∈ p.hoistedNames, n ∉ p.moduleBindings := by
  obtain ⟨hnodup, hfresh⟩ := p.moduleBindings_fresh
  rw [List.nodup_append, and_iff_right hnodup, and_iff_right hnames]
  constructor
  · intro hdisjoint n hn hmade
    exact hdisjoint n hmade n (List.mem_append_right _ hn) rfl
  · rintro hhoisted n hmade _ hn rfl
    rcases List.mem_append.1 hn with htop | hn
    · exact hfresh n hmade htop
    · exact hhoisted n hn hmade

/-- Made-up names clash with hoisted variables only. A helper clashes with a name of the module, or
with a source that its name would be made up for. -/
theorem nodup_meetingNames_iff {p : Program} {isExternal : Bool} {m : CommonJsModule}
    (h : p.toCommonJs isExternal = .ok m) (hnames : p.scopeNames.Nodup) :
    (m.meetingNames p).Nodup ↔
      (∀ helper ∈ m.helpers, helper.name ∉ p.scopeNames ∧
        ∀ source ∈ p.boundSources, bindingBase source ≠ helper.name) ∧
      ∀ n ∈ p.hoistedNames, n ∉ p.moduleBindings := by
  rw [CommonJsModule.meetingNames, List.nodup_append, and_iff_right (nodup_helperNames h),
    nodup_moduleBindings_append_iff hnames, and_comm]
  refine and_congr_left fun _ => ?_
  simp only [List.forall_mem_map, List.mem_append]
  refine forall₂_congr fun helper _ => ?_
  -- a helper's name is free if it is neither the module's own nor made up
  have hfree : (∀ n, n ∈ p.moduleBindings ∨ n ∈ p.scopeNames → helper.name ≠ n) ↔
      helper.name ∉ p.scopeNames ∧ helper.name ∉ p.moduleBindings :=
    ⟨fun hne => ⟨fun hown => hne _ (.inr hown) rfl, fun hmade => hne _ (.inl hmade) rfl⟩,
      fun hne n hn heq => hn.elim (fun hmade => hne.2 (heq ▸ hmade)) fun hown => hne.1 (heq ▸ hown)⟩
  rw [hfree]
  refine and_congr_right fun hown => ?_
  rw [Helper.name_mem_moduleBindings fun htop => hown (List.mem_append_left _ htop)]
  simp only [not_exists, not_and, ne_eq]

theorem ImportClause.names_subset (specifiers : List ImportSpecifier) :
    (ofSpecifiers specifiers).names ⊆ specifiers.map ImportSpecifier.binding := by
  intro n hn
  simp only [names, ofSpecifiers, List.mem_append, Option.mem_toList, List.mem_map] at hn
  rcases hn with hstar | hdefault | ⟨x, hnamed, rfl⟩
  · obtain ⟨s, hs, hbinding⟩ := List.mem_filterMap.1 (List.mem_of_getLast? hstar)
    cases s <;> cases hbinding
    exact List.mem_map.2 ⟨_, hs, rfl⟩
  · obtain ⟨s, hs, hbinding⟩ := List.mem_filterMap.1 (List.mem_of_getLast? hdefault)
    cases s <;> cases hbinding
    exact List.mem_map.2 ⟨_, hs, rfl⟩
  · obtain ⟨s, hs, hbinding⟩ := List.mem_filterMap.1 hnamed
    cases s <;> cases hbinding
    exact List.mem_map.2 ⟨_, hs, rfl⟩

/-- What an item binds at run time is a name that the module has at its scope. -/
theorem Program.mem_scopeNames_of_kept {p : Program} {name : String}
    (h : name ∈ p.body.flatMap Item.keptNames) : name ∈ p.scopeNames := by
  obtain ⟨item, hitem, hname⟩ := List.mem_flatMap.1 h
  have hitemName : name ∈ item.boundNames ∨ name ∈ item.hoistedNames := by
    cases item with
    | imports i =>
      cases ht : i.typeOnly with
      | true => simp [Item.keptNames, ht] at hname
      | false =>
        simp only [Item.keptNames, ht] at hname
        exact .inl (ImportClause.names_subset _ hname)
    | exports e => exact List.mem_append.1 hname
    | stmt s => exact List.mem_append.1 hname
  rw [scopeNames, List.mem_append]
  exact hitemName.imp (fun h => List.mem_flatMap.2 ⟨item, hitem, h⟩)
    fun h => List.mem_flatMap.2 ⟨item, hitem, h⟩

/-- The scope of a lowered module holds the made-up names and names of the module itself, and a
made-up name is one that a source asks for, with or without a number. Together with the names of the
helpers, and given that the module's own names are distinct, all of them are distinct exactly if no
helper has a name of the module or one that a source asks for, and no hoisted variable has a made-up
name. -/
theorem toCommonJs_names_nodup_iff {p : Program} {isExternal : Bool} {m : CommonJsModule}
    (h : p.toCommonJs isExternal = .ok m) (hnames : p.scopeNames.Nodup) :
    p.moduleBindings ⊆ m.body.flatMap Stmt.scopeNames ∧
      m.body.flatMap Stmt.scopeNames ⊆ p.moduleBindings ++ p.scopeNames ∧
      (∀ name ∈ p.moduleBindings, ∃ source ∈ p.boundSources, ∃ n,
        name = candidateName (bindingBase source) n) ∧
      ((m.meetingNames p).Nodup ↔
        (∀ helper ∈ m.helpers, helper.name ∉ p.scopeNames ∧
          ∀ source ∈ p.boundSources, bindingBase source ≠ helper.name) ∧
        ∀ name ∈ p.hoistedNames, name ∉ p.moduleBindings) := by
  have hscope := scopeNames_of_toCommonJs h
  refine ⟨fun name hname => ?_, fun name hname => ?_, fun name hname => ?_,
    nodup_meetingNames_iff h hnames⟩
  · exact hscope.mem_iff.2 (List.mem_append_left _ hname)
  · exact List.mem_append.2
      ((List.mem_append.1 (hscope.mem_iff.1 hname)).imp_right Program.mem_scopeNames_of_kept)
  · exact candidateName_of_mem_madeUp hname

/-- Two modules that ask for one name, a variable in a block, and a helper. -/
def meetingSample : String :=
  "import a from 'm';\nimport \x7b b \x7d from './m';\n\x7b var c = a; \x7d\n"

theorem toCommonJs_names_nodup_iff_meetingSample :
    ∃ p m, Program.parse .tsx meetingSample = .ok p ∧ p.toCommonJs true = .ok m ∧
      p.scopeNames = ["a", "b", "c"] ∧
      m.meetingNames p = ["_interop_require_default", "_m", "_m1", "a", "b", "c"] ∧
      (m.meetingNames p).Nodup := by
  have hrun : ((Program.parse .tsx meetingSample).toOption.bind fun p =>
      (p.toCommonJs true).toOption.map fun m =>
        (p.scopeNames, p.hoistedNames, p.moduleBindings, p.boundSources, m.helpers)) =
      some (["a", "b", "c"], ["c"], ["_m", "_m1"], ["m", "./m"], [.interopDefault]) := by
    decide +kernel
  obtain ⟨p, m, hparse, hlower, hresult⟩ := exists_of_lowered hrun
  simp only [Prod.mk.injEq] at hresult
  obtain ⟨hown, hhoisted, hmade, hsources, hhelpers⟩ := hresult
  refine ⟨p, m, hparse, hlower, hown, ?_, ?_⟩
  · rw [CommonJsModule.meetingNames, hhelpers, hmade, hown]
    rfl
  · refine (toCommonJs_names_nodup_iff hlower (by simp [hown])).2.2.2.2 ⟨?_, ?_⟩
    · rw [hhelpers, hown, hsources]
      decide +kernel
    · simp [hhoisted, hmade]

/-- A variable that is hoisted out of a block can have the name that is made up for a module. -/
theorem not_meetingNames_nodup :
    ¬ ∀ (p : Program) (isExternal : Bool) (m : CommonJsModule), p.scopeNames.Nodup →
      p.toCommonJs isExternal = .ok m → (m.meetingNames p).Nodup := by
  intro hnodup
  have hrun : ((Program.parse ⟨.ecmaScript, false⟩
      "\x7b var _m = 1 \x7d\nimport \x7b a \x7d from 'm'\na").toOption.bind fun p =>
      (p.toCommonJs true).toOption.map fun m => (p.scopeNames, m.meetingNames p)) =
      some (["a", "_m"], ["_m", "a", "_m"]) := by
    decide +kernel
  obtain ⟨p, m, -, hlower, hresult⟩ := exists_of_lowered hrun
  simp only [Prod.mk.injEq] at hresult
  obtain ⟨hown, hmeeting⟩ := hresult
  have hclash := hnodup p true m (by simp [hown]) hlower
  rw [hmeeting] at hclash
  simp at hclash

end TsxCompiler
