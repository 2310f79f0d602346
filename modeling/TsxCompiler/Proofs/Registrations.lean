import TsxCompiler.Proofs.ComponentBodies

/-!
# Components and their registrations

What fast refresh registers behind a module is in step with what it does to the items of the module.
Each item is kept, registered as it is, or registered with one of its blocks signed; the calls behind
the module are the registrations of the items one after the other, and the signatures among them are
those of the signed items.

* `Refresh.signAll_treats` — the items of a module, signed and registered, as treated items;
* `Refresh.instrument_balanced` — the statements around the module match the treated items.
-/

namespace TsxCompiler

/-! ## Candidates by their shape -/

/-- Declarations that may define a component: functions, and single variables that start as a
function or as the result of a call. -/
inductive Decl.MayDefine (name : String) : Decl → Prop
  | func (body : Func) : MayDefine name (.func name body)
  | funcExpr (kind : VarKind) (own : Option String) (body : Func) :
    MayDefine name (.var kind [⟨.ident name, some (.func own body)⟩])
  | arrow (kind : VarKind) (isAsync : Bool) (params : List Pattern) (body : ArrowBody) :
    MayDefine name (.var kind [⟨.ident name, some (.arrow isAsync params body)⟩])
  | call (kind : VarKind) (callee : Expr) (args : List Argument) (optional : Bool) :
    MayDefine name (.var kind [⟨.ident name, some (.call callee args optional)⟩])

/-- Items with the shape of a component, exported or not, by name or by default. -/
inductive Item.MayDefine (name : String) : Item → Prop
  | decl {d : Decl} : d.MayDefine name → MayDefine name (.stmt (.decl d))
  | exported {d : Decl} : d.MayDefine name → MayDefine name (.exports (.decl d))
  | default (body : Func) : MayDefine name (.exports (.default (.func (some name) body)))

theorem Decl.mayDefine_iff {d : Decl} {name : String} :
    d.MayDefine name ↔ d.candidateName = some name := by
  constructor
  · rintro (_ | _ | _ | _) <;> rfl
  · intro h
    unfold candidateName at h
    split at h
    · cases h
      exact .func _
    · unfold Expr.mayBeComponent at h
      split at h <;> cases h
      · exact .funcExpr ..
      · exact .arrow ..
      · exact .call ..
    · cases h

theorem Item.mayDefine_iff {item : Item} {name : String} :
    item.MayDefine name ↔ item.candidateName = some name := by
  constructor
  · rintro (hd | hd | _)
    · exact Decl.mayDefine_iff.1 hd
    · exact Decl.mayDefine_iff.1 hd
    · rfl
  · intro h
    unfold candidateName at h
    split at h
    · exact .decl (Decl.mayDefine_iff.2 h)
    · exact .exported (Decl.mayDefine_iff.2 h)
    · subst h
      exact .default _
    · cases h

/-- Names that look like components and belong to other modules or to classes: those of default and
named imports, and those of class declarations at any depth. -/
inductive Program.Disowns (p : Program) (name : String) : Prop
  | default {i : Import} : .imports i ∈ p.nodes → .default name ∈ i.specifiers → Disowns p name
  | named {i : Import} {imported : Option String} :
    .imports i ∈ p.nodes → .named name imported ∈ i.specifiers → Disowns p name
  | classDecl : .classDecl name ∈ p.nodes → Disowns p name

theorem Import.mem_componentNames {i : Import} {name : String} :
    name ∈ i.componentNames ↔ isComponentName name = true ∧
      (.default name ∈ i.specifiers ∨ ∃ imported, .named name imported ∈ i.specifiers) := by
  rw [componentNames, List.mem_filter, and_comm, List.mem_filterMap]
  refine and_congr_right fun _ => ⟨?_, ?_⟩
  · rintro ⟨s, hs, hname⟩
    cases s with
    | default binding => exact .inl (Option.some.inj hname ▸ hs)
    | named binding imported => exact .inr ⟨imported, Option.some.inj hname ▸ hs⟩
    | star binding => cases hname
  · rintro (hs | ⟨imported, hs⟩)
    · exact ⟨_, hs, rfl⟩
    · exact ⟨_, hs, rfl⟩

theorem Program.mem_ignoredComponents {p : Program} {name : String} :
    name ∈ p.ignoredComponents ↔ isComponentName name = true ∧ p.Disowns name := by
  rw [ignoredComponents, List.mem_flatMap]
  constructor
  · rintro ⟨node, hnode, hname⟩
    split at hname
    · obtain ⟨hcomponent, hdefault | ⟨imported, hnamed⟩⟩ := Import.mem_componentNames.1 hname
      · exact ⟨hcomponent, .default hnode hdefault⟩
      · exact ⟨hcomponent, .named hnode hnamed⟩
    · split at hname
      · rename_i hcomponent
        obtain rfl := List.mem_singleton.1 hname
        exact ⟨hcomponent, .classDecl hnode⟩
      · simp at hname
    · simp at hname
  · rintro ⟨hcomponent, hi | hi | hclass⟩
    · rename_i hdefault
      exact ⟨_, hi, Import.mem_componentNames.2 ⟨hcomponent, .inl hdefault⟩⟩
    · rename_i hnamed
      exact ⟨_, hi, Import.mem_componentNames.2 ⟨hcomponent, .inr ⟨_, hnamed⟩⟩⟩
    · exact ⟨_, hclass, by simp [hcomponent]⟩

/-! ## Hooks by their name -/

/-- Calls of a function or of a member by its name. -/
inductive Expr.CallsNamed (name : String) : Expr → Prop
  | byName (args : List Argument) (optional : Bool) :
    CallsNamed name (.call (.ident name) args optional)
  | byMember (object : Expr) (chained : Bool) (args : List Argument) (optional : Bool) :
    CallsNamed name (.call (.member object (.ident name) chained) args optional)

/-- Statements that are such a call or initialise a variable with one. -/
inductive Stmt.CallsNamed (name : String) : Stmt → Prop
  | expr {e : Expr} : e.CallsNamed name → CallsNamed name (.expr e)
  | var {kind : VarKind} {declarators : List Declarator} {d : Declarator} {e : Expr} :
    d ∈ declarators → d.init = some e → e.CallsNamed name →
      CallsNamed name (.decl (.var kind declarators))

theorem Expr.callsNamed_iff {e : Expr} {name : String} :
    e.CallsNamed name ↔ e.calledName = some name := by
  constructor
  · rintro (_ | _) <;> rfl
  · intro h
    unfold calledName at h
    split at h <;> cases h
    · exact .byName ..
    · exact .byMember ..

theorem Expr.calledHook_eq_some_iff {e : Expr} {name : String} :
    e.calledHook = some name ↔ isHookName name = true ∧ e.CallsNamed name := by
  rw [calledHook, Option.filter_eq_some_iff, ← callsNamed_iff, and_comm, Bool.or_eq_true,
    List.contains_iff_mem]
  exact and_congr_left fun _ => or_iff_right_of_imp isHookName_of_builtin

theorem Stmt.mem_hooks {s : Stmt} {name : String} :
    name ∈ s.hooks ↔ isHookName name = true ∧ s.CallsNamed name := by
  constructor
  · intro h
    unfold hooks at h
    split at h
    · obtain ⟨hname, hcall⟩ := Expr.calledHook_eq_some_iff.1 (Option.mem_toList.1 h)
      exact ⟨hname, .expr hcall⟩
    · obtain ⟨d, hd, hmem⟩ := List.mem_flatMap.1 h
      obtain ⟨e, hinit, hhook⟩ := Option.bind_eq_some_iff.1 (Option.mem_toList.1 hmem)
      obtain ⟨hname, hcall⟩ := Expr.calledHook_eq_some_iff.1 hhook
      exact ⟨hname, .var hd hinit hcall⟩
    · simp at h
  · rintro ⟨hname, hcall | ⟨hd, hinit, hcall⟩⟩
    · exact Option.mem_toList.2 (Expr.calledHook_eq_some_iff.2 ⟨hname, hcall⟩)
    · refine List.mem_flatMap.2 ⟨_, hd, Option.mem_toList.2 ?_⟩
      rw [hinit]
      exact Expr.calledHook_eq_some_iff.2 ⟨hname, hcall⟩

/-- A statement of the block calls a hook that the framework does not provide. -/
def CallsCustomHook (stmts : List Stmt) : Prop :=
  ∃ s ∈ stmts, ∃ name, s.CallsNamed name ∧ isHookName name = true ∧ name ∉ builtinHooks

theorem any_blockHooks_iff (stmts : List Stmt) :
    ((blockHooks stmts).any fun hook => !builtinHooks.contains hook) = true ↔
      CallsCustomHook stmts := by
  rw [List.any_eq_true]
  constructor
  · rintro ⟨name, hmem, hcustom⟩
    obtain ⟨s, hs, hhook⟩ := List.mem_flatMap.1 hmem
    obtain ⟨hname, hcall⟩ := Stmt.mem_hooks.1 hhook
    exact ⟨s, hs, name, hcall, hname, by simpa using hcustom⟩
  · rintro ⟨s, hs, name, hcall, hname, hcustom⟩
    exact ⟨name, List.mem_flatMap.2 ⟨s, hs, Stmt.mem_hooks.2 ⟨hname, hcall⟩⟩, by simpa using hcustom⟩

namespace Refresh

/-! ## Registrations in the code -/

/-- The name in `global.$RefreshReg$(Name, "Name");`. -/
def registeredName? : Stmt → Option String
  | .expr (.call (.member (.ident "global") (.ident "$RefreshReg$") false)
      [⟨false, .ident name⟩, ⟨false, .lit (.string text)⟩] false) =>
    if text.value = name then some name else none
  | _ => none

/-- The parts of `__s(Name, "id", custom);`. -/
structure Signature where
  name : String
  id : String
  custom : Bool
deriving DecidableEq, Repr

/-- The signature that a statement gives to the runtime. -/
def signature? : Stmt → Option Signature
  | .expr (.call (.ident "__s")
      [⟨false, .ident name⟩, ⟨false, .lit (.string id)⟩, ⟨false, .lit (.bool custom)⟩] false) =>
    some ⟨name, id.value, custom⟩
  | _ => none

/-- A component that is registered; with a signature it is known whether it calls custom hooks. -/
structure Registration where
  name : String
  custom : Option Bool
deriving DecidableEq, Repr

/-- The signature of a registered component in a module. -/
def Registration.signature? (moduleId : String) (r : Registration) : Option Signature :=
  r.custom.map fun custom => ⟨r.name, moduleId ++ ":" ++ r.name, custom⟩

/-- What is registered for a component. -/
def Component.registration (c : Component) : Registration :=
  ⟨c.name, if c.hasHooks then some c.hasCustomHooks else none⟩

theorem registeredName?_register (moduleId : String) (c : Component) :
    (c.register moduleId).filterMap registeredName? = [c.name] := by
  have hregister : registeredName? (.expr (.apply registerRef [.ident c.name, .ofString c.name])) =
      some c.name := by
    change (if c.name = c.name then some c.name else none) = _
    rw [if_pos rfl]
  unfold Component.register
  rw [List.filterMap_append, List.filterMap_cons, hregister]
  cases c.hasHooks <;> rfl

theorem signature?_register (moduleId : String) (c : Component) :
    (c.register moduleId).filterMap signature? = (c.registration.signature? moduleId).toList := by
  unfold Component.register Component.registration
  cases c.hasHooks <;> rfl

/-- What is read from the statements behind a module comes from the registrations of its components,
if nothing is read from those that restore the runtime. -/
theorem filterMap_epilogue {α : Type} {read : Stmt → Option α}
    (hrestore : [Stmt.assign registerRef (.ident "__prevRefreshReg"),
      .assign signatureRef (.ident "__prevRefreshSig")].filterMap read = [])
    (moduleId : String) (components : List Component) :
    (epilogue moduleId components).filterMap read =
      components.flatMap fun c => (c.register moduleId).filterMap read := by
  rw [epilogue, List.filterMap_append, hrestore, List.append_nil, List.filterMap_flatMap]

theorem registeredName?_epilogue (moduleId : String) (components : List Component) :
    (epilogue moduleId components).filterMap registeredName? = components.map Component.name := by
  rw [filterMap_epilogue rfl]
  simp only [registeredName?_register]
  exact List.flatMap_pure_eq_map Component.name components

theorem signature?_epilogue (moduleId : String) (components : List Component) :
    (epilogue moduleId components).filterMap signature? =
      components.filterMap fun c => c.registration.signature? moduleId := by
  rw [filterMap_epilogue rfl, List.filterMap_eq_flatMap_toList]
  simp only [signature?_register]

/-- The signing function is declared in front of the module if a component has hooks. -/
theorem prologue_declares_iff (components : List Component) :
    (∃ d, Stmt.decl d ∈ prologue components ∧ "__s" ∈ d.boundNames) ↔
      components.any Component.hasHooks = true := by
  unfold prologue
  constructor
  · rintro ⟨d, hd, hname⟩
    by_contra hnone
    rw [if_neg hnone] at hd
    simp only [Stmt.declare, Stmt.assign, List.append_nil, List.mem_cons, Stmt.decl.injEq,
      reduceCtorEq, List.not_mem_nil, or_false] at hd
    rcases hd with rfl | rfl <;> simp [Decl.boundNames, Pattern.boundNames] at hname
  · intro hany
    rw [if_pos hany]
    refine ⟨.var .var [⟨.ident "__s", some (.apply signatureRef [])⟩], ?_, ?_⟩
    · simp [Stmt.declare]
    · simp [Decl.boundNames, Pattern.boundNames]

/-! ## Items and their registrations -/

/-- What becomes of an item of a module. -/
inductive Treated where
  /-- The item stays, and nothing is registered for it. -/
  | kept (item : Item)
  /-- The item stays, and the component it defines is registered. -/
  | registered (item : Item) (name : String) (shape : item.MayDefine name)
  /-- One block of the item is signed, and the component it defines is registered with a
  signature. -/
  | signed (f : List Stmt → Item) (stmts : List Stmt) (name : String) (custom : Bool)
      (opens : OpenBlock f) (shape : (f stmts).MayDefine name)
      (hooks : ∃ s ∈ stmts, s.CallsHook) (custom_iff : custom = true ↔ CallsCustomHook stmts)

namespace Treated

/-- The item before. -/
def source : Treated → Item
  | kept item => item
  | registered item .. => item
  | signed f stmts .. => f stmts

/-- The item after. -/
def result : Treated → Item
  | kept item => item
  | registered item .. => item
  | signed f stmts .. => f (signatureCall :: stmts)

/-- What is registered for the item. -/
def registration? : Treated → Option Registration
  | kept _ => none
  | registered _ name _ => some ⟨name, none⟩
  | signed _ _ name custom .. => some ⟨name, some custom⟩

/-- Whether a signature was put into the item. -/
def isSigned : Treated → Bool
  | signed .. => true
  | _ => false

theorem isSigned_eq (moduleId : String) (t : Treated) :
    t.isSigned = (t.registration?.bind (Registration.signature? moduleId)).isSome := by
  cases t <;> rfl

end Treated

/-- An item that is registered is one of the treated items. -/
theorem exists_treated {item : Item} {name : String} (hshape : item.MayDefine name) :
    ∃ t : Treated, t.source = item ∧ t.result = item.sign.1 ∧
      t.registration? = some (Component.mk name item.sign.2.hooks).registration := by
  rcases item.sign_spec with hsame | ⟨f, stmts, hf, rfl, hsign⟩
  · exact ⟨.registered item name hshape, rfl, by rw [hsame]; rfl, by rw [hsame]; rfl⟩
  · rw [hsign]
    by_cases hhooks : (blockHooks stmts).isEmpty = true
    · refine ⟨.registered (f stmts) name hshape, rfl, ?_, ?_⟩
      · simp [Treated.result, signBlock, hhooks]
      · simp [Treated.registration?, Component.registration, Component.hasHooks, BodyScan.ofBlock,
          hhooks]
    · have hcalls : ∃ s ∈ stmts, s.CallsHook :=
        not_not.1 (mt (isEmpty_blockHooks_iff stmts).2 hhooks)
      refine ⟨.signed f stmts name _ hf hshape hcalls (any_blockHooks_iff stmts), rfl, ?_, ?_⟩
      · simp [Treated.result, signBlock, hhooks]
      · simp [Treated.registration?, Component.registration, Component.hasHooks,
          Component.hasCustomHooks, BodyScan.ofBlock, hhooks]

/-! ## One item after the other -/

/-- An item is kept as it is, because it is no candidate for a new name or the block that is looked
at is empty; or it is signed and registered, and its name is skipped from there on. -/
theorem signAll_cons (skip : List String) (item : Item) (rest : List Item) :
    signAll skip (item :: rest) = (item :: (signAll skip rest).1, (signAll skip rest).2) ∧
        (∀ name, item.MayDefine name → isComponentName name = true → name ∉ skip →
          item.sign.2.isEmpty = true) ∨
      ∃ name, item.MayDefine name ∧ isComponentName name = true ∧ name ∉ skip ∧
        signAll skip (item :: rest) =
          (item.sign.1 :: (signAll (name :: skip) rest).1,
            ⟨name, item.sign.2.hooks⟩ :: (signAll (name :: skip) rest).2) := by
  by_cases hcandidate : ∃ name, item.MayDefine name ∧ isComponentName name = true ∧ name ∉ skip
  · obtain ⟨name, hshape, hname, hskip⟩ := hcandidate
    have hstep := signAll_candidate hname (Item.mayDefine_iff.1 hshape) hskip rest
    by_cases hblock : item.sign.2.isEmpty = true
    · -- an empty block is not signed
      refine .inl ⟨?_, fun _ _ _ _ => hblock⟩
      rw [hstep, item.sign_frame.2 hblock]
      simp [Component.ofScan, hblock]
    · refine .inr ⟨name, hshape, hname, hskip, ?_⟩
      rw [hstep]
      simp [Component.ofScan, hblock]
  · refine .inl ⟨?_, fun name hshape hname hskip => absurd ⟨name, hshape, hname, hskip⟩ hcandidate⟩
    have hnone : (item.candidateName.filter fun n => isComponentName n && !skip.contains n) =
        none := by
      refine Option.filter_eq_none_iff.2 fun name hname hcounted => hcandidate ⟨name, ?_⟩
      simp only [Bool.and_eq_true, Bool.not_eq_true', List.contains_eq_mem,
        decide_eq_false_iff_not] at hcounted
      exact ⟨Item.mayDefine_iff.2 hname, hcounted⟩
    rw [signAll, hnone]

/-- The items of a module, signed and registered one after the other. -/
theorem signAll_treats (skip : List String) (items : List Item) :
    ∃ treated : List Treated, treated.map Treated.source = items ∧
      treated.map Treated.result = (signAll skip items).1 ∧
      treated.filterMap Treated.registration? =
        (signAll skip items).2.map Component.registration := by
  induction items generalizing skip with
  | nil => exact ⟨[], rfl, rfl, rfl⟩
  | cons item rest ih =>
    rcases signAll_cons skip item rest with ⟨hstep, -⟩ | ⟨name, hshape, -, -, hstep⟩
    · obtain ⟨treated, hsource, hresult, hregistered⟩ := ih skip
      rw [hstep]
      exact ⟨.kept item :: treated, congrArg (item :: ·) hsource, congrArg (item :: ·) hresult,
        hregistered⟩
    · obtain ⟨treated, hsource, hresult, hregistered⟩ := ih (name :: skip)
      obtain ⟨t, htsource, htresult, htregistered⟩ := exists_treated hshape
      rw [hstep]
      exact ⟨t :: treated, by simp [hsource, htsource], by simp [hresult, htresult],
        by simp [hregistered, htregistered]⟩

/-- A name is registered once, if it is that of a component and not one of those to skip. -/
theorem signAll_names (skip : List String) (items : List Item) :
    ((signAll skip items).2.map Component.name).Nodup ∧
      ∀ name ∈ (signAll skip items).2.map Component.name,
        isComponentName name = true ∧ name ∉ skip := by
  induction items generalizing skip with
  | nil => simp [signAll]
  | cons item rest ih =>
    rcases signAll_cons skip item rest with ⟨hstep, -⟩ | ⟨name, -, hname, hskip, hstep⟩
    · rw [hstep]
      exact ih skip
    · obtain ⟨hnodup, hothers⟩ := ih (name :: skip)
      rw [hstep, List.map_cons, List.nodup_cons, List.forall_mem_cons]
      refine ⟨⟨fun hmem => (hothers name hmem).2 (List.mem_cons_self ..), hnodup⟩, ⟨hname, hskip⟩,
        fun other hother => ?_⟩
      obtain ⟨hcomponent, hfree⟩ := hothers other hother
      exact ⟨hcomponent, fun hmem => hfree (List.mem_cons_of_mem _ hmem)⟩

/-- The name of every candidate is registered that is not to be skipped, unless the block that is
looked at is empty. -/
theorem mem_signAll {skip : List String} {items : List Item} {item : Item} {name : String}
    (hitem : item ∈ items) (hshape : item.MayDefine name) (hname : isComponentName name = true)
    (hskip : name ∉ skip) (hblock : item.sign.2.isEmpty = false) :
    name ∈ (signAll skip items).2.map Component.name := by
  induction items generalizing skip with
  | nil => simp at hitem
  | cons first rest ih =>
    rcases signAll_cons skip first rest with ⟨hstep, hempty⟩ | ⟨other, hother, -, -, hstep⟩
    · rw [hstep]
      rcases List.mem_cons.1 hitem with rfl | hrest
      · simp [hempty name hshape hname hskip] at hblock
      · exact ih hrest hskip
    · rw [hstep, List.map_cons, List.mem_cons]
      by_cases hsame : name = other
      · exact .inl hsame
      · refine .inr (ih ?_ (by simp [hsame, hskip]))
        -- an item defines one name only
        refine (List.mem_cons.1 hitem).resolve_left fun heq => hsame ?_
        rw [Item.mayDefine_iff] at hshape hother
        exact Option.some.inj (hshape.symm.trans (heq ▸ hother))

/-! ## The whole module -/

/-- The statements in front of a module and behind it are in step with what was done to its
items. -/
structure Balanced (moduleId : String) (p : Program) (before after : List Stmt)
    (treated : List Treated) : Prop where
  items : treated.map Treated.source = p.body
  /-- The names are registered in the order of the items that define them. -/
  registered : after.filterMap registeredName? =
    treated.filterMap fun t => t.registration?.map Registration.name
  distinct : (after.filterMap registeredName?).Nodup
  genuine : ∀ name ∈ after.filterMap registeredName?,
    isComponentName name = true ∧ ¬ p.Disowns name
  complete : ∀ item ∈ p.body, ∀ name, item.MayDefine name → isComponentName name = true →
    ¬ p.Disowns name → item.sign.2.isEmpty = false → name ∈ after.filterMap registeredName?
  /-- The signatures are those of the signed items. -/
  signatures : after.filterMap signature? =
    treated.filterMap fun t => t.registration?.bind (Registration.signature? moduleId)
  insertions : treated.countP Treated.isSigned = (after.filterMap signature?).length
  declares : (∃ d, Stmt.decl d ∈ before ∧ "__s" ∈ d.boundNames) ↔
    0 < treated.countP Treated.isSigned

theorem Component.isSome_signature? (moduleId : String) (c : Component) :
    (c.registration.signature? moduleId).isSome = c.hasHooks := by
  cases hhooks : c.hasHooks <;> simp [registration, Registration.signature?, hhooks]

theorem any_hasHooks_iff (moduleId : String) (components : List Component) :
    components.any Component.hasHooks = true ↔
      0 < (components.filterMap fun c => c.registration.signature? moduleId).length := by
  rw [List.length_filterMap_eq_countP, List.countP_pos_iff, List.any_eq_true]
  simp only [Component.isSome_signature?]

/-- Statements that register the components of a module, and declare the signing function if one of
them has hooks, are in step with its items. -/
theorem balanced_of_registers (moduleId : String) (p : Program) {before after : List Stmt}
    {treated : List Treated} (hsource : treated.map Treated.source = p.body)
    (hregistered : treated.filterMap Treated.registration? =
      (signAll p.ignoredComponents p.body).2.map Component.registration)
    (hnames : after.filterMap registeredName? =
      (signAll p.ignoredComponents p.body).2.map Component.name)
    (hsignatures : after.filterMap signature? =
      (signAll p.ignoredComponents p.body).2.filterMap fun c => c.registration.signature? moduleId)
    (hdeclares : (∃ d, Stmt.decl d ∈ before ∧ "__s" ∈ d.boundNames) ↔
      (signAll p.ignoredComponents p.body).2.any Component.hasHooks = true) :
    Balanced moduleId p before after treated := by
  have hsigned : after.filterMap signature? =
      treated.filterMap fun t => t.registration?.bind (Registration.signature? moduleId) := by
    rw [← List.filterMap_filterMap, hregistered, List.filterMap_map, hsignatures]
    rfl
  -- an item is signed exactly when its registration has a signature
  have hcount : treated.countP Treated.isSigned = (after.filterMap signature?).length := by
    rw [hsigned, List.length_filterMap_eq_countP]
    exact List.countP_congr fun t _ => by rw [t.isSigned_eq moduleId]
  obtain ⟨hnodup, hgenuine⟩ := signAll_names p.ignoredComponents p.body
  refine ⟨hsource, ?_, hnames ▸ hnodup, fun name hname => ?_, ?_, hsigned, hcount, ?_⟩
  · rw [hnames, ← List.map_filterMap, hregistered, List.map_map]
    rfl
  · obtain ⟨hcomponent, hfree⟩ := hgenuine name (hnames ▸ hname)
    exact ⟨hcomponent, fun hother => hfree (Program.mem_ignoredComponents.2 ⟨hcomponent, hother⟩)⟩
  · intro item hitem name hshape hname hown hblock
    rw [hnames]
    exact mem_signAll hitem hshape hname
      (fun hmem => hown (Program.mem_ignoredComponents.1 hmem).2) hblock
  · rw [hdeclares, any_hasHooks_iff moduleId, hcount, hsignatures]

/-- Registrations are balanced: what fast refresh puts around the items of a module registers, in
order and once each, the components that the items define, with one signature for each item that was
signed; and the signing function is declared if there are any. -/
theorem instrument_balanced (moduleId : String) (p : Program) :
    ∃ (before after : List Stmt) (treated : List Treated),
      (instrument moduleId p).body =
        before.map Item.stmt ++ treated.map Treated.result ++ after.map Item.stmt ∧
      Balanced moduleId p before after treated := by
  obtain ⟨treated, hsource, hresult, hregistered⟩ := signAll_treats p.ignoredComponents p.body
  rw [instrument_eq, registering]
  split
  · rename_i hnone
    rw [List.isEmpty_iff] at hnone
    refine ⟨[], [], treated, by simp [hresult], ?_⟩
    exact balanced_of_registers moduleId p hsource hregistered (by simp [hnone]) (by simp [hnone])
      (by simp [hnone])
  · refine ⟨_, _, treated, by rw [hresult], ?_⟩
    exact balanced_of_registers moduleId p hsource hregistered (registeredName?_epilogue ..)
      (signature?_epilogue ..) (prologue_declares_iff _)

end Refresh

end TsxCompiler
