import TsxCompiler.Pass.Edit
import TsxCompiler.Proofs.ModuleScope

/-!
# Reads of a default

A module that was not written with exports has no default of its own, and a helper supplies one when
such a module is imported by default. The helper is chosen by how the import is written: one without a
default binding goes without it, and so does an export from another module. A default that is asked for
by its name there, as in `import { default as X }`, is read from the module as it is, and need not be
what a default import binds (`toCommonJs_defaultReads`).
-/

namespace TsxCompiler

/-! ## Members of required modules -/

/-- A member that is read from a required module, and the helper that the module went through. -/
structure MemberRead where
  source : String
  via : Option Helper
  member : String
deriving DecidableEq, Repr

/-- The helper that an expression is, written out in the module or required with it. -/
def Expr.helper? : Expr → Option Helper
  | .ident name | .member (.ident name) (.ident "_") false => Helper.all.find? (·.name == name)
  | _ => none

/-- The source in `require(source)`, and the helper around it. -/
def Expr.required? : Expr → Option (String × Option Helper)
  | .call (.ident "require") [⟨false, .lit (.string source)⟩] false => some (source.value, none)
  | .call callee [⟨false, .call (.ident "require") [⟨false, .lit (.string source)⟩] false⟩] false =>
    callee.helper?.map fun helper => (source.value, some helper)
  | _ => none

/-- What an expression reads from a required module, by the constants of the module it is in. -/
def readOf (body : List Stmt) : Expr → Option MemberRead
  | .member (.ident binding) (.ident member) false =>
    ((constantIn body binding).bind Expr.required?).map fun r => ⟨r.1, r.2, member⟩
  | _ => none

/-- What the value of a constant reads from a required module. -/
def constantRead (body : List Stmt) (name : String) : Option MemberRead :=
  (constantIn body name).bind (readOf body)

theorem required?_interop (isExternal : Bool) (helper : Option Helper) (source : String) :
    (interop isExternal helper (requireCall source)).required? = some (source, helper) := by
  cases helper with
  | none => rfl
  | some helper => cases isExternal <;> cases helper <;> rfl

/-! ## Values of modules -/

/-- What a module gives to those that require it. -/
structure Required (Value : Type) where
  /-- The module as a value. -/
  whole : Value
  /-- Whether it is marked as one that was written with exports. -/
  isEsModule : Bool
  member : String → Option Value

/-- What is read from a required module under a name. The helpers for imports hand on a module that
is marked; any other value they make the default of a new object, which in one of them has the members
of the value too. -/
def Required.read {Value : Type} (r : Required Value) (via : Option Helper) (name : String) :
    Option Value :=
  match via with
  | none | some .exportStar => r.member name
  | some .interopDefault =>
    if r.isEsModule then r.member name else if name = "default" then some r.whole else none
  | some .interopWildcard =>
    if r.isEsModule then r.member name else if name = "default" then some r.whole else r.member name

/-- The value of a constant that is read from one of the modules around. -/
def importedValue {Value : Type} (modules : String → Required Value) (body : List Stmt)
    (name : String) : Option Value :=
  (constantRead body name).bind fun r => (modules r.source).read r.via r.member

/-- A name stands for what a default import of the source binds, whatever the modules are. -/
def BindsDefault (body : List Stmt) (name source : String) : Prop :=
  ∀ (Value : Type) (modules : String → Required Value),
    importedValue modules body name = (modules source).read (some .interopDefault) "default"

/-- The helpers that supply a default. -/
def Helper.suppliesDefault : Helper → Bool
  | interopDefault | interopWildcard => true
  | exportStar => false

theorem Required.read_default {Value : Type} (r : Required Value) {helper : Helper}
    (h : helper.suppliesDefault = true) :
    r.read (some helper) "default" = r.read (some .interopDefault) "default" := by
  cases helper with
  | interopDefault => rfl
  | interopWildcard => rfl
  | exportStar => cases h

/-- A read of the default binds what a default import does exactly if a helper supplied it: a plain
value that is a module tells the difference. -/
theorem bindsDefault_iff {body : List Stmt} {name source : String} {via : Option Helper}
    (hread : constantRead body name = some ⟨source, via, "default"⟩) :
    BindsDefault body name source ↔ ∃ helper, via = some helper ∧ helper.suppliesDefault = true := by
  constructor
  · intro hbinds
    have hplain := hbinds Unit fun _ => ⟨(), false, fun _ => none⟩
    rw [importedValue, hread] at hplain
    cases via with
    | none => cases hplain
    | some helper =>
      cases helper with
      | exportStar => cases hplain
      | interopDefault => exact ⟨_, rfl, rfl⟩
      | interopWildcard => exact ⟨_, rfl, rfl⟩
  · rintro ⟨helper, rfl, hsupplies⟩ Value modules
    rw [importedValue, hread]
    exact (modules source).read_default hsupplies

/-! ## Statements that read a default -/

/-- A module is required, through a helper or not, and the statement for a name has its default. -/
def ReadsDefault (isExternal : Bool) (body : List Stmt) (source : String) (via : Option Helper)
    (statement : Expr → Stmt) : Prop :=
  ∃ binding, .declare .const binding (interop isExternal via (requireCall source)) ∈ body ∧
    statement (.dot (.ident binding) "default") ∈ body

/-- Where no name is bound twice, a constant has the default that it is declared with. -/
theorem ReadsDefault.constantRead {isExternal : Bool} {body : List Stmt} {source name : String}
    {via : Option Helper} (h : ReadsDefault isExternal body source via (.declare .const name))
    (hnodup : (body.flatMap Stmt.boundNames).Nodup) :
    constantRead body name = some ⟨source, via, "default"⟩ := by
  obtain ⟨binding, hrequired, hread⟩ := h
  have hbinding := constantIn_of_mem hnodup hrequired (constant?_declare _ _)
  have hname := constantIn_of_mem hnodup hread (constant?_declare _ _)
  simp [TsxCompiler.constantRead, hname, readOf, Expr.dot, hbinding, required?_interop]

/-- A default that is imported is read from the module, through the helper that the import asks
for. -/
theorem Import.readsDefault {body : List Stmt} {i : Import} {isExternal : Bool}
    {taken : List String} (hshape : ImportShape i.specifiers) (ht : i.typeOnly = false)
    (hbody : (i.link isExternal taken).1.body ⊆ body) {s : ImportSpecifier} (hs : s ∈ i.specifiers)
    (hlink : s.link i.source.value = .member i.source.value "default") :
    ReadsDefault isExternal body i.source.value (ImportClause.ofSpecifiers i.specifiers).helper?
      (.declare .const s.binding) := by
  rw [link_body ht (List.ne_nil_of_mem hs), List.cons_subset] at hbody
  obtain ⟨hrequired, hmembers⟩ := hbody
  have hclause := mem_clause_of_shape hshape s hs
  refine ⟨i.moduleName taken, hrequired, hmembers ?_⟩
  cases s with
  | default binding => simp [memberConstants, ImportSpecifier.binding, hclause]
  | star binding => cases hlink
  | named binding imported =>
    have himported : imported.getD binding = "default" := (Link.member.inj hlink).2
    refine List.mem_append_right _ (List.mem_map.2 ⟨(binding, imported), hclause, ?_⟩)
    rw [himported]
    rfl

/-- An import from which members are taken goes through a helper exactly if it has a default
binding. -/
theorem ImportShape.helper?_iff {specifiers : List ImportSpecifier} (hshape : ImportShape specifiers)
    {s : ImportSpecifier} (hs : s ∈ specifiers) {source member : String}
    (hlink : s.link source = .member source member) :
    (∃ helper, (ImportClause.ofSpecifiers specifiers).helper? = some helper ∧
        helper.suppliesDefault = true) ↔ ∃ binding, .default binding ∈ specifiers := by
  cases hshape with
  | bare => simp at hs
  | default binding =>
    exact iff_of_true ⟨.interopDefault, rfl, rfl⟩ ⟨binding, List.mem_cons_self ..⟩
  | star binding =>
    obtain rfl := List.mem_singleton.1 hs
    cases hlink
  | named hne =>
    rw [clause_named]
    refine iff_of_false ?_ ?_
    · rintro ⟨helper, hhelper, -⟩
      cases hhelper
    · rintro ⟨binding, hmem⟩
      simp at hmem
  | defaultStar binding all =>
    exact iff_of_true ⟨.interopWildcard, rfl, rfl⟩ ⟨binding, List.mem_cons_self ..⟩
  | defaultNamed binding hne =>
    rw [clause_defaultNamed]
    refine iff_of_true ⟨.interopWildcard, ?_, rfl⟩ ⟨binding, List.mem_cons_self ..⟩
    simp [ImportClause.helper?, hne]

/-- A default that is exported from another module is read from the module as it is. -/
theorem Export.readsDefault {body : List Stmt} {specifiers : List ExportSpecifier}
    {source : StringLit} {isExternal : Bool} {taken : List String}
    (hbody : ((Export.list specifiers (some source)).link isExternal taken).1.body ⊆ body)
    {s : ExportSpecifier} (hs : s ∈ specifiers) (hdefault : s.binding = "default") :
    ReadsDefault isExternal body source.value none (exportStmt s.exportedName) := by
  rw [link, concat_exportNow] at hbody
  refine ⟨freshName taken (bindingBase source.value), hbody (List.mem_cons_self ..), hbody ?_⟩
  refine List.mem_cons_of_mem _ (List.mem_map.2 ⟨s, hs, ?_⟩)
  rw [hdefault]

/-! ## Modules -/

section Lowered

variable {d : Dialect} {text : String} {p : Program} {isExternal : Bool} {m : CommonJsModule}
  (h : p.toCommonJs isExternal = .ok m)
include h

/-- The statements of each item are part of the lowered module. -/
theorem link_subset_body {item : Item} (hitem : item ∈ p.body) :
    ∃ taken, (item.link isExternal taken).1.body ⊆ m.body := by
  obtain ⟨taken, hlink⟩ : ∃ taken, (item.link isExternal taken).1.body ⊆
      (Item.linkAll isExternal p.topLevelNames p.body).body := link_subset_linkAll hitem _
  rw [body_of_toCommonJs h]
  exact ⟨taken, fun s hs => List.mem_append_left _ (hlink hs)⟩

theorem nodup_boundNames_of_toCommonJs (hparse : Program.parse d text = .ok p)
    (hnames : p.topLevelNames.Nodup) : (m.body.flatMap Stmt.boundNames).Nodup := by
  rw [body_of_toCommonJs h, List.flatMap_append, boundNames_exportStmts, List.append_nil]
  obtain ⟨taken, hbinds⟩ : ∃ taken, BindsOwn p.topLevelNames taken p.topLevelNames
      (Item.linkAll isExternal p.topLevelNames p.body).body :=
    linkAll_bindsOwn (fun i hi => importShape_of_parse hparse hi) hnames fun _ hn => hn
  exact hbinds.nodup

end Lowered

/-- How a lowered module reads the defaults of other modules. An imported default goes through a
helper that supplies one exactly if the import has a default binding; and then, where names are
distinct, it binds what a default import binds, whatever the modules are, and not otherwise. A default
that is exported from another module never goes through a helper. -/
theorem toCommonJs_defaultReads {d : Dialect} {text : String} {p : Program} {isExternal : Bool}
    {m : CommonJsModule} (hparse : Program.parse d text = .ok p)
    (h : p.toCommonJs isExternal = .ok m) :
    (∀ i, .imports i ∈ p.body → i.typeOnly = false → ∀ s ∈ i.specifiers,
      s.link i.source.value = .member i.source.value "default" →
      (∃ via, ReadsDefault isExternal m.body i.source.value via (.declare .const s.binding) ∧
        ((∃ helper, via = some helper ∧ helper.suppliesDefault = true) ↔
          ∃ binding, .default binding ∈ i.specifiers)) ∧
      (p.topLevelNames.Nodup → (BindsDefault m.body s.binding i.source.value ↔
        ∃ binding, .default binding ∈ i.specifiers))) ∧
    ∀ specifiers source, .exports (.list specifiers (some source)) ∈ p.body →
      ∀ s ∈ specifiers, s.binding = "default" →
        ReadsDefault isExternal m.body source.value none (exportStmt s.exportedName) := by
  refine ⟨fun i hi ht s hs hlink => ?_, fun specifiers source hitem s hs hdefault => ?_⟩
  · have hshape := importShape_of_parse hparse hi
    have hhelper := hshape.helper?_iff hs hlink
    obtain ⟨taken, hbody⟩ := link_subset_body h hi
    have hread := Import.readsDefault hshape ht hbody hs hlink
    refine ⟨⟨_, hread, hhelper⟩, fun hnames => ?_⟩
    have hnodup := nodup_boundNames_of_toCommonJs h hparse hnames
    rw [bindsDefault_iff (hread.constantRead hnodup), hhelper]
  · obtain ⟨taken, hbody⟩ := link_subset_body h hitem
    exact Export.readsDefault hbody hs hdefault

theorem mem_body_of_import? {p : Program} {i : Import} (h : i ∈ p.body.filterMap Item.import?) :
    .imports i ∈ p.body := by
  obtain ⟨item, hitem, himport⟩ := List.mem_filterMap.1 h
  cases item <;> cases himport
  exact hitem

/-- A default that is imported twice, by default and by its name. -/
def twiceImported : String :=
  "import x from 'm';\nimport \x7b default as y, z \x7d from 'm';\n"

theorem toCommonJs_defaultReads_twiceImported :
    ∃ p m, Program.parse .tsx twiceImported = .ok p ∧ p.toCommonJs true = .ok m ∧
      BindsDefault m.body "x" "m" ∧ ¬ BindsDefault m.body "y" "m" := by
  have hrun : ((Program.parse .tsx twiceImported).toOption.bind fun p =>
      (p.toCommonJs true).toOption.map fun _ => (p.topLevelNames, p.body.filterMap Item.import?)) =
      some (["x", "y", "z"], [⟨[.default "x"], ⟨"m", some "'m'"⟩, false⟩,
        ⟨[.named "y" (some "default"), .named "z" none], ⟨"m", some "'m'"⟩, false⟩]) := by
    decide +kernel
  obtain ⟨p, m, hparse, hlower, hresult⟩ := exists_of_lowered hrun
  simp only [Prod.mk.injEq] at hresult
  obtain ⟨hnames, himports⟩ := hresult
  have hreads := (toCommonJs_defaultReads hparse hlower).1
  have hnodup : p.topLevelNames.Nodup := by simp [hnames]
  refine ⟨p, m, hparse, hlower, ?_, fun hbinds => ?_⟩
  · have hx := hreads _ (mem_body_of_import? (himports ▸ List.mem_cons_self ..)) rfl (.default "x")
      (List.mem_cons_self ..) rfl
    exact (hx.2 hnodup).2 ⟨"x", List.mem_cons_self ..⟩
  · have hy := hreads _
      (mem_body_of_import? (himports ▸ List.mem_cons_of_mem _ (List.mem_cons_self ..))) rfl
      (.named "y" (some "default")) (List.mem_cons_self ..) rfl
    obtain ⟨binding, hdefault⟩ := (hy.2 hnodup).1 hbinds
    simp at hdefault

/-- What one would expect: every default that is read from another module went through a helper that
supplies one. -/
structure DefaultsSupplied (isExternal : Bool) (p : Program) (body : List Stmt) : Prop where
  imports : ∀ i, .imports i ∈ p.body → i.typeOnly = false → ∀ s ∈ i.specifiers,
    s.link i.source.value = .member i.source.value "default" →
    ∃ helper, helper.suppliesDefault = true ∧
      ReadsDefault isExternal body i.source.value (some helper) (.declare .const s.binding)
  exports : ∀ specifiers source, .exports (.list specifiers (some source)) ∈ p.body →
    ∀ s ∈ specifiers, s.binding = "default" → ∃ helper, helper.suppliesDefault = true ∧
      ReadsDefault isExternal body source.value (some helper) (exportStmt s.exportedName)

/-- A default that is imported by its name alone is read from the module as it is. -/
theorem not_defaultsSupplied :
    ¬ ∀ (d : Dialect) (text : String) (p : Program) (isExternal : Bool) (m : CommonJsModule),
      Program.parse d text = .ok p → p.toCommonJs isExternal = .ok m →
        DefaultsSupplied isExternal p m.body := by
  intro hsupplied
  have hrun : ((Program.parse ⟨.ecmaScript, false⟩
      "import \x7b default as X \x7d from 'm'\nX").toOption.bind fun p =>
      (p.toCommonJs true).toOption.map fun m =>
        (p.topLevelNames, p.body.filterMap Item.import?, constantRead m.body "X")) =
      some (["X"], [⟨[.named "X" (some "default")], ⟨"m", some "'m'"⟩, false⟩],
        some ⟨"m", none, "default"⟩) := by
    decide +kernel
  obtain ⟨p, m, hparse, hlower, hresult⟩ := exists_of_lowered hrun
  simp only [Prod.mk.injEq] at hresult
  obtain ⟨hnames, himports, hplain⟩ := hresult
  obtain ⟨helper, -, hread⟩ := (hsupplied _ _ p true m hparse hlower).imports _
    (mem_body_of_import? (himports ▸ List.mem_cons_self ..)) rfl _ (List.mem_cons_self ..) rfl
  have hvia := hread.constantRead (nodup_boundNames_of_toCommonJs hlower hparse (by simp [hnames]))
  exact absurd (hplain.symm.trans hvia) (by simp)

end TsxCompiler
