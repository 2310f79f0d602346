import Mathlib.Data.List.Forall2
import TsxCompiler.Lower.CommonJs
import TsxCompiler.Proofs.ParsedTrees

/-!
# The link interface of a lowered module

What a module shows to the others: which name of which module each imported name stands for, and
what is exported under each name. Imports and exports are lowered to constants and assignments to
`exports`; followed back through these constants, every name still stands for the same thing.

* `linkOf` — what a constant of a lowered module stands for in another module;
* `Program.exported` — what the exports of a module denote;
* `SameInterface` — a lowered body shows what the module shows.
-/

namespace TsxCompiler

/-! ## Constants of a lowered module -/

/-- The names a statement binds. -/
def Stmt.boundNames : Stmt → List String
  | .decl d => d.boundNames
  | _ => []

/-- The name and the value of `const name = value;`. -/
def Stmt.constant? : Stmt → Option (String × Expr)
  | .decl (.var .const [⟨.ident name, some value⟩]) => some (name, value)
  | _ => none

/-- The value that a name is declared with among the statements of a module. -/
def constantIn (body : List Stmt) (name : String) : Option Expr :=
  (body.filterMap Stmt.constant?).lookup name

/-- Whether an expression is a helper, written out in the module or required with it. -/
def Expr.isHelper : Expr → Bool
  | .ident name | .member (.ident name) (.ident "_") false => Helper.all.any (·.name == name)
  | _ => false

/-- The source in `require(source)`, possibly through a helper. -/
def Expr.requiredSource? : Expr → Option String
  | .call (.ident "require") [⟨false, .lit (.string source)⟩] false => some source.value
  | .call callee [⟨false, .call (.ident "require") [⟨false, .lit (.string source)⟩] false⟩] false =>
    if callee.isHelper then some source.value else none
  | _ => none

/-- What a name stands for in another module: the module itself, or what it exports under a name. -/
inductive Link where
  | whole (source : String)
  | member (source name : String)
deriving DecidableEq, Repr

/-- Follows the constants of a module from a name to another module. -/
def linkOf (body : List Stmt) (name : String) : Option Link :=
  match constantIn body name with
  | some (.member (.ident binding) (.ident member) false) =>
    ((constantIn body binding).bind Expr.requiredSource?).map fun source => .member source member
  | some value => value.requiredSource?.map .whole
  | none => none

/-! ## What a module imports and exports -/

/-- What the name that a specifier binds stands for. -/
def ImportSpecifier.link (source : String) : ImportSpecifier → Link
  | .default _ => .member source "default"
  | .star _ => .whole source
  | .named binding imported => .member source (imported.getD binding)

/-- What is exported: something of the module itself, or what another module exports under a
name. -/
inductive Exported where
  | here (value : Expr)
  | elsewhere (source name : String)

/-- The names of an export with what they denote. -/
def Export.exported : Export → List (String × Exported)
  | .decl d => d.boundNames.map fun name => (name, .here (.ident name))
  | .default (.func (some name) _) => [("default", .here (.ident name))]
  | .default (.func none body) => [("default", .here (.func none body))]
  | .default (.classDef (some name) _) => [("default", .here (.ident name))]
  | .default (.classDef none body) => [("default", .here (.classExpr none body))]
  | .default (.expr value) => [("default", .here value)]
  | .list specifiers none =>
    specifiers.map fun s => (s.exportedName, .here (.ident s.binding))
  | .list specifiers (some source) =>
    specifiers.map fun s => (s.exportedName, .elsewhere source.value s.binding)
  | .all _ => []

def Item.exported : Item → List (String × Exported)
  | .exports d => d.exported
  | _ => []

/-- The exports of a module, in order. -/
def Program.exported (p : Program) : List (String × Exported) :=
  p.body.flatMap Item.exported

def Item.stmt? : Item → Option Stmt
  | .stmt s => some s
  | _ => none

/-- The name and the value of `exports.name = value;`. -/
def Stmt.exportAssignment? : Stmt → Option (String × Expr)
  | .expr (.assign .plain (.member (.ident "exports") (.ident name) false) value) =>
    some (name, value)
  | _ => none

/-- The assignments to `exports` among statements. -/
def exportAssignments (body : List Stmt) : List (String × Expr) :=
  body.filterMap Stmt.exportAssignment?

/-- Whether a value in a lowered module is what an export denotes. -/
def Exported.IsDenotedBy (body : List Stmt) (value : Expr) : Exported → Prop
  | .here e => value = e
  | .elsewhere source name =>
    ∃ binding, value = .dot (.ident binding) name ∧ linkOf body binding = some (.whole source)

/-- Assignments to `exports` with a value for each export, which stands for what the export
denotes. -/
def Realize (body : List Stmt) (assigned : List (String × Expr))
    (exported : List (String × Exported)) : Prop :=
  List.Forall₂ (fun a x => a.1 = x.1 ∧ x.2.IsDenotedBy body a.2) assigned exported

/-- A lowered body shows what the module shows. -/
structure SameInterface (p : Program) (body : List Stmt) : Prop where
  /-- No name is bound twice, so there is one way to follow a name. -/
  bound_once : (body.flatMap Stmt.boundNames).Nodup
  imports : ∀ i, Item.imports i ∈ p.body → i.typeOnly = false →
    ∀ s ∈ i.specifiers, linkOf body s.binding = some (s.link i.source.value)
  /-- No name is exported twice, so there is one export of a name. -/
  exported_once : (p.exported.map Prod.fst).Nodup
  /-- The assignments to `exports` are those that the module has itself and one for each of its
  exports. -/
  exports : ∃ assigned,
    (exportAssignments body).Perm (exportAssignments (p.body.filterMap Item.stmt?) ++ assigned) ∧
    Realize body assigned p.exported

/-! ## Fresh names -/

theorem toString_injective {m n : Nat} (h : toString m = toString n) : m = n := by
  have hdigits : Nat.toDigits 10 m = Nat.toDigits 10 n := by
    rw [← Nat.toList_repr, ← Nat.toList_repr]
    exact congrArg String.toList h
  rw [← Nat.ofDigitChars_toDigits (b := 10) (n := m) (by decide) (by decide), hdigits,
    Nat.ofDigitChars_toDigits (by decide) (by decide)]

theorem candidateName_injective (base : String) {m n : Nat}
    (h : candidateName base m = candidateName base n) : m = n := by
  have hlist := congrArg String.toList h
  cases m with
  | zero =>
    cases n with
    | zero => rfl
    | succ n => simp [candidateName] at hlist
  | succ m =>
    cases n with
    | zero => simp [candidateName] at hlist
    | succ n =>
      simp only [candidateName, String.toList_append, List.append_cancel_left_eq,
        String.toList_inj] at hlist
      exact toString_injective hlist

/-- There are more candidates than taken names, so one of them is free. -/
theorem freshName_not_mem (taken : List String) (base : String) :
    freshName taken base ∉ taken := by
  have hnodup : ((List.range (taken.length + 1)).map (candidateName base)).Nodup := by
    rw [List.nodup_iff_pairwise_ne, List.pairwise_map]
    exact List.nodup_range.imp fun hne heq => hne (candidateName_injective base heq)
  unfold freshName
  cases hfind : ((List.range (taken.length + 1)).map (candidateName base)).find?
      fun name => !taken.contains name with
  | some name =>
    have hname := List.find?_some hfind
    simpa using hname
  | none =>
    have hsubset : (List.range (taken.length + 1)).map (candidateName base) ⊆ taken := by
      intro name hname
      simpa using List.find?_eq_none.1 hfind name hname
    have hlength := hnodup.length_le_of_subset hsubset
    rw [List.length_map, List.length_range] at hlength
    omega

/-! ## Following constants -/

theorem boundNames_of_constant {s : Stmt} {name : String} {value : Expr}
    (h : s.constant? = some (name, value)) : s.boundNames = [name] := by
  unfold Stmt.constant? at h
  split at h
  · simp only [Option.some.injEq, Prod.mk.injEq] at h
    simp [Stmt.boundNames, Decl.boundNames, Pattern.boundNames, h.1]
  · cases h

/-- Where no name is bound twice, a constant is found by its name. -/
theorem constantIn_of_mem {body : List Stmt} {s : Stmt} {name : String} {value : Expr}
    (hnodup : (body.flatMap Stmt.boundNames).Nodup) (hs : s ∈ body)
    (hc : s.constant? = some (name, value)) : constantIn body name = some value := by
  induction body with
  | nil => simp at hs
  | cons t body ih =>
    rw [List.flatMap_cons, List.nodup_append] at hnodup
    obtain ⟨-, hbody, hdisjoint⟩ := hnodup
    rcases List.mem_cons.1 hs with rfl | hs
    · simp [constantIn, hc]
    · have hrest := ih hbody hs
      cases ht : t.constant? with
      | none => simpa [constantIn, ht] using hrest
      | some x =>
        obtain ⟨other, init⟩ := x
        have hname : name ∈ body.flatMap Stmt.boundNames :=
          List.mem_flatMap.2 ⟨s, hs, by simp [boundNames_of_constant hc]⟩
        have hne : name ≠ other :=
          (hdisjoint other (by simp [boundNames_of_constant ht]) name hname).symm
        simpa [constantIn, ht, List.lookup_cons, beq_eq_false_iff_ne.2 hne] using hrest

@[simp] theorem constant?_declare (name : String) (value : Expr) :
    (Stmt.declare .const name value).constant? = some (name, value) := rfl

@[simp] theorem boundNames_declare (kind : VarKind) (name : String) (value : Expr) :
    (Stmt.declare kind name value).boundNames = [name] := by
  simp [Stmt.declare, Stmt.boundNames, Decl.boundNames, Pattern.boundNames]

@[simp] theorem boundNames_assign (target value : Expr) :
    (Stmt.assign target value).boundNames = [] := rfl

theorem requiredSource?_interop (isExternal : Bool) (helper : Option Helper) (source : String) :
    (interop isExternal helper (requireCall source)).requiredSource? = some source := by
  cases helper with
  | none => rfl
  | some helper => cases isExternal <;> cases helper <;> rfl

section Following

variable {body : List Stmt} (hnodup : (body.flatMap Stmt.boundNames).Nodup)
include hnodup

theorem linkOf_required {binding source : String} {isExternal : Bool} {helper : Option Helper}
    (h : .declare .const binding (interop isExternal helper (requireCall source)) ∈ body) :
    linkOf body binding = some (.whole source) := by
  have hbinding := constantIn_of_mem hnodup h (constant?_declare _ _)
  have hsource := requiredSource?_interop isExternal helper source
  rw [linkOf, hbinding]
  cases helper with
  | none => simpa [interop, requireCall, Expr.apply] using hsource
  | some helper => simpa [interop, Helper.callWith, Expr.apply] using hsource

theorem linkOf_member {name binding member source : String} {isExternal : Bool}
    {helper : Option Helper}
    (hmember : .declare .const name (.dot (.ident binding) member) ∈ body)
    (h : .declare .const binding (interop isExternal helper (requireCall source)) ∈ body) :
    linkOf body name = some (.member source member) := by
  have hname := constantIn_of_mem hnodup hmember (constant?_declare _ _)
  have hbinding := constantIn_of_mem hnodup h (constant?_declare _ _)
  simp [linkOf, hname, hbinding, Expr.dot, requiredSource?_interop]

end Following

/-! ## Imports -/

/-- Each specifier of an import has its place in the sorted clause. -/
theorem mem_clause_of_shape {specifiers : List ImportSpecifier} (h : ImportShape specifiers) :
    ∀ s ∈ specifiers, match s with
      | .default binding => (ImportClause.ofSpecifiers specifiers).default = some binding
      | .star binding => (ImportClause.ofSpecifiers specifiers).star = some binding
      | .named binding imported =>
        (binding, imported) ∈ (ImportClause.ofSpecifiers specifiers).named := by
  cases h with
  | bare => simp
  | default binding => simp [ImportClause.ofSpecifiers]
  | star binding => simp [ImportClause.ofSpecifiers]
  | named hne =>
    rw [clause_named]
    intro s hs
    obtain ⟨x, hx, rfl⟩ := List.mem_map.1 hs
    exact hx
  | defaultStar binding all => simp [ImportClause.ofSpecifiers]
  | defaultNamed binding hne =>
    rw [clause_defaultNamed]
    intro s hs
    rcases List.mem_cons.1 hs with rfl | hs
    · rfl
    · obtain ⟨x, hx, rfl⟩ := List.mem_map.1 hs
      exact hx

/-- The clause has the names of the specifiers. -/
theorem names_clause_of_shape {specifiers : List ImportSpecifier} (h : ImportShape specifiers) :
    ((ImportClause.ofSpecifiers specifiers).star.toList ++
      ((ImportClause.ofSpecifiers specifiers).default.toList ++
        (ImportClause.ofSpecifiers specifiers).named.map Prod.fst)).Perm
      (specifiers.map ImportSpecifier.binding) := by
  cases h with
  | bare => exact .refl _
  | default binding => exact .refl _
  | star binding => exact .refl _
  | named hne =>
    rw [clause_named]
    simp [ImportSpecifier.binding, Function.comp_def]
  | defaultStar binding all => exact .swap _ _ _
  | defaultNamed binding hne =>
    rw [clause_defaultNamed]
    simp [ImportSpecifier.binding, Function.comp_def]

namespace Import

/-- The name that the required module is bound to. -/
def moduleName (taken : List String) (i : Import) : String :=
  (ImportClause.ofSpecifiers i.specifiers).star.getD (freshName taken (bindingBase i.source.value))

/-- The constants that the names of an import become. -/
def memberConstants (binding : String) (clause : ImportClause) : List Stmt :=
  (clause.default.map fun name =>
      Stmt.declare .const name (.dot (.ident binding) "default")).toList ++
    clause.named.map fun x =>
      Stmt.declare .const x.1 (.dot (.ident binding) (x.2.getD x.1))

variable {i : Import} {isExternal : Bool} {taken : List String}

theorem link_body (ht : i.typeOnly = false) (hne : i.specifiers ≠ []) :
    (i.link isExternal taken).1.body =
      .declare .const (i.moduleName taken)
        (interop isExternal (ImportClause.ofSpecifiers i.specifiers).helper?
          (requireCall i.source.value)) ::
        memberConstants (i.moduleName taken) (ImportClause.ofSpecifiers i.specifiers) := by
  have hempty : i.specifiers.isEmpty = false := by simpa using hne
  simp only [link, ht, hempty, moduleName]
  cases hstar : (ImportClause.ofSpecifiers i.specifiers).star <;> rfl

theorem link_taken (ht : i.typeOnly = false) (hne : i.specifiers ≠ []) :
    (i.link isExternal taken).2 =
      if (ImportClause.ofSpecifiers i.specifiers).star.isSome then taken
      else i.moduleName taken :: taken := by
  have hempty : i.specifiers.isEmpty = false := by simpa using hne
  simp only [link, ht, hempty, moduleName]
  cases hstar : (ImportClause.ofSpecifiers i.specifiers).star <;> rfl

theorem boundNames_memberConstants (binding : String) (clause : ImportClause) :
    (memberConstants binding clause).flatMap Stmt.boundNames =
      clause.default.toList ++ clause.named.map Prod.fst := by
  have hnamed : ∀ entries : List (String × Option String),
      (entries.map fun x => Stmt.declare .const x.1 (.dot (.ident binding) (x.2.getD x.1))).flatMap
        Stmt.boundNames = entries.map Prod.fst := by
    intro entries
    induction entries with
    | nil => rfl
    | cons x entries ih => simp [ih]
  cases hdefault : clause.default <;> simp [memberConstants, hdefault, hnamed]

/-- The names of an import lead to what they are imported for, wherever its statements stand. -/
theorem linkOf_specifier {body : List Stmt} (hnodup : (body.flatMap Stmt.boundNames).Nodup)
    (hshape : ImportShape i.specifiers) (ht : i.typeOnly = false)
    (hbody : (i.link isExternal taken).1.body ⊆ body) {s : ImportSpecifier}
    (hs : s ∈ i.specifiers) : linkOf body s.binding = some (s.link i.source.value) := by
  have hne : i.specifiers ≠ [] := List.ne_nil_of_mem hs
  rw [link_body ht hne, List.cons_subset] at hbody
  obtain ⟨hrequired, hmembers⟩ := hbody
  have hclause := mem_clause_of_shape hshape s hs
  cases s with
  | default binding =>
    refine linkOf_member hnodup (hmembers ?_) hrequired
    simp [memberConstants, ImportSpecifier.binding, hclause]
  | star binding =>
    have hname : i.moduleName taken = binding := by simp [moduleName, hclause]
    exact linkOf_required hnodup (hname ▸ hrequired)
  | named binding imported =>
    refine linkOf_member hnodup (hmembers ?_) hrequired
    refine List.mem_append_right _ (List.mem_map.2 ⟨(binding, imported), hclause, rfl⟩)

end Import

/-! ## Names that lowering binds -/

/-- Statements that bind each name once: names that the lowered item binds itself, and names that
were free and are taken now. -/
structure BindsOwn (taken taken' own : List String) (body : List Stmt) : Prop where
  grows : taken ⊆ taken'
  nodup : (body.flatMap Stmt.boundNames).Nodup
  bound : ∀ n ∈ body.flatMap Stmt.boundNames, n ∈ own ∨ n ∉ taken ∧ n ∈ taken'

theorem bindsOwn_nil (taken own : List String) : BindsOwn taken taken own [] :=
  ⟨fun _ h => h, by simp, by simp⟩

theorem bindsOwn_of_eq {taken own : List String} {body : List Stmt} (hown : own.Nodup)
    (h : body.flatMap Stmt.boundNames = own) : BindsOwn taken taken own body :=
  ⟨fun _ h => h, h ▸ hown, fun _ hn => .inl (h ▸ hn)⟩

theorem bindsOwn_fresh {taken own : List String} {body : List Stmt} {base : String}
    (hown : own.Nodup) (htaken : own ⊆ taken)
    (h : (body.flatMap Stmt.boundNames).Perm (freshName taken base :: own)) :
    BindsOwn taken (freshName taken base :: taken) own body := by
  have hfresh := freshName_not_mem taken base
  refine ⟨List.subset_cons_self _ _, ?_, ?_⟩
  · rw [h.nodup_iff, List.nodup_cons]
    exact ⟨fun hmem => hfresh (htaken hmem), hown⟩
  · intro n hn
    rcases List.mem_cons.1 (h.mem_iff.1 hn) with rfl | hn
    · exact .inr ⟨hfresh, by simp⟩
    · exact .inl hn

/-- Lowering one item after the other binds each name once. -/
theorem BindsOwn.append {taken taken' taken'' own own' : List String} {body body' : List Stmt}
    (h : BindsOwn taken taken' own body) (h' : BindsOwn taken' taken'' own' body')
    (hown : (own ++ own').Nodup) (htaken : own ++ own' ⊆ taken) :
    BindsOwn taken taken'' (own ++ own') (body ++ body') := by
  obtain ⟨htaken, htaken'⟩ := List.append_subset.1 htaken
  rw [List.nodup_append] at hown
  refine ⟨fun n hn => h'.grows (h.grows hn), ?_, ?_⟩
  · rw [List.flatMap_append, List.nodup_append]
    refine ⟨h.nodup, h'.nodup, ?_⟩
    -- A name of both parts would be own to both, or taken and free at once.
    rintro n hn _ hn' rfl
    rcases h.bound n hn with hn | ⟨hfree, hn⟩
    · rcases h'.bound n hn' with hn' | ⟨hfree, -⟩
      · exact hown.2.2 n hn n hn' rfl
      · exact hfree (h.grows (htaken hn))
    · rcases h'.bound n hn' with hn' | ⟨hfree', -⟩
      · exact hfree (htaken' hn')
      · exact hfree' hn
  · intro n hn
    rw [List.flatMap_append, List.mem_append] at hn
    rcases hn with hn | hn
    · rcases h.bound n hn with hn | ⟨hfree, hn⟩
      · exact .inl (List.mem_append_left _ hn)
      · exact .inr ⟨hfree, h'.grows hn⟩
    · rcases h'.bound n hn with hn | ⟨hfree, hn⟩
      · exact .inl (List.mem_append_right _ hn)
      · exact .inr ⟨fun hmem => hfree (h.grows hmem), hn⟩

/-- An import binds its own names and at most one more, which was not taken: the constant for the
module, unless `* as` names it. -/
theorem Import.link_bindsOwn {i : Import} {isExternal : Bool} {taken : List String}
    (hshape : ImportShape i.specifiers) (hown : (Item.imports i).boundNames.Nodup)
    (htaken : (Item.imports i).boundNames ⊆ taken) :
    BindsOwn taken (i.link isExternal taken).2 (Item.imports i).boundNames
      (i.link isExternal taken).1.body := by
  cases ht : i.typeOnly with
  | true =>
    have hlink : i.link isExternal taken = (.empty, taken) := by simp [link, ht]
    rw [hlink]
    exact bindsOwn_nil taken _
  | false =>
    by_cases hne : i.specifiers = []
    · have hlink : i.link isExternal taken =
          (.ofBody [.expr (requireCall i.source.value)], taken) := by
        simp [link, ht, hne]
      rw [hlink]
      exact ⟨fun _ h => h, by simp [Linked.ofBody, Stmt.boundNames],
        by simp [Linked.ofBody, Stmt.boundNames]⟩
    · have hnames := names_clause_of_shape hshape
      rw [link_body ht hne, link_taken ht hne]
      cases hstar : (ImportClause.ofSpecifiers i.specifiers).star with
      | some binding =>
        simp only [moduleName, hstar, Option.getD_some, Option.isSome_some, if_true]
        rw [hstar] at hnames
        refine ⟨fun _ h => h, ?_, fun n hn => .inl ?_⟩
        · rw [List.flatMap_cons, boundNames_declare, boundNames_memberConstants]
          exact hnames.nodup_iff.2 hown
        · rw [List.flatMap_cons, boundNames_declare, boundNames_memberConstants] at hn
          exact hnames.mem_iff.1 hn
      | none =>
        simp only [moduleName, hstar, Option.getD_none, Option.isSome_none, Bool.false_eq_true,
          if_false]
        rw [hstar] at hnames
        refine bindsOwn_fresh hown htaken ?_
        rw [List.flatMap_cons, boundNames_declare, boundNames_memberConstants]
        exact hnames.cons _

/-! ## Exports -/

/-- `exports.name = value;` -/
def exportStmt (name : String) (value : Expr) : Stmt :=
  .assign (.dot (.ident "exports") name) value

theorem concat_exportNow {α : Type} (xs : List α) (name : α → String) (value : α → Expr) :
    Linked.concat (xs.map fun x => .exportNow (name x) (value x)) =
      ⟨xs.map fun x => exportStmt (name x) (value x), [], xs.map name, []⟩ := by
  induction xs with
  | nil => rfl
  | cons x xs ih =>
    rw [List.map_cons, Linked.concat, List.foldr_cons]
    exact congrArg (Linked.append (.exportNow (name x) (value x))) ih

theorem concat_exportLater {α : Type} (xs : List α) (name : α → String) (value : α → Expr) :
    Linked.concat (xs.map fun x => .exportLater (name x) (value x)) =
      ⟨[], xs.map fun x => exportStmt (name x) (value x), xs.map name, []⟩ := by
  induction xs with
  | nil => rfl
  | cons x xs ih =>
    rw [List.map_cons, Linked.concat, List.foldr_cons]
    exact congrArg (Linked.append (.exportLater (name x) (value x))) ih

theorem boundNames_exportStmts {α : Type} (xs : List α) (name : α → String) (value : α → Expr) :
    (xs.map fun x => exportStmt (name x) (value x)).flatMap Stmt.boundNames = [] := by
  induction xs with
  | nil => rfl
  | cons x xs ih => simp [exportStmt]

theorem exportAssignments_exportStmts {α : Type} (xs : List α) (name : α → String)
    (value : α → Expr) :
    exportAssignments (xs.map fun x => exportStmt (name x) (value x)) =
      xs.map fun x => (name x, value x) := by
  induction xs with
  | nil => rfl
  | cons x xs ih =>
    have hfirst : (exportStmt (name x) (value x)).exportAssignment? = some (name x, value x) := rfl
    rw [exportAssignments] at ih
    rw [List.map_cons, exportAssignments, List.filterMap_cons, hfirst, ih, List.map_cons]

theorem realize_map {α : Type} {body : List Stmt} (xs : List α) (name : α → String)
    (value : α → Expr) (denoted : α → Exported)
    (h : ∀ x ∈ xs, (denoted x).IsDenotedBy body (value x)) :
    Realize body (xs.map fun x => (name x, value x)) (xs.map fun x => (name x, denoted x)) := by
  rw [Realize, List.forall₂_map_left_iff, List.forall₂_map_right_iff, List.forall₂_same]
  exact fun x hx => ⟨rfl, h x hx⟩

theorem exportAssignments_append (body body' : List Stmt) :
    exportAssignments (body ++ body') = exportAssignments body ++ exportAssignments body' :=
  List.filterMap_append

/-- Lowered parts assign to `exports` what some statements do and what some exports denote. -/
def Assigns (body : List Stmt) (l : Linked) (stmts : List Stmt)
    (exported : List (String × Exported)) : Prop :=
  ∃ assigned, (exportAssignments l.body ++ exportAssignments l.deferred).Perm
    (exportAssignments stmts ++ assigned) ∧ Realize body assigned exported

/-- An export assigns what it denotes under each of its names, now or at the end of the module. For a
list with a source the constant for the other module is looked up in the whole body, where no other
statement binds its name. -/
theorem Export.link_assigns {body : List Stmt} (hnodup : (body.flatMap Stmt.boundNames).Nodup)
    {isExternal : Bool} {taken : List String} (e : Export)
    (hbody : (e.link isExternal taken).1.body ⊆ body) :
    Assigns body (e.link isExternal taken).1 [] e.exported := by
  have hsingle : ∀ value, Realize body [("default", value)] [("default", .here value)] :=
    fun value => .cons ⟨rfl, rfl⟩ .nil
  cases e with
  | decl d =>
    refine ⟨d.boundNames.map fun name => (name, .ident name), ?_,
      realize_map _ (fun name => name) _ _ fun _ _ => rfl⟩
    rw [link, concat_exportNow]
    change (exportAssignments ([Stmt.decl d] ++ _) ++ []).Perm _
    rw [exportAssignments_append, exportAssignments_exportStmts, List.append_nil]
    exact .refl _
  | default value =>
    cases value with
    | func name f => cases name <;> exact ⟨_, .refl _, hsingle _⟩
    | classDef name c => cases name <;> exact ⟨_, .refl _, hsingle _⟩
    | expr value => cases value <;> exact ⟨_, .refl _, hsingle _⟩
  | list specifiers source =>
    cases source with
    | none =>
      refine ⟨specifiers.map fun s => (s.exportedName, .ident s.binding), ?_,
        realize_map specifiers _ _ (fun s => .here (.ident s.binding)) fun _ _ => rfl⟩
      rw [link, concat_exportLater]
      change ([] ++ exportAssignments _).Perm _
      rw [exportAssignments_exportStmts]
      exact .refl _
    | some source =>
      rw [link, concat_exportNow] at hbody ⊢
      -- members of the other module: the constant is declared in the body, so it leads to the source
      have hdeclared : .declare .const (freshName taken (bindingBase source.value))
          (interop isExternal none (requireCall source.value)) ∈ body :=
        hbody (List.mem_cons_self ..)
      have hrequired := linkOf_required hnodup hdeclared
      refine ⟨specifiers.map fun s => (s.exportedName,
          .dot (.ident (freshName taken (bindingBase source.value))) s.binding), ?_,
        realize_map specifiers _ _ (fun s => .elsewhere source.value s.binding)
          fun s _ => ⟨_, rfl, hrequired⟩⟩
      change (exportAssignments ([Stmt.declare .const _ (requireCall source.value)] ++ _) ++
        []).Perm _
      rw [exportAssignments_append, exportAssignments_exportStmts, List.append_nil]
      exact .refl _
  | all source => exact ⟨[], .refl _, .nil⟩

/-- An export binds the names of its declaration, or a made-up one for the module that it exports
from. -/
theorem Export.link_bindsOwn {isExternal : Bool} {taken : List String} (e : Export)
    (hown : (Item.exports e).boundNames.Nodup) :
    BindsOwn taken (e.link isExternal taken).2 (Item.exports e).boundNames
      (e.link isExternal taken).1.body := by
  cases e with
  | decl d =>
    rw [link, concat_exportNow]
    refine bindsOwn_of_eq hown ?_
    change ([Stmt.decl d] ++ _).flatMap Stmt.boundNames = d.boundNames
    rw [List.flatMap_append, boundNames_exportStmts]
    simp [Stmt.boundNames]
  | default value =>
    cases value with
    | func name f => cases name <;> exact bindsOwn_of_eq hown rfl
    | classDef name c => cases name <;> exact bindsOwn_of_eq hown rfl
    | expr value => cases value <;> exact bindsOwn_of_eq hown rfl
  | list specifiers source =>
    cases source with
    | none =>
      rw [link, concat_exportLater]
      exact bindsOwn_of_eq hown rfl
    | some source =>
      rw [link, concat_exportNow]
      refine bindsOwn_fresh hown (List.nil_subset _) (.of_eq ?_)
      change ([Stmt.declare .const _ _] ++ _).flatMap Stmt.boundNames = _
      rw [List.flatMap_append, boundNames_exportStmts]
      simp [Item.boundNames]
  | all source => exact bindsOwn_of_eq hown rfl

theorem Export.link_exported {isExternal : Bool} {taken : List String} (e : Export) :
    (e.link isExternal taken).1.exported = e.exported.map Prod.fst := by
  cases e with
  | decl d =>
    rw [link, concat_exportNow]
    simp [Linked.append, Linked.ofBody, Linked.empty, Export.exported, Function.comp_def]
  | default value =>
    cases value with
    | func name f => cases name <;> rfl
    | classDef name c => cases name <;> rfl
    | expr value => cases value <;> rfl
  | list specifiers source =>
    cases source with
    | none =>
      rw [link, concat_exportLater]
      simp [Export.exported, Function.comp_def]
    | some source =>
      rw [link, concat_exportNow]
      simp [Linked.append, Linked.ofBody, Linked.empty, Export.exported, Function.comp_def]
  | all source => rfl

/-! ## Exports that wait -/

/-- The exports of an item that speak of a binding by its name, without a source: the exported names
with the bindings. -/
def Item.bareExports : Item → List (String × String)
  | .exports (.default (.expr (.ident binding))) => [("default", binding)]
  | .exports (.list specifiers none) => specifiers.map fun s => (s.exportedName, s.binding)
  | _ => []

/-- The exports of a module that speak of a binding by its name. -/
def Program.bareExports (p : Program) : List (String × String) := p.body.flatMap Item.bareExports

/-- What an item leaves for the end of the module are its exports of a binding by name. -/
theorem Item.link_deferred_eq {isExternal : Bool} {taken : List String} (item : Item) :
    (item.link isExternal taken).1.deferred =
      item.bareExports.map fun e => exportStmt e.1 (.ident e.2) := by
  cases item with
  | imports i =>
    simp only [link, Import.link]
    split
    · rfl
    · split <;> rfl
  | stmt s => rfl
  | exports e =>
    cases e with
    | decl d =>
      rw [link, Export.link, concat_exportNow]
      rfl
    | default value =>
      cases value with
      | func name f => cases name <;> rfl
      | classDef name c => cases name <;> rfl
      | expr value => cases value <;> rfl
    | list specifiers source =>
      cases source with
      | none =>
        rw [link, Export.link, concat_exportLater]
        simp [bareExports, Function.comp_def]
      | some source =>
        rw [link, Export.link, concat_exportNow]
        rfl
    | all source => rfl

/-! ## Modules -/

/-- An import assigns nothing to `exports`. -/
theorem Import.link_assigns {isExternal : Bool} {taken : List String} (i : Import)
    (body : List Stmt) : Assigns body (i.link isExternal taken).1 [] [] := by
  refine ⟨[], ?_, .nil⟩
  cases ht : i.typeOnly with
  | true =>
    rw [link, if_pos ht]
    exact .refl _
  | false =>
    by_cases hne : i.specifiers = []
    · simp only [link, ht, hne]
      exact .refl _
    · have hdeferred : (i.link isExternal taken).1.deferred = [] := by
        have hempty : i.specifiers.isEmpty = false := by simpa using hne
        simp only [link, ht, hempty]
        cases hstar : (ImportClause.ofSpecifiers i.specifiers).star <;> rfl
      have hnamed : ∀ (binding : String) (entries : List (String × Option String)),
          exportAssignments (entries.map fun x =>
            Stmt.declare .const x.1 (.dot (.ident binding) (x.2.getD x.1))) = [] := by
        intro binding entries
        induction entries with
        | nil => rfl
        | cons x entries ih => exact ih
      have hmembers : ∀ (binding : String) (clause : ImportClause),
          exportAssignments (memberConstants binding clause) = [] := by
        intro binding clause
        rw [memberConstants, exportAssignments_append, hnamed]
        cases clause.default <;> rfl
      rw [hdeferred, link_body ht hne]
      change (exportAssignments (memberConstants _ _) ++ []).Perm []
      rw [hmembers]
      exact .refl _

theorem Item.link_assigns {body : List Stmt} (hnodup : (body.flatMap Stmt.boundNames).Nodup)
    {isExternal : Bool} {taken : List String} (item : Item)
    (hbody : (item.link isExternal taken).1.body ⊆ body) :
    Assigns body (item.link isExternal taken).1 item.stmt?.toList item.exported := by
  cases item with
  | imports i => exact i.link_assigns body
  | exports e => exact e.link_assigns hnodup hbody
  | stmt s => exact ⟨[], .refl _, .nil⟩

theorem Item.link_bindsOwn {isExternal : Bool} {taken : List String} (item : Item)
    (hshape : ∀ i, item = .imports i → ImportShape i.specifiers) (hown : item.boundNames.Nodup)
    (htaken : item.boundNames ⊆ taken) :
    BindsOwn taken (item.link isExternal taken).2 item.boundNames
      (item.link isExternal taken).1.body := by
  cases item with
  | imports i => exact i.link_bindsOwn (hshape i rfl) hown htaken
  | exports e => exact e.link_bindsOwn hown
  | stmt s =>
    refine bindsOwn_of_eq hown ?_
    cases s <;> simp [Item.link, Linked.ofBody, Stmt.boundNames, Item.boundNames]

theorem Item.link_exported {isExternal : Bool} {taken : List String} (item : Item) :
    (item.link isExternal taken).1.exported = item.exported.map Prod.fst := by
  cases item with
  | imports i =>
    simp only [link, Import.link]
    split
    · rfl
    · split <;> rfl
  | exports e => exact e.link_exported
  | stmt s => rfl

section Modules

variable {isExternal : Bool}

theorem linkAll_cons (taken : List String) (item : Item) (items : List Item) :
    Item.linkAll isExternal taken (item :: items) =
      (item.link isExternal taken).1.append
        (Item.linkAll isExternal (item.link isExternal taken).2 items) := rfl

theorem linkAll_bindsOwn {taken : List String} {items : List Item}
    (hshape : ∀ i, .imports i ∈ items → ImportShape i.specifiers)
    (hown : (items.flatMap Item.boundNames).Nodup) (htaken : items.flatMap Item.boundNames ⊆ taken) :
    ∃ taken', BindsOwn taken taken' (items.flatMap Item.boundNames)
      (Item.linkAll isExternal taken items).body := by
  induction items generalizing taken with
  | nil => exact ⟨taken, bindsOwn_nil taken []⟩
  | cons item items ih =>
    rw [List.flatMap_cons] at hown htaken ⊢
    obtain ⟨hfirst, hrest⟩ := List.append_subset.1 htaken
    have hnodup := List.nodup_append.1 hown
    have hitem : BindsOwn taken _ _ (item.link isExternal taken).1.body :=
      item.link_bindsOwn (fun i hi => hshape i (by simp [hi])) hnodup.1 hfirst
    obtain ⟨taken', hitems⟩ := ih (fun i hi => hshape i (by simp [hi])) hnodup.2.1
      fun n hn => hitem.grows (hrest hn)
    exact ⟨taken', hitem.append hitems hown htaken⟩

theorem linkAll_deferred_eq (taken : List String) (items : List Item) :
    (Item.linkAll isExternal taken items).deferred =
      (items.flatMap Item.bareExports).map fun e => exportStmt e.1 (.ident e.2) := by
  induction items generalizing taken with
  | nil => rfl
  | cons item rest ih =>
    rw [linkAll_cons, Linked.append, item.link_deferred_eq, ih, List.flatMap_cons, List.map_append]

theorem linkAll_deferred (taken : List String) (items : List Item) :
    (Item.linkAll isExternal taken items).deferred.flatMap Stmt.boundNames = [] := by
  rw [linkAll_deferred_eq, boundNames_exportStmts]

theorem linkAll_exported (taken : List String) (items : List Item) :
    (Item.linkAll isExternal taken items).exported =
      (items.flatMap Item.exported).map Prod.fst := by
  induction items generalizing taken with
  | nil => rfl
  | cons item items ih =>
    rw [linkAll_cons, Linked.append, item.link_exported, ih, List.flatMap_cons, List.map_append]

/-- The statements of each item are part of the lowered body. -/
theorem link_subset_linkAll {item : Item} {items : List Item} (h : item ∈ items)
    (taken : List String) : ∃ taken', (item.link isExternal taken').1.body ⊆
      (Item.linkAll isExternal taken items).body := by
  induction items generalizing taken with
  | nil => simp at h
  | cons first items ih =>
    rcases List.mem_cons.1 h with rfl | h
    · exact ⟨taken, List.subset_append_left _ _⟩
    · obtain ⟨taken', hsubset⟩ := ih h (first.link isExternal taken).2
      exact ⟨taken', fun s hs => List.mem_append_right _ (hsubset hs)⟩

theorem perm_append_append {α : Type} (a b c e : List α) :
    ((a ++ b) ++ (c ++ e)).Perm ((a ++ c) ++ (b ++ e)) := by
  rw [List.append_assoc, List.append_assoc]
  exact .append_left a (List.perm_append_comm_assoc b c e)

/-- By induction over the items. Exports that wait come behind all others, so the order is kept up to
a permutation only. -/
theorem linkAll_assigns {body : List Stmt} (hnodup : (body.flatMap Stmt.boundNames).Nodup)
    {taken : List String} {items : List Item}
    (hbody : (Item.linkAll isExternal taken items).body ⊆ body) :
    Assigns body (Item.linkAll isExternal taken items) (items.filterMap Item.stmt?)
      (items.flatMap Item.exported) := by
  induction items generalizing taken with
  | nil => exact ⟨[], .refl _, .nil⟩
  | cons item items ih =>
    rw [linkAll_cons] at hbody ⊢
    obtain ⟨hfirst, hrest⟩ := List.append_subset.1 hbody
    obtain ⟨assigned, hperm, hrealize⟩ := item.link_assigns hnodup hfirst
    obtain ⟨assigned', hperm', hrealize'⟩ := ih hrest
    refine ⟨assigned ++ assigned', ?_, List.rel_append hrealize hrealize'⟩
    have hstmts : (item :: items).filterMap Item.stmt? =
        item.stmt?.toList ++ items.filterMap Item.stmt? := by
      cases hs : item.stmt? <;> simp [hs]
    rw [Linked.append, hstmts, exportAssignments_append, exportAssignments_append,
      exportAssignments_append]
    exact (perm_append_append _ _ _ _).trans
      ((hperm.append hperm').trans (perm_append_append _ _ _ _))

end Modules

theorem nodup_of_firstRepeated {seen names : List String} (h : firstRepeated seen names = none) :
    names.Nodup ∧ ∀ n ∈ names, n ∉ seen := by
  induction names generalizing seen with
  | nil => simp
  | cons n names ih =>
    rw [firstRepeated] at h
    split at h
    · cases h
    · rename_i hn
      obtain ⟨hnodup, hseen⟩ := ih h
      have hfirst : n ∉ seen := by simpa using hn
      refine ⟨List.nodup_cons.2 ⟨fun hmem => hseen n hmem (by simp), hnodup⟩, ?_⟩
      intro m hm
      rcases List.mem_cons.1 hm with rfl | hm
      · exact hfirst
      · exact fun hmem => hseen m hm (by simp [hmem])

theorem importShape_of_parse {d : Dialect} {text : String} {p : Program}
    (h : Program.parse d text = .ok p) {i : Import} (hi : .imports i ∈ p.body) :
    ImportShape i.specifiers := by
  obtain ⟨r, hr⟩ := run_program_of_parse h
  have hnodes := Grammar.yields_program d _ p r hr
  have hmem : Node.imports i ∈ p.nodes :=
    List.mem_flatMap.2 ⟨_, hi, by simp [Item.nodes]⟩
  exact (hnodes _ hmem : i.WellFormed).specifiers

/-- Lowering a module whose top-level names are distinct keeps its link interface, with helpers of
either kind. -/
theorem toCommonJs_sameInterface {d : Dialect} {text : String} {p : Program} {isExternal : Bool}
    {m : CommonJsModule} (hparse : Program.parse d text = .ok p) (hnames : p.topLevelNames.Nodup)
    (h : p.toCommonJs isExternal = .ok m) : SameInterface p m.body := by
  simp only [Program.toCommonJs] at h
  split at h
  · cases h
  rename_i hrepeated
  cases h
  obtain ⟨taken', hbinds⟩ : ∃ taken', BindsOwn p.topLevelNames taken' p.topLevelNames
      (Item.linkAll isExternal p.topLevelNames p.body).body :=
    linkAll_bindsOwn (fun i hi => importShape_of_parse hparse hi) hnames fun _ hn => hn
  -- no name is bound twice, so each constant is found by its name
  have hnodup : (((Item.linkAll isExternal p.topLevelNames p.body).body ++
      (Item.linkAll isExternal p.topLevelNames p.body).deferred).flatMap
        Stmt.boundNames).Nodup := by
    rw [List.flatMap_append, linkAll_deferred, List.append_nil]
    exact hbinds.nodup
  have hsubset := List.subset_append_left (Item.linkAll isExternal p.topLevelNames p.body).body
    (Item.linkAll isExternal p.topLevelNames p.body).deferred
  refine ⟨hnodup, ?_, ?_, ?_⟩
  · intro i hi ht s hs
    obtain ⟨taken, hlink⟩ := link_subset_linkAll hi p.topLevelNames
    exact Import.linkOf_specifier hnodup (importShape_of_parse hparse hi) ht
      (fun s hs => hsubset (hlink hs)) hs
  · rw [linkAll_exported] at hrepeated
    exact (nodup_of_firstRepeated hrepeated).1
  · obtain ⟨assigned, hperm, hrealize⟩ := linkAll_assigns hnodup hsubset
    refine ⟨assigned, ?_, hrealize⟩
    rw [exportAssignments_append]
    exact hperm

/-- A module with imports of all kinds, exported again, and two sources that ask for one name. -/
def linkSample : String :=
  "import d, \x7b x as y \x7d from './m';\nimport * as m from 'm';\n" ++
  "export \x7b y, d as l \x7d;\nexport default m;\n"

theorem toCommonJs_sameInterface_linkSample :
    ∃ p m, Program.parse .tsx linkSample = .ok p ∧ p.toCommonJs true = .ok m ∧
      linkOf m.body "y" = some (.member "./m" "x") ∧
      (exportAssignments m.body).map Prod.fst = ["y", "l", "default"] ∧
      SameInterface p m.body := by
  have hrun : ((Program.parse .tsx linkSample).toOption.bind fun p =>
      (p.toCommonJs true).toOption.map fun m => (decide p.topLevelNames.Nodup,
        linkOf m.body "y", (exportAssignments m.body).map Prod.fst)) =
      some (true, some (.member "./m" "x"), ["y", "l", "default"]) := by
    decide +kernel
  obtain ⟨p, hp, hlowered⟩ := Option.bind_eq_some_iff.1 hrun
  obtain ⟨m, hm, hresult⟩ := Option.map_eq_some_iff.1 hlowered
  simp only [Prod.mk.injEq, decide_eq_true_eq] at hresult
  obtain ⟨hnames, hlink, hexports⟩ := hresult
  have hparse := eq_ok_of_toOption hp
  have hlower := eq_ok_of_toOption hm
  exact ⟨p, m, hparse, hlower, hlink, hexports, toCommonJs_sameInterface hparse hnames hlower⟩

end TsxCompiler
