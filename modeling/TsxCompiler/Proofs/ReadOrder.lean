import TsxCompiler.Proofs.Provenance

/-!
# Generated reads come after declarations

A constant or a class must not be read before it is declared. Lowering generates two kinds of
statements that read bindings: constants for imported names, which read the module they come from, and
assignments to `exports`, which read what is exported. What is lowered in place stands behind the
statement of the same item that declares what it reads (`Item.settled_layout`); what waits for the end
stands behind all declarations. So nothing is read too early, in whatever order a module has its items
(`toCommonJs_readsInOrder`).

The one name that nothing is done about is `exports` itself, which every assignment reads: a module
that declares it may do so further down (`not_readsInOrder`).
-/

namespace TsxCompiler

/-! ## Reads -/

/-- The identifiers among the expressions of a statement. -/
def Stmt.reads (s : Stmt) : List String := s.nodes.filterMap Node.identifier?

namespace LoweredStmt

/-- The binding that a statement was generated to read: a constant for an imported name, or the
export of a binding or of a member of one. -/
def binding? : LoweredStmt → Option String
  | member _ binding _ => some binding
  | exportBinding _ binding => some binding
  | exportMember _ binding _ => some binding
  | _ => none

/-- Beside its binding, a generated statement reads `exports` at most. -/
theorem eq_binding_of_mem_reads {l : LoweredStmt} {binding name : String} {isExternal : Bool}
    (h : l.binding? = some binding) (hread : name ∈ (l.stmt isExternal).reads)
    (hne : name ≠ "exports") : name = binding := by
  have hreads : (l.stmt isExternal).reads = [binding] ∨
      (l.stmt isExternal).reads = ["exports", binding] := by
    cases l <;> cases h
    · exact .inl rfl
    · exact .inr rfl
    · exact .inr rfl
  rcases hreads with hnames | hnames
  · rw [hnames] at hread
    exact List.mem_singleton.1 hread
  · rw [hnames] at hread
    exact List.mem_singleton.1 (List.mem_of_ne_of_mem hne hread)

theorem scopeNames_exportBinding (isExternal : Bool) (name binding : String) :
    ((exportBinding name binding).stmt isExternal).scopeNames = [] :=
  scopeNames_expr _

end LoweredStmt

/-! ## Statements that are settled -/

/-- Whatever a statement was generated to read is declared by one before it. -/
def Settled (isExternal : Bool) (ls : List LoweredStmt) : Prop :=
  ∀ (k : Nat) (l : LoweredStmt), ls[k]? = some l → ∀ name ∈ l.binding?,
    ∃ j < k, ∃ t : LoweredStmt, ls[j]? = some t ∧ name ∈ (t.stmt isExternal).scopeNames

section Settled

variable {isExternal : Bool}

theorem settled_nil : Settled isExternal [] := by
  intro k l hl
  simp at hl

/-- Statements that read what the first one declares. -/
theorem settled_cons {first : LoweredStmt} {rest : List LoweredStmt} (hfirst : first.binding? = none)
    (hrest : ∀ l ∈ rest, ∀ name ∈ l.binding?, name ∈ (first.stmt isExternal).scopeNames) :
    Settled isExternal (first :: rest) := by
  intro k l hl name hname
  cases k with
  | zero =>
    obtain rfl : first = l := by simpa using hl
    simp [hfirst] at hname
  | succ k =>
    have hmem : l ∈ rest := List.mem_of_getElem? (by simpa using hl)
    exact ⟨0, by omega, first, rfl, hrest l hmem name hname⟩

theorem settled_singleton {l : LoweredStmt} (h : l.binding? = none) : Settled isExternal [l] :=
  settled_cons h (by simp)

theorem Settled.append {a b : List LoweredStmt} (ha : Settled isExternal a)
    (hb : Settled isExternal b) : Settled isExternal (a ++ b) := by
  intro k l hl name hname
  by_cases hk : k < a.length
  · rw [List.getElem?_append_left hk] at hl
    obtain ⟨j, hj, t, ht, hdeclared⟩ := ha k l hl name hname
    refine ⟨j, hj, t, ?_, hdeclared⟩
    rw [List.getElem?_append_left (by omega)]
    exact ht
  · rw [List.getElem?_append_right (by omega)] at hl
    obtain ⟨j, hj, t, ht, hdeclared⟩ := hb _ l hl name hname
    refine ⟨a.length + j, by omega, t, ?_, hdeclared⟩
    rw [List.getElem?_append_right (by omega), Nat.add_sub_cancel_left]
    exact ht

/-- A declaration, and statements that read what it declares. -/
theorem settled_declared (d : Decl) {rest : List LoweredStmt}
    (h : ∀ l ∈ rest, ∀ name ∈ l.binding?, name ∈ d.boundNames) :
    Settled isExternal (.own (.decl d) :: rest) := by
  refine settled_cons rfl fun l hl name hname => ?_
  show name ∈ (Stmt.decl d).scopeNames
  rw [scopeNames_decl]
  exact h l hl name hname

/-- A required module, and statements that read from it. -/
theorem settled_bound (binding source : String) (via : Option Helper) {rest : List LoweredStmt}
    (h : ∀ l ∈ rest, l.binding? = some binding) :
    Settled isExternal (.bind binding via source :: rest) := by
  refine settled_cons rfl fun l hl name hname => ?_
  show name ∈ (Stmt.declare .const binding _).scopeNames
  rw [h l hl] at hname
  rw [scopeNames_declare]
  exact List.mem_singleton.2 (Option.some.inj hname).symm

theorem Import.settled_layout (taken : List String) (i : Import) :
    Settled isExternal (i.layout taken) := by
  rcases i.layout_cases taken with hlayout | hlayout | hlayout
  · rw [hlayout]
    exact settled_nil
  · rw [hlayout]
    exact settled_singleton rfl
  · rw [hlayout]
    refine settled_bound _ _ _ fun l hl => ?_
    obtain ⟨_, _, rfl⟩ := ImportClause.exists_of_mem_layout hl
    rfl

/-- What an export reads was bound right before it: by its declaration, or as the constant for the
other module. -/
theorem Export.settled_layout (taken : List String) (e : Export) :
    Settled isExternal (e.layout taken) := by
  cases e with
  | decl d =>
    refine settled_declared d fun l hl name hname => ?_
    obtain ⟨bound, hbound, rfl⟩ := List.mem_map.1 hl
    exact Option.some.inj hname ▸ hbound
  | default value =>
    cases value with
    | func name f =>
      cases name with
      | none => exact settled_singleton rfl
      | some name => exact settled_declared _ (by simp [LoweredStmt.binding?, Decl.boundNames])
    | classDef name c =>
      cases name with
      | none => exact settled_singleton rfl
      | some name => exact settled_declared _ (by simp [LoweredStmt.binding?, Decl.boundNames])
    | expr value =>
      cases value
      case ident name => exact settled_nil
      all_goals exact settled_singleton rfl
  | list specifiers source =>
    cases source with
    | none => exact settled_nil
    | some source =>
      refine settled_bound _ _ _ fun l hl => ?_
      obtain ⟨s, -, rfl⟩ := List.mem_map.1 hl
      rfl
  | all source => exact settled_singleton rfl

/-- What an item is lowered to in place is settled by itself. -/
theorem Item.settled_layout (taken : List String) (item : Item) :
    Settled isExternal (item.layout taken) := by
  cases item with
  | stmt s => exact settled_singleton rfl
  | imports i => exact i.settled_layout taken
  | exports e => exact e.settled_layout taken

theorem Item.settled_layoutAll (taken : List String) (items : List Item) :
    Settled isExternal (Item.layoutAll taken items) := by
  induction items generalizing taken with
  | nil => exact settled_nil
  | cons item rest ih => exact (item.settled_layout taken).append (ih _)

end Settled

/-! ## Modules -/

/-- Where a generated statement of a lowered body reads a name that the body declares, a declaration
stands before it. Some names may be left out. -/
def ReadsInOrder (leftOut : List String) (p : Program) (body : List Stmt) : Prop :=
  ∀ (k : Nat) (l : LoweredStmt) (s : Stmt),
    p.layout[k]? = some l → l.binding?.isSome = true → body[k]? = some s →
    ∀ name ∈ s.reads, name ∉ leftOut → name ∈ body.flatMap Stmt.scopeNames →
      ∃ j < k, ∃ t, body[j]? = some t ∧ name ∈ t.scopeNames

/-- What the lowered module declares at all, it declares in place. -/
theorem Program.declared_inPlace {p : Program} {isExternal : Bool} {name : String}
    (h : name ∈ (p.layout.map (LoweredStmt.stmt isExternal)).flatMap Stmt.scopeNames) :
    ∃ j < p.inPlace.length, ∃ t, p.layout[j]? = some t ∧ name ∈ (t.stmt isExternal).scopeNames := by
  obtain ⟨_, hs, hname⟩ := List.mem_flatMap.1 h
  obtain ⟨t, ht, rfl⟩ := List.mem_map.1 hs
  rcases List.mem_append.1 ht with ht | ht
  · obtain ⟨j, hj⟩ := List.mem_iff_getElem?.1 ht
    have hlt : j < p.inPlace.length := (List.getElem?_eq_some_iff.1 hj).1
    refine ⟨j, hlt, t, ?_, hname⟩
    rw [layout, List.getElem?_append_left hlt]
    exact hj
  · obtain ⟨e, -, rfl⟩ := List.mem_map.1 ht
    rw [LoweredStmt.scopeNames_exportBinding] at hname
    cases hname

/-- The binding of a generated statement is declared before it, if it is declared at all. -/
theorem Program.binding_declared {p : Program} {isExternal : Bool} {k : Nat} {l : LoweredStmt}
    {name : String} (hl : p.layout[k]? = some l) (hbinding : l.binding? = some name)
    (hdeclared : name ∈ (p.layout.map (LoweredStmt.stmt isExternal)).flatMap Stmt.scopeNames) :
    ∃ j < k, ∃ t, p.layout[j]? = some t ∧ name ∈ (t.stmt isExternal).scopeNames := by
  by_cases hk : k < p.inPlace.length
  · -- in place, the item itself declares it
    rw [layout, List.getElem?_append_left hk] at hl
    have hsettled : Settled isExternal p.inPlace := Item.settled_layoutAll _ _
    obtain ⟨j, hj, t, ht, hname⟩ := hsettled k l hl name hbinding
    refine ⟨j, hj, t, ?_, hname⟩
    rw [layout, List.getElem?_append_left (by omega)]
    exact ht
  · -- what waits stands behind all that is lowered in place, and nothing else declares a name
    obtain ⟨j, hj, t, ht, hname⟩ := declared_inPlace hdeclared
    exact ⟨j, by omega, t, ht, hname⟩

/-- Apart from `exports`, no generated statement of a lowered module reads a binding too early. -/
theorem toCommonJs_readsInOrder {p : Program} {isExternal : Bool} {m : CommonJsModule}
    (h : p.toCommonJs isExternal = .ok m) :
    LaidOut isExternal p m.body ∧ ReadsInOrder ["exports"] p m.body := by
  have hlaid := laidOut_of_toCommonJs h
  refine ⟨hlaid, ?_⟩
  intro k l s hl hlink hs name hread hne hdeclared
  rw [hlaid.body_eq] at hs hdeclared ⊢
  obtain ⟨binding, hbinding⟩ := Option.isSome_iff_exists.1 hlink
  obtain rfl : l.stmt isExternal = s := by simpa [hl] using hs
  have hname := LoweredStmt.eq_binding_of_mem_reads hbinding hread (by simpa using hne)
  obtain ⟨j, hj, t, ht, hscope⟩ := Program.binding_declared hl (hname ▸ hbinding) hdeclared
  exact ⟨j, hj, t.stmt isExternal, by simp [ht], hscope⟩

/-- Exports of an import and of a declaration that come first. -/
def earlyExports : String :=
  "export \x7b a as x, n \x7d;\nimport n from 'm';\nexport const a = n;\n"

theorem toCommonJs_readsInOrder_earlyExports :
    ∃ p m, Program.parse .tsx earlyExports = .ok p ∧ p.toCommonJs true = .ok m ∧
      (m.body[4]?.map Stmt.reads) = some ["exports", "a"] ∧
      ∃ j < 4, ∃ t, m.body[j]? = some t ∧ "a" ∈ t.scopeNames := by
  have hrun : ((Program.parse .tsx earlyExports).toOption.bind fun p =>
      (p.toCommonJs true).toOption.map fun m => (p.layout[4]?.map LoweredStmt.binding?,
        m.body[4]?.map Stmt.reads, m.body.flatMap Stmt.scopeNames)) =
      some (some (some "a"), some ["exports", "a"], ["_m", "n", "a"]) := by
    decide +kernel
  obtain ⟨p, m, hparse, hlower, hresult⟩ := exists_of_lowered hrun
  simp only [Prod.mk.injEq] at hresult
  obtain ⟨hlayout, hreads, hscope⟩ := hresult
  obtain ⟨l, hl, hbinding⟩ := Option.map_eq_some_iff.1 hlayout
  obtain ⟨s, hs, hsreads⟩ := Option.map_eq_some_iff.1 hreads
  refine ⟨p, m, hparse, hlower, hreads, ?_⟩
  exact (toCommonJs_readsInOrder hlower).2 4 l s hl (by simp [hbinding]) hs "a" (by simp [hsreads])
    (by decide) (by simp [hscope])

/-- An export can be assigned before the `exports` that the module declares itself. -/
theorem not_readsInOrder :
    ¬ ∀ (p : Program) (isExternal : Bool) (m : CommonJsModule), p.toCommonJs isExternal = .ok m →
      ReadsInOrder [] p m.body := by
  intro horder
  have hrun : ((Program.parse ⟨.ecmaScript, false⟩
      "export const a = 1\nconst exports = 0").toOption.bind fun p =>
      (p.toCommonJs true).toOption.map fun m => (p.layout[1]?.map LoweredStmt.binding?,
        m.body.map Stmt.reads, m.body.map Stmt.scopeNames)) =
      some (some (some "a"), [[], ["exports", "a"], []], [["a"], [], ["exports"]]) := by
    decide +kernel
  obtain ⟨p, m, -, hlower, hresult⟩ := exists_of_lowered hrun
  simp only [Prod.mk.injEq] at hresult
  obtain ⟨hlayout, hreads, hscope⟩ := hresult
  obtain ⟨l, hl, hbinding⟩ := Option.map_eq_some_iff.1 hlayout
  obtain ⟨s, hs, hsreads⟩ : ∃ s, m.body[1]? = some s ∧ s.reads = ["exports", "a"] := by
    have hread := congrArg (fun names => names[1]?) hreads
    simpa using hread
  have hdeclared : "exports" ∈ m.body.flatMap Stmt.scopeNames := by
    rw [List.flatMap_def, hscope]
    decide
  -- the second statement reads `exports`, and only the third one declares it
  obtain ⟨j, hj, t, ht, hname⟩ := horder p true m hlower 1 l s hl (by simp [hbinding]) hs "exports"
    (by simp [hsreads]) (by simp) hdeclared
  obtain rfl : j = 0 := by omega
  have hfirst : t.scopeNames = ["a"] := by
    have hnames := congrArg (fun names => names[0]?) hscope
    simpa [ht] using hnames
  rw [hfirst] at hname
  simp at hname

end TsxCompiler
