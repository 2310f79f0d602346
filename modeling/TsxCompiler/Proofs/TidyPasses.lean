import TsxCompiler.Lower.Markup
import TsxCompiler.Pass.Registry
import TsxCompiler.Proofs.PassChains
import TsxCompiler.Proofs.TidyTraversals

/-!
# Passes and lowered markup keep trees tidy

What passes and lowerings put into a module is made of fixed names, of names the module has already
and of quoted values. So instrumented modules are tidy again (`Refresh.instrument_tidy`), whatever
built-in passes are applied (`Pass.applyAll_tidy`), and a module whose markup has become calls is
tidy without markup (`Program.lowerMarkup_tidy`).
-/

namespace TsxCompiler

open Highlight Text

variable {markup : Bool}

/-! ## Made-up code -/

/-- The parts of a plain text are plain. -/
theorem isPlain_part {sep : Char} {path part : String} (h : isPlain path = true)
    (hpart : part ∈ parts sep path) : isPlain part = true := by
  have hsplit : ∀ {s : List Char}, s.all opensNothing = true →
      ∀ w ∈ splitAt sep s, w.all opensNothing = true := by
    intro s hs
    induction s with
    | nil => simp [splitAt]
    | cons c s ih =>
      simp only [List.all_cons, Bool.and_eq_true] at hs
      have hrest := ih hs.2
      rw [splitAt]
      split
      · exact List.forall_mem_cons.2 ⟨rfl, hrest⟩
      · split
        · simp [hs.1]
        · -- the character joins the first part
          rename_i hw
          rw [hw] at hrest
          obtain ⟨hfirst, hmore⟩ := List.forall_mem_cons.1 hrest
          refine List.forall_mem_cons.2 ⟨?_, hmore⟩
          rw [List.all_cons, hs.1, hfirst]
          rfl
  obtain ⟨w, hw, rfl⟩ := List.mem_map.1 hpart
  rw [isPlain, String.toList_ofList]
  exact hsplit h w hw

@[simp] theorem allTidy_ofString (value : String) : AllTidy markup (Expr.ofString value).nodes := by
  simp only [Expr.ofString, Expr.nodes, allNodes_cons]
  exact ⟨isClean_quote value, allNodes_nil⟩

@[simp] theorem allTidy_ofBool (value : Bool) : AllTidy markup (Expr.ofBool value).nodes := by
  simp only [Expr.ofBool, Expr.nodes, allNodes_cons]
  exact ⟨by cases value <;> exact .ofPlain rfl, allNodes_nil⟩

@[simp] theorem allTidy_dot (object : Expr) (name : String) :
    AllTidy markup (object.dot name).nodes ↔
      isPlain name = true ∧ AllTidy markup object.nodes := by
  simp [Expr.dot, MemberKey.Tidy]

@[simp] theorem allTidy_apply (callee : Expr) (args : List Expr) :
    AllTidy markup (callee.apply args).nodes ↔
      AllTidy markup callee.nodes ∧ ∀ a ∈ args, AllTidy markup a.nodes := by
  simp [Expr.apply]

theorem allTidy_ofPath {path : String} (hparts : ∀ part ∈ parts '.' path, isPlain part = true) :
    AllTidy markup (Expr.ofPath path).nodes := by
  have hfold : ∀ {names : List String} {e : Expr}, (∀ x ∈ names, isPlain x = true) →
      AllTidy markup e.nodes → AllTidy markup (names.foldl Expr.dot e).nodes := by
    intro names
    induction names with
    | nil => exact fun _ he => he
    | cons name names ih =>
      intro e hnames he
      obtain ⟨hname, hrest⟩ := List.forall_mem_cons.1 hnames
      exact ih hrest ((allTidy_dot e name).2 ⟨hname, he⟩)
  unfold Expr.ofPath
  split
  · exact (allNodes_cons _ _).2 ⟨rfl, allNodes_nil⟩
  · rename_i hpath
    rw [hpath] at hparts
    obtain ⟨hhead, hrest⟩ := List.forall_mem_cons.1 hparts
    exact hfold hrest ((allNodes_cons _ _).2 ⟨hhead, allNodes_nil⟩)

@[simp] theorem allTidy_assign (target value : Expr) :
    AllTidy markup (Stmt.assign target value).nodes ↔
      AllTidy markup target.nodes ∧ AllTidy markup value.nodes := by
  simp [Stmt.assign]

@[simp] theorem allTidy_declare (kind : VarKind) (name : String) (init : Expr) :
    AllTidy markup (Stmt.declare kind name init).nodes ↔
      isPlain name = true ∧ AllTidy markup init.nodes := by
  simp [Stmt.declare]

/-! ## Markup as calls -/

theorem allTidy_tagExpr {name : String} (h : isPlain name = true) :
    AllTidy markup (tagExpr name).nodes := by
  simp only [tagExpr]
  split
  · exact allTidy_ofString name
  · exact allTidy_ofPath fun part => isPlain_part h

theorem tidy_attributeKey (markup : Bool) (name : String) :
    (attributeKey name).Tidy ∧ AllTidy markup (attributeKey name).nodes := by
  unfold attributeKey
  split
  · rename_i hname
    exact ⟨isPlain_of_isIdentifier hname, allNodes_nil⟩
  · exact ⟨isClean_quote name, allNodes_nil⟩

/-- What elements and fragments are made with, as code. -/
structure Pragma.Tidy (markup : Bool) (pragma : Pragma) : Prop where
  element : AllTidy markup (Expr.ofPath pragma.element).nodes
  fragment : AllTidy markup (Expr.ofPath pragma.fragment).nodes

variable {pragma : Pragma}

mutual

theorem Element.toCall_tidy (hp : pragma.Tidy markup) (e : Element) (h : AllTidy markup e.nodes) :
    AllTidy markup (e.toCall pragma).nodes := by
  match e with
  | ⟨name, attributes, children, selfClosing⟩ =>
    simp only [Element.nodes, allNodes_cons, allNodes_append] at h
    rw [Element.toCall.eq_def, allTidy_apply]
    refine ⟨hp.element, List.forall_mem_cons.2 ⟨?_, List.forall_mem_cons.2
      ⟨?_, Child.toArguments_tidy hp children h.2.2⟩⟩⟩
    · cases name with
      | none => exact hp.fragment
      | some name => exact allTidy_tagExpr (h.1.name name rfl)
    · split
      · simp only [Expr.nodes, allNodes_cons]
        exact ⟨.ofPlain rfl, allNodes_nil⟩
      · simp only [Expr.nodes, allNodes_cons]
        exact Attribute.toProperties_tidy hp attributes h.1.attributes h.2.1

theorem Attribute.toProperties_tidy (hp : pragma.Tidy markup) (attributes : List Attribute)
    (hattributes : ∀ a ∈ attributes, a.Tidy) (h : AllTidy markup (Attribute.nodesAll attributes)) :
    (∀ p ∈ Attribute.toProperties pragma attributes, p.Tidy) ∧
      AllTidy markup (Property.nodesAll (Attribute.toProperties pragma attributes)) := by
  match attributes with
  | [] => exact ⟨nofun, allNodes_nil⟩
  | .spread value :: rest =>
    simp only [Attribute.nodesAll, Attribute.nodes, allNodes_append] at h
    have hrest := Attribute.toProperties_tidy hp rest (List.forall_mem_cons.1 hattributes).2 h.2
    exact ⟨List.forall_mem_cons.2 ⟨trivial, hrest.1⟩, (allNodes_append _ _).2 ⟨h.1, hrest.2⟩⟩
  | .named name none :: rest =>
    simp only [Attribute.nodesAll, Attribute.nodes, allNodes_append] at h
    have hkey := tidy_attributeKey markup name
    have hrest := Attribute.toProperties_tidy hp rest (List.forall_mem_cons.1 hattributes).2 h.2
    exact ⟨List.forall_mem_cons.2 ⟨hkey.1, hrest.1⟩, (allNodes_append _ _).2
      ⟨(allNodes_append _ _).2 ⟨hkey.2, allTidy_ofBool true⟩, hrest.2⟩⟩
  | .named name (some value) :: rest =>
    simp only [Attribute.nodesAll, Attribute.nodes, allNodes_append] at h
    have hkey := tidy_attributeKey markup name
    obtain ⟨hvalue, hattributes⟩ := List.forall_mem_cons.1 hattributes
    have hrest := Attribute.toProperties_tidy hp rest hattributes h.2
    exact ⟨List.forall_mem_cons.2 ⟨hkey.1, hrest.1⟩, (allNodes_append _ _).2
      ⟨(allNodes_append _ _).2 ⟨hkey.2, value.toExpr_tidy hp name hvalue h.1⟩, hrest.2⟩⟩

theorem AttributeValue.toExpr_tidy (hp : pragma.Tidy markup) (v : AttributeValue) (name : String)
    (hv : (Attribute.named name (some v)).Tidy) (h : AllTidy markup v.nodes) :
    AllTidy markup (v.toExpr pragma).nodes := by
  match v with
  | .string lit =>
    exact (allNodes_cons _ _).2 ⟨hv, allNodes_nil⟩
  | .expr value => exact h
  | .element element => exact element.toCall_tidy hp h

theorem Child.toArguments_tidy (hp : pragma.Tidy markup) (children : List Child)
    (h : AllTidy markup (Child.nodesAll children)) :
    ∀ e ∈ Child.toArguments pragma children, AllTidy markup e.nodes := by
  match children with
  | [] => exact nofun
  | .text raw :: rest =>
    simp only [Child.nodesAll, allNodes_append] at h
    have hrest := Child.toArguments_tidy hp rest h.2
    rw [Child.toArguments]
    split
    · exact List.forall_mem_cons.2 ⟨allTidy_ofString _, hrest⟩
    · exact hrest
  | .expr none :: rest =>
    simp only [Child.nodesAll, allNodes_append] at h
    exact Child.toArguments_tidy hp rest h.2
  | .expr (some value) :: rest =>
    simp only [Child.nodesAll, allNodes_append] at h
    rw [Child.toArguments]
    exact List.forall_mem_cons.2 ⟨h.1, Child.toArguments_tidy hp rest h.2⟩
  | .element element :: rest =>
    simp only [Child.nodesAll, allNodes_append] at h
    rw [Child.toArguments]
    exact List.forall_mem_cons.2 ⟨element.toCall_tidy hp h.1, Child.toArguments_tidy hp rest h.2⟩

end

theorem Expr.lowerMarkup_tidy (hp : pragma.Tidy false) {e : Expr} (h : e.Tidy true)
    (htail : AllTidy false e.nodes.tail) : AllTidy false (e.lowerMarkup pragma).nodes := by
  cases e with
  | jsx element => exact element.toCall_tidy hp htail
  | _ =>
    rw [Expr.lowerMarkup, Expr.nodes_eq]
    · exact (allNodes_cons _ _).2 ⟨h, htail⟩
    · exact nofun

/-- A module with calls in place of its markup is tidy without markup. -/
theorem Program.lowerMarkup_tidy {p q : Program} (h : AllTidy true p.nodes)
    (hq : p.lowerMarkup pragma = .ok q) : AllTidy false q.nodes := by
  have hpath : ∀ {path : String}, isDottedPath path = true →
      AllTidy false (Expr.ofPath path).nodes := by
    intro path hdotted
    rw [isDottedPath, List.all_eq_true] at hdotted
    exact allTidy_ofPath fun part hpart => isPlain_of_isIdentifier (hdotted part hpart)
  unfold Program.lowerMarkup at hq
  split at hq
  · cases hq
  · split at hq
    · cases hq
    · rename_i helement hfragment
      simp only [Bool.not_eq_true', Bool.not_eq_false] at helement hfragment
      cases hq
      -- only expressions are rewritten
      have hkeeps : (Traversal.onExprs (Expr.lowerMarkup pragma)).KeepsTidy .ofId false :=
        { item := fun _ _ => rfl
          stmt := fun _ _ => rfl
          decl := fun _ _ => rfl
          func := fun _ _ => rfl
          classBody := fun _ _ => rfl
          pattern := fun _ _ => rfl
          element := fun _ _ => rfl
          block := fun _ _ _ hwalk => hwalk
          expr := fun _ _ hwalk =>
            Expr.lowerMarkup_tidy ⟨hpath helement, hpath hfragment⟩ hwalk.1 hwalk.2 }
      exact Program.traverse_tidy hkeeps p h

/-! ## Signed components -/

/-- Signing adds one call at the front of a block, whose name is plain; all else is left as it is. -/
theorem Traversal.signing_keepsTidy :
    Traversal.signing.KeepsTidy (.ofState BodyScan) true where
  item _ _ := rfl
  stmt _ _ := rfl
  decl _ _ := rfl
  func _ _ := rfl
  classBody _ _ := rfl
  pattern _ _ := rfl
  element _ _ := rfl
  block stmts walk hstmts _ scan := by
    have hname : isPlain "__s" = true := rfl
    have hcall : AllTidy true signatureCall.nodes := by
      simp [signatureCall, hname]
    have hsigned : AllTidy true (Stmt.nodesAll (signatureCall :: stmts)) :=
      (allNodes_append _ _).2 ⟨hcall, hstmts⟩
    show AllTidy true (Stmt.nodesAll ((Traversal.signing.block stmts walk).run scan).1)
    simp only [Traversal.signing, StateT.run_bind, StateT.run_get, pure_bind]
    split
    · exact hstmts
    · rw [StateT.run_bind, StateT.run_set, pure_bind]
      split
      · exact hstmts
      · exact hsigned
  expr e walk hwalk scan := by
    obtain ⟨htop, htail⟩ := hwalk scan
    show AllTidy true (walk.run scan).1.nodes
    rw [Expr.nodes_eq]
    exact (allNodes_cons _ _).2 ⟨htop, htail⟩

theorem Item.sign_tidy {x : Item} (h : AllTidy true x.nodes) : AllTidy true x.sign.1.nodes :=
  x.traverse_tidy Traversal.signing_keepsTidy h .start

/-- The name of a component is a name in the item that defines it. -/
theorem Item.isPlain_candidateName {x : Item} {name : String} (h : AllTidy markup x.nodes)
    (hname : x.candidateName = some name) : isPlain name = true := by
  have hdecl : ∀ {d : Decl}, AllTidy markup d.nodes → d.candidateName = some name →
      isPlain name = true := by
    intro d hd hname
    unfold Decl.candidateName at hname
    split at hname
    · simp only [Decl.nodes, allNodes_cons] at hd
      cases hname
      exact hd.1
    · split at hname
      · simp only [Decl.nodes, Declarator.nodesAll, Declarator.nodes, Pattern.nodes, allNodes_cons,
          allNodes_append] at hd
        cases hname
        exact hd.2.1.1.1
      · cases hname
    · cases hname
  unfold Item.candidateName at hname
  split at hname
  · simp only [Item.nodes, Stmt.nodes, allNodes_cons] at h
    exact hdecl h.2.2 hname
  · simp only [Item.nodes, Export.nodes, allNodes_cons] at h
    exact hdecl h.2 hname
  · simp only [Item.nodes, allNodes_cons] at h
    exact h.1 name hname
  · cases hname

namespace Refresh

/-- Signed items are tidy, and so are the names of their components. -/
theorem signAll_tidy (skip : List String) (items : List Item)
    (h : ∀ x ∈ items, AllTidy true x.nodes) :
    (∀ x ∈ (signAll skip items).1, AllTidy true x.nodes) ∧
      ∀ c ∈ (signAll skip items).2, isPlain c.name = true := by
  induction items generalizing skip with
  | nil => exact ⟨nofun, nofun⟩
  | cons item rest ih =>
    obtain ⟨hitem, hrest⟩ := List.forall_mem_cons.1 h
    rw [signAll]
    split
    · obtain ⟨hitems, hcomponents⟩ := ih skip hrest
      exact ⟨List.forall_mem_cons.2 ⟨hitem, hitems⟩, hcomponents⟩
    · rename_i name hname
      have hsigned := Item.sign_tidy hitem
      have hplain : isPlain name = true :=
        Item.isPlain_candidateName hitem (Option.eq_some_of_filter_eq_some hname)
      simp only
      split
      · obtain ⟨hitems, hcomponents⟩ := ih skip hrest
        exact ⟨List.forall_mem_cons.2 ⟨hsigned, hitems⟩, hcomponents⟩
      · obtain ⟨hitems, hcomponents⟩ := ih (name :: skip) hrest
        exact ⟨List.forall_mem_cons.2 ⟨hsigned, hitems⟩,
          List.forall_mem_cons.2 ⟨hplain, hcomponents⟩⟩

theorem allTidy_fixedPath {path : String} (h : isPlain path = true) :
    AllTidy true (Expr.ofPath path).nodes :=
  allTidy_ofPath fun _ => isPlain_part h

theorem prologue_tidy (components : List Component) :
    ∀ s ∈ prologue components, AllTidy true s.nodes := by
  have hregister : AllTidy true registerRef.nodes := allTidy_fixedPath rfl
  have hsignature : AllTidy true signatureRef.nodes := allTidy_fixedPath rfl
  have hgetRegister : AllTidy true (Expr.ofPath "global.$RefreshRuntime$.getRegisterFunction").nodes :=
    allTidy_fixedPath rfl
  have hgetSignature : AllTidy true
      (Expr.ofPath "global.$RefreshRuntime$.getCreateSignatureFunction").nodes :=
    allTidy_fixedPath rfl
  have hnames : isPlain "__prevRefreshReg" = true ∧ isPlain "__prevRefreshSig" = true ∧
      isPlain "__s" = true := ⟨rfl, rfl, rfl⟩
  unfold prologue
  split
  · simp [hregister, hsignature, hgetRegister, hgetSignature, hnames]
  · simp [hregister, hsignature, hgetRegister, hnames]

theorem register_tidy (moduleId : String) {c : Component} (h : isPlain c.name = true) :
    ∀ s ∈ c.register moduleId, AllTidy true s.nodes := by
  have hregister : AllTidy true registerRef.nodes := allTidy_fixedPath rfl
  have hcontext : AllTidy true (Expr.ofPath "global.$RefreshRuntime$.getContext").nodes :=
    allTidy_fixedPath rfl
  have hnames : isPlain "__s" = true ∧ isPlain "accept" = true := ⟨rfl, rfl⟩
  unfold Component.register
  split
  · simp [hregister, hcontext, hnames, h]
  · simp [hregister, hcontext, hnames, h]

theorem epilogue_tidy (moduleId : String) {components : List Component}
    (h : ∀ c ∈ components, isPlain c.name = true) :
    ∀ s ∈ epilogue moduleId components, AllTidy true s.nodes := by
  have hregister : AllTidy true registerRef.nodes := allTidy_fixedPath rfl
  have hsignature : AllTidy true signatureRef.nodes := allTidy_fixedPath rfl
  have hnames : isPlain "__prevRefreshReg" = true ∧ isPlain "__prevRefreshSig" = true := ⟨rfl, rfl⟩
  intro s hs
  rcases List.mem_append.1 hs with hs | hs
  · obtain ⟨c, hc, hs⟩ := List.mem_flatMap.1 hs
    exact register_tidy moduleId (h c hc) s hs
  · simp only [List.mem_cons, List.not_mem_nil, or_false] at hs
    rcases hs with rfl | rfl
    · simp [hregister, hnames]
    · simp [hsignature, hnames]

/-- An instrumented module is tidy. -/
theorem instrument_tidy (moduleId : String) {p : Program} (h : AllTidy true p.nodes) :
    AllTidy true (instrument moduleId p).nodes := by
  simp only [Program.nodes, allNodes_flatMap] at h
  obtain ⟨hitems, hcomponents⟩ := signAll_tidy p.ignoredComponents p.body h
  have hstmts : ∀ {stmts : List Stmt}, (∀ s ∈ stmts, AllTidy true s.nodes) →
      AllTidy true ((stmts.map Item.stmt).flatMap Item.nodes) := by
    intro stmts hs
    refine (allNodes_flatMap _ _).2 fun x hx => ?_
    obtain ⟨s, hmem, rfl⟩ := List.mem_map.1 hx
    exact (allNodes_cons _ _).2 ⟨trivial, hs s hmem⟩
  cases hsign : signAll p.ignoredComponents p.body with
  | mk items components =>
  rw [hsign] at hitems hcomponents
  simp only [instrument, hsign]
  split
  · exact (allNodes_flatMap _ _).2 hitems
  · simp only [Program.nodes, List.flatMap_append, allNodes_append]
    exact ⟨⟨hstmts (prologue_tidy _), (allNodes_flatMap _ _).2 hitems⟩,
      hstmts (epilogue_tidy moduleId hcomponents)⟩

end Refresh

/-! ## Built-in passes -/

/-- A pass that comes with the program, with options it takes. -/
def Pass.IsBuiltin (pass : Pass) : Prop :=
  Registry.builtins.resolve pass.name pass.options = .ok pass

/-- A built-in pass changes nothing or registers components. -/
theorem Pass.IsBuiltin.apply_eq {pass : Pass} (h : pass.IsBuiltin) :
    pass.apply = Transform.identity ∨ ∃ options, pass.apply = Refresh.transform options := by
  have hentries : Registry.builtins.entries =
      [⟨"identity", "Returns the program unchanged", Registry.makeIdentity⟩,
        ⟨"react-refresh", "Registers components with the fast-refresh runtime",
          Registry.makeRefresh⟩] := rfl
  rw [Pass.IsBuiltin, Registry.resolve] at h
  split at h
  · cases h
  · rename_i entry hentry
    have hmem := List.mem_of_find?_eq_some hentry
    rw [hentries] at hmem
    simp only [List.mem_cons, List.not_mem_nil, or_false] at hmem
    split at h
    · rename_i transform hmake
      have happly : pass.apply = transform := (congrArg Pass.apply (Except.ok.inj h)).symm
      -- one of the two entries, whose maker may still refuse its options
      rcases hmem with rfl | rfl
      · left
        simp only [Registry.makeIdentity] at hmake
        split at hmake
        · cases hmake
          exact happly
        · cases hmake
      · right
        simp only [Registry.makeRefresh] at hmake
        cases hoptions : Refresh.Options.ofBag pass.options with
        | error cause =>
          rw [hoptions] at hmake
          cases hmake
        | ok options =>
          rw [hoptions] at hmake
          cases hmake
          exact ⟨options, happly⟩
    · cases h

theorem Pass.apply_tidy {pass : Pass} (hpass : pass.IsBuiltin) {ctx : RunContext} {p q : Program}
    (h : AllTidy true p.nodes) (hq : pass.apply p ctx = .ok q) : AllTidy true q.nodes := by
  rcases hpass.apply_eq with happly | ⟨options, happly⟩
  · rw [happly, Transform.identity] at hq
    cases hq
    exact h
  · rw [happly, Refresh.transform] at hq
    split at hq
    · cases hq
      exact Refresh.instrument_tidy _ h
    · cases hq

/-- What built-in passes leave of a tidy module is tidy. -/
theorem Pass.applyAll_tidy {ctx : RunContext} {passes : List Pass}
    (hpasses : ∀ pass ∈ passes, pass.IsBuiltin) {index : Nat} {p q : Program}
    (h : AllTidy true p.nodes) (hq : (Pass.applyAll ctx index passes p).outcome = .ok q) :
    AllTidy true q.nodes := by
  induction passes generalizing index p with
  | nil =>
    cases hq
    exact h
  | cons pass rest ih =>
    obtain ⟨hpass, hrest⟩ := List.forall_mem_cons.1 hpasses
    cases happly : pass.apply p ctx with
    | error cause =>
      rw [applyAll_cons_error happly] at hq
      cases hq
    | ok next =>
      rw [applyAll_cons_ok happly] at hq
      exact ih hrest (Pass.apply_tidy hpass h happly) hq

end TsxCompiler
