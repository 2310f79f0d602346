import TsxCompiler.Proofs.RefreshedItems

/-!
# The body of a component

Fast refresh is meant to look at the body of a component: a component whose body is empty is not
registered, and one whose body calls hooks is signed there. It looks at the first block of the item
instead, and the parameters come before the body. So it does what it is meant to do for functions
whose parameters hold no block (`Refresh.instrument_ownBody`), and a default value with a block in it
takes the place of the body (`Refresh.not_instrument_ownBody`).
-/

namespace TsxCompiler

/-! ## Calls of hooks -/

/-- A call of a function or a member whose name is that of a hook. -/
inductive Expr.IsHookCall : Expr → Prop
  | byName {name : String} {args : List Argument} {optional : Bool} :
    isHookName name = true → IsHookCall (.call (.ident name) args optional)
  | byMember {object : Expr} {name : String} {chained : Bool} {args : List Argument}
      {optional : Bool} :
    isHookName name = true → IsHookCall (.call (.member object (.ident name) chained) args optional)

/-- A statement that is a hook call or initialises a variable with one. -/
inductive Stmt.CallsHook : Stmt → Prop
  | expr {e : Expr} : e.IsHookCall → CallsHook (.expr e)
  | var {kind : VarKind} {declarators : List Declarator} {d : Declarator} {e : Expr} :
    d ∈ declarators → d.init = some e → e.IsHookCall → CallsHook (.decl (.var kind declarators))

theorem isHookName_of_builtin {name : String} (h : name ∈ builtinHooks) : isHookName name = true := by
  have hall : builtinHooks.all isHookName = true := by decide
  exact List.all_eq_true.1 hall name h

theorem Expr.calledHook_ne_none_iff (e : Expr) : e.calledHook ≠ none ↔ e.IsHookCall := by
  have hfilter : ∀ name, (builtinHooks.contains name || isHookName name) = isHookName name := by
    intro name
    by_cases hname : name ∈ builtinHooks
    · simp [isHookName_of_builtin hname]
    · simp [hname]
  constructor
  · intro h
    simp only [calledHook, hfilter] at h
    unfold calledName at h
    split at h
    · exact .byName (by simpa [Option.filter] using h)
    · exact .byMember (by simpa [Option.filter] using h)
    · exact absurd rfl h
  · rintro (⟨hname⟩ | ⟨hname⟩) <;> simp [calledHook, calledName, Option.filter, hname]

theorem Stmt.hooks_ne_nil_iff (s : Stmt) : s.hooks ≠ [] ↔ s.CallsHook := by
  constructor
  · intro h
    unfold hooks at h
    split at h
    · refine .expr ((Expr.calledHook_ne_none_iff _).1 fun hnone => h ?_)
      rw [hnone]
      rfl
    · obtain ⟨name, hname⟩ := List.exists_mem_of_ne_nil _ h
      obtain ⟨d, hd, hmem⟩ := List.mem_flatMap.1 hname
      obtain ⟨e, hinit, hcall⟩ := Option.bind_eq_some_iff.1 (Option.mem_toList.1 hmem)
      exact .var hd hinit ((Expr.calledHook_ne_none_iff e).1 (by simp [hcall]))
    · exact absurd rfl h
  · rintro (hcall | ⟨hd, hinit, hcall⟩)
    · simpa [hooks] using (Expr.calledHook_ne_none_iff _).2 hcall
    · obtain ⟨name, hname⟩ := Option.ne_none_iff_exists'.1 ((Expr.calledHook_ne_none_iff _).2 hcall)
      refine List.ne_nil_of_mem (List.mem_flatMap.2 ⟨_, hd, ?_⟩) (a := name)
      simp [hinit, hname]

/-- A block is signed exactly if one of its statements calls a hook. -/
theorem isEmpty_blockHooks_iff (stmts : List Stmt) :
    (blockHooks stmts).isEmpty = true ↔ ¬ ∃ s ∈ stmts, s.CallsHook := by
  simp only [blockHooks, List.isEmpty_iff, List.flatMap_eq_nil_iff, not_exists, not_and,
    ← Stmt.hooks_ne_nil_iff, ne_eq, not_not]

/-! ## Functions at the top level -/

/-- Declarations of a function with a block for its body, in terms of parameters and body. -/
inductive Decl.BlockBodied (name : String) : (List Pattern → List Stmt → Decl) → Prop
  | func (isAsync : Bool) : BlockBodied name fun params body => .func name ⟨isAsync, params, body⟩
  | funcExpr (kind : VarKind) (own : Option String) (isAsync : Bool) :
    BlockBodied name fun params body =>
      .var kind [⟨.ident name, some (.func own ⟨isAsync, params, body⟩)⟩]
  | arrow (kind : VarKind) (isAsync : Bool) :
    BlockBodied name fun params body =>
      .var kind [⟨.ident name, some (.arrow isAsync params (.block body))⟩]

/-- Items that define such a function, exported or not, by name or by default. -/
inductive Item.BlockBodied (name : String) : (List Pattern → List Stmt → Item) → Prop
  | decl {shape : List Pattern → List Stmt → Decl} : Decl.BlockBodied name shape →
    BlockBodied name fun params body => .stmt (.decl (shape params body))
  | exported {shape : List Pattern → List Stmt → Decl} : Decl.BlockBodied name shape →
    BlockBodied name fun params body => .exports (.decl (shape params body))
  | default (isAsync : Bool) :
    BlockBodied name fun params body =>
      .exports (.default (.func (some name) ⟨isAsync, params, body⟩))

/-- Items that define an arrow function with a value for its body, exported or not. -/
inductive Item.ValueBodied (name : String) : (List Pattern → Expr → Item) → Prop
  | decl (kind : VarKind) (isAsync : Bool) :
    ValueBodied name fun params value =>
      .stmt (.decl (.var kind [⟨.ident name, some (.arrow isAsync params (.expr value))⟩]))
  | exported (kind : VarKind) (isAsync : Bool) :
    ValueBodied name fun params value =>
      .exports (.decl (.var kind [⟨.ident name, some (.arrow isAsync params (.expr value))⟩]))

section

variable {name : String} {params : List Pattern}

theorem Item.BlockBodied.candidateName {shape : List Pattern → List Stmt → Item}
    (h : Item.BlockBodied name shape) (body : List Stmt) :
    (shape params body).candidateName = some name := by
  rcases h with ⟨⟨⟩⟩ | ⟨⟨⟩⟩ | _ <;> rfl

theorem Item.ValueBodied.candidateName {shape : List Pattern → Expr → Item}
    (h : Item.ValueBodied name shape) (value : Expr) :
    (shape params value).candidateName = some name := by
  rcases h with _ | _ <;> rfl

/-- Whatever the shape is, the parameters are walked through first and the body next. -/
theorem Item.BlockBodied.sign_eq {shape : List Pattern → List Stmt → Item}
    (h : Item.BlockBodied name shape) (params : List Pattern) (body : List Stmt) :
    (shape params body).sign =
      let fromParams := (Pattern.traverseAll .signing params).run .start
      let fromBody := (Traversal.signing.block body (Stmt.traverseAll .signing body)).run fromParams.2
      (shape fromParams.1 fromBody.1, fromBody.2) := by
  rcases h with ⟨⟨⟩⟩ | ⟨⟨⟩⟩ | _ <;> rfl

/-- A body without a block in the parameters before it is the block that is signed. -/
theorem Item.BlockBodied.sign_body {shape : List Pattern → List Stmt → Item}
    (h : Item.BlockBodied name shape) (hparams : holdBlock (Pattern.nodesAll params) = false)
    (body : List Stmt) :
    (shape params body).sign = (shape params (signBlock body), .ofBlock body) := by
  rw [h.sign_eq, (Pattern.traverseAll_signs params).without hparams]
  rfl

/-- A block in the parameters is signed in place of the body. -/
theorem Item.BlockBodied.sign_params {shape : List Pattern → List Stmt → Item}
    (h : Item.BlockBodied name shape) (hparams : holdBlock (Pattern.nodesAll params) = true)
    (body : List Stmt) :
    ∃ (f : List Stmt → List Pattern) (stmts : List Stmt), OpenBlock f ∧ f stmts = params ∧
      (shape params body).sign = (shape (f (signBlock stmts)) body, .ofBlock stmts) := by
  obtain ⟨f, stmts, hf, rfl, hfirst⟩ := (Pattern.traverseAll_signs params).first hparams
  refine ⟨f, stmts, hf, rfl, ?_⟩
  rw [h.sign_eq, hfirst .start rfl]
  rfl

theorem Item.ValueBodied.sign {shape : List Pattern → Expr → Item}
    (h : Item.ValueBodied name shape) (hparams : holdBlock (Pattern.nodesAll params) = false)
    {value : Expr} (hvalue : holdBlock value.nodes = false) :
    (shape params value).sign = (shape params value, .start) := by
  have hwalk : (shape params value).sign =
      let fromParams := (Pattern.traverseAll .signing params).run .start
      let fromValue := (value.traverse .signing).run fromParams.2
      (shape fromParams.1 fromValue.1, fromValue.2) := by
    rcases h with _ | _ <;> rfl
  rw [hwalk, (Pattern.traverseAll_signs params).without hparams]
  show (shape params ((value.traverse .signing).run .start).1, _) = _
  rw [value.traverse_signs.without hvalue]

end

/-! ## One item among the others -/

namespace Refresh

/-- The items before a place are signed first, and what they register is skipped from there on. -/
theorem signAll_append (skip : List String) (before rest : List Item) :
    signAll skip (before ++ rest) =
      let first := signAll skip before
      let others := signAll ((first.2.map Component.name).reverse ++ skip) rest
      (first.1 ++ others.1, first.2 ++ others.2) := by
  induction before generalizing skip with
  | nil => rfl
  | cons item before ih =>
    rw [List.cons_append, signAll, signAll]
    split
    · simp [ih skip]
    · rename_i name _
      by_cases hblock : item.sign.2.isEmpty = true
      · simp [hblock, ih skip]
      · simp [hblock, ih (name :: skip)]

/-- A name that no item before a place registers, and that is not one of the ignored names. -/
structure Unclaimed (name : String) (before : List Item) (item : Item) (after : List Item) :
    Prop where
  notIgnored : name ∉ Program.ignoredComponents ⟨before ++ item :: after⟩
  notRegistered :
    ∀ c ∈ (signAll (Program.ignoredComponents ⟨before ++ item :: after⟩) before).2, c.name ≠ name

/-- What an item of a module becomes when the module is instrumented, and the component that is
registered for it: the items before it are signed and registered first, and those behind it next,
with the names registered so far left out. -/
def Becomes (moduleId : String) (before : List Item) (item : Item) (after : List Item) (new : Item)
    (own : Option Component) : Prop :=
  let ignored := Program.ignoredComponents ⟨before ++ item :: after⟩
  let first := signAll ignored before
  let claimed := own.toList.map Component.name ++ ((first.2.map Component.name).reverse ++ ignored)
  let others := signAll claimed after
  instrument moduleId ⟨before ++ item :: after⟩ =
    registering moduleId (first.1 ++ new :: others.1) (first.2 ++ (own.toList ++ others.2))

/-- The component that is registered for what was found in an item, if any. -/
def Component.ofScan (name : String) (scan : BodyScan) : Option Component :=
  if scan.isEmpty then none else some ⟨name, scan.hooks⟩

@[simp] theorem Component.map_name_ofScan (name : String) (scan : BodyScan) :
    (Component.ofScan name scan).map Component.name = if scan.isEmpty then none else some name := by
  unfold Component.ofScan
  split <;> rfl

/-- A candidate with a new name is signed, and registered for what was found in it. -/
theorem signAll_candidate {skip : List String} {item : Item} {name : String}
    (hname : isComponentName name = true) (hcandidate : item.candidateName = some name)
    (hskip : name ∉ skip) (rest : List Item) :
    signAll skip (item :: rest) =
      let own := (Component.ofScan name item.sign.2).toList
      let others := signAll (own.map Component.name ++ skip) rest
      (item.sign.1 :: others.1, own ++ others.2) := by
  have hcounted : (item.candidateName.filter fun n => isComponentName n && !skip.contains n) =
      some name := by
    rw [hcandidate, Option.filter_some_eq_some]
    simpa [hname] using hskip
  rw [signAll, hcounted]
  by_cases hblock : item.sign.2.isEmpty = true <;> simp [hblock, Component.ofScan]

/-- A candidate with an unclaimed name becomes what signing makes of it. -/
theorem becomes_sign (moduleId : String) {name : String} (hname : isComponentName name = true)
    {before after : List Item} {item : Item} (hcandidate : item.candidateName = some name)
    (hfree : Unclaimed name before item after) :
    Becomes moduleId before item after item.sign.1 (Component.ofScan name item.sign.2) := by
  have hskip : name ∉ ((signAll (Program.ignoredComponents ⟨before ++ item :: after⟩)
      before).2.map Component.name).reverse ++
        Program.ignoredComponents ⟨before ++ item :: after⟩ := by
    rw [List.mem_append, List.mem_reverse, List.mem_map]
    rintro (⟨c, hc, hcname⟩ | hignored)
    · exact hfree.notRegistered c hc hcname
    · exact hfree.notIgnored hignored
  rw [Becomes, instrument_eq, signAll_append]
  dsimp only
  rw [signAll_candidate hname hcandidate hskip]

/-! ## Which block is looked at -/

/-- What is meant for a function with a block for its body: it is registered unless the body is
empty, and a signature is put at the start of the body, and nowhere else, if a statement of the body
calls a hook. -/
def LooksAtBody (moduleId name : String) (before after : List Item)
    (shape : List Pattern → List Stmt → Item) (params : List Pattern) (body : List Stmt) : Prop :=
  ∃ (new : Item) (own : Option Component),
    Becomes moduleId before (shape params body) after new own ∧
    own.map Component.name = (if body.isEmpty then none else some name) ∧
    ((∃ s ∈ body, s.CallsHook) → new = shape params (signatureCall :: body)) ∧
    ((¬ ∃ s ∈ body, s.CallsHook) → new = shape params body)

/-- The body of a component is looked at where no block lies before it: a function without a block
in its parameters is treated as it is meant to be, and an arrow function without any block is
registered as it is. Elsewhere the first block in the parameters decides whether the component is
registered, and the body is left alone. -/
theorem instrument_ownBody (moduleId : String) {name : String} (hname : isComponentName name = true)
    (before after : List Item) (params : List Pattern) :
    (∀ (shape : List Pattern → List Stmt → Item) (body : List Stmt),
      Item.BlockBodied name shape → Unclaimed name before (shape params body) after →
      (holdBlock (Pattern.nodesAll params) = false →
        LooksAtBody moduleId name before after shape params body) ∧
      (holdBlock (Pattern.nodesAll params) = true →
        ∃ (f : List Stmt → List Pattern) (stmts : List Stmt) (own : Option Component),
          OpenBlock f ∧ f stmts = params ∧
          Becomes moduleId before (shape params body) after (shape (f (signBlock stmts)) body) own ∧
          own.map Component.name = if stmts.isEmpty then none else some name)) ∧
    (∀ (shape : List Pattern → Expr → Item) (value : Expr),
      Item.ValueBodied name shape → Unclaimed name before (shape params value) after →
      holdBlock (Pattern.nodesAll params) = false → holdBlock value.nodes = false →
        ∃ own : Component, own.name = name ∧
          Becomes moduleId before (shape params value) after (shape params value) (some own)) := by
  refine ⟨fun shape body hshape hfree => ⟨fun hparams => ?_, fun hparams => ?_⟩,
    fun shape value hshape hfree hparams hvalue => ?_⟩
  · -- parameters without a block: the block that is looked at is the body
    have hbecomes := becomes_sign moduleId hname (hshape.candidateName body) hfree
    rw [hshape.sign_body hparams] at hbecomes
    refine ⟨_, _, hbecomes, Component.map_name_ofScan name _, fun hhooks => ?_, fun hhooks => ?_⟩
    · rw [signBlock, if_neg (mt (isEmpty_blockHooks_iff body).1 (not_not.2 hhooks))]
    · rw [signBlock, if_pos ((isEmpty_blockHooks_iff body).2 hhooks)]
  · -- a block in the parameters is met first
    have hbecomes := becomes_sign moduleId hname (hshape.candidateName body) hfree
    obtain ⟨f, stmts, hf, hstmts, hsign⟩ := hshape.sign_params hparams body
    rw [hsign] at hbecomes
    exact ⟨f, stmts, _, hf, hstmts, hbecomes, Component.map_name_ofScan name _⟩
  · have hbecomes := becomes_sign moduleId hname (hshape.candidateName value) hfree
    rw [hshape.sign hparams hvalue] at hbecomes
    exact ⟨⟨name, []⟩, rfl, hbecomes⟩

/-- `{ start = 0 }` -/
def counterParams : List Pattern :=
  [.object [.shorthand "start" (some (.lit (.number "0")))]]

/-- `const n = React.useState(start); return n;` -/
def counterBody : List Stmt :=
  [.declare .const "n" (.apply (.dot (.ident "React") "useState") [.ident "start"]),
    .ret (some (.ident "n"))]

/-- An exported counter behind an import and a component of another name. -/
theorem instrument_ownBody_counter :
    isComponentName "Counter" = true ∧
      LooksAtBody "m" "Counter"
        [.imports ⟨[.default "React"], ⟨"react", none⟩, false⟩,
          .stmt (.decl (.func "App" ⟨false, [], [.ret none]⟩))]
        [.exports (.default (.expr (.ident "App")))]
        (fun params body => .exports (.decl
          (.var .const [⟨.ident "Counter", some (.arrow false params (.block body))⟩])))
        counterParams counterBody :=
  have hname : isComponentName "Counter" = true := by decide
  ⟨hname, ((instrument_ownBody "m" hname _ _ counterParams).1 _ counterBody
    (.exported (.arrow .const false)) ⟨by decide, by decide⟩).1 (by decide)⟩

/-- `{ onClick = () => {} }` -/
def buttonParams : List Pattern :=
  [.object [.shorthand "onClick" (some (.arrow false [] (.block [])))]]

/-- `return onClick;` -/
def buttonBody : List Stmt := [.ret (some (.ident "onClick"))]

/-- A handler that does nothing, as the default of a parameter, keeps a component with a body of its
own from being registered. -/
theorem not_instrument_ownBody :
    ¬ ∀ (moduleId name : String) (before after : List Item) (params : List Pattern)
      (shape : List Pattern → List Stmt → Item) (body : List Stmt),
      isComponentName name = true → Item.BlockBodied name shape →
      Unclaimed name before (shape params body) after →
        LooksAtBody moduleId name before after shape params body := by
  intro hlooks
  obtain ⟨new, own, hbecomes, hown, -⟩ := hlooks "m" "Button" [] [] buttonParams _ buttonBody
    (by decide) (.decl (.func false)) ⟨by decide, by decide⟩
  obtain ⟨c, rfl, -⟩ := Option.map_eq_some_iff.1 hown
  -- the module keeps its one item, so nothing is put before and behind it
  have hone : (instrument "m" ⟨[] ++ [.stmt (.decl (.func "Button"
      ⟨false, buttonParams, buttonBody⟩))]⟩).body.length = 1 := rfl
  have hlength := congrArg (fun p => p.body.length) hbecomes
  simp only [hone, registering, signAll] at hlength
  simp [prologue] at hlength

end Refresh

end TsxCompiler
