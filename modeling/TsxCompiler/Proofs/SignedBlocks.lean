import TsxCompiler.Pass.Component

/-!
# Signing the first block

A tree with one of its blocks left open is a function of that block's statements (`OpenBlock`): it
puts them in one place and keeps all the rest. The walk that signs a component does nothing else to
an item than to fill such an opening again: it leaves an item without blocks as it is, and of the
others it signs the first block in source order (`Item.sign_spec`).
-/

namespace TsxCompiler

/-! ## Trees with an open block -/

/-- A tree as a function of the statements of one of its blocks. The three kinds of blocks are those
of block statements, of arrow functions and of other functions; each part of a node may hold one. -/
inductive OpenBlock : {α : Type} → (List Stmt → α) → Prop
  -- blocks
  | block : OpenBlock fun b => Stmt.block b
  | arrowBlock : OpenBlock fun b => ArrowBody.block b
  | funcBody (isAsync : Bool) (params : List Pattern) : OpenBlock fun b => Func.mk isAsync params b
  -- lists and optional parts
  | head {α : Type} {f : List Stmt → α} (rest : List α) : OpenBlock f → OpenBlock fun b => f b :: rest
  | tail {α : Type} {f : List Stmt → List α} (first : α) :
    OpenBlock f → OpenBlock fun b => first :: f b
  | present {α : Type} {f : List Stmt → α} : OpenBlock f → OpenBlock fun b => some (f b)
  -- expressions
  | array {f : List Stmt → List Argument} : OpenBlock f → OpenBlock fun b => Expr.array (f b)
  | object {f : List Stmt → List Property} : OpenBlock f → OpenBlock fun b => Expr.object (f b)
  | func {f : List Stmt → Func} (name : Option String) :
    OpenBlock f → OpenBlock fun b => Expr.func name (f b)
  | arrowParams {f : List Stmt → List Pattern} (isAsync : Bool) (body : ArrowBody) :
    OpenBlock f → OpenBlock fun b => Expr.arrow isAsync (f b) body
  | arrowBody {f : List Stmt → ArrowBody} (isAsync : Bool) (params : List Pattern) :
    OpenBlock f → OpenBlock fun b => Expr.arrow isAsync params (f b)
  | classExpr {f : List Stmt → ClassBody} (name : Option String) :
    OpenBlock f → OpenBlock fun b => Expr.classExpr name (f b)
  | callCallee {f : List Stmt → Expr} (args : List Argument) (optional : Bool) :
    OpenBlock f → OpenBlock fun b => Expr.call (f b) args optional
  | callArgs {f : List Stmt → List Argument} (callee : Expr) (optional : Bool) :
    OpenBlock f → OpenBlock fun b => Expr.call callee (f b) optional
  | newCallee {f : List Stmt → Expr} (args : Option (List Argument)) :
    OpenBlock f → OpenBlock fun b => Expr.new (f b) args
  | newArgs {f : List Stmt → Option (List Argument)} (callee : Expr) :
    OpenBlock f → OpenBlock fun b => Expr.new callee (f b)
  | memberObject {f : List Stmt → Expr} (key : MemberKey) (optional : Bool) :
    OpenBlock f → OpenBlock fun b => Expr.member (f b) key optional
  | memberKey {f : List Stmt → MemberKey} (object : Expr) (optional : Bool) :
    OpenBlock f → OpenBlock fun b => Expr.member object (f b) optional
  | unary {f : List Stmt → Expr} (op : UnaryOp) : OpenBlock f → OpenBlock fun b => Expr.unary op (f b)
  | binaryLeft {f : List Stmt → Expr} (op : BinaryOp) (right : Expr) :
    OpenBlock f → OpenBlock fun b => Expr.binary op (f b) right
  | binaryRight {f : List Stmt → Expr} (op : BinaryOp) (left : Expr) :
    OpenBlock f → OpenBlock fun b => Expr.binary op left (f b)
  | condTest {f : List Stmt → Expr} (cons alt : Expr) :
    OpenBlock f → OpenBlock fun b => Expr.cond (f b) cons alt
  | condCons {f : List Stmt → Expr} (test alt : Expr) :
    OpenBlock f → OpenBlock fun b => Expr.cond test (f b) alt
  | condAlt {f : List Stmt → Expr} (test cons : Expr) :
    OpenBlock f → OpenBlock fun b => Expr.cond test cons (f b)
  | assignTarget {f : List Stmt → Expr} (op : AssignOp) (value : Expr) :
    OpenBlock f → OpenBlock fun b => Expr.assign op (f b) value
  | assignValue {f : List Stmt → Expr} (op : AssignOp) (target : Expr) :
    OpenBlock f → OpenBlock fun b => Expr.assign op target (f b)
  | jsx {f : List Stmt → Element} : OpenBlock f → OpenBlock fun b => Expr.jsx (f b)
  -- parts of expressions
  | argument {f : List Stmt → Expr} (spread : Bool) :
    OpenBlock f → OpenBlock fun b => Argument.mk spread (f b)
  | spreadProperty {f : List Stmt → Expr} : OpenBlock f → OpenBlock fun b => Property.spread (f b)
  | propertyKey {f : List Stmt → PropertyKey} (value : Expr) :
    OpenBlock f → OpenBlock fun b => Property.keyed (f b) value
  | propertyValue {f : List Stmt → Expr} (key : PropertyKey) :
    OpenBlock f → OpenBlock fun b => Property.keyed key (f b)
  | computedKey {f : List Stmt → Expr} : OpenBlock f → OpenBlock fun b => PropertyKey.computed (f b)
  | computedMember {f : List Stmt → Expr} : OpenBlock f → OpenBlock fun b => MemberKey.computed (f b)
  | arrowStmts {f : List Stmt → List Stmt} : OpenBlock f → OpenBlock fun b => ArrowBody.block (f b)
  | arrowValue {f : List Stmt → Expr} : OpenBlock f → OpenBlock fun b => ArrowBody.expr (f b)
  -- patterns
  | arrayPattern {f : List Stmt → List Pattern} : OpenBlock f → OpenBlock fun b => Pattern.array (f b)
  | objectPattern {f : List Stmt → List PatternProperty} :
    OpenBlock f → OpenBlock fun b => Pattern.object (f b)
  | defaultTarget {f : List Stmt → Pattern} (value : Expr) :
    OpenBlock f → OpenBlock fun b => Pattern.withDefault (f b) value
  | defaultValue {f : List Stmt → Expr} (target : Pattern) :
    OpenBlock f → OpenBlock fun b => Pattern.withDefault target (f b)
  | restPattern {f : List Stmt → Pattern} : OpenBlock f → OpenBlock fun b => Pattern.rest (f b)
  | patternKey {f : List Stmt → PropertyKey} (target : Pattern) :
    OpenBlock f → OpenBlock fun b => PatternProperty.keyed (f b) target
  | patternTarget {f : List Stmt → Pattern} (key : PropertyKey) :
    OpenBlock f → OpenBlock fun b => PatternProperty.keyed key (f b)
  | shorthandDefault {f : List Stmt → Option Expr} (name : String) :
    OpenBlock f → OpenBlock fun b => PatternProperty.shorthand name (f b)
  | restProperty {f : List Stmt → Pattern} : OpenBlock f → OpenBlock fun b => PatternProperty.rest (f b)
  -- functions and classes
  | funcParams {f : List Stmt → List Pattern} (isAsync : Bool) (body : List Stmt) :
    OpenBlock f → OpenBlock fun b => Func.mk isAsync (f b) body
  | funcStmts {f : List Stmt → List Stmt} (isAsync : Bool) (params : List Pattern) :
    OpenBlock f → OpenBlock fun b => Func.mk isAsync params (f b)
  | superClass {f : List Stmt → Option Expr} (members : List ClassMember) :
    OpenBlock f → OpenBlock fun b => ClassBody.mk (f b) members
  | members {f : List Stmt → List ClassMember} (superClass : Option Expr) :
    OpenBlock f → OpenBlock fun b => ClassBody.mk superClass (f b)
  | methodKey {f : List Stmt → PropertyKey} (body : Func) (isStatic : Bool) :
    OpenBlock f → OpenBlock fun b => ClassMember.method (f b) body isStatic
  | methodBody {f : List Stmt → Func} (key : PropertyKey) (isStatic : Bool) :
    OpenBlock f → OpenBlock fun b => ClassMember.method key (f b) isStatic
  | fieldKey {f : List Stmt → PropertyKey} (value : Option Expr) (isStatic : Bool) :
    OpenBlock f → OpenBlock fun b => ClassMember.field (f b) value isStatic
  | fieldValue {f : List Stmt → Option Expr} (key : PropertyKey) (isStatic : Bool) :
    OpenBlock f → OpenBlock fun b => ClassMember.field key (f b) isStatic
  -- statements and declarations
  | blockStmts {f : List Stmt → List Stmt} : OpenBlock f → OpenBlock fun b => Stmt.block (f b)
  | declStmt {f : List Stmt → Decl} : OpenBlock f → OpenBlock fun b => Stmt.decl (f b)
  | exprStmt {f : List Stmt → Expr} : OpenBlock f → OpenBlock fun b => Stmt.expr (f b)
  | ret {f : List Stmt → Option Expr} : OpenBlock f → OpenBlock fun b => Stmt.ret (f b)
  | branchTest {f : List Stmt → Expr} (cons : Stmt) (alt : Option Stmt) :
    OpenBlock f → OpenBlock fun b => Stmt.branch (f b) cons alt
  | branchCons {f : List Stmt → Stmt} (test : Expr) (alt : Option Stmt) :
    OpenBlock f → OpenBlock fun b => Stmt.branch test (f b) alt
  | branchAlt {f : List Stmt → Option Stmt} (test : Expr) (cons : Stmt) :
    OpenBlock f → OpenBlock fun b => Stmt.branch test cons (f b)
  | throw {f : List Stmt → Expr} : OpenBlock f → OpenBlock fun b => Stmt.throw (f b)
  | varDecl {f : List Stmt → List Declarator} (kind : VarKind) :
    OpenBlock f → OpenBlock fun b => Decl.var kind (f b)
  | funcDecl {f : List Stmt → Func} (name : String) :
    OpenBlock f → OpenBlock fun b => Decl.func name (f b)
  | classDecl {f : List Stmt → ClassBody} (name : String) :
    OpenBlock f → OpenBlock fun b => Decl.classDecl name (f b)
  | declTarget {f : List Stmt → Pattern} (init : Option Expr) :
    OpenBlock f → OpenBlock fun b => Declarator.mk (f b) init
  | declInit {f : List Stmt → Option Expr} (target : Pattern) :
    OpenBlock f → OpenBlock fun b => Declarator.mk target (f b)
  -- markup
  | attributes {f : List Stmt → List Attribute} (name : Option String) (children : List Child)
      (selfClosing : Bool) :
    OpenBlock f → OpenBlock fun b => Element.mk name (f b) children selfClosing
  | children {f : List Stmt → List Child} (name : Option String) (attributes : List Attribute)
      (selfClosing : Bool) :
    OpenBlock f → OpenBlock fun b => Element.mk name attributes (f b) selfClosing
  | namedAttribute {f : List Stmt → Option AttributeValue} (name : String) :
    OpenBlock f → OpenBlock fun b => Attribute.named name (f b)
  | spreadAttribute {f : List Stmt → Expr} : OpenBlock f → OpenBlock fun b => Attribute.spread (f b)
  | attributeExpr {f : List Stmt → Expr} : OpenBlock f → OpenBlock fun b => AttributeValue.expr (f b)
  | attributeElement {f : List Stmt → Element} :
    OpenBlock f → OpenBlock fun b => AttributeValue.element (f b)
  | childExpr {f : List Stmt → Option Expr} : OpenBlock f → OpenBlock fun b => Child.expr (f b)
  | childElement {f : List Stmt → Element} : OpenBlock f → OpenBlock fun b => Child.element (f b)
  -- modules
  | defaultFunc {f : List Stmt → Func} (name : Option String) :
    OpenBlock f → OpenBlock fun b => DefaultExport.func name (f b)
  | defaultClass {f : List Stmt → ClassBody} (name : Option String) :
    OpenBlock f → OpenBlock fun b => DefaultExport.classDef name (f b)
  | defaultExpr {f : List Stmt → Expr} : OpenBlock f → OpenBlock fun b => DefaultExport.expr (f b)
  | exportedDecl {f : List Stmt → Decl} : OpenBlock f → OpenBlock fun b => Export.decl (f b)
  | exportedDefault {f : List Stmt → DefaultExport} :
    OpenBlock f → OpenBlock fun b => Export.default (f b)
  | exportItem {f : List Stmt → Export} : OpenBlock f → OpenBlock fun b => Item.exports (f b)
  | stmtItem {f : List Stmt → Stmt} : OpenBlock f → OpenBlock fun b => Item.stmt (f b)

/-- What is around an open block does not hide it: the statements in it can be told from the
tree. -/
theorem OpenBlock.injective {α : Type} {f : List Stmt → α} (h : OpenBlock f) :
    Function.Injective f := by
  induction h with
  | block | arrowBlock | funcBody => intro a b hab; simpa using hab
  | _ => intro a b hab; rename_i ih; exact ih (by simpa using hab)

/-! ## What the walk does to a tree -/

/-- Nodes that have a block of their own. -/
def Node.hasBlock : Node → Bool
  | .func _ => true
  | .expr (.arrow _ _ (.block _)) => true
  | .stmt (.block _) => true
  | _ => false

/-- The hooks that a block calls directly. -/
def blockHooks (stmts : List Stmt) : List String :=
  stmts.flatMap Stmt.hooks

/-- A block with its signature, if it calls hooks. -/
def signBlock (stmts : List Stmt) : List Stmt :=
  if (blockHooks stmts).isEmpty then stmts else signatureCall :: stmts

/-- What is found in a block. -/
def BodyScan.ofBlock (stmts : List Stmt) : BodyScan :=
  ⟨true, stmts.isEmpty, blockHooks stmts⟩

/-- A walk that signs the first block of a tree, if a block lies in it, and does nothing where a
block was seen before. The block is found where the tree may be open. -/
structure Signs {α : Type} (Open : (List Stmt → α) → Prop) (x : α) (holds : Bool)
    (walk : StateM BodyScan α) : Prop where
  after : ∀ s : BodyScan, s.seen = true → walk.run s = (x, s)
  without : holds = false → ∀ s, walk.run s = (x, s)
  first : holds = true → ∃ (f : List Stmt → α) (stmts : List Stmt), Open f ∧ f stmts = x ∧
    ∀ s : BodyScan, s.seen = false → walk.run s = (f (signBlock stmts), .ofBlock stmts)

namespace Signs

variable {α β γ : Type} {P : (List Stmt → α) → Prop} {Q : (List Stmt → β) → Prop} {x : α} {y : β}
  {hx hy : Bool} {wx : StateM BodyScan α} {wy : StateM BodyScan β}

theorem ofPure (x : α) : Signs P x false (pure x) :=
  ⟨fun _ _ => rfl, fun _ _ => rfl, nofun⟩

/-- A block is its own first block. -/
theorem ofBlock (stmts : List Stmt) (walk : StateM BodyScan (List Stmt)) :
    Signs (Eq id) stmts true (Traversal.signing.block stmts walk) where
  after s hs := by
    show (if s.seen = true then pure stmts else _ : StateM BodyScan (List Stmt)).run s = _
    rw [if_pos hs]
    rfl
  without := nofun
  first _ := by
    refine ⟨id, stmts, rfl, rfl, fun s hs => ?_⟩
    show (if s.seen = true then pure stmts else _ : StateM BodyScan (List Stmt)).run s = _
    rw [if_neg (by simp [hs])]
    rfl

/-- One part, rebuilt. -/
theorem map {g : α → β} (h : Signs P x hx wx)
    (hg : ∀ {f : List Stmt → α}, P f → OpenBlock fun b => g (f b)) :
    Signs OpenBlock (g x) hx (do return g (← wx)) := by
  have hrun : ∀ s, (do return g (← wx) : StateM BodyScan β).run s =
      (g (wx.run s).1, (wx.run s).2) := fun _ => rfl
  refine ⟨fun s hs => ?_, fun hnone s => ?_, fun hsome => ?_⟩
  · rw [hrun, h.after s hs]
  · rw [hrun, h.without hnone s]
  · obtain ⟨f, stmts, hf, rfl, hfirst⟩ := h.first hsome
    refine ⟨fun b => g (f b), stmts, hg hf, rfl, fun s hs => ?_⟩
    rw [hrun, hfirst s hs]

/-- Two parts one after the other: the block is looked for in the first one first. -/
theorem both {R : (List Stmt → γ) → Prop} {g : α → β → γ} (h : Signs P x hx wx)
    (h' : Signs Q y hy wy) (hg : ∀ {f : List Stmt → α}, P f → R fun b => g (f b) y)
    (hg' : ∀ {f : List Stmt → β}, Q f → R fun b => g x (f b)) :
    Signs R (g x y) (hx || hy) (do return g (← wx) (← wy)) := by
  have hrun : ∀ s, (do return g (← wx) (← wy) : StateM BodyScan γ).run s =
      (g (wx.run s).1 (wy.run (wx.run s).2).1, (wy.run (wx.run s).2).2) := fun _ => rfl
  refine ⟨fun s hs => ?_, fun hnone s => ?_, fun hsome => ?_⟩
  · rw [hrun, h.after s hs, h'.after s hs]
  · obtain ⟨hnone, hnone'⟩ := Bool.or_eq_false_iff.1 hnone
    rw [hrun, h.without hnone s, h'.without hnone' s]
  · by_cases hin : hx = true
    · obtain ⟨f, stmts, hf, rfl, hfirst⟩ := h.first hin
      refine ⟨fun b => g (f b) y, stmts, hg hf, rfl, fun s hs => ?_⟩
      rw [hrun, hfirst s hs, h'.after _ rfl]
    · rw [Bool.not_eq_true] at hin
      obtain ⟨f, stmts, hf, rfl, hfirst⟩ := h'.first (by simpa [hin] using hsome)
      refine ⟨fun b => g x (f b), stmts, hg' hf, rfl, fun s hs => ?_⟩
      rw [hrun, h.without hin s, hfirst s hs]

/-- Two parts, rebuilt. -/
theorem map₂ {g : α → β → γ} (h : Signs P x hx wx) (h' : Signs Q y hy wy)
    (hg : ∀ {f : List Stmt → α}, P f → OpenBlock fun b => g (f b) y)
    (hg' : ∀ {f : List Stmt → β}, Q f → OpenBlock fun b => g x (f b)) :
    Signs OpenBlock (g x y) (hx || hy) (do return g (← wx) (← wy)) :=
  h.both h' hg hg'

/-- Three parts, rebuilt. -/
theorem map₃ {δ : Type} {P' : (List Stmt → γ) → Prop} {z : γ} {hz : Bool} {wz : StateM BodyScan γ}
    {g : α → β → γ → δ} (h : Signs P x hx wx) (h' : Signs Q y hy wy) (h'' : Signs P' z hz wz)
    (hg : ∀ {f : List Stmt → α}, P f → OpenBlock fun b => g (f b) y z)
    (hg' : ∀ {f : List Stmt → β}, Q f → OpenBlock fun b => g x (f b) z)
    (hg'' : ∀ {f : List Stmt → γ}, P' f → OpenBlock fun b => g x y (f b)) :
    Signs OpenBlock (g x y z) (hx || hy || hz) (do return g (← wx) (← wy) (← wz)) := by
  have hrest : Signs (fun f => OpenBlock fun b => g x (f b).1 (f b).2) (y, z) (hy || hz)
      (do return (← wy, ← wz)) := h'.both h'' hg' hg''
  rw [Bool.or_assoc]
  exact h.both (g := fun a rest => g a rest.1 rest.2) hrest hg id

end Signs

/-! ## The walk, node by node -/

/-- Whether a block lies in some nodes. -/
def holdBlock (nodes : List Node) : Bool :=
  nodes.any Node.hasBlock

@[simp] theorem holdBlock_nil : holdBlock [] = false := rfl

@[simp] theorem holdBlock_cons (n : Node) (ns : List Node) :
    holdBlock (n :: ns) = (n.hasBlock || holdBlock ns) := rfl

@[simp] theorem holdBlock_append (ns ms : List Node) :
    holdBlock (ns ++ ms) = (holdBlock ns || holdBlock ms) := by
  simp [holdBlock]

/-- Whether a block lies in the body of an arrow function. -/
def ArrowBody.holdsBlock : ArrowBody → Bool
  | .block _ => true
  | .expr value => holdBlock value.nodes

mutual

/-- Only the first block that the walk comes to is signed. In each case the constructors of `OpenBlock`
name the parts that may hold it, in the order of the walk. -/
theorem Expr.traverse_signs (e : Expr) :
    Signs OpenBlock e (holdBlock e.nodes) (e.traverse .signing) := by
  match e with
  | .this => exact .ofPure _
  | .ident name => exact .ofPure _
  | .lit value => exact .ofPure _
  | .array elems => exact (Argument.traverseAll_signs elems).map .array
  | .object props => exact (Property.traverseAll_signs props).map .object
  | .func name body => exact body.traverse_signs.map (.func name)
  | .arrow isAsync params body =>
    have h := (Pattern.traverseAll_signs params).map₂ body.traverse_signs
      (.arrowParams isAsync body) (.arrowBody isAsync params)
    have hholds : holdBlock (Expr.arrow isAsync params body).nodes =
        (holdBlock (Pattern.nodesAll params) || body.holdsBlock) := by
      cases body <;> simp [Expr.nodes, Node.hasBlock, ArrowBody.nodes, ArrowBody.holdsBlock]
    exact hholds ▸ h
  | .classExpr name body => exact body.traverse_signs.map (.classExpr name)
  | .call callee args optional =>
    simp only [Expr.nodes, holdBlock_cons, Node.hasBlock, holdBlock_append, Bool.false_or]
    exact callee.traverse_signs.map₂ (g := (Expr.call · · optional))
      (Argument.traverseAll_signs args) (.callCallee args optional) (.callArgs callee optional)
  | .new callee none => exact callee.traverse_signs.map (g := (Expr.new · none)) (.newCallee none)
  | .new callee (some args) =>
    simp only [Expr.nodes, holdBlock_cons, Node.hasBlock, holdBlock_append, Bool.false_or]
    exact callee.traverse_signs.map₂ (g := fun callee args => Expr.new callee (some args))
      (Argument.traverseAll_signs args) (.newCallee _) fun hf => .newArgs callee (.present hf)
  | .member object key optional =>
    simp only [Expr.nodes, holdBlock_cons, Node.hasBlock, holdBlock_append, Bool.false_or]
    exact object.traverse_signs.map₂ (g := (Expr.member · · optional)) key.traverse_signs
      (.memberObject key optional) (.memberKey object optional)
  | .unary op arg => exact arg.traverse_signs.map (.unary op)
  | .binary op left right =>
    simp only [Expr.nodes, holdBlock_cons, Node.hasBlock, holdBlock_append, Bool.false_or]
    exact left.traverse_signs.map₂ right.traverse_signs (.binaryLeft op right) (.binaryRight op left)
  | .cond test cons alt =>
    simp only [Expr.nodes, holdBlock_cons, Node.hasBlock, holdBlock_append, Bool.false_or]
    exact test.traverse_signs.map₃ cons.traverse_signs alt.traverse_signs (.condTest cons alt)
      (.condCons test alt) (.condAlt test cons)
  | .assign op target value =>
    simp only [Expr.nodes, holdBlock_cons, Node.hasBlock, holdBlock_append, Bool.false_or]
    exact target.traverse_signs.map₂ value.traverse_signs (.assignTarget op value)
      (.assignValue op target)
  | .jsx element => exact element.traverse_signs.map .jsx

theorem Argument.traverseAll_signs (args : List Argument) :
    Signs OpenBlock args (holdBlock (Argument.nodesAll args)) (Argument.traverseAll .signing args) := by
  match args with
  | [] => exact .ofPure _
  | ⟨spread, value⟩ :: rest =>
    simp only [Argument.nodesAll, holdBlock_append]
    exact value.traverse_signs.map₂ (g := fun value rest => ⟨spread, value⟩ :: rest)
      (Argument.traverseAll_signs rest) (fun hf => .head rest (.argument spread hf)) (.tail _)

theorem Property.traverse_signs (p : Property) :
    Signs OpenBlock p (holdBlock p.nodes) (p.traverse .signing) := by
  match p with
  | .spread value => exact value.traverse_signs.map .spreadProperty
  | .keyed key value =>
    simp only [Property.nodes, holdBlock_append]
    exact key.traverse_signs.map₂ value.traverse_signs (.propertyKey value) (.propertyValue key)
  | .shorthand name => exact .ofPure _

theorem Property.traverseAll_signs (props : List Property) :
    Signs OpenBlock props (holdBlock (Property.nodesAll props))
      (Property.traverseAll .signing props) := by
  match props with
  | [] => exact .ofPure _
  | p :: rest =>
    simp only [Property.nodesAll, holdBlock_append]
    exact p.traverse_signs.map₂ (Property.traverseAll_signs rest) (.head rest) (.tail p)

theorem PropertyKey.traverse_signs (key : PropertyKey) :
    Signs OpenBlock key (holdBlock key.nodes) (key.traverse .signing) := by
  match key with
  | .ident name => exact .ofPure _
  | .string lit => exact .ofPure _
  | .number text => exact .ofPure _
  | .computed value => exact value.traverse_signs.map .computedKey

theorem MemberKey.traverse_signs (key : MemberKey) :
    Signs OpenBlock key (holdBlock key.nodes) (key.traverse .signing) := by
  match key with
  | .ident name => exact .ofPure _
  | .computed value => exact value.traverse_signs.map .computedMember

theorem ArrowBody.traverse_signs (body : ArrowBody) :
    Signs OpenBlock body body.holdsBlock (body.traverse .signing) := by
  match body with
  | .block stmts => exact (Signs.ofBlock stmts _).map fun hf => hf ▸ .arrowBlock
  | .expr value => exact value.traverse_signs.map .arrowValue

theorem Pattern.traverse_signs (p : Pattern) :
    Signs OpenBlock p (holdBlock p.nodes) (p.traverse .signing) := by
  match p with
  | .ident name => exact .ofPure _
  | .array elems => exact (Pattern.traverseAll_signs elems).map .arrayPattern
  | .object props => exact (PatternProperty.traverseAll_signs props).map .objectPattern
  | .withDefault target value =>
    simp only [Pattern.nodes, holdBlock_cons, Node.hasBlock, holdBlock_append, Bool.false_or]
    exact target.traverse_signs.map₂ value.traverse_signs (.defaultTarget value)
      (.defaultValue target)
  | .rest target => exact target.traverse_signs.map .restPattern

theorem Pattern.traverseAll_signs (ps : List Pattern) :
    Signs OpenBlock ps (holdBlock (Pattern.nodesAll ps)) (Pattern.traverseAll .signing ps) := by
  match ps with
  | [] => exact .ofPure _
  | p :: rest =>
    simp only [Pattern.nodesAll, holdBlock_append]
    exact p.traverse_signs.map₂ (Pattern.traverseAll_signs rest) (.head rest) (.tail p)

theorem PatternProperty.traverse_signs (p : PatternProperty) :
    Signs OpenBlock p (holdBlock p.nodes) (p.traverse .signing) := by
  match p with
  | .keyed key target =>
    simp only [PatternProperty.nodes, holdBlock_append]
    exact key.traverse_signs.map₂ target.traverse_signs (.patternKey target) (.patternTarget key)
  | .shorthand name none => exact .ofPure _
  | .shorthand name (some value) =>
    exact value.traverse_signs.map (g := fun value => PatternProperty.shorthand name (some value))
      fun hf => .shorthandDefault name (.present hf)
  | .rest target => exact target.traverse_signs.map .restProperty

theorem PatternProperty.traverseAll_signs (props : List PatternProperty) :
    Signs OpenBlock props (holdBlock (PatternProperty.nodesAll props))
      (PatternProperty.traverseAll .signing props) := by
  match props with
  | [] => exact .ofPure _
  | p :: rest =>
    simp only [PatternProperty.nodesAll, holdBlock_append]
    exact p.traverse_signs.map₂ (PatternProperty.traverseAll_signs rest) (.head rest) (.tail p)

theorem Func.traverse_signs (f : Func) :
    Signs OpenBlock f (holdBlock f.nodes) (f.traverse .signing) := by
  match f with
  | ⟨isAsync, params, body⟩ =>
    have h := (Pattern.traverseAll_signs params).map₂
      (Signs.ofBlock body (Stmt.traverseAll .signing body))
      (.funcParams isAsync body) (fun hf => hf ▸ .funcBody isAsync params)
    rwa [Bool.or_true] at h

theorem ClassBody.traverse_signs (c : ClassBody) :
    Signs OpenBlock c (holdBlock c.nodes) (c.traverse .signing) := by
  match c with
  | ⟨none, members⟩ => exact (ClassMember.traverseAll_signs members).map (.members none)
  | ⟨some superClass, members⟩ =>
    simp only [ClassBody.nodes, holdBlock_cons, Node.hasBlock, holdBlock_append, Bool.false_or]
    exact superClass.traverse_signs.map₂ (g := fun base members => ClassBody.mk (some base) members)
      (ClassMember.traverseAll_signs members) (fun hf => .superClass members (.present hf))
      (.members _)

theorem ClassMember.traverse_signs (x : ClassMember) :
    Signs OpenBlock x (holdBlock x.nodes) (x.traverse .signing) := by
  match x with
  | .method key body isStatic =>
    simp only [ClassMember.nodes, holdBlock_append]
    exact key.traverse_signs.map₂ (g := (ClassMember.method · · isStatic)) body.traverse_signs
      (.methodKey body isStatic) (.methodBody key isStatic)
  | .field key none isStatic =>
    exact key.traverse_signs.map (g := (ClassMember.field · none isStatic)) (.fieldKey none isStatic)
  | .field key (some value) isStatic =>
    simp only [ClassMember.nodes, holdBlock_append]
    exact key.traverse_signs.map₂
      (g := fun key value => ClassMember.field key (some value) isStatic) value.traverse_signs
      (.fieldKey _ isStatic) fun hf => .fieldValue key isStatic (.present hf)

theorem ClassMember.traverseAll_signs (members : List ClassMember) :
    Signs OpenBlock members (holdBlock (ClassMember.nodesAll members))
      (ClassMember.traverseAll .signing members) := by
  match members with
  | [] => exact .ofPure _
  | x :: rest =>
    simp only [ClassMember.nodesAll, holdBlock_append]
    exact x.traverse_signs.map₂ (ClassMember.traverseAll_signs rest) (.head rest) (.tail x)

theorem Stmt.traverse_signs (s : Stmt) :
    Signs OpenBlock s (holdBlock s.nodes) (s.traverse .signing) := by
  match s with
  | .block stmts => exact (Signs.ofBlock stmts _).map fun hf => hf ▸ .block
  | .decl decl => exact decl.traverse_signs.map .declStmt
  | .expr value => exact value.traverse_signs.map .exprStmt
  | .ret none => exact .ofPure _
  | .ret (some value) =>
    exact value.traverse_signs.map (g := fun value => Stmt.ret (some value))
      fun hf => .ret (.present hf)
  | .branch test cons none =>
    simp only [Stmt.nodes, holdBlock_cons, Node.hasBlock, holdBlock_append, Bool.false_or]
    exact test.traverse_signs.map₂ (g := (Stmt.branch · · none)) cons.traverse_signs
      (.branchTest cons none) (.branchCons test none)
  | .branch test cons (some alt) =>
    simp only [Stmt.nodes, holdBlock_cons, Node.hasBlock, holdBlock_append, Bool.false_or]
    exact test.traverse_signs.map₃ (g := fun test cons alt => Stmt.branch test cons (some alt))
      cons.traverse_signs alt.traverse_signs (.branchTest cons _) (.branchCons test _)
      fun hf => .branchAlt test cons (.present hf)
  | .throw value => exact value.traverse_signs.map .throw
  | .empty => exact .ofPure _

theorem Decl.traverse_signs (d : Decl) :
    Signs OpenBlock d (holdBlock d.nodes) (d.traverse .signing) := by
  match d with
  | .var kind declarators => exact (Declarator.traverseAll_signs declarators).map (.varDecl kind)
  | .func name body => exact body.traverse_signs.map (.funcDecl name)
  | .classDecl name body => exact body.traverse_signs.map (.classDecl name)
  | .typeDecl name => exact .ofPure _

theorem Declarator.traverse_signs (d : Declarator) :
    Signs OpenBlock d (holdBlock d.nodes) (d.traverse .signing) := by
  match d with
  | ⟨target, none⟩ => exact target.traverse_signs.map (g := (Declarator.mk · none)) (.declTarget none)
  | ⟨target, some value⟩ =>
    simp only [Declarator.nodes, holdBlock_append]
    exact target.traverse_signs.map₂ (g := fun target value => Declarator.mk target (some value))
      value.traverse_signs (.declTarget _) fun hf => .declInit target (.present hf)

theorem Declarator.traverseAll_signs (declarators : List Declarator) :
    Signs OpenBlock declarators (holdBlock (Declarator.nodesAll declarators))
      (Declarator.traverseAll .signing declarators) := by
  match declarators with
  | [] => exact .ofPure _
  | d :: rest =>
    simp only [Declarator.nodesAll, holdBlock_append]
    exact d.traverse_signs.map₂ (Declarator.traverseAll_signs rest) (.head rest) (.tail d)

theorem Element.traverse_signs (e : Element) :
    Signs OpenBlock e (holdBlock e.nodes) (e.traverse .signing) := by
  match e with
  | ⟨name, attributes, children, selfClosing⟩ =>
    simp only [Element.nodes, holdBlock_cons, Node.hasBlock, holdBlock_append, Bool.false_or]
    exact (Attribute.traverseAll_signs attributes).map₂ (g := (Element.mk name · · selfClosing))
      (Child.traverseAll_signs children) (.attributes name children selfClosing)
      (.children name attributes selfClosing)

theorem Attribute.traverse_signs (a : Attribute) :
    Signs OpenBlock a (holdBlock a.nodes) (a.traverse .signing) := by
  match a with
  | .named name none => exact .ofPure _
  | .named name (some value) =>
    exact value.traverse_signs.map (g := fun value => Attribute.named name (some value))
      fun hf => .namedAttribute name (.present hf)
  | .spread value => exact value.traverse_signs.map .spreadAttribute

theorem Attribute.traverseAll_signs (attributes : List Attribute) :
    Signs OpenBlock attributes (holdBlock (Attribute.nodesAll attributes))
      (Attribute.traverseAll .signing attributes) := by
  match attributes with
  | [] => exact .ofPure _
  | a :: rest =>
    simp only [Attribute.nodesAll, holdBlock_append]
    exact a.traverse_signs.map₂ (Attribute.traverseAll_signs rest) (.head rest) (.tail a)

theorem AttributeValue.traverse_signs (v : AttributeValue) :
    Signs OpenBlock v (holdBlock v.nodes) (v.traverse .signing) := by
  match v with
  | .string lit => exact .ofPure _
  | .expr value => exact value.traverse_signs.map .attributeExpr
  | .element element => exact element.traverse_signs.map .attributeElement

theorem Child.traverse_signs (c : Child) :
    Signs OpenBlock c (holdBlock c.nodes) (c.traverse .signing) := by
  match c with
  | .text raw => exact .ofPure _
  | .expr none => exact .ofPure _
  | .expr (some value) =>
    exact value.traverse_signs.map (g := fun value => Child.expr (some value))
      fun hf => .childExpr (.present hf)
  | .element element => exact element.traverse_signs.map .childElement

theorem Child.traverseAll_signs (children : List Child) :
    Signs OpenBlock children (holdBlock (Child.nodesAll children))
      (Child.traverseAll .signing children) := by
  match children with
  | [] => exact .ofPure _
  | c :: rest =>
    simp only [Child.nodesAll, holdBlock_append]
    exact c.traverse_signs.map₂ (Child.traverseAll_signs rest) (.head rest) (.tail c)

end

theorem DefaultExport.traverse_signs (value : DefaultExport) :
    Signs OpenBlock value (holdBlock value.nodes) (value.traverse .signing) := by
  match value with
  | .func name body => exact body.traverse_signs.map (.defaultFunc name)
  | .classDef name body => exact body.traverse_signs.map (.defaultClass name)
  | .expr value => exact value.traverse_signs.map .defaultExpr

theorem Export.traverse_signs (e : Export) :
    Signs OpenBlock e (holdBlock e.nodes) (e.traverse .signing) := by
  match e with
  | .decl d => exact d.traverse_signs.map .exportedDecl
  | .default value => exact value.traverse_signs.map .exportedDefault
  | .list specifiers source => exact .ofPure _
  | .all source => exact .ofPure _

theorem Item.traverse_signs (item : Item) :
    Signs OpenBlock item (holdBlock item.nodes) (item.traverse .signing) := by
  match item with
  | .imports decl => exact .ofPure _
  | .exports decl => exact decl.traverse_signs.map .exportItem
  | .stmt s => exact s.traverse_signs.map .stmtItem

/-- Signing leaves an item as it is, or signs one block of it and tells what is in that block. -/
theorem Item.sign_spec (item : Item) :
    item.sign = (item, .start) ∨
      ∃ (f : List Stmt → Item) (stmts : List Stmt), OpenBlock f ∧ f stmts = item ∧
        item.sign = (f (signBlock stmts), .ofBlock stmts) := by
  by_cases hholds : holdBlock item.nodes = true
  · obtain ⟨f, stmts, hf, hitem, hfirst⟩ := item.traverse_signs.first hholds
    exact .inr ⟨f, stmts, hf, hitem, hfirst .start rfl⟩
  · exact .inl (item.traverse_signs.without (Bool.not_eq_true _ ▸ hholds) .start)

end TsxCompiler
