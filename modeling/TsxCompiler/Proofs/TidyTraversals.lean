import TsxCompiler.Proofs.TidyTrees
import TsxCompiler.Tree.Traverse

/-!
# Traversals that keep trees tidy

A traversal may run in any monad, so what it returns is said by a postcondition: a predicate on
computations that goes through `pure` and `>>=`. A traversal that changes nothing but blocks and
expressions, and leaves both tidy, leaves every tree tidy (`Item.traverse_tidy`); it may be one that
takes all markup out.
-/

namespace TsxCompiler

variable {m : Type → Type} [Monad m]

/-! ## Postconditions -/

/-- What it means for a computation that all values it returns have a property. -/
structure Postcondition (m : Type → Type) [Monad m] where
  returns : {α : Type} → (α → Prop) → m α → Prop
  pure : ∀ {α : Type} {P : α → Prop} {a : α}, P a → returns P (pure a)
  bind : ∀ {α β : Type} {P : α → Prop} {Q : β → Prop} {x : m α} {f : α → m β},
    returns P x → (∀ a, P a → returns Q (f a)) → returns Q (x >>= f)

namespace Postcondition

/-- Without effects, the value itself. -/
def ofId : Postcondition Id where
  returns P x := P x.run
  pure h := h
  bind hx hf := hf _ hx

/-- With a state, the value from every state. -/
def ofState (σ : Type) : Postcondition (StateM σ) where
  returns P x := ∀ s, P (x.run s).1
  pure h _ := h
  bind hx hf s := hf _ (hx s) _

variable (E : Postcondition m)

/-- One part, rebuilt. -/
theorem map {α β : Type} {P : α → Prop} {Q : β → Prop} {x : m α} {f : α → β}
    (hx : E.returns P x) (hf : ∀ a, P a → Q (f a)) : E.returns Q (do return f (← x)) :=
  E.bind hx fun a ha => E.pure (hf a ha)

/-- Two parts, rebuilt. -/
theorem map₂ {α β γ : Type} {P : α → Prop} {Q : β → Prop} {R : γ → Prop} {x : m α} {y : m β}
    {f : α → β → γ} (hx : E.returns P x) (hy : E.returns Q y)
    (hf : ∀ a b, P a → Q b → R (f a b)) : E.returns R (do return f (← x) (← y)) :=
  E.bind hx fun a ha => E.map hy fun b hb => hf a b ha hb

theorem mapM [LawfulMonad m] {α β : Type} {Q : β → Prop} {f : α → m β} {xs : List α}
    (h : ∀ x ∈ xs, E.returns Q (f x)) : E.returns (fun ys => ∀ y ∈ ys, Q y) (xs.mapM f) := by
  induction xs with
  | nil => exact E.pure nofun
  | cons x xs ih =>
    obtain ⟨hx, hxs⟩ := List.forall_mem_cons.1 h
    rw [List.mapM_cons]
    exact E.map₂ hx (ih hxs) fun y ys hy hys => List.forall_mem_cons.2 ⟨hy, hys⟩

end Postcondition

/-! ## Tidy traversals -/

/-- A traversal that is of use for blocks and expressions only, and leaves them tidy, the
expressions when their parts are. -/
structure Traversal.KeepsTidy (E : Postcondition m) (markup : Bool) (r : Traversal m) : Prop where
  item : ∀ x walk, r.item x walk = walk
  stmt : ∀ s walk, r.stmt s walk = walk
  decl : ∀ d walk, r.decl d walk = walk
  func : ∀ f walk, r.func f walk = walk
  classBody : ∀ c walk, r.classBody c walk = walk
  pattern : ∀ p walk, r.pattern p walk = walk
  element : ∀ e walk, r.element e walk = walk
  block : ∀ stmts walk, AllTidy true (Stmt.nodesAll stmts) →
    E.returns (fun ss => AllTidy markup (Stmt.nodesAll ss)) walk →
    E.returns (fun ss => AllTidy markup (Stmt.nodesAll ss)) (r.block stmts walk)
  expr : ∀ e walk, E.returns (fun e => e.Tidy true ∧ AllTidy markup e.nodes.tail) walk →
    E.returns (fun e => AllTidy markup e.nodes) (r.expr e walk)

variable {E : Postcondition m} {markup : Bool} {r : Traversal m}

mutual

/-- A walk that keeps nodes tidy keeps trees tidy. In each case the parts are tidy after their own
walks, and the node on top of them is the one of the source, so only the last rewriting of the node
is left to `hr`. -/
theorem Expr.traverse_tidy (hr : r.KeepsTidy E markup) (e : Expr) (h : AllTidy true e.nodes) :
    E.returns (fun e => AllTidy markup e.nodes) (e.traverse r) := by
  match e with
  | .this => exact hr.expr _ _ (E.pure ⟨trivial, allNodes_nil⟩)
  | .ident name =>
    simp only [Expr.nodes, allNodes_cons] at h
    exact hr.expr _ _ (E.pure ⟨h.1, allNodes_nil⟩)
  | .lit value =>
    simp only [Expr.nodes, allNodes_cons] at h
    exact hr.expr _ _ (E.pure ⟨h.1, allNodes_nil⟩)
  | .array elems =>
    simp only [Expr.nodes, allNodes_cons] at h
    exact hr.expr _ _ (E.map (Argument.traverseAll_tidy hr elems h.2) fun elems helems =>
      ⟨trivial, helems⟩)
  | .object props =>
    simp only [Expr.nodes, allNodes_cons] at h
    exact hr.expr _ _ (E.map (Property.traverseAll_tidy hr props h.1 h.2) fun props hprops => hprops)
  | .func name body =>
    simp only [Expr.nodes, allNodes_cons] at h
    exact hr.expr _ _ (E.map (body.traverse_tidy hr h.2) fun body hbody => ⟨h.1, hbody⟩)
  | .arrow isAsync params body =>
    simp only [Expr.nodes, allNodes_cons, allNodes_append] at h
    exact hr.expr _ _ (E.map₂ (Pattern.traverseAll_tidy hr params h.2.1)
      (body.traverse_tidy hr h.2.2) fun params body hparams hbody =>
        ⟨trivial, (allNodes_append _ _).2 ⟨hparams, hbody⟩⟩)
  | .classExpr name body =>
    simp only [Expr.nodes, allNodes_cons] at h
    exact hr.expr _ _ (E.map (body.traverse_tidy hr h.2) fun body hbody => ⟨h.1, hbody⟩)
  | .call callee args optional =>
    simp only [Expr.nodes, allNodes_cons, allNodes_append] at h
    exact hr.expr _ _ (E.map₂ (callee.traverse_tidy hr h.2.1)
      (Argument.traverseAll_tidy hr args h.2.2) fun callee args hcallee hargs =>
        ⟨trivial, (allNodes_append _ _).2 ⟨hcallee, hargs⟩⟩)
  | .new callee none =>
    simp only [Expr.nodes, allNodes_cons] at h
    exact hr.expr _ _ (E.map (callee.traverse_tidy hr h.2) fun callee hcallee => ⟨trivial, hcallee⟩)
  | .new callee (some args) =>
    simp only [Expr.nodes, allNodes_cons, allNodes_append] at h
    exact hr.expr _ _ (E.map₂ (callee.traverse_tidy hr h.2.1)
      (Argument.traverseAll_tidy hr args h.2.2) fun callee args hcallee hargs =>
        ⟨trivial, (allNodes_append _ _).2 ⟨hcallee, hargs⟩⟩)
  | .member object key optional =>
    simp only [Expr.nodes, allNodes_cons, allNodes_append] at h
    exact hr.expr _ _ (E.map₂ (object.traverse_tidy hr h.2.1) (key.traverse_tidy hr h.1 h.2.2)
      fun object key hobject hkey => ⟨hkey.1, (allNodes_append _ _).2 ⟨hobject, hkey.2⟩⟩)
  | .unary op arg =>
    simp only [Expr.nodes, allNodes_cons] at h
    exact hr.expr _ _ (E.map (arg.traverse_tidy hr h.2) fun arg harg => ⟨trivial, harg⟩)
  | .binary op left right =>
    simp only [Expr.nodes, allNodes_cons, allNodes_append] at h
    exact hr.expr _ _ (E.map₂ (left.traverse_tidy hr h.2.1) (right.traverse_tidy hr h.2.2)
      fun left right hleft hright => ⟨trivial, (allNodes_append _ _).2 ⟨hleft, hright⟩⟩)
  | .cond test cons alt =>
    simp only [Expr.nodes, allNodes_cons, allNodes_append] at h
    refine hr.expr _ _ (E.bind (test.traverse_tidy hr h.2.1.1) fun test htest =>
      E.map₂ (cons.traverse_tidy hr h.2.1.2) (alt.traverse_tidy hr h.2.2) fun cons alt hcons halt => ?_)
    exact ⟨trivial, (allNodes_append _ _).2 ⟨(allNodes_append _ _).2 ⟨htest, hcons⟩, halt⟩⟩
  | .assign op target value =>
    simp only [Expr.nodes, allNodes_cons, allNodes_append] at h
    exact hr.expr _ _ (E.map₂ (target.traverse_tidy hr h.2.1) (value.traverse_tidy hr h.2.2)
      fun target value htarget hvalue => ⟨trivial, (allNodes_append _ _).2 ⟨htarget, hvalue⟩⟩)
  | .jsx element =>
    simp only [Expr.nodes, allNodes_cons] at h
    exact hr.expr _ _ (E.map (element.traverse_tidy hr h.2) fun element helement => ⟨rfl, helement⟩)

theorem Argument.traverseAll_tidy (hr : r.KeepsTidy E markup) (args : List Argument)
    (h : AllTidy true (Argument.nodesAll args)) :
    E.returns (fun args => AllTidy markup (Argument.nodesAll args)) (Argument.traverseAll r args) := by
  match args with
  | [] => exact E.pure allNodes_nil
  | ⟨spread, value⟩ :: rest =>
    simp only [Argument.nodesAll, allNodes_append] at h
    exact E.map₂ (value.traverse_tidy hr h.1) (Argument.traverseAll_tidy hr rest h.2)
      fun value rest hvalue hrest => (allNodes_append _ _).2 ⟨hvalue, hrest⟩

theorem Property.traverse_tidy (hr : r.KeepsTidy E markup) (p : Property) (hp : p.Tidy)
    (h : AllTidy true p.nodes) :
    E.returns (fun p => p.Tidy ∧ AllTidy markup p.nodes) (p.traverse r) := by
  match p with
  | .spread value => exact E.map (value.traverse_tidy hr h) fun value hvalue => ⟨trivial, hvalue⟩
  | .keyed key value =>
    simp only [Property.nodes, allNodes_append] at h
    exact E.map₂ (key.traverse_tidy hr hp h.1) (value.traverse_tidy hr h.2)
      fun key value hkey hvalue => ⟨hkey.1, (allNodes_append _ _).2 ⟨hkey.2, hvalue⟩⟩
  | .shorthand name => exact E.pure ⟨hp, allNodes_nil⟩

theorem Property.traverseAll_tidy (hr : r.KeepsTidy E markup) (props : List Property)
    (hprops : ∀ p ∈ props, p.Tidy) (h : AllTidy true (Property.nodesAll props)) :
    E.returns (fun props => (∀ p ∈ props, p.Tidy) ∧ AllTidy markup (Property.nodesAll props))
      (Property.traverseAll r props) := by
  match props with
  | [] => exact E.pure ⟨nofun, allNodes_nil⟩
  | p :: rest =>
    simp only [Property.nodesAll, allNodes_append] at h
    obtain ⟨hp, hrest⟩ := List.forall_mem_cons.1 hprops
    exact E.map₂ (p.traverse_tidy hr hp h.1) (Property.traverseAll_tidy hr rest hrest h.2)
      fun p rest hp hrest => ⟨List.forall_mem_cons.2 ⟨hp.1, hrest.1⟩,
        (allNodes_append _ _).2 ⟨hp.2, hrest.2⟩⟩

theorem PropertyKey.traverse_tidy (hr : r.KeepsTidy E markup) (key : PropertyKey)
    (hkey : key.Tidy) (h : AllTidy true key.nodes) :
    E.returns (fun key => key.Tidy ∧ AllTidy markup key.nodes) (key.traverse r) := by
  match key with
  | .ident name => exact E.pure ⟨hkey, allNodes_nil⟩
  | .string lit => exact E.pure ⟨hkey, allNodes_nil⟩
  | .number text => exact E.pure ⟨hkey, allNodes_nil⟩
  | .computed value => exact E.map (value.traverse_tidy hr h) fun value hvalue => ⟨trivial, hvalue⟩

theorem MemberKey.traverse_tidy (hr : r.KeepsTidy E markup) (key : MemberKey) (hkey : key.Tidy)
    (h : AllTidy true key.nodes) :
    E.returns (fun key => key.Tidy ∧ AllTidy markup key.nodes) (key.traverse r) := by
  match key with
  | .ident name => exact E.pure ⟨hkey, allNodes_nil⟩
  | .computed value => exact E.map (value.traverse_tidy hr h) fun value hvalue => ⟨trivial, hvalue⟩

theorem ArrowBody.traverse_tidy (hr : r.KeepsTidy E markup) (body : ArrowBody)
    (h : AllTidy true body.nodes) :
    E.returns (fun body => AllTidy markup body.nodes) (body.traverse r) := by
  match body with
  | .block stmts =>
    exact E.map (hr.block _ _ h (Stmt.traverseAll_tidy hr stmts h)) fun stmts hstmts => hstmts
  | .expr value => exact E.map (value.traverse_tidy hr h) fun value hvalue => hvalue

theorem Pattern.traverse_tidy (hr : r.KeepsTidy E markup) (p : Pattern)
    (h : AllTidy true p.nodes) :
    E.returns (fun p => AllTidy markup p.nodes) (p.traverse r) := by
  match p with
  | .ident name =>
    simp only [Pattern.nodes, allNodes_cons] at h
    rw [Pattern.traverse, hr.pattern]
    exact E.pure ((allNodes_cons _ _).2 ⟨h.1, allNodes_nil⟩)
  | .array elems =>
    simp only [Pattern.nodes, allNodes_cons] at h
    rw [Pattern.traverse, hr.pattern]
    exact E.map (Pattern.traverseAll_tidy hr elems h.2) fun elems helems =>
      (allNodes_cons _ _).2 ⟨trivial, helems⟩
  | .object props =>
    simp only [Pattern.nodes, allNodes_cons] at h
    rw [Pattern.traverse, hr.pattern]
    exact E.map (PatternProperty.traverseAll_tidy hr props h.1 h.2) fun props hprops =>
      (allNodes_cons _ _).2 hprops
  | .withDefault target value =>
    simp only [Pattern.nodes, allNodes_cons, allNodes_append] at h
    rw [Pattern.traverse, hr.pattern]
    exact E.map₂ (target.traverse_tidy hr h.2.1) (value.traverse_tidy hr h.2.2)
      fun target value htarget hvalue =>
        (allNodes_cons _ _).2 ⟨trivial, (allNodes_append _ _).2 ⟨htarget, hvalue⟩⟩
  | .rest target =>
    simp only [Pattern.nodes, allNodes_cons] at h
    rw [Pattern.traverse, hr.pattern]
    exact E.map (target.traverse_tidy hr h.2) fun target htarget =>
      (allNodes_cons _ _).2 ⟨trivial, htarget⟩

theorem Pattern.traverseAll_tidy (hr : r.KeepsTidy E markup) (ps : List Pattern)
    (h : AllTidy true (Pattern.nodesAll ps)) :
    E.returns (fun ps => AllTidy markup (Pattern.nodesAll ps)) (Pattern.traverseAll r ps) := by
  match ps with
  | [] => exact E.pure allNodes_nil
  | p :: rest =>
    simp only [Pattern.nodesAll, allNodes_append] at h
    exact E.map₂ (p.traverse_tidy hr h.1) (Pattern.traverseAll_tidy hr rest h.2)
      fun p rest hp hrest => (allNodes_append _ _).2 ⟨hp, hrest⟩

theorem PatternProperty.traverse_tidy (hr : r.KeepsTidy E markup) (p : PatternProperty)
    (hp : p.Tidy) (h : AllTidy true p.nodes) :
    E.returns (fun p => p.Tidy ∧ AllTidy markup p.nodes) (p.traverse r) := by
  match p with
  | .keyed key target =>
    simp only [PatternProperty.nodes, allNodes_append] at h
    exact E.map₂ (key.traverse_tidy hr hp h.1) (target.traverse_tidy hr h.2)
      fun key target hkey htarget => ⟨hkey.1, (allNodes_append _ _).2 ⟨hkey.2, htarget⟩⟩
  | .shorthand name none => exact E.pure ⟨hp, allNodes_nil⟩
  | .shorthand name (some value) =>
    exact E.map (value.traverse_tidy hr h) fun value hvalue => ⟨hp, hvalue⟩
  | .rest target => exact E.map (target.traverse_tidy hr h) fun target htarget => ⟨trivial, htarget⟩

theorem PatternProperty.traverseAll_tidy (hr : r.KeepsTidy E markup) (props : List PatternProperty)
    (hprops : ∀ p ∈ props, p.Tidy) (h : AllTidy true (PatternProperty.nodesAll props)) :
    E.returns (fun props => (∀ p ∈ props, p.Tidy) ∧ AllTidy markup (PatternProperty.nodesAll props))
      (PatternProperty.traverseAll r props) := by
  match props with
  | [] => exact E.pure ⟨nofun, allNodes_nil⟩
  | p :: rest =>
    simp only [PatternProperty.nodesAll, allNodes_append] at h
    obtain ⟨hp, hrest⟩ := List.forall_mem_cons.1 hprops
    exact E.map₂ (p.traverse_tidy hr hp h.1) (PatternProperty.traverseAll_tidy hr rest hrest h.2)
      fun p rest hp hrest => ⟨List.forall_mem_cons.2 ⟨hp.1, hrest.1⟩,
        (allNodes_append _ _).2 ⟨hp.2, hrest.2⟩⟩

theorem Func.traverse_tidy (hr : r.KeepsTidy E markup) (f : Func) (h : AllTidy true f.nodes) :
    E.returns (fun f => AllTidy markup f.nodes) (f.traverse r) := by
  match f with
  | ⟨isAsync, params, body⟩ =>
    simp only [Func.nodes, allNodes_cons, allNodes_append] at h
    rw [Func.traverse, hr.func]
    exact E.map₂ (Pattern.traverseAll_tidy hr params h.2.1)
      (hr.block _ _ h.2.2 (Stmt.traverseAll_tidy hr body h.2.2)) fun params body hparams hbody =>
        (allNodes_cons _ _).2 ⟨trivial, (allNodes_append _ _).2 ⟨hparams, hbody⟩⟩

theorem ClassBody.traverse_tidy (hr : r.KeepsTidy E markup) (c : ClassBody)
    (h : AllTidy true c.nodes) :
    E.returns (fun c => AllTidy markup c.nodes) (c.traverse r) := by
  match c with
  | ⟨none, members⟩ =>
    simp only [ClassBody.nodes, allNodes_cons] at h
    rw [ClassBody.traverse, hr.classBody]
    exact E.map (ClassMember.traverseAll_tidy hr members h.1 h.2) fun members hmembers =>
      (allNodes_cons _ _).2 hmembers
  | ⟨some superClass, members⟩ =>
    simp only [ClassBody.nodes, allNodes_cons, allNodes_append] at h
    rw [ClassBody.traverse, hr.classBody]
    exact E.map₂ (superClass.traverse_tidy hr h.2.1)
      (ClassMember.traverseAll_tidy hr members h.1 h.2.2) fun superClass members hsuper hmembers =>
        (allNodes_cons _ _).2 ⟨hmembers.1, (allNodes_append _ _).2 ⟨hsuper, hmembers.2⟩⟩

theorem ClassMember.traverse_tidy (hr : r.KeepsTidy E markup) (x : ClassMember) (hx : x.Tidy)
    (h : AllTidy true x.nodes) :
    E.returns (fun x => x.Tidy ∧ AllTidy markup x.nodes) (x.traverse r) := by
  match x with
  | .method key body isStatic =>
    simp only [ClassMember.nodes, allNodes_append] at h
    exact E.map₂ (key.traverse_tidy hr hx h.1) (body.traverse_tidy hr h.2)
      fun key body hkey hbody => ⟨hkey.1, (allNodes_append _ _).2 ⟨hkey.2, hbody⟩⟩
  | .field key none isStatic => exact E.map (key.traverse_tidy hr hx h) fun key hkey => hkey
  | .field key (some value) isStatic =>
    simp only [ClassMember.nodes, allNodes_append] at h
    exact E.map₂ (key.traverse_tidy hr hx h.1) (value.traverse_tidy hr h.2)
      fun key value hkey hvalue => ⟨hkey.1, (allNodes_append _ _).2 ⟨hkey.2, hvalue⟩⟩

theorem ClassMember.traverseAll_tidy (hr : r.KeepsTidy E markup) (members : List ClassMember)
    (hmembers : ∀ x ∈ members, x.Tidy) (h : AllTidy true (ClassMember.nodesAll members)) :
    E.returns (fun members => (∀ x ∈ members, x.Tidy) ∧
      AllTidy markup (ClassMember.nodesAll members)) (ClassMember.traverseAll r members) := by
  match members with
  | [] => exact E.pure ⟨nofun, allNodes_nil⟩
  | x :: rest =>
    simp only [ClassMember.nodesAll, allNodes_append] at h
    obtain ⟨hx, hrest⟩ := List.forall_mem_cons.1 hmembers
    exact E.map₂ (x.traverse_tidy hr hx h.1) (ClassMember.traverseAll_tidy hr rest hrest h.2)
      fun x rest hx hrest => ⟨List.forall_mem_cons.2 ⟨hx.1, hrest.1⟩,
        (allNodes_append _ _).2 ⟨hx.2, hrest.2⟩⟩

/-- Statements and patterns are not rewritten themselves, blocks are. -/
theorem Stmt.traverse_tidy (hr : r.KeepsTidy E markup) (s : Stmt) (h : AllTidy true s.nodes) :
    E.returns (fun s => AllTidy markup s.nodes) (s.traverse r) := by
  match s with
  | .block stmts =>
    simp only [Stmt.nodes, allNodes_cons] at h
    rw [Stmt.traverse, hr.stmt]
    exact E.map (hr.block _ _ h.2 (Stmt.traverseAll_tidy hr stmts h.2)) fun stmts hstmts =>
      (allNodes_cons _ _).2 ⟨trivial, hstmts⟩
  | .decl d =>
    simp only [Stmt.nodes, allNodes_cons] at h
    rw [Stmt.traverse, hr.stmt]
    exact E.map (d.traverse_tidy hr h.2) fun d hd => (allNodes_cons _ _).2 ⟨trivial, hd⟩
  | .expr value =>
    simp only [Stmt.nodes, allNodes_cons] at h
    rw [Stmt.traverse, hr.stmt]
    exact E.map (value.traverse_tidy hr h.2) fun value hvalue =>
      (allNodes_cons _ _).2 ⟨trivial, hvalue⟩
  | .ret none =>
    rw [Stmt.traverse, hr.stmt]
    exact E.pure ((allNodes_cons _ _).2 ⟨trivial, allNodes_nil⟩)
  | .ret (some value) =>
    simp only [Stmt.nodes, allNodes_cons] at h
    rw [Stmt.traverse, hr.stmt]
    exact E.map (value.traverse_tidy hr h.2) fun value hvalue =>
      (allNodes_cons _ _).2 ⟨trivial, hvalue⟩
  | .branch test cons none =>
    simp only [Stmt.nodes, allNodes_cons, allNodes_append] at h
    rw [Stmt.traverse, hr.stmt]
    exact E.map₂ (test.traverse_tidy hr h.2.1) (cons.traverse_tidy hr h.2.2)
      fun test cons htest hcons =>
        (allNodes_cons _ _).2 ⟨trivial, (allNodes_append _ _).2 ⟨htest, hcons⟩⟩
  | .branch test cons (some alt) =>
    simp only [Stmt.nodes, allNodes_cons, allNodes_append] at h
    rw [Stmt.traverse, hr.stmt]
    refine E.bind (test.traverse_tidy hr h.2.1.1) fun test htest =>
      E.map₂ (cons.traverse_tidy hr h.2.1.2) (alt.traverse_tidy hr h.2.2) fun cons alt hcons halt => ?_
    exact (allNodes_cons _ _).2
      ⟨trivial, (allNodes_append _ _).2 ⟨(allNodes_append _ _).2 ⟨htest, hcons⟩, halt⟩⟩
  | .throw value =>
    simp only [Stmt.nodes, allNodes_cons] at h
    rw [Stmt.traverse, hr.stmt]
    exact E.map (value.traverse_tidy hr h.2) fun value hvalue =>
      (allNodes_cons _ _).2 ⟨trivial, hvalue⟩
  | .empty =>
    rw [Stmt.traverse, hr.stmt]
    exact E.pure ((allNodes_cons _ _).2 ⟨trivial, allNodes_nil⟩)

theorem Stmt.traverseAll_tidy (hr : r.KeepsTidy E markup) (stmts : List Stmt)
    (h : AllTidy true (Stmt.nodesAll stmts)) :
    E.returns (fun stmts => AllTidy markup (Stmt.nodesAll stmts)) (Stmt.traverseAll r stmts) := by
  match stmts with
  | [] => exact E.pure allNodes_nil
  | s :: rest =>
    simp only [Stmt.nodesAll, allNodes_append] at h
    exact E.map₂ (s.traverse_tidy hr h.1) (Stmt.traverseAll_tidy hr rest h.2)
      fun s rest hs hrest => (allNodes_append _ _).2 ⟨hs, hrest⟩

theorem Decl.traverse_tidy (hr : r.KeepsTidy E markup) (d : Decl) (h : AllTidy true d.nodes) :
    E.returns (fun d => AllTidy markup d.nodes) (d.traverse r) := by
  match d with
  | .var kind declarators =>
    simp only [Decl.nodes, allNodes_cons] at h
    rw [Decl.traverse, hr.decl]
    exact E.map (Declarator.traverseAll_tidy hr declarators h.2) fun declarators hdeclarators =>
      (allNodes_cons _ _).2 ⟨trivial, hdeclarators⟩
  | .func name body =>
    simp only [Decl.nodes, allNodes_cons] at h
    rw [Decl.traverse, hr.decl]
    exact E.map (body.traverse_tidy hr h.2) fun body hbody => (allNodes_cons _ _).2 ⟨h.1, hbody⟩
  | .classDecl name body =>
    simp only [Decl.nodes, allNodes_cons] at h
    rw [Decl.traverse, hr.decl]
    exact E.map (body.traverse_tidy hr h.2.2) fun body hbody =>
      (allNodes_cons _ _).2 ⟨h.1, (allNodes_cons _ _).2 ⟨trivial, hbody⟩⟩
  | .typeDecl name =>
    rw [Decl.traverse, hr.decl]
    exact E.pure ((allNodes_cons _ _).2 ⟨trivial, allNodes_nil⟩)

theorem Declarator.traverse_tidy (hr : r.KeepsTidy E markup) (d : Declarator)
    (h : AllTidy true d.nodes) :
    E.returns (fun d => AllTidy markup d.nodes) (d.traverse r) := by
  match d with
  | ⟨target, none⟩ => exact E.map (target.traverse_tidy hr h) fun target htarget => htarget
  | ⟨target, some value⟩ =>
    simp only [Declarator.nodes, allNodes_append] at h
    exact E.map₂ (target.traverse_tidy hr h.1) (value.traverse_tidy hr h.2)
      fun target value htarget hvalue => (allNodes_append _ _).2 ⟨htarget, hvalue⟩

theorem Declarator.traverseAll_tidy (hr : r.KeepsTidy E markup) (declarators : List Declarator)
    (h : AllTidy true (Declarator.nodesAll declarators)) :
    E.returns (fun declarators => AllTidy markup (Declarator.nodesAll declarators))
      (Declarator.traverseAll r declarators) := by
  match declarators with
  | [] => exact E.pure allNodes_nil
  | d :: rest =>
    simp only [Declarator.nodesAll, allNodes_append] at h
    exact E.map₂ (d.traverse_tidy hr h.1) (Declarator.traverseAll_tidy hr rest h.2)
      fun d rest hd hrest => (allNodes_append _ _).2 ⟨hd, hrest⟩

theorem Element.traverse_tidy (hr : r.KeepsTidy E markup) (e : Element) (h : AllTidy true e.nodes) :
    E.returns (fun e => AllTidy markup e.nodes) (e.traverse r) := by
  match e with
  | ⟨name, attributes, children, selfClosing⟩ =>
    simp only [Element.nodes, allNodes_cons, allNodes_append] at h
    rw [Element.traverse, hr.element]
    exact E.map₂ (Attribute.traverseAll_tidy hr attributes h.1.attributes h.2.1)
      (Child.traverseAll_tidy hr children h.2.2) fun attributes children hattributes hchildren =>
        (allNodes_cons _ _).2 ⟨⟨h.1.name, hattributes.1⟩,
          (allNodes_append _ _).2 ⟨hattributes.2, hchildren⟩⟩

theorem Attribute.traverse_tidy (hr : r.KeepsTidy E markup) (a : Attribute) (ha : a.Tidy)
    (h : AllTidy true a.nodes) :
    E.returns (fun a => a.Tidy ∧ AllTidy markup a.nodes) (a.traverse r) := by
  match a with
  | .named name none => exact E.pure ⟨trivial, allNodes_nil⟩
  | .named name (some value) =>
    exact E.map (value.traverse_tidy hr name ha h) fun value hvalue => hvalue
  | .spread value => exact E.map (value.traverse_tidy hr h) fun value hvalue => ⟨trivial, hvalue⟩

theorem AttributeValue.traverse_tidy (hr : r.KeepsTidy E markup) (v : AttributeValue)
    (name : String) (hv : (Attribute.named name (some v)).Tidy) (h : AllTidy true v.nodes) :
    E.returns (fun v => (Attribute.named name (some v)).Tidy ∧ AllTidy markup v.nodes)
      (v.traverse r) := by
  match v with
  | .string lit => exact E.pure ⟨hv, allNodes_nil⟩
  | .expr value => exact E.map (value.traverse_tidy hr h) fun value hvalue => ⟨trivial, hvalue⟩
  | .element element =>
    exact E.map (element.traverse_tidy hr h) fun element helement => ⟨trivial, helement⟩

theorem Attribute.traverseAll_tidy (hr : r.KeepsTidy E markup) (attributes : List Attribute)
    (hattributes : ∀ a ∈ attributes, a.Tidy) (h : AllTidy true (Attribute.nodesAll attributes)) :
    E.returns (fun attributes => (∀ a ∈ attributes, a.Tidy) ∧
      AllTidy markup (Attribute.nodesAll attributes)) (Attribute.traverseAll r attributes) := by
  match attributes with
  | [] => exact E.pure ⟨nofun, allNodes_nil⟩
  | a :: rest =>
    simp only [Attribute.nodesAll, allNodes_append] at h
    obtain ⟨ha, hrest⟩ := List.forall_mem_cons.1 hattributes
    exact E.map₂ (a.traverse_tidy hr ha h.1) (Attribute.traverseAll_tidy hr rest hrest h.2)
      fun a rest ha hrest => ⟨List.forall_mem_cons.2 ⟨ha.1, hrest.1⟩,
        (allNodes_append _ _).2 ⟨ha.2, hrest.2⟩⟩

theorem Child.traverse_tidy (hr : r.KeepsTidy E markup) (c : Child) (h : AllTidy true c.nodes) :
    E.returns (fun c => AllTidy markup c.nodes) (c.traverse r) := by
  match c with
  | .text raw => exact E.pure allNodes_nil
  | .expr none => exact E.pure allNodes_nil
  | .expr (some value) => exact E.map (value.traverse_tidy hr h) fun value hvalue => hvalue
  | .element element => exact E.map (element.traverse_tidy hr h) fun element helement => helement

theorem Child.traverseAll_tidy (hr : r.KeepsTidy E markup) (children : List Child)
    (h : AllTidy true (Child.nodesAll children)) :
    E.returns (fun children => AllTidy markup (Child.nodesAll children))
      (Child.traverseAll r children) := by
  match children with
  | [] => exact E.pure allNodes_nil
  | c :: rest =>
    simp only [Child.nodesAll, allNodes_append] at h
    exact E.map₂ (c.traverse_tidy hr h.1) (Child.traverseAll_tidy hr rest h.2)
      fun c rest hc hrest => (allNodes_append _ _).2 ⟨hc, hrest⟩

end

/-! ## Modules -/

theorem DefaultExport.traverse_tidy (hr : r.KeepsTidy E markup) (d : DefaultExport)
    (hd : (Export.default d).Tidy) (h : AllTidy true d.nodes) :
    E.returns (fun d => (Export.default d).Tidy ∧ AllTidy markup d.nodes) (d.traverse r) := by
  cases d with
  | func name body => exact E.map (body.traverse_tidy hr h) fun body hbody => ⟨hd, hbody⟩
  | classDef name body => exact E.map (body.traverse_tidy hr h) fun body hbody => ⟨hd, hbody⟩
  | expr value => exact E.map (value.traverse_tidy hr h) fun value hvalue => ⟨trivial, hvalue⟩

theorem Export.traverse_tidy (hr : r.KeepsTidy E markup) (d : Export) (hd : d.Tidy)
    (h : AllTidy true d.nodes) :
    E.returns (fun d => d.Tidy ∧ AllTidy markup d.nodes) (d.traverse r) := by
  cases d with
  | decl d => exact E.map (d.traverse_tidy hr h) fun d hd => ⟨trivial, hd⟩
  | default value => exact E.map (value.traverse_tidy hr hd h) fun value hvalue => hvalue
  | list specifiers source => exact E.pure ⟨hd, allNodes_nil⟩
  | all source => exact E.pure ⟨hd, allNodes_nil⟩

theorem Item.traverse_tidy (hr : r.KeepsTidy E markup) (x : Item) (h : AllTidy true x.nodes) :
    E.returns (fun x => AllTidy markup x.nodes) (x.traverse r) := by
  cases x with
  | imports decl =>
    simp only [Item.nodes, allNodes_cons] at h
    rw [Item.traverse, hr.item]
    exact E.pure ((allNodes_cons _ _).2 ⟨trivial, (allNodes_cons _ _).2 ⟨h.2.1, allNodes_nil⟩⟩)
  | exports decl =>
    simp only [Item.nodes, allNodes_cons] at h
    rw [Item.traverse, hr.item]
    exact E.map (decl.traverse_tidy hr h.1 h.2) fun decl hdecl => (allNodes_cons _ _).2 hdecl
  | stmt s =>
    simp only [Item.nodes, allNodes_cons] at h
    rw [Item.traverse, hr.item]
    exact E.map (s.traverse_tidy hr h.2) fun s hs => (allNodes_cons _ _).2 ⟨trivial, hs⟩

theorem Program.traverse_tidy [LawfulMonad m] (hr : r.KeepsTidy E markup) (p : Program)
    (h : AllTidy true p.nodes) :
    E.returns (fun p => AllTidy markup p.nodes) (p.traverse r) := by
  simp only [Program.nodes, allNodes_flatMap] at h
  refine E.map (E.mapM fun x hx => x.traverse_tidy hr (h x hx)) fun items hitems => ?_
  exact (allNodes_flatMap _ _).2 hitems

end TsxCompiler
