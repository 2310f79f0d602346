import TsxCompiler.Proofs.ErasedNodes
import TsxCompiler.Proofs.NewCallees

/-!
# What printing leaves of a tree

The text of a module does not tell all of its tree. A `new` is printed with arguments whether it has
any or not, the branches of an `if` are printed in braces whether they are blocks or not, and nothing
is printed for types and empty statements. `Program.settled` is the tree in which all of that is
decided: every `new` has arguments, every branch is a block or, behind `else`, another `if`, and what
nothing is printed for is gone.

* `Traversal.settling_keepsText` — a tree is printed like its settled one.
* `Program.print_settled` — so is a module.
-/

namespace TsxCompiler

open Print

/-! ## Settling -/

/-- A branch of an `if` as a block. -/
def Stmt.braced (s : Stmt) : Stmt :=
  if s.isBlock then s else .block (if s.isErased then [] else [s])

/-- A branch behind `else`: another `if` stays as it is. -/
def Stmt.bracedElse (s : Stmt) : Stmt :=
  if s.isBranch then s else s.braced

/-- A statement with blocks for branches. -/
def Stmt.braceBranches : Stmt → Stmt
  | .branch test cons alt => .branch test cons.braced (alt.map Stmt.bracedElse)
  | s => s

/-- The traversal that decides what the text of a tree does not tell. -/
def Traversal.settling : Traversal Id where
  expr _ walk := (Id.run walk).fillNew
  stmt _ walk := (Id.run walk).braceBranches
  block _ walk := (Id.run walk).filter (!·.isErased)

def Expr.settled (e : Expr) : Expr := Id.run (e.traverse .settling)

def Argument.settled (a : Argument) : Argument := ⟨a.spread, a.value.settled⟩

def Property.settled (p : Property) : Property := Id.run (p.traverse .settling)

def PropertyKey.settled (key : PropertyKey) : PropertyKey := Id.run (key.traverse .settling)

def ArrowBody.settled (body : ArrowBody) : ArrowBody := Id.run (body.traverse .settling)

def Pattern.settled (p : Pattern) : Pattern := Id.run (p.traverse .settling)

def PatternProperty.settled (p : PatternProperty) : PatternProperty :=
  Id.run (p.traverse .settling)

def Stmt.settled (s : Stmt) : Stmt := Id.run (s.traverse .settling)

/-- The statements of a block, without those that nothing is printed for. -/
def Stmt.settledBlock (stmts : List Stmt) : List Stmt :=
  (stmts.map Stmt.settled).filter (!·.isErased)

def Decl.settled (d : Decl) : Decl := Id.run (d.traverse .settling)

def Declarator.settled (x : Declarator) : Declarator := Id.run (x.traverse .settling)

def Func.settled (f : Func) : Func := Id.run (f.traverse .settling)

def Element.settled (e : Element) : Element := Id.run (e.traverse .settling)

def Attribute.settled (a : Attribute) : Attribute := Id.run (a.traverse .settling)

def AttributeValue.settled (v : AttributeValue) : AttributeValue := Id.run (v.traverse .settling)

def Child.settled (c : Child) : Child := Id.run (c.traverse .settling)

def Item.settled (x : Item) : Item := Id.run (x.traverse .settling)

/-- The tree that the text of a module tells. -/
def Program.settled (p : Program) : Program :=
  ⟨(p.body.map Item.settled).filter (!·.isErased)⟩

/-! ## The text stays -/

theorem Stmt.isBlock_braced (s : Stmt) : s.braced.isBlock = true := by
  unfold Stmt.braced
  split
  · assumption
  · rfl

theorem Stmt.asBlock_braced (s : Stmt) (level : Nat) :
    s.braced.asBlock s.braced.print level = s.asBlock s.print level := by
  rw [Stmt.asBlock, if_pos s.isBlock_braced, Stmt.braced, Stmt.asBlock]
  split
  · rfl
  · rw [Stmt.print]
    cases h : s.isErased with
    | true => rfl
    | false =>
      rw [if_neg Bool.false_ne_true, if_neg Bool.false_ne_true, Stmt.printBlock_eq]
      simp [h, Stmt.printAll, Stmt.asLine]

theorem Stmt.isBranch_braced (s : Stmt) : s.braced.isBranch = false := by
  unfold Stmt.braced
  split
  · rename_i h
    match s with
    | .block _ => rfl
  · rfl

theorem Stmt.asElse_bracedElse (s : Stmt) (level : Nat) :
    s.bracedElse.asElse s.bracedElse.print level = s.asElse s.print level := by
  unfold Stmt.bracedElse
  split
  · rfl
  · rename_i h
    rw [Stmt.asElse, Stmt.asElse, if_neg h, if_neg (by rw [s.isBranch_braced]; decide),
      s.asBlock_braced]

theorem Stmt.braceBranches_alike (s : Stmt) : s.braceBranches.Alike s := by
  match s with
  | .block _ | .decl _ | .expr _ | .ret _ | .throw _ | .empty => exact .refl _
  | .branch test cons none =>
    exact ⟨fun level => congrArg ("if (" ++ test.print level ++ ") " ++ ·)
      (cons.asBlock_braced level), rfl, rfl, rfl⟩
  | .branch test cons (some alt) =>
    exact ⟨fun level => congrArg₂ (fun cons alt => "if (" ++ test.print level ++ ") " ++ cons ++
      " else " ++ alt) (cons.asBlock_braced level) (alt.asElse_bracedElse level), rfl, rfl, rfl⟩

/-- A tree is printed like its settled one. -/
theorem Traversal.settling_keepsText : Traversal.settling.KeepsText where
  expr _ walk := Expr.fillNew_alike walk
  stmt _ walk := Stmt.braceBranches_alike walk
  block _ walk := Stmt.printBlock_filter walk
  item _ _ := rfl
  decl _ _ := rfl
  func _ _ := rfl
  classBody _ _ := rfl
  pattern _ _ := rfl
  element _ _ := rfl

theorem Expr.settled_alike (e : Expr) : e.settled.Alike e :=
  e.traverse_alike Traversal.settling_keepsText

theorem Stmt.settled_alike (s : Stmt) : s.settled.Alike s :=
  s.traverse_alike Traversal.settling_keepsText

theorem Program.print_settled (p : Program) : p.settled.print = p.print := by
  rw [Program.print, Program.print, Program.settled, Item.join_filter, List.map_map]
  congr 2
  funext x
  exact x.print_traverse Traversal.settling_keepsText

/-! ## Parts -/

theorem eq_map_of_steps {α : Type} {f : List α → List α} {g : α → α} (hnil : f [] = [])
    (hcons : ∀ x xs, f (x :: xs) = g x :: f xs) (xs : List α) : f xs = xs.map g := by
  induction xs with
  | nil => exact hnil
  | cons x xs ih => rw [hcons, ih, List.map_cons]

theorem Argument.traverseAll_settling (args : List Argument) :
    Argument.traverseAll .settling args = args.map Argument.settled :=
  eq_map_of_steps rfl (fun ⟨_, _⟩ _ => rfl) args

theorem Property.traverseAll_settling (props : List Property) :
    Property.traverseAll .settling props = props.map Property.settled :=
  eq_map_of_steps rfl (fun _ _ => rfl) props

theorem Pattern.traverseAll_settling (ps : List Pattern) :
    Pattern.traverseAll .settling ps = ps.map Pattern.settled :=
  eq_map_of_steps rfl (fun _ _ => rfl) ps

theorem PatternProperty.traverseAll_settling (props : List PatternProperty) :
    PatternProperty.traverseAll .settling props = props.map PatternProperty.settled :=
  eq_map_of_steps rfl (fun _ _ => rfl) props

theorem Stmt.traverseAll_settling (stmts : List Stmt) :
    Stmt.traverseAll .settling stmts = stmts.map Stmt.settled :=
  eq_map_of_steps rfl (fun _ _ => rfl) stmts

theorem Declarator.traverseAll_settling (xs : List Declarator) :
    Declarator.traverseAll .settling xs = xs.map Declarator.settled :=
  eq_map_of_steps rfl (fun _ _ => rfl) xs

theorem Attribute.traverseAll_settling (attributes : List Attribute) :
    Attribute.traverseAll .settling attributes = attributes.map Attribute.settled :=
  eq_map_of_steps rfl (fun _ _ => rfl) attributes

theorem Child.traverseAll_settling (children : List Child) :
    Child.traverseAll .settling children = children.map Child.settled :=
  eq_map_of_steps rfl (fun _ _ => rfl) children

namespace Expr

@[simp] theorem settled_lit (value : Literal) : (Expr.lit value).settled = .lit value := rfl

@[simp] theorem settled_func (name : Option String) (body : Func) :
    (Expr.func name body).settled = .func name body.settled := rfl

@[simp] theorem settled_array (elems : List Argument) :
    (Expr.array elems).settled = .array (elems.map Argument.settled) := by
  rw [← Argument.traverseAll_settling]
  rfl

@[simp] theorem settled_object (props : List Property) :
    (Expr.object props).settled = .object (props.map Property.settled) := by
  rw [← Property.traverseAll_settling]
  rfl

@[simp] theorem settled_arrow (isAsync : Bool) (params : List Pattern) (body : ArrowBody) :
    (Expr.arrow isAsync params body).settled =
      .arrow isAsync (params.map Pattern.settled) body.settled := by
  rw [← Pattern.traverseAll_settling]
  rfl

@[simp] theorem settled_call (callee : Expr) (args : List Argument) (optional : Bool) :
    (Expr.call callee args optional).settled =
      .call callee.settled (args.map Argument.settled) optional := by
  rw [← Argument.traverseAll_settling]
  rfl

@[simp] theorem settled_new (callee : Expr) (args : Option (List Argument)) :
    (Expr.new callee args).settled =
      .new callee.settled (some ((args.getD []).map Argument.settled)) := by
  cases args with
  | none => rfl
  | some args =>
    rw [← Argument.traverseAll_settling]
    rfl

theorem isWholeCallee_settled (e : Expr) : e.settled.isWholeCallee = e.isWholeCallee := by
  rw [isWholeCallee, isWholeCallee, e.settled_alike.isCall, settled,
    exposesCall_traverse fun _ _ => rfl]

end Expr

@[simp] theorem ArrowBody.settled_block (stmts : List Stmt) :
    (ArrowBody.block stmts).settled = .block (Stmt.settledBlock stmts) := by
  rw [Stmt.settledBlock, ← Stmt.traverseAll_settling]
  rfl

@[simp] theorem ArrowBody.settled_expr (e : Expr) :
    (ArrowBody.expr e).settled = .expr e.settled := rfl

@[simp] theorem Func.settled_mk (isAsync : Bool) (params : List Pattern) (body : List Stmt) :
    Func.settled ⟨isAsync, params, body⟩ =
      ⟨isAsync, params.map Pattern.settled, Stmt.settledBlock body⟩ := by
  rw [Stmt.settledBlock, ← Stmt.traverseAll_settling, ← Pattern.traverseAll_settling]
  rfl

@[simp] theorem Pattern.settled_ident (name : String) :
    (Pattern.ident name).settled = .ident name := rfl

@[simp] theorem Pattern.settled_array (elems : List Pattern) :
    (Pattern.array elems).settled = .array (elems.map Pattern.settled) := by
  rw [← Pattern.traverseAll_settling]
  rfl

@[simp] theorem Pattern.settled_object (props : List PatternProperty) :
    (Pattern.object props).settled = .object (props.map PatternProperty.settled) := by
  rw [← PatternProperty.traverseAll_settling]
  rfl

@[simp] theorem Pattern.settled_withDefault (target : Pattern) (value : Option Expr) :
    (Grammar.withDefault target value).settled =
      Grammar.withDefault target.settled (value.map Expr.settled) := by
  cases value <;> rfl

@[simp] theorem PatternProperty.settled_shorthand (name : String) (value : Option Expr) :
    (PatternProperty.shorthand name value).settled = .shorthand name (value.map Expr.settled) := by
  cases value <;> rfl

@[simp] theorem Declarator.settled_mk (target : Pattern) (value : Option Expr) :
    Declarator.settled ⟨target, value⟩ = ⟨target.settled, value.map Expr.settled⟩ := by
  cases value <;> rfl

@[simp] theorem Decl.settled_var (kind : VarKind) (xs : List Declarator) :
    (Decl.var kind xs).settled = .var kind (xs.map Declarator.settled) := by
  rw [← Declarator.traverseAll_settling]
  rfl

@[simp] theorem Decl.settled_func (name : String) (body : Func) :
    (Decl.func name body).settled = .func name body.settled := rfl

@[simp] theorem Stmt.settled_decl (x : Decl) : (Stmt.decl x).settled = .decl x.settled := rfl

@[simp] theorem Stmt.settled_expr (e : Expr) : (Stmt.expr e).settled = .expr e.settled := rfl

@[simp] theorem Stmt.settled_throw (e : Expr) : (Stmt.throw e).settled = .throw e.settled := rfl

@[simp] theorem Stmt.settled_block (stmts : List Stmt) :
    (Stmt.block stmts).settled = .block (Stmt.settledBlock stmts) := by
  rw [Stmt.settledBlock, ← Stmt.traverseAll_settling]
  rfl

@[simp] theorem Stmt.settled_ret (value : Option Expr) :
    (Stmt.ret value).settled = .ret (value.map Expr.settled) := by
  cases value <;> rfl

@[simp] theorem Stmt.settled_branch (test : Expr) (cons : Stmt) (alt : Option Stmt) :
    (Stmt.branch test cons alt).settled =
      .branch test.settled cons.settled.braced (alt.map fun s => s.settled.bracedElse) := by
  cases alt <;> rfl

@[simp] theorem Item.settled_stmt (s : Stmt) : (Item.stmt s).settled = .stmt s.settled := rfl

theorem Item.isErased_settled (x : Item) : x.settled.isErased = x.isErased := by
  match x with
  | .imports _ => rfl
  | .stmt s => exact s.settled_alike.isErased
  | .exports (.decl (.var _ _)) | .exports (.decl (.func _ _)) | .exports (.decl (.classDecl _ _))
  | .exports (.decl (.typeDecl _)) => rfl
  | .exports (.default _) | .exports (.list _ _) | .exports (.all _) => rfl

@[simp] theorem Element.settled_mk (name : Option String) (attributes : List Attribute)
    (children : List Child) (selfClosing : Bool) :
    Element.settled ⟨name, attributes, children, selfClosing⟩ =
      ⟨name, attributes.map Attribute.settled, children.map Child.settled, selfClosing⟩ := by
  rw [← Attribute.traverseAll_settling, ← Child.traverseAll_settling]
  rfl

@[simp] theorem Attribute.settled_named (name : String) (value : Option AttributeValue) :
    (Attribute.named name value).settled = .named name (value.map AttributeValue.settled) := by
  cases value <;> rfl

@[simp] theorem Child.settled_expr (value : Option Expr) :
    (Child.expr value).settled = .expr (value.map Expr.settled) := by
  cases value <;> rfl

end TsxCompiler
