import TsxCompiler.Proofs.KeptTexts
import TsxCompiler.Proofs.WellFormed

/-!
# What is left out of the text of a module

Nothing is printed for imports and exports of types, for type declarations and for empty
statements. `Program.erase` takes all of these out, at any depth: out of the items of the module and
out of every list of statements; where one is a branch of an `if`, an empty block takes its place.
Printing looks for them in five places of its own, for items, for lines, for blocks, and for the two
branches. It gives the same text with and without them.

* `Program.erase_cleared` — none of them is left, in whatever position.
* `Stmt.printBlock_filter`, `Stmt.asBlock_orBlock` — what becomes of them in a block and a branch.
* `Traversal.erasing_keepsText` — the text of a tree is the same.
* `Program.print_erase` — the text of a module is the same.
-/

namespace TsxCompiler

open Print

/-! ## Erasing -/

/-- A branch of an `if`: a statement that nothing is printed for gives way to an empty block. -/
def Stmt.orBlock (s : Stmt) : Stmt := if s.isErased then .block [] else s

/-- A statement with blocks for the branches that nothing is printed for. -/
def Stmt.fillBranches : Stmt → Stmt
  | .branch test cons alt => .branch test cons.orBlock (alt.map Stmt.orBlock)
  | s => s

/-- The traversal that takes out of every list of statements what nothing is printed for. -/
def Traversal.erasing : Traversal Id where
  block _ walk := (Id.run walk).filter (!·.isErased)
  stmt _ walk := (Id.run walk).fillBranches

/-- Items that nothing is printed for. -/
def Item.isErased : Item → Bool
  | .imports decl => decl.typeOnly
  | .exports (.decl (.typeDecl _)) => true
  | .exports _ => false
  | .stmt s => s.isErased

/-- A module without what nothing is printed for. -/
def Program.erase (p : Program) : Program :=
  ⟨(Id.run (p.traverse .erasing)).body.filter (!·.isErased)⟩

theorem Stmt.isErased_erase (s : Stmt) : (s.traverse .erasing).run.isErased = s.isErased := by
  match s with
  | .block _ | .expr _ | .ret none | .ret (some _) | .throw _ | .empty => rfl
  | .branch _ _ none | .branch _ _ (some _) => rfl
  | .decl (.var _ _) | .decl (.func _ _) | .decl (.classDecl _ _) | .decl (.typeDecl _) => rfl

theorem Item.isErased_erase (x : Item) : (x.traverse .erasing).run.isErased = x.isErased := by
  match x with
  | .imports _ => rfl
  | .stmt s => exact s.isErased_erase
  | .exports (.decl (.var _ _)) | .exports (.decl (.func _ _)) | .exports (.decl (.classDecl _ _))
  | .exports (.decl (.typeDecl _)) => rfl
  | .exports (.default _) | .exports (.list _ _) | .exports (.all _) => rfl

theorem Program.erase_body (p : Program) :
    p.erase.body = (p.body.map fun x => (x.traverse .erasing).run).filter (!·.isErased) := by
  have hpure : Item.traverse .erasing = fun x => pure (x.traverse .erasing).run := rfl
  rw [Program.erase, Program.traverse, hpure, List.mapM_pure]
  rfl

/-! ## Nothing to erase is left -/

/-- Nodes that nothing is printed for. -/
def Node.isErased : Node → Bool
  | .item x => x.isErased
  | .imports i => i.typeOnly
  | .stmt s => s.isErased
  | .decl (.typeDecl _) => true
  | _ => false

/-- Something is printed for every node of a list. -/
abbrev Cleared : List Node → Prop := AllNodes fun n => n.isErased = false

theorem Stmt.orBlock_cleared {s : Stmt} (h : s.isErased = false → Cleared s.nodes) :
    Cleared s.orBlock.nodes := by
  unfold Stmt.orBlock
  split
  · exact .cons rfl allNodes_nil
  · rename_i hs
    exact h (by simpa using hs)

mutual

/-- Nothing to take out is left at the node or below it. -/
theorem Expr.erase_cleared (e : Expr) : Cleared (e.traverse .erasing).run.nodes := by
  match e with
  | .this | .ident _ | .lit _ => exact .cons rfl allNodes_nil
  | .array elems => exact .cons rfl (Argument.eraseAll_cleared elems)
  | .object props => exact .cons rfl (Property.eraseAll_cleared props)
  | .func name body => exact .cons rfl body.erase_cleared
  | .arrow isAsync params body =>
    exact .cons rfl (.append (Pattern.eraseAll_cleared params) body.erase_cleared)
  | .classExpr name body => exact .cons rfl body.erase_cleared
  | .call callee args optional =>
    exact .cons rfl (.append callee.erase_cleared (Argument.eraseAll_cleared args))
  | .new callee none => exact .cons rfl callee.erase_cleared
  | .new callee (some args) =>
    exact .cons rfl (.append callee.erase_cleared (Argument.eraseAll_cleared args))
  | .member object key optional => exact .cons rfl (.append object.erase_cleared key.erase_cleared)
  | .unary op arg => exact .cons rfl arg.erase_cleared
  | .binary op left right => exact .cons rfl (.append left.erase_cleared right.erase_cleared)
  | .cond test cons alt =>
    exact .cons rfl (.append (.append test.erase_cleared cons.erase_cleared) alt.erase_cleared)
  | .assign op target value => exact .cons rfl (.append target.erase_cleared value.erase_cleared)
  | .jsx element => exact .cons rfl element.erase_cleared

theorem Argument.eraseAll_cleared (args : List Argument) :
    Cleared (Argument.nodesAll (Argument.traverseAll .erasing args).run) := by
  match args with
  | [] => exact allNodes_nil
  | ⟨spread, value⟩ :: rest => exact .append value.erase_cleared (Argument.eraseAll_cleared rest)

theorem Property.erase_cleared (p : Property) : Cleared (p.traverse .erasing).run.nodes := by
  match p with
  | .spread value => exact value.erase_cleared
  | .keyed key value => exact .append key.erase_cleared value.erase_cleared
  | .shorthand name => exact allNodes_nil

theorem Property.eraseAll_cleared (props : List Property) :
    Cleared (Property.nodesAll (Property.traverseAll .erasing props).run) := by
  match props with
  | [] => exact allNodes_nil
  | p :: rest => exact .append p.erase_cleared (Property.eraseAll_cleared rest)

theorem PropertyKey.erase_cleared (key : PropertyKey) :
    Cleared (key.traverse .erasing).run.nodes := by
  match key with
  | .ident _ | .string _ | .number _ => exact allNodes_nil
  | .computed value => exact value.erase_cleared

theorem MemberKey.erase_cleared (key : MemberKey) : Cleared (key.traverse .erasing).run.nodes := by
  match key with
  | .ident _ => exact allNodes_nil
  | .computed value => exact value.erase_cleared

theorem ArrowBody.erase_cleared (body : ArrowBody) :
    Cleared (body.traverse .erasing).run.nodes := by
  match body with
  | .block stmts => exact Stmt.eraseAll_cleared stmts
  | .expr value => exact value.erase_cleared

theorem Pattern.erase_cleared (p : Pattern) : Cleared (p.traverse .erasing).run.nodes := by
  match p with
  | .ident _ => exact .cons rfl allNodes_nil
  | .array elems => exact .cons rfl (Pattern.eraseAll_cleared elems)
  | .object props => exact .cons rfl (PatternProperty.eraseAll_cleared props)
  | .withDefault target value => exact .cons rfl (.append target.erase_cleared value.erase_cleared)
  | .rest target => exact .cons rfl target.erase_cleared

theorem Pattern.eraseAll_cleared (ps : List Pattern) :
    Cleared (Pattern.nodesAll (Pattern.traverseAll .erasing ps).run) := by
  match ps with
  | [] => exact allNodes_nil
  | p :: rest => exact .append p.erase_cleared (Pattern.eraseAll_cleared rest)

theorem PatternProperty.erase_cleared (p : PatternProperty) :
    Cleared (p.traverse .erasing).run.nodes := by
  match p with
  | .keyed key target => exact .append key.erase_cleared target.erase_cleared
  | .shorthand name none => exact allNodes_nil
  | .shorthand name (some value) => exact value.erase_cleared
  | .rest target => exact target.erase_cleared

theorem PatternProperty.eraseAll_cleared (props : List PatternProperty) :
    Cleared (PatternProperty.nodesAll (PatternProperty.traverseAll .erasing props).run) := by
  match props with
  | [] => exact allNodes_nil
  | p :: rest => exact .append p.erase_cleared (PatternProperty.eraseAll_cleared rest)

theorem Func.erase_cleared (f : Func) : Cleared (f.traverse .erasing).run.nodes := by
  match f with
  | ⟨isAsync, params, body⟩ =>
    exact .cons rfl (.append (Pattern.eraseAll_cleared params) (Stmt.eraseAll_cleared body))

theorem ClassBody.erase_cleared (c : ClassBody) : Cleared (c.traverse .erasing).run.nodes := by
  match c with
  | ⟨none, members⟩ => exact .cons rfl (ClassMember.eraseAll_cleared members)
  | ⟨some superClass, members⟩ =>
    exact .cons rfl (.append superClass.erase_cleared (ClassMember.eraseAll_cleared members))

theorem ClassMember.erase_cleared (x : ClassMember) :
    Cleared (x.traverse .erasing).run.nodes := by
  match x with
  | .method key body isStatic => exact .append key.erase_cleared body.erase_cleared
  | .field key none isStatic => exact key.erase_cleared
  | .field key (some value) isStatic => exact .append key.erase_cleared value.erase_cleared

theorem ClassMember.eraseAll_cleared (members : List ClassMember) :
    Cleared (ClassMember.nodesAll (ClassMember.traverseAll .erasing members).run) := by
  match members with
  | [] => exact allNodes_nil
  | x :: rest => exact .append x.erase_cleared (ClassMember.eraseAll_cleared rest)

theorem Stmt.erase_cleared (s : Stmt) (h : s.isErased = false) :
    Cleared (s.traverse .erasing).run.nodes := by
  match s with
  | .block stmts => exact .cons rfl (Stmt.eraseAll_cleared stmts)
  | .decl decl => exact .cons ((Stmt.isErased_erase (.decl decl)).trans h) (decl.erase_cleared h)
  | .expr value => exact .cons rfl value.erase_cleared
  | .ret none => exact .cons rfl allNodes_nil
  | .ret (some value) => exact .cons rfl value.erase_cleared
  | .branch test cons none =>
    exact .cons rfl (.append test.erase_cleared
      (Stmt.orBlock_cleared fun h => cons.erase_cleared (cons.isErased_erase.symm.trans h)))
  | .branch test cons (some alt) =>
    exact .cons rfl (.append (.append test.erase_cleared
      (Stmt.orBlock_cleared fun h => cons.erase_cleared (cons.isErased_erase.symm.trans h)))
      (Stmt.orBlock_cleared fun h => alt.erase_cleared (alt.isErased_erase.symm.trans h)))
  | .throw value => exact .cons rfl value.erase_cleared

theorem Stmt.eraseAll_cleared (stmts : List Stmt) :
    Cleared (Stmt.nodesAll ((Stmt.traverseAll .erasing stmts).run.filter (!·.isErased))) := by
  match stmts with
  | [] => exact allNodes_nil
  | s :: rest =>
    show Cleared (Stmt.nodesAll (((s.traverse .erasing).run ::
      (Stmt.traverseAll .erasing rest).run).filter _))
    cases h : s.isErased with
    | true =>
      rw [List.filter_cons_of_neg (by simp [s.isErased_erase, h])]
      exact Stmt.eraseAll_cleared rest
    | false =>
      rw [List.filter_cons_of_pos (by simp [s.isErased_erase, h])]
      exact .append (s.erase_cleared h) (Stmt.eraseAll_cleared rest)

theorem Decl.erase_cleared (d : Decl) (h : (Stmt.decl d).isErased = false) :
    Cleared (d.traverse .erasing).run.nodes := by
  match d with
  | .var kind declarators => exact .cons rfl (Declarator.eraseAll_cleared declarators)
  | .func name body => exact .cons rfl body.erase_cleared
  | .classDecl name body => exact .cons rfl (.cons rfl body.erase_cleared)
  | .typeDecl name => exact absurd h (by simp [Stmt.isErased])

theorem Declarator.erase_cleared (d : Declarator) : Cleared (d.traverse .erasing).run.nodes := by
  match d with
  | ⟨target, none⟩ => exact target.erase_cleared
  | ⟨target, some value⟩ => exact .append target.erase_cleared value.erase_cleared

theorem Declarator.eraseAll_cleared (declarators : List Declarator) :
    Cleared (Declarator.nodesAll (Declarator.traverseAll .erasing declarators).run) := by
  match declarators with
  | [] => exact allNodes_nil
  | d :: rest => exact .append d.erase_cleared (Declarator.eraseAll_cleared rest)

theorem Element.erase_cleared (e : Element) : Cleared (e.traverse .erasing).run.nodes := by
  match e with
  | ⟨name, attributes, children, selfClosing⟩ =>
    exact .cons rfl (.append (Attribute.eraseAll_cleared attributes)
      (Child.eraseAll_cleared children))

theorem Attribute.erase_cleared (a : Attribute) : Cleared (a.traverse .erasing).run.nodes := by
  match a with
  | .named name none => exact allNodes_nil
  | .named name (some value) => exact value.erase_cleared
  | .spread value => exact value.erase_cleared

theorem Attribute.eraseAll_cleared (attributes : List Attribute) :
    Cleared (Attribute.nodesAll (Attribute.traverseAll .erasing attributes).run) := by
  match attributes with
  | [] => exact allNodes_nil
  | a :: rest => exact .append a.erase_cleared (Attribute.eraseAll_cleared rest)

theorem AttributeValue.erase_cleared (v : AttributeValue) :
    Cleared (v.traverse .erasing).run.nodes := by
  match v with
  | .string _ => exact allNodes_nil
  | .expr value => exact value.erase_cleared
  | .element element => exact element.erase_cleared

theorem Child.erase_cleared (c : Child) : Cleared (c.traverse .erasing).run.nodes := by
  match c with
  | .text _ | .expr none => exact allNodes_nil
  | .expr (some value) => exact value.erase_cleared
  | .element element => exact element.erase_cleared

theorem Child.eraseAll_cleared (children : List Child) :
    Cleared (Child.nodesAll (Child.traverseAll .erasing children).run) := by
  match children with
  | [] => exact allNodes_nil
  | c :: rest => exact .append c.erase_cleared (Child.eraseAll_cleared rest)

end

theorem Item.isErased_decl (d : Decl) :
    (Item.exports (.decl d)).isErased = (Stmt.decl d).isErased := by
  cases d <;> rfl

theorem Item.erase_cleared (x : Item) (h : x.isErased = false) :
    Cleared (x.traverse .erasing).run.nodes := by
  have hitem : (x.traverse .erasing).run.isErased = false := x.isErased_erase.trans h
  match x with
  | .imports decl => exact .cons hitem (.cons h allNodes_nil)
  | .stmt s => exact .cons hitem (s.erase_cleared h)
  | .exports (.decl d) =>
    exact .cons hitem (d.erase_cleared ((Item.isErased_decl d).symm.trans h))
  | .exports (.default (.func name body)) => exact .cons hitem body.erase_cleared
  | .exports (.default (.classDef name body)) => exact .cons hitem body.erase_cleared
  | .exports (.default (.expr value)) => exact .cons hitem value.erase_cleared
  | .exports (.list _ _) | .exports (.all _) => exact .cons hitem allNodes_nil

/-- No node that nothing is printed for is left in a module. -/
theorem Program.erase_cleared (p : Program) : Cleared p.erase.nodes := by
  rw [Program.nodes, p.erase_body]
  refine (allNodes_flatMap _ _).2 fun y hy => ?_
  obtain ⟨hmem, herased⟩ := List.mem_filter.1 hy
  obtain ⟨x, -, rfl⟩ := List.mem_map.1 hmem
  have hx : x.isErased = false := by simpa [x.isErased_erase] using herased
  exact x.erase_cleared hx

/-! ## Blocks and branches -/

theorem Stmt.printAll_filter (stmts : List Stmt) (level : Nat) :
    Stmt.printAll (stmts.filter (!·.isErased)) level = Stmt.printAll stmts level := by
  induction stmts with
  | nil => rfl
  | cons s stmts ih =>
    cases h : s.isErased with
    | true =>
      have hline : s.asLine s.print level = "" := by simp [Stmt.asLine, h]
      rw [List.filter_cons_of_neg (by simp [h]), Stmt.printAll, hline, String.empty_append, ih]
    | false => rw [List.filter_cons_of_pos (by simp [h]), Stmt.printAll, Stmt.printAll, ih]

/-- A block is printed without looking at what nothing is printed for. -/
theorem Stmt.printBlock_filter (stmts : List Stmt) (level : Nat) :
    Stmt.printBlock (stmts.filter (!·.isErased)) level = Stmt.printBlock stmts level := by
  have hall : (stmts.filter (!·.isErased)).all Stmt.isErased = stmts.all Stmt.isErased := by
    rw [List.all_filter]
    congr 1
    funext s
    cases s.isErased <;> rfl
  rw [Stmt.printBlock_eq, Stmt.printBlock_eq, hall, Stmt.printAll_filter]

theorem Stmt.eq_of_isErased {s : Stmt} (h : s.isErased = true) :
    s = .empty ∨ ∃ name, s = .decl (.typeDecl name) := by
  match s with
  | .empty => exact .inl rfl
  | .decl (.typeDecl name) => exact .inr ⟨name, rfl⟩

/-- An empty block is printed in the place of a branch that nothing is printed for. -/
theorem Stmt.asBlock_orBlock (s : Stmt) (level : Nat) :
    s.orBlock.asBlock s.orBlock.print level = s.asBlock s.print level := by
  unfold Stmt.orBlock
  split
  · rename_i h
    obtain rfl | ⟨name, rfl⟩ := Stmt.eq_of_isErased h
    · rfl
    · rfl
  · rfl

theorem Stmt.asElse_orBlock (s : Stmt) (level : Nat) :
    s.orBlock.asElse s.orBlock.print level = s.asElse s.print level := by
  unfold Stmt.orBlock
  split
  · rename_i h
    obtain rfl | ⟨name, rfl⟩ := Stmt.eq_of_isErased h
    · rfl
    · rfl
  · rfl

theorem Stmt.fillBranches_alike (s : Stmt) : s.fillBranches.Alike s := by
  match s with
  | .block _ | .decl _ | .expr _ | .ret _ | .throw _ | .empty => exact .refl _
  | .branch test cons none =>
    exact ⟨fun level => congrArg ("if (" ++ test.print level ++ ") " ++ ·)
      (cons.asBlock_orBlock level), rfl, rfl, rfl⟩
  | .branch test cons (some alt) =>
    exact ⟨fun level => congrArg₂ (fun cons alt => "if (" ++ test.print level ++ ") " ++ cons ++
      " else " ++ alt) (cons.asBlock_orBlock level) (alt.asElse_orBlock level), rfl, rfl, rfl⟩

/-- Taking out what nothing is printed for keeps the text of a tree. -/
theorem Traversal.erasing_keepsText : Traversal.erasing.KeepsText where
  expr _ walk := .refl walk
  stmt _ walk := Stmt.fillBranches_alike walk
  block _ walk := Stmt.printBlock_filter walk
  item _ _ := rfl
  decl _ _ := rfl
  func _ _ := rfl
  classBody _ _ := rfl
  pattern _ _ := rfl
  element _ _ := rfl

/-! ## The text of a module -/

theorem Item.print_of_isErased {x : Item} (h : x.isErased = true) : x.print = "" := by
  match x with
  | .imports decl =>
    have htype : decl.typeOnly = true := h
    simp [Item.print, Import.print, htype]
  | .exports (.decl (.typeDecl _)) => rfl
  | .stmt s =>
    have hs : s.isErased = true := h
    simp [Item.print, Stmt.asLine, hs]

theorem Item.join_filter (items : List Item) :
    String.join ((items.filter (!·.isErased)).map Item.print) =
      String.join (items.map Item.print) := by
  induction items with
  | nil => rfl
  | cons x items ih =>
    rw [List.map_cons, String.join_cons, ← ih]
    cases h : x.isErased with
    | true =>
      rw [List.filter_cons_of_neg (by simp [h]), Item.print_of_isErased h, String.empty_append]
    | false => rw [List.filter_cons_of_pos (by simp [h]), List.map_cons, String.join_cons]

/-- The text of a module is the same without what nothing is printed for. -/
theorem Program.print_erase (p : Program) : p.erase.print = p.print := by
  rw [Program.print, Program.print, p.erase_body, Item.join_filter, List.map_map]
  congr 2
  funext x
  exact x.print_traverse Traversal.erasing_keepsText

end TsxCompiler
