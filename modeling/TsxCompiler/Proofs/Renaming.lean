import TsxCompiler.Pass.Edit
import TsxCompiler.Tree.Preorder

/-!
# Renaming the identifiers of a module

An edit renames the identifiers that are expressions, and reaches them through the traversal, which
goes through the parts of every node by itself. Where an identifier may stand is said by the nodes
of the tree. Renaming reaches all of them and changes nothing else: it changes their names in place,
renaming twice is renaming once by both changes, and a change that leaves the names of a tree alone
leaves the tree alone.

* `Relabels` — the three laws, for a tree and a walk through it that changes expressions;
* `Expr.relabels` and its companions — one for each kind of node;
* `Program.rename_reachesIdentifiers` — the old name is gone, and renaming back restores the module.
-/

namespace TsxCompiler

/-! ## Changes of names -/

/-- An identifier with another name. -/
def Expr.renamedBy (change : String → String) : Expr → Expr
  | .ident name => .ident (change name)
  | e => e

/-- The change that replaces one name by another. -/
def replaceName (source target name : String) : String :=
  if name = source then target else name

theorem Expr.renamed_eq (source target : String) :
    Expr.renamed source target = Expr.renamedBy (replaceName source target) := by
  funext e
  cases e <;> rfl

/-- The names of the identifiers among some nodes. -/
def Node.identifiers (nodes : List Node) : List String :=
  nodes.filterMap Node.identifier?

theorem Node.identifiers_append (ns ms : List Node) :
    identifiers (ns ++ ms) = identifiers ns ++ identifiers ms :=
  List.filterMap_append

/-- The laws of a walk that changes expressions, at one tree: what it does as one that changes names,
and when it does nothing at all. -/
structure Relabels {α : Type} (walk : (Expr → Expr) → α → α) (nodes : α → List Node) (x : α) :
    Prop where
  identifiers_walk : ∀ f, Node.identifiers (nodes (walk (Expr.renamedBy f) x)) =
    (Node.identifiers (nodes x)).map f
  walk_walk : ∀ f g, walk (Expr.renamedBy g) (walk (Expr.renamedBy f) x) =
    walk (Expr.renamedBy (g ∘ f)) x
  walk_eq_self : ∀ f, (∀ e, Node.expr e ∈ nodes x → f e = e) → walk f x = x

namespace Relabels

variable {α β γ δ : Type} {walkα : (Expr → Expr) → α → α} {walkβ : (Expr → Expr) → β → β}
  {walkγ : (Expr → Expr) → γ → γ} {walkδ : (Expr → Expr) → δ → δ}
  {nodesα : α → List Node} {nodesβ : β → List Node} {nodesγ : γ → List Node}
  {nodesδ : δ → List Node}

/-- A tree in which there is no expression. -/
theorem leaf {x : α} (hwalk : ∀ f, walkα f x = x := by intros; rfl)
    (hnodes : Node.identifiers (nodesα x) = [] := by rfl) : Relabels walkα nodesα x where
  identifiers_walk f := by simp [hwalk, hnodes]
  walk_walk f g := by simp [hwalk]
  walk_eq_self f _ := hwalk f

/-- Two trees side by side. -/
theorem pair {x : α} {y : β} (hx : Relabels walkα nodesα x) (hy : Relabels walkβ nodesβ y) :
    Relabels (fun f (p : α × β) => (walkα f p.1, walkβ f p.2))
      (fun p => nodesα p.1 ++ nodesβ p.2) (x, y) where
  identifiers_walk f := by
    rw [Node.identifiers_append, Node.identifiers_append, hx.identifiers_walk,
      hy.identifiers_walk, List.map_append]
  walk_walk f g := by rw [hx.walk_walk, hy.walk_walk]
  walk_eq_self f h := by
    rw [hx.walk_eq_self f fun e he => h e (List.mem_append_left _ he),
      hy.walk_eq_self f fun e he => h e (List.mem_append_right _ he)]

/-- One part, rebuilt, behind nodes that are no expressions. -/
theorem map (make : α → β) {x : α} (hx : Relabels walkα nodesα x)
    (hwalk : ∀ f x, walkβ f (make x) = make (walkα f x) := by intros; rfl)
    (hnodes : ∀ x, ∃ front, Node.identifiers front = [] ∧ nodesβ (make x) = front ++ nodesα x := by
      intros; first | exact ⟨[], rfl, rfl⟩ | exact ⟨[_], rfl, rfl⟩) :
    Relabels walkβ nodesβ (make x) where
  identifiers_walk f := by
    obtain ⟨front, hfront, hx'⟩ := hnodes x
    obtain ⟨front', hfront', hwalked⟩ := hnodes (walkα (Expr.renamedBy f) x)
    rw [hwalk, hx', hwalked, Node.identifiers_append, Node.identifiers_append, hfront, hfront',
      List.nil_append, List.nil_append, hx.identifiers_walk]
  walk_walk f g := by rw [hwalk, hwalk, hwalk, hx.walk_walk]
  walk_eq_self f h := by
    obtain ⟨front, -, hx'⟩ := hnodes x
    rw [hwalk, hx.walk_eq_self f fun e he => h e (hx' ▸ List.mem_append_right _ he)]

/-- One part of an expression that is no identifier. -/
theorem expr (make : α → Expr) {x : α} (hx : Relabels walkα nodesα x)
    (hwalk : ∀ f x, ((make x).traverse (.onExprs f)).run = f (make (walkα f x)) := by
      intros; rfl)
    (hnodes : ∀ x, (make x).nodes = .expr (make x) :: nodesα x := by intros; rfl)
    (hname : ∀ f x, (make x).renamedBy f = make x := by intros; rfl)
    (hident : ∀ x, Node.identifier? (.expr (make x)) = none := by intros; rfl) :
    Relabels (fun f e => (Expr.traverse (.onExprs f) e).run) Expr.nodes (make x) where
  identifiers_walk f := by
    rw [hwalk, hname, hnodes, hnodes, Node.identifiers, List.filterMap_cons_none (hident _),
      Node.identifiers, List.filterMap_cons_none (hident _)]
    exact hx.identifiers_walk f
  walk_walk f g := by rw [hwalk, hname, hwalk, hname, hwalk, hname, hx.walk_walk]
  walk_eq_self f h := by
    rw [hnodes] at h
    rw [hwalk, hx.walk_eq_self f fun e he => h e (List.mem_cons_of_mem _ he)]
    exact h _ List.mem_cons_self

/-- Two parts, rebuilt. -/
theorem map₂ (make : α → β → γ) {x : α} {y : β} (hx : Relabels walkα nodesα x)
    (hy : Relabels walkβ nodesβ y)
    (hwalk : ∀ f x y, walkγ f (make x y) = make (walkα f x) (walkβ f y) := by intros; rfl)
    (hnodes : ∀ x y, ∃ front, Node.identifiers front = [] ∧
      nodesγ (make x y) = front ++ (nodesα x ++ nodesβ y) := by
        intros; first | exact ⟨[], rfl, rfl⟩ | exact ⟨[_], rfl, rfl⟩) :
    Relabels walkγ nodesγ (make x y) :=
  (hx.pair hy).map (fun p => make p.1 p.2) (fun f p => hwalk f p.1 p.2) fun p => hnodes p.1 p.2

/-- Three parts, rebuilt. -/
theorem map₃ (make : α → β → γ → δ) {x : α} {y : β} {z : γ} (hx : Relabels walkα nodesα x)
    (hy : Relabels walkβ nodesβ y) (hz : Relabels walkγ nodesγ z)
    (hwalk : ∀ f x y z, walkδ f (make x y z) = make (walkα f x) (walkβ f y) (walkγ f z) := by
      intros; rfl)
    (hnodes : ∀ x y z, ∃ front, Node.identifiers front = [] ∧
      nodesδ (make x y z) = front ++ (nodesα x ++ nodesβ y ++ nodesγ z) := by
        intros; exact ⟨[_], rfl, rfl⟩) :
    Relabels walkδ nodesδ (make x y z) :=
  (hx.pair hy).map₂ (fun p z => make p.1 p.2 z) hz (fun f p z => hwalk f p.1 p.2 z)
    fun p z => hnodes p.1 p.2 z

end Relabels

/-! ## Trees -/

mutual

/-- Rewriting the identifiers of an expression only relabels its nodes: one case for each
constructor, with the parts taken as a pair. -/
theorem Expr.relabels (e : Expr) :
    Relabels (fun f e => (Expr.traverse (.onExprs f) e).run) Expr.nodes e := by
  have hnone : Relabels (fun _ (u : Unit) => u) (fun _ => []) () := .leaf
  match e with
  | .this => exact hnone.expr fun _ => Expr.this
  | .lit value => exact hnone.expr fun _ => Expr.lit value
  | .ident name => exact ⟨fun _ => rfl, fun _ _ => rfl, fun f h => h _ (.head _)⟩
  | .array elems => exact (Argument.relabelsAll elems).expr Expr.array
  | .object props => exact (Property.relabelsAll props).expr Expr.object
  | .func name body => exact body.relabels.expr (Expr.func name)
  | .arrow isAsync params body =>
    exact ((Pattern.relabelsAll params).pair body.relabels).expr
      fun p => Expr.arrow isAsync p.1 p.2
  | .classExpr name body => exact body.relabels.expr (Expr.classExpr name)
  | .call callee args optional =>
    exact (callee.relabels.pair (Argument.relabelsAll args)).expr
      fun p => Expr.call p.1 p.2 optional
  | .new callee none => exact callee.relabels.expr (Expr.new · none)
  | .new callee (some args) =>
    exact (callee.relabels.pair (Argument.relabelsAll args)).expr
      fun p => Expr.new p.1 (some p.2)
  | .member object key optional =>
    exact (object.relabels.pair key.relabels).expr
      fun p => Expr.member p.1 p.2 optional
  | .unary op arg => exact arg.relabels.expr (Expr.unary op)
  | .binary op left right =>
    exact (left.relabels.pair right.relabels).expr fun p => Expr.binary op p.1 p.2
  | .cond test cons alt =>
    exact ((test.relabels.pair cons.relabels).pair alt.relabels).expr
      fun p => Expr.cond p.1.1 p.1.2 p.2
  | .assign op target value =>
    exact (target.relabels.pair value.relabels).expr
      fun p => Expr.assign op p.1 p.2
  | .jsx element => exact element.relabels.expr Expr.jsx

theorem Argument.relabelsAll (args : List Argument) :
    Relabels (fun f args => (Argument.traverseAll (.onExprs f) args).run) Argument.nodesAll
      args := by
  match args with
  | [] => exact .leaf
  | ⟨spread, value⟩ :: rest =>
    exact value.relabels.map₂ (fun value rest => Argument.mk spread value :: rest)
      (Argument.relabelsAll rest)

theorem Property.relabels (p : Property) :
    Relabels (fun f p => (Property.traverse (.onExprs f) p).run) Property.nodes p := by
  match p with
  | .spread value => exact value.relabels.map Property.spread
  | .keyed key value => exact key.relabels.map₂ Property.keyed value.relabels
  | .shorthand name => exact .leaf

theorem Property.relabelsAll (props : List Property) :
    Relabels (fun f props => (Property.traverseAll (.onExprs f) props).run) Property.nodesAll
      props := by
  match props with
  | [] => exact .leaf
  | p :: rest => exact p.relabels.map₂ List.cons (Property.relabelsAll rest)

theorem PropertyKey.relabels (key : PropertyKey) :
    Relabels (fun f key => (PropertyKey.traverse (.onExprs f) key).run) PropertyKey.nodes
      key := by
  match key with
  | .ident _ | .string _ | .number _ => exact .leaf
  | .computed value => exact value.relabels.map PropertyKey.computed

theorem MemberKey.relabels (key : MemberKey) :
    Relabels (fun f key => (MemberKey.traverse (.onExprs f) key).run) MemberKey.nodes key := by
  match key with
  | .ident _ => exact .leaf
  | .computed value => exact value.relabels.map MemberKey.computed

theorem ArrowBody.relabels (body : ArrowBody) :
    Relabels (fun f body => (ArrowBody.traverse (.onExprs f) body).run) ArrowBody.nodes body := by
  match body with
  | .block stmts => exact (Stmt.relabelsAll stmts).map ArrowBody.block
  | .expr value => exact value.relabels.map ArrowBody.expr

theorem Pattern.relabels (p : Pattern) :
    Relabels (fun f p => (Pattern.traverse (.onExprs f) p).run) Pattern.nodes p := by
  match p with
  | .ident name => exact .leaf
  | .array elems => exact (Pattern.relabelsAll elems).map Pattern.array
  | .object props => exact (PatternProperty.relabelsAll props).map Pattern.object
  | .withDefault target value =>
    exact target.relabels.map₂ Pattern.withDefault value.relabels
  | .rest target => exact target.relabels.map Pattern.rest

theorem Pattern.relabelsAll (ps : List Pattern) :
    Relabels (fun f ps => (Pattern.traverseAll (.onExprs f) ps).run) Pattern.nodesAll ps := by
  match ps with
  | [] => exact .leaf
  | p :: rest => exact p.relabels.map₂ List.cons (Pattern.relabelsAll rest)

theorem PatternProperty.relabels (p : PatternProperty) :
    Relabels (fun f p => (PatternProperty.traverse (.onExprs f) p).run) PatternProperty.nodes
      p := by
  match p with
  | .keyed key target => exact key.relabels.map₂ PatternProperty.keyed target.relabels
  | .shorthand name none => exact .leaf
  | .shorthand name (some value) =>
    exact value.relabels.map fun value => PatternProperty.shorthand name (some value)
  | .rest target => exact target.relabels.map PatternProperty.rest

theorem PatternProperty.relabelsAll (props : List PatternProperty) :
    Relabels (fun f props => (PatternProperty.traverseAll (.onExprs f) props).run)
      PatternProperty.nodesAll props := by
  match props with
  | [] => exact .leaf
  | p :: rest => exact p.relabels.map₂ List.cons (PatternProperty.relabelsAll rest)

theorem Func.relabels (f : Func) :
    Relabels (fun change f => (Func.traverse (.onExprs change) f).run) Func.nodes f := by
  match f with
  | ⟨isAsync, params, body⟩ =>
    exact (Pattern.relabelsAll params).map₂ (Func.mk isAsync) (Stmt.relabelsAll body)

theorem ClassBody.relabels (c : ClassBody) :
    Relabels (fun f c => (ClassBody.traverse (.onExprs f) c).run) ClassBody.nodes c := by
  match c with
  | ⟨none, members⟩ => exact (ClassMember.relabelsAll members).map (ClassBody.mk none)
  | ⟨some superClass, members⟩ =>
    exact superClass.relabels.map₂ (fun superClass => ClassBody.mk (some superClass))
      (ClassMember.relabelsAll members)

theorem ClassMember.relabels (x : ClassMember) :
    Relabels (fun f x => (ClassMember.traverse (.onExprs f) x).run) ClassMember.nodes x := by
  match x with
  | .method key body isStatic =>
    exact key.relabels.map₂ (ClassMember.method · · isStatic) body.relabels
  | .field key none isStatic => exact key.relabels.map (ClassMember.field · none isStatic)
  | .field key (some value) isStatic =>
    exact key.relabels.map₂ (fun key value => ClassMember.field key (some value) isStatic)
      value.relabels

theorem ClassMember.relabelsAll (members : List ClassMember) :
    Relabels (fun f members => (ClassMember.traverseAll (.onExprs f) members).run)
      ClassMember.nodesAll members := by
  match members with
  | [] => exact .leaf
  | x :: rest => exact x.relabels.map₂ List.cons (ClassMember.relabelsAll rest)

theorem Stmt.relabels (s : Stmt) :
    Relabels (fun f s => (Stmt.traverse (.onExprs f) s).run) Stmt.nodes s := by
  match s with
  | .block stmts => exact (Stmt.relabelsAll stmts).map Stmt.block
  | .decl decl => exact decl.relabels.map Stmt.decl
  | .expr value => exact value.relabels.map Stmt.expr
  | .ret none | .empty => exact .leaf
  | .ret (some value) => exact value.relabels.map fun value => Stmt.ret (some value)
  | .branch test cons none => exact test.relabels.map₂ (Stmt.branch · · none) cons.relabels
  | .branch test cons (some alt) =>
    exact test.relabels.map₃ (fun test cons alt => Stmt.branch test cons (some alt)) cons.relabels
      alt.relabels
  | .throw value => exact value.relabels.map Stmt.throw

theorem Stmt.relabelsAll (stmts : List Stmt) :
    Relabels (fun f stmts => (Stmt.traverseAll (.onExprs f) stmts).run) Stmt.nodesAll stmts := by
  match stmts with
  | [] => exact .leaf
  | s :: rest => exact s.relabels.map₂ List.cons (Stmt.relabelsAll rest)

theorem Decl.relabels (d : Decl) :
    Relabels (fun f d => (Decl.traverse (.onExprs f) d).run) Decl.nodes d := by
  match d with
  | .var kind declarators => exact (Declarator.relabelsAll declarators).map (Decl.var kind)
  | .func name body => exact body.relabels.map (Decl.func name)
  | .classDecl name body =>
    -- The name is a node of its own, behind the declaration.
    exact body.relabels.map (Decl.classDecl name) (fun _ _ => rfl) fun _ => ⟨[_, _], rfl, rfl⟩
  | .typeDecl name => exact .leaf

theorem Declarator.relabels (d : Declarator) :
    Relabels (fun f d => (Declarator.traverse (.onExprs f) d).run) Declarator.nodes d := by
  match d with
  | ⟨target, none⟩ => exact target.relabels.map (Declarator.mk · none)
  | ⟨target, some value⟩ =>
    exact target.relabels.map₂ (fun target value => Declarator.mk target (some value))
      value.relabels

theorem Declarator.relabelsAll (declarators : List Declarator) :
    Relabels (fun f declarators => (Declarator.traverseAll (.onExprs f) declarators).run)
      Declarator.nodesAll declarators := by
  match declarators with
  | [] => exact .leaf
  | d :: rest => exact d.relabels.map₂ List.cons (Declarator.relabelsAll rest)

theorem Element.relabels (e : Element) :
    Relabels (fun f e => (Element.traverse (.onExprs f) e).run) Element.nodes e := by
  match e with
  | ⟨name, attributes, children, selfClosing⟩ =>
    exact (Attribute.relabelsAll attributes).map₂ (Element.mk name · · selfClosing)
      (Child.relabelsAll children)

theorem Attribute.relabels (a : Attribute) :
    Relabels (fun f a => (Attribute.traverse (.onExprs f) a).run) Attribute.nodes a := by
  match a with
  | .named name none => exact .leaf
  | .named name (some value) =>
    exact value.relabels.map fun value => Attribute.named name (some value)
  | .spread value => exact value.relabels.map Attribute.spread

theorem Attribute.relabelsAll (attributes : List Attribute) :
    Relabels (fun f attributes => (Attribute.traverseAll (.onExprs f) attributes).run)
      Attribute.nodesAll attributes := by
  match attributes with
  | [] => exact .leaf
  | a :: rest => exact a.relabels.map₂ List.cons (Attribute.relabelsAll rest)

theorem AttributeValue.relabels (v : AttributeValue) :
    Relabels (fun f v => (AttributeValue.traverse (.onExprs f) v).run) AttributeValue.nodes
      v := by
  match v with
  | .string lit => exact .leaf
  | .expr value => exact value.relabels.map AttributeValue.expr
  | .element element => exact element.relabels.map AttributeValue.element

theorem Child.relabels (c : Child) :
    Relabels (fun f c => (Child.traverse (.onExprs f) c).run) Child.nodes c := by
  match c with
  | .text _ | .expr none => exact .leaf
  | .expr (some value) => exact value.relabels.map fun value => Child.expr (some value)
  | .element element => exact element.relabels.map Child.element

theorem Child.relabelsAll (children : List Child) :
    Relabels (fun f children => (Child.traverseAll (.onExprs f) children).run) Child.nodesAll
      children := by
  match children with
  | [] => exact .leaf
  | c :: rest => exact c.relabels.map₂ List.cons (Child.relabelsAll rest)

end

/-! ## Modules -/

theorem DefaultExport.relabels (d : DefaultExport) :
    Relabels (fun f d => (DefaultExport.traverse (.onExprs f) d).run) DefaultExport.nodes d := by
  match d with
  | .func name body => exact body.relabels.map (DefaultExport.func name)
  | .classDef name body => exact body.relabels.map (DefaultExport.classDef name)
  | .expr value => exact value.relabels.map DefaultExport.expr

theorem Export.relabels (x : Export) :
    Relabels (fun f x => (Export.traverse (.onExprs f) x).run) Export.nodes x := by
  match x with
  | .decl d => exact d.relabels.map Export.decl
  | .default value => exact value.relabels.map Export.default
  | .list _ _ | .all _ => exact .leaf

theorem Item.relabels (x : Item) :
    Relabels (fun f x => (Item.traverse (.onExprs f) x).run) Item.nodes x := by
  match x with
  | .imports decl => exact .leaf
  | .exports decl => exact decl.relabels.map Item.exports
  | .stmt s => exact s.relabels.map Item.stmt

theorem Item.relabelsAll (items : List Item) :
    Relabels (fun f items => items.map fun x => (Item.traverse (.onExprs f) x).run)
      (fun items => items.flatMap Item.nodes) items := by
  induction items with
  | nil => exact .leaf
  | cons x items ih => exact x.relabels.map₂ List.cons ih

theorem Program.mapExprs_eq (f : Expr → Expr) (p : Program) :
    p.mapExprs f = ⟨p.body.map fun x => (x.traverse (.onExprs f)).run⟩ := by
  have hwalk : Item.traverse (.onExprs f) = fun x => pure (x.traverse (.onExprs f)).run := rfl
  rw [Program.mapExprs, Program.traverse, hwalk, List.mapM_pure]
  rfl

theorem Program.relabels (p : Program) : Relabels Program.mapExprs Program.nodes p :=
  (Item.relabelsAll p.body).map Program.mk (fun f body => Program.mapExprs_eq f ⟨body⟩)

/-- The names of the identifiers that are expressions of a module, in source order. -/
def Program.identifiers (p : Program) : List String :=
  Node.identifiers p.nodes

theorem replaceName_ne {source target : String} (h : source ≠ target) (name : String) :
    replaceName source target name ≠ source := by
  unfold replaceName
  split
  · exact h.symm
  · assumption

/-- A new name is replaced back by the old one, and no other name is touched. -/
theorem replaceName_replaceName {source target name : String} (h : name ≠ target) :
    replaceName target source (replaceName source target name) = name := by
  by_cases hs : name = source
  · simp [replaceName, hs]
  · simp [replaceName, hs, h]

/-- Renaming reaches every identifier that is an expression of a module, and nothing else. It puts
the new name in the place of the old one wherever that stands, so the old name is gone, and where
the new name was not in use, renaming back gives the module as it was. -/
theorem Program.rename_reachesIdentifiers {source target : String} (h : source ≠ target)
    (p : Program) :
    (p.rename source target).identifiers = p.identifiers.map (replaceName source target) ∧
      source ∉ (p.rename source target).identifiers ∧
      (target ∉ p.identifiers → (p.rename source target).rename target source = p) := by
  have hrename : ∀ (q : Program) (a b : String),
      q.rename a b = q.mapExprs (Expr.renamedBy (replaceName a b)) :=
    fun q a b => congrArg q.mapExprs (Expr.renamed_eq a b)
  have hnames : (p.rename source target).identifiers =
      p.identifiers.map (replaceName source target) := by
    rw [hrename]
    exact p.relabels.identifiers_walk _
  refine ⟨hnames, ?_, ?_⟩
  · rw [hnames]
    intro hmem
    obtain ⟨name, -, hname⟩ := List.mem_map.1 hmem
    exact replaceName_ne h name hname
  · intro hfresh
    rw [hrename, hrename, p.relabels.walk_walk]
    refine p.relabels.walk_eq_self _ fun e he => ?_
    cases e with
    | ident name =>
      have hname : name ∈ p.identifiers := List.mem_filterMap.2 ⟨_, he, rfl⟩
      exact congrArg Expr.ident (replaceName_replaceName fun htarget => hfresh (htarget ▸ hname))
    | _ => rfl

/-- `const { x = old, [old]: y } = class extends old { x = (old) => <p old={old}>{old}</p> }`, in
which five of the names are identifiers among the expressions. -/
def renamingSample : Program :=
  ⟨[.stmt (.decl (.var .const
    [⟨.object [.shorthand "x" (some (.ident "old")),
        .keyed (.computed (.ident "old")) (.ident "y")],
      some (.classExpr none ⟨some (.ident "old"),
        [.field (.ident "x") (some (.arrow false [.ident "old"] (.expr (.jsx
          ⟨some "p", [.named "old" (some (.expr (.ident "old")))], [.expr (some (.ident "old"))],
            false⟩)))) false]⟩)⟩]))]⟩

theorem Program.rename_reachesIdentifiers_sample :
    renamingSample.identifiers = ["old", "old", "old", "old", "old"] ∧ "old" ≠ "new" ∧
      "new" ∉ renamingSample.identifiers ∧
      "old" ∉ (renamingSample.rename "old" "new").identifiers ∧
      (renamingSample.rename "old" "new").rename "new" "old" = renamingSample := by
  have hne : "old" ≠ "new" := by decide
  have hfresh : "new" ∉ renamingSample.identifiers := by decide
  obtain ⟨-, hgone, hback⟩ := Program.rename_reachesIdentifiers hne renamingSample
  exact ⟨rfl, hne, hfresh, hgone, hback hfresh⟩

end TsxCompiler
