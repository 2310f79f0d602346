import TsxCompiler.Emit.Emit
import TsxCompiler.Proofs.ErasedNodes
import TsxCompiler.Proofs.MarkupCalls

/-!
# Erasing and lowering

It makes no difference whether markup is turned into calls before or after everything is taken out
that nothing is printed for: the calls are made of the parts of the markup, and lists of statements
stay lists of statements. So what is taken out leaves no trace in an ES module, with lowered
markup as with markup that is kept.

* `Expr.erase_withCalls`, `Element.erase_asCall` and their companions — one for each kind of node.
* `Program.erase_withCalls` — the two orders give the same module.
* `Program.emit_erase` — the output is the same, and so is the failure.
-/

namespace TsxCompiler

variable {pragma : Pragma}

/-! ## Statements -/

theorem Stmt.isErased_withCalls (s : Stmt) : (s.withCalls pragma).isErased = s.isErased := by
  match s with
  | .block _ | .expr _ | .ret none | .ret (some _) | .throw _ | .empty => rfl
  | .branch _ _ none | .branch _ _ (some _) => rfl
  | .decl (.var _ _) | .decl (.func _ _) | .decl (.classDecl _ _) | .decl (.typeDecl _) => rfl

theorem Stmt.orBlock_withCalls (s : Stmt) :
    (s.withCalls pragma).orBlock = s.orBlock.withCalls pragma := by
  unfold Stmt.orBlock
  rw [s.isErased_withCalls]
  split
  · rfl
  · rfl

theorem Stmt.withCallsAll_filter (stmts : List Stmt) :
    (Stmt.withCallsAll pragma stmts).filter (!·.isErased) =
      Stmt.withCallsAll pragma (stmts.filter (!·.isErased)) := by
  induction stmts with
  | nil => rfl
  | cons s stmts ih =>
    have hcons : Stmt.withCallsAll pragma (s :: stmts) =
        s.withCalls pragma :: Stmt.withCallsAll pragma stmts := rfl
    cases h : s.isErased with
    | true =>
      rw [hcons, List.filter_cons_of_neg (by simp [s.isErased_withCalls, h]),
        List.filter_cons_of_neg (by simp [h]), ih]
    | false =>
      rw [hcons, List.filter_cons_of_pos (by simp [s.isErased_withCalls, h]),
        List.filter_cons_of_pos (by simp [h]), ih]
      rfl

/-- A branch, given the statement that it is. -/
theorem Stmt.erase_withCallsOrBlock {s : Stmt}
    (h : ((s.withCalls pragma).traverse .erasing).run = (s.traverse .erasing).run.withCalls pragma) :
    ((s.withCalls pragma).traverse .erasing).run.orBlock =
      (s.traverse .erasing).run.orBlock.withCalls pragma := by
  rw [h, Stmt.orBlock_withCalls]

/-- A block, given its statements one by one. -/
theorem Stmt.erase_withCallsBlock {stmts : List Stmt}
    (h : (Stmt.traverseAll .erasing (Stmt.withCallsAll pragma stmts)).run =
      Stmt.withCallsAll pragma (Stmt.traverseAll .erasing stmts).run) :
    (Stmt.traverseAll .erasing (Stmt.withCallsAll pragma stmts)).run.filter (!·.isErased) =
      Stmt.withCallsAll pragma ((Stmt.traverseAll .erasing stmts).run.filter (!·.isErased)) := by
  rw [h, Stmt.withCallsAll_filter]

/-! ## Calls -/

theorem Expr.erase_apply (callee : Expr) (args : List Expr) :
    ((callee.apply args).traverse .erasing).run =
      (callee.traverse .erasing).run.apply (args.map fun e => (e.traverse .erasing).run) := by
  have hargs : (Argument.traverseAll .erasing (args.map fun e => ⟨false, e⟩)).run =
      (args.map fun e => (e.traverse .erasing).run).map fun e => ⟨false, e⟩ := by
    induction args with
    | nil => rfl
    | cons e args ih => exact congrArg (Argument.mk false (e.traverse .erasing).run :: ·) ih
  exact congrArg (Expr.call (callee.traverse .erasing).run · false) hargs

theorem Expr.erase_ofPath (path : String) :
    ((Expr.ofPath path).traverse .erasing).run = Expr.ofPath path := by
  have hfold : ∀ (names : List String) (e : Expr), (e.traverse .erasing).run = e →
      ((names.foldl Expr.dot e).traverse .erasing).run = names.foldl Expr.dot e := by
    intro names
    induction names with
    | nil => exact fun _ he => he
    | cons name names ih =>
      intro e he
      exact ih _ (congrArg (Expr.dot · name) he)
  unfold Expr.ofPath
  split
  · rfl
  · exact hfold _ _ rfl

theorem Expr.erase_tag (pragma : Pragma) (name : Option String) :
    ((name.elim (Expr.ofPath pragma.fragment) tagExpr).traverse .erasing).run =
      name.elim (Expr.ofPath pragma.fragment) tagExpr := by
  cases name with
  | none => exact Expr.erase_ofPath _
  | some name =>
    simp only [Option.elim, tagExpr]
    split
    · rfl
    · exact Expr.erase_ofPath name

theorem PropertyKey.erase_attributeKey (name : String) :
    ((attributeKey name).traverse .erasing).run = attributeKey name := by
  unfold attributeKey
  split <;> rfl

/-! ## Trees -/

mutual

/-- Both orders keep the constructor, so they agree if they do on the parts; only an element becomes
something else. -/
theorem Expr.erase_withCalls (e : Expr) :
    ((e.withCalls pragma).traverse .erasing).run =
      (e.traverse .erasing).run.withCalls pragma := by
  match e with
  | .this | .ident _ | .lit _ => rfl
  | .array elems => exact congrArg Expr.array (Argument.erase_withCallsAll elems)
  | .object props => exact congrArg Expr.object (Property.erase_withCallsAll props)
  | .func name body => exact congrArg (Expr.func name) body.erase_withCalls
  | .arrow isAsync params body =>
    show Expr.arrow isAsync _ _ = Expr.arrow isAsync _ _
    congr 1
    · exact Pattern.erase_withCallsAll params
    · exact body.erase_withCalls
  | .classExpr name body => exact congrArg (Expr.classExpr name) body.erase_withCalls
  | .call callee args optional =>
    show Expr.call _ _ optional = Expr.call _ _ optional
    congr 1
    · exact callee.erase_withCalls
    · exact Argument.erase_withCallsAll args
  | .new callee none => exact congrArg (Expr.new · none) callee.erase_withCalls
  | .new callee (some args) =>
    show Expr.new _ (some _) = Expr.new _ (some _)
    congr 1
    · exact callee.erase_withCalls
    · exact congrArg some (Argument.erase_withCallsAll args)
  | .member object key optional =>
    show Expr.member _ _ optional = Expr.member _ _ optional
    congr 1
    · exact object.erase_withCalls
    · exact key.erase_withCalls
  | .unary op arg => exact congrArg (Expr.unary op) arg.erase_withCalls
  | .binary op left right =>
    show Expr.binary op _ _ = Expr.binary op _ _
    congr 1
    · exact left.erase_withCalls
    · exact right.erase_withCalls
  | .cond test cons alt =>
    show Expr.cond _ _ _ = Expr.cond _ _ _
    congr 1
    · exact test.erase_withCalls
    · exact cons.erase_withCalls
    · exact alt.erase_withCalls
  | .assign op target value =>
    show Expr.assign op _ _ = Expr.assign op _ _
    congr 1
    · exact target.erase_withCalls
    · exact value.erase_withCalls
  | .jsx element => exact element.erase_asCall

theorem Element.erase_asCall (e : Element) :
    ((e.asCall pragma).traverse .erasing).run = (e.traverse .erasing).run.asCall pragma := by
  match e with
  | ⟨name, attributes, children, selfClosing⟩ =>
    have hattributes := Attribute.erase_asArgument attributes
    have hchildren := Child.erase_asArguments children
    have hargs := congrArg₂ List.cons (Expr.erase_tag pragma name)
      (congrArg₂ List.cons hattributes hchildren)
    exact (Expr.erase_apply _ _).trans
      (congrArg₂ Expr.apply (Expr.erase_ofPath pragma.element) hargs)

theorem Attribute.erase_asArgument (attributes : List Attribute) :
    ((Attribute.asArgument pragma attributes).traverse .erasing).run =
      Attribute.asArgument pragma (Attribute.traverseAll .erasing attributes).run := by
  match attributes with
  | [] => rfl
  | a :: rest =>
    show Expr.object (_ :: _) = Expr.object (_ :: _)
    congr 2
    · exact a.erase_asProperty
    · exact Attribute.erase_asProperties rest

theorem Attribute.erase_asProperty (a : Attribute) :
    ((a.asProperty pragma).traverse .erasing).run =
      (a.traverse .erasing).run.asProperty pragma := by
  match a with
  | .named name none =>
    exact congrArg (Property.keyed · (.ofBool true)) (PropertyKey.erase_attributeKey name)
  | .named name (some value) =>
    show Property.keyed _ _ = Property.keyed _ _
    congr 1
    · exact PropertyKey.erase_attributeKey name
    · exact value.erase_asExpr
  | .spread value => exact congrArg Property.spread value.erase_withCalls

theorem Attribute.erase_asProperties (attributes : List Attribute) :
    (Property.traverseAll .erasing (Attribute.asProperties pragma attributes)).run =
      Attribute.asProperties pragma (Attribute.traverseAll .erasing attributes).run := by
  match attributes with
  | [] => rfl
  | a :: rest =>
    show _ :: _ = _ :: _
    congr 1
    · exact a.erase_asProperty
    · exact Attribute.erase_asProperties rest

theorem AttributeValue.erase_asExpr (v : AttributeValue) :
    ((v.asExpr pragma).traverse .erasing).run = (v.traverse .erasing).run.asExpr pragma := by
  match v with
  | .string _ => rfl
  | .expr value => exact value.erase_withCalls
  | .element element => exact element.erase_asCall

theorem Child.erase_asArgument (c : Child) :
    (c.asArgument pragma).map (fun e => (e.traverse .erasing).run) =
      (c.traverse .erasing).run.asArgument pragma := by
  match c with
  | .text raw => exact Option.map_map ..
  | .expr none => rfl
  | .expr (some value) => exact congrArg some value.erase_withCalls
  | .element element => exact congrArg some element.erase_asCall

theorem Child.erase_asArguments (children : List Child) :
    (Child.asArguments pragma children).map (fun e => (e.traverse .erasing).run) =
      Child.asArguments pragma (Child.traverseAll .erasing children).run := by
  match children with
  | [] => rfl
  | c :: rest =>
    have hfirst := congrArg Option.toList c.erase_asArgument
    rw [Option.toList_map] at hfirst
    exact List.map_append.trans (congrArg₂ (· ++ ·) hfirst (Child.erase_asArguments rest))

theorem Argument.erase_withCallsAll (args : List Argument) :
    (Argument.traverseAll .erasing (Argument.withCallsAll pragma args)).run =
      Argument.withCallsAll pragma (Argument.traverseAll .erasing args).run := by
  match args with
  | [] => rfl
  | ⟨spread, value⟩ :: rest =>
    show Argument.mk spread _ :: _ = Argument.mk spread _ :: _
    congr 1
    · exact congrArg (Argument.mk spread) value.erase_withCalls
    · exact Argument.erase_withCallsAll rest

theorem Property.erase_withCalls (p : Property) :
    ((p.withCalls pragma).traverse .erasing).run =
      (p.traverse .erasing).run.withCalls pragma := by
  match p with
  | .spread value => exact congrArg Property.spread value.erase_withCalls
  | .keyed key value =>
    show Property.keyed _ _ = Property.keyed _ _
    congr 1
    · exact key.erase_withCalls
    · exact value.erase_withCalls
  | .shorthand name => rfl

theorem Property.erase_withCallsAll (props : List Property) :
    (Property.traverseAll .erasing (Property.withCallsAll pragma props)).run =
      Property.withCallsAll pragma (Property.traverseAll .erasing props).run := by
  match props with
  | [] => rfl
  | p :: rest =>
    show _ :: _ = _ :: _
    congr 1
    · exact p.erase_withCalls
    · exact Property.erase_withCallsAll rest

theorem PropertyKey.erase_withCalls (key : PropertyKey) :
    ((key.withCalls pragma).traverse .erasing).run =
      (key.traverse .erasing).run.withCalls pragma := by
  match key with
  | .ident _ | .string _ | .number _ => rfl
  | .computed value => exact congrArg PropertyKey.computed value.erase_withCalls

theorem MemberKey.erase_withCalls (key : MemberKey) :
    ((key.withCalls pragma).traverse .erasing).run =
      (key.traverse .erasing).run.withCalls pragma := by
  match key with
  | .ident _ => rfl
  | .computed value => exact congrArg MemberKey.computed value.erase_withCalls

theorem ArrowBody.erase_withCalls (body : ArrowBody) :
    ((body.withCalls pragma).traverse .erasing).run =
      (body.traverse .erasing).run.withCalls pragma := by
  match body with
  | .block stmts => exact congrArg ArrowBody.block (Stmt.erase_withCallsBlock
      (Stmt.erase_withCallsAll stmts))
  | .expr value => exact congrArg ArrowBody.expr value.erase_withCalls

theorem Pattern.erase_withCalls (p : Pattern) :
    ((p.withCalls pragma).traverse .erasing).run =
      (p.traverse .erasing).run.withCalls pragma := by
  match p with
  | .ident _ => rfl
  | .array elems => exact congrArg Pattern.array (Pattern.erase_withCallsAll elems)
  | .object props => exact congrArg Pattern.object (PatternProperty.erase_withCallsAll props)
  | .withDefault target value =>
    show Pattern.withDefault _ _ = Pattern.withDefault _ _
    congr 1
    · exact target.erase_withCalls
    · exact value.erase_withCalls
  | .rest target => exact congrArg Pattern.rest target.erase_withCalls

theorem Pattern.erase_withCallsAll (ps : List Pattern) :
    (Pattern.traverseAll .erasing (Pattern.withCallsAll pragma ps)).run =
      Pattern.withCallsAll pragma (Pattern.traverseAll .erasing ps).run := by
  match ps with
  | [] => rfl
  | p :: rest =>
    show _ :: _ = _ :: _
    congr 1
    · exact p.erase_withCalls
    · exact Pattern.erase_withCallsAll rest

theorem PatternProperty.erase_withCalls (p : PatternProperty) :
    ((p.withCalls pragma).traverse .erasing).run =
      (p.traverse .erasing).run.withCalls pragma := by
  match p with
  | .keyed key target =>
    show PatternProperty.keyed _ _ = PatternProperty.keyed _ _
    congr 1
    · exact key.erase_withCalls
    · exact target.erase_withCalls
  | .shorthand name none => rfl
  | .shorthand name (some value) =>
    exact congrArg (fun value => PatternProperty.shorthand name (some value)) value.erase_withCalls
  | .rest target => exact congrArg PatternProperty.rest target.erase_withCalls

theorem PatternProperty.erase_withCallsAll (props : List PatternProperty) :
    (PatternProperty.traverseAll .erasing (PatternProperty.withCallsAll pragma props)).run =
      PatternProperty.withCallsAll pragma (PatternProperty.traverseAll .erasing props).run := by
  match props with
  | [] => rfl
  | p :: rest =>
    show _ :: _ = _ :: _
    congr 1
    · exact p.erase_withCalls
    · exact PatternProperty.erase_withCallsAll rest

theorem Func.erase_withCalls (f : Func) :
    ((f.withCalls pragma).traverse .erasing).run =
      (f.traverse .erasing).run.withCalls pragma := by
  match f with
  | ⟨isAsync, params, body⟩ =>
    show Func.mk isAsync _ _ = Func.mk isAsync _ _
    congr 1
    · exact Pattern.erase_withCallsAll params
    · exact Stmt.erase_withCallsBlock (Stmt.erase_withCallsAll body)

theorem ClassBody.erase_withCalls (c : ClassBody) :
    ((c.withCalls pragma).traverse .erasing).run =
      (c.traverse .erasing).run.withCalls pragma := by
  match c with
  | ⟨none, members⟩ => exact congrArg (ClassBody.mk none) (ClassMember.erase_withCallsAll members)
  | ⟨some superClass, members⟩ =>
    show ClassBody.mk (some _) _ = ClassBody.mk (some _) _
    congr 1
    · exact congrArg some superClass.erase_withCalls
    · exact ClassMember.erase_withCallsAll members

theorem ClassMember.erase_withCalls (x : ClassMember) :
    ((x.withCalls pragma).traverse .erasing).run =
      (x.traverse .erasing).run.withCalls pragma := by
  match x with
  | .method key body isStatic =>
    show ClassMember.method _ _ isStatic = ClassMember.method _ _ isStatic
    congr 1
    · exact key.erase_withCalls
    · exact body.erase_withCalls
  | .field key none isStatic =>
    exact congrArg (ClassMember.field · none isStatic) key.erase_withCalls
  | .field key (some value) isStatic =>
    show ClassMember.field _ (some _) isStatic = ClassMember.field _ (some _) isStatic
    congr 1
    · exact key.erase_withCalls
    · exact congrArg some value.erase_withCalls

theorem ClassMember.erase_withCallsAll (members : List ClassMember) :
    (ClassMember.traverseAll .erasing (ClassMember.withCallsAll pragma members)).run =
      ClassMember.withCallsAll pragma (ClassMember.traverseAll .erasing members).run := by
  match members with
  | [] => rfl
  | x :: rest =>
    show _ :: _ = _ :: _
    congr 1
    · exact x.erase_withCalls
    · exact ClassMember.erase_withCallsAll rest

theorem Stmt.erase_withCalls (s : Stmt) :
    ((s.withCalls pragma).traverse .erasing).run =
      (s.traverse .erasing).run.withCalls pragma := by
  match s with
  | .block stmts =>
    exact congrArg Stmt.block (Stmt.erase_withCallsBlock (Stmt.erase_withCallsAll stmts))
  | .decl decl => exact congrArg Stmt.decl decl.erase_withCalls
  | .expr value => exact congrArg Stmt.expr value.erase_withCalls
  | .ret none => rfl
  | .ret (some value) => exact congrArg (fun value => Stmt.ret (some value)) value.erase_withCalls
  | .branch test cons none =>
    show Stmt.branch _ _ none = Stmt.branch _ _ none
    congr 1
    · exact test.erase_withCalls
    · exact Stmt.erase_withCallsOrBlock cons.erase_withCalls
  | .branch test cons (some alt) =>
    show Stmt.branch _ _ (some _) = Stmt.branch _ _ (some _)
    congr 1
    · exact test.erase_withCalls
    · exact Stmt.erase_withCallsOrBlock cons.erase_withCalls
    · exact congrArg some (Stmt.erase_withCallsOrBlock alt.erase_withCalls)
  | .throw value => exact congrArg Stmt.throw value.erase_withCalls
  | .empty => rfl

theorem Stmt.erase_withCallsAll (stmts : List Stmt) :
    (Stmt.traverseAll .erasing (Stmt.withCallsAll pragma stmts)).run =
      Stmt.withCallsAll pragma (Stmt.traverseAll .erasing stmts).run := by
  match stmts with
  | [] => rfl
  | s :: rest =>
    show _ :: _ = _ :: _
    congr 1
    · exact s.erase_withCalls
    · exact Stmt.erase_withCallsAll rest

theorem Decl.erase_withCalls (d : Decl) :
    ((d.withCalls pragma).traverse .erasing).run =
      (d.traverse .erasing).run.withCalls pragma := by
  match d with
  | .var kind declarators =>
    exact congrArg (Decl.var kind) (Declarator.erase_withCallsAll declarators)
  | .func name body => exact congrArg (Decl.func name) body.erase_withCalls
  | .classDecl name body => exact congrArg (Decl.classDecl name) body.erase_withCalls
  | .typeDecl name => rfl

theorem Declarator.erase_withCalls (d : Declarator) :
    ((d.withCalls pragma).traverse .erasing).run =
      (d.traverse .erasing).run.withCalls pragma := by
  match d with
  | ⟨target, none⟩ => exact congrArg (Declarator.mk · none) target.erase_withCalls
  | ⟨target, some value⟩ =>
    show Declarator.mk _ (some _) = Declarator.mk _ (some _)
    congr 1
    · exact target.erase_withCalls
    · exact congrArg some value.erase_withCalls

theorem Declarator.erase_withCallsAll (declarators : List Declarator) :
    (Declarator.traverseAll .erasing (Declarator.withCallsAll pragma declarators)).run =
      Declarator.withCallsAll pragma (Declarator.traverseAll .erasing declarators).run := by
  match declarators with
  | [] => rfl
  | d :: rest =>
    show _ :: _ = _ :: _
    congr 1
    · exact d.erase_withCalls
    · exact Declarator.erase_withCallsAll rest

end

/-! ## Modules -/

theorem Item.erase_withCalls (x : Item) :
    ((x.withCalls pragma).traverse .erasing).run =
      (x.traverse .erasing).run.withCalls pragma := by
  match x with
  | .imports decl => rfl
  | .stmt s => exact congrArg Item.stmt s.erase_withCalls
  | .exports (.decl d) => exact congrArg (fun d => Item.exports (.decl d)) d.erase_withCalls
  | .exports (.default (.func name body)) =>
    exact congrArg (fun body => Item.exports (.default (.func name body))) body.erase_withCalls
  | .exports (.default (.classDef name body)) =>
    exact congrArg (fun body => Item.exports (.default (.classDef name body))) body.erase_withCalls
  | .exports (.default (.expr value)) =>
    exact congrArg (fun value => Item.exports (.default (.expr value))) value.erase_withCalls
  | .exports (.list _ _) | .exports (.all _) => rfl

theorem Item.isErased_withCalls (x : Item) : (x.withCalls pragma).isErased = x.isErased := by
  match x with
  | .imports _ => rfl
  | .stmt s => exact s.isErased_withCalls
  | .exports (.decl (.var _ _)) | .exports (.decl (.func _ _)) | .exports (.decl (.classDecl _ _))
  | .exports (.decl (.typeDecl _)) => rfl
  | .exports (.default _) | .exports (.list _ _) | .exports (.all _) => rfl

/-- Erasing and lowering may change places. -/
theorem Program.erase_withCalls (p : Program) :
    (p.withCalls pragma).erase = p.erase.withCalls pragma := by
  have hbody : (p.withCalls pragma).erase.body = (p.erase.withCalls pragma).body := by
    rw [Program.erase_body, Program.withCalls, Program.withCalls, p.erase_body, List.map_map,
      List.filter_map, List.filter_map, List.map_map]
    refine congrArg₂ List.map (funext fun x => x.erase_withCalls) (List.filter_congr fun x _ => ?_)
    simp [Item.isErased_erase, Item.isErased_withCalls]
  exact congrArg Program.mk hbody

theorem Program.lowerMarkup_erase (p : Program) :
    p.erase.lowerMarkup pragma = (p.lowerMarkup pragma).map Program.erase := by
  simp only [Program.lowerMarkup, Program.mapExprs_lowerMarkup, ← p.erase_withCalls]
  split
  · rfl
  · split
    · rfl
    · rfl

/-- What nothing is printed for leaves no trace in an ES module: without it, at any depth, the output
is the same text or the same failure, whether markup is lowered or kept. -/
theorem Program.emit_erase (p : Program) (markup : MarkupMode) (externalHelpers : Bool)
    (helpersModule : String) :
    p.erase.emit ⟨.esModule, markup, externalHelpers, helpersModule⟩ =
        p.emit ⟨.esModule, markup, externalHelpers, helpersModule⟩ ∧
      ∀ n ∈ p.erase.nodes, n.isErased = false := by
  refine ⟨?_, p.erase_cleared⟩
  cases markup with
  | preserve => exact congrArg Except.ok p.print_erase
  | classic pragma =>
    show (p.erase.lowerMarkup pragma >>= fun p => pure p.print) =
      (p.lowerMarkup pragma >>= fun p => pure p.print)
    rw [p.lowerMarkup_erase]
    cases p.lowerMarkup pragma with
    | error cause => rfl
    | ok lowered => exact congrArg Except.ok lowered.print_erase

/-- `if (<b>{() => {;}}</b>) ; else type T = …` behind an import of types, with lowered markup. -/
theorem Program.emit_erase_branches :
    let element (body : List Stmt) : Expr :=
      .jsx ⟨some "b", [], [.expr (some (.arrow false [] (.block body)))], false⟩
    let p : Program := ⟨[.imports ⟨[], .ofValue "types", true⟩,
      .stmt (.branch (element [.empty]) .empty (some (.decl (.typeDecl "T"))))]⟩
    let n : Node := .stmt (.branch (element []) (.block []) (some (.block [])))
    p.erase.emit ⟨.esModule, .classic .standard, true, ""⟩ =
        p.emit ⟨.esModule, .classic .standard, true, ""⟩ ∧
      n ∈ p.erase.nodes ∧ n.isErased = false := by
  intro element p n
  obtain ⟨hemit, hnodes⟩ := p.emit_erase (.classic .standard) true ""
  have hn : n ∈ p.erase.nodes := .tail _ (.head _)
  exact ⟨hemit, hn, hnodes n hn⟩

end TsxCompiler
