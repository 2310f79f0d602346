import Mathlib.Logic.Basic
import TsxCompiler.Print.Module
import TsxCompiler.Tree.Traverse

/-!
# Traversals that keep the text

A traversal may change a tree and leave its text alone. Whether it does is decided hook by hook
(`Traversal.KeepsText`): what a hook makes of an expression or a statement has to be printed like
it, and printing looks at more than the text of a part. It asks how tightly an expression binds,
whether it is a call, starts with a sign or like a declaration, and whether a statement is a block,
an `if` or left out (`Expr.Alike`, `Stmt.Alike`). A list of statements need only be the same block.

* `Expr.traverse_alike`, `Stmt.traverse_alike` and their companions — such a traversal keeps the
  text of every tree.
* `Item.print_traverse` — it keeps the lines of every item of a module.
-/

namespace TsxCompiler

open Print

/-! ## Printed alike -/

/-- Two expressions that are printed alike wherever they stand. -/
structure Expr.Alike (a b : Expr) : Prop where
  text : ∀ level, a.print level = b.print level
  power : a.power = b.power
  isCall : a.isCall = b.isCall
  isSigned : a.isSigned = b.isSigned
  startsAmbiguously : a.startsAmbiguously = b.startsAmbiguously

/-- Two statements that are printed alike wherever they stand. -/
structure Stmt.Alike (s t : Stmt) : Prop where
  text : ∀ level, s.print level = t.print level
  isErased : s.isErased = t.isErased
  isBlock : s.isBlock = t.isBlock
  isBranch : s.isBranch = t.isBranch

namespace Expr.Alike

variable {a b c : Expr}

theorem refl (e : Expr) : e.Alike e := ⟨fun _ => rfl, rfl, rfl, rfl, rfl⟩

theorem trans (hab : a.Alike b) (hbc : b.Alike c) : a.Alike c where
  text level := (hab.text level).trans (hbc.text level)
  power := hab.power.trans hbc.power
  isCall := hab.isCall.trans hbc.isCall
  isSigned := hab.isSigned.trans hbc.isSigned
  startsAmbiguously := hab.startsAmbiguously.trans hbc.startsAmbiguously

theorem guarded (h : a.Alike b) (power level : Nat) :
    a.guarded power (a.print level) = b.guarded power (b.print level) := by
  simp only [Expr.guarded, h.power, h.text]

theorem unambiguous (h : a.Alike b) (level : Nat) :
    a.unambiguous (a.print level) = b.unambiguous (b.print level) := by
  simp only [Expr.unambiguous, h.startsAmbiguously, h.text]

/-- The callee of `new`. -/
theorem newCallee (h : a.Alike b) (level : Nat) :
    (if a.isCall then parens (a.print level) else a.guarded Power.access (a.print level)) =
      if b.isCall then parens (b.print level) else b.guarded Power.access (b.print level) := by
  rw [h.isCall, h.guarded, h.text]

/-- The expression behind `=>`. -/
theorem arrowBody (h : a.Alike b) (level : Nat) :
    (ArrowBody.expr a).print level = (ArrowBody.expr b).print level := by
  rw [ArrowBody.print, ArrowBody.print, h.startsAmbiguously, h.guarded, h.text]

end Expr.Alike

namespace Stmt.Alike

variable {s t u : Stmt}

theorem refl (s : Stmt) : s.Alike s := ⟨fun _ => rfl, rfl, rfl, rfl⟩

theorem trans (hst : s.Alike t) (htu : t.Alike u) : s.Alike u where
  text level := (hst.text level).trans (htu.text level)
  isErased := hst.isErased.trans htu.isErased
  isBlock := hst.isBlock.trans htu.isBlock
  isBranch := hst.isBranch.trans htu.isBranch

theorem asLine (h : s.Alike t) (level : Nat) :
    s.asLine s.print level = t.asLine t.print level := by
  simp only [Stmt.asLine, h.isErased, h.text]

theorem asBlock (h : s.Alike t) (level : Nat) :
    s.asBlock s.print level = t.asBlock t.print level := by
  simp only [Stmt.asBlock, h.isErased, h.isBlock, h.text]

theorem asElse (h : s.Alike t) (level : Nat) :
    s.asElse s.print level = t.asElse t.print level := by
  simp only [Stmt.asElse, h.isBranch, h.asBlock, h.text]

end Stmt.Alike

/-- A block is printed from its lines, if there are any. -/
theorem Stmt.printBlock_eq (stmts : List Stmt) (level : Nat) :
    Stmt.printBlock stmts level =
      if stmts.all Stmt.isErased then "\x7b\x7d"
      else blockAround (Stmt.printAll stmts (level + 1)) level := by
  cases stmts <;> rfl

/-! ## Trees -/

/-- Every hook makes something of a node that is printed like it. -/
structure Traversal.KeepsText (r : Traversal Id) : Prop where
  expr : ∀ e walk, Expr.Alike (r.expr e walk) walk
  stmt : ∀ s walk, Stmt.Alike (r.stmt s walk) walk
  block : ∀ stmts (walk : List Stmt) level,
    Stmt.printBlock (r.block stmts walk) level = Stmt.printBlock walk level
  item : ∀ x walk, r.item x walk = walk
  decl : ∀ d walk, r.decl d walk = walk
  func : ∀ f walk, r.func f walk = walk
  classBody : ∀ c walk, r.classBody c walk = walk
  pattern : ∀ p walk, r.pattern p walk = walk
  element : ∀ e walk, r.element e walk = walk

variable {r : Traversal Id}

/-- A block whose lines are printed alike. -/
theorem Stmt.printBlock_traverse (h : r.KeepsText) {stmts : List Stmt}
    (herased : (Id.run (Stmt.traverseAll r stmts)).all Stmt.isErased = stmts.all Stmt.isErased)
    (hlines : ∀ level, Stmt.printAll (Id.run (Stmt.traverseAll r stmts)) level =
      Stmt.printAll stmts level) (level : Nat) :
    Stmt.printBlock (Id.run (r.block stmts (Stmt.traverseAll r stmts))) level =
      Stmt.printBlock stmts level := by
  refine (h.block stmts _ level).trans ?_
  rw [Stmt.printBlock_eq, Stmt.printBlock_eq, ← hlines]
  exact congrArg (fun b : Bool => if b then _ else _) herased

mutual

/-- A walk that keeps texts gives an expression that reads alike: the same text, and the same answers
to all that a printer asks of a part (its power, its sign, how it starts). -/
theorem Expr.traverse_alike (h : r.KeepsText) (e : Expr) : (Id.run (e.traverse r)).Alike e := by
  match e with
  | .this | .ident _ | .lit _ => exact h.expr _ _
  | .array elems =>
    exact (h.expr _ _).trans ⟨fun level => congrArg (fun texts => "[" ++ commaList texts ++ "]")
      (Argument.printAll_traverse h elems level), rfl, rfl, rfl, rfl⟩
  | .object props =>
    exact (h.expr _ _).trans
      ⟨fun level => congrArg bracesAround (Property.printAll_traverse h props level),
        rfl, rfl, rfl, rfl⟩
  | .func name body =>
    exact (h.expr _ _).trans ⟨body.print_traverse h _, rfl, rfl, rfl, rfl⟩
  | .arrow isAsync params body =>
    exact (h.expr _ _).trans ⟨fun level => congrArg₂ (fun params body =>
      textIf isAsync "async " ++ parens (commaList params) ++ " => " ++ body)
      (Pattern.printAll_traverse h params level) (body.print_traverse h level),
      rfl, rfl, rfl, rfl⟩
  | .classExpr name body =>
    exact (h.expr _ _).trans ⟨fun level => congrArg ("class" ++ nameAfter name ++ ·)
      (body.print_traverse h level), rfl, rfl, rfl, rfl⟩
  | .call callee args optional =>
    have hcallee := callee.traverse_alike h
    exact (h.expr _ _).trans ⟨fun level => congrArg₂ (fun callee args =>
      callee ++ textIf optional "?." ++ parens (commaList args))
      (hcallee.guarded _ level) (Argument.printAll_traverse h args level),
      rfl, rfl, rfl, hcallee.startsAmbiguously⟩
  | .new callee none =>
    exact (h.expr _ _).trans ⟨fun level => congrArg (fun callee =>
      "new " ++ callee ++ parens (commaList [])) ((callee.traverse_alike h).newCallee level),
      rfl, rfl, rfl, rfl⟩
  | .new callee (some args) =>
    exact (h.expr _ _).trans ⟨fun level => congrArg₂ (fun callee args =>
      "new " ++ callee ++ parens (commaList args)) ((callee.traverse_alike h).newCallee level)
      (Argument.printAll_traverse h args level), rfl, rfl, rfl, rfl⟩
  | .member object key optional =>
    have hobject := object.traverse_alike h
    exact (h.expr _ _).trans ⟨fun level => congrArg₂ (· ++ ·) (hobject.guarded _ level)
      (key.print_traverse h optional level), rfl, rfl, rfl, hobject.startsAmbiguously⟩
  | .unary op arg =>
    have harg := arg.traverse_alike h
    exact (h.expr _ _).trans ⟨fun level => congrArg₂ (fun isSigned text =>
      op.symbol ++ textIf (op.isWord || (op.isSign && isSigned)) " " ++ text)
      harg.isSigned (harg.guarded _ level), rfl, rfl, rfl, rfl⟩
  | .binary op left right =>
    have hleft := left.traverse_alike h
    exact (h.expr _ _).trans ⟨fun level => congrArg₂ (fun left right =>
      left ++ " " ++ op.symbol ++ " " ++ right) (hleft.guarded _ level)
      ((right.traverse_alike h).guarded _ level), rfl, rfl, rfl, hleft.startsAmbiguously⟩
  | .cond test cons alt =>
    have htest := test.traverse_alike h
    have hfront level := congrArg₂ (fun test cons => test ++ " ? " ++ cons)
      (htest.guarded (Power.conditional + 1) level)
      ((cons.traverse_alike h).guarded Power.assignment level)
    exact (h.expr _ _).trans ⟨fun level => congrArg₂ (· ++ " : " ++ ·) (hfront level)
      ((alt.traverse_alike h).guarded _ level), rfl, rfl, rfl, htest.startsAmbiguously⟩
  | .assign op target value =>
    have htarget := target.traverse_alike h
    exact (h.expr _ _).trans ⟨fun level => congrArg₂ (fun target value =>
      target ++ " " ++ op.symbol ++ " " ++ value) (htarget.guarded _ level)
      ((value.traverse_alike h).guarded _ level), rfl, rfl, rfl, htarget.startsAmbiguously⟩
  | .jsx element =>
    exact (h.expr _ _).trans ⟨element.print_traverse h, rfl, rfl, rfl, rfl⟩

theorem Argument.printAll_traverse (h : r.KeepsText) (args : List Argument) (level : Nat) :
    Argument.printAll (Id.run (Argument.traverseAll r args)) level =
      Argument.printAll args level := by
  match args with
  | [] => rfl
  | ⟨spread, value⟩ :: rest =>
    exact congrArg₂ (fun value rest => (textIf spread "..." ++ value) :: rest)
      ((value.traverse_alike h).guarded _ level) (Argument.printAll_traverse h rest level)

theorem Property.print_traverse (h : r.KeepsText) (p : Property) (level : Nat) :
    (Id.run (p.traverse r)).print level = p.print level := by
  match p with
  | .spread value => exact congrArg ("..." ++ ·) ((value.traverse_alike h).guarded _ level)
  | .keyed key value =>
    exact congrArg₂ (fun key value => key ++ ": " ++ value) (key.print_traverse h level)
      ((value.traverse_alike h).guarded _ level)
  | .shorthand name => rfl

theorem Property.printAll_traverse (h : r.KeepsText) (props : List Property) (level : Nat) :
    Property.printAll (Id.run (Property.traverseAll r props)) level =
      Property.printAll props level := by
  match props with
  | [] => rfl
  | p :: rest =>
    exact congrArg₂ List.cons (p.print_traverse h level) (Property.printAll_traverse h rest level)

theorem PropertyKey.print_traverse (h : r.KeepsText) (key : PropertyKey) (level : Nat) :
    (Id.run (key.traverse r)).print level = key.print level := by
  match key with
  | .ident _ | .string _ | .number _ => rfl
  | .computed value =>
    exact congrArg (fun value => "[" ++ value ++ "]") ((value.traverse_alike h).guarded _ level)

theorem MemberKey.print_traverse (h : r.KeepsText) (key : MemberKey) (optional : Bool)
    (level : Nat) : (Id.run (key.traverse r)).print optional level = key.print optional level := by
  match key with
  | .ident _ => rfl
  | .computed value =>
    exact congrArg (fun value => textIf optional "?." ++ "[" ++ value ++ "]")
      ((value.traverse_alike h).text level)

theorem ArrowBody.print_traverse (h : r.KeepsText) (body : ArrowBody) (level : Nat) :
    (Id.run (body.traverse r)).print level = body.print level := by
  match body with
  | .block stmts =>
    exact Stmt.printBlock_traverse h (Stmt.all_isErased_traverse h stmts)
      (Stmt.printAll_traverse h stmts) level
  | .expr value => exact (value.traverse_alike h).arrowBody level

theorem Pattern.print_traverse (h : r.KeepsText) (p : Pattern) (level : Nat) :
    (Id.run (p.traverse r)).print level = p.print level := by
  match p with
  | .ident _ => exact congrArg (Pattern.print · level) (h.pattern _ _)
  | .array elems =>
    exact (congrArg (Pattern.print · level) (h.pattern _ _)).trans
      (congrArg (fun texts => "[" ++ commaList texts ++ "]")
        (Pattern.printAll_traverse h elems level))
  | .object props =>
    exact (congrArg (Pattern.print · level) (h.pattern _ _)).trans
      (congrArg bracesAround (PatternProperty.printAll_traverse h props level))
  | .withDefault target value =>
    exact (congrArg (Pattern.print · level) (h.pattern _ _)).trans
      (congrArg₂ (fun target value => target ++ " = " ++ value) (target.print_traverse h level)
        ((value.traverse_alike h).guarded _ level))
  | .rest target =>
    exact (congrArg (Pattern.print · level) (h.pattern _ _)).trans
      (congrArg ("..." ++ ·) (target.print_traverse h level))

theorem Pattern.printAll_traverse (h : r.KeepsText) (ps : List Pattern) (level : Nat) :
    Pattern.printAll (Id.run (Pattern.traverseAll r ps)) level = Pattern.printAll ps level := by
  match ps with
  | [] => rfl
  | p :: rest =>
    exact congrArg₂ List.cons (p.print_traverse h level) (Pattern.printAll_traverse h rest level)

theorem PatternProperty.print_traverse (h : r.KeepsText) (p : PatternProperty) (level : Nat) :
    (Id.run (p.traverse r)).print level = p.print level := by
  match p with
  | .keyed key target =>
    exact congrArg₂ (fun key target => key ++ ": " ++ target) (key.print_traverse h level)
      (target.print_traverse h level)
  | .shorthand name none => rfl
  | .shorthand name (some value) =>
    exact congrArg (name ++ " = " ++ ·) ((value.traverse_alike h).guarded _ level)
  | .rest target => exact congrArg ("..." ++ ·) (target.print_traverse h level)

theorem PatternProperty.printAll_traverse (h : r.KeepsText) (props : List PatternProperty)
    (level : Nat) :
    PatternProperty.printAll (Id.run (PatternProperty.traverseAll r props)) level =
      PatternProperty.printAll props level := by
  match props with
  | [] => rfl
  | p :: rest =>
    exact congrArg₂ List.cons (p.print_traverse h level)
      (PatternProperty.printAll_traverse h rest level)

theorem Func.print_traverse (h : r.KeepsText) (f : Func) (head : String) (level : Nat) :
    (Id.run (f.traverse r)).print head level = f.print head level := by
  match f with
  | ⟨isAsync, params, body⟩ =>
    exact (congrArg (Func.print · head level) (h.func _ _)).trans
      (congrArg₂ (fun params body =>
        textIf isAsync "async " ++ head ++ parens (commaList params) ++ " " ++ body)
        (Pattern.printAll_traverse h params level)
        (Stmt.printBlock_traverse h (Stmt.all_isErased_traverse h body)
          (Stmt.printAll_traverse h body) level))

theorem ClassBody.print_traverse (h : r.KeepsText) (c : ClassBody) (level : Nat) :
    (Id.run (c.traverse r)).print level = c.print level := by
  match c with
  | ⟨none, []⟩ => exact congrArg (ClassBody.print · level) (h.classBody _ _)
  | ⟨none, x :: rest⟩ =>
    exact (congrArg (ClassBody.print · level) (h.classBody _ _)).trans
      (congrArg (fun lines => "" ++ (" " ++ blockAround lines level))
        (ClassMember.printAll_traverse h (x :: rest) (level + 1)))
  | ⟨some superClass, []⟩ =>
    exact (congrArg (ClassBody.print · level) (h.classBody _ _)).trans
      (congrArg (fun superClass => " extends " ++ superClass ++ " \x7b\x7d")
        ((superClass.traverse_alike h).guarded _ level))
  | ⟨some superClass, x :: rest⟩ =>
    exact (congrArg (ClassBody.print · level) (h.classBody _ _)).trans
      (congrArg₂ (fun superClass lines =>
        " extends " ++ superClass ++ (" " ++ blockAround lines level))
        ((superClass.traverse_alike h).guarded _ level)
        (ClassMember.printAll_traverse h (x :: rest) (level + 1)))

theorem ClassMember.print_traverse (h : r.KeepsText) (x : ClassMember) (level : Nat) :
    (Id.run (x.traverse r)).print level = x.print level := by
  match x with
  | .method key body isStatic =>
    exact congrArg (textIf isStatic "static " ++ ·)
      ((body.print_traverse h _ level).trans
        (congrArg (body.print · level) (key.print_traverse h level)))
  | .field key none isStatic =>
    exact congrArg (textIf isStatic "static " ++ · ++ ";") (key.print_traverse h level)
  | .field key (some value) isStatic =>
    exact congrArg₂ (fun key value => textIf isStatic "static " ++ key ++ " = " ++ value ++ ";")
      (key.print_traverse h level) ((value.traverse_alike h).guarded _ level)

theorem ClassMember.printAll_traverse (h : r.KeepsText) (members : List ClassMember)
    (level : Nat) :
    ClassMember.printAll (Id.run (ClassMember.traverseAll r members)) level =
      ClassMember.printAll members level := by
  match members with
  | [] => rfl
  | x :: rest =>
    exact congrArg₂ (fun text rest => line text level ++ rest) (x.print_traverse h level)
      (ClassMember.printAll_traverse h rest level)

theorem Stmt.traverse_alike (h : r.KeepsText) (s : Stmt) : (Id.run (s.traverse r)).Alike s := by
  match s with
  | .block stmts =>
    exact (h.stmt _ _).trans
      ⟨Stmt.printBlock_traverse h (Stmt.all_isErased_traverse h stmts)
        (Stmt.printAll_traverse h stmts), rfl, rfl, rfl⟩
  | .decl decl =>
    exact (h.stmt _ _).trans ⟨decl.print_traverse h, decl.isErased_traverse h, rfl, rfl⟩
  | .expr value =>
    exact (h.stmt _ _).trans ⟨fun level => congrArg (· ++ ";")
      ((value.traverse_alike h).unambiguous level), rfl, rfl, rfl⟩
  | .ret none | .empty => exact h.stmt _ _
  | .ret (some value) =>
    exact (h.stmt _ _).trans ⟨fun level => congrArg ("return " ++ · ++ ";")
      ((value.traverse_alike h).text level), rfl, rfl, rfl⟩
  | .branch test cons none =>
    exact (h.stmt _ _).trans ⟨fun level => congrArg₂ (fun test cons => "if (" ++ test ++ ") " ++ cons)
      ((test.traverse_alike h).text level) ((cons.traverse_alike h).asBlock level), rfl, rfl, rfl⟩
  | .branch test cons (some alt) =>
    have hfront level := congrArg₂ (fun test cons => "if (" ++ test ++ ") " ++ cons)
      ((test.traverse_alike h).text level) ((cons.traverse_alike h).asBlock level)
    exact (h.stmt _ _).trans ⟨fun level => congrArg₂ (· ++ " else " ++ ·) (hfront level)
      ((alt.traverse_alike h).asElse level), rfl, rfl, rfl⟩
  | .throw value =>
    exact (h.stmt _ _).trans ⟨fun level => congrArg ("throw " ++ · ++ ";")
      ((value.traverse_alike h).text level), rfl, rfl, rfl⟩

theorem Stmt.printAll_traverse (h : r.KeepsText) (stmts : List Stmt) (level : Nat) :
    Stmt.printAll (Id.run (Stmt.traverseAll r stmts)) level = Stmt.printAll stmts level := by
  match stmts with
  | [] => rfl
  | s :: rest =>
    exact congrArg₂ (· ++ ·) ((s.traverse_alike h).asLine level)
      (Stmt.printAll_traverse h rest level)

theorem Stmt.all_isErased_traverse (h : r.KeepsText) (stmts : List Stmt) :
    (Id.run (Stmt.traverseAll r stmts)).all Stmt.isErased = stmts.all Stmt.isErased := by
  match stmts with
  | [] => rfl
  | s :: rest =>
    exact congrArg₂ (· && ·) (s.traverse_alike h).isErased (Stmt.all_isErased_traverse h rest)

theorem Decl.print_traverse (h : r.KeepsText) (d : Decl) (level : Nat) :
    (Id.run (d.traverse r)).print level = d.print level := by
  match d with
  | .var kind declarators =>
    exact (congrArg (Decl.print · level) (h.decl _ _)).trans
      (congrArg (fun texts => kind.keyword ++ " " ++ commaList texts ++ ";")
        (Declarator.printAll_traverse h declarators level))
  | .func name body =>
    exact (congrArg (Decl.print · level) (h.decl _ _)).trans (body.print_traverse h _ level)
  | .classDecl name body =>
    exact (congrArg (Decl.print · level) (h.decl _ _)).trans
      (congrArg ("class " ++ name ++ ·) (body.print_traverse h level))
  | .typeDecl name => exact congrArg (Decl.print · level) (h.decl _ _)

theorem Decl.isErased_traverse (h : r.KeepsText) (d : Decl) :
    (Stmt.decl (Id.run (d.traverse r))).isErased = (Stmt.decl d).isErased := by
  match d with
  | .var _ _ | .func _ _ | .classDecl _ _ | .typeDecl _ =>
    exact (congrArg (fun d => (Stmt.decl d).isErased) (h.decl _ _)).trans rfl

theorem Declarator.print_traverse (h : r.KeepsText) (d : Declarator) (level : Nat) :
    (Id.run (d.traverse r)).print level = d.print level := by
  match d with
  | ⟨target, none⟩ => exact target.print_traverse h level
  | ⟨target, some value⟩ =>
    exact congrArg₂ (fun target value => target ++ " = " ++ value) (target.print_traverse h level)
      ((value.traverse_alike h).guarded _ level)

theorem Declarator.printAll_traverse (h : r.KeepsText) (declarators : List Declarator)
    (level : Nat) :
    Declarator.printAll (Id.run (Declarator.traverseAll r declarators)) level =
      Declarator.printAll declarators level := by
  match declarators with
  | [] => rfl
  | d :: rest =>
    exact congrArg₂ List.cons (d.print_traverse h level) (Declarator.printAll_traverse h rest level)

theorem Element.print_traverse (h : r.KeepsText) (e : Element) (level : Nat) :
    (Id.run (e.traverse r)).print level = e.print level := by
  match e with
  | ⟨name, attributes, children, selfClosing⟩ =>
    exact (congrArg (Element.print · level) (h.element _ _)).trans
      (congrArg₂ (fun attributes children => "<" ++ name.getD "" ++ attributes ++
        (if selfClosing then " />" else ">" ++ children ++ "</" ++ name.getD "" ++ ">"))
        (Attribute.printAll_traverse h attributes level) (Child.printAll_traverse h children level))

theorem Attribute.print_traverse (h : r.KeepsText) (a : Attribute) (level : Nat) :
    (Id.run (a.traverse r)).print level = a.print level := by
  match a with
  | .named name none => rfl
  | .named name (some value) => exact congrArg (name ++ "=" ++ ·) (value.print_traverse h level)
  | .spread value =>
    exact congrArg ("\x7b..." ++ · ++ "\x7d") ((value.traverse_alike h).guarded _ level)

theorem Attribute.printAll_traverse (h : r.KeepsText) (attributes : List Attribute)
    (level : Nat) :
    Attribute.printAll (Id.run (Attribute.traverseAll r attributes)) level =
      Attribute.printAll attributes level := by
  match attributes with
  | [] => rfl
  | a :: rest =>
    exact congrArg₂ (fun text rest => " " ++ text ++ rest) (a.print_traverse h level)
      (Attribute.printAll_traverse h rest level)

theorem AttributeValue.print_traverse (h : r.KeepsText) (v : AttributeValue) (level : Nat) :
    (Id.run (v.traverse r)).print level = v.print level := by
  match v with
  | .string _ => rfl
  | .expr value =>
    exact congrArg ("\x7b" ++ · ++ "\x7d") ((value.traverse_alike h).guarded _ level)
  | .element element => exact element.print_traverse h level

theorem Child.print_traverse (h : r.KeepsText) (c : Child) (level : Nat) :
    (Id.run (c.traverse r)).print level = c.print level := by
  match c with
  | .text _ | .expr none => rfl
  | .expr (some value) =>
    exact congrArg ("\x7b" ++ · ++ "\x7d") ((value.traverse_alike h).guarded _ level)
  | .element element => exact element.print_traverse h level

theorem Child.printAll_traverse (h : r.KeepsText) (children : List Child) (level : Nat) :
    Child.printAll (Id.run (Child.traverseAll r children)) level =
      Child.printAll children level := by
  match children with
  | [] => rfl
  | c :: rest =>
    exact congrArg₂ (· ++ ·) (c.print_traverse h level) (Child.printAll_traverse h rest level)

end

/-! ## Items -/

theorem DefaultExport.print_traverse (h : r.KeepsText) (value : DefaultExport) :
    (Id.run (value.traverse r)).print = value.print := by
  match value with
  | .func name body => exact body.print_traverse h _ 0
  | .classDef name body =>
    exact congrArg ("class" ++ nameAfter name ++ ·) (body.print_traverse h 0)
  | .expr value => exact congrArg (· ++ ";") ((value.traverse_alike h).unambiguous 0)

theorem Export.print_decl (d : Decl) :
    (Export.decl d).print =
      if (Stmt.decl d).isErased then "" else line ("export " ++ d.print 0) 0 := by
  cases d <;> rfl

theorem Export.print_traverse (h : r.KeepsText) (decl : Export) :
    (Id.run (decl.traverse r)).print = decl.print := by
  match decl with
  | .decl d =>
    show (Export.decl (Id.run (d.traverse r))).print = _
    rw [Export.print_decl, Export.print_decl, d.isErased_traverse h, d.print_traverse h]
  | .default value =>
    exact congrArg (fun text => line ("export default " ++ text) 0) (value.print_traverse h)
  | .list _ _ | .all _ => rfl

theorem Item.print_traverse (h : r.KeepsText) (x : Item) :
    (Id.run (x.traverse r)).print = x.print := by
  match x with
  | .imports decl => exact congrArg Item.print (h.item _ _)
  | .exports decl => exact (congrArg Item.print (h.item _ _)).trans (decl.print_traverse h)
  | .stmt s => exact (congrArg Item.print (h.item _ _)).trans ((s.traverse_alike h).asLine 0)

end TsxCompiler
