import TsxCompiler.Print.Module
import TsxCompiler.Proofs.TidyTrees

/-!
# Tidy trees print as clean text

The only slash that printing adds is the operator, which has a blank behind it, and the only quotes
are those of literals. So the text of a tidy tree without markup is clean, whatever its level
(`Expr.isClean_print`, `Stmt.isClean_print`), and so is that of a module (`Program.isClean_print`).
-/

namespace TsxCompiler

open Highlight Print

/-! ## Pieces of text -/

theorem isClean_empty : IsClean "" := .ofPlain rfl

theorem isClean_join {texts : List String} (h : ∀ text ∈ texts, IsClean text) :
    IsClean (String.join texts) := by
  induction texts with
  | nil => exact isClean_empty
  | cons text texts ih =>
    rw [String.join_cons]
    exact (h text (by simp)).append (ih fun x hx => h x (by simp [hx]))

theorem isClean_commaList {texts : List String} (h : ∀ text ∈ texts, IsClean text) :
    IsClean (commaList texts) := by
  have hsep : ", ".toList = [',', ' '] := rfl
  rw [IsClean, commaList, String.toList_intercalate, hsep]
  induction texts with
  | nil => exact .nil
  | cons text texts ih =>
    have htext : Clean text.toList := h text (by simp)
    have htexts := ih fun x hx => h x (by simp [hx])
    cases texts with
    | nil => simpa using htext
    | cons next texts =>
      simp only [List.map_cons] at htexts ⊢
      rw [List.intercalate_cons_cons]
      exact (htext.append (.ofPlain rfl)).append htexts

theorem isClean_indentation (level : Nat) : IsClean (indentation level) := by
  refine isClean_join fun text htext => ?_
  rw [List.eq_of_mem_replicate htext]
  exact .ofPlain rfl

theorem IsClean.line {text : String} (h : IsClean text) (level : Nat) :
    IsClean (line text level) :=
  ((isClean_indentation level).append h).append (.ofPlain rfl)

theorem IsClean.parens {text : String} (h : IsClean text) : IsClean (parens text) :=
  ((IsClean.ofPlain rfl).append h).append (.ofPlain rfl)

theorem isClean_bracesAround {entries : List String} (h : ∀ text ∈ entries, IsClean text) :
    IsClean (bracesAround entries) := by
  unfold bracesAround
  split
  · exact .ofPlain rfl
  · exact ((IsClean.ofPlain rfl).append (isClean_commaList h)).append (.ofPlain rfl)

theorem IsClean.blockAround {lines : String} (h : IsClean lines) (level : Nat) :
    IsClean (blockAround lines level) :=
  (((IsClean.ofPlain rfl).append h).append (isClean_indentation level)).append (.ofPlain rfl)

theorem isClean_nameAfter {name : Option String} (h : ∀ x ∈ name, isPlain x = true) :
    IsClean (nameAfter name) := by
  cases name with
  | none => exact isClean_empty
  | some name => exact (IsClean.ofPlain rfl).append (.ofPlain (h name rfl))

theorem IsClean.textIf {text : String} (h : IsClean text) (condition : Bool) :
    IsClean (textIf condition text) := by
  cases condition with
  | true => exact h
  | false => exact isClean_empty

theorem IsClean.guarded {text : String} (h : IsClean text) (e : Expr) (power : Nat) :
    IsClean (e.guarded power text) := by
  unfold Expr.guarded
  split
  · exact h.parens
  · exact h

/-- The callee of `new`. -/
theorem IsClean.constructed {text : String} (h : IsClean text) (callee : Expr) :
    IsClean (if callee.isCall then Print.parens text else callee.guarded Power.access text) := by
  split
  · exact h.parens
  · exact h.guarded callee Power.access

theorem IsClean.unambiguous {text : String} (h : IsClean text) (e : Expr) :
    IsClean (e.unambiguous text) := by
  unfold Expr.unambiguous
  split
  · exact h.parens
  · exact h

theorem isClean_unaryOp (op : UnaryOp) : IsClean op.symbol := by
  cases op <;> exact .ofPlain rfl

theorem isClean_assignOp (op : AssignOp) : IsClean op.symbol := by
  cases op <;> exact .ofPlain rfl

/-- The slash of a division is followed by a blank. -/
theorem IsClean.binary {left right : String} (hleft : IsClean left) (hright : IsClean right)
    (op : BinaryOp) : IsClean (left ++ " " ++ op.symbol ++ " " ++ right) := by
  have hop : IsClean (op.symbol ++ " ") := by
    cases op with
    | div => exact Clean.slash .nil
    | _ => exact .ofPlain rfl
  have htext : left ++ " " ++ op.symbol ++ " " ++ right =
      left ++ " " ++ (op.symbol ++ " ") ++ right := by
    simp only [String.append_assoc]
  rw [htext]
  exact ((hleft.append (.ofPlain rfl)).append hop).append hright

theorem IsClean.asLine {text : Nat → String} (h : ∀ level, IsClean (text level)) (s : Stmt)
    (level : Nat) : IsClean (s.asLine text level) := by
  unfold Stmt.asLine
  split
  · exact isClean_empty
  · exact (h level).line level

theorem IsClean.asBlock {text : Nat → String} (h : ∀ level, IsClean (text level)) (s : Stmt)
    (level : Nat) : IsClean (s.asBlock text level) := by
  unfold Stmt.asBlock
  split
  · exact h level
  · split
    · exact .ofPlain rfl
    · exact ((h (level + 1)).line (level + 1)).blockAround level

theorem IsClean.asElse {text : Nat → String} (h : ∀ level, IsClean (text level)) (s : Stmt)
    (level : Nat) : IsClean (s.asElse text level) := by
  unfold Stmt.asElse
  split
  · exact h level
  · exact IsClean.asBlock h s level

/-! ## The tree -/

mutual

/-- Each case glues clean parts together: names and literals are clean since they are tidy, the marks
between them are plain, and parentheses keep a text clean. No markup is left to print. -/
theorem Expr.isClean_print (e : Expr) (level : Nat) (h : AllTidy false e.nodes) :
    IsClean (e.print level) := by
  match e with
  | .this =>
    rw [Expr.print]
    exact .ofPlain rfl
  | .ident name =>
    simp only [Expr.nodes, allNodes_cons] at h
    exact .ofPlain h.1
  | .lit value =>
    simp only [Expr.nodes, allNodes_cons] at h
    exact h.1
  | .array elems =>
    simp only [Expr.nodes, allNodes_cons] at h
    have helems := isClean_commaList (Argument.isClean_printAll elems level h.2)
    exact ((IsClean.ofPlain rfl).append helems).append (.ofPlain rfl)
  | .object props =>
    simp only [Expr.nodes, allNodes_cons] at h
    exact isClean_bracesAround (Property.isClean_printAll props level h.1 h.2)
  | .func name body =>
    simp only [Expr.nodes, allNodes_cons] at h
    exact body.isClean_print _ level ((IsClean.ofPlain rfl).append (isClean_nameAfter h.1)) h.2
  | .arrow isAsync params body =>
    simp only [Expr.nodes, allNodes_cons, allNodes_append] at h
    have hparams := isClean_commaList (Pattern.isClean_printAll params level h.2.1)
    have hmark : IsClean (textIf isAsync "async ") := (IsClean.ofPlain rfl).textIf isAsync
    exact ((hmark.append hparams.parens).append (.ofPlain rfl)).append
      (body.isClean_print level h.2.2)
  | .classExpr name body =>
    simp only [Expr.nodes, allNodes_cons] at h
    exact ((IsClean.ofPlain rfl).append (isClean_nameAfter h.1)).append
      (body.isClean_print level h.2)
  | .call callee args optional =>
    simp only [Expr.nodes, allNodes_cons, allNodes_append] at h
    have hcallee := (callee.isClean_print level h.2.1).guarded callee Power.access
    have hargs := isClean_commaList (Argument.isClean_printAll args level h.2.2)
    exact (hcallee.append ((IsClean.ofPlain rfl).textIf optional)).append hargs.parens
  | .new callee none =>
    simp only [Expr.nodes, allNodes_cons] at h
    have hcallee := (callee.isClean_print level h.2).constructed callee
    exact ((IsClean.ofPlain rfl).append hcallee).append isClean_empty.parens
  | .new callee (some args) =>
    simp only [Expr.nodes, allNodes_cons, allNodes_append] at h
    have hcallee := (callee.isClean_print level h.2.1).constructed callee
    have hargs := isClean_commaList (Argument.isClean_printAll args level h.2.2)
    exact ((IsClean.ofPlain rfl).append hcallee).append hargs.parens
  | .member object key optional =>
    simp only [Expr.nodes, allNodes_cons, allNodes_append] at h
    have hobject := (object.isClean_print level h.2.1).guarded object Power.access
    exact hobject.append (key.isClean_print optional level h.1 h.2.2)
  | .unary op arg =>
    simp only [Expr.nodes, allNodes_cons] at h
    have harg := (arg.isClean_print level h.2).guarded arg Power.unary
    exact ((isClean_unaryOp op).append ((IsClean.ofPlain rfl).textIf _)).append harg
  | .binary op left right =>
    simp only [Expr.nodes, allNodes_cons, allNodes_append] at h
    exact ((left.isClean_print level h.2.1).guarded left op.leftPower).binary
      ((right.isClean_print level h.2.2).guarded right op.rightPower) op
  | .cond test cons alt =>
    simp only [Expr.nodes, allNodes_cons, allNodes_append] at h
    have htest := (test.isClean_print level h.2.1.1).guarded test (Power.conditional + 1)
    have hcons := (cons.isClean_print level h.2.1.2).guarded cons Power.assignment
    have halt := (alt.isClean_print level h.2.2).guarded alt Power.assignment
    exact (((htest.append (.ofPlain rfl)).append hcons).append (.ofPlain rfl)).append halt
  | .assign op target value =>
    simp only [Expr.nodes, allNodes_cons, allNodes_append] at h
    have htarget := (target.isClean_print level h.2.1).guarded target Power.access
    have hvalue := (value.isClean_print level h.2.2).guarded value Power.assignment
    exact (((htarget.append (.ofPlain rfl)).append (isClean_assignOp op)).append
      (.ofPlain rfl)).append hvalue
  | .jsx element =>
    simp only [Expr.nodes, allNodes_cons] at h
    cases h.1

theorem Argument.isClean_printAll (args : List Argument) (level : Nat)
    (h : AllTidy false (Argument.nodesAll args)) :
    ∀ text ∈ Argument.printAll args level, IsClean text := by
  match args with
  | [] => exact nofun
  | ⟨spread, value⟩ :: rest =>
    simp only [Argument.nodesAll, allNodes_append] at h
    have hvalue := (value.isClean_print level h.1).guarded value Power.assignment
    rw [Argument.printAll, Argument.print]
    exact List.forall_mem_cons.2 ⟨((IsClean.ofPlain rfl).textIf spread).append hvalue,
      Argument.isClean_printAll rest level h.2⟩

theorem Property.isClean_print (p : Property) (level : Nat) (hp : p.Tidy)
    (h : AllTidy false p.nodes) : IsClean (p.print level) := by
  match p with
  | .spread value =>
    exact (IsClean.ofPlain rfl).append ((value.isClean_print level h).guarded value _)
  | .keyed key value =>
    simp only [Property.nodes, allNodes_append] at h
    have hvalue := (value.isClean_print level h.2).guarded value Power.assignment
    exact ((key.isClean_print level hp h.1).append (.ofPlain rfl)).append hvalue
  | .shorthand name => exact .ofPlain hp

theorem Property.isClean_printAll (props : List Property) (level : Nat)
    (hprops : ∀ p ∈ props, p.Tidy) (h : AllTidy false (Property.nodesAll props)) :
    ∀ text ∈ Property.printAll props level, IsClean text := by
  match props with
  | [] => exact nofun
  | p :: rest =>
    simp only [Property.nodesAll, allNodes_append] at h
    obtain ⟨hp, hrest⟩ := List.forall_mem_cons.1 hprops
    rw [Property.printAll]
    exact List.forall_mem_cons.2 ⟨p.isClean_print level hp h.1,
      Property.isClean_printAll rest level hrest h.2⟩

theorem PropertyKey.isClean_print (key : PropertyKey) (level : Nat) (hkey : key.Tidy)
    (h : AllTidy false key.nodes) : IsClean (key.print level) := by
  match key with
  | .ident name => exact .ofPlain hkey
  | .string lit => exact hkey
  | .number text => exact .ofPlain hkey
  | .computed value =>
    have hvalue := (value.isClean_print level h).guarded value Power.assignment
    exact ((IsClean.ofPlain rfl).append hvalue).append (.ofPlain rfl)

theorem MemberKey.isClean_print (key : MemberKey) (optional : Bool) (level : Nat) (hkey : key.Tidy)
    (h : AllTidy false key.nodes) : IsClean (key.print optional level) := by
  match key with
  | .ident name =>
    have hdot : IsClean (if optional then "?." else ".") := by
      cases optional <;> exact .ofPlain rfl
    exact hdot.append (.ofPlain hkey)
  | .computed value =>
    have hmark : IsClean (textIf optional "?.") := (IsClean.ofPlain rfl).textIf optional
    exact ((hmark.append (.ofPlain rfl)).append (value.isClean_print level h)).append (.ofPlain rfl)

theorem ArrowBody.isClean_print (body : ArrowBody) (level : Nat) (h : AllTidy false body.nodes) :
    IsClean (body.print level) := by
  match body with
  | .block stmts => exact Stmt.isClean_printBlock stmts level h
  | .expr value =>
    have hvalue := value.isClean_print level h
    rw [ArrowBody.print]
    split
    · exact hvalue.parens
    · exact hvalue.guarded value Power.assignment

theorem Pattern.isClean_print (p : Pattern) (level : Nat) (h : AllTidy false p.nodes) :
    IsClean (p.print level) := by
  match p with
  | .ident name =>
    simp only [Pattern.nodes, allNodes_cons] at h
    exact .ofPlain h.1
  | .array elems =>
    simp only [Pattern.nodes, allNodes_cons] at h
    have helems := isClean_commaList (Pattern.isClean_printAll elems level h.2)
    exact ((IsClean.ofPlain rfl).append helems).append (.ofPlain rfl)
  | .object props =>
    simp only [Pattern.nodes, allNodes_cons] at h
    exact isClean_bracesAround (PatternProperty.isClean_printAll props level h.1 h.2)
  | .withDefault target value =>
    simp only [Pattern.nodes, allNodes_cons, allNodes_append] at h
    have hvalue := (value.isClean_print level h.2.2).guarded value Power.assignment
    exact ((target.isClean_print level h.2.1).append (.ofPlain rfl)).append hvalue
  | .rest target =>
    simp only [Pattern.nodes, allNodes_cons] at h
    exact (IsClean.ofPlain rfl).append (target.isClean_print level h.2)

theorem Pattern.isClean_printAll (ps : List Pattern) (level : Nat)
    (h : AllTidy false (Pattern.nodesAll ps)) :
    ∀ text ∈ Pattern.printAll ps level, IsClean text := by
  match ps with
  | [] => exact nofun
  | p :: rest =>
    simp only [Pattern.nodesAll, allNodes_append] at h
    rw [Pattern.printAll]
    exact List.forall_mem_cons.2 ⟨p.isClean_print level h.1,
      Pattern.isClean_printAll rest level h.2⟩

theorem PatternProperty.isClean_print (p : PatternProperty) (level : Nat) (hp : p.Tidy)
    (h : AllTidy false p.nodes) : IsClean (p.print level) := by
  match p with
  | .keyed key target =>
    simp only [PatternProperty.nodes, allNodes_append] at h
    exact ((key.isClean_print level hp h.1).append (.ofPlain rfl)).append
      (target.isClean_print level h.2)
  | .shorthand name none => exact .ofPlain hp
  | .shorthand name (some value) =>
    have hvalue := (value.isClean_print level h).guarded value Power.assignment
    exact ((IsClean.ofPlain hp).append (.ofPlain rfl)).append hvalue
  | .rest target => exact (IsClean.ofPlain rfl).append (target.isClean_print level h)

theorem PatternProperty.isClean_printAll (props : List PatternProperty) (level : Nat)
    (hprops : ∀ p ∈ props, p.Tidy) (h : AllTidy false (PatternProperty.nodesAll props)) :
    ∀ text ∈ PatternProperty.printAll props level, IsClean text := by
  match props with
  | [] => exact nofun
  | p :: rest =>
    simp only [PatternProperty.nodesAll, allNodes_append] at h
    obtain ⟨hp, hrest⟩ := List.forall_mem_cons.1 hprops
    rw [PatternProperty.printAll]
    exact List.forall_mem_cons.2 ⟨p.isClean_print level hp h.1,
      PatternProperty.isClean_printAll rest level hrest h.2⟩

theorem Func.isClean_print (body : Func) (head : String) (level : Nat) (hhead : IsClean head)
    (h : AllTidy false body.nodes) : IsClean (body.print head level) := by
  match body with
  | ⟨isAsync, params, stmts⟩ =>
    simp only [Func.nodes, allNodes_cons, allNodes_append] at h
    have hmark : IsClean (textIf isAsync "async ") := (IsClean.ofPlain rfl).textIf isAsync
    have hparams := isClean_commaList (Pattern.isClean_printAll params level h.2.1)
    exact (((hmark.append hhead).append hparams.parens).append (.ofPlain rfl)).append
      (Stmt.isClean_printBlock stmts level h.2.2)

theorem ClassBody.isClean_print (body : ClassBody) (level : Nat) (h : AllTidy false body.nodes) :
    IsClean (body.print level) := by
  have hrest : ∀ members : List ClassMember,
      IsClean (ClassMember.printAll members (level + 1)) →
      IsClean (if members.isEmpty then " \x7b\x7d"
        else " " ++ Print.blockAround (ClassMember.printAll members (level + 1)) level) := by
    intro members hmembers
    split
    · exact .ofPlain rfl
    · exact (IsClean.ofPlain rfl).append (hmembers.blockAround level)
  match body with
  | ⟨none, members⟩ =>
    simp only [ClassBody.nodes, allNodes_cons] at h
    exact isClean_empty.append
      (hrest members (ClassMember.isClean_printAll members (level + 1) h.1 h.2))
  | ⟨some superClass, members⟩ =>
    simp only [ClassBody.nodes, allNodes_cons, allNodes_append] at h
    have hsuper := (superClass.isClean_print level h.2.1).guarded superClass Power.access
    exact ((IsClean.ofPlain rfl).append hsuper).append
      (hrest members (ClassMember.isClean_printAll members (level + 1) h.1 h.2.2))

theorem ClassMember.isClean_print (m : ClassMember) (level : Nat) (hm : m.Tidy)
    (h : AllTidy false m.nodes) : IsClean (m.print level) := by
  have hmark : ∀ isStatic, IsClean (textIf isStatic "static ") := (IsClean.ofPlain rfl).textIf
  match m with
  | .method key body isStatic =>
    simp only [ClassMember.nodes, allNodes_append] at h
    exact (hmark isStatic).append
      (body.isClean_print _ level (key.isClean_print level hm h.1) h.2)
  | .field key none isStatic =>
    exact ((hmark isStatic).append (key.isClean_print level hm h)).append (.ofPlain rfl)
  | .field key (some value) isStatic =>
    simp only [ClassMember.nodes, allNodes_append] at h
    have hvalue := (value.isClean_print level h.2).guarded value Power.assignment
    exact ((((hmark isStatic).append (key.isClean_print level hm h.1)).append
      (.ofPlain rfl)).append hvalue).append (.ofPlain rfl)

theorem ClassMember.isClean_printAll (members : List ClassMember) (level : Nat)
    (hmembers : ∀ m ∈ members, m.Tidy) (h : AllTidy false (ClassMember.nodesAll members)) :
    IsClean (ClassMember.printAll members level) := by
  match members with
  | [] => exact isClean_empty
  | m :: rest =>
    simp only [ClassMember.nodesAll, allNodes_append] at h
    obtain ⟨hm, hrest⟩ := List.forall_mem_cons.1 hmembers
    exact ((m.isClean_print level hm h.1).line level).append
      (ClassMember.isClean_printAll rest level hrest h.2)

theorem Stmt.isClean_print (s : Stmt) (level : Nat) (h : AllTidy false s.nodes) :
    IsClean (s.print level) := by
  match s with
  | .block stmts =>
    simp only [Stmt.nodes, allNodes_cons] at h
    exact Stmt.isClean_printBlock stmts level h.2
  | .decl decl =>
    simp only [Stmt.nodes, allNodes_cons] at h
    exact decl.isClean_print level h.2
  | .expr value =>
    simp only [Stmt.nodes, allNodes_cons] at h
    exact ((value.isClean_print level h.2).unambiguous value).append (.ofPlain rfl)
  | .ret none =>
    rw [Stmt.print]
    exact .ofPlain rfl
  | .ret (some value) =>
    simp only [Stmt.nodes, allNodes_cons] at h
    exact ((IsClean.ofPlain rfl).append (value.isClean_print level h.2)).append (.ofPlain rfl)
  | .branch test cons none =>
    simp only [Stmt.nodes, allNodes_cons, allNodes_append] at h
    have hcons := IsClean.asBlock (fun n => cons.isClean_print n h.2.2) cons level
    exact (((IsClean.ofPlain rfl).append (test.isClean_print level h.2.1)).append
      (.ofPlain rfl)).append hcons
  | .branch test cons (some alt) =>
    simp only [Stmt.nodes, allNodes_cons, allNodes_append] at h
    have hcons := IsClean.asBlock (fun n => cons.isClean_print n h.2.1.2) cons level
    have halt := IsClean.asElse (fun n => alt.isClean_print n h.2.2) alt level
    exact (((((IsClean.ofPlain rfl).append (test.isClean_print level h.2.1.1)).append
      (.ofPlain rfl)).append hcons).append (.ofPlain rfl)).append halt
  | .throw value =>
    simp only [Stmt.nodes, allNodes_cons] at h
    exact ((IsClean.ofPlain rfl).append (value.isClean_print level h.2)).append (.ofPlain rfl)
  | .empty => exact isClean_empty

theorem Stmt.isClean_printAll (stmts : List Stmt) (level : Nat)
    (h : AllTidy false (Stmt.nodesAll stmts)) : IsClean (Stmt.printAll stmts level) := by
  match stmts with
  | [] => exact isClean_empty
  | s :: rest =>
    simp only [Stmt.nodesAll, allNodes_append] at h
    exact (IsClean.asLine (fun n => s.isClean_print n h.1) s level).append
      (Stmt.isClean_printAll rest level h.2)

theorem Stmt.isClean_printBlock (stmts : List Stmt) (level : Nat)
    (h : AllTidy false (Stmt.nodesAll stmts)) : IsClean (Stmt.printBlock stmts level) := by
  match stmts with
  | [] =>
    rw [Stmt.printBlock]
    exact .ofPlain rfl
  | s :: rest =>
    simp only [Stmt.nodesAll, allNodes_append] at h
    rw [Stmt.printBlock]
    split
    · exact .ofPlain rfl
    · exact ((IsClean.asLine (fun n => s.isClean_print n h.1) s (level + 1)).append
        (Stmt.isClean_printAll rest (level + 1) h.2)).blockAround level

theorem Decl.isClean_print (d : Decl) (level : Nat) (h : AllTidy false d.nodes) :
    IsClean (d.print level) := by
  match d with
  | .var kind declarators =>
    simp only [Decl.nodes, allNodes_cons] at h
    have hkind : IsClean kind.keyword := by
      cases kind <;> exact .ofPlain rfl
    have hdeclarators := isClean_commaList (Declarator.isClean_printAll declarators level h.2)
    exact ((hkind.append (.ofPlain rfl)).append hdeclarators).append (.ofPlain rfl)
  | .func name body =>
    simp only [Decl.nodes, allNodes_cons] at h
    exact body.isClean_print _ level ((IsClean.ofPlain rfl).append (.ofPlain h.1)) h.2
  | .classDecl name body =>
    simp only [Decl.nodes, allNodes_cons] at h
    exact ((IsClean.ofPlain rfl).append (.ofPlain h.1)).append (body.isClean_print level h.2.2)
  | .typeDecl name => exact isClean_empty

theorem Declarator.isClean_printAll (declarators : List Declarator) (level : Nat)
    (h : AllTidy false (Declarator.nodesAll declarators)) :
    ∀ text ∈ Declarator.printAll declarators level, IsClean text := by
  match declarators with
  | [] => exact nofun
  | ⟨target, none⟩ :: rest =>
    simp only [Declarator.nodesAll, Declarator.nodes, allNodes_append] at h
    rw [Declarator.printAll]
    exact List.forall_mem_cons.2 ⟨target.isClean_print level h.1,
      Declarator.isClean_printAll rest level h.2⟩
  | ⟨target, some value⟩ :: rest =>
    simp only [Declarator.nodesAll, Declarator.nodes, allNodes_append] at h
    have hvalue := (value.isClean_print level h.1.2).guarded value Power.assignment
    rw [Declarator.printAll]
    exact List.forall_mem_cons.2
      ⟨((target.isClean_print level h.1.1).append (.ofPlain rfl)).append hvalue,
        Declarator.isClean_printAll rest level h.2⟩

end

/-! ## Modules -/

theorem Stmt.isClean_topLine {s : Stmt} (h : AllTidy false s.nodes) (level : Nat) :
    IsClean (s.asLine s.print level) :=
  IsClean.asLine (fun n => s.isClean_print n h) s level

/-- The names of an import, sorted by kind, are those of its specifiers. -/
structure ImportClause.Tidy (clause : ImportClause) : Prop where
  default : ∀ x ∈ clause.default, isPlain x = true
  star : ∀ x ∈ clause.star, isPlain x = true
  named : ∀ x ∈ clause.named, isPlain x.1 = true ∧ ∀ y ∈ x.2, isPlain y = true

theorem ImportClause.tidy_ofSpecifiers {specifiers : List ImportSpecifier}
    (h : ∀ s ∈ specifiers, s.Tidy) : (ImportClause.ofSpecifiers specifiers).Tidy := by
  refine ⟨fun x hx => ?_, fun x hx => ?_, fun x hx => ?_⟩
  · obtain ⟨s, hs, hsx⟩ := List.mem_filterMap.1 (List.mem_of_getLast? hx)
    cases s <;> simp only [Option.some.injEq, reduceCtorEq] at hsx
    subst hsx
    exact h _ hs
  · obtain ⟨s, hs, hsx⟩ := List.mem_filterMap.1 (List.mem_of_getLast? hx)
    cases s <;> simp only [Option.some.injEq, reduceCtorEq] at hsx
    subst hsx
    exact h _ hs
  · obtain ⟨s, hs, hsx⟩ := List.mem_filterMap.1 hx
    cases s <;> simp only [Option.some.injEq, reduceCtorEq] at hsx
    subst hsx
    exact h _ hs

/-- The default, the star and the list of names of a clause are clean texts each. -/
theorem ImportClause.Tidy.isClean_print {clause : ImportClause} (h : clause.Tidy) :
    ∀ text ∈ clause.print, IsClean text := by
  have hnamed : IsClean (ImportClause.printNamed clause.named) := by
    refine ((IsClean.ofPlain rfl).append (isClean_commaList fun text htext => ?_)).append
      (.ofPlain rfl)
    obtain ⟨⟨binding, imported⟩, hmem, rfl⟩ := List.mem_map.1 htext
    obtain ⟨hbinding, himported⟩ := h.named _ hmem
    cases imported with
    | none => exact .ofPlain hbinding
    | some imported =>
      exact ((IsClean.ofPlain (himported imported rfl)).append (.ofPlain rfl)).append
        (.ofPlain hbinding)
  intro text htext
  rw [ImportClause.print] at htext
  simp only [List.mem_append, Option.mem_toList, Option.map_eq_some_iff] at htext
  rcases htext with (hdefault | ⟨star, hstar, rfl⟩) | hlist
  · exact .ofPlain (h.default text hdefault)
  · exact (IsClean.ofPlain rfl).append (.ofPlain (h.star star hstar))
  · split at hlist
    · cases hlist
    · rw [List.mem_singleton.1 hlist]
      exact hnamed

theorem Import.isClean_print {i : Import} (h : i.Tidy) : IsClean i.print := by
  have hparts := (ImportClause.tidy_ofSpecifiers h.specifiers).isClean_print
  unfold Import.print
  split
  · exact isClean_empty
  · refine ((((IsClean.ofPlain rfl).append ?_).append h.source).append (.ofPlain rfl)).line 0
    exact ((isClean_commaList hparts).append (.ofPlain rfl)).textIf _

/-- An export prints a clean line, or nothing at all for a type. -/
theorem Export.isClean_print {d : Export} (htidy : d.Tidy) (h : AllTidy false d.nodes) :
    IsClean d.print := by
  cases d with
  | decl d =>
    have hexport : IsClean "export " := .ofPlain rfl
    have hline := (hexport.append (d.isClean_print 0 h)).line 0
    cases d with
    | typeDecl name => exact isClean_empty
    | _ => exact hline
  | default value =>
    refine ((IsClean.ofPlain rfl).append ?_).line 0
    cases value with
    | func name body =>
      exact body.isClean_print _ 0 ((IsClean.ofPlain rfl).append (isClean_nameAfter htidy)) h
    | classDef name body =>
      exact ((IsClean.ofPlain rfl).append (isClean_nameAfter htidy)).append (body.isClean_print 0 h)
    | expr value => exact ((value.isClean_print 0 h).unambiguous value).append (.ofPlain rfl)
  | list specifiers source =>
    have hspecifiers : IsClean (bracesAround (specifiers.map ExportSpecifier.print)) := by
      refine isClean_bracesAround fun text htext => ?_
      obtain ⟨⟨binding, exported⟩, hmem, rfl⟩ := List.mem_map.1 htext
      have hs := htidy.1 _ hmem
      cases exported with
      | none => exact .ofPlain hs.binding
      | some exported =>
        exact ((IsClean.ofPlain hs.binding).append (.ofPlain rfl)).append
          (.ofPlain (hs.exported exported rfl))
    cases source with
    | none =>
      exact ((((IsClean.ofPlain rfl).append hspecifiers).append isClean_empty).append
        (.ofPlain rfl)).line 0
    | some source =>
      have hsource : IsClean (" from " ++ source.print) :=
        (IsClean.ofPlain rfl).append (htidy.2 source rfl)
      exact ((((IsClean.ofPlain rfl).append hspecifiers).append hsource).append
        (.ofPlain rfl)).line 0
  | all source =>
    exact (((IsClean.ofPlain rfl).append htidy).append (.ofPlain rfl)).line 0

theorem Item.isClean_print {x : Item} (h : AllTidy false x.nodes) : IsClean x.print := by
  cases x with
  | imports decl =>
    simp only [Item.nodes, allNodes_cons] at h
    exact Import.isClean_print h.2.1
  | exports decl =>
    simp only [Item.nodes, allNodes_cons] at h
    exact Export.isClean_print h.1 h.2
  | stmt s =>
    simp only [Item.nodes, allNodes_cons] at h
    exact Stmt.isClean_topLine h.2 0

theorem Program.isClean_print {p : Program} (h : AllTidy false p.nodes) : IsClean p.print := by
  simp only [Program.nodes, allNodes_flatMap] at h
  refine isClean_join fun text htext => ?_
  obtain ⟨x, hx, rfl⟩ := List.mem_map.1 htext
  exact Item.isClean_print (h x hx)

end TsxCompiler
