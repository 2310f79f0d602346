import TsxCompiler.Tree.Trace

/-!
# Visiting and traversing

A visit looks at the nodes of a tree and a traversal rebuilds the tree, each with a hook at every
stop. Both go through the parts of every node by themselves, so it is no matter of course that they
come to the same nodes in the same order. They do, up to what only a visit stops at: imports and the
names of class declarations.

What is done at the stops may be anything, in any monad: a visit does it at its sites, one after the
other, and a traversal at those of them that it has a hook for, and the tree comes out as it went in
(`Walks`). The sites that are no blocks are the listed nodes (`Program.nodes`).

* `Expr.walks` and its companions — one for each kind of node.
* `Program.walks` — for a module.
* `Program.traverse_followsVisit` — the two logs, of the sites themselves and as lines.
* `Program.filterMap_visitLog` — the listed nodes as the log of a visit.
-/

namespace TsxCompiler

/-! ## Sites -/

/-- A place where a visit stops: a node, or a block. -/
inductive Site where
  | node (node : Node)
  | block (stmts : List Stmt)

/-- Whether a traversal has a hook for a node. -/
def Node.hasHook : Node → Bool
  | .imports _ | .classDecl _ => false
  | _ => true

namespace Site

def node? : Site → Option Node
  | node n => some n
  | block _ => none

/-- Whether a traversal stops at a site. -/
def hasHook : Site → Bool
  | node n => n.hasHook
  | block _ => true

/-- The line for a site. -/
def line : Site → String
  | node n => n.line
  | block _ => "block"

end Site

section

variable {m : Type → Type} [Monad m] {α β γ δ : Type}

/-- The visitor that does something at every site, before the parts. -/
def Visitor.performing (act : Site → m Unit) : Visitor m where
  item i parts := do act (.node (.item i)); parts
  imports i parts := do act (.node (.imports i)); parts
  stmt s parts := do act (.node (.stmt s)); parts
  block stmts parts := do act (.block stmts); parts
  decl d parts := do act (.node (.decl d)); parts
  classDecl name parts := do act (.node (.classDecl name)); parts
  func f parts := do act (.node (.func f)); parts
  classBody c parts := do act (.node (.classBody c)); parts
  pattern p parts := do act (.node (.pattern p)); parts
  expr e parts := do act (.node (.expr e)); parts
  element e parts := do act (.node (.element e)); parts

/-- The traversal that changes nothing and does something at every site it stops at, before the
parts. -/
def Traversal.performing (act : Site → m Unit) : Traversal m where
  item i walk := do act (.node (.item i)); walk
  stmt s walk := do act (.node (.stmt s)); walk
  block stmts walk := do act (.block stmts); walk
  decl d walk := do act (.node (.decl d)); walk
  func f walk := do act (.node (.func f)); walk
  classBody c walk := do act (.node (.classBody c)); walk
  pattern p walk := do act (.node (.pattern p)); walk
  expr e walk := do act (.node (.expr e)); walk
  element e walk := do act (.node (.element e)); walk

/-- A visit and a walk go through the same sites: the visit does what is done at each of them, and
the walk what is done at those with a hook, before it returns the value. The sites but for blocks
are the given nodes. -/
def Walks (act : Site → m Unit) (visit : m Unit) (walk : m α) (value : α) (nodes : List Node) :
    Prop :=
  ∃ sites : List Site, visit = sites.forM act ∧
    walk = (do (sites.filter Site.hasHook).forM act; return value) ∧
    sites.filterMap Site.node? = nodes

variable [LawfulMonad m] {act : Site → m Unit}

namespace Walks

theorem pure (value : α) : Walks act (Pure.pure ()) (Pure.pure value) value [] :=
  ⟨[], rfl, by simp, rfl⟩

theorem bind {visit more : m Unit} {walk : m α} {value : α} {ns ms : List Node} {f : α → m β}
    {result : β} (hwalk : Walks act visit walk value ns) (hf : Walks act more (f value) result ms) :
    Walks act (do visit; more) (walk >>= f) result (ns ++ ms) := by
  obtain ⟨sites, rfl, rfl, hsites⟩ := hwalk
  obtain ⟨behind, rfl, hbehind, hnodes⟩ := hf
  refine ⟨sites ++ behind, ?_, ?_, by simp [hsites, hnodes]⟩
  · exact (List.forM_append ..).symm
  · simp [hbehind, List.forM_append]

/-- One part, rebuilt. -/
theorem map (f : α → β) {visit : m Unit} {walk : m α} {value : α} {ns : List Node}
    (hwalk : Walks act visit walk value ns) :
    Walks act visit (do return f (← walk)) (f value) ns := by
  obtain ⟨sites, rfl, rfl, hsites⟩ := hwalk
  exact ⟨sites, rfl, by simp, hsites⟩

/-- Two parts, rebuilt. -/
theorem map₂ (f : α → β → γ) {visit visit' : m Unit} {walk : m α} {value : α} {ns : List Node}
    {walk' : m β} {value' : β} {ms : List Node} (hwalk : Walks act visit walk value ns)
    (hwalk' : Walks act visit' walk' value' ms) :
    Walks act (do visit; visit') (do return f (← walk) (← walk')) (f value value') (ns ++ ms) :=
  hwalk.bind (hwalk'.map (f value))

/-- Three parts, rebuilt. -/
theorem map₃ (f : α → β → γ → δ) {visit visit' visit'' : m Unit} {walk : m α} {value : α}
    {ns : List Node} {walk' : m β} {value' : β} {ms : List Node} {walk'' : m γ} {value'' : γ}
    {ks : List Node} (hwalk : Walks act visit walk value ns)
    (hwalk' : Walks act visit' walk' value' ms) (hwalk'' : Walks act visit'' walk'' value'' ks) :
    Walks act (do visit; visit'; visit'') (do return f (← walk) (← walk') (← walk''))
      (f value value' value'') (ns ++ ms ++ ks) := by
  rw [List.append_assoc]
  exact hwalk.bind (hwalk'.map₂ (f value) hwalk'')

/-- A stop at a node. -/
theorem stop (n : Node) (hn : n.hasHook = true) {visit : m Unit} {walk : m α} {value : α}
    {ns : List Node} (hwalk : Walks act visit walk value ns) :
    Walks act (do act (.node n); visit) (do act (.node n); walk) value (n :: ns) := by
  obtain ⟨sites, rfl, rfl, hsites⟩ := hwalk
  exact ⟨.node n :: sites, rfl, by simp [Site.hasHook, hn], by simp [Site.node?, hsites]⟩

/-- A stop at a block. -/
theorem block (stmts : List Stmt) {visit : m Unit} {walk : m α} {value : α} {ns : List Node}
    (hwalk : Walks act visit walk value ns) :
    Walks act (do act (.block stmts); visit) (do act (.block stmts); walk) value ns := by
  obtain ⟨sites, rfl, rfl, hsites⟩ := hwalk
  exact ⟨.block stmts :: sites, rfl, by simp [List.filter_cons, Site.hasHook], hsites⟩

omit [LawfulMonad m] in
/-- A node that only a visit stops at. -/
theorem pass (n : Node) (hn : n.hasHook = false) {visit : m Unit} {walk : m α} {value : α}
    {ns : List Node} (hwalk : Walks act visit walk value ns) :
    Walks act (do act (.node n); visit) walk value (n :: ns) := by
  obtain ⟨sites, rfl, hrun, hsites⟩ := hwalk
  exact ⟨.node n :: sites, rfl, by simpa [Site.hasHook, hn] using hrun,
    by simp [Site.node?, hsites]⟩

end Walks

/-! ## Trees -/

mutual

/-- A visit and a traversal come to the node itself first and then to its parts, in the order of the
fields. -/
theorem Expr.walks (e : Expr) :
    Walks act (e.visit (.performing act)) (e.traverse (.performing act)) e e.nodes := by
  match e with
  | .this | .ident _ | .lit _ => exact (Walks.pure _).stop (.expr _) rfl
  | .array elems => exact ((Argument.walksAll elems).map Expr.array).stop (.expr _) rfl
  | .object props => exact ((Property.walksAll props).map Expr.object).stop (.expr _) rfl
  | .func name body => exact (body.walks.map (Expr.func name)).stop (.expr _) rfl
  | .arrow isAsync params body =>
    exact ((Pattern.walksAll params).map₂ (Expr.arrow isAsync)
      body.walks).stop (.expr _) rfl
  | .classExpr name body =>
    exact (body.walks.map (Expr.classExpr name)).stop (.expr _) rfl
  | .call callee args optional =>
    exact (callee.walks.map₂ (Expr.call · · optional)
      (Argument.walksAll args)).stop (.expr _) rfl
  | .new callee none =>
    exact (callee.walks.map (Expr.new · none)).stop (.expr _) rfl
  | .new callee (some args) =>
    exact (callee.walks.map₂ (fun callee args => Expr.new callee (some args))
      (Argument.walksAll args)).stop (.expr _) rfl
  | .member object key optional =>
    exact (object.walks.map₂ (Expr.member · · optional)
      key.walks).stop (.expr _) rfl
  | .unary op arg => exact (arg.walks.map (Expr.unary op)).stop (.expr _) rfl
  | .binary op left right =>
    exact (left.walks.map₂ (Expr.binary op) right.walks).stop (.expr _) rfl
  | .cond test cons alt =>
    exact (test.walks.map₃ Expr.cond cons.walks
      alt.walks).stop (.expr _) rfl
  | .assign op target value =>
    exact (target.walks.map₂ (Expr.assign op) value.walks).stop (.expr _) rfl
  | .jsx element => exact (element.walks.map Expr.jsx).stop (.expr _) rfl

theorem Argument.walksAll (args : List Argument) :
    Walks act (Argument.visitAll (.performing act) args)
      (Argument.traverseAll (.performing act) args) args (Argument.nodesAll args) := by
  match args with
  | [] => exact .pure []
  | ⟨spread, value⟩ :: rest =>
    exact value.walks.map₂ (fun value rest => Argument.mk spread value :: rest)
      (Argument.walksAll rest)

theorem Property.walks (p : Property) :
    Walks act (p.visit (.performing act)) (p.traverse (.performing act)) p p.nodes := by
  match p with
  | .spread value => exact value.walks.map Property.spread
  | .keyed key value => exact key.walks.map₂ Property.keyed value.walks
  | .shorthand name => exact .pure _

theorem Property.walksAll (props : List Property) :
    Walks act (Property.visitAll (.performing act) props)
      (Property.traverseAll (.performing act) props) props (Property.nodesAll props) := by
  match props with
  | [] => exact .pure []
  | p :: rest => exact p.walks.map₂ List.cons (Property.walksAll rest)

theorem PropertyKey.walks (key : PropertyKey) :
    Walks act (key.visit (.performing act)) (key.traverse (.performing act)) key key.nodes := by
  match key with
  | .ident _ | .string _ | .number _ => exact .pure _
  | .computed value => exact value.walks.map PropertyKey.computed

theorem MemberKey.walks (key : MemberKey) :
    Walks act (key.visit (.performing act)) (key.traverse (.performing act)) key key.nodes := by
  match key with
  | .ident _ => exact .pure _
  | .computed value => exact value.walks.map MemberKey.computed

theorem ArrowBody.walks (body : ArrowBody) :
    Walks act (body.visit (.performing act)) (body.traverse (.performing act)) body body.nodes := by
  match body with
  | .block stmts => exact ((Stmt.walksAll stmts).block stmts).map ArrowBody.block
  | .expr value => exact value.walks.map ArrowBody.expr

theorem Pattern.walks (p : Pattern) :
    Walks act (p.visit (.performing act)) (p.traverse (.performing act)) p p.nodes := by
  match p with
  | .ident name => exact (Walks.pure _).stop (.pattern _) rfl
  | .array elems =>
    exact ((Pattern.walksAll elems).map Pattern.array).stop (.pattern _) rfl
  | .object props =>
    exact ((PatternProperty.walksAll props).map Pattern.object).stop (.pattern _) rfl
  | .withDefault target value =>
    exact (target.walks.map₂ Pattern.withDefault
      value.walks).stop (.pattern _) rfl
  | .rest target => exact (target.walks.map Pattern.rest).stop (.pattern _) rfl

theorem Pattern.walksAll (ps : List Pattern) :
    Walks act (Pattern.visitAll (.performing act) ps)
      (Pattern.traverseAll (.performing act) ps) ps (Pattern.nodesAll ps) := by
  match ps with
  | [] => exact .pure []
  | p :: rest => exact p.walks.map₂ List.cons (Pattern.walksAll rest)

theorem PatternProperty.walks (p : PatternProperty) :
    Walks act (p.visit (.performing act)) (p.traverse (.performing act)) p p.nodes := by
  match p with
  | .keyed key target =>
    exact key.walks.map₂ PatternProperty.keyed target.walks
  | .shorthand name none => exact .pure _
  | .shorthand name (some value) =>
    exact value.walks.map fun value => PatternProperty.shorthand name (some value)
  | .rest target => exact target.walks.map PatternProperty.rest

theorem PatternProperty.walksAll (props : List PatternProperty) :
    Walks act (PatternProperty.visitAll (.performing act) props)
      (PatternProperty.traverseAll (.performing act) props) props (PatternProperty.nodesAll props) := by
  match props with
  | [] => exact .pure []
  | p :: rest =>
    exact p.walks.map₂ List.cons (PatternProperty.walksAll rest)

theorem Func.walks (f : Func) :
    Walks act (f.visit (.performing act)) (f.traverse (.performing act)) f f.nodes := by
  match f with
  | ⟨isAsync, params, body⟩ =>
    exact ((Pattern.walksAll params).map₂ (Func.mk isAsync)
      ((Stmt.walksAll body).block body)).stop (.func _) rfl

theorem ClassBody.walks (c : ClassBody) :
    Walks act (c.visit (.performing act)) (c.traverse (.performing act)) c c.nodes := by
  match c with
  | ⟨none, members⟩ =>
    exact ((ClassMember.walksAll members).map (ClassBody.mk none)).stop (.classBody _) rfl
  | ⟨some superClass, members⟩ =>
    exact (superClass.walks.map₂ (fun superClass => ClassBody.mk (some superClass))
      (ClassMember.walksAll members)).stop (.classBody _) rfl

theorem ClassMember.walks (x : ClassMember) :
    Walks act (x.visit (.performing act)) (x.traverse (.performing act)) x x.nodes := by
  match x with
  | .method key body isStatic =>
    exact key.walks.map₂ (ClassMember.method · · isStatic) body.walks
  | .field key none isStatic =>
    exact key.walks.map (ClassMember.field · none isStatic)
  | .field key (some value) isStatic =>
    exact key.walks.map₂ (fun key value => ClassMember.field key (some value) isStatic)
      value.walks

theorem ClassMember.walksAll (members : List ClassMember) :
    Walks act (ClassMember.visitAll (.performing act) members)
      (ClassMember.traverseAll (.performing act) members) members (ClassMember.nodesAll members) := by
  match members with
  | [] => exact .pure []
  | x :: rest => exact x.walks.map₂ List.cons (ClassMember.walksAll rest)

theorem Stmt.walks (s : Stmt) :
    Walks act (s.visit (.performing act)) (s.traverse (.performing act)) s s.nodes := by
  match s with
  | .block stmts =>
    exact (((Stmt.walksAll stmts).block stmts).map Stmt.block).stop (.stmt _) rfl
  | .decl decl => exact (decl.walks.map Stmt.decl).stop (.stmt _) rfl
  | .expr value => exact (value.walks.map Stmt.expr).stop (.stmt _) rfl
  | .ret none => exact (Walks.pure _).stop (.stmt _) rfl
  | .ret (some value) =>
    exact (value.walks.map fun value => Stmt.ret (some value)).stop (.stmt _) rfl
  | .branch test cons none =>
    exact (test.walks.map₂ (Stmt.branch · · none)
      cons.walks).stop (.stmt _) rfl
  | .branch test cons (some alt) =>
    exact (test.walks.map₃ (fun test cons alt => Stmt.branch test cons (some alt))
      cons.walks alt.walks).stop (.stmt _) rfl
  | .throw value => exact (value.walks.map Stmt.throw).stop (.stmt _) rfl
  | .empty => exact (Walks.pure _).stop (.stmt _) rfl

theorem Stmt.walksAll (stmts : List Stmt) :
    Walks act (Stmt.visitAll (.performing act) stmts)
      (Stmt.traverseAll (.performing act) stmts) stmts (Stmt.nodesAll stmts) := by
  match stmts with
  | [] => exact .pure []
  | s :: rest => exact s.walks.map₂ List.cons (Stmt.walksAll rest)

theorem Decl.walks (d : Decl) :
    Walks act (d.visit (.performing act)) (d.traverse (.performing act)) d d.nodes := by
  match d with
  | .var kind declarators =>
    exact ((Declarator.walksAll declarators).map (Decl.var kind)).stop (.decl _) rfl
  | .func name body => exact (body.walks.map (Decl.func name)).stop (.decl _) rfl
  | .classDecl name body =>
    exact ((body.walks.map (Decl.classDecl name)).pass (.classDecl name) rfl).stop
      (.decl _) rfl
  | .typeDecl name => exact (Walks.pure _).stop (.decl _) rfl

theorem Declarator.walks (d : Declarator) :
    Walks act (d.visit (.performing act)) (d.traverse (.performing act)) d d.nodes := by
  match d with
  | ⟨target, none⟩ => exact target.walks.map (Declarator.mk · none)
  | ⟨target, some value⟩ =>
    exact target.walks.map₂ (fun target value => Declarator.mk target (some value))
      value.walks

theorem Declarator.walksAll (declarators : List Declarator) :
    Walks act (Declarator.visitAll (.performing act) declarators)
      (Declarator.traverseAll (.performing act) declarators) declarators (Declarator.nodesAll declarators) := by
  match declarators with
  | [] => exact .pure []
  | d :: rest => exact d.walks.map₂ List.cons (Declarator.walksAll rest)

theorem Element.walks (e : Element) :
    Walks act (e.visit (.performing act)) (e.traverse (.performing act)) e e.nodes := by
  match e with
  | ⟨name, attributes, children, selfClosing⟩ =>
    exact ((Attribute.walksAll attributes).map₂ (Element.mk name · · selfClosing)
      (Child.walksAll children)).stop (.element _) rfl

theorem Attribute.walks (a : Attribute) :
    Walks act (a.visit (.performing act)) (a.traverse (.performing act)) a a.nodes := by
  match a with
  | .named name none => exact .pure _
  | .named name (some value) =>
    exact value.walks.map fun value => Attribute.named name (some value)
  | .spread value => exact value.walks.map Attribute.spread

theorem Attribute.walksAll (attributes : List Attribute) :
    Walks act (Attribute.visitAll (.performing act) attributes)
      (Attribute.traverseAll (.performing act) attributes) attributes (Attribute.nodesAll attributes) := by
  match attributes with
  | [] => exact .pure []
  | a :: rest => exact a.walks.map₂ List.cons (Attribute.walksAll rest)

theorem AttributeValue.walks (v : AttributeValue) :
    Walks act (v.visit (.performing act)) (v.traverse (.performing act)) v v.nodes := by
  match v with
  | .string lit => exact .pure _
  | .expr value => exact value.walks.map AttributeValue.expr
  | .element element => exact element.walks.map AttributeValue.element

theorem Child.walks (c : Child) :
    Walks act (c.visit (.performing act)) (c.traverse (.performing act)) c c.nodes := by
  match c with
  | .text raw => exact .pure _
  | .expr none => exact .pure _
  | .expr (some value) => exact value.walks.map fun value => Child.expr (some value)
  | .element element => exact element.walks.map Child.element

theorem Child.walksAll (children : List Child) :
    Walks act (Child.visitAll (.performing act) children)
      (Child.traverseAll (.performing act) children) children (Child.nodesAll children) := by
  match children with
  | [] => exact .pure []
  | c :: rest => exact c.walks.map₂ List.cons (Child.walksAll rest)

end

/-! ## Modules -/

theorem DefaultExport.walks (d : DefaultExport) :
    Walks act (d.visit (.performing act)) (d.traverse (.performing act)) d d.nodes := by
  match d with
  | .func name body => exact body.walks.map (DefaultExport.func name)
  | .classDef name body => exact body.walks.map (DefaultExport.classDef name)
  | .expr value => exact value.walks.map DefaultExport.expr

theorem Export.walks (x : Export) :
    Walks act (x.visit (.performing act)) (x.traverse (.performing act)) x x.nodes := by
  match x with
  | .decl d => exact d.walks.map Export.decl
  | .default value => exact value.walks.map Export.default
  | .list _ _ | .all _ => exact .pure _

theorem Item.walks (x : Item) :
    Walks act (x.visit (.performing act)) (x.traverse (.performing act)) x x.nodes := by
  match x with
  | .imports decl => exact ((Walks.pure _).pass (.imports decl) rfl).stop (.item _) rfl
  | .exports decl => exact (decl.walks.map Item.exports).stop (.item _) rfl
  | .stmt s => exact (s.walks.map Item.stmt).stop (.item _) rfl

theorem Item.walksAll (items : List Item) :
    Walks act (items.forM (Item.visit (.performing act)))
      (items.mapM (Item.traverse (.performing act))) items (items.flatMap Item.nodes) := by
  induction items with
  | nil => exact .pure []
  | cons x items ih =>
    rw [List.mapM_cons, List.flatMap_cons]
    exact x.walks.map₂ List.cons ih

/-- A traversal that does something at each site does this in the order of a visit, and leaves the
module as it is. -/
theorem Program.walks (p : Program) :
    Walks act (p.visit (.performing act)) (p.traverse (.performing act)) p p.nodes :=
  (Item.walksAll p.body).map Program.mk

end

/-! ## Logs -/

section

variable {ε : Type}

/-- Writes a site to a log, the newest first. -/
def Site.log (entry : Site → ε) (s : Site) : StateM (List ε) Unit :=
  modify (entry s :: ·)

theorem Site.run_forM_log (entry : Site → ε) (sites : List Site) (log : List ε) :
    (sites.forM (Site.log entry)).run log = ((), (sites.map entry).reverse ++ log) := by
  induction sites generalizing log with
  | nil => rfl
  | cons s sites ih =>
    have hstep : ((s :: sites).forM (Site.log entry)).run log =
        (sites.forM (Site.log entry)).run (entry s :: log) := rfl
    rw [hstep, ih]
    simp

/-- The log of a visit that writes down every site. -/
def Program.visitLog (entry : Site → ε) (p : Program) : List ε :=
  ((p.visit (.performing (Site.log entry))).run []).2.reverse

/-- A module after a walk that logs every site, and the log. -/
def Program.traverseLog (entry : Site → ε) (p : Program) : Program × List ε :=
  let (program, log) := (p.traverse (.performing (Site.log entry))).run []
  (program, log.reverse)

/-- The lines of a visit are the lines of its sites. -/
theorem Program.visitLines_eq (p : Program) : p.visitLines = p.visitLog Site.line := rfl

/-- So are those of a walk. -/
theorem Program.traverseTrace_eq (p : Program) : p.traverseTrace = p.traverseLog Site.line := rfl

/-- A walk that logs every site leaves the module as it is, and its log has the sites of a visit
that a traversal has a hook for, in the same order. But for blocks they are the listed nodes. -/
theorem Program.logs_eq (entry : Site → ε) (p : Program) :
    ∃ sites : List Site, p.visitLog entry = sites.map entry ∧
      p.traverseLog entry = (p, (sites.filter Site.hasHook).map entry) ∧
      sites.filterMap Site.node? = p.nodes := by
  have hwalks : Walks (Site.log entry) _ _ p p.nodes := p.walks
  obtain ⟨sites, hvisit, hwalk, hnodes⟩ := hwalks
  refine ⟨sites, ?_, ?_, hnodes⟩
  · rw [Program.visitLog, hvisit, Site.run_forM_log]
    simp
  · have hrun : (p.traverse (.performing (Site.log entry))).run [] =
        (p, ((sites.filter Site.hasHook).map entry).reverse ++ []) := by
      rw [hwalk, StateT.run_bind, Site.run_forM_log]
      rfl
    simp [Program.traverseLog, hrun]

end

/-! ## Lines -/

/-- Whether a line is that of an import or of the name of a class declaration. -/
def isVisitLine (line : String) : Bool :=
  "import ".toList.isPrefixOf line.toList || "class_decl ".toList.isPrefixOf line.toList

theorem Site.isVisitLine_line (s : Site) : isVisitLine s.line = !s.hasHook := by
  cases s with
  | block stmts => exact (by decide : isVisitLine "block" = false)
  | node n => cases n <;> (simp only [isVisitLine, Site.line, Node.line, String.toList_append]; rfl)

theorem Site.filter_line (sites : List Site) :
    (sites.map Site.line).filter (!isVisitLine ·) = (sites.filter Site.hasHook).map Site.line := by
  rw [List.filter_map]
  congr 2
  funext s
  simp [s.isVisitLine_line]

/-- A visit and a traversal go through the same module in the same order. A traversal that logs
everything it stops at and takes the walk as it is returns the module unchanged, and its log is that
of a visit that logs everything it stops at, imports and names of class declarations apart. The same
holds of the lines that the two write. -/
theorem Program.traverse_followsVisit (p : Program) :
    p.traverseLog id = (p, (p.visitLog id).filter Site.hasHook) ∧
      p.traverseTrace = (p, p.visitLines.filter (!isVisitLine ·)) := by
  obtain ⟨sites, hvisit, hwalk, -⟩ := p.logs_eq id
  obtain ⟨sites', hlines, htrace, -⟩ := p.logs_eq Site.line
  rw [p.traverseTrace_eq, p.visitLines_eq, hvisit, hwalk, hlines, htrace, Site.filter_line]
  simp

/-- Both stop at a block: the lines of the traversal without those of blocks are not the lines of
the visit without imports and names of class declarations. -/
theorem Program.visit_stopsAtBlock :
    ¬ ∀ p : Program,
      p.traverseTrace.2.filter (· != "block") = p.visitLines.filter (!isVisitLine ·) := by
  intro h
  have hblock := h ⟨[.stmt (.block [])]⟩
  revert hblock
  decide

/-- The listed nodes are what a visit stops at, blocks apart. -/
theorem Program.filterMap_visitLog (p : Program) :
    (p.visitLog id).filterMap Site.node? = p.nodes := by
  obtain ⟨sites, hvisit, -, hnodes⟩ := p.logs_eq id
  simpa [hvisit] using hnodes

end TsxCompiler
