import TsxCompiler.Tree.Preorder
import TsxCompiler.Tree.Traverse
import TsxCompiler.Tree.Visit

/-!
# Traces

What a visit and what a traversal come across, as a list of lines.
-/

namespace TsxCompiler

namespace Item

def kind : Item → String
  | .imports _ => "Import"
  | .exports _ => "Export"
  | .stmt _ => "Stmt"

end Item

namespace Stmt

def kind : Stmt → String
  | .block _ => "Block"
  | .decl _ => "Decl"
  | .expr _ => "Expr"
  | .ret _ => "Return"
  | .branch .. => "If"
  | .throw _ => "Throw"
  | .empty => "Empty"

end Stmt

namespace Decl

def kind : Decl → String
  | .var kind _ => kind.keyword
  | .func .. => "Fn"
  | .classDecl .. => "Class"
  | .typeDecl _ => "TsType"

end Decl

namespace Pattern

def kind : Pattern → String
  | .ident name => "Ident " ++ name
  | .array _ => "Array"
  | .object _ => "Object"
  | .withDefault .. => "Assign"
  | .rest _ => "Rest"

end Pattern

namespace Expr

def kind : Expr → String
  | .this => "This"
  | .ident name => "Ident " ++ name
  | .lit _ => "Lit"
  | .array _ => "Array"
  | .object _ => "Object"
  | .func .. => "Fn"
  | .arrow .. => "Arrow"
  | .classExpr .. => "Class"
  | .call .. => "Call"
  | .new .. => "New"
  | .member .. => "Member"
  | .unary op _ => "Unary " ++ op.symbol
  | .binary op _ _ => "Bin " ++ op.symbol
  | .cond .. => "Cond"
  | .assign op _ _ => "Assign " ++ op.symbol
  | .jsx _ => "Jsx"

end Expr

/-- The tag of an element; a fragment has the empty tag. -/
def Element.tag (e : Element) : String :=
  match e.name with
  | some name => name
  | none => "<>"

/-- The line for a node. -/
def Node.line : Node → String
  | .item i => "item " ++ i.kind
  | .imports i => "import " ++ i.source.value
  | .stmt s => "stmt " ++ s.kind
  | .decl d => "decl " ++ d.kind
  | .classDecl name => "class_decl " ++ name
  | .func _ => "function"
  | .classBody _ => "class"
  | .pattern p => "pat " ++ p.kind
  | .expr e => "expr " ++ e.kind
  | .element e => "jsx " ++ e.tag

/-- Adds a line to a trace, the newest first. -/
def note (line : String) : StateM (List String) Unit :=
  modify (line :: ·)

/-- The visitor that notes everything it stops at before the parts. -/
def Visitor.noting : Visitor (StateM (List String)) where
  item i parts := do note (Node.line (.item i)); parts
  imports i parts := do note (Node.line (.imports i)); parts
  stmt s parts := do note (Node.line (.stmt s)); parts
  block _ parts := do note "block"; parts
  decl d parts := do note (Node.line (.decl d)); parts
  classDecl name parts := do note (Node.line (.classDecl name)); parts
  func f parts := do note (Node.line (.func f)); parts
  classBody c parts := do note (Node.line (.classBody c)); parts
  pattern p parts := do note (Node.line (.pattern p)); parts
  expr e parts := do note (Node.line (.expr e)); parts
  element e parts := do note (Node.line (.element e)); parts

/-- The lines of a visit. -/
def Program.visitLines (p : Program) : List String :=
  ((p.visit Visitor.noting).run []).2.reverse

/-- The lines of a visit that leaves out blocks. -/
def Program.visitTrace (p : Program) : List String :=
  p.visitLines.filter (· != "block")

/-- The traversal that changes nothing and notes everything it stops at before the parts. -/
def Traversal.noting : Traversal (StateM (List String)) where
  item i walk := do note (Node.line (.item i)); walk
  stmt s walk := do note (Node.line (.stmt s)); walk
  block _ walk := do note "block"; walk
  decl d walk := do note (Node.line (.decl d)); walk
  func f walk := do note (Node.line (.func f)); walk
  classBody c walk := do note (Node.line (.classBody c)); walk
  pattern p walk := do note (Node.line (.pattern p)); walk
  expr e walk := do note (Node.line (.expr e)); walk
  element e walk := do note (Node.line (.element e)); walk

/-- A module after a walk that notes every node, and the lines of the walk. -/
def Program.traverseTrace (p : Program) : Program × List String :=
  let (program, lines) := (p.traverse Traversal.noting).run []
  (program, lines.reverse)

end TsxCompiler
