import TsxCompiler.Proofs.Lexemes
import TsxCompiler.Tree.Names
import TsxCompiler.Tree.Preorder

/-!
# Well-formed trees

A tree is well formed when each of its nodes is, and a node is well formed when the names,
literals and lists in it could have been written: names are words that are not reserved, literals
are spelled as the grammar spells them, and what is written between tags is kept as one text.
-/

namespace TsxCompiler

open Grammar (isName IsNumeral IsSpelled isTemplateText)
open Text (isIdentifier)

/-! ## Leaves and entries -/

/-- Numbers, strings and templates are spelled as they are in source text. -/
def Literal.WellFormed : Literal → Prop
  | .string lit => IsSpelled lit
  | .number text => IsNumeral text
  | .template raw => isTemplateText raw = true
  | .bool _ | .null => True

def PropertyKey.WellFormed : PropertyKey → Prop
  | .ident name => isIdentifier name = true
  | .string lit => IsSpelled lit
  | .number text => IsNumeral text
  | .computed _ => True

/-- A name behind `?.` or `.` is a word; a computed key is never optional. -/
def MemberKey.WellFormed (optional : Bool) : MemberKey → Prop
  | .ident name => isIdentifier name = true
  | .computed _ => optional = false

def Property.WellFormed : Property → Prop
  | .keyed key _ => key.WellFormed
  | .shorthand name => isName name = true
  | .spread _ => True

def PatternProperty.WellFormed : PatternProperty → Prop
  | .keyed key _ => key.WellFormed
  | .shorthand name _ => isName name = true
  | .rest _ => True

def ClassMember.WellFormed : ClassMember → Prop
  | .method key _ _ | .field key _ _ => key.WellFormed

def Attribute.WellFormed : Attribute → Prop
  | .named _ (some (.string lit)) => IsSpelled lit
  | _ => True

/-! ## Markup -/

def Child.isText : Child → Bool
  | .text _ => true
  | _ => false

/-- A text between tags has at least one character, and none that starts a tag or a container. -/
def Child.WellFormed : Child → Prop
  | .text raw => raw ≠ "" ∧ '<' ∉ raw.toList ∧ '\x7b' ∉ raw.toList
  | _ => True

/-- Whether no two texts follow each other. -/
def Child.textsApart : List Child → Bool
  | a :: b :: rest => !(a.isText && b.isText) && textsApart (b :: rest)
  | _ => true

structure Element.WellFormed (e : Element) : Prop where
  fragment_attributes : e.name = none → e.attributes = []
  fragment_open : e.name = none → e.selfClosing = false
  closed_children : e.selfClosing = true → e.children = []
  attributes : ∀ a ∈ e.attributes, a.WellFormed
  children : ∀ c ∈ e.children, c.WellFormed
  apart : Child.textsApart e.children = true

/-! ## Modules -/

/-- The specifiers that an import can have. -/
inductive ImportShape : List ImportSpecifier → Prop where
  | bare : ImportShape []
  | default (binding : String) : ImportShape [.default binding]
  | star (binding : String) : ImportShape [.star binding]
  | named {entries : List (String × Option String)} : entries ≠ [] →
    ImportShape (entries.map fun x => .named x.1 x.2)
  | defaultStar (binding all : String) : ImportShape [.default binding, .star all]
  | defaultNamed (binding : String) {entries : List (String × Option String)} : entries ≠ [] →
    ImportShape (.default binding :: entries.map fun x => .named x.1 x.2)

theorem clause_named (entries : List (String × Option String)) :
    ImportClause.ofSpecifiers (entries.map fun x => .named x.1 x.2) = ⟨none, none, entries⟩ := by
  have hnone : entries.filterMap (fun _ => (none : Option String)) = [] := by simp
  have hsome : entries.filterMap (fun x => some (x.1, x.2)) = entries := List.filterMap_some
  simp only [ImportClause.ofSpecifiers, List.filterMap_map, Function.comp_def, hnone, hsome,
    List.getLast?_nil]

theorem clause_defaultNamed (binding : String) (entries : List (String × Option String)) :
    ImportClause.ofSpecifiers (.default binding :: entries.map fun x => .named x.1 x.2) =
      ⟨some binding, none, entries⟩ := by
  have hnamed := clause_named entries
  simp only [ImportClause.ofSpecifiers, ImportClause.mk.injEq, List.getLast?_eq_none_iff]
    at hnamed
  obtain ⟨hdefault, hstar, hentries⟩ := hnamed
  simp only [ImportClause.ofSpecifiers, List.filterMap_cons, hdefault, hstar, hentries,
    List.getLast?_nil, List.getLast?_singleton]

structure Import.WellFormed (i : Import) : Prop where
  source : IsSpelled i.source
  specifiers : ImportShape i.specifiers

def Export.WellFormed : Export → Prop
  | .default (.func name _) | .default (.classDef name _) => ∀ x ∈ name, isName x = true
  | .list specifiers source =>
    (∀ s ∈ specifiers, isIdentifier s.binding = true ∧ ∀ x ∈ s.exported, isIdentifier x = true) ∧
      ∀ lit ∈ source, IsSpelled lit
  | .all source => IsSpelled source
  | _ => True

/-! ## Nodes -/

/-- Whether a pattern has a default. -/
def Pattern.isWithDefault : Pattern → Bool
  | .withDefault _ _ => true
  | _ => false

def Pattern.WellFormed : Pattern → Prop
  | .ident name => isName name = true
  | .object props => ∀ p ∈ props, p.WellFormed
  | .withDefault target _ => target.isWithDefault = false
  | .array _ | .rest _ => True

def Expr.WellFormed : Expr → Prop
  | .ident name => isName name = true
  | .lit value => value.WellFormed
  | .object props => ∀ p ∈ props, p.WellFormed
  | .func name _ | .classExpr name _ => ∀ x ∈ name, isName x = true
  | .member _ key optional => key.WellFormed optional
  | _ => True

def Decl.WellFormed : Decl → Prop
  | .var _ declarators => declarators ≠ []
  | .func name _ | .classDecl name _ | .typeDecl name => isName name = true

/-- What a node says itself; its parts are nodes of their own. -/
def Node.WellFormed : Node → Prop
  | .item (.exports d) => d.WellFormed
  | .imports d => d.WellFormed
  | .decl d => d.WellFormed
  | .classDecl name => isName name = true
  | .classBody body => ∀ m ∈ body.members, m.WellFormed
  | .pattern p => p.WellFormed
  | .expr e => e.WellFormed
  | .element e => e.WellFormed
  | .item _ | .stmt _ | .func _ => True

/-- The characters of tag names: words with dashes, joined by dots. -/
def isTagName (name : String) : Bool :=
  name.toList.all fun c => Text.isWordPart c || c == '-' || c == '.'

/-- The names of a specifier are words. -/
def ImportSpecifier.IsSpelled : ImportSpecifier → Prop
  | .default binding | .star binding => isIdentifier binding = true
  | .named binding imported => isIdentifier binding = true ∧ ∀ x ∈ imported, isIdentifier x = true

/-- The names that a node spells out without being about their shape. -/
def Node.IsSpelled : Node → Prop
  | .element e => ∀ name ∈ e.name, isTagName name = true
  | .imports d => ∀ s ∈ d.specifiers, s.IsSpelled
  | _ => True

/-- A node as the grammar leaves it. -/
def Node.Written (n : Node) : Prop :=
  n.WellFormed ∧ n.IsSpelled

/-- Whether a node is an element, or an expression that is one. -/
def Node.isMarkup : Node → Bool
  | .expr (.jsx _) | .element _ => true
  | _ => false

attribute [simp] Node.WellFormed Expr.WellFormed Pattern.WellFormed Decl.WellFormed Node.IsSpelled
  Node.Written

/-! ## Lists of nodes -/

attribute [simp] Expr.nodes Property.nodes PropertyKey.nodes MemberKey.nodes ArrowBody.nodes
  Pattern.nodes PatternProperty.nodes Func.nodes ClassBody.nodes ClassMember.nodes Stmt.nodes
  Decl.nodes Declarator.nodes Attribute.nodes AttributeValue.nodes Child.nodes

/-- Every node of a list has a property. -/
def AllNodes (P : Node → Prop) (nodes : List Node) : Prop :=
  ∀ n ∈ nodes, P n

section AllNodes

variable {P : Node → Prop}

@[simp] theorem allNodes_nil : AllNodes P [] := by
  simp [AllNodes]

@[simp] theorem allNodes_cons (n : Node) (ns : List Node) :
    AllNodes P (n :: ns) ↔ P n ∧ AllNodes P ns := by
  simp [AllNodes]

@[simp] theorem allNodes_append (ms ns : List Node) :
    AllNodes P (ms ++ ns) ↔ AllNodes P ms ∧ AllNodes P ns := by
  simp [AllNodes, or_imp, forall_and]

theorem AllNodes.cons {n : Node} {ns : List Node} (hn : P n) (hns : AllNodes P ns) :
    AllNodes P (n :: ns) :=
  (allNodes_cons n ns).2 ⟨hn, hns⟩

theorem AllNodes.head {n : Node} {ns : List Node} (h : AllNodes P (n :: ns)) : P n :=
  ((allNodes_cons n ns).1 h).1

theorem AllNodes.tail {n : Node} {ns : List Node} (h : AllNodes P (n :: ns)) : AllNodes P ns :=
  ((allNodes_cons n ns).1 h).2

theorem AllNodes.append {ms ns : List Node} (hms : AllNodes P ms) (hns : AllNodes P ns) :
    AllNodes P (ms ++ ns) :=
  (allNodes_append ms ns).2 ⟨hms, hns⟩

theorem AllNodes.left {ms ns : List Node} (h : AllNodes P (ms ++ ns)) : AllNodes P ms :=
  ((allNodes_append ms ns).1 h).1

theorem AllNodes.right {ms ns : List Node} (h : AllNodes P (ms ++ ns)) : AllNodes P ns :=
  ((allNodes_append ms ns).1 h).2

@[simp] theorem allNodes_flatMap {α : Type} (xs : List α) (f : α → List Node) :
    AllNodes P (xs.flatMap f) ↔ ∀ x ∈ xs, AllNodes P (f x) := by
  simp only [AllNodes, List.mem_flatMap]
  constructor
  · intro h x hx n hn
    exact h n ⟨x, hx, hn⟩
  · rintro h n ⟨x, hx, hn⟩
    exact h x hx n hn

end AllNodes

/-- An expression is the first of its nodes. -/
theorem Expr.nodes_eq (e : Expr) : e.nodes = .expr e :: e.nodes.tail := by
  cases e with
  | new callee args => cases args <;> rfl
  | _ => rfl

theorem AllNodes.ofExpr {P : Node → Prop} {e : Expr} (h : AllNodes P e.nodes) : P (.expr e) := by
  rw [e.nodes_eq] at h
  exact h.head

/-- Every node of a list is well formed. -/
abbrev AllWellFormed : List Node → Prop := AllNodes Node.WellFormed

/-- Every node of a list is as the grammar leaves it. -/
abbrev AllWritten : List Node → Prop := AllNodes Node.Written

section Rows

@[simp] theorem Argument.nodesAll_eq (xs : List Argument) :
    Argument.nodesAll xs = xs.flatMap fun x => x.value.nodes := by
  induction xs with
  | nil => simp [Argument.nodesAll]
  | cons x xs ih =>
    obtain ⟨spread, value⟩ := x
    simp [Argument.nodesAll, ih]

@[simp] theorem Property.nodesAll_eq (xs : List Property) :
    Property.nodesAll xs = xs.flatMap Property.nodes := by
  induction xs with
  | nil => simp [Property.nodesAll]
  | cons x xs ih => simp [Property.nodesAll, ih]

@[simp] theorem Pattern.nodesAll_eq (xs : List Pattern) :
    Pattern.nodesAll xs = xs.flatMap Pattern.nodes := by
  induction xs with
  | nil => simp [Pattern.nodesAll]
  | cons x xs ih => simp [Pattern.nodesAll, ih]

@[simp] theorem PatternProperty.nodesAll_eq (xs : List PatternProperty) :
    PatternProperty.nodesAll xs = xs.flatMap PatternProperty.nodes := by
  induction xs with
  | nil => simp [PatternProperty.nodesAll]
  | cons x xs ih => simp [PatternProperty.nodesAll, ih]

@[simp] theorem ClassMember.nodesAll_eq (xs : List ClassMember) :
    ClassMember.nodesAll xs = xs.flatMap ClassMember.nodes := by
  induction xs with
  | nil => simp [ClassMember.nodesAll]
  | cons x xs ih => simp [ClassMember.nodesAll, ih]

@[simp] theorem Stmt.nodesAll_eq (xs : List Stmt) :
    Stmt.nodesAll xs = xs.flatMap Stmt.nodes := by
  induction xs with
  | nil => simp [Stmt.nodesAll]
  | cons x xs ih => simp [Stmt.nodesAll, ih]

@[simp] theorem Declarator.nodesAll_eq (xs : List Declarator) :
    Declarator.nodesAll xs = xs.flatMap Declarator.nodes := by
  induction xs with
  | nil => simp [Declarator.nodesAll]
  | cons x xs ih => simp [Declarator.nodesAll, ih]

@[simp] theorem Attribute.nodesAll_eq (xs : List Attribute) :
    Attribute.nodesAll xs = xs.flatMap Attribute.nodes := by
  induction xs with
  | nil => simp [Attribute.nodesAll]
  | cons x xs ih => simp [Attribute.nodesAll, ih]

@[simp] theorem Child.nodesAll_eq (xs : List Child) :
    Child.nodesAll xs = xs.flatMap Child.nodes := by
  induction xs with
  | nil => simp [Child.nodesAll]
  | cons x xs ih => simp [Child.nodesAll, ih]

end Rows

end TsxCompiler
