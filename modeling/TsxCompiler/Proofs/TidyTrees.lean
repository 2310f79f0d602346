import TsxCompiler.Print.Tree
import TsxCompiler.Proofs.QuotedValues
import TsxCompiler.Proofs.WellFormed

/-!
# Tidy trees

A tree is tidy when the names in it open neither a string nor a comment and its literals are written
as clean text. Whether it may hold markup is a parameter: markup is text of another kind, so what is
said about printing is said of trees without it. Every tree that the grammar leaves is tidy, with
markup (`Node.Written.tidy`).
-/

namespace TsxCompiler

open Grammar (isName isBody IsNumeral isTemplateText)
open Highlight
open Text (isIdentifier)

/-! ## Texts -/

/-- A text that opens neither a string nor a comment. -/
def isPlain (text : String) : Bool :=
  text.toList.all opensNothing

/-- A text with closed strings only and without comments. -/
def IsClean (text : String) : Prop :=
  Clean text.toList

theorem IsClean.ofPlain {text : String} (h : isPlain text = true) : IsClean text :=
  Clean.ofPlain h

theorem IsClean.append {a b : String} (ha : IsClean a) (hb : IsClean b) : IsClean (a ++ b) := by
  rw [IsClean, String.toList_append]
  exact Clean.append ha hb

/-! ## Nodes -/

def PropertyKey.Tidy : PropertyKey → Prop
  | .ident text | .number text => isPlain text = true
  | .string lit => IsClean lit.print
  | .computed _ => True

def MemberKey.Tidy : MemberKey → Prop
  | .ident name => isPlain name = true
  | .computed _ => True

def Property.Tidy : Property → Prop
  | .keyed key _ => key.Tidy
  | .shorthand name => isPlain name = true
  | .spread _ => True

def PatternProperty.Tidy : PatternProperty → Prop
  | .keyed key _ => key.Tidy
  | .shorthand name _ => isPlain name = true
  | .rest _ => True

def ClassMember.Tidy : ClassMember → Prop
  | .method key _ _ | .field key _ _ => key.Tidy

def Attribute.Tidy : Attribute → Prop
  | .named _ (some (.string lit)) => IsClean lit.print
  | _ => True

def ImportSpecifier.Tidy : ImportSpecifier → Prop
  | .default binding | .star binding => isPlain binding = true
  | .named binding imported => isPlain binding = true ∧ ∀ x ∈ imported, isPlain x = true

structure ExportSpecifier.Tidy (s : ExportSpecifier) : Prop where
  binding : isPlain s.binding = true
  exported : ∀ x ∈ s.exported, isPlain x = true

structure Import.Tidy (i : Import) : Prop where
  specifiers : ∀ s ∈ i.specifiers, s.Tidy
  source : IsClean i.source.print

def Export.Tidy : Export → Prop
  | .default (.func name _) | .default (.classDef name _) => ∀ x ∈ name, isPlain x = true
  | .list specifiers source =>
    (∀ s ∈ specifiers, s.Tidy) ∧ ∀ lit ∈ source, IsClean lit.print
  | .all source => IsClean source.print
  | _ => True

def Pattern.Tidy : Pattern → Prop
  | .ident name => isPlain name = true
  | .object props => ∀ p ∈ props, p.Tidy
  | _ => True

def Expr.Tidy (markup : Bool) : Expr → Prop
  | .ident name => isPlain name = true
  | .lit value => IsClean value.print
  | .object props => ∀ p ∈ props, p.Tidy
  | .func name _ | .classExpr name _ => ∀ x ∈ name, isPlain x = true
  | .member _ key _ => key.Tidy
  | .jsx _ => markup = true
  | _ => True

def Decl.Tidy : Decl → Prop
  | .func name _ | .classDecl name _ => isPlain name = true
  | _ => True

structure Element.Tidy (e : Element) : Prop where
  name : ∀ x ∈ e.name, isPlain x = true
  attributes : ∀ a ∈ e.attributes, a.Tidy

/-- What a node itself adds to the text; its parts are nodes of their own. -/
def Node.Tidy (markup : Bool) : Node → Prop
  | .item (.exports d) => d.Tidy
  | .imports d => d.Tidy
  | .decl d => d.Tidy
  | .classBody body => ∀ m ∈ body.members, m.Tidy
  | .pattern p => p.Tidy
  | .expr e => e.Tidy markup
  | .element e => e.Tidy
  | .item _ | .stmt _ | .classDecl _ | .func _ => True

attribute [simp] Node.Tidy Expr.Tidy Pattern.Tidy Decl.Tidy

/-- Every node of a list is tidy. -/
abbrev AllTidy (markup : Bool) : List Node → Prop := AllNodes (Node.Tidy markup)

/-! ## What was written is tidy -/

theorem opensNothing_of_isWordPart {c : Char} (h : Text.isWordPart c = true) :
    opensNothing c = true := by
  have hall : (['\'', '"', '\x60', '/'].all fun x => !Text.isWordPart x) = true := by decide
  rw [List.all_eq_true] at hall
  have hc : c ∉ ['\'', '"', '\x60', '/'] := by
    intro hmem
    simpa [h] using hall c hmem
  simp only [List.mem_cons, List.not_mem_nil, or_false, not_or] at hc
  simp [opensNothing, isQuote, hc]

theorem opensNothing_of_isDigit {c : Char} (h : c.isDigit = true) : opensNothing c = true :=
  Grammar.forall_isDigit (P := fun c => opensNothing c = true) (by decide) h

theorem isPlain_of_isIdentifier {name : String} (h : isIdentifier name = true) :
    isPlain name = true := by
  have hall := Grammar.all_of_isIdentifier h
  rw [List.all_eq_true] at hall
  rw [isPlain, List.all_eq_true]
  intro c hc
  exact opensNothing_of_isWordPart (hall c hc)

theorem isPlain_of_isName {name : String} (h : isName name = true) : isPlain name = true := by
  simp only [isName, Bool.and_eq_true] at h
  exact isPlain_of_isIdentifier h.1

theorem isPlain_of_isNumeral {text : String} (h : IsNumeral text) : isPlain text = true :=
  Grammar.all_of_isNumeral h (fun _ => opensNothing_of_isDigit) rfl

theorem isPlain_of_isTagName {name : String} (h : isTagName name = true) : isPlain name = true := by
  rw [isTagName, List.all_eq_true] at h
  rw [isPlain, List.all_eq_true]
  intro c hc
  have hchar := h c hc
  simp only [Bool.or_eq_true, beq_iff_eq] at hchar
  rcases hchar with (hword | rfl) | rfl
  · exact opensNothing_of_isWordPart hword
  · rfl
  · rfl

theorem StringLit.isClean_of_isSpelled {lit : StringLit} (h : Grammar.IsSpelled lit) :
    IsClean lit.print := by
  obtain ⟨quote, body, hquote, hbody, hraw, -⟩ := h
  have hopen : isQuote quote = true := by
    rcases hquote with rfl | rfl <;> rfl
  rw [IsClean, StringLit.print, hraw, String.toList_ofList]
  exact .ofClosed ⟨quote, body, hopen, isBody_ne_quote hbody, rfl⟩

theorem Literal.isClean_of_wellFormed {value : Literal} (h : value.WellFormed) :
    IsClean value.print := by
  cases value with
  | string lit => exact lit.isClean_of_isSpelled h
  | number text => exact .ofPlain (isPlain_of_isNumeral h)
  | bool b => cases b <;> exact .ofPlain rfl
  | null => exact .ofPlain rfl
  | template raw =>
    simp only [Literal.WellFormed, isTemplateText, Bool.and_eq_true] at h
    have hends : isBody (· != '\x60') raw.toList = true := by
      refine isBody_mono (fun c hc => ?_) h.1
      simp only [Grammar.isTemplateChar, Grammar.backquote, Bool.and_eq_true] at hc
      exact hc.1
    rw [IsClean, Literal.print, String.toList_append, String.toList_append]
    exact .ofClosed ⟨'\x60', raw.toList, rfl, hends, by simp⟩

theorem PropertyKey.WellFormed.tidy {key : PropertyKey} (h : key.WellFormed) : key.Tidy := by
  cases key with
  | ident name => exact isPlain_of_isIdentifier h
  | string lit => exact lit.isClean_of_isSpelled h
  | number text => exact isPlain_of_isNumeral h
  | computed value => trivial

theorem Expr.WellFormed.tidy {e : Expr} (h : e.WellFormed) : e.Tidy true := by
  cases e with
  | ident name => exact isPlain_of_isName h
  | lit value => exact value.isClean_of_wellFormed h
  | object props =>
    intro p hp
    have hwell := h p hp
    cases p with
    | keyed key value => exact PropertyKey.WellFormed.tidy hwell
    | shorthand name => exact isPlain_of_isName hwell
    | spread value => trivial
  | func name body => exact fun x hx => isPlain_of_isName (h x hx)
  | classExpr name body => exact fun x hx => isPlain_of_isName (h x hx)
  | member object key optional =>
    cases key with
    | ident name => exact isPlain_of_isIdentifier h
    | computed value => trivial
  | jsx element => rfl
  | _ => trivial

theorem Pattern.WellFormed.tidy {p : Pattern} (h : p.WellFormed) : p.Tidy := by
  cases p with
  | ident name => exact isPlain_of_isName h
  | object props =>
    intro p hp
    have hwell := h p hp
    cases p with
    | keyed key target => exact PropertyKey.WellFormed.tidy hwell
    | shorthand name value => exact isPlain_of_isName hwell
    | rest target => trivial
  | _ => trivial

theorem Export.WellFormed.tidy {d : Export} (h : d.WellFormed) : d.Tidy := by
  cases d with
  | decl d => trivial
  | default value =>
    cases value with
    | func name body => exact fun x hx => isPlain_of_isName (h x hx)
    | classDef name body => exact fun x hx => isPlain_of_isName (h x hx)
    | expr value => trivial
  | list specifiers source =>
    refine ⟨fun s hs => ?_, fun lit hlit => lit.isClean_of_isSpelled (h.2 lit hlit)⟩
    obtain ⟨hbinding, hexported⟩ := h.1 s hs
    exact ⟨isPlain_of_isIdentifier hbinding, fun x hx => isPlain_of_isIdentifier (hexported x hx)⟩
  | all source => exact source.isClean_of_isSpelled h

theorem ImportSpecifier.IsSpelled.tidy {s : ImportSpecifier} (h : s.IsSpelled) : s.Tidy := by
  cases s with
  | default binding => exact isPlain_of_isIdentifier h
  | star binding => exact isPlain_of_isIdentifier h
  | named binding imported =>
    exact ⟨isPlain_of_isIdentifier h.1, fun x hx => isPlain_of_isIdentifier (h.2 x hx)⟩

theorem Attribute.WellFormed.tidy {a : Attribute} (h : a.WellFormed) : a.Tidy := by
  unfold Attribute.Tidy
  split
  · rename_i lit
    exact lit.isClean_of_isSpelled h
  · trivial

/-- A node as the grammar leaves it is tidy. -/
theorem Node.Written.tidy {n : Node} (h : n.Written) : n.Tidy true := by
  obtain ⟨hwell, hspelled⟩ := h
  cases n with
  | item x =>
    cases x with
    | exports d => exact Export.WellFormed.tidy hwell
    | _ => trivial
  | imports d =>
    exact ⟨fun s hs => (hspelled s hs).tidy, d.source.isClean_of_isSpelled hwell.source⟩
  | decl d =>
    cases d with
    | func name body => exact isPlain_of_isName hwell
    | classDecl name body => exact isPlain_of_isName hwell
    | _ => trivial
  | classBody body =>
    intro m hm
    have hmember := hwell m hm
    cases m with
    | method key body isStatic => exact PropertyKey.WellFormed.tidy hmember
    | field key value isStatic => exact PropertyKey.WellFormed.tidy hmember
  | pattern p => exact Pattern.WellFormed.tidy hwell
  | expr e => exact Expr.WellFormed.tidy hwell
  | element e =>
    exact ⟨fun x hx => isPlain_of_isTagName (hspelled x hx), fun a ha => (hwell.attributes a ha).tidy⟩
  | _ => trivial

/-! ## Quoted values -/

/-- A quoted value is a closed string. -/
theorem isClean_quote (value : String) : IsClean (Text.quote value) := by
  rw [IsClean, toList_quote]
  exact .ofClosed ⟨'"', _, rfl, isBody_ne_quote (isBody_quoteBody value), rfl⟩

end TsxCompiler
