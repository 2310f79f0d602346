import TsxCompiler.Proofs.ConditionalArrows
import TsxCompiler.Proofs.NestingScan
import TsxCompiler.Proofs.Tags
import TsxCompiler.Tree.Preorder

/-!
# Elements inside elements

The scan before reading takes `<` for a tag only behind a character that leaves room for an
expression, and the text between two tags seldom ends with one. So a tag behind a word is not
counted, while the closing tags are, and elements with a word before each inner one are read at any
depth.

* `run_element_nested` — the grammar reads such elements, whatever follows them;
* `Nesting.excess_nestedText` — the scan never counts more than one open element in them;
* `parse_nestedElements` — so the module is accepted, with an element at any depth.
-/

/-! ## How deep an element lies -/

namespace TsxCompiler

/-- The nodes in the attributes and between the tags of an element. -/
def Element.innerNodes (e : Element) : List Node :=
  Attribute.nodesAll e.attributes ++ Child.nodesAll e.children

/-- An element of a module that lies inside so many others, or more. -/
inductive Program.ElementInside (p : Program) : Nat → Element → Prop
  | outer {e : Element} (h : Node.element e ∈ p.nodes) : p.ElementInside 0 e
  | inner {n : Nat} {around e : Element} (haround : p.ElementInside n around)
      (h : Node.element e ∈ around.innerNodes) : p.ElementInside (n + 1) e

/-! ## The elements and their text -/

/-- An element around so many others of its name, with a word in front of each. -/
def nestedElement (name word : String) : Nat → Element
  | 0 => ⟨some name, [], [.text word], false⟩
  | n + 1 => ⟨some name, [], [.text word, .element (nestedElement name word n)], false⟩

/-- `</name>` -/
def closingText (name : String) : List Char :=
  '<' :: '/' :: (name.toList ++ ['>'])

/-- A content between its tags. -/
def taggedText (name : String) (content : List Char) : List Char :=
  '<' :: (name.toList ++ '>' :: (content ++ closingText name))

def nestedText (name word : String) : Nat → List Char
  | 0 => taggedText name word.toList
  | n + 1 => taggedText name (word.toList ++ nestedText name word n)

/-- The module of one expression, the nested elements. -/
def nestedModule (name word : String) (n : Nat) : Program :=
  ⟨[.stmt (.expr (.jsx (nestedElement name word n)))]⟩

theorem nestedText_eq_cons (name word : String) (n : Nat) :
    ∃ t, nestedText name word n = '<' :: t := by
  cases n <;> exact ⟨_, rfl⟩

theorem element_mem_nodes (e : Element) : Node.element e ∈ e.nodes := by
  obtain ⟨name, attributes, children, selfClosing⟩ := e
  simp [Element.nodes]

/-- The element at a level of the tower lies inside those above it. -/
theorem elementInside_nested (name word : String) {n k : Nat} (hk : k ≤ n) :
    (nestedModule name word n).ElementInside k (nestedElement name word (n - k)) := by
  induction k with
  | zero =>
    refine .outer ?_
    simp [nestedModule, Program.nodes, Item.nodes, Stmt.nodes, Expr.nodes, element_mem_nodes]
  | succ k ih =>
    have hlevel : n - k = (n - (k + 1)) + 1 := by omega
    have haround := ih (by omega)
    rw [hlevel] at haround
    refine .inner haround ?_
    simp [nestedElement, Element.innerNodes, Child.nodes, element_mem_nodes]

end TsxCompiler

/-! ## Reading -/

namespace TsxCompiler.Grammar

open Peg Peg.Parser Text

variable {name word : String} {E : Parser Expr}

/-- A word is such a text. -/
theorem isChildChar_word (hword : isIdentifier word = true) :
    word.toList.all isChildChar = true ∧ word.toList ≠ [] := by
  have hall := all_of_isIdentifier hword
  constructor
  · rw [List.all_eq_true] at hall ⊢
    intro c hc
    have hpart := hall c hc
    simp only [isChildChar, Bool.and_eq_true, bne_iff_ne]
    constructor <;> rintro rfl <;> exact absurd hpart (by decide)
  · obtain ⟨c, cs, hc, -⟩ := exists_of_isIdentifier hword
    simp [hc]

theorem closingText_append (name : String) (rest : List Char) :
    closingText name ++ rest = '<' :: '/' :: (name.toList ++ '>' :: rest) := by
  simp [closingText]

variable [Shrinks E]

/-- An element is read with the children that are read between its tags. -/
theorem run_element_tagged (hname : isIdentifier name = true) {content rest : List Char}
    {children : List Child}
    (h : run (many (child E (element E))) (content ++ (closingText name ++ rest)) =
      some (children, closingText name ++ rest)) :
    run (element E) (taggedText name content ++ rest) =
      some (⟨some name, [], children, false⟩, rest) := by
  have htag : IsTag name := (isSegment_of_isIdentifier hname).isTag
  have htext : taggedText name content ++ rest =
      '<' :: (name.toList ++ '>' :: (content ++ (closingText name ++ rest))) := by
    simp [taggedText]
  have hskip : skip ('>' :: (content ++ (closingText name ++ rest))) =
      '>' :: (content ++ (closingText name ++ rest)) := skip_cons (by decide) (by decide) _
  have hattributes : run (many (elementAttribute E (element E)))
      (skip ('>' :: (content ++ (closingText name ++ rest)))) =
        some ([], '>' :: (content ++ (closingText name ++ rest))) := by
    rw [hskip]
    exact run_many_none (run_elementAttribute_none (by decide) (by decide) _)
  rw [closingText_append] at h hattributes
  rw [htext, closingText_append]
  refine run_element_tag htag rfl hattributes (run_elementBody_children htag h) ?_
  simp [closeElement]

/-- An element around a text. -/
theorem run_element_text (hname : isIdentifier name = true) {content : String}
    (hplain : content.toList.all isChildChar = true) (hne : content.toList ≠ [])
    (rest : List Char) :
    run (element E) (taggedText name content.toList ++ rest) =
      some (⟨some name, [], [.text content], false⟩, rest) := by
  refine run_element_tagged hname ?_
  rw [closingText_append, run_many_step (run_child_text hplain hne (by simp [isChildChar])),
    run_many_none (run_child_closing (.inr (isSegment_of_isIdentifier hname).isTag) rest)]
  rfl

/-- By induction over the depth: the children are a word, the inner element and nothing more, for the
closing tag is no child. -/
theorem run_element_nested (hname : isIdentifier name = true) (hword : isIdentifier word = true)
    (n : Nat) (rest : List Char) :
    run (element E) (nestedText name word n ++ rest) = some (nestedElement name word n, rest) := by
  obtain ⟨hplain, hne⟩ := isChildChar_word hword
  induction n generalizing rest with
  | zero => exact run_element_text hname hplain hne rest
  | succ n ih =>
    refine run_element_tagged hname ?_
    obtain ⟨t, ht⟩ := nestedText_eq_cons name word n
    have hinner : run (child E (element E)) (nestedText name word n ++ (closingText name ++ rest)) =
        some (.element (nestedElement name word n), closingText name ++ rest) := by
      have hread := ih (closingText name ++ rest)
      rw [ht, List.cons_append] at hread ⊢
      rw [run_child_tag, hread]
      rfl
    rw [List.append_assoc]
    have hfirst : run (child E (element E))
        (word.toList ++ (nestedText name word n ++ (closingText name ++ rest))) =
          some (.text word, nestedText name word n ++ (closingText name ++ rest)) := by
      rw [ht, List.cons_append]
      exact run_child_text hplain hne (by simp [isChildChar])
    have hclosing := run_child_closing (E := E) (.inr (isSegment_of_isIdentifier hname).isTag) rest
    rw [← closingText_append] at hclosing
    rw [run_many_step hfirst, run_many_step hinner, run_many_none hclosing]
    rfl

/-- An element is an expression if no operator stands behind it. -/
theorem run_expression_element {d : Dialect} (hd : d.markup = true) {B : Parser (List Stmt)}
    [Shrinks B] {t r : List Char} {e : Element}
    (h : run (element (expression d B)) ('<' :: t) = some (e, r)) (hr : Halts d B 0 (skip r)) :
    run (expression d B) ('<' :: t) = some (.jsx e, skip r) := by
  have hlt : isWordStart '<' = false := by decide
  have hopens : Opens d B 11 ('<' :: t) :=
    ⟨fun _ => run_unaryOp_none hlt (by decide) (by decide) (by decide) t,
      fun _ => run_newExpr_none hlt t⟩
  exact run_levelRule_of_le (Nat.zero_le 11) (Nat.le_refl 11) (run_primary_element hd h) hopens hr

/-- The nested elements are a module of one expression. -/
theorem run_program_nested {d : Dialect} (hd : d.markup = true) (hname : isIdentifier name = true)
    (hword : isIdentifier word = true) (n : Nat) :
    run (program d) (nestedText name word n) = some (nestedModule name word n, []) := by
  have helement :=
    run_element_nested (E := expression d (blockOf (statement d))) hname hword n []
  rw [List.append_nil] at helement
  obtain ⟨t, ht⟩ := nestedText_eq_cons name word n
  rw [ht] at helement ⊢
  have hlt : isWordStart '<' = false := by decide
  have hexpr := run_expression_element hd helement (by rw [skip_nil]; exact halts_nil)
  have hstatement : run (statement d) ('<' :: t) =
      some (.expr (.jsx (nestedElement name word n)), []) := by
    rw [run_statement_expr hlt (by decide) (by decide)]
    simp [run_map, run_thenSkip, hexpr, terminator, run_yielding, run_optional]
  exact run_program_item (skip_cons (by decide) (by decide) t)
    (run_moduleItem_stmt (run_keyword_none hlt _ t) (run_keyword_none hlt _ t) hstatement)

end TsxCompiler.Grammar

/-! ## Counting -/

namespace TsxCompiler.Nesting

open Text Grammar

variable {name word : String}

/-- A text in which the scan finds nothing too deep if it starts with at most one level open. -/
def Shallow (text : List Char) : Prop :=
  ∀ (s : State) (index : Nat), s.mode = .code → s.depth ≤ 1 → scanFrom s index text = none

theorem shallow_nil : Shallow [] := fun _ _ _ _ => rfl

/-- The name of a tag and the bracket behind it open nothing. -/
theorem scanFrom_tagEnd (hname : isIdentifier name = true) {s : State} (hmode : s.mode = .code)
    (hdepth : s.depth ≤ 1) (rest : List Char) (index : Nat) :
    scanFrom s index (name.toList ++ '>' :: rest) =
      scanFrom { s with prev := some '>' } (index + name.toList.length + 1) rest := by
  have hmax : s.depth ≤ maxDepth := Nat.le_trans hdepth (by decide)
  rw [scanFrom_word (all_of_isIdentifier hname) hmode hmax]
  refine scanFrom_cons (c := '>') ?_ (show State.depth { s with prev := some '>' } ≤ _ from hmax) _
  simp [step, hmode, stepCode, depthAfter, show isBlank '>' = false by decide]

theorem Shallow.closing (hname : isIdentifier name = true) {rest : List Char} (h : Shallow rest) :
    Shallow (closingText name ++ rest) := by
  intro s index hmode hdepth
  have hless : s.depth - 1 ≤ 1 := Nat.le_trans (Nat.sub_le _ _) hdepth
  have hlower : s.depth - 1 ≤ maxDepth := Nat.le_trans hless (by decide)
  have htext : closingText name ++ rest = '<' :: '/' :: (name.toList ++ '>' :: rest) := by
    simp [closingText]
  have hopen : step s '<' (some '/') = { s with mode := .tagClose, depth := s.depth - 1 } := by
    simp [step, hmode, stepCode]
  have hslash : ∀ next, step { s with mode := .tagClose, depth := s.depth - 1 } '/' next =
      { s with mode := .code, depth := s.depth - 1 } := fun _ => rfl
  rw [htext, scanFrom_cons hopen hlower, scanFrom_cons (hslash _) hlower,
    scanFrom_tagEnd hname rfl hless]
  exact h _ _ rfl hless

/-- What lies between the tags is scanned with at most one level open if the tag in front of it was
counted only where none was. -/
theorem scanFrom_tagged (hname : isIdentifier name = true) {content rest : List Char} {s : State}
    (hmode : s.mode = .code) (hdepth : s.depth ≤ 1)
    (hopen : ∀ next, opensTag s.prev next = true → s.depth = 0)
    (h : Shallow (content ++ (closingText name ++ rest))) (index : Nat) :
    scanFrom s index (taggedText name content ++ rest) = none := by
  obtain ⟨c, cs, hc, hstart⟩ := exists_of_isIdentifier hname
  have htext : taggedText name content ++ rest =
      '<' :: (name.toList ++ '>' :: (content ++ (closingText name ++ rest))) := by
    simp [taggedText]
  let depth := if opensTag s.prev c then s.depth + 1 else s.depth
  have hlow : depth ≤ 1 := by
    by_cases hcount : opensTag s.prev c = true
    · simp [depth, hcount, hopen c hcount]
    · simpa [depth, hcount] using hdepth
  have hstep : step s '<' (name.toList ++ '>' :: (content ++ (closingText name ++ rest))).head? =
      { s with depth := depth, prev := some '<' } := by
    have hslash : c ≠ '/' := ne_of_isWordStart hstart (by decide)
    simp [step, hmode, stepCode, depthAfter, hc, hslash, depth,
      show isBlank '<' = false by decide]
  rw [htext, scanFrom_cons hstep (Nat.le_trans hlow (by decide)),
    scanFrom_tagEnd hname (s := { s with depth := depth, prev := some '<' }) hmode hlow]
  exact h _ _ hmode hlow

/-- The scan comes to an inner tag behind a word, so it counts the outermost one at most. -/
theorem scanFrom_nestedText (hname : isIdentifier name = true) (hword : isIdentifier word = true)
    (n : Nat) {rest : List Char} (hrest : Shallow rest) {s : State} (hmode : s.mode = .code)
    (hdepth : s.depth ≤ 1) (hopen : ∀ next, opensTag s.prev next = true → s.depth = 0)
    (index : Nat) : scanFrom s index (nestedText name word n ++ rest) = none := by
  induction n generalizing rest s index with
  | zero =>
    refine scanFrom_tagged hname hmode hdepth hopen (fun s' index hmode' hdepth' => ?_) index
    rw [scanFrom_word (all_of_isIdentifier hword) hmode' (Nat.le_trans hdepth' (by decide))]
    exact hrest.closing hname _ _ hmode' hdepth'
  | succ n ih =>
    refine scanFrom_tagged hname hmode hdepth hopen (fun s' index hmode' hdepth' => ?_) index
    rw [List.append_assoc,
      scanFrom_word (all_of_isIdentifier hword) hmode' (Nat.le_trans hdepth' (by decide))]
    refine ih (hrest.closing hname) (s := { s' with prev := word.toList.getLast?.or s'.prev })
      hmode' hdepth' (fun next hnext => ?_) _
    simp [opensTag_identifier hword] at hnext

theorem excess_nestedText (hname : isIdentifier name = true) (hword : isIdentifier word = true)
    (n : Nat) : excess (nestedText name word n) = none := by
  have h := scanFrom_nestedText hname hword n shallow_nil (s := .start) rfl (Nat.zero_le 1)
    (fun _ _ => rfl) 0
  rwa [List.append_nil, ← excess_eq_scanFrom] at h

end TsxCompiler.Nesting

/-! ## Modules -/

namespace TsxCompiler

open Text

theorem parse_nestedText {d : Dialect} (hd : d.markup = true) {name word : String}
    (hname : isIdentifier name = true) (hword : isIdentifier word = true) (n : Nat) :
    Program.parse d (String.ofList (nestedText name word n)) = .ok (nestedModule name word n) := by
  refine parse_of_run_program ?_ ?_
  · rw [String.toList_ofList]
    exact Nesting.excess_nestedText hname hword n
  · rw [String.toList_ofList]
    exact Grammar.run_program_nested hd hname hword n

/-- Elements with a word before each inner one are read at every depth in every dialect with
markup: the module has an element inside any number of others, whatever the nesting limit is. -/
theorem parse_nestedElements {d : Dialect} (hd : d.markup = true) {name word : String}
    (hname : isIdentifier name = true) (hword : isIdentifier word = true) (n : Nat) :
    Program.parse d (String.ofList (nestedText name word n)) = .ok (nestedModule name word n) ∧
      (nestedModule name word n).ElementInside n ⟨some name, [], [.text word], false⟩ := by
  refine ⟨parse_nestedText hd hname hword n, ?_⟩
  have hinside := elementInside_nested name word (Nat.le_refl n)
  rwa [Nat.sub_self] at hinside

theorem parse_nestedElements_list :
    isIdentifier "ul" = true ∧ isIdentifier "item" = true ∧
      Program.parse ⟨.ecmaScript, true⟩ "<ul>item<ul>item<ul>item</ul></ul></ul>" =
        .ok (nestedModule "ul" "item" 2) ∧
      (nestedModule "ul" "item" 2).ElementInside 2 ⟨some "ul", [], [.text "item"], false⟩ :=
  have hname : isIdentifier "ul" = true := by decide
  have hword : isIdentifier "item" = true := by decide
  ⟨hname, hword, parse_nestedElements (d := ⟨.ecmaScript, true⟩) rfl hname hword 2⟩

/-- The nesting limit is no bound on how deep the elements of an accepted module lie. -/
theorem not_elementInside_lt_maxDepth :
    ¬ ∀ (d : Dialect) (text : String) (p : Program), d.markup = true →
      Program.parse d text = .ok p →
        ∀ (n : Nat) (e : Element), p.ElementInside n e → n < Nesting.maxDepth := by
  intro hbound
  have hname : isIdentifier "a" = true := by decide
  have hword : isIdentifier "x" = true := by decide
  have hparse := parse_nestedText (d := ⟨.typeScript, true⟩) rfl hname hword Nesting.maxDepth
  have hinside := elementInside_nested "a" "x" (Nat.le_refl Nesting.maxDepth)
  exact absurd (hbound _ _ _ rfl hparse _ _ hinside) (Nat.lt_irrefl _)

end TsxCompiler
