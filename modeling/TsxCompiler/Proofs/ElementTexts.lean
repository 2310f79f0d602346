import TsxCompiler.Proofs.MarkupTexts
import TsxCompiler.Proofs.ParsedOperators
import TsxCompiler.Proofs.Tags

/-!
# Preserved markup is read back

The printed text of an element is read as that element, whatever follows it (`ElementText`), if the
expressions in its braces are read up to the brace that closes them (`FillsBraces`). Names, strings
and the texts between tags come out of the parser as they are printed again; this is followed along
the grammar of elements (`yields_elementText`), and elements are operands of expressions again.

Where types are part of the language, the operand of an operator that is a word may not start with a
tag: behind the colon of a conditional, such an operator is taken for a type with type arguments. It
need not stand in the branch of the conditional, since a type may go on across a comma: in
`[c ? x : f < g, typeof <a>>=> y</a>]` an arrow function is read from `x` on. Without conditionals
there is no colon to read a type behind.
-/

namespace TsxCompiler

/-- Whether an operator that is a word stands right in front of a tag. -/
def Node.tagBehindWord : Node → Bool
  | .expr (.unary op arg) => op.isWord && arg.opensMarkup
  | _ => false

def Node.isConditional : Node → Bool
  | .expr (.cond _ _ _) => true
  | _ => false

end TsxCompiler

namespace TsxCompiler.Grammar

open Peg Peg.Parser Text

variable {d : Dialect} {B : Parser (List Stmt)} {Good : List Char → Prop}

/-! ## Braces -/

/-- The text of an expression, read up to the brace behind it. -/
structure FillsBraces (d : Dialect) (B : Parser (List Stmt)) (Good : List Char → Prop) (e : Expr)
    (text : String) : Prop where
  skips : ∀ s, skip (text.toList ++ '\x7d' :: s) = text.toList ++ '\x7d' :: s
  reads : ∀ s, Good (text.toList ++ '\x7d' :: s) →
    run (expression d B) (text.toList ++ '\x7d' :: s) = some (e, '\x7d' :: s)

/-- A text in braces. -/
def braced (text : String) : String :=
  "\x7b" ++ text ++ "\x7d"

theorem braced_append (text : String) (s : List Char) :
    (braced text).toList ++ s = '\x7b' :: (text.toList ++ '\x7d' :: s) := by
  simp [braced]

theorem FillsBraces.run_container {e : Expr} {text : String} (h : FillsBraces d B Good e text)
    {s : List Char} (hgood : Good (text.toList ++ '\x7d' :: s)) :
    run (container (expression d B)) ((braced text).toList ++ s) = some (e, s) := by
  rw [braced_append]
  simp [container, run_thenSkip, run_skipThen, run_char_cons, run_trivia, h.skips, h.reads s hgood]

/-! ## Elements and attributes -/

/-- The text of an element, read as the element whatever follows it. A character that no operator
goes on with stands behind its angle. -/
structure ElementText (d : Dialect) (B : Parser (List Stmt)) (Good : List Char → Prop) (el : Element)
    (text : String) : Prop where
  starts : ∃ c s, text.toList = '<' :: c :: s ∧ ¬(c = ' ' ∨ c = '=')
  reads : ∀ s, Good (text.toList ++ s) →
    run (element (expression d B)) (text.toList ++ s) = some (el, s)

/-- What may stand behind an attribute. -/
structure AttributeEnd (s : List Char) : Prop where
  name : endsName s = true
  mark : run (sym "=") (skip s) = none

structure AttributeText (d : Dialect) (B : Parser (List Stmt)) (Good : List Char → Prop)
    (a : Attribute) (text : String) : Prop where
  starts : ∃ c s, text.toList = c :: s ∧ (isWordStart c = true ∨ c = '\x7b')
  reads : ∀ s, AttributeEnd s → Good (text.toList ++ s) →
    run (elementAttribute (expression d B) (element (expression d B))) (text.toList ++ s) =
      some (a, skip s)

section Attributes

variable {text : String}

theorem skip_of_attributeStart {c : Char} (h : isWordStart c = true ∨ c = '\x7b') (s : List Char) :
    skip (c :: s) = c :: s := by
  rcases h with h | rfl
  · exact skip_wordStart h s
  · exact skip_cons (by decide) (by decide) s

theorem AttributeText.skips {a : Attribute} (h : AttributeText d B Good a text) (s : List Char) :
    skip (text.toList ++ s) = text.toList ++ s := by
  obtain ⟨c, t, ht, hc⟩ := h.starts
  rw [ht]
  exact skip_of_attributeStart hc (t ++ s)

theorem attributeText_spread (hS : SuffixClosed Good) {e : Expr} (h : FillsBraces d B Good e text) :
    AttributeText d B Good (.spread e) ("\x7b..." ++ text ++ "\x7d") where
  starts := ⟨'\x7b', _, by rw [String.toList_append, String.toList_append]; rfl, .inr rfl⟩
  reads s _ hgood := by
    have htext : ("\x7b..." ++ text ++ "\x7d").toList ++ s =
        ['\x7b', '.', '.', '.'] ++ (text.toList ++ '\x7d' :: s) := by
      simp
    have hdots : ∀ t, skip ('.' :: t) = '.' :: t := skip_cons (by decide) (by decide)
    rw [htext] at hgood ⊢
    simp [elementAttribute, run_choice_cons, run_map, run_lexeme, run_thenSkip, run_skipThen,
      run_char_cons, run_trivia, hdots, Printed.run_dots_append, h.skips, h.reads s (hS _ _ hgood)]

/-- No spread starts with a name. -/
theorem run_elementAttribute_named {E : Parser Expr} {X : Parser Element} {name : String}
    (hname : IsAttributeName name) {s : List Char} (hend : endsName s = true) :
    run (elementAttribute E X) (name.toList ++ s) =
      (run ((sym "=").skipThen (attributeValue E X)).optional (skip s)).map fun x =>
        (.named name x.1, x.2) := by
  have hread := run_attributeName_append hname hend
  obtain ⟨c, cs, hc, hstart⟩ := hname.exists_start
  rw [hc, List.cons_append] at hread ⊢
  have hbrace : c ≠ '\x7b' := ne_of_isWordStart hstart (by decide)
  simp [elementAttribute, run_choice_cons, run_map, run_lexeme, run_thenSkip, run_skipThen,
    run_char_cons, hbrace, run_both, hread]

theorem attributeText_name {name : String} (hname : IsAttributeName name) :
    AttributeText d B Good (.named name none) name where
  starts := by
    obtain ⟨c, cs, hc, hstart⟩ := hname.exists_start
    exact ⟨c, cs, hc, .inl hstart⟩
  reads s hs _ := by
    rw [run_elementAttribute_named hname hs.name]
    simp [run_optional, run_skipThen, hs.mark]

/-- A name with a value that is read behind the sign. -/
theorem attributeText_value (hS : SuffixClosed Good) {name : String} (hname : IsAttributeName name)
    {value : AttributeValue} (hskip : ∀ s, skip (text.toList ++ s) = text.toList ++ s)
    (hread : ∀ s, Good (text.toList ++ s) →
      run (attributeValue (expression d B) (element (expression d B))) (text.toList ++ s) =
        some (value, skip s)) :
    AttributeText d B Good (.named name (some value)) (name ++ "=" ++ text) where
  starts := by
    obtain ⟨c, cs, hc, hstart⟩ := hname.exists_start
    exact ⟨c, cs ++ '=' :: text.toList, by simp [hc], .inl hstart⟩
  reads s _ hgood := by
    have htext : (name ++ "=" ++ text).toList ++ s = name.toList ++ '=' :: (text.toList ++ s) := by
      simp
    have hvalue := hread s (hS _ _ (by simpa using hgood : Good ((name ++ "=").toList ++ _)))
    have hsign : skip ('=' :: (text.toList ++ s)) = '=' :: (text.toList ++ s) :=
      skip_cons (by decide) (by decide) _
    rw [htext, run_elementAttribute_named hname rfl, hsign]
    simp [run_optional, run_skipThen, run_sym, run_chars_cons, run_char_cons, hskip, hvalue]

theorem run_attributeValue_string {lit : StringLit} {raw : String} (h : IsSpelled lit)
    (hraw : lit.raw = some raw) {E : Parser Expr} {X : Parser Element} (s : List Char) :
    run (attributeValue E X) (raw.toList ++ s) = some (.string lit, skip s) := by
  rw [attributeValue, run_choice_cons, run_map, run_stringLit_append h hraw]
  rfl

theorem run_attributeValue_braces (hS : SuffixClosed Good) {e : Expr}
    (h : FillsBraces d B Good e text) {X : Parser Element} (s : List Char)
    (hgood : Good ((braced text).toList ++ s)) :
    run (attributeValue (expression d B) X) ((braced text).toList ++ s) =
      some (.expr e, skip s) := by
  have hstring : run stringLit ((braced text).toList ++ s) = none := by
    rw [braced_append]
    exact run_stringLit_none (by decide) (by decide) _
  rw [braced_append] at hgood
  rw [attributeValue, run_choice_cons, run_map, hstring, run_choice_cons, run_map, run_lexeme,
    h.run_container (hS ['\x7b'] _ hgood)]
  rfl

theorem run_attributeValue_element {el : Element} (h : ElementText d B Good el text) (s : List Char)
    (hgood : Good (text.toList ++ s)) :
    run (attributeValue (expression d B) (element (expression d B))) (text.toList ++ s) =
      some (.element el, skip s) := by
  have hread := h.reads s hgood
  obtain ⟨c, t, ht, -⟩ := h.starts
  rw [ht, List.cons_append] at hread ⊢
  have hbrace : run (container (expression d B)) ('<' :: (c :: t ++ s)) = none := by
    simp [container, run_thenSkip, run_skipThen, run_char_cons]
  rw [attributeValue, run_choice_cons, run_map, run_stringLit_none (by decide) (by decide),
    run_choice_cons, run_map, run_lexeme, hbrace, run_choice_nil, run_map, run_lexeme, hread]
  rfl

/-- Attributes are read one after the other, each behind a blank. -/
theorem run_attributes [Shrinks B] (hS : SuffixClosed Good) {attributes : List Attribute} {level : Nat}
    (h : ∀ a ∈ attributes, AttributeText d B Good a (a.print level)) {s : List Char}
    (hs : AttributeEnd s) (hgood : Good ((Attribute.printAll attributes level).toList ++ s))
    (hstop : run (elementAttribute (expression d B) (element (expression d B))) (skip s) = none) :
    endsName ((Attribute.printAll attributes level).toList ++ s) = true ∧
    run (many (elementAttribute (expression d B) (element (expression d B))))
        (skip ((Attribute.printAll attributes level).toList ++ s)) =
      some (attributes, skip s) := by
  -- the text behind an attribute ends it, and is read as the other ones
  suffices hrest : AttributeEnd ((Attribute.printAll attributes level).toList ++ s) ∧
      run (many (elementAttribute (expression d B) (element (expression d B))))
        (skip ((Attribute.printAll attributes level).toList ++ s)) = some (attributes, skip s) from
    ⟨hrest.1.name, hrest.2⟩
  induction attributes with
  | nil => exact ⟨hs, run_many_none hstop⟩
  | cons a attributes ih =>
    have ha := h a (by simp)
    have htext : (Attribute.printAll (a :: attributes) level).toList ++ s =
        ' ' :: ((a.print level).toList ++ ((Attribute.printAll attributes level).toList ++ s)) := by
      simp [Attribute.printAll]
    have hfirst := hS [' '] _ (htext ▸ hgood)
    obtain ⟨hend, hread⟩ := ih (fun x hx => h x (by simp [hx])) (hS _ _ hfirst)
    have hskip : skip (' ' :: ((a.print level).toList ++
        ((Attribute.printAll attributes level).toList ++ s))) =
          (a.print level).toList ++ ((Attribute.printAll attributes level).toList ++ s) := by
      rw [skip_blank (by decide), ha.skips]
    rw [htext, hskip]
    refine ⟨⟨rfl, ?_⟩, ?_⟩
    · rw [hskip]
      obtain ⟨c, t, ht, hc⟩ := ha.starts
      rw [ht]
      refine run_sym_none "=" rfl ?_ _
      rcases hc with hc | rfl
      · exact ne_of_isWordStart hc (by decide)
      · decide
    · rw [run_many_step (ha.reads _ hend hfirst), hread]
      rfl

end Attributes

/-! ## Children -/

/-- Whether a text between tags ends where a text goes on. -/
def endsText : List Char → Bool
  | [] => true
  | c :: _ => !isChildChar c

/-- The text of a child. It is read as the child whatever follows it, and if it is a text, in front
of a tag or a container. -/
structure ChildText (d : Dialect) (B : Parser (List Stmt)) (Good : List Char → Prop) (c : Child)
    (text : String) : Prop where
  ends : c.isText = false → ∀ s, endsText (text.toList ++ s) = true
  reads : ∀ s, (c.isText = true → endsText s = true) → Good (text.toList ++ s) →
    run (child (expression d B) (element (expression d B))) (text.toList ++ s) = some (c, s)

section Children

variable {text : String}

theorem childText_text {raw : String} (h : (Child.text raw).WellFormed) :
    ChildText d B Good (.text raw) raw where
  ends h := by cases h
  reads s hs _ := by
    obtain ⟨hne, hangle, hbrace⟩ := h
    refine run_child_text ?_ (by simpa using hne) ?_
    · rw [List.all_eq_true]
      intro c hc
      simp only [isChildChar, Bool.and_eq_true, bne_iff_ne]
      constructor <;> rintro rfl <;> contradiction
    · have hend := hs rfl
      cases s with
      | nil => simp
      | cons c s => simpa [endsText] using hend

theorem run_childText_brace (t : List Char) : run childText ('\x7b' :: t) = none := by
  simp [run_childText, Option.filter, isChildChar]

theorem childText_braces (hS : SuffixClosed Good) {e : Expr} (h : FillsBraces d B Good e text) :
    ChildText d B Good (.expr (some e)) (braced text) where
  ends _ s := by
    rw [braced_append]
    rfl
  reads s _ hgood := by
    rw [braced_append] at hgood ⊢
    simp [child, run_choice_cons, run_childText_brace, childContainer, run_map, run_thenSkip,
      run_skipThen, run_char_cons, run_trivia, h.skips,
      run_optional_some (h.reads s (hS ['\x7b'] _ hgood))]

theorem childText_empty [Shrinks B] : ChildText d B Good (.expr none) "\x7b\x7d" where
  ends _ _ := rfl
  reads s _ _ := by
    have hnone : run (expression d B) ('\x7d' :: s) = none := run_levelRule_none (by decide) 0 s
    have hskip : skip ('\x7d' :: s) = '\x7d' :: s := skip_cons (by decide) (by decide) s
    change run _ ('\x7b' :: '\x7d' :: s) = _
    simp [child, run_choice_cons, run_childText_brace, childContainer, run_map, run_thenSkip,
      run_skipThen, run_char_cons, run_trivia, hskip, run_optional_none hnone]

theorem childText_element {el : Element} (h : ElementText d B Good el text) :
    ChildText d B Good (.element el) text where
  ends _ s := by
    obtain ⟨c, t, ht, -⟩ := h.starts
    rw [ht]
    rfl
  reads s _ hgood := by
    have hread := h.reads s hgood
    obtain ⟨c, t, ht, -⟩ := h.starts
    rw [ht, List.cons_append] at hread ⊢
    rw [run_child_tag, hread]
    rfl

/-- Children are read one after the other, up to a closing tag: no two texts follow each other. -/
theorem run_children [Shrinks B] (hS : SuffixClosed Good) {children : List Child} {level : Nat}
    (h : ∀ c ∈ children, ChildText d B Good c (c.print level))
    (hapart : Child.textsApart children = true)
    {name : String} (hname : name = "" ∨ IsTag name) (s : List Char)
    (hgood : Good ((Child.printAll children level).toList ++
      '<' :: '/' :: (name.toList ++ '>' :: s))) :
    run (many (child (expression d B) (element (expression d B))))
        ((Child.printAll children level).toList ++ '<' :: '/' :: (name.toList ++ '>' :: s)) =
      some (children, '<' :: '/' :: (name.toList ++ '>' :: s)) := by
  induction children with
  | nil => exact run_many_none (run_child_closing hname s)
  | cons c children ih =>
    have hrest : Child.textsApart children = true := by
      cases children with
      | nil => rfl
      | cons x children =>
        rw [Child.textsApart, Bool.and_eq_true] at hapart
        exact hapart.2
    -- a text ends at the next child, which is no text
    have hends : c.isText = true → endsText ((Child.printAll children level).toList ++
        '<' :: '/' :: (name.toList ++ '>' :: s)) = true := by
      intro htext
      cases children with
      | nil => rfl
      | cons x children =>
        rw [Child.textsApart, htext, Bool.true_and, Bool.and_eq_true, Bool.not_eq_true'] at hapart
        rw [Child.printAll, String.toList_append, List.append_assoc]
        exact (h x (by simp)).ends hapart.1 _
    rw [Child.printAll, String.toList_append, List.append_assoc] at hgood ⊢
    rw [run_many_step ((h c (by simp)).reads _ hends hgood),
      ih (fun x hx => h x (by simp [hx])) hrest (hS _ _ hgood)]
    rfl

end Children

/-! ## Elements -/

section Elements

variable [Shrinks B] (hS : SuffixClosed Good) {level : Nat} {children : List Child}
include hS

theorem elementText_fragment (h : ∀ c ∈ children, ChildText d B Good c (c.print level))
    (hapart : Child.textsApart children = true) :
    ElementText d B Good ⟨none, [], children, false⟩
      (Element.print ⟨none, [], children, false⟩ level) := by
  have htext : ∀ s, (Element.print ⟨none, [], children, false⟩ level).toList ++ s =
      '<' :: '>' :: ((Child.printAll children level).toList ++ '<' :: '/' :: '>' :: s) := by
    intro s
    simp [Element.print, Attribute.printAll]
  refine ⟨⟨'>', _, by simpa using htext [], by decide⟩, fun s hgood => ?_⟩
  rw [htext] at hgood ⊢
  exact run_element_fragment (run_children hS h hapart (.inl rfl) s (hS ['<', '>'] _ hgood))

variable {name : String} {attributes : List Attribute}

/-- An element from its name and its attributes, and the text that stands behind them. -/
theorem elementText_tag (hname : IsTag name)
    (hattributes : ∀ a ∈ attributes, AttributeText d B Good a (a.print level)) {el : Element}
    (tail : List Char) (body : Option (List Child × String))
    (htext : (el.print level).toList =
      '<' :: (name.toList ++ ((Attribute.printAll attributes level).toList ++ tail)))
    (hend : ∀ s, AttributeEnd (tail ++ s))
    (hstop : ∀ s, run (elementAttribute (expression d B) (element (expression d B)))
      (skip (tail ++ s)) = none)
    (hbody : ∀ s, Good (tail ++ s) → run (elementBody (expression d B) (element (expression d B)))
      (skip (tail ++ s)) = some (body, s))
    (hclose : closeElement name attributes body = .ok el) :
    ElementText d B Good el (el.print level) where
  starts := by
    obtain ⟨c, cs, hc, hstart⟩ := hname.exists_start
    rw [htext, hc]
    exact ⟨c, _, rfl,
      not_or.2 ⟨ne_of_isWordStart hstart (by decide), ne_of_isWordStart hstart (by decide)⟩⟩
  reads s hgood := by
    rw [htext, List.cons_append, List.append_assoc, List.append_assoc] at hgood ⊢
    have hrest := hS ('<' :: name.toList) _ hgood
    obtain ⟨hends, hread⟩ := run_attributes hS hattributes (hend s) hrest (hstop s)
    exact run_element_tag hname hends hread (hbody s (hS _ _ hrest)) hclose

/-- An element with children: behind its attributes `>`, the children and a closing tag of the same
name. -/
theorem elementText_open (hname : IsTag name)
    (hattributes : ∀ a ∈ attributes, AttributeText d B Good a (a.print level))
    (h : ∀ c ∈ children, ChildText d B Good c (c.print level))
    (hapart : Child.textsApart children = true) :
    ElementText d B Good ⟨some name, attributes, children, false⟩
      (Element.print ⟨some name, attributes, children, false⟩ level) := by
  have hskip : ∀ t, skip ('>' :: t) = '>' :: t := skip_cons (by decide) (by decide)
  let tail := '>' :: ((Child.printAll children level).toList ++
    '<' :: '/' :: (name.toList ++ ['>']))
  have htail : ∀ s, tail ++ s = '>' :: ((Child.printAll children level).toList ++
      '<' :: '/' :: (name.toList ++ '>' :: s)) := by
    simp [tail]
  refine elementText_tag hS hname hattributes tail (some (children, name))
    (by simp [Element.print, tail]) ?_ ?_ ?_ (by simp [closeElement])
  · intro s
    rw [htail]
    exact ⟨rfl, by rw [hskip]; exact run_sym_none "=" rfl (by decide) _⟩
  · intro s
    rw [htail, hskip]
    exact run_elementAttribute_none (by decide) (by decide) _
  · intro s hgood
    rw [htail] at hgood ⊢
    rw [hskip]
    exact run_elementBody_children hname (run_children hS h hapart (.inr hname) s (hS ['>'] _ hgood))

theorem elementText_closed (hname : IsTag name)
    (hattributes : ∀ a ∈ attributes, AttributeText d B Good a (a.print level)) :
    ElementText d B Good ⟨some name, attributes, [], true⟩
      (Element.print ⟨some name, attributes, [], true⟩ level) := by
  have hskip : ∀ s, skip (' ' :: '/' :: '>' :: s) = '/' :: '>' :: s := by
    intro s
    rw [skip_blank (by decide), skip_slash (by decide) (by decide)]
  refine elementText_tag hS hname hattributes [' ', '/', '>'] none (by simp [Element.print]) ?_ ?_ ?_
    rfl
  · exact fun s => ⟨rfl, (hskip s).symm ▸ run_sym_none "=" rfl (by decide) _⟩
  · exact fun s => (hskip s).symm ▸ run_elementAttribute_none (by decide) (by decide) _
  · exact fun s _ => (hskip s).symm ▸ run_elementBody_closed s

end Elements

/-! ## Elements that were read -/

/-- A change of the expressions in markup, and what it makes of the parts of an element: all else
in them stays. -/
structure BraceChange where
  onExpr : Expr → Expr
  onElement : Element → Element
  onAttribute : Attribute → Attribute
  onValue : AttributeValue → AttributeValue
  onChild : Child → Child
  element_eq : ∀ name attributes children selfClosing,
    onElement ⟨name, attributes, children, selfClosing⟩ =
      ⟨name, attributes.map onAttribute, children.map onChild, selfClosing⟩
  spread_eq : ∀ e, onAttribute (.spread e) = .spread (onExpr e)
  named_eq : ∀ name v, onAttribute (.named name v) = .named name (v.map onValue)
  value_string : ∀ lit, onValue (.string lit) = .string lit
  value_expr : ∀ e, onValue (.expr e) = .expr (onExpr e)
  value_element : ∀ el, onValue (.element el) = .element (onElement el)
  child_text : ∀ raw, onChild (.text raw) = .text raw
  child_expr : ∀ e, onChild (.expr e) = .expr (e.map onExpr)
  child_element : ∀ el, onChild (.element el) = .element (onElement el)

namespace BraceChange

/-- Nothing is changed. -/
def none : BraceChange where
  onExpr := id
  onElement := id
  onAttribute := id
  onValue := id
  onChild := id
  element_eq := by simp
  spread_eq _ := rfl
  named_eq := by simp
  value_string _ := rfl
  value_expr _ := rfl
  value_element _ := rfl
  child_text _ := rfl
  child_expr := by simp
  child_element _ := rfl

variable (m : BraceChange)

theorem isText_child (c : Child) : (m.onChild c).isText = c.isText := by
  cases c with
  | text raw => rw [m.child_text]
  | expr e => rw [m.child_expr]; rfl
  | element el => rw [m.child_element]; rfl

theorem textsApart_children (children : List Child) :
    Child.textsApart (children.map m.onChild) = Child.textsApart children := by
  induction children with
  | nil => rfl
  | cons c children ih =>
    cases children with
    | nil => rfl
    | cons x children =>
      rw [List.map_cons, List.map_cons, Child.textsApart, Child.textsApart, m.isText_child,
        m.isText_child, ← ih, List.map_cons]

end BraceChange

section Read

variable [Shrinks B] (hS : SuffixClosed Good) (m : BraceChange) {F : Node → Prop} {Q : Expr → Prop}
  (hfills : ∀ {e : Expr}, Q e → ∀ level, FillsBraces d B Good (m.onExpr e) ((m.onExpr e).print level))
  {X : Parser Expr} (hX : Yields (Keeps F Q) X)
  {Y : Parser Element}
  (hY : Yields (fun el => AllNodes F el.nodes → ∀ level,
    ElementText d B Good (m.onElement el) ((m.onElement el).print level)) Y)
include hS hfills hX hY

omit [Shrinks B] in
/-- An attribute that was read prints a text that is read as that attribute again: a spread, a name,
or a name with one of the three kinds of value. -/
theorem yields_attributeText :
    Yields (fun a => AllNodes F a.nodes → ∀ level,
      AttributeText d B Good (m.onAttribute a) ((m.onAttribute a).print level))
      (elementAttribute X Y) := by
  -- the value's text, whichever of a string, braces or an element it is
  have hvalue : Yields (fun value => AllNodes F value.nodes → ∀ level,
      (∀ s, skip (((m.onValue value).print level).toList ++ s) =
        ((m.onValue value).print level).toList ++ s) ∧
      ∀ s, Good (((m.onValue value).print level).toList ++ s) →
        run (attributeValue (expression d B) (element (expression d B)))
          (((m.onValue value).print level).toList ++ s) = some (m.onValue value, skip s))
      (attributeValue X Y) := by
    refine .choice (yields_stringLit.map fun lit h _ level => ?_)
      (.choice ((yields_lexeme ((hX.skipThen _).thenSkip _)).map fun e he hnodes level => ?_)
        ((yields_lexeme hY).map fun el hel hnodes level => ?_))
    · obtain ⟨raw, hraw⟩ := h.exists_raw
      have hprint : (AttributeValue.string lit).print level = raw := by
        simp [AttributeValue.print, StringLit.print, hraw]
      rw [m.value_string, hprint]
      refine ⟨fun s => ?_, fun s _ => run_attributeValue_string h hraw s⟩
      obtain ⟨q, t, ht, hq⟩ := h.exists_quote hraw
      rw [ht]
      rcases hq with rfl | rfl <;> exact skip_cons (by decide) (by decide) _
    · have hprint : (AttributeValue.expr (m.onExpr e)).print level =
          braced ((m.onExpr e).print level) := by
        rw [AttributeValue.print, guarded_assignment, braced]
      rw [m.value_expr, hprint]
      refine ⟨fun s => ?_, run_attributeValue_braces hS (hfills (he hnodes) level)⟩
      rw [braced_append]
      exact skip_cons (by decide) (by decide) _
    · have htext := hel hnodes level
      rw [m.value_element, AttributeValue.print]
      refine ⟨fun s => ?_, run_attributeValue_element htext⟩
      obtain ⟨c, t, ht, -⟩ := htext.starts
      rw [ht]
      exact skip_cons (by decide) (by decide) _
  refine .choice ((yields_lexeme ((hX.skipThen _).thenSkip _)).map fun e he hnodes level => ?_)
    ((yields_lexeme yields_attributeName).both (hvalue.skipThen _).optional
      fun name value hname hv hnodes level => ?_)
  · rw [m.spread_eq, Attribute.print, guarded_assignment]
    exact attributeText_spread hS (hfills (he hnodes) level)
  · rw [m.named_eq]
    cases value with
    | none => exact attributeText_name hname
    | some value =>
      obtain ⟨hskip, hread⟩ := hv value rfl hnodes level
      rw [Option.map_some, Attribute.print]
      exact attributeText_value hS hname hskip hread

omit [Shrinks B] in
theorem yields_attributesText :
    Yields (fun as => AllNodes F (Attribute.nodesAll as) → ∀ level,
      ∀ a ∈ as.map m.onAttribute, AttributeText d B Good a (a.print level))
      (many (elementAttribute X Y)) := by
  intro s as r h hnodes level x hx
  rw [Attribute.nodesAll_eq, allNodes_flatMap] at hnodes
  obtain ⟨a, ha, rfl⟩ := List.mem_map.1 hx
  exact (yields_attributeText hS m hfills hX hY).many s as r h a ha (hnodes a ha) level

/-- A child that was read prints a text that is read as that child again. -/
theorem yields_childText :
    Yields (fun c => AllNodes F c.nodes → ∀ level,
      ChildText d B Good (m.onChild c) ((m.onChild c).print level)) (child X Y) := by
  refine .choice (fun s c r h => ?_) (.choice ((((hX.optional).skipThen _).thenSkip _).map
    fun value hv hnodes level => ?_) (hY.map fun el hel hnodes level => ?_))
  · obtain ⟨htext, hwell, -⟩ := run_childText_inv h
    cases c with
    | text raw =>
      rw [m.child_text]
      exact fun _ _ => childText_text hwell
    | expr value => simp [Child.isText] at htext
    | element el => simp [Child.isText] at htext
  · rw [m.child_expr]
    cases value with
    | none => exact childText_empty
    | some e =>
      rw [Option.map_some, Child.print, guarded_assignment]
      exact childText_braces hS (hfills (hv e rfl hnodes) level)
  · rw [m.child_element]
    exact childText_element (hel hnodes level)

/-- Children that were read, with no two texts next to each other. -/
theorem yields_childrenText :
    Yields (fun cs => (AllNodes F (Child.nodesAll cs) → ∀ level,
      ∀ c ∈ cs.map m.onChild, ChildText d B Good c (c.print level)) ∧
        Child.textsApart (cs.map m.onChild) = true)
      (many (child X Y)) := by
  intro s cs r h
  refine ⟨fun hnodes level x hx => ?_, ?_⟩
  · rw [Child.nodesAll_eq, allNodes_flatMap] at hnodes
    obtain ⟨c, hc, rfl⟩ := List.mem_map.1 hx
    exact (yields_childText hS m hfills hX hY).many s cs r h c hc (hnodes c hc) level
  · rw [m.textsApart_children]
    exact (textsApart_of_run h).1

theorem yields_fragmentText :
    Yields (fun el => AllNodes F el.nodes → ∀ level,
      ElementText d B Good (m.onElement el) ((m.onElement el).print level)) (fragment X Y) := by
  refine (((yields_childrenText hS m hfills hX hY).skipThen _).seq (Yields.trivial _)).check
    fun x el hx hel hnodes level => ?_
  obtain ⟨⟨hchildren, hapart⟩, -⟩ := hx
  simp only at hel
  split at hel
  · cases hel
    rw [m.element_eq]
    exact elementText_fragment hS (hchildren hnodes.tail.right level) hapart
  · cases hel

/-- So does an element: its tag and its attributes, then `/>` or its children and the closing tag. -/
theorem yields_taggedText :
    Yields (fun el => AllNodes F el.nodes → ∀ level,
      ElementText d B Good (m.onElement el) ((m.onElement el).print level)) (taggedElement X Y) := by
  have hbody : Yields (fun body => ∀ x ∈ body, (AllNodes F (Child.nodesAll x.1) → ∀ level,
      ∀ c ∈ x.1.map m.onChild, ChildText d B Good c (c.print level)) ∧
        Child.textsApart (x.1.map m.onChild) = true) (elementBody X Y) := by
    refine .choice (.yielding (by simp) _) ((((yields_childrenText hS m hfills hX hY).skipThen _).seq
      (Yields.trivial _)).map fun x hx => ?_)
    simpa using hx.1
  refine ((((yields_lexeme yields_tag).skipThen _).seq
    (yields_attributesText hS m hfills hX hY)).seq hbody).check fun x el hx hel hnodes level => ?_
  obtain ⟨⟨name, attributes⟩, body⟩ := x
  obtain ⟨⟨hname, hattributes⟩, hbody⟩ := hx
  cases body with
  | none =>
    cases hel
    rw [m.element_eq]
    exact elementText_closed hS hname (hattributes hnodes.tail.left level)
  | some content =>
    obtain ⟨children, closing⟩ := content
    obtain ⟨hchildren, hapart⟩ := hbody _ rfl
    simp only [closeElement] at hel
    split at hel
    · cases hel
      rw [m.element_eq]
      exact elementText_open hS hname (hattributes hnodes.tail.left level)
        (hchildren hnodes.tail.right level) hapart
    · cases hel

omit hY in
/-- Every element that is read is one whose printed text is read as it, with the expressions in it
as they are changed. -/
theorem yields_elementText :
    Yields (fun el => AllNodes F el.nodes → ∀ level,
      ElementText d B Good (m.onElement el) ((m.onElement el).print level)) (element X) :=
  .fix fun _ hY =>
    (yields_fragmentText hS m hfills hX hY).orElse (yields_taggedText hS m hfills hX hY)

end Read

/-! ## Expressions with markup -/

/-- The printed text of an expression with markup: it is read as the expression, and where types are
part of the language nothing in it is taken for one with an arrow behind it. -/
structure MarkupPrinted (d : Dialect) (B : Parser (List Stmt)) (free : Bool) (level : Nat) (e : Expr) :
    Prop where
  prints : PrintsWell d B (MarkupText d (expression d B) free) level e
  leads : d.isTypeScript = true → LeadsOperand (expression d B) free level e

section Expressions

variable [Shrinks B] {free : Bool}

theorem MarkupPrinted.fillsBraces {level : Nat} {e : Expr} (h : MarkupPrinted d B free level e) :
    FillsBraces d B (fun _ => True) e (e.print level) where
  skips s := h.prints.skip_append _
  reads s _ := h.prints.reads_entry (entryEnd_cons (by decide) s) fun hd =>
    ⟨_, _, (h.leads hd).operand _ (behind_brace s)⟩

/-- An element is an operand, where markup is part of the language. -/
theorem MarkupPrinted.jsx (hd : d.markup = true) {level : Nat} {el : Element}
    (h : ElementText d B (fun _ => True) el (el.print level)) : MarkupPrinted d B free level (.jsx el) := by
  obtain ⟨c, t, ht, hc⟩ := h.starts
  have hread := fun s => h.reads s trivial
  refine ⟨?_, fun _ => .jsx ht hc hread⟩
  rw [ht] at hread
  refine PrintsWell.ofPrinted (w := '<' :: c :: t) ?_ rfl (by rw [Expr.print, ht])
  refine Printed.ofLiteral (by decide) (by decide) (by decide) (fun s hs hts => ?_)
    fun rest _ _ => ?_
  · -- what follows the element is found by reading it
    obtain ⟨inside, room, hlexed⟩ := hs hts
    rcases hlexed.angle_inv with ⟨hblank, -⟩ | ⟨-, -, el', r, hread', hr⟩
    · exact absurd hblank hc
    · obtain ⟨rfl, rfl⟩ : el = el' ∧ s = r := by simpa using (hread s).symm.trans hread'
      exact ⟨_, _, hr⟩
  · exact run_primary_element hd (hread rest)

/-- Operators over names, literals and elements. Where types are part of the language, they are no
conditionals, or there is no word right in front of a tag. -/
def MarkupNode (d : Dialect) (free : Bool) (n : Node) : Prop :=
  (n.isOperator = true ∨ n.isMarkup = true) ∧
    (d.isTypeScript = true → if free then n.isConditional = false else n.tagBehindWord = false)

/-- Operators keep what is needed of an expression with markup in it: that its text reads back, and,
where types are read, that it is free of arrows. A word operator in front of an element and a colon
of a conditional are not both allowed. -/
theorem markupPrinted_closed (hG : TextClass d (MarkupText d (expression d B) free)) :
    OperatorClosed (MarkupNode d free) (fun e => ∀ level, MarkupPrinted d B free level e) where
  this _ := ⟨.this hG, fun _ => .this⟩
  ident hname hawait _ := ⟨.ident hG hname hawait, fun _ => .ident hname⟩
  lit {value} h _ := by
    refine ⟨?_, fun _ => .lit h⟩
    cases value with
    | string lit => exact .string hG h
    | number text => exact .number hG h
    | bool b => exact .bool hG b
    | null => exact .null hG
    | template raw => exact .template hG h
  array h level :=
    ⟨.array hG fun a ha => (h a ha level).prints,
      fun hd => .array fun a ha => (h a ha level).leads hd⟩
  call optional hcallee hargs level :=
    ⟨.call hG (hcallee level).prints (fun a ha => (hargs a ha level).prints) optional,
      fun hd => .call ((hcallee level).leads hd) (fun a ha => (hargs a ha level).leads hd) optional⟩
  member optional h hname level :=
    ⟨.member hG (h level).prints (.ident hG hname optional),
      fun hd => .member ((h level).leads hd) fun _ => LeadsOperand.nameKey hname optional⟩
  computed h hkey level :=
    ⟨.member hG (h level).prints (.computed hG (hkey level).prints),
      fun hd => .member ((h level).leads hd) fun _ => ((hkey level).leads hd).computedKey⟩
  unary {op arg} hnode h level := by
    refine ⟨.unary hG (h level).prints, fun hd => ((h level).leads hd).unary fun hop => ?_⟩
    cases free with
    | true => exact .inr rfl
    | false =>
      have hbehind : (op.isWord && arg.opensMarkup) = false := hnode.2 hd
      rw [hop, Bool.true_and] at hbehind
      exact .inl hbehind
  binary _ _ _ hleft hright level :=
    ⟨.binary hG (hleft level).prints (hright level).prints,
      fun hd => ((hleft level).leads hd).binary ((hright level).leads hd)⟩
  cond hnode htest hcons halt level := by
    refine ⟨.cond hG (htest level).prints (hcons level).prints (halt level).prints, fun hd => ?_⟩
    have hfree : free = false := by
      rw [← Bool.not_eq_true]
      rintro rfl
      have hcond : true = false := hnode.2 hd
      cases hcond
    exact .cond hfree ((htest level).leads hd) ((hcons level).leads hd) ((halt level).leads hd)
  assign _ _ _ htarget hvalue level :=
    ⟨.assign hG (htarget level).prints (hvalue level).prints,
      fun hd => ((htarget level).leads hd).assign ((hvalue level).leads hd)⟩

/-- Expressions that were read are printed as texts that are read again, elements included. -/
theorem yields_markupPrinted (hd : d.markup = true) :
    Yields (Keeps (MarkupNode d free) fun e => ∀ level, MarkupPrinted d B free level e) (expression d B) := by
  refine yields_keeps (markupPrinted_closed (markup_textClass d _ free))
    (operandClosed_of_fragment (fun h => h.1) fun {X} hX => ?_)
  have helement : Yields (fun el => AllNodes (MarkupNode d free) el.nodes → ∀ level,
      ElementText d B (fun _ => True) el (el.print level)) (element X) :=
    yields_elementText (fun _ _ _ => trivial) .none (fun h level => (h level).fillsBraces) hX
  rw [markupExpr, if_pos hd]
  exact (yields_lexeme helement).map fun el hel hnodes level => .jsx hd (hel hnodes.tail level)

end Expressions

/-- The printed text of an element that was read is read as the element, and as a whole, if the
expressions in it are made of operators over names, literals and elements. Where types are part of
the language, there may not be both conditionals and operators that are words right in front of a
tag. -/
theorem element_read_print (d : Dialect) (hd : d.markup = true) {text rest : List Char}
    {el : Element}
    (hread : (element (expression d (blockOf (statement d))) (.ofList text)).read? =
      some (el, rest))
    (h : ∀ n ∈ el.nodes, n.isOperator = true ∨ n.isMarkup = true)
    (hword : d.isTypeScript = true →
      (∀ n ∈ el.nodes, n.tagBehindWord = false) ∨ ∀ n ∈ el.nodes, n.isConditional = false)
    (level : Nat) :
    (element (expression d (blockOf (statement d))) (.ofList (el.print level).toList)).read? =
      some (el, []) := by
  rw [read?_eq_run, Cursor.ofList_rest] at hread ⊢
  obtain ⟨free, hnodes⟩ : ∃ free, AllNodes (MarkupNode d free) el.nodes := by
    cases hd : d.isTypeScript with
    | false =>
      refine ⟨false, fun n hn => ⟨h n hn, fun htyped => ?_⟩⟩
      rw [hd] at htyped
      cases htyped
    | true =>
      rcases hword hd with hword | hcond
      · exact ⟨false, fun n hn => ⟨h n hn, fun _ => hword n hn⟩⟩
      · exact ⟨true, fun n hn => ⟨h n hn, fun _ => hcond n hn⟩⟩
  have htext : ElementText d _ (fun _ => True) el (el.print level) :=
    yields_elementText (fun _ _ _ => trivial) .none (fun h level => (h level).fillsBraces)
      (yields_markupPrinted hd) text el rest hread hnodes level
  have hwhole := htext.reads [] trivial
  rwa [List.append_nil] at hwhole

/-- Every kind of name, value and child, with arrows in a string and between tags, and an element
behind an operator that is a word and stands between two operands. -/
def mixedMarkup : String :=
  "<a.b-c x:y='=>' \x7b...f(z)\x7d e=\x7bg ? <></> : [-1]\x7d h=<i j /> k>t => \" \x7d " ++
    "\x7bl in <m>=> n</m>\x7d\x7b\x7d<p \x7b...q\x7d />\n</a.b-c>"

theorem element_read_print_mixedMarkup :
    ∃ el, el.print 0 = mixedMarkup ∧ el.nodes.length = 18 ∧
      (element (expression .tsx (blockOf (statement .tsx)))
        (.ofList mixedMarkup.toList)).read? = some (el, []) := by
  have hread : (element (expression .tsx (blockOf (statement .tsx)))
      (.ofList ("<a.b-c x:y = '=>' \x7b... f (z)\x7d e=\x7b(g ? <></> : [-1])\x7d h=<i j />k>" ++
        "t => \" \x7d \x7b(l) in <m>=> n</m>\x7d\x7b/* o */\x7d<p \x7b...q\x7d/>\n" ++
        "</ a.b-c >;").toList)).read?.map
          (fun x => (x.1.print 0, x.1.nodes.length,
            x.1.nodes.all fun n => n.isOperator || n.isMarkup,
            x.1.nodes.all fun n => !n.tagBehindWord)) = some (mixedMarkup, 18, true, true) := by
    decide +kernel
  obtain ⟨⟨el, rest⟩, hel, hshape⟩ := Option.map_eq_some_iff.1 hread
  obtain ⟨hprint, hlength, hnodes, hword⟩ : el.print 0 = mixedMarkup ∧ el.nodes.length = 18 ∧
      (∀ n ∈ el.nodes, n.isOperator = true ∨ n.isMarkup = true) ∧
        ∀ n ∈ el.nodes, n.tagBehindWord = false := by
    simpa using hshape
  refine ⟨el, hprint, hlength, ?_⟩
  rw [← hprint]
  exact element_read_print .tsx rfl hel hnodes (fun _ => .inl hword) 0

/-- Parentheses keep the operator apart from the colon before it. They are not printed, and then
`typeof <a>` is taken for the type of a parameter: the printed element is refused. -/
theorem not_element_reread :
    ∃ el, (element (expression .tsx (blockOf (statement .tsx)))
        (.ofList "<b>\x7bc ? x : (typeof <a>=> y</a>)\x7d</b>".toList)).read? = some (el, []) ∧
      (∀ n ∈ el.nodes, n.isOperator = true ∨ n.isMarkup = true) ∧
      el.print 0 = "<b>\x7bc ? x : typeof <a>=> y</a>\x7d</b>" ∧
      (element (expression .tsx (blockOf (statement .tsx)))
        (.ofList (el.print 0).toList)).read? = none := by
  have hread : (element (expression .tsx (blockOf (statement .tsx)))
      (.ofList "<b>\x7bc ? x : (typeof <a>=> y</a>)\x7d</b>".toList)).read?.map
        (fun x => (x.1.print 0, x.1.nodes.all fun n => n.isOperator || n.isMarkup, x.2)) =
          some ("<b>\x7bc ? x : typeof <a>=> y</a>\x7d</b>", true, []) := by
    decide +kernel
  have hnone : (element (expression .tsx (blockOf (statement .tsx)))
      (.ofList "<b>\x7bc ? x : typeof <a>=> y</a>\x7d</b>".toList)).read?.isNone = true := by
    decide +kernel
  obtain ⟨⟨el, rest⟩, hel, hshape⟩ := Option.map_eq_some_iff.1 hread
  obtain ⟨hprint, hnodes, hrest⟩ : el.print 0 = "<b>\x7bc ? x : typeof <a>=> y</a>\x7d</b>" ∧
      (∀ n ∈ el.nodes, n.isOperator = true ∨ n.isMarkup = true) ∧ rest = [] := by
    simpa using hshape
  refine ⟨el, hrest ▸ hel, hnodes, hprint, ?_⟩
  rw [hprint]
  exact Option.isNone_iff_eq_none.1 hnone

end TsxCompiler.Grammar
