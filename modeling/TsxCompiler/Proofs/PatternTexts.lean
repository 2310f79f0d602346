import TsxCompiler.Proofs.EntryTexts
import TsxCompiler.Proofs.ParsedOperators

/-!
# Binding patterns are read back

What was read decides which entries a pattern can have: the texts of entries are followed along the
grammar (`yields_readsBack`), so every pattern that is read is one whose printed text is read as it
(`bindingPattern_read_print`), if the expressions in it are made of operators over names and
literals. No arrow stands in such a text.
-/

namespace TsxCompiler.Grammar

open Peg Peg.Parser Text

variable {d : Dialect} {B : Parser (List Stmt)}

/-! ## Texts without arrows -/

theorem arrowFree_braceClass (d : Dialect) : BraceClass d ArrowFree where
  toTextClass := arrowFree_textClass d
  brace {c s} hc h := by
    have hquote : isQuote c = false := by rcases hc with rfl | rfl <;> decide
    exact ((arrowFree_cons hquote s).1 h).2

theorem leads_dots {text : String} (h : LeadsArrowFree text) : LeadsArrowFree ("..." ++ text) :=
  .append (.ofPlain rfl) h

theorem leads_initializerText {value : Option Expr} {level : Nat}
    (h : ∀ e ∈ value, OperatorTree e) : LeadsArrowFree (initializerText level value) := by
  cases value with
  | none => exact .ofPlain rfl
  | some e =>
    intro s hs
    have hfree := (h e rfl).leadsArrowFree level s hs
    rw [initializerText_some]
    exact (arrowFree_cons (by decide) _).2 ⟨rfl, (arrowFree_cons (by decide) _).2 ⟨rfl,
      (arrowFree_cons (by decide) _).2 ⟨rfl, hfree⟩⟩⟩

theorem leads_row {α : Type} {text : α → String} {xs : List α}
    (h : ∀ x ∈ xs, LeadsArrowFree (text x)) : LeadsArrowFree (Print.commaList (xs.map text)) := by
  refine .commaList fun t ht => ?_
  obtain ⟨x, hx, rfl⟩ := List.mem_map.1 ht
  exact h x hx

theorem leads_bracesAround {α : Type} {text : α → String} {xs : List α}
    (h : ∀ x ∈ xs, LeadsArrowFree (text x)) :
    LeadsArrowFree (Print.bracesAround (xs.map text)) := by
  unfold Print.bracesAround
  split
  · exact .ofPlain rfl
  · exact .append (.append (.ofPlain rfl) (leads_row h)) (.ofPlain rfl)

/-! ## Patterns that were read -/

/-- The printed text of a pattern has no arrow in it and is read as the pattern, if the expressions
in it are made of operators over names and literals. -/
def ReadsBack (d : Dialect) (B : Parser (List Stmt)) (p : Pattern) : Prop :=
  AllNodes (fun n => n.isOperator = true) p.nodes → ∀ level,
    PatternText d B ArrowFree p (p.print level) ∧ LeadsArrowFree (p.print level)

section Read

theorem yields_initializer_keeps :
    Yields (fun value => ∀ e ∈ value, Keeps (fun n => n.isOperator = true) OperatorTree e)
      (initializer (expression d B)) :=
  (yields_operatorTree.skipThen _).optional

variable [Shrinks B]

theorem printsWell_value {value : Option Expr} (h : ∀ e ∈ value, OperatorTree e) (level : Nat) :
    ∀ e ∈ value, PrintsWell d B ArrowFree level e :=
  fun e he => (h e he).printsWell (arrowFree_textClass d) level

theorem yields_keyText : Yields (fun key => AllNodes (fun n => n.isOperator = true) key.nodes →
    ∀ level, KeyText d B ArrowFree key (key.print level) ∧ LeadsArrowFree (key.print level))
    (propertyKey (expression d B)) := by
  have hG := arrowFree_textClass d
  refine .choice (yields_stringLit.map fun lit h _ _ => ⟨.string hG h, .ofString h⟩)
    (.choice (yields_number.map fun text h _ _ => ⟨.number hG h, .ofNumber h⟩)
      (.choice ((yields_operatorTree.between _ _).map fun e h hnodes level => ?_)
        (yields_word.map fun name h _ _ => ⟨.word hG h, .ofWord h⟩)))
  have htree := h hnodes
  refine ⟨.computed hG (htree.printsWell hG level), ?_⟩
  rw [PropertyKey.print, guarded_assignment]
  exact .append (.append (.ofPlain rfl) (htree.leadsArrowFree level)) (.ofPlain rfl)

variable {X : Parser Pattern} (hX : Yields (ReadsBack d B) X)
include hX

theorem yields_arrayEntry :
    Yields (fun p => AllNodes (fun n => n.isOperator = true) p.nodes → ∀ level,
        EntryText d B ArrowFree (patternElement (expression d B) (bindingPattern (expression d B)))
          p (p.print level) ∧ LeadsArrowFree (p.print level))
      (patternElement (expression d B) X) := by
  have hG := arrowFree_textClass d
  refine .orElse ((hX.skipThen _).map fun p hp hnodes level => ?_)
    (hX.both yields_initializer_keeps fun p value hp hvalue hnodes level => ?_)
  · obtain ⟨htext, hlead⟩ := hp hnodes.tail level
    exact ⟨entryText_rest hG htext, leads_dots hlead⟩
  · obtain ⟨hpattern, hinit⟩ := nodes_withDefault hnodes
    obtain ⟨htext, hlead⟩ := hp hpattern level
    have htrees : ∀ e ∈ value, OperatorTree e := fun e he => hvalue e he (hinit e he)
    rw [print_withDefault]
    exact ⟨entryText_element hG htext (printsWell_value htrees level),
      hlead.append (leads_initializerText htrees)⟩

theorem yields_objectEntry :
    Yields (fun x => AllNodes (fun n => n.isOperator = true) x.nodes → ∀ level,
        EntryText d B ArrowFree (patternProperty (expression d B) (bindingPattern (expression d B)))
          x (x.print level) ∧ LeadsArrowFree (x.print level))
      (patternProperty (expression d B) X) := by
  have hG := arrowFree_textClass d
  refine .choice ((hX.skipThen _).map fun p hp hnodes level => ?_)
    (.choice (((yields_keyText.thenSkip _).seq hX).both yields_initializer_keeps
      fun entry value hentry hvalue hnodes level => ?_)
      (yields_identifier.both yields_initializer_keeps
        fun name value hname hvalue hnodes level => ?_))
  · obtain ⟨htext, hlead⟩ := hp hnodes level
    exact ⟨entryText_restProperty hG htext, leads_dots hlead⟩
  · obtain ⟨htarget, hinit⟩ := nodes_withDefault hnodes.right
    obtain ⟨hkey, hkeyLead⟩ := hentry.1 hnodes.left level
    obtain ⟨htext, hlead⟩ := hentry.2 htarget level
    have htrees : ∀ e ∈ value, OperatorTree e := fun e he => hvalue e he (hinit e he)
    rw [PatternProperty.print, print_withDefault]
    exact ⟨entryText_keyed hG hkey htext (printsWell_value htrees level),
      .append (.append hkeyLead (.ofPlain rfl)) (hlead.append (leads_initializerText htrees))⟩
  · have htrees : ∀ e ∈ value, OperatorTree e := by
      intro e he
      obtain rfl : value = some e := he
      exact hvalue e rfl hnodes
    rw [print_shorthand]
    exact ⟨entryText_shorthand hG hname (printsWell_value htrees level),
      (LeadsArrowFree.ofWord (isIdentifier_of_isName hname)).append (leads_initializerText htrees)⟩

omit hX in
/-- Every pattern that is read is one whose printed text is read as it. -/
theorem yields_readsBack : Yields (ReadsBack d B) (bindingPattern (expression d B)) := by
  refine .fix fun X hX => .choice ?_ (.choice ?_ ?_)
  · refine (((yields_arrayEntry hX).sepByTrailing _).between _ _).map fun ps hps hnodes level => ?_
    have hparts := hnodes.tail
    rw [Pattern.nodesAll_eq, allNodes_flatMap] at hparts
    have hentries := fun p hp => hps p hp (hparts p hp) level
    refine ⟨patternText_array (arrowFree_textClass d) fun p hp => (hentries p hp).1, ?_⟩
    rw [Pattern.print, printAll_patterns]
    exact .append (.append (.ofPlain rfl) (leads_row fun p hp => (hentries p hp).2)) (.ofPlain rfl)
  · refine (((yields_objectEntry hX).sepByTrailing _).between _ _).map fun xs hxs hnodes level => ?_
    have hparts := hnodes.tail
    rw [PatternProperty.nodesAll_eq, allNodes_flatMap] at hparts
    have hentries := fun x hx => hxs x hx (hparts x hx) level
    refine ⟨patternText_object (arrowFree_braceClass d) fun x hx => (hentries x hx).1, ?_⟩
    rw [Pattern.print, printAll_properties]
    exact leads_bracesAround fun x hx => (hentries x hx).2
  · exact yields_identifier.map fun name hname _ _ =>
      ⟨patternText_ident (arrowFree_textClass d) hname, .ofWord (isIdentifier_of_isName hname)⟩

end Read

/-- The printed text of a pattern that was read is read as the pattern, and as a whole, if the
defaults and the computed keys in it are made of operators over names and literals. -/
theorem bindingPattern_read_print (d : Dialect) {text rest : List Char} {p : Pattern}
    (hread : (bindingPattern (expression d (blockOf (statement d))) (.ofList text)).read? =
      some (p, rest))
    (h : ∀ n ∈ p.nodes, n.isOperator = true) (level : Nat) :
    (bindingPattern (expression d (blockOf (statement d)))
      (.ofList (p.print level).toList)).read? = some (p, []) := by
  rw [read?_eq_run, Cursor.ofList_rest] at hread ⊢
  obtain ⟨htext, hlead⟩ := yields_readsBack text p rest hread h level
  have hwhole := htext.reads [] rfl (hlead [] rfl)
  rwa [List.append_nil, skip_nil] at hwhole

/-- Entries of every kind, with defaults where one may stand. -/
def mixedPattern : String :=
  "\x7b a = - -1, [k + f?.(...b)]: [c = x ? 'y' : this, \x7b\x7d, ...[e]], " ++
    "\"g\": \x7b h \x7d = [], 2.5: i, ...j \x7d"

theorem bindingPattern_read_print_mixedPattern :
    ∃ p, p.print 0 = mixedPattern ∧ p.nodes.length = 25 ∧
      (bindingPattern (expression .tsx (blockOf (statement .tsx)))
        (.ofList mixedPattern.toList)).read? = some (p, []) := by
  have hread : (bindingPattern (expression .tsx (blockOf (statement .tsx)))
      (.ofList ("\x7ba=- -1,[(k+f?.(...b))]:[c=x?'y':this,\x7b\x7d,...[e]," ++
        "],\"g\":\x7bh\x7d=[],2.5:i,...j,\x7d;").toList)).read?.map
          (fun x => (x.1.print 0, x.1.nodes.length, x.1.nodes.all Node.isOperator)) =
            some (mixedPattern, 25, true) := by
    decide +kernel
  obtain ⟨⟨p, rest⟩, hp, hshape⟩ := Option.map_eq_some_iff.1 hread
  obtain ⟨hprint, hlength, hnodes⟩ :
      p.print 0 = mixedPattern ∧ p.nodes.length = 25 ∧ p.nodes.all Node.isOperator = true := by
    simpa using hshape
  refine ⟨p, hprint, hlength, ?_⟩
  rw [← hprint]
  exact bindingPattern_read_print .tsx hp (List.all_eq_true.1 hnodes) 0

end TsxCompiler.Grammar
