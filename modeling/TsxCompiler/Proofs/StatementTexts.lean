import TsxCompiler.Proofs.FunctionTexts
import TsxCompiler.Proofs.KeptTexts
import TsxCompiler.Proofs.StatementStarts

/-!
# Statements are read back

A statement is read as it is printed (`StatementText`) whatever follows it, except that an `if` goes
on with an `else`. Statements in braces are lines, and lines are read one after the other whatever
their indentation (`run_lines`), so a block is read back (`blockText`). In front of a branch of an
`if` always stands a brace, or an `if` behind `else`; so a branch is read back where it is a block,
and the trees of printed statements have no other branches.
-/

namespace TsxCompiler.Grammar

open Peg Peg.Parser Text

variable {α : Type} {d : Dialect} {Good : List Char → Prop} {level : Nat}

/-! ## Lines -/

theorem skip_indentation (level : Nat) (s : List Char) :
    skip ((Print.indentation level).toList ++ s) = skip s := by
  induction level with
  | zero => rfl
  | succ level ih =>
    have htext : (Print.indentation (level + 1)).toList ++ s =
        ' ' :: ' ' :: ' ' :: ' ' :: ((Print.indentation level).toList ++ s) := by
      simp [Print.indentation, List.replicate_succ]
    rw [htext, skip_blank (by decide), skip_blank (by decide), skip_blank (by decide),
      skip_blank (by decide), ih]

theorem line_append (text : String) (level : Nat) (s : List Char) :
    (Print.line text level).toList ++ s =
      (Print.indentation level).toList ++ (text.toList ++ '\n' :: s) := by
  simp [Print.line]

theorem blockAround_append (lines : String) (level : Nat) (s : List Char) :
    (Print.blockAround lines level).toList ++ s =
      '\x7b' :: '\n' :: (lines.toList ++ ((Print.indentation level).toList ++ '\x7d' :: s)) := by
  simp [Print.blockAround]

/-- The text of an entry on a line of its own: it is read as the entry in front of a line that may
come next. -/
structure LineText (Good : List Char → Prop) (Next : List Char → Prop) (p : Parser α) (a : α)
    (text : String) : Prop where
  skip_append : ∀ s, skip (text.toList ++ s) = text.toList ++ s
  next : ∀ s, Next (text.toList ++ s)
  reads : ∀ rest, Next (skip rest) → Good (text.toList ++ rest) →
    run p (text.toList ++ rest) = some (a, skip rest)

/-- The lines of entries with a text each. -/
def linesOf (texts : List String) (level : Nat) : String :=
  String.join (texts.map fun text => Print.line text level)

theorem linesOf_cons (text : String) (texts : List String) (level : Nat) (s : List Char) :
    (linesOf (text :: texts) level).toList ++ s =
      (Print.indentation level).toList ++
        (text.toList ++ '\n' :: ((linesOf texts level).toList ++ s)) := by
  rw [linesOf, List.map_cons, String.join_cons, String.toList_append, List.append_assoc,
    line_append]
  rfl

/-- Lines are read one after the other, up to what ends them. -/
theorem run_lines {Next : List Char → Prop} {p : Parser α} [Consumes p] (hS : SuffixClosed Good)
    {text : α → String} {xs : List α} (h : ∀ x ∈ xs, LineText Good Next p x (text x))
    {z : List Char} (hnext : Next (skip z)) (hz : run p (skip z) = none)
    (hgood : Good ((linesOf (xs.map text) level).toList ++ z)) :
    Next (skip ((linesOf (xs.map text) level).toList ++ z)) ∧
      run (many p) (skip ((linesOf (xs.map text) level).toList ++ z)) = some (xs, skip z) := by
  induction xs with
  | nil => exact ⟨hnext, run_many_none hz⟩
  | cons x xs ih =>
    have hx := h x (by simp)
    rw [List.map_cons, linesOf_cons] at hgood ⊢
    have hline := hS _ _ hgood
    obtain ⟨hmore, hrest⟩ := ih (fun y hy => h y (by simp [hy])) (hS ['\n'] _ (hS _ _ hline))
    have hblank : skip ('\n' :: ((linesOf (xs.map text) level).toList ++ z)) =
        skip ((linesOf (xs.map text) level).toList ++ z) :=
      skip_blank (by decide) _
    rw [skip_indentation, hx.skip_append]
    refine ⟨hx.next _, ?_⟩
    rw [run_many_step (hx.reads _ (hblank.symm ▸ hmore) hline), hblank, hrest]
    rfl

/-- Lines in braces. -/
theorem run_blockLines {Next : List Char → Prop} {p : Parser α} [Consumes p]
    (hS : SuffixClosed Good) {text : α → String} {xs : List α}
    (h : ∀ x ∈ xs, LineText Good Next p x (text x)) (level : Nat) {rest : List Char}
    (hnext : Next ('\x7d' :: rest)) (hz : run p ('\x7d' :: rest) = none)
    (hgood : Good ((Print.blockAround (linesOf (xs.map text) (level + 1)) level).toList ++
      rest)) :
    ∃ s, (Print.blockAround (linesOf (xs.map text) (level + 1)) level).toList ++ rest =
        '\x7b' :: s ∧ Next (skip s) ∧ run (many p) (skip s) = some (xs, '\x7d' :: rest) := by
  rw [blockAround_append] at hgood ⊢
  have hend : skip ((Print.indentation level).toList ++ '\x7d' :: rest) = '\x7d' :: rest := by
    rw [skip_indentation, skip_cons (by decide) (by decide)]
  obtain ⟨hfirst, hread⟩ := run_lines hS h (hend.symm ▸ hnext) (hend.symm ▸ hz)
    (hS ['\x7b', '\n'] _ hgood)
  rw [hend] at hread
  refine ⟨_, rfl, ?_⟩
  rw [skip_blank (by decide)]
  exact ⟨hfirst, hread⟩

/-! ## Statements -/

/-- Words that no statement starts with: the one that goes on with an `if`, and those that only an
item of a module starts with. -/
def outerWords : List String := ["else", "import", "export"]

/-- The text of a statement: it is read as the statement in front of all but an `else`. -/
structure StatementText (d : Dialect) (Good : List Char → Prop) (s : Stmt) (text : String) :
    Prop where
  skip_append : ∀ t, skip (text.toList ++ t) = text.toList ++ t
  words : ∀ w ∈ outerWords, ∀ t, run (keyword w) (text.toList ++ t) = none
  reads : ∀ rest, run (keyword "else") (skip rest) = none → Good (text.toList ++ rest) →
    run (statement d) (text.toList ++ rest) = some (s, skip rest)

theorem StatementText.lineText {s : Stmt} {text : String} (h : StatementText d Good s text) :
    LineText Good (fun t => run (keyword "else") t = none) (statement d) s text :=
  ⟨h.skip_append, h.words "else" (by decide), h.reads⟩

theorem run_terminator_cons (rest : List Char) :
    run terminator (skip (';' :: rest)) = some ((), skip rest) := by
  rw [skip_of_endsValue (by decide)]
  simp [terminator, run_yielding, run_optional, run_sym, run_chars_cons, run_char_cons]

/-- A statement whose text starts with a word. -/
theorem statementText_word {s : Stmt} {text w : String} {more : List Char}
    (htext : text.toList = w.toList ++ more) (hw : isIdentifier w = true)
    (hend : ∀ t, endsWord (more ++ t) = true) (hne : w ∉ outerWords)
    (hreads : ∀ rest, run (keyword "else") (skip rest) = none → Good (text.toList ++ rest) →
      run (statement d) (text.toList ++ rest) = some (s, skip rest)) :
    StatementText d Good s text where
  skip_append t := by
    rw [htext, List.append_assoc]
    exact skip_identifier hw _
  words x hx t := by
    rw [htext, List.append_assoc]
    exact run_keyword_other hw (hend t) fun heq => hne (heq ▸ hx)
  reads := hreads

/-! ## Blocks -/

theorem printAll_statements {stmts : List Stmt} (h : ∀ s ∈ stmts, s.isErased = false)
    (level : Nat) :
    Stmt.printAll stmts level = linesOf (stmts.map fun s => s.print level) level := by
  induction stmts with
  | nil => rfl
  | cons s stmts ih =>
    rw [Stmt.printAll, Stmt.asLine, if_neg (by simp [h s (by simp)]),
      ih fun t ht => h t (by simp [ht]), List.map_cons, linesOf, linesOf, List.map_cons,
      String.join_cons]

theorem run_statement_brace (s : List Char) : run (statement d) ('\x7d' :: s) = none := by
  have hexpr : run (expression d (blockOf (statement d))) ('\x7d' :: s) = none :=
    run_levelRule_none (by decide) 0 s
  rw [run_statement_expr (by decide) (by decide) (by decide), run_map, run_thenSkip, hexpr]
  rfl

/-- Statements in braces are read line by line. -/
theorem blockText (hS : SuffixClosed Good) {stmts : List Stmt}
    (hkept : ∀ s ∈ stmts, s.isErased = false)
    (h : ∀ s ∈ stmts, StatementText d Good s (s.print (level + 1))) :
    BlockText (blockOf (statement d)) Good stmts (Stmt.printBlock stmts level) := by
  have hbrace : ∀ rest, skip ('\x7d' :: rest) = '\x7d' :: rest := fun rest =>
    skip_of_endsValue (by decide) rest
  rw [Stmt.printBlock_eq]
  split
  · rename_i hall
    -- with erased statements left out, an empty block is one without statements
    have hempty : stmts = [] := by
      refine List.eq_nil_iff_forall_not_mem.2 fun s hs => ?_
      have herased : s.isErased = true := List.all_eq_true.1 hall s hs
      simp [hkept s hs] at herased
    subst hempty
    refine ⟨⟨_, rfl⟩, fun rest _ => run_between_cons (c := '\x7d') rfl rfl ?_⟩
    show run _ (skip ('\x7d' :: rest)) = _
    rw [hbrace]
    exact run_many_none (run_statement_brace rest)
  · rw [printAll_statements hkept]
    refine ⟨?_, fun rest hgood => ?_⟩
    · have htext := blockAround_append
        (linesOf (stmts.map fun s => s.print (level + 1)) (level + 1)) level []
      rw [List.append_nil] at htext
      exact ⟨_, htext⟩
    · obtain ⟨s, hs, -, hread⟩ := run_blockLines hS (fun s hs => (h s hs).lineText) level
        (run_keyword_none (by decide) "else" rest) (run_statement_brace rest) hgood
      rw [hs]
      exact run_between_cons (c := '\x7d') rfl rfl hread

theorem run_statement_block {stmts : List Stmt} {text : String}
    (h : BlockText (blockOf (statement d)) Good stmts text) {rest : List Char}
    (hgood : Good (text.toList ++ rest)) :
    run (statement d) (text.toList ++ rest) = some (.block stmts, skip rest) := by
  rw [run_statement, statementBody, run_choice_cons, run_map, h.reads rest hgood]
  rfl

theorem statementText_block {stmts : List Stmt} {text : String}
    (h : BlockText (blockOf (statement d)) Good stmts text) :
    StatementText d Good (.block stmts) text where
  skip_append := h.skip_append
  words w _ t := by
    obtain ⟨s, hs⟩ := h.starts
    rw [hs]
    exact run_keyword_none (by decide) w _
  reads _ _ hgood := run_statement_block h hgood

/-! ## Declarations -/

/-- The text of a declaration: it starts with one of its words and is read as the declaration,
whatever follows it. -/
structure DeclText (d : Dialect) (Good : List Char → Prop) (x : Decl) (text : String) : Prop where
  starts : ∃ w more, text.toList = w.toList ++ more ∧ w ∈ declarationWords ∧
    ∀ t, endsWord (more ++ t) = true
  reads : ∀ rest, Good (text.toList ++ rest) →
    run (runtimeDecl d (expression d (blockOf (statement d))) (blockOf (statement d)))
      (text.toList ++ rest) = some (x, skip rest)

theorem isIdentifier_of_mem_declarationWords {w : String} (h : w ∈ declarationWords) :
    isIdentifier w = true := by
  simp only [declarationWords, List.mem_cons, List.not_mem_nil, or_false] at h
  rcases h with rfl | rfl | rfl | rfl | rfl | rfl | rfl | rfl <;> decide

theorem statementText_decl {x : Decl} {text : String} (h : DeclText d Good x text) :
    StatementText d Good (.decl x) text := by
  obtain ⟨w, more, htext, hw, hend⟩ := h.starts
  have hident := isIdentifier_of_mem_declarationWords hw
  refine statementText_word htext hident hend ?_ fun rest _ hgood => ?_
  · intro hx
    simp only [declarationWords, List.mem_cons, List.not_mem_nil, or_false] at hw
    rcases hw with rfl | rfl | rfl | rfl | rfl | rfl | rfl | rfl <;> exact absurd hx (by decide)
  · refine run_statement_decl ?_ (h.reads rest hgood)
    rw [htext, List.append_assoc]
    exact run_sym_word rfl (by decide) hident _

theorem printAll_declarators (xs : List Declarator) (level : Nat) :
    Declarator.printAll xs level = xs.map fun x => x.print level := by
  induction xs with
  | nil => rfl
  | cons x xs ih => rw [Declarator.printAll, ih, List.map_cons]

section Declarations

variable (hG : TextClass d Good)
include hG

theorem entryText_declarator {B : Parser (List Stmt)} [Shrinks B] {p : Pattern} {text : String}
    {value : Option Expr} (h : PatternText d B Good p text)
    (hvalue : ∀ e ∈ value, PrintsWell d B Good level e) :
    EntryText d B Good (declarator d (expression d B)) ⟨p, value⟩
      (text ++ initializerText level value) := by
  refine entryText_withDefault hG h hvalue fun rest hrest hpattern hinit => ?_
  have hascription : run (ascription d) (skip ((initializerText level value).toList ++ rest)) = _ :=
    (run_marks_initializerText hrest).2
  rw [declarator, run_both, run_thenSkip, hpattern, Option.bind_some, hascription, Option.map_some,
    Option.bind_some, hinit]
  rfl

theorem declText_var (kind : VarKind) {x : Declarator} {xs : List Declarator}
    (h : ∀ y ∈ x :: xs, EntryText d (blockOf (statement d)) Good
      (declarator d (expression d (blockOf (statement d)))) y (y.print level)) :
    DeclText d Good (.var kind (x :: xs)) ((Decl.var kind (x :: xs)).print level) := by
  have htext : ∀ s, ((Decl.var kind (x :: xs)).print level).toList ++ s =
      kind.keyword.toList ++ ' ' :: ((Print.commaList ((x :: xs).map fun y => y.print level)).toList ++
        ';' :: s) := by
    simp [Decl.print, printAll_declarators]
  refine ⟨⟨kind.keyword, _, by simpa using htext [], by cases kind <;> decide, fun t => rfl⟩,
    fun rest hgood => ?_⟩
  rw [htext] at hgood ⊢
  have hrow := run_entryRow1 hG h (valueEnd_cons (by decide) rest)
    (hG.cons (by decide) (hG.append (passed_of_isIdentifier (isIdentifier_keyword kind)) hgood))
    (by rw [skip_of_endsValue (by decide)]; exact run_sym_none "," rfl (by decide) rest)
  refine run_runtimeDecl_var kind ?_ hrow (run_terminator_cons rest)
  rw [commaList_append, List.map_cons, List.map_cons, rowText]
  exact (h x (by simp)).skip_append _

omit hG in
/-- A word that declares no variables. -/
theorem run_varDecl_word {E : Parser Expr} {w : String} {rest : List Char}
    (hw : isIdentifier w = true) (hend : endsWord rest = true) (h : w ∉ ["const", "let", "var"]) :
    run (varDecl d E) (w.toList ++ rest) = none := by
  simp only [List.mem_cons, List.not_mem_nil, or_false, not_or] at h
  simp [varDecl, run_thenSkip, run_both, run_choice_cons, run_yielding,
    run_keyword_other hw hend h.1, run_keyword_other hw hend h.2.1,
    run_keyword_other hw hend h.2.2]

variable (hS : SuffixClosed Good)
include hS

/-- A function declaration reads back. It is tried as a variable declaration first, which its first
word rules out. -/
theorem declText_func {name : String} (hname : isName name = true) {ps : List Pattern}
    (hps : ParamsText d (blockOf (statement d)) Good level ps) {body : List Stmt}
    (hbody : BlockText (blockOf (statement d)) Good body (Stmt.printBlock body level))
    (isAsync : Bool) :
    DeclText d Good (.func name ⟨isAsync, ps, body⟩)
      ((Decl.func name ⟨isAsync, ps, body⟩).print level) := by
  have hhead : "function " ++ name = "function" ++ Print.nameAfter (some name) := by
    rw [Print.nameAfter, ← String.append_assoc]
    rfl
  rw [Decl.print, hhead]
  have hend : ∀ s, endsWord ((Print.nameAfter (some name)).toList ++ s) = true := by
    intro s
    rw [Print.nameAfter, String.toList_append]
    rfl
  have hparen : ∀ s, run identifier (skip ((Print.nameAfter (some name)).toList ++ '(' :: s)) =
      some (name, '(' :: s) := by
    intro s
    rw [run_identifier_nameAfter hname (endsWord_cons (by decide) s),
      skip_cons (by decide) (by decide)]
  refine ⟨?_, fun rest hgood => ?_⟩
  · have htext := print_func isAsync ps body (some name) level []
    rw [List.append_nil] at htext
    cases isAsync with
    | false =>
      refine ⟨"function", _, htext, by decide, fun t => ?_⟩
      rw [List.append_assoc]
      exact hend _
    | true => exact ⟨"async", _, htext, by decide, fun t => rfl⟩
  · have hread := run_functionWith_text hS hG hps hbody hparen isAsync hgood
    have hvar : run (varDecl d (expression d (blockOf (statement d))))
        ((Func.print ⟨isAsync, ps, body⟩ ("function" ++ Print.nameAfter (some name)) level).toList ++
          rest) = none := by
      rw [print_func]
      cases isAsync with
      | false => exact run_varDecl_word (w := "function") (by decide) (hend _) (by decide)
      | true => exact run_varDecl_word (w := "async") (by decide) rfl (by decide)
    rw [runtimeDecl, run_choice_cons, hvar, run_choice_cons, functionDecl, run_map, hread]
    rfl

end Declarations

/-! ## Expressions -/

section Fronts

variable {plain bracketless : Prop}

theorem run_pattern_of_continues {E : Parser Expr} [Shrinks E] {rest : List Char}
    (h : Continues bracketless rest) (hbracket : bracketless) :
    run (bindingPattern E) (skip rest) = none := by
  have hopen : ∀ (text : String) {c : Char}, text.toList = [c] → (skip rest).head? ≠ some c →
      run (sym text) (skip rest) = none := by
    intro text c htext hne
    cases hs : skip rest with
    | nil => simp [run_sym, htext, run_chars_cons]
    | cons x s =>
      rw [hs] at hne
      exact run_sym_none text htext (fun hx => hne (congrArg some hx)) s
  have harray := hopen "[" rfl (h.bracket hbracket)
  have hobject := hopen "\x7b" rfl h.brace
  rw [run_bindingPattern]
  simp [patternBody, run_choice_cons, arrayPattern, objectPattern, run_map,
    inBrackets, inBraces, between, run_thenSkip, run_skipThen, harray, hobject, h.name]

theorem startsExpression_of_front {text : List Char} (h : ExpressionFront plain text) :
    StartsExpression d plain text := by
  cases h with
  | sign hstart hc s =>
    simp only [List.mem_cons, List.not_mem_nil, or_false, not_or] at hc
    exact startsExpression_cons hstart hc.1 hc.2 s
  | word hw hend =>
    refine startsExpression_word (isIdentifier_of_mem_expressionWords hw) hend ?_ ?_ <;>
      simp only [expressionWords, List.mem_cons, List.not_mem_nil, or_false] at hw <;>
      rcases hw with rfl | rfl | rfl | rfl | rfl | rfl | rfl | rfl <;> decide
  | name hname hs =>
    refine startsExpression_name hname hs.ends hs.name (fun _ => hs.function) ?_
    rintro hplain rfl
    exact run_pattern_of_continues hs ⟨hplain, rfl⟩

end Fronts

section Expressions

variable (hG : TextClass d Good) {e : Expr}
  (h : PrintsWell d (blockOf (statement d)) Good level e)
include hG h

omit hG in
theorem PrintsWell.skip_unambiguous (s : List Char) :
    skip ((e.unambiguous (e.print level)).toList ++ s) =
      (e.unambiguous (e.print level)).toList ++ s := by
  unfold Expr.unambiguous
  split
  · rw [toList_parens]
    exact skip_cons (by decide) (by decide) _
  · exact h.skip_append _

/-- An expression in front of the end of its statement, in parentheses where it needs them. -/
theorem run_expression_unambiguous {rest : List Char}
    (hgood : Good ((e.unambiguous (e.print level)).toList ++ ';' :: rest)) :
    run ((expression d (blockOf (statement d))).thenSkip terminator)
        ((e.unambiguous (e.print level)).toList ++ ';' :: rest) = some (e, skip rest) := by
  obtain ⟨j, hprinted⟩ : ∃ j, Printed d (blockOf (statement d)) Good j e
      (e.unambiguous (e.print level)).toList := by
    unfold Expr.unambiguous
    split
    · rw [toList_parens]
      exact ⟨11, h.parens hG⟩
    · exact ⟨_, h⟩
  rw [run_thenSkip, hprinted.reads_value (valueEnd_cons (by decide) rest) hgood, Option.bind_some,
    run_terminator_cons]
  rfl

/-- An expression statement reads back if no other kind of statement starts as it does. -/
theorem statementText_expr
    (hstart : ∀ s, StartsExpression d True
      ((e.unambiguous (e.print level)).toList ++ ';' :: s)) :
    StatementText d Good (.expr e) ((Stmt.expr e).print level) := by
  have htext : ∀ s, ((Stmt.expr e).print level).toList ++ s =
      (e.unambiguous (e.print level)).toList ++ ';' :: s := by
    simp [Stmt.print]
  refine ⟨fun s => ?_, fun w hw s => ?_, fun rest _ hgood => ?_⟩
  · rw [htext]
    exact h.skip_unambiguous _
  · rw [htext]
    refine (hstart s).words w ?_
    simp only [outerWords, statementWords, List.mem_cons] at hw ⊢
    exact .inr (.inr (.inr hw))
  · rw [htext] at hgood ⊢
    rw [(hstart rest).run_statement trivial, run_map, run_expression_unambiguous hG h hgood]
    rfl

end Expressions

/-! ## Statements behind a word -/

/-- A statement that starts with one of the words that only statements start with. -/
theorem run_statement_word {w : String} {rest : List Char} (hw : w ∈ ["return", "if", "throw"])
    (hend : endsWord rest = true) :
    run (statement d) (w.toList ++ rest) =
      run (choice (returnStmt (expression d (blockOf (statement d))))
        [branchStmt (expression d (blockOf (statement d))) (statement d),
          throwStmt (expression d (blockOf (statement d))), (sym ";").yielding .empty,
          ((expression d (blockOf (statement d))).thenSkip terminator).map Stmt.expr])
        (w.toList ++ rest) := by
  have hident : isIdentifier w = true := by
    simp only [List.mem_cons, List.not_mem_nil, or_false] at hw
    rcases hw with rfl | rfl | rfl <;> decide
  have hdeclaration : run (declaration d (expression d (blockOf (statement d)))
      (blockOf (statement d))) (w.toList ++ rest) = none := by
    refine run_declaration_word hident hend fun h => ?_
    simp only [List.mem_cons, List.not_mem_nil, or_false] at hw
    rcases hw with rfl | rfl | rfl <;> exact absurd h (by decide)
  rw [run_statement, statementBody, run_choice_cons, run_map,
    run_blockOf_none (run_sym_word rfl (by decide) hident rest), run_choice_cons, run_map,
    hdeclaration]
  rfl

/-- Behind `return` a semicolon is no expression, so without a value none is read. -/
theorem statementText_return (hG : TextClass d Good) {value : Option Expr}
    (h : ∀ e ∈ value, PrintsWell d (blockOf (statement d)) Good level e) :
    StatementText d Good (.ret value) ((Stmt.ret value).print level) := by
  cases value with
  | none =>
    have htext : ((Stmt.ret none).print level).toList = "return".toList ++ [';'] := by
      rw [Stmt.print]
      rfl
    refine statementText_word htext (by decide) (fun t => rfl) (by decide) fun rest _ _ => ?_
    have hexpr : run (expression d (blockOf (statement d))) (';' :: rest) = none :=
      run_levelRule_none (by decide) 0 rest
    have hskip : skip (';' :: rest) = ';' :: rest := skip_of_endsValue (by decide) rest
    have hterminator := run_terminator_cons rest
    rw [hskip] at hterminator
    rw [Stmt.print]
    show run (statement d) ("return".toList ++ ';' :: rest) = _
    rw [run_statement_word (by decide) rfl, run_choice_cons, returnStmt, run_map, run_thenSkip,
      run_skipThen, run_keyword_append (by decide) rfl, Option.bind_some, hskip,
      run_optional_none hexpr, Option.bind_some, hterminator]
    rfl
  | some e =>
    have htext : ∀ s, ((Stmt.ret (some e)).print level).toList ++ s =
        "return".toList ++ ' ' :: ((e.print level).toList ++ ';' :: s) := by
      simp [Stmt.print]
    refine statementText_word (w := "return") (by simpa using htext []) (by decide) (fun t => rfl)
      (by decide) fun rest _ hgood => ?_
    rw [htext] at hgood ⊢
    have he := h e rfl
    have hvalue := he.reads_value (valueEnd_cons (by decide) rest)
      (hG.cons (c := ' ') (by decide) (hG.append (by decide) hgood))
    rw [run_statement_word (by decide) rfl, run_choice_cons, returnStmt, run_map, run_thenSkip,
      run_skipThen, run_keyword_append (by decide) rfl, Option.bind_some, skip_blank (by decide),
      he.skip_append, run_optional_some hvalue, Option.bind_some, run_terminator_cons]
    rfl

theorem statementText_throw (hG : TextClass d Good) {e : Expr}
    (h : PrintsWell d (blockOf (statement d)) Good level e) :
    StatementText d Good (.throw e) ((Stmt.throw e).print level) := by
  have htext : ∀ s, ((Stmt.throw e).print level).toList ++ s =
      "throw".toList ++ ' ' :: ((e.print level).toList ++ ';' :: s) := by
    simp [Stmt.print]
  refine statementText_word (w := "throw") (by simpa using htext []) (by decide) (fun t => rfl)
    (by decide) fun rest _ hgood => ?_
  rw [htext] at hgood ⊢
  have hother : ∀ x : String, "throw" ≠ x → ∀ s, run (keyword x) ("throw".toList ++ ' ' :: s) = none :=
    fun x hx s => run_keyword_other (by decide) rfl hx
  have hvalue := h.reads_value (valueEnd_cons (by decide) rest)
    (hG.cons (c := ' ') (by decide) (hG.append (by decide) hgood))
  rw [run_statement_word (by decide) rfl, run_choice_cons, returnStmt, run_map, run_thenSkip,
    run_skipThen, hother "return" (by decide), run_choice_cons, branchStmt, run_both, run_seq,
    run_skipThen, hother "if" (by decide), run_choice_cons, throwStmt, run_map, run_thenSkip,
    run_skipThen, run_keyword_append (by decide) rfl, Option.bind_some, skip_blank (by decide),
    h.skip_append, hvalue, Option.bind_some, run_terminator_cons]
  rfl

/-! ## Branches -/

/-- The text of what stands behind the first branch of an `if`. -/
def elseText (level : Nat) : Option Stmt → String
  | some alt => " else " ++ alt.print level
  | none => ""

/-- The text of an `if` whose branch is a block and whose `else`, if any, is a block or another `if`:
no blocks are added. -/
theorem print_branch (test : Expr) (cons : List Stmt) {alt : Option Stmt}
    (halt : ∀ a ∈ alt, (a.isBlock || a.isBranch) = true) (level : Nat) (s : List Char) :
    ((Stmt.branch test (.block cons) alt).print level).toList ++ s =
      "if".toList ++ ' ' :: '(' :: ((test.print level).toList ++ ')' :: ' ' ::
        ((Stmt.printBlock cons level).toList ++ ((elseText level alt).toList ++ s))) := by
  have hcons : (Stmt.block cons).asBlock (Stmt.block cons).print level =
      Stmt.printBlock cons level := by
    simp [Stmt.asBlock, Stmt.isBlock, Stmt.print]
  cases alt with
  | none =>
    rw [Stmt.print, hcons]
    simp [elseText]
  | some a =>
    have helse : a.asElse a.print level = a.print level := by
      have h := halt a rfl
      unfold Stmt.asElse Stmt.asBlock
      split
      · rfl
      · rename_i hbranch
        rw [if_pos (by simpa [hbranch] using h)]
    rw [Stmt.print, hcons, helse]
    simp [elseText]

/-- An `if` whose branches are blocks, or another `if` behind `else`. -/
theorem statementText_branch (hS : SuffixClosed Good) {test : Expr}
    (htest : PrintsWell d (blockOf (statement d)) Good level test) {cons : List Stmt}
    (hcons : BlockText (blockOf (statement d)) Good cons (Stmt.printBlock cons level))
    {alt : Option Stmt} (halt : ∀ a ∈ alt, (a.isBlock || a.isBranch) = true ∧
      StatementText d Good a (a.print level)) :
    StatementText d Good (.branch test (.block cons) alt)
      ((Stmt.branch test (.block cons) alt).print level) := by
  have htext := print_branch test cons (fun a ha => (halt a ha).1) level
  refine statementText_word (w := "if") (by simpa using htext []) (by decide) (fun t => rfl)
    (by decide) fun rest helse hgood => ?_
  rw [htext] at hgood ⊢
  have hopened := hS [' ', '('] _ (hS "if".toList _ hgood)
  have hblock := hS [')', ' '] _ (hS _ _ hopened)
  have hvalue := htest.reads_value (valueEnd_cons (by decide) _) hopened
  rw [← htest.skip_append, skip_of_endsValue (by decide)] at hvalue
  -- the test in parentheses
  have hparens : run (inParens (expression d (blockOf (statement d))))
      ('(' :: ((test.print level).toList ++ ')' :: ' ' ::
        ((Stmt.printBlock cons level).toList ++ ((elseText level alt).toList ++ rest)))) =
      some (test, (Stmt.printBlock cons level).toList ++ ((elseText level alt).toList ++ rest)) := by
    rw [inParens, run_between_cons rfl rfl hvalue, skip_blank (by decide), hcons.skip_append]
  -- the `else`, or none: then `rest` starts with none, so this `if` takes no foreign one
  have helse' : run ((keyword "else").skipThen (statement d)).optional
      (skip ((elseText level alt).toList ++ rest)) = some (alt, skip rest) := by
    cases alt with
    | none =>
      refine run_optional_none ?_
      rw [run_skipThen]
      show (run (keyword "else") (skip rest)).bind _ = none
      rw [helse]
      rfl
    | some a =>
      have ha := (halt a rfl).2
      have hword : (elseText level (some a)).toList ++ rest =
          ' ' :: ("else".toList ++ ' ' :: ((a.print level).toList ++ rest)) := by
        simp [elseText]
      rw [hword] at hblock ⊢
      have hread := ha.reads rest helse
        (hS [' '] _ (hS "else".toList _ (hS [' '] _ (hS _ _ hblock))))
      refine run_optional_some ?_
      rw [skip_blank (by decide), skip_identifier (by decide), run_skipThen,
        run_keyword_append (by decide) rfl, Option.bind_some, skip_blank (by decide),
        ha.skip_append, hread]
  rw [run_statement_word (by decide) rfl, run_choice_cons, returnStmt, run_map, run_thenSkip,
    run_skipThen, run_keyword_other (by decide) rfl (by decide), run_choice_cons, branchStmt,
    run_both, run_seq, run_skipThen, run_keyword_append (by decide) rfl, Option.bind_some,
    skip_blank (by decide), skip_cons (by decide) (by decide), hparens, Option.bind_some,
    run_statement_block hcons hblock, Option.map_some, Option.bind_some, helse']
  rfl

end TsxCompiler.Grammar
