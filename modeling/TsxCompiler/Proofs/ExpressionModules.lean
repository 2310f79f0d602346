import TsxCompiler.Proofs.ModuleTexts
import TsxCompiler.Proofs.Operators

/-!
# Modules that start with an expression

A statement is an expression unless one of the other kinds starts at its first token. The first
token of an expression that starts with a sign or a name decides that at once.
-/

namespace TsxCompiler.Grammar

open Peg Peg.Parser Text

variable {d : Dialect}

theorem run_blockOf_none {stmt : Parser Stmt} {s : List Char} (h : run (sym "\x7b") s = none) :
    run (blockOf stmt) s = none := by
  simp [blockOf, inBraces, between, run_thenSkip, run_skipThen, h]

/-- The words that a statement starts with where it is no expression and no declaration. -/
def statementWords : List String := ["return", "if", "throw", "else", "import", "export"]

/-- A text at whose first token neither a function nor a class starts and no statement but an
expression; a declaration does not start there as long as `plain` holds. -/
structure StartsExpression (d : Dialect) (plain : Prop) (s : List Char) : Prop where
  brace : run (sym "\x7b") s = none
  semicolon : run (sym ";") s = none
  words : ∀ w ∈ statementWords, run (keyword w) s = none
  function : ∀ {α : Type} (name : Parser α),
    run (functionWith name d (expression d (blockOf (statement d))) (blockOf (statement d))) s = none
  classWord : ∀ {α : Type} (name : Parser α),
    run (classWith name d (expression d (blockOf (statement d))) (blockOf (statement d))) s = none
  declaration : plain → run (declaration d (expression d (blockOf (statement d)))
    (blockOf (statement d))) s = none

theorem StartsExpression.run_statement {plain : Prop} {s : List Char}
    (h : StartsExpression d plain s) (hplain : plain) :
    run (statement d) s =
      run (((expression d (blockOf (statement d))).thenSkip terminator).map Stmt.expr) s := by
  rw [Grammar.run_statement]
  simp [statementBody, run_choice_cons, run_map, run_blockOf_none h.brace, h.declaration hplain,
    returnStmt, branchStmt, throwStmt, run_thenSkip, run_skipThen, run_both, run_seq,
    h.words "return" (by decide), h.words "if" (by decide), h.words "throw" (by decide),
    run_yielding, h.semicolon]

/-- What a declaration starts with at run time. -/
theorem run_runtimeDecl_none {E : Parser Expr} {B : Parser (List Stmt)} {s : List Char}
    (hvar : run (varDecl d E) s = none) (hfunction : run (functionWith identifier d E B) s = none)
    (hclass : run (classWith identifier d E B) s = none) : run (runtimeDecl d E B) s = none := by
  simp [runtimeDecl, run_choice_cons, hvar, functionDecl, classDecl, run_map, hfunction, hclass]

theorem run_declaration_of_parts {E : Parser Expr} {B : Parser (List Stmt)} {s : List Char}
    (hruntime : run (runtimeDecl d E B) s = none)
    (htype : run ((keyword "type").skipThen identifier) s = none)
    (hinterface : run ((keyword "interface").skipThen identifier) s = none) :
    run (declaration d E B) s = none := by
  unfold declaration
  split
  · simp [run_orElse, hruntime, run_map, typeAlias, interfaceDecl, run_thenSkip, htype, hinterface]
  · exact hruntime

theorem run_declaration_runtime {E : Parser Expr} {B : Parser (List Stmt)} {s r : List Char}
    {x : Decl} (h : run (runtimeDecl d E B) s = some (x, r)) :
    run (declaration d E B) s = some (x, r) := by
  unfold declaration
  split
  · rw [run_orElse, h]
    rfl
  · exact h

theorem run_statement_decl {s r : List Char} {x : Decl} (hbrace : run (sym "\x7b") s = none)
    (h : run (runtimeDecl d (expression d (blockOf (statement d))) (blockOf (statement d))) s =
      some (x, r)) : run (statement d) s = some (.decl x, r) := by
  rw [run_statement, statementBody, run_choice_cons, run_map, run_blockOf_none hbrace,
    run_choice_cons, run_map, run_declaration_runtime h]
  rfl

/-! ## Statements that start with no word -/

theorem run_declaration_none {E : Parser Expr} {B : Parser (List Stmt)} {c : Char}
    (h : isWordStart c = false) (s : List Char) : run (declaration d E B) (c :: s) = none := by
  refine run_declaration_of_parts (run_runtimeDecl_none ?_ (run_functionWith_none h s)
    (run_classWith_none h s)) ?_ ?_
  · simp [varDecl, run_thenSkip, run_both, run_choice_cons, run_yielding, run_keyword_none h]
  · simp [run_skipThen, run_keyword_none h]
  · simp [run_skipThen, run_keyword_none h]

theorem startsExpression_cons {plain : Prop} {c : Char} (hw : isWordStart c = false)
    (hb : c ≠ '\x7b') (hs : c ≠ ';') (s : List Char) : StartsExpression d plain (c :: s) where
  brace := run_sym_none "\x7b" rfl hb s
  semicolon := run_sym_none ";" rfl hs s
  words w _ := run_keyword_none hw w s
  function _ := run_functionWith_none hw s
  classWord _ := run_classWith_none hw s
  declaration _ := run_declaration_none hw s

/-- Such a statement is an expression. -/
theorem run_statement_expr {c : Char} (hw : isWordStart c = false) (hb : c ≠ '\x7b') (hs : c ≠ ';')
    (s : List Char) :
    run (statement d) (c :: s) =
      run (((expression d (blockOf (statement d))).thenSkip terminator).map Stmt.expr) (c :: s) :=
  (startsExpression_cons hw hb hs s).run_statement trivial

/-! ## Statements that start with a word -/

section Words

variable {plain : Prop} {w : String} {rest : List Char}

/-- The words that a declaration may start with. -/
def declarationWords : List String :=
  ["const", "let", "var", "function", "async", "class", "type", "interface"]

/-- Any other word starts no declaration. -/
theorem run_declaration_word {E : Parser Expr} {B : Parser (List Stmt)}
    (hw : isIdentifier w = true) (hend : endsWord rest = true) (h : w ∉ declarationWords) :
    run (declaration d E B) (w.toList ++ rest) = none := by
  have hne : ∀ x ∈ declarationWords, w ≠ x := fun x hx heq => h (heq ▸ hx)
  have hother : ∀ x ∈ declarationWords, run (keyword x) (w.toList ++ rest) = none :=
    fun x hx => run_keyword_other hw hend (hne x hx)
  refine run_declaration_of_parts (run_runtimeDecl_none ?_
    (run_functionWith_word hw hend (hne _ (by decide)) fun hasync => absurd hasync
      (hne _ (by decide))) (run_classWith_word hw hend (hne _ (by decide)))) ?_ ?_
  · simp [varDecl, run_thenSkip, run_both, run_choice_cons, run_yielding,
      hother "const" (by decide), hother "let" (by decide), hother "var" (by decide)]
  · simp [run_skipThen, hother "type" (by decide)]
  · simp [run_skipThen, hother "interface" (by decide)]

theorem startsExpression_word (hw : isIdentifier w = true) (hend : endsWord rest = true)
    (h : w ∉ declarationWords) (hs : w ∉ statementWords) :
    StartsExpression d plain (w.toList ++ rest) where
  brace := run_sym_word rfl (by decide) hw rest
  semicolon := run_sym_word rfl (by decide) hw rest
  words x hx := run_keyword_other hw hend fun heq => hs (heq ▸ hx)
  function _ := run_functionWith_word hw hend (by rintro rfl; exact h (by decide))
    (by rintro rfl; exact absurd (by decide) h)
  classWord _ := run_classWith_word hw hend (by rintro rfl; exact h (by decide))
  declaration _ := run_declaration_word hw hend h

theorem ne_of_isName {x : String} (hw : isName w = true) (hx : isReserved x = true) : w ≠ x := by
  rintro rfl
  simp [isName, hx] at hw

/-- A name declares nothing if no other name follows it, no `function` behind `async` and no pattern
behind `let`. -/
theorem run_declaration_name {E : Parser Expr} {B : Parser (List Stmt)} (hw : isName w = true)
    (hend : endsWord rest = true) (hnext : run identifier (skip rest) = none)
    (hasync : w = "async" → run (keyword "function") (skip rest) = none)
    (hlet : w = "let" → run (bindingPattern E) (skip rest) = none) :
    run (declaration d E B) (w.toList ++ rest) = none := by
  have hshape : isIdentifier w = true := isIdentifier_of_isName hw
  have hother : ∀ x, isReserved x = true → run (keyword x) (w.toList ++ rest) = none :=
    fun x hx => run_keyword_other hshape hend (ne_of_isName hw hx)
  -- `type` and `interface` are names too, but they declare only before another name
  have hkeyword : ∀ x, run ((keyword x).skipThen identifier) (w.toList ++ rest) = none := by
    intro x
    rw [run_skipThen, run_keyword_word hshape hend]
    split <;> simp [hnext]
  refine run_declaration_of_parts (run_runtimeDecl_none ?_
    (run_functionWith_word hshape hend (ne_of_isName hw (by decide)) hasync)
    (run_classWith_word hshape hend (ne_of_isName hw (by decide)))) (hkeyword _) (hkeyword _)
  have hdeclarator : w = "let" → run (declarator d E) (skip rest) = none := by
    intro h
    simp [declarator, run_both, run_thenSkip, hlet h]
  by_cases h : w = "let"
  · have hread : run (keyword "let") (w.toList ++ rest) = some ((), skip rest) := by
      rw [run_keyword_word hshape hend, if_pos h]
    simp [varDecl, run_thenSkip, run_both, run_choice_cons, run_yielding,
      hother "const" (by decide), hread, run_sepBy1, hdeclarator h]
  · simp [varDecl, run_thenSkip, run_both, run_choice_cons, run_yielding,
      hother "const" (by decide), hother "var" (by decide), run_keyword_other hshape hend h]

/-- A name starts an expression: it is none of the words that start a statement or a declaration. -/
theorem startsExpression_name (hw : isName w = true) (hend : endsWord rest = true)
    (hnext : run identifier (skip rest) = none)
    (hasync : w = "async" → run (keyword "function") (skip rest) = none)
    (hlet : plain → w = "let" →
      run (bindingPattern (expression d (blockOf (statement d)))) (skip rest) = none) :
    StartsExpression d plain (w.toList ++ rest) where
  brace := run_sym_word rfl (by decide) (isIdentifier_of_isName hw) rest
  semicolon := run_sym_word rfl (by decide) (isIdentifier_of_isName hw) rest
  words x hx := by
    have hreserved : isReserved x = true := by
      simp only [statementWords, List.mem_cons, List.not_mem_nil, or_false] at hx
      rcases hx with rfl | rfl | rfl | rfl | rfl | rfl <;> decide
    exact run_keyword_other (isIdentifier_of_isName hw) hend (ne_of_isName hw hreserved)
  function _ := run_functionWith_word (isIdentifier_of_isName hw) hend (ne_of_isName hw (by decide))
    hasync
  classWord _ := run_classWith_word (isIdentifier_of_isName hw) hend (ne_of_isName hw (by decide))
  declaration hplain := run_declaration_name hw hend hnext hasync (hlet hplain)

/-- A statement that starts with a name is an expression, if neither another name nor a pattern
follows. -/
theorem run_statement_name {c : Char} {t : List Char} (hw : isName w = true)
    (hend : endsWord rest = true) (hrest : skip rest = c :: t) (hc : isWordStart c = false)
    (hbracket : c ≠ '[') (hbrace : c ≠ '\x7b') :
    run (statement d) (w.toList ++ rest) =
      run (((expression d (blockOf (statement d))).thenSkip terminator).map Stmt.expr)
        (w.toList ++ rest) :=
  (startsExpression_name hw hend (hrest ▸ run_identifier_none hc t)
    (fun _ => hrest ▸ run_keyword_none hc "function" t)
    fun _ _ => hrest ▸ run_bindingPattern_none hc hbracket hbrace t).run_statement trivial

end Words

/-! ## Modules -/

theorem run_moduleItem_stmt {s r : List Char} {stmt : Stmt}
    (himport : run (keyword "import") s = none) (hexport : run (keyword "export") s = none)
    (h : run (statement d) s = some (stmt, r)) :
    run (moduleItem d) s = some (.stmt stmt, r) := by
  simp [moduleItem, run_choice_cons, run_map, importDecl, exportDecl, run_thenSkip, run_skipThen,
    himport, hexport, h]

theorem isIdentifier_keyword (kind : VarKind) : isIdentifier kind.keyword = true := by
  cases kind <;> decide

/-- Variables are declared behind one of the three words. -/
theorem run_runtimeDecl_var {E : Parser Expr} {B : Parser (List Stmt)} (kind : VarKind)
    {s r t : List Char} {xs : List Declarator} (hs : skip s = s)
    (hrow : run (sepBy1 (sym ",") (declarator d E)) s = some (xs, r))
    (hend : run terminator r = some ((), t)) :
    run (runtimeDecl d E B) (kind.keyword.toList ++ ' ' :: s) = some (.var kind xs, t) := by
  have hkind : run (choice ((keyword "const").yielding .const)
      [(keyword "let").yielding .letVar, (keyword "var").yielding .var])
      (kind.keyword.toList ++ ' ' :: s) = some (kind, s) := by
    simp only [run_choice_cons, run_choice_nil, run_yielding,
      run_keyword_word (isIdentifier_keyword kind) (endsWord_cons (c := ' ') (by decide) s),
      skip_blank (show isBlank ' ' = true by decide), hs]
    cases kind <;> rfl
  rw [runtimeDecl, run_choice_cons, varDecl, run_thenSkip, run_both, hkind, Option.bind_some, hrow,
    Option.map_some, Option.bind_some, hend]
  rfl

/-- The declaration of one variable is an item. -/
theorem run_moduleItem_var (kind : VarKind) {s r t : List Char} {x : Declarator} (hs : skip s = s)
    (hx : run (declarator d (expression d (blockOf (statement d)))) s = some (x, r))
    (hcomma : run (sym ",") r = none) (hend : run terminator r = some ((), t)) :
    run (moduleItem d) (kind.keyword.toList ++ ' ' :: s) =
      some (.stmt (.decl (.var kind [x])), t) := by
  have hword := isIdentifier_keyword kind
  have hother : ∀ text, kind.keyword ≠ text →
      run (keyword text) (kind.keyword.toList ++ ' ' :: s) = none := fun text =>
    run_keyword_other hword (endsWord_cons (by decide) s)
  have hrow : run (sepBy1 (sym ",") (declarator d (expression d (blockOf (statement d))))) s =
      some ([x], r) := by
    rw [run_sepBy1, hx, Option.map_some, runFollowers_none hcomma]
  exact run_moduleItem_stmt (hother _ (by cases kind <;> decide)) (hother _ (by cases kind <;> decide))
    (run_statement_decl (run_sym_word rfl (by decide) hword _) (run_runtimeDecl_var kind hs hrow hend))

/-- No item starts where no expression does. -/
theorem run_moduleItem_none {c : Char} (h : startsExpr c = false) (hs : c ≠ ';') (s : List Char) :
    run (moduleItem d) (c :: s) = none := by
  have hexpr : run (expression d (blockOf (statement d))) (c :: s) = none :=
    run_levelRule_none h 0 s
  simp only [startsExpr, Bool.or_eq_false_iff, List.contains_eq_mem, List.mem_cons,
    List.not_mem_nil, or_false, not_or, decide_eq_false_iff_not] at h
  have hstmt : run (statement d) (c :: s) = none := by
    rw [run_statement_expr h.1.1 h.2.2.2.2.2.2.1 hs]
    simp [run_map, run_thenSkip, hexpr]
  simp [moduleItem, run_choice_cons, run_map, importDecl, exportDecl, run_thenSkip, run_skipThen,
    run_keyword_none h.1.1, hstmt]

theorem run_moduleItem_nil : run (moduleItem d) [] = none := by
  cases hn : run (moduleItem d) [] with
  | none => rfl
  | some x =>
    have hlt := length_lt_of_run hn
    simp at hlt

/-- A text that is read item by item up to its end is a module. -/
theorem run_program_items {s : List Char} {items : List Item}
    (h : run (many (moduleItem d)) (skip s) = some (items, [])) :
    run (program d) s = some (⟨items⟩, []) := by
  simp [program, run_map, run_thenSkip, run_skipThen, run_trivia, h]

/-- A text that is one item is a module. -/
theorem run_program_item {s : List Char} {item : Item} (hskip : skip s = s)
    (h : run (moduleItem d) s = some (item, [])) :
    run (program d) s = some (⟨[item]⟩, []) := by
  refine run_program_items ?_
  rw [hskip, run_many_step h, run_many_none run_moduleItem_nil]
  rfl

/-- A text is no module if something that is no item stands behind its first one. -/
theorem run_program_none {s t : List Char} {c : Char} {item : Item} (hskip : skip s = s)
    (h : run (moduleItem d) s = some (item, c :: t)) (hnext : run (moduleItem d) (c :: t) = none) :
    run (program d) s = none := by
  have hmany : run (many (moduleItem d)) s = some ([item], c :: t) := by
    rw [run_many_step h, run_many_none hnext]
    rfl
  have hatEnd : run atEnd (c :: t) = none := by
    cases hn : run atEnd (c :: t) with
    | none => rfl
    | some x => cases (run_atEnd_inv hn).1
  simp [program, run_map, run_thenSkip, run_skipThen, run_trivia, hskip, hmany, hatEnd]

end TsxCompiler.Grammar
