import TsxCompiler.Proofs.EntryTexts

/-!
# Functions are read back

Parameters are patterns in a row, and where nothing annotates them the marks of a typed language are
read as nothing. A function is read from its keyword on as it is printed, given that the text of its
body is (`BlockText`): as a declaration, as an expression or as an arrow function. What stands behind
an arrow function goes on with its body, so the whole is read where the body is.
-/

namespace TsxCompiler.Grammar

open Peg Peg.Parser Text

variable {α : Type} {d : Dialect} {B : Parser (List Stmt)} {Good : List Char → Prop} {level : Nat}

/-- The text of statements in braces: it is read as the statements, whatever follows it. -/
structure BlockText (B : Parser (List Stmt)) (Good : List Char → Prop) (stmts : List Stmt)
    (text : String) : Prop where
  starts : ∃ s, text.toList = '\x7b' :: s
  reads : ∀ rest, Good (text.toList ++ rest) → run B (text.toList ++ rest) = some (stmts, skip rest)

theorem BlockText.skip_append {stmts : List Stmt} {text : String} (h : BlockText B Good stmts text)
    (s : List Char) : skip (text.toList ++ s) = text.toList ++ s := by
  obtain ⟨t, ht⟩ := h.starts
  rw [ht]
  exact skip_cons (by decide) (by decide) (t ++ s)

/-! ## Parameters -/

/-- The rule for a parameter. -/
def param (d : Dialect) (expr : Parser Expr) : Parser Pattern :=
  (restParam d expr).orElse (plainParam d expr)

/-- Parameters whose printed texts are read as they are. -/
def ParamsText (d : Dialect) (B : Parser (List Stmt)) (Good : List Char → Prop) (level : Nat)
    (ps : List Pattern) : Prop :=
  ∀ p ∈ ps, EntryText d B Good (param d (expression d B)) p (p.print level)

section Params

variable {p : Pattern} {text : String} {value : Option Expr} (hG : TextClass d Good)
include hG

theorem entryText_restParam (h : PatternText d B Good p text) :
    EntryText d B Good (param d (expression d B)) (.rest p) ("..." ++ text) := by
  refine entryText_dots hG h fun s r hs rest hr hrest => ?_
  subst hr
  rw [param, run_orElse, restParam, run_map, run_thenSkip, hs, Option.bind_some,
    run_ascription_none (hrest.run_sym_none ":" rfl (by decide))]
  rfl

theorem entryText_plainParam [Shrinks B] (h : PatternText d B Good p text)
    (hvalue : ∀ e ∈ value, PrintsWell d B Good level e) :
    EntryText d B Good (param d (expression d B)) (withDefault p value)
      (text ++ initializerText level value) := by
  refine entryText_withDefault hG h hvalue fun rest hrest hpattern hinit => ?_
  obtain ⟨hmark, hascription⟩ : run (optionalMark d) _ = _ ∧ run (ascription d) _ = _ :=
    run_marks_initializerText hrest
  rw [param, run_orElse, restParam, run_map, run_thenSkip, run_skipThen, h.run_dots_none, plainParam,
    run_both, run_thenSkip, run_thenSkip, hpattern, Option.bind_some, hmark, Option.map_some,
    Option.bind_some, hascription, Option.map_some, Option.bind_some, hinit]
  rfl

end Params

/-- The text of parameters in parentheses. -/
def paramsText (ps : List Pattern) (level : Nat) : String :=
  Print.parens (Print.commaList (Pattern.printAll ps level))

theorem paramsText_append (ps : List Pattern) (level : Nat) (s : List Char) :
    (paramsText ps level).toList ++ s =
      '(' :: ((Print.commaList (ps.map fun p => p.print level)).toList ++ ')' :: s) := by
  simp [paramsText, printAll_patterns]

section Functions

variable [Shrinks B] (hG : TextClass d Good) {ps : List Pattern}
  (hps : ParamsText d B Good level ps)
include hG hps

theorem run_params_text {rest : List Char} (hgood : Good ((paramsText ps level).toList ++ rest)) :
    run (params d (expression d B)) ((paramsText ps level).toList ++ rest) =
      some (ps, skip rest) := by
  have hnone : run (param d (expression d B)) (')' :: rest) = none := by
    simp [param, run_orElse, restParam, plainParam, run_map, run_both, run_thenSkip, run_skipThen,
      run_sym_none "..." rfl (show ')' ≠ '.' by decide),
      run_bindingPattern_none (c := ')') (by decide) (by decide) (by decide)]
  rw [paramsText_append] at hgood ⊢
  exact run_bracketRow hG rfl rfl (by decide) (by decide) (by decide) hps hnone hgood

variable (hS : SuffixClosed Good)
include hS

/-- Parameters and the body behind them. -/
theorem run_functionTail_text {body : List Stmt} {text : String} (hbody : BlockText B Good body text)
    {rest : List Char} (hgood : Good ((paramsText ps level).toList ++ ' ' :: (text.toList ++ rest))) :
    run (functionTail d (expression d B) B)
        ((paramsText ps level).toList ++ ' ' :: (text.toList ++ rest)) =
      some ((ps, body), skip rest) := by
  have hgeneric : run (genericParams d)
      ((paramsText ps level).toList ++ ' ' :: (text.toList ++ rest)) =
        some ((), (paramsText ps level).toList ++ ' ' :: (text.toList ++ rest)) := by
    rw [paramsText_append]
    exact run_genericParams_none (run_sym_none "<" rfl (by decide) _)
  have hparams := run_params_text hG hps hgood
  rw [skip_blank (by decide), hbody.skip_append] at hparams
  have hascription : run (ascription d) (text.toList ++ rest) = some ((), text.toList ++ rest) := by
    obtain ⟨t, ht⟩ := hbody.starts
    rw [ht]
    exact run_ascription_none (run_sym_none ":" rfl (by decide) _)
  have hread := hbody.reads rest (hS [' '] _ (hS _ _ hgood))
  rw [functionTail, run_seq, run_thenSkip, run_skipThen, hgeneric, Option.bind_some, hparams,
    Option.bind_some, hascription, Option.map_some, Option.bind_some, hread]
  rfl

end Functions

/-! ## Keywords and names -/

/-- An `async` is read if it is printed. -/
theorem run_asyncMark_text (isAsync : Bool) {s : List Char} (hskip : skip s = s)
    (h : isAsync = false → run (keyword "async") s = none) :
    run asyncMark ((Print.textIf isAsync "async ").toList ++ s) = some (isAsync, s) := by
  cases isAsync with
  | false => exact run_asyncMark_none (h rfl)
  | true =>
    show run asyncMark ("async".toList ++ ' ' :: s) = _
    rw [run_asyncMark_word (by decide) (endsWord_cons (by decide) s), if_pos rfl,
      skip_blank (by decide), hskip]

/-- The words that a function starts with. -/
def functionWords (isAsync : Bool) : List Char :=
  (Print.textIf isAsync "async ").toList ++ "function".toList

theorem run_asyncMark_functionWords (isAsync : Bool) {s : List Char} (hend : endsWord s = true) :
    run asyncMark (functionWords isAsync ++ s) = some (isAsync, "function".toList ++ s) := by
  rw [functionWords, List.append_assoc]
  exact run_asyncMark_text isAsync (skip_identifier (by decide) s) fun _ =>
    run_keyword_other (by decide) hend (by decide)

/-- No arrow function starts with the words of a function. -/
theorem run_arrowExpr_functionWords (isAsync : Bool) {s : List Char} (hend : endsWord s = true) :
    run (arrowExpr d B (expression d B)) (functionWords isAsync ++ s) = none := by
  refine run_arrowExpr_of_head (run_asyncMark_functionWords isAsync hend) ?_
  rw [run_thenSkip, run_thenSkip, run_orElse, run_params_word (by decide), run_map,
    run_identifier_reserved (by decide) hend (by decide)]
  rfl

/-- They are no operator, and not `new`. -/
theorem opens_functionWords (isAsync : Bool) {s : List Char} (hend : endsWord s = true) :
    Opens d B 11 (functionWords isAsync ++ s) := by
  have hword : ∀ {w : String} {t : List Char}, w = "function" ∨ w = "async" →
      endsWord t = true → Opens d B 11 (w.toList ++ t) := by
    rintro w t (rfl | rfl) ht <;> constructor <;> intro _
    · exact run_unaryOp_word (by decide) ht
    · rw [newExpr, run_both, run_skipThen, run_keyword_other (by decide) ht (by decide)]
      rfl
    · exact run_unaryOp_word (by decide) ht
    · rw [newExpr, run_both, run_skipThen, run_keyword_other (by decide) ht (by decide)]
      rfl
  cases isAsync with
  | false => exact hword (.inl rfl) hend
  | true => exact hword (.inr rfl) (endsWord_cons (c := ' ') (by decide) ("function".toList ++ s))

/-- They are no pattern, or `async` is one, and then nothing goes on with it. -/
theorem run_bindingPattern_functionWords [Shrinks B] (isAsync : Bool) {s r : List Char} {p : Pattern}
    (hend : endsWord s = true)
    (hr : run (bindingPattern (expression d B)) (functionWords isAsync ++ s) = some (p, r)) :
    isStuck r = true := by
  cases isAsync with
  | false =>
    change run _ ("function".toList ++ s) = _ at hr
    rw [run_bindingPattern_word (by decide) hend, if_pos (by decide)] at hr
    cases hr
  | true =>
    change run _ ("async".toList ++ ' ' :: ("function".toList ++ s)) = _ at hr
    rw [run_bindingPattern_word (by decide) (endsWord_cons (by decide) _), if_neg (by decide),
      skip_blank (by decide), skip_identifier (by decide)] at hr
    cases hr
    exact isStuck_cons (by decide) (by decide) _

theorem endsWord_nameAfter {name : Option String} {rest : List Char} (h : endsWord rest = true) :
    endsWord ((Print.nameAfter name).toList ++ rest) = true := by
  cases name with
  | none => exact h
  | some name =>
    rw [Print.nameAfter, String.toList_append]
    rfl

theorem run_identifier_nameAfter {name : String} (hname : isName name = true) {rest : List Char}
    (hend : endsWord rest = true) :
    run identifier (skip ((Print.nameAfter (some name)).toList ++ rest)) =
      some (name, skip rest) := by
  rw [Print.nameAfter, String.toList_append]
  show run identifier (skip (' ' :: (name.toList ++ rest))) = _
  rw [skip_blank (by decide), skip_identifier (isIdentifier_of_isName hname),
    run_identifier_append hname hend]

/-- A name behind a keyword, if there is one. -/
theorem run_optionalName {name : Option String} (hname : ∀ n ∈ name, isName n = true)
    {rest : List Char} (hend : endsWord rest = true) (hrest : run identifier (skip rest) = none) :
    run identifier.optional (skip ((Print.nameAfter name).toList ++ rest)) =
      some (name, skip rest) := by
  cases name with
  | none => exact run_optional_none hrest
  | some name => exact run_optional_some (run_identifier_nameAfter (hname name rfl) hend)

/-- A name in front of parameters, if there is one. -/
theorem run_optionalName_paren {name : Option String} (hname : ∀ n ∈ name, isName n = true)
    (s : List Char) :
    run identifier.optional (skip ((Print.nameAfter name).toList ++ '(' :: s)) =
      some (name, '(' :: s) := by
  have hskip : skip ('(' :: s) = '(' :: s := skip_cons (by decide) (by decide) s
  have hread := run_optionalName hname (endsWord_cons (c := '(') (by decide) s)
    (hskip.symm ▸ run_identifier_none (by decide) s)
  rwa [hskip] at hread

/-! ## Functions with their keyword -/

theorem print_func (isAsync : Bool) (ps : List Pattern) (body : List Stmt) (name : Option String)
    (level : Nat) (s : List Char) :
    (Func.print ⟨isAsync, ps, body⟩ ("function" ++ Print.nameAfter name) level).toList ++ s =
      functionWords isAsync ++ ((Print.nameAfter name).toList ++ ((paramsText ps level).toList ++
        ' ' :: ((Stmt.printBlock body level).toList ++ s))) := by
  cases isAsync <;> simp [Func.print, functionWords, paramsText, Print.textIf]

section Keywords

variable [Shrinks B] (hS : SuffixClosed Good) (hG : TextClass d Good) {ps : List Pattern}
  (hps : ParamsText d B Good level ps) {body : List Stmt}
  (hbody : BlockText B Good body (Stmt.printBlock body level))
include hS hG hps hbody

/-- A function is read from `async` on, given that its name is read in front of its parameters. -/
theorem run_functionWith_text {nameRule : Parser α} {a : α} {name : Option String}
    (hname : ∀ s, run nameRule (skip ((Print.nameAfter name).toList ++ '(' :: s)) =
      some (a, '(' :: s)) (isAsync : Bool) {rest : List Char}
    (hgood : Good ((Func.print ⟨isAsync, ps, body⟩ ("function" ++ Print.nameAfter name)
      level).toList ++ rest)) :
    run (functionWith nameRule d (expression d B) B)
        ((Func.print ⟨isAsync, ps, body⟩ ("function" ++ Print.nameAfter name) level).toList ++
          rest) = some ((a, ⟨isAsync, ps, body⟩), skip rest) := by
  rw [print_func] at hgood ⊢
  have htail := run_functionTail_text hG hps hS hbody (hS _ _ (hS _ _ hgood))
  rw [paramsText_append] at htail ⊢
  generalize (Print.commaList (ps.map fun p => p.print level)).toList ++
    ')' :: ' ' :: ((Stmt.printBlock body level).toList ++ rest) = s at htail ⊢
  have hend : endsWord ((Print.nameAfter name).toList ++ '(' :: s) = true :=
    endsWord_nameAfter (endsWord_cons (by decide) s)
  rw [functionWith, run_both, run_seq, run_thenSkip, run_asyncMark_functionWords isAsync hend,
    Option.bind_some, run_keyword_append (by decide) hend, Option.map_some, Option.bind_some, hname,
    Option.map_some, Option.bind_some, htail]
  rfl

/-- A function keeps the invariant of printed expressions. -/
theorem PrintsWell.func {name : Option String} (hname : ∀ n ∈ name, isName n = true)
    (isAsync : Bool) : PrintsWell d B Good level (.func name ⟨isAsync, ps, body⟩) := by
  have hend : ∀ s, endsWord ((Print.nameAfter name).toList ++ ((paramsText ps level).toList ++ s)) =
      true := by
    intro s
    rw [paramsText_append]
    exact endsWord_nameAfter (endsWord_cons (by decide) _)
  refine PrintsWell.ofPrinted (Printed.ofPrimary ?_ (fun s => hS _ s) (fun rest _ => ?_)
    (fun rest _ hgood => ?_) fun rest _ _ _ p r hr => .inr ?_) rfl (by rw [Expr.print])
  · have htext := print_func isAsync ps body name level []
    rw [List.append_nil] at htext
    cases isAsync with
    | false => exact ⟨'f', _, htext, by decide⟩
    | true => exact ⟨'a', _, htext, by decide⟩
  · rw [print_func]
    exact opens_functionWords isAsync (hend _)
  · have hread := run_functionWith_text hS hG hps hbody (run_optionalName_paren hname) isAsync hgood
    rw [print_func] at hread ⊢
    rw [primary, run_choice_cons, run_arrowExpr_functionWords isAsync (hend _), run_choice_cons,
      functionExpr, run_map, hread]
    rfl
  · rw [print_func] at hr
    exact run_bindingPattern_functionWords isAsync (hend _) hr

end Keywords

/-! ## Arrow functions -/

/-- The text of what stands behind an arrow: it is read as the body, in front of what goes on with no
expression. -/
structure BodyText (d : Dialect) (B : Parser (List Stmt)) (Good : List Char → Prop)
    (body : ArrowBody) (text : String) : Prop where
  skip_append : ∀ s, skip (text.toList ++ s) = text.toList ++ s
  reads : ∀ rest, Context d B rest → Halts d B 0 (skip rest) → Good (text.toList ++ rest) →
    run (arrowBody (expression d B) B) (text.toList ++ rest) = some (body, skip rest)

theorem bodyText_block {body : List Stmt} {text : String} (h : BlockText B Good body text) :
    BodyText d B Good (.block body) text where
  skip_append := h.skip_append
  reads rest _ _ hgood := by
    rw [arrowBody, run_orElse, run_map, h.reads rest hgood]
    rfl

theorem print_arrow (isAsync : Bool) (ps : List Pattern) (body : ArrowBody) (level : Nat)
    (s : List Char) :
    ((Expr.arrow isAsync ps body).print level).toList ++ s =
      (Print.textIf isAsync "async ").toList ++ ((paramsText ps level).toList ++
        ' ' :: '=' :: '>' :: ' ' :: ((body.print level).toList ++ s)) := by
  simp [paramsText]

section Arrows

variable [Shrinks B]

/-- An expression behind an arrow does not start with a brace, and then it is no block. -/
theorem bodyText_expr (hB : ∀ c s, c ≠ '\x7b' → run B (c :: s) = none) (hG : TextClass d Good)
    {e : Expr} (h : PrintsWell d B Good level e)
    (hbrace : e.startsAmbiguously = false → (e.print level).toList.head? ≠ some '\x7b') :
    BodyText d B Good (.expr e) ((ArrowBody.expr e).print level) := by
  obtain ⟨j, w, hw, hprinted, hne⟩ : ∃ j w, ((ArrowBody.expr e).print level).toList = w ∧
      Printed d B Good j e w ∧ w.head? ≠ some '\x7b' := by
    rw [ArrowBody.print]
    split
    · exact ⟨11, _, toList_parens _, h.parens hG, by simp⟩
    · rename_i hplain
      exact ⟨_, _, by rw [guarded_assignment], h, hbrace (eq_false_of_ne_true hplain)⟩
  refine ⟨fun s => ?_, fun rest hc hr hgood => ?_⟩
  · rw [hw]
    exact hprinted.skip_append s
  · rw [hw] at hgood ⊢
    have hread : run (expression d B) (w ++ rest) = some (e, skip rest) :=
      hprinted.readsAt (Nat.zero_le j) hc hgood hr
    obtain ⟨c, s, rfl, -⟩ := hprinted.starts
    have hopen : c ≠ '\x7b' := fun hc => hne (congrArg some hc)
    rw [List.cons_append] at hread ⊢
    simp [arrowBody, run_orElse, run_map, hB c _ hopen, run_skipThen, run_peek, run_satisfy_cons,
      hopen, hread]

variable (hS : SuffixClosed Good) (hG : TextClass d Good) {ps : List Pattern}
  (hps : ParamsText d B Good level ps) {body : ArrowBody}
  (hbody : BodyText d B Good body (body.print level))
include hS hG hps hbody

/-- Parameters, the arrow and the body. -/
theorem run_arrowExpr_text (isAsync : Bool) {rest : List Char} (hc : Context d B rest)
    (hr : Halts d B 0 (skip rest))
    (hgood : Good (((Expr.arrow isAsync ps body).print level).toList ++ rest)) :
    run (arrowExpr d B (expression d B))
        (((Expr.arrow isAsync ps body).print level).toList ++ rest) =
      some (.arrow isAsync ps body, skip rest) := by
  rw [print_arrow] at hgood ⊢
  have hparams := run_params_text hG hps (hS _ _ hgood)
  have hread := hbody.reads rest hc hr (hS [' ', '=', '>', ' '] _ (hS _ _ (hS _ _ hgood)))
  rw [skip_blank (by decide), skip_cons (by decide) (by decide)] at hparams
  have hascription : run (ascription d) ('=' :: '>' :: ' ' :: ((body.print level).toList ++ rest)) =
      some ((), '=' :: '>' :: ' ' :: ((body.print level).toList ++ rest)) :=
    run_ascription_none (run_sym_none ":" rfl (by decide) _)
  have harrow : run (sym "=>") ('=' :: '>' :: ' ' :: ((body.print level).toList ++ rest)) =
      some ((), (body.print level).toList ++ rest) := by
    simp [run_sym, run_chars_cons, run_char_cons, skip_blank (show isBlank ' ' = true by decide),
      hbody.skip_append]
  have hmark : run asyncMark ((Print.textIf isAsync "async ").toList ++
      ((paramsText ps level).toList ++ ' ' :: '=' :: '>' :: ' ' ::
        ((body.print level).toList ++ rest))) =
      some (isAsync, (paramsText ps level).toList ++ ' ' :: '=' :: '>' :: ' ' ::
        ((body.print level).toList ++ rest)) := by
    rw [paramsText_append]
    exact run_asyncMark_text isAsync (skip_cons (by decide) (by decide) _) fun _ =>
      run_keyword_none (by decide) _ _
  rw [arrowExpr, run_both, run_thenSkip, run_thenSkip, run_seq, hmark, Option.bind_some, run_orElse,
    hparams, Option.some_or, Option.map_some, Option.bind_some, hascription, Option.map_some,
    Option.bind_some, harrow, Option.map_some, Option.bind_some, hread]
  rfl

/-- An arrow function keeps the invariant of printed expressions. -/
theorem PrintsWell.arrow (isAsync : Bool) : PrintsWell d B Good level (.arrow isAsync ps body) := by
  -- the text starts with a parenthesis, or with `async` in front of one
  have hstart : ∀ s, ∃ t, ((Expr.arrow isAsync ps body).print level).toList ++ s =
      (Print.textIf isAsync "async ").toList ++ '(' :: t := by
    intro s
    rw [print_arrow, paramsText_append]
    exact ⟨_, rfl⟩
  have hopens : ∀ s, Opens d B 11 (((Expr.arrow isAsync ps body).print level).toList ++ s) := by
    intro s
    obtain ⟨t, ht⟩ := hstart s
    rw [ht]
    cases isAsync with
    | false =>
      exact ⟨fun _ => run_unaryOp_none (by decide) (by decide) (by decide) (by decide) _,
        fun _ => run_newExpr_none (by decide) _⟩
    | true =>
      have hend : endsWord (' ' :: '(' :: t) = true := rfl
      show Opens d B 11 ("async".toList ++ ' ' :: '(' :: t)
      exact Printed.opens_word (by decide) (wordOperand_of_isName (by decide)) (by decide) hend
  refine PrintsWell.ofPrinted (j := 0) (w := ((Expr.arrow isAsync ps body).print level).toList) ?_
    rfl rfl
  refine { level_le := Nat.zero_le 11, starts := ?_, drop := fun s => hS _ s,
           opens := fun rest _ => ⟨fun h => by omega, fun h => by omega⟩,
           reads := fun rest hc hgood hr => ?_, chain := fun h => by omega,
           access := fun h => by omega, pattern := fun rest _ _ _ p r hp => .inr (.inl ?_) }
  · obtain ⟨t, ht⟩ := hstart []
    rw [List.append_nil] at ht
    cases isAsync with
    | false => exact ⟨'(', t, ht, by decide⟩
    | true => exact ⟨'a', _, ht, by decide⟩
  · have hread := run_arrowExpr_text hS hG hps hbody isAsync hc hr hgood
    refine run_levelRule_of_le (j := 11) (Nat.zero_le 11) (Nat.le_refl 11) ?_ (hopens rest) hr
    show run (primary d B (expression d B)) _ = _
    rw [primary, run_choice_cons, hread]
    rfl
  · obtain ⟨t, ht⟩ := hstart rest
    rw [ht] at hp
    cases isAsync with
    | false =>
      change run _ ('(' :: t) = _ at hp
      rw [run_bindingPattern_none (by decide) (by decide) (by decide)] at hp
      cases hp
    | true =>
      change run _ ("async".toList ++ ' ' :: '(' :: t) = _ at hp
      rw [run_bindingPattern_word (by decide) (endsWord_cons (by decide) _), if_neg (by decide),
        skip_blank (by decide), skip_cons (by decide) (by decide)] at hp
      cases hp
      exact isStuck_cons (by decide) (by decide) t

end Arrows

end TsxCompiler.Grammar
