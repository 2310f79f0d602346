import TsxCompiler.Proofs.Arguments

/-!
# Operators keep the invariant

One theorem for each kind of operator tree: from the invariant of the operands, the invariant of the
whole. The levels in the hypotheses are those that printing guards with parentheses.
-/

namespace TsxCompiler.Grammar

open Peg Peg.Parser Text

namespace Printed

variable {d : Dialect} {B : Parser (List Stmt)} {Good : List Char → Prop}

/-! ## Words and literals -/

/-- A word that is an operand is no operator and not `new`. -/
theorem opens_word {w : String} {e : Expr} (hw : isIdentifier w = true)
    (he : wordOperand w = some e) (hawait : w ≠ "await") {rest : List Char}
    (hend : endsWord rest = true) : Opens d B 11 (w.toList ++ rest) := by
  have hne : ∀ x, wordOperand x = none → w ≠ x := by
    rintro x hx rfl
    simp [he] at hx
  constructor
  · intro _
    simp [run_unaryOp_word hw hend, hawait, hne "typeof" (by decide), hne "void" (by decide)]
  · intro _
    simp [newExpr, run_both, run_skipThen, run_keyword_word hw hend, hne "new" (by decide)]

theorem word [Shrinks B] (hG : TextClass d Good) {w : String} {e : Expr}
    (hw : isIdentifier w = true) (he : wordOperand w = some e) (hawait : w ≠ "await") :
    Printed d B Good 11 e w.toList := by
  refine ofPrimary ?_ (fun s => hG.append (passed_of_isIdentifier hw))
    (fun rest => opens_word hw he hawait)
    (fun rest hc _ => run_primary_word hw he hc.word hc.quiet) ?_
  · obtain ⟨c, cs, hc, hstart⟩ := exists_of_isIdentifier hw
    exact ⟨c, cs, hc, by simp [startsExpr, hstart]⟩
  · intro rest hword _ _ p r hp
    rw [run_bindingPattern_word hw hword] at hp
    split at hp
    · simp at hp
    · simp only [Option.some.injEq, Prod.mk.injEq] at hp
      exact .inl hp.2.symm

/-- An operand that starts with neither a word nor a bracket is no pattern, and no operator stands
in front of it. -/
theorem ofLiteral [Shrinks B] {e : Expr} {c : Char} {s : List Char} (hc : startsExpr c = true)
    (hw : isWordStart c = false)
    (hchar : c ∉ ['[', '\x7b', '!', '-', '+'])
    (drop : ∀ t, Good (c :: s ++ t) → Good t)
    (reads : ∀ rest, Context d B rest → Good (c :: s ++ rest) →
      run (primary d B (expression d B)) (c :: s ++ rest) = some (e, skip rest)) :
    Printed d B Good 11 e (c :: s) := by
  simp only [List.mem_cons, List.not_mem_nil, or_false, not_or] at hchar
  obtain ⟨hbracket, hbrace, hnot, hminus, hplus⟩ := hchar
  refine ofPrimary ⟨c, s, rfl, hc⟩ drop ?_ reads ?_
  · intro rest _
    exact ⟨fun _ => run_unaryOp_none hw hnot hminus hplus _, fun _ => run_newExpr_none hw _⟩
  · intro rest _ _ _ p r hp
    rw [List.cons_append, run_bindingPattern_none hw hbracket hbrace] at hp
    simp at hp

theorem string [Shrinks B] (hG : TextClass d Good) {lit : StringLit} {raw : String}
    (h : IsSpelled lit) (hraw : lit.raw = some raw) :
    Printed d B Good 11 (.lit (.string lit)) raw.toList := by
  obtain ⟨q, s, hs, hq⟩ : ∃ q s, raw.toList = q :: s ∧ (q = '"' ∨ q = '\'') := by
    obtain ⟨q, body, hq, -, hspelled, -⟩ := h
    rw [hraw, Option.some.injEq] at hspelled
    exact ⟨q, body ++ [q], by simp [hspelled], hq⟩
  rw [hs]
  refine ofLiteral ?_ ?_ ?_ (fun t ht => hG.string h hraw (hs ▸ ht)) fun rest _ _ =>
    hs ▸ run_primary_string h hraw rest
  all_goals rcases hq with rfl | rfl <;> decide

theorem template [Shrinks B] (hG : TextClass d Good) {raw : String}
    (h : isTemplateText raw = true) :
    Printed d B Good 11 (.lit (.template raw)) (backquote :: (raw.toList ++ [backquote])) := by
  refine ofLiteral (by decide) (by decide) (by decide) ?_ ?_
  · intro t ht
    exact hG.template h (by simpa using ht)
  · intro rest _ _
    simpa using run_primary_template h rest

theorem number [Shrinks B] (hG : TextClass d Good) {text : String} (h : IsNumeral text) :
    Printed d B Good 11 (.lit (.number text)) text.toList := by
  obtain ⟨c, s, hs, hc⟩ : ∃ c s, text.toList = c :: s ∧ c.isDigit = true := by
    obtain ⟨whole, hwhole, htext⟩ := h
    cases whole with
    | nil => simp [isDigits] at hwhole
    | cons c whole =>
      simp only [isDigits, List.all_cons, Bool.and_eq_true] at hwhole
      rcases htext with htext | ⟨fraction, -, htext⟩
      · exact ⟨c, whole, htext, hwhole.2.1⟩
      · exact ⟨c, whole ++ '.' :: fraction, htext, hwhole.2.1⟩
  have hpassed := passed_of_isNumeral h
  rw [hs] at hpassed ⊢
  refine ofLiteral (by simp [startsExpr, hc]) (isWordStart_of_isDigit hc) ?_
    (fun t ht => hG.append hpassed ht) fun rest hctx _ => hs ▸ run_primary_number h hctx.number
  exact forall_isDigit (P := fun c => c ∉ ['[', '\x7b', '!', '-', '+']) (by decide) hc

/-! ## Brackets -/

/-- Parentheses that hold arguments do not start an arrow function when no arrow follows them. -/
theorem run_arrowHead_printed [Shrinks B] (hG : TextClass d Good) {rest : List Char}
    {items : List (Argument × List Char)} (h : ArgumentsPrinted d B Good items)
    (hgood : Good (rowText (')' :: rest) (argumentTexts items))) (hq : Quiet d B (skip rest)) :
    run ((((params d (expression d B)).orElse
      (identifier.map fun name => [Pattern.ident name])).thenSkip (ascription d)).thenSkip
        (sym "=>")) ('(' :: rowText (')' :: rest) (argumentTexts items)) = none := by
  have harrow := hq.arrow
  simp only [run_thenSkip, run_orElse, run_map,
    run_identifier_none (show isWordStart '(' = false by decide), Option.map_none,
    Option.or_none] at harrow ⊢
  cases hp : run (params d (expression d B)) ('(' :: rowText (')' :: rest) (argumentTexts items)) with
  | none => rfl
  | some x =>
    rw [Option.bind_some, run_params_printed hG h hgood hp]
    cases hasc : run (ascription d) (skip rest) with
    | none => rfl
    | some y =>
      simp only [hasc, Option.bind_some, Option.map_eq_none_iff] at harrow
      simp [harrow]

/-- A text in parentheses is an operand. It is not taken for the parameters of an arrow: reading
those stops at a token that no arrow follows. -/
theorem parens [Shrinks B] (hG : TextClass d Good) {j : Nat} {e : Expr} {w : List Char}
    (h : Printed d B Good j e w) : Printed d B Good 11 e ('(' :: (w ++ [')'])) := by
  refine ofLiteral (by decide) (by decide) (by decide) ?_ ?_
  · intro t ht
    have hin : Good (w ++ ')' :: t) := hG.cons (c := '(') (by decide) (by simpa using ht)
    exact hG.cons (by decide) (h.drop _ hin)
  · intro rest hctx hgood
    have hin : Good (w ++ ')' :: rest) := hG.cons (c := '(') (by decide) (by simpa using hgood)
    -- the one value in the parentheses is a row of one argument
    have hrow : ArgumentsPrinted d B Good [(⟨false, e⟩, w)] := by
      intro x hx
      obtain rfl := List.mem_singleton.1 hx
      exact ⟨j, h⟩
    have harrow : run (arrowExpr d B (expression d B)) ('(' :: (w ++ ')' :: rest)) = none :=
      run_arrowExpr_of_head (run_asyncMark_none (run_keyword_none (by decide) _ _))
        (run_arrowHead_printed hG hrow hin hctx.quiet)
    have hread : run (inParens (expression d B)) ('(' :: (w ++ ')' :: rest)) =
        some (e, skip rest) := by
      refine run_between_cons rfl rfl ?_
      rw [h.skip_append]
      exact h.reads_entry (entryEnd_cons (by decide) rest) hin
    simpa using run_primary_parens harrow hread

/-- An array literal is an operand. Read as a pattern it ends where the literal does, or not at
all. -/
theorem array [Shrinks B] (hG : TextClass d Good) {items : List (Argument × List Char)}
    (h : ArgumentsPrinted d B Good items) :
    Printed d B Good 11 (.array (items.map Prod.fst))
      ('[' :: rowText [']'] (argumentTexts items)) := by
  have htext : ∀ rest, '[' :: rowText [']'] (argumentTexts items) ++ rest =
      '[' :: rowText (']' :: rest) (argumentTexts items) := by
    intro rest
    rw [List.cons_append, rowText_append]
    rfl
  refine ofPrimary ⟨'[', _, rfl, by decide⟩ ?_ ?_ ?_ ?_
  · intro t ht
    rw [htext] at ht
    exact hG.cons (by decide) (good_rowText hG h (hG.cons (by decide) ht))
  · intro rest _
    exact ⟨fun _ => run_unaryOp_none (by decide) (by decide) (by decide) (by decide) _,
      fun _ => run_newExpr_none (by decide) _⟩
  · intro rest _ hgood
    rw [htext] at hgood ⊢
    exact run_array_printed hG h (hG.cons (by decide) hgood)
  · intro rest _ _ hgood p r hp
    rw [htext] at hgood hp
    exact .inl (run_arrayPattern_printed hG h (hG.cons (by decide) hgood) hp)

/-! ## Members and calls -/

/-- The invariant for an expression that members and calls may follow, from how they do. -/
theorem ofAccess {e : Expr} {w : List Char} (starts : ∃ c s, w = c :: s ∧ startsExpr c = true)
    (drop : ∀ s, Good (w ++ s) → Good s)
    (op : ∀ rest, endsWord rest = true → run unaryOp (w ++ rest) = none)
    (access : ∀ rest, Context d B rest → Good (w ++ rest) →
      run (postfixExpr d B (expression d B)) (w ++ rest) =
        (run (many (accessSuffix d B)) (skip rest)).map fun x => (applySuffixes e x.1, x.2))
    (pattern : ∀ rest, Good (w ++ rest) →
      ∀ p r, run (bindingPattern (expression d B)) (w ++ rest) = some (p, r) → isStuck r = true) :
    Printed d B Good 10 e w where
  level_le := by omega
  starts := starts
  drop := drop
  opens rest hend := ⟨fun _ => op rest hend, fun h10 => by omega⟩
  reads rest hc hgood hr := by
    have hnone : run (accessSuffix d B) (skip rest) = none :=
      run_forget_none.1 (hr 10 (by omega) (by omega))
    change run (postfixExpr d B (expression d B)) _ = _
    rw [access rest hc hgood, run_many_none hnone]
    rfl
  chain _ h8 := by omega
  access _ := access
  pattern rest _ _ hgood p r hp := .inr (.inl (pattern rest hgood p r hp))

end Printed

/-- How `p` reads the text `u` of a member access or a call, which makes `f object` of the object
that stands before it. -/
structure SuffixText (d : Dialect) (B : Parser (List Stmt)) (Good : List Char → Prop)
    (p : Parser (Expr → Expr)) (f : Expr → Expr) (u : List Char) : Prop where
  word : ∀ rest, endsWord (u ++ rest) = true
  number : ∀ rest, endsNumber (u ++ rest) = true
  skips : ∀ rest, skip (u ++ rest) = u ++ rest
  stuck : ∀ rest, isStuck (u ++ rest) = true
  drop : ∀ s, Good (u ++ s) → Good s
  quiet : ∀ rest, Context d B rest → Good (u ++ rest) → Quiet d B (u ++ rest)
  reads : ∀ rest, Context d B rest → Good (u ++ rest) → run p (u ++ rest) = some (f, skip rest)

namespace SuffixText

variable {d : Dialect} {B : Parser (List Stmt)} {Good : List Char → Prop}

theorem context {p : Parser (Expr → Expr)} {f : Expr → Expr} {u : List Char}
    (h : SuffixText d B Good p f u) {rest : List Char} (hc : Context d B rest)
    (hgood : Good (u ++ rest)) : Context d B (u ++ rest) :=
  ⟨h.word rest, h.number rest, (h.skips rest).symm ▸ h.quiet rest hc hgood⟩

/-- A member access is one of the suffixes of an operand. -/
theorem access {f : Expr → Expr} {u : List Char}
    (h : SuffixText d B Good (memberSuffix (expression d B)) f u) :
    SuffixText d B Good (accessSuffix d B) f u where
  word := h.word
  number := h.number
  skips := h.skips
  stuck := h.stuck
  drop := h.drop
  quiet := h.quiet
  reads rest hc hgood := by
    rw [accessSuffix, run_orElse, h.reads rest hc hgood]
    rfl

theorem endsNumber_point {name : String} (h : isIdentifier name = true) (rest : List Char) :
    endsNumber ('.' :: (name.toList ++ rest)) = true := by
  obtain ⟨c, cs, hc, hstart⟩ := exists_of_isIdentifier h
  rw [hc]
  cases hd : c.isDigit with
  | false => simp [endsNumber, hd]
  | true => simp [isWordStart_of_isDigit hd] at hstart

theorem member (hG : TextClass d Good) {name : String} (hname : isIdentifier name = true) :
    SuffixText d B Good (memberSuffix (expression d B))
      (fun object => .member object (.ident name) false) ('.' :: name.toList) where
  word _ := endsWord_cons (by decide) _
  number rest := endsNumber_point hname rest
  skips _ := skip_cons (by decide) (by decide) _
  stuck _ := rfl
  drop s hs := hG.append (passed_of_isIdentifier hname) (hG.cons (by decide) hs)
  quiet rest _ _ := quiet_of_char (by decide) (by decide) (by decide)
    (run_sym_none "=>" rfl (by decide) _)
  reads rest hc _ := by
    simp [memberSuffix, run_choice_cons, run_map, run_skipThen, run_sym, run_chars_cons,
      run_char_cons, skip_identifier hname, run_word_append hname hc.word]

theorem isStuck_questionPoint (s : List Char) : isStuck ('?' :: '.' :: s) = true := by
  simp [isStuck, skip_cons (show isBlank '.' = false by decide) (by decide), followsPattern,
    isCloser]

theorem optionalMember (hG : TextClass d Good) {name : String} (hname : isIdentifier name = true) :
    SuffixText d B Good (memberSuffix (expression d B))
      (fun object => .member object (.ident name) true) ('?' :: '.' :: name.toList) where
  word _ := endsWord_cons (by decide) _
  number _ := rfl
  skips _ := skip_cons (by decide) (by decide) _
  stuck _ := isStuck_questionPoint _
  drop s hs :=
    hG.append (passed_of_isIdentifier hname) (hG.append (w := ['?', '.']) (by decide) hs)
  quiet rest _ _ := quiet_of_char (by decide) (by decide) (by decide)
    (run_sym_none "=>" rfl (by decide) _)
  reads rest hc _ := by
    simp [memberSuffix, run_choice_cons, run_map, run_skipThen, run_sym, run_chars_cons,
      run_char_cons, skip_identifier hname, run_word_append hname hc.word]

/-- A key in brackets is a suffix: the expression in it ends at the bracket. -/
theorem computedMember [Shrinks B] (hG : TextClass d Good) {k : Nat} {key : Expr} {v : List Char}
    (hkey : Printed d B Good k key v) :
    SuffixText d B Good (memberSuffix (expression d B))
      (fun object => .member object (.computed key) false) ('[' :: (v ++ [']'])) := by
  have htext : ∀ rest, '[' :: (v ++ [']']) ++ rest = '[' :: (v ++ ']' :: rest) := by simp
  refine ⟨fun _ => endsWord_cons (by decide) _, fun _ => rfl,
    fun _ => skip_cons (by decide) (by decide) _, fun _ => rfl, ?_, ?_, ?_⟩
  · intro s hs
    rw [htext] at hs
    exact hG.cons (by decide) (hkey.drop _ (hG.cons (by decide) hs))
  · intro rest _ _
    exact quiet_of_char (by decide) (by decide) (by decide) (run_sym_none "=>" rfl (by decide) _)
  · intro rest _ hgood
    rw [htext] at hgood ⊢
    have hread : run (inBrackets (expression d B)) ('[' :: (v ++ ']' :: rest)) =
        some (key, skip rest) := by
      refine run_between_cons rfl rfl ?_
      rw [hkey.skip_append]
      exact hkey.reads_entry (entryEnd_cons (by decide) rest) (hG.cons (by decide) hgood)
    simp [memberSuffix, run_choice_cons, run_map, run_skipThen, run_sym, run_chars_cons,
      run_char_cons, hread]

/-! ## Argument lists -/

variable {items : List (Argument × List Char)}

/-- The text of an argument list. -/
def parenText (items : List (Argument × List Char)) : List Char :=
  '(' :: rowText [')'] (argumentTexts items)

theorem parenText_append (items : List (Argument × List Char)) (rest : List Char) :
    parenText items ++ rest = '(' :: rowText (')' :: rest) (argumentTexts items) := by
  rw [parenText, List.cons_append, rowText_append]
  rfl

theorem good_parenText (hG : TextClass d Good) (hargs : ArgumentsPrinted d B Good items)
    {s : List Char} (hs : Good (parenText items ++ s)) : Good s := by
  rw [parenText_append] at hs
  exact hG.cons (by decide) (good_rowText hG hargs (hG.cons (by decide) hs))

theorem run_arguments_parenText [Shrinks B] (hG : TextClass d Good)
    (hargs : ArgumentsPrinted d B Good items) {rest : List Char}
    (hgood : Good (parenText items ++ rest)) :
    run (arguments (expression d B)) (parenText items ++ rest) =
      some (items.map Prod.fst, skip rest) := by
  rw [parenText_append] at hgood ⊢
  exact run_arguments_printed hG hargs (hG.cons (by decide) hgood)

/-- No member access starts with a parenthesis. -/
theorem run_memberSuffix_paren (s : List Char) :
    run (memberSuffix (expression d B)) ('(' :: s) = none := by
  simp [memberSuffix, run_choice_cons, run_map, run_skipThen, run_sym, run_chars_cons,
    run_char_cons, run_inBrackets_none]

/-- Nor does `?.` start one before a parenthesis. -/
theorem run_memberSuffix_optionalParen (s : List Char) :
    run (memberSuffix (expression d B)) ('?' :: '.' :: '(' :: s) = none := by
  simp [memberSuffix, run_choice_cons, run_map, run_skipThen, run_sym, run_chars_cons,
    run_char_cons, run_inBrackets_none, skip_cons (show isBlank '(' = false by decide) (by decide),
    run_word_none (show isWordStart '(' = false by decide)]

/-- The arguments of a call are a suffix. The parenthesis could open the parameters of an arrow,
which the row of arguments rules out. -/
theorem call [Shrinks B] (hG : TextClass d Good) (hargs : ArgumentsPrinted d B Good items) :
    SuffixText d B Good (accessSuffix d B) (fun callee => .call callee (items.map Prod.fst) false)
      (parenText items) where
  word _ := endsWord_cons (by decide) _
  number _ := rfl
  skips _ := skip_cons (by decide) (by decide) _
  stuck _ := rfl
  drop _ := good_parenText hG hargs
  quiet rest hc hgood := by
    rw [parenText_append] at hgood ⊢
    refine ⟨?_, Printed.run_arrowHead_printed hG hargs (hG.cons (by decide) hgood) hc.quiet,
      run_keyword_none (by decide) _ _⟩
    simp [run_thenSkip, run_ascription_none (run_sym_none ":" rfl (show '(' ≠ ':' by decide) _),
      run_sym_none "=>" rfl (show '(' ≠ '=' by decide)]
  reads rest _ hgood := by
    have hread := run_arguments_parenText hG hargs hgood
    rw [parenText_append] at hread ⊢
    simp [accessSuffix, run_orElse, run_memberSuffix_paren, callSuffix, run_choice_cons, run_map,
      run_skipThen, run_sym, run_chars_cons, run_char_cons, hread]

theorem optionalCall [Shrinks B] (hG : TextClass d Good) (hargs : ArgumentsPrinted d B Good items) :
    SuffixText d B Good (accessSuffix d B) (fun callee => .call callee (items.map Prod.fst) true)
      ('?' :: '.' :: parenText items) where
  word _ := endsWord_cons (by decide) _
  number _ := rfl
  skips _ := skip_cons (by decide) (by decide) _
  stuck _ := isStuck_questionPoint _
  drop _ hs := good_parenText hG hargs (hG.append (w := ['?', '.']) (by decide) hs)
  quiet rest _ _ := quiet_of_char (by decide) (by decide) (by decide)
    (run_sym_none "=>" rfl (by decide) _)
  reads rest _ hgood := by
    have hread := run_arguments_parenText hG hargs (hG.append (w := ['?', '.']) (by decide) hgood)
    rw [List.cons_append, List.cons_append]
    rw [parenText_append] at hread ⊢
    simp [accessSuffix, run_orElse, run_memberSuffix_optionalParen, callSuffix, run_choice_cons,
      run_map, run_skipThen, run_sym, run_chars_cons, run_char_cons,
      skip_cons (show isBlank '(' = false by decide) (by decide), hread]

end SuffixText

namespace Printed

variable {d : Dialect} {B : Parser (List Stmt)} {Good : List Char → Prop}

/-- Behind an object, a suffix gives the invariant of the whole. -/
theorem suffix [Shrinks B] {j : Nat} {e : Expr} {w u : List Char} {f : Expr → Expr}
    (h : Printed d B Good j e w) (hj : 10 ≤ j) (hu : SuffixText d B Good (accessSuffix d B) f u) :
    Printed d B Good 10 (f e) (w ++ u) := by
  refine ofAccess ?_ ?_ ?_ ?_ ?_
  · obtain ⟨c, s, rfl, hc⟩ := h.starts
    exact ⟨c, s ++ u, rfl, hc⟩
  · intro s hs
    rw [List.append_assoc] at hs
    exact hu.drop s (h.drop _ hs)
  · intro rest _
    rw [List.append_assoc]
    exact (h.opens (u ++ rest) (hu.word rest)).op (by omega)
  · intro rest hc hgood
    rw [List.append_assoc] at hgood ⊢
    have hin := h.drop _ hgood
    rw [h.access hj _ (hu.context hc hin) hgood, hu.skips rest, run_many_step (hu.reads rest hc hin)]
    cases run (many (accessSuffix d B)) (skip rest) <;> rfl
  · intro rest hgood p r hp
    rw [List.append_assoc] at hgood hp
    rcases h.pattern _ (hu.word rest) (hu.number rest) hgood p r hp with rfl | hstuck | ⟨h0, -⟩
    · rw [hu.skips rest]
      exact hu.stuck rest
    · exact hstuck
    · omega

/-! ## Operators -/

/-- No pattern goes on with an operand. -/
theorem isStuck_append {j : Nat} {e : Expr} {w : List Char} (h : Printed d B Good j e w)
    (s : List Char) : isStuck (w ++ s) = true := by
  obtain ⟨c, t, rfl, hc⟩ := h.starts
  exact isStuck_cons (followsPattern_of_startsExpr hc) (ne_of_startsExpr hc (by decide)) _

/-- What divides an operator from its operand: a blank where the operator is a word, and possibly
elsewhere. -/
def IsGap (op : UnaryOp) (gap : List Char) : Prop :=
  gap = [' '] ∨ gap = [] ∧ op.isWord = false

theorem skip_gap {j : Nat} {e : Expr} {w gap : List Char} {op : UnaryOp}
    (h : Printed d B Good j e w) (hgap : IsGap op gap) (s : List Char) :
    skip (gap ++ (w ++ s)) = w ++ s := by
  rcases hgap with rfl | ⟨rfl, -⟩
  · rw [List.singleton_append, skip_blank (by decide), h.skip_append]
  · exact h.skip_append s

theorem endsWord_gap {op : UnaryOp} {gap : List Char} (hgap : IsGap op gap) (hop : op.isWord = true)
    (s : List Char) : endsWord (gap ++ s) = true := by
  rcases hgap with rfl | ⟨-, hop'⟩
  · exact endsWord_cons (by decide) _
  · simp [hop] at hop'

theorem run_unaryOp_printed {j : Nat} {e : Expr} {w gap : List Char} {op : UnaryOp}
    (h : Printed d B Good j e w) (hgap : IsGap op gap) (s : List Char) :
    run unaryOp (op.symbol.toList ++ (gap ++ (w ++ s))) = some (op, w ++ s) := by
  have hskip := h.skip_gap hgap s
  cases op with
  | not | minus | plus =>
    simp [unaryOp, run_choice_cons, run_yielding, run_sym, run_chars_cons, run_char_cons,
      UnaryOp.symbol, hskip]
  | typeOf | void | await =>
    rw [UnaryOp.symbol, run_unaryOp_word (by decide) (endsWord_gap hgap rfl _), hskip]
    rfl

/-- Only `await` is a pattern by itself, and then reading is stuck at its operand. -/
theorem run_bindingPattern_unary [Shrinks B] {j : Nat} {e : Expr} {w gap : List Char} {op : UnaryOp}
    (h : Printed d B Good j e w) (hgap : IsGap op gap) {s r : List Char} {p : Pattern}
    (hp : run (bindingPattern (expression d B)) (op.symbol.toList ++ (gap ++ (w ++ s))) =
      some (p, r)) : r = w ++ s := by
  cases op with
  | not | minus | plus =>
    have hnone : ∀ {c : Char}, isWordStart c = false → c ≠ '[' → c ≠ '\x7b' → ∀ t,
        run (bindingPattern (expression d B)) (c :: t) ≠ some (p, r) := by
      intro c hw hb hbr t
      simp [run_bindingPattern_none hw hb hbr]
    exact absurd hp (hnone (by decide) (by decide) (by decide) _)
  | typeOf | void =>
    rw [UnaryOp.symbol, run_bindingPattern_word (by decide) (endsWord_gap hgap rfl _)] at hp
    exact absurd hp (by simp [isReserved, reservedWords])
  | await =>
    rw [UnaryOp.symbol, run_bindingPattern_word (by decide) (endsWord_gap hgap rfl _),
      h.skip_gap hgap, if_neg (by decide)] at hp
    simp only [Option.some.injEq, Prod.mk.injEq] at hp
    exact hp.2.symm

/-- A prefix operator goes on with its operand, which is read at the level of prefix operators
again. -/
theorem unary [Shrinks B] (hG : TextClass d Good) {j : Nat} {e : Expr} {w gap : List Char}
    {op : UnaryOp} (h : Printed d B Good j e w) (hj : 9 ≤ j) (hgap : IsGap op gap) :
    Printed d B Good 9 (.unary op e) (op.symbol.toList ++ (gap ++ w)) := by
  have htext : ∀ rest, op.symbol.toList ++ (gap ++ w) ++ rest =
      op.symbol.toList ++ (gap ++ (w ++ rest)) := by simp
  have hdrop : ∀ s, Good (op.symbol.toList ++ (gap ++ (w ++ s))) → Good (w ++ s) := by
    intro s hs
    have hgapped : Good (gap ++ (w ++ s)) := hG.append (by cases op <;> decide) hs
    exact hG.append (by rcases hgap with rfl | ⟨rfl, -⟩ <;> decide) hgapped
  refine ⟨by omega, ?_, ?_, ?_, ?_, by omega, by omega, ?_⟩
  · cases op <;> exact ⟨_, _, rfl, by decide⟩
  · intro s hs
    exact h.drop _ (hdrop s (htext s ▸ hs))
  · exact fun rest _ => ⟨fun h9 => by omega, fun h10 => by omega⟩
  · intro rest hc hgood hr
    rw [htext] at hgood ⊢
    have hread : run (unaryExpr d B (expression d B)) (w ++ rest) = some (e, skip rest) :=
      h.readsAt hj hc (hdrop rest hgood) hr
    change run (unaryExpr d B (expression d B)) _ = _
    rw [run_unaryExpr_op (h.run_unaryOp_printed hgap rest), hread]
    rfl
  · intro rest _ _ _ p r hp
    rw [htext] at hp
    rw [h.run_bindingPattern_unary hgap hp]
    exact .inr (.inl (h.isStuck_append rest))

theorem levelOf_precedence (op : BinaryOp) :
    2 ≤ levelOf op.precedence ∧ levelOf op.precedence ≤ 8 := by
  cases op <;> decide

theorem isStuck_binaryOp (op : BinaryOp) (s : List Char) :
    isStuck (op.symbol.toList ++ ' ' :: s) = true := by
  cases op with
  | nullish =>
    have hskip : skip ('?' :: ' ' :: s) = '?' :: ' ' :: s := skip_cons (by decide) (by decide) _
    change isStuck ('?' :: '?' :: ' ' :: s) = true
    simp [isStuck, hskip, followsPattern, isCloser]
  | strictEq | eq => rfl
  | or | and | strictNe | ne | lt | le | gt | ge | instanceOf | isIn | add | sub | mul | div | mod =>
    exact isStuck_cons (by decide) (by decide) _

/-- The text behind the left operand of an operator. -/
theorem context_binaryOp (op : BinaryOp) (s : List Char) :
    Context d B (' ' :: (op.symbol.toList ++ ' ' :: s)) where
  word := endsWord_cons (by decide) _
  number := rfl
  quiet := by
    rw [skip_blank (by decide), skip_binaryOp]
    exact quiet_binaryOp op s

/-- An operator between two operands. The left one may end at the level of the operator, since the
level's loop takes the operator and the right operand as one more step; the right one must bind
stronger. -/
theorem binary [Shrinks B] (hG : TextClass d Good) {op : BinaryOp} {i j : Nat} {l r : Expr}
    {w v : List Char} (hl : Printed d B Good i l w) (hi : levelOf op.precedence ≤ i)
    (hr : Printed d B Good j r v) (hj : levelOf op.precedence + 1 ≤ j) :
    Printed d B Good (levelOf op.precedence) (.binary op l r)
      (w ++ ' ' :: (op.symbol.toList ++ ' ' :: v)) := by
  obtain ⟨h2, h8⟩ := levelOf_precedence op
  have htext : ∀ rest, w ++ ' ' :: (op.symbol.toList ++ ' ' :: v) ++ rest =
      w ++ ' ' :: (op.symbol.toList ++ ' ' :: (v ++ rest)) := by simp
  have hskip : ∀ s, skip (' ' :: (op.symbol.toList ++ ' ' :: s)) = op.symbol.toList ++ ' ' :: s := by
    intro s
    rw [skip_blank (by decide), skip_binaryOp]
  have hdrop : ∀ s, Good (w ++ ' ' :: (op.symbol.toList ++ ' ' :: (v ++ s))) → Good (v ++ s) := by
    intro s hs
    exact hG.binaryOp op (hG.cons (by decide) (hl.drop _ hs))
  -- what is read at the level, whether or not the loop goes on behind the right operand
  have hchain : ∀ rest, Context d B rest →
      Good (w ++ ' ' :: (op.symbol.toList ++ ' ' :: (v ++ rest))) →
      Halts d B (levelOf op.precedence + 1) (skip rest) →
      run (levelRule d B (levelOf op.precedence))
        (w ++ ' ' :: (op.symbol.toList ++ ' ' :: (v ++ rest))) =
        (run (many ((levelOp (levelOf op.precedence)).seq
          (levelRule d B (levelOf op.precedence + 1)))) (skip rest)).map fun x =>
            (joinOperands (.binary op l r) x.1, x.2) := by
    intro rest hc hgood hrest
    -- the operator and the right operand are one more step of the level's loop
    have hstep : run ((levelOp (levelOf op.precedence)).seq
        (levelRule d B (levelOf op.precedence + 1))) (op.symbol.toList ++ ' ' :: (v ++ rest)) =
          some ((op, r), skip rest) := by
      rw [run_seq, run_levelOp, Option.bind_some, hr.skip_append,
        hr.readsAt hj hc (hdrop rest hgood) hrest]
      rfl
    have hhalts := halts_binaryOp (d := d) (B := B) op (v ++ rest)
    rw [← hskip] at hhalts
    rw [hl.chainAt h2 h8 hi (context_binaryOp op _) hgood hhalts, hskip, run_many_step hstep]
    cases run (many _) (skip rest) <;> rfl
  refine ⟨by omega, ?_, ?_, ?_, ?_, ?_, by omega, ?_⟩
  · obtain ⟨c, s, rfl, hc⟩ := hl.starts
    exact ⟨c, _, rfl, hc⟩
  · intro s hs
    exact hr.drop _ (hdrop s (htext s ▸ hs))
  · exact fun rest _ => ⟨fun h9 => by omega, fun h10 => by omega⟩
  · intro rest hc hgood hrest
    rw [htext] at hgood ⊢
    have hnone := hrest _ (Nat.le_refl _) (by omega)
    rw [levelTail_eq_binary h2 h8] at hnone
    -- the loop ends behind the right operand
    rw [hchain rest hc hgood (hrest.mono (by omega)), run_many_none (run_forget_none.1 hnone)]
    rfl
  · intro _ _ rest hc hgood hrest
    rw [htext] at hgood ⊢
    exact hchain rest hc hgood hrest
  · intro rest _ _ hgood p t hp
    rw [htext] at hgood hp
    have hctx := context_binaryOp (d := d) (B := B) op (v ++ rest)
    -- a pattern ends with the left operand or in it: no operator stands behind a parameter
    rcases hl.pattern _ hctx.word hctx.number hgood p t hp with rfl | hstuck | ⟨h0, -⟩
    · rw [hskip]
      exact .inr (.inl (isStuck_binaryOp op _))
    · exact .inr (.inl hstuck)
    · omega

/-- A conditional expression. The test is read below the level of conditionals and stops at `?`; the
branches are whole expressions, of which the first stops at the colon. The colon is where a type
could stand: that no arrow follows such a type is what `hG.colon` says. -/
theorem cond [Shrinks B] (hG : TextClass d Good) {i j k : Nat} {test cons alt : Expr}
    {t c a : List Char} (htest : Printed d B Good i test t) (hi : 2 ≤ i)
    (hcons : Printed d B Good j cons c) (halt : Printed d B Good k alt a) :
    Printed d B Good 0 (.cond test cons alt)
      (t ++ ' ' :: '?' :: ' ' :: (c ++ ' ' :: ':' :: ' ' :: a)) := by
  have htext : ∀ rest, t ++ ' ' :: '?' :: ' ' :: (c ++ ' ' :: ':' :: ' ' :: a) ++ rest =
      t ++ ' ' :: '?' :: ' ' :: (c ++ ' ' :: ':' :: ' ' :: (a ++ rest)) := by simp
  have hblank : ∀ s, skip (' ' :: s) = skip s := skip_blank (by decide)
  have hquestion : ∀ s, skip ('?' :: s) = '?' :: s := skip_cons (by decide) (by decide)
  have hcolon : ∀ s, skip (':' :: s) = ':' :: s := skip_cons (by decide) (by decide)
  have hdropTest : ∀ s, Good (t ++ ' ' :: '?' :: ' ' :: s) → Good s := fun s hs =>
    hG.append (w := [' ', '?', ' ']) (by decide) (htest.drop _ hs)
  have hdropCons : ∀ s, Good (c ++ ' ' :: ':' :: ' ' :: s) → Good s := fun s hs =>
    hG.append (w := [' ', ':', ' ']) (by decide) (hcons.drop _ hs)
  refine ⟨by omega, ?_, ?_, ?_, ?_, by omega, by omega, ?_⟩
  · obtain ⟨x, s, rfl, hx⟩ := htest.starts
    exact ⟨x, _, rfl, hx⟩
  · intro s hs
    rw [htext] at hs
    exact halt.drop _ (hdropCons _ (hdropTest _ hs))
  · exact fun rest _ => ⟨fun h9 => by omega, fun h10 => by omega⟩
  · intro rest hc hgood hrest
    rw [htext] at hgood ⊢
    have hin := hdropTest _ hgood
    -- the test stops at `?`, the first branch at `:`
    have hreadTest : run (nullish d B (expression d B))
        (t ++ ' ' :: '?' :: ' ' :: (c ++ ' ' :: ':' :: ' ' :: (a ++ rest))) =
          some (test, '?' :: ' ' :: (c ++ ' ' :: ':' :: ' ' :: (a ++ rest))) := by
      have hctx : Context d B (' ' :: '?' :: ' ' :: (c ++ ' ' :: ':' :: ' ' :: (a ++ rest))) := by
        refine ⟨endsWord_cons (by decide) _, rfl, ?_⟩
        rw [hblank, hquestion]
        exact quiet_of_char (by decide) (by decide) (by decide)
          (Grammar.run_sym_none "=>" rfl (by decide) _)
      have hread := htest.readsAt hi hctx hgood (by
        rw [hblank, hquestion]
        exact halts_question _)
      rwa [hblank, hquestion] at hread
    have hreadCons : run (expression d B) (c ++ ' ' :: ':' :: ' ' :: (a ++ rest)) =
        some (cons, ':' :: ' ' :: (a ++ rest)) := by
      have hctx : Context d B (' ' :: ':' :: ' ' :: (a ++ rest)) := by
        refine ⟨endsWord_cons (by decide) _, rfl, ?_⟩
        rw [hblank, hcolon]
        -- the colon is not that of a result type in front of an arrow
        exact quiet_colon (hG.colon (hcons.drop _ hin))
      have hread := hcons.readsAt (Nat.zero_le j) hctx hin (by
        rw [hblank, hcolon]
        exact halts_of_char (by decide) _)
      rwa [hblank, hcolon] at hread
    have hreadAlt : run (expression d B) (a ++ rest) = some (alt, skip rest) :=
      halt.readsAt (Nat.zero_le k) hc (hdropCons _ hin) hrest
    have hcond : run (levelRule d B 1)
        (t ++ ' ' :: '?' :: ' ' :: (c ++ ' ' :: ':' :: ' ' :: (a ++ rest))) =
          some (.cond test cons alt, skip rest) := by
      have hbranches : run ((((sym "?").skipThen (expression d B)).thenSkip (sym ":")).seq
          (expression d B)) ('?' :: ' ' :: (c ++ ' ' :: ':' :: ' ' :: (a ++ rest))) =
            some ((cons, alt), skip rest) := by
        simp [run_seq, run_thenSkip, run_skipThen, run_sym, run_chars_cons, run_char_cons, hblank,
          hcons.skip_append, hreadCons, halt.skip_append, hreadAlt]
      simp only [levelRule, conditional, run_both, hreadTest, Option.bind_some,
        run_optional_some hbranches]
      rfl
    exact run_levelRule_succ (by omega) hcond ⟨fun h => by omega, fun h => by omega⟩
      (hrest 0 (by omega) (by omega))
  · intro rest _ _ hgood p r hp
    rw [htext] at hgood hp
    -- a pattern ends with the test or in it; a `?` behind it does not mark an optional parameter,
    -- for an expression follows
    rcases htest.pattern _ (endsWord_cons (by decide) _) rfl hgood p r hp with rfl | hstuck | ⟨h0, -⟩
    · rw [hblank, hquestion]
      obtain ⟨x, s, rfl, hx⟩ := hcons.starts
      exact .inr (.inl (isStuck_question (by rw [hblank, hcons.skip_append]; rfl)
        (followsPattern_of_startsExpr hx)))
    · exact .inr (.inl hstuck)
    · omega

theorem isStuck_assignOp (op : AssignOp) (s : List Char) (h : op ≠ .plain) :
    isStuck (op.symbol.toList ++ ' ' :: s) = true := by
  cases op with
  | plain => exact absurd rfl h
  | nullish =>
    have hskip : skip ('?' :: '=' :: ' ' :: s) = '?' :: '=' :: ' ' :: s :=
      skip_cons (by decide) (by decide) _
    exact isStuck_question hskip (by decide)
  | add | sub | or | and => exact isStuck_cons (by decide) (by decide) _

/-- An assignment: the target stops at the operator, and the value is read as an expression. -/
theorem assign [Shrinks B] (hG : TextClass d Good) {op : AssignOp} {i j : Nat} {target value : Expr}
    {w v : List Char} (htarget : Printed d B Good i target w) (hi : 1 ≤ i)
    (hvalue : Printed d B Good j value v) :
    Printed d B Good 0 (.assign op target value)
      (w ++ ' ' :: (op.symbol.toList ++ ' ' :: v)) := by
  have htext : ∀ rest, w ++ ' ' :: (op.symbol.toList ++ ' ' :: v) ++ rest =
      w ++ ' ' :: (op.symbol.toList ++ ' ' :: (v ++ rest)) := by simp
  have hskip : ∀ s, skip (' ' :: (op.symbol.toList ++ ' ' :: s)) = op.symbol.toList ++ ' ' :: s := by
    intro s
    rw [skip_blank (by decide), skip_assignOp]
  have hdrop : ∀ s, Good (w ++ ' ' :: (op.symbol.toList ++ ' ' :: (v ++ s))) → Good (v ++ s) := by
    intro s hs
    have hop : Good (op.symbol.toList ++ ' ' :: (v ++ s)) :=
      hG.cons (by decide) (htarget.drop _ hs)
    exact hG.cons (by decide) (hG.append (by cases op <;> decide) hop)
  refine ⟨by omega, ?_, ?_, ?_, ?_, by omega, by omega, ?_⟩
  · obtain ⟨c, s, rfl, hc⟩ := htarget.starts
    exact ⟨c, _, rfl, hc⟩
  · intro s hs
    exact hvalue.drop _ (hdrop s (htext s ▸ hs))
  · exact fun rest _ => ⟨fun h9 => by omega, fun h10 => by omega⟩
  · intro rest hc hgood hrest
    rw [htext] at hgood ⊢
    have hctx : Context d B (' ' :: (op.symbol.toList ++ ' ' :: (v ++ rest))) :=
      ⟨endsWord_cons (by decide) _, rfl, (hskip _).symm ▸ quiet_assignOp op _⟩
    have hreadTarget : run (conditional d B (expression d B))
        (w ++ ' ' :: (op.symbol.toList ++ ' ' :: (v ++ rest))) =
          some (target, op.symbol.toList ++ ' ' :: (v ++ rest)) := by
      have hread := htarget.readsAt hi hctx hgood ((hskip _).symm ▸ halts_assignOp op _)
      rwa [hskip] at hread
    have hreadValue : run (assignOp.seq (expression d B))
        (op.symbol.toList ++ ' ' :: (v ++ rest)) = some ((op, value), skip rest) := by
      have hread : run (expression d B) (v ++ rest) = some (value, skip rest) :=
        hvalue.readsAt (Nat.zero_le j) hc (hdrop rest hgood) hrest
      rw [run_seq, run_assignOp, Option.bind_some, hvalue.skip_append, hread]
      rfl
    change run (expression d B) _ = _
    rw [run_expression]
    simp only [expressionBody, run_both, hreadTarget, Option.bind_some,
      run_optional_some hreadValue]
    rfl
  · intro rest hword hnumber hgood p r hp
    rw [htext] at hgood hp
    rcases htarget.pattern _ (endsWord_cons (by decide) _) rfl hgood p r hp with
      rfl | hstuck | ⟨h0, -⟩
    · rw [hskip]
      -- `=` may also give the default of a parameter, which is then the value
      by_cases hop : op = .plain
      · subst hop
        refine .inr (.inr ⟨rfl, v ++ rest, rfl, fun hhalts hquiet => ⟨value, ?_⟩⟩)
        rw [hvalue.skip_append]
        exact hvalue.readsAt (Nat.zero_le j) ⟨hword, hnumber, hquiet⟩ (hdrop rest hgood) hhalts
      · exact .inr (.inl (isStuck_assignOp op _ hop))
    · exact .inr (.inl hstuck)
    · omega

end Printed

end TsxCompiler.Grammar
