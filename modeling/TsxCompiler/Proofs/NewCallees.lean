import TsxCompiler.Proofs.KeptTexts
import TsxCompiler.Proofs.OperatorTrees

/-!
# The callee of `new`

The callee of a `new` is an operand with members behind it, and it ends at the first parenthesis
that follows. Printing puts a callee in parentheses when it is itself a call, but not when a call
or another `new` stands further inside, at the front of a chain of members. There the text no longer
says where the callee ends: the `new` takes the arguments of the inner call for its own, and the
rest of the chain, with the arguments that were meant for the `new`, goes to the new object.

Main statement: `reread_new` — the printed text of a `new` is read as that `new` exactly when its
callee is a call or has no call at its front, and otherwise as what `afterNew?` says.
-/

namespace TsxCompiler

/-! ## Calls at the front of a callee -/

namespace Expr

/-- Whether a call or a `new` stands at the front of an expression, where the text shows no bracket
around it. -/
def exposesCall : Expr → Bool
  | .call .. | .new .. => true
  | .member obj _ _ => obj.exposesCall
  | _ => false

/-- Whether the text of an expression behind `new` is read as the callee as a whole. -/
def isWholeCallee (e : Expr) : Bool := e.isCall || !e.exposesCall

/-- What `new` and the text of an expression with a call at its front are read as: the first call
gives its arguments to the `new`, unless it is an optional one, and all that follows is applied to
the new object. A second `new` cannot be read at all. -/
def afterNew? : Expr → Option Expr
  | .call callee args optional =>
    if callee.exposesCall then callee.afterNew?.map (.call · args optional)
    else if optional then some (.call (.new callee none) args true)
    else some (.new callee (some args))
  | .member obj key optional => obj.afterNew?.map (.member · key optional)
  | _ => none

theorem power_of_exposesCall {e : Expr} (h : e.exposesCall = true) : e.power = Power.access := by
  cases e with
  | call | new | member => rfl
  | _ => simp [exposesCall] at h

theorem guarded_access {e : Expr} (h : e.power = Power.access) (text : String) :
    e.guarded Power.access text = text := by
  rw [guarded, h, if_neg (Nat.lt_irrefl _)]

/-- A call at the front of an expression leaves it without parentheses. -/
theorem guarded_of_exposesCall {e : Expr} (h : e.exposesCall = true) (text : String) :
    e.guarded Power.access text = text :=
  guarded_access (power_of_exposesCall h) text

theorem exposesCall_of_afterNew? {e taken : Expr} (h : e.afterNew? = some taken) :
    e.exposesCall = true := by
  fun_induction Expr.afterNew? e generalizing taken with
  | case1 | case2 | case3 => rfl
  | case4 obj key optional ih =>
    obtain ⟨inner, hinner, -⟩ := Option.map_eq_some_iff.1 h
    exact ih hinner
  | case5 => simp at h

/-- What cannot be read behind `new` starts with `new`. -/
theorem exists_print_of_afterNew?_eq_none {e : Expr} (hexposes : e.exposesCall = true)
    (h : e.afterNew? = none) (level : Nat) : ∃ text, e.print level = "new " ++ text := by
  fun_induction Expr.afterNew? e with
  | case1 callee args optional hcallee ih =>
    obtain ⟨text, htext⟩ := ih hcallee (Option.map_eq_none_iff.1 h)
    rw [print, guarded_of_exposesCall hcallee, htext, String.append_assoc, String.append_assoc]
    exact ⟨_, rfl⟩
  | case2 => simp at h
  | case3 => simp at h
  | case4 obj key optional ih =>
    have hobj : obj.exposesCall = true := hexposes
    obtain ⟨text, htext⟩ := ih hobj (Option.map_eq_none_iff.1 h)
    rw [print, guarded_of_exposesCall hobj, htext, String.append_assoc]
    exact ⟨_, rfl⟩
  | case5 e hcall hmember =>
    cases e with
    | new callee args => exact ⟨_, print_new callee args level⟩
    | call callee args optional => exact absurd rfl (hcall callee args optional)
    | member obj key optional => exact absurd rfl (hmember obj key optional)
    | _ => simp [exposesCall] at hexposes

end Expr

namespace Grammar

open Peg Peg.Parser Text

/-! ## Callees -/

section Callees

variable {d : Dialect} {B : Parser (List Stmt)} {Good : List Char → Prop}

/-- The rule for the callee of a `new`: no call takes part in it. -/
def callee (d : Dialect) (B : Parser (List Stmt)) : Parser Expr :=
  both applySuffixes (primary d B (expression d B)) (many (memberSuffix (expression d B)))

/-- How the rule for callees reads the text `w` of the expression `e`, whatever stands behind it:
members that follow belong to the callee. -/
structure CalleeText (d : Dialect) (B : Parser (List Stmt)) (Good : List Char → Prop) (e : Expr)
    (w : List Char) : Prop where
  starts : ∃ c s, w = c :: s ∧ startsExpr c = true
  drop : ∀ s, Good (w ++ s) → Good s
  reads : ∀ rest, Context d B rest → Good (w ++ rest) →
    run (callee d B) (w ++ rest) =
      (run (many (memberSuffix (expression d B))) (skip rest)).map fun x =>
        (applySuffixes e x.1, x.2)

namespace CalleeText

variable {e : Expr} {w : List Char}

theorem ofPrimary (h : Printed d B Good 11 e w) : CalleeText d B Good e w where
  starts := h.starts
  drop := h.drop
  reads rest hc hgood := by
    have hread : run (primary d B (expression d B)) (w ++ rest) = some (e, skip rest) :=
      h.reads rest hc hgood fun i hi hi' => by omega
    rw [callee, run_both, hread]
    rfl

/-- A name is a callee, and `await` is one as well. -/
theorem name [Shrinks B] (hG : TextClass d Good) {name : String} (h : isName name = true) :
    CalleeText d B Good (.ident name) name.toList where
  starts := by
    obtain ⟨c, cs, hc, hstart⟩ := exists_of_isIdentifier (isIdentifier_of_isName h)
    exact ⟨c, cs, hc, by simp [startsExpr, hstart]⟩
  drop s := hG.append (passed_of_isIdentifier (isIdentifier_of_isName h))
  reads rest hc _ := by
    rw [callee, run_both, run_primary_word (isIdentifier_of_isName h) (wordOperand_of_isName h)
      hc.word hc.quiet]
    rfl

theorem member [Shrinks B] (h : CalleeText d B Good e w) {f : Expr → Expr} {u : List Char}
    (hu : SuffixText d B Good (memberSuffix (expression d B)) f u) :
    CalleeText d B Good (f e) (w ++ u) where
  starts := by
    obtain ⟨c, s, rfl, hc⟩ := h.starts
    exact ⟨c, s ++ u, rfl, hc⟩
  drop s hs := by
    rw [List.append_assoc] at hs
    exact hu.drop s (h.drop _ hs)
  reads rest hc hgood := by
    rw [List.append_assoc] at hgood ⊢
    have hin := h.drop _ hgood
    rw [h.reads _ (hu.context hc hin) hgood, hu.skips rest, run_many_step (hu.reads rest hc hin)]
    cases run (many (memberSuffix (expression d B))) (skip rest) <;> rfl

/-- Behind its callee, a `new` looks for arguments. -/
theorem run_newExpr (h : CalleeText d B Good e w) {rest : List Char} (hc : Context d B rest)
    (hgood : Good (w ++ rest)) (hskip : skip rest = rest)
    (hmember : run (memberSuffix (expression d B)) rest = none) :
    run (newExpr d B (expression d B)) ("new ".toList ++ (w ++ rest)) =
      (run (arguments (expression d B)).optional rest).map fun x => (.new e x.1, x.2) := by
  have hword : run (keyword "new") ("new".toList ++ ' ' :: (w ++ rest)) = some ((), w ++ rest) := by
    obtain ⟨c, s, rfl, hc⟩ := h.starts
    rw [run_keyword_word (by decide) (endsWord_cons (by decide) _), if_pos rfl,
      skip_blank (by decide), List.cons_append,
      skip_cons (isBlank_of_startsExpr hc) (ne_of_startsExpr hc (by decide))]
  have hcallee : run (callee d B) (w ++ rest) = some (e, rest) := by
    rw [h.reads rest hc hgood, hskip, run_many_none hmember]
    rfl
  rw [show "new ".toList = "new".toList ++ [' '] from rfl, List.append_assoc, List.singleton_append]
  change run (both Expr.new ((keyword "new").skipThen (callee d B)) _) _ = _
  rw [run_both, run_skipThen, hword, Option.bind_some, hcallee, Option.bind_some]

end CalleeText

/-! ## `new` as an operand -/

theorem run_postfixExpr_new {s r : List Char} {e : Expr}
    (h : run (newExpr d B (expression d B)) s = some (e, r)) :
    run (postfixExpr d B (expression d B)) s =
      (run (many (accessSuffix d B)) r).map fun x => (applySuffixes e x.1, x.2) := by
  rw [postfixExpr, run_both, run_orElse, h]
  rfl

namespace Printed

variable {e : Expr} {w : List Char}

/-- The invariant for a text that starts with `new`, from how members and calls follow it. -/
theorem ofNew [Shrinks B] (hG : TextClass d Good) {v : List Char}
    (drop : ∀ s, Good (v ++ s) → Good s)
    (access : ∀ rest, Context d B rest → Good (v ++ rest) →
      run (postfixExpr d B (expression d B)) ("new ".toList ++ (v ++ rest)) =
        (run (many (accessSuffix d B)) (skip rest)).map fun x => (applySuffixes e x.1, x.2)) :
    Printed d B Good 10 e ("new ".toList ++ v) := by
  have htext : ∀ rest, "new ".toList ++ v ++ rest = "new".toList ++ ' ' :: (v ++ rest) := by
    intro rest
    rw [List.append_assoc]
    rfl
  have hend : ∀ rest, endsWord (' ' :: (v ++ rest)) = true := fun _ => endsWord_cons (by decide) _
  have hdrop : ∀ rest, Good ("new ".toList ++ v ++ rest) → Good (v ++ rest) := by
    intro rest hgood
    rw [List.append_assoc] at hgood
    exact hG.append (by decide) hgood
  refine ofAccess ⟨'n', _, rfl, by decide⟩ (fun s hs => drop s (hdrop s hs)) ?_ ?_ ?_
  · intro rest _
    rw [htext, run_unaryOp_word (by decide) (hend rest)]
    rfl
  · intro rest hc hgood
    rw [List.append_assoc]
    exact access rest hc (hdrop rest hgood)
  · intro rest _ p r hp
    rw [htext, run_bindingPattern_word (by decide) (hend rest), if_pos (by decide)] at hp
    simp at hp

variable [Shrinks B] {items : List (Argument × List Char)}

theorem new (hG : TextClass d Good) (h : CalleeText d B Good e w)
    (hargs : ArgumentsPrinted d B Good items) :
    Printed d B Good 10 (.new e (some (items.map Prod.fst)))
      ("new ".toList ++ (w ++ SuffixText.parenText items)) := by
  have hu := SuffixText.call hG hargs
  refine ofNew hG (fun s hs => ?_) fun rest hc hgood => ?_
  · rw [List.append_assoc] at hs
    exact hu.drop s (h.drop _ hs)
  · rw [List.append_assoc] at hgood ⊢
    have hin := h.drop _ hgood
    refine run_postfixExpr_new ?_
    rw [h.run_newExpr (hu.context hc hin) hgood (hu.skips rest)
      (SuffixText.run_memberSuffix_paren _),
      run_optional_some (SuffixText.run_arguments_parenText hG hargs hin)]
    rfl

/-- An optional call keeps its arguments, and the `new` before its callee is left without any. -/
theorem newOptionalCall (hG : TextClass d Good) (h : CalleeText d B Good e w)
    (hargs : ArgumentsPrinted d B Good items) :
    Printed d B Good 10 (.call (.new e none) (items.map Prod.fst) true)
      ("new ".toList ++ (w ++ '?' :: '.' :: SuffixText.parenText items)) := by
  have hu := SuffixText.optionalCall hG hargs
  refine ofNew hG (fun s hs => ?_) fun rest hc hgood => ?_
  · rw [List.append_assoc] at hs
    exact hu.drop s (h.drop _ hs)
  · rw [List.append_assoc] at hgood ⊢
    have hin := h.drop _ hgood
    have hnone : run (arguments (expression d B))
        ('?' :: '.' :: SuffixText.parenText items ++ rest) = none :=
      run_inParens_none (by decide) _
    have hnew := h.run_newExpr (hu.context hc hin) hgood (hu.skips rest)
      (SuffixText.run_memberSuffix_optionalParen _)
    rw [run_optional_none hnone] at hnew
    rw [run_postfixExpr_new hnew, run_many_step (hu.reads rest hc hin)]
    cases run (many (accessSuffix d B)) (skip rest) <;> rfl

end Printed

/-- `new` is a reserved word, so it starts no operand. -/
theorem run_primary_new [Shrinks B] (s : List Char) :
    run (primary d B (expression d B)) ("new".toList ++ ' ' :: s) = none := by
  have hw : isIdentifier "new" = true := by decide
  have hend : endsWord (' ' :: s) = true := endsWord_cons (by decide) s
  -- none of the ten kinds of operands starts with `new`
  have hmarkup : run (markupExpr d (expression d B)) ("new".toList ++ ' ' :: s) = none :=
    run_markupExpr_none (by decide) _
  have hliteral : run literalExpr ("new".toList ++ ' ' :: s) = none := by
    rw [run_literalExpr_word hw hend]
    rfl
  have hidentifier : run identifier ("new".toList ++ ' ' :: s) = none := by
    rw [run_identifier, run_rawWord_append hw hend]
    rfl
  have harrow : run (arrowExpr d B (expression d B)) ("new".toList ++ ' ' :: s) = none := by
    refine run_arrowExpr_of_head (run_asyncMark_none (run_keyword_other hw hend (by decide))) ?_
    simp only [run_thenSkip, run_orElse, run_params_word hw, run_map, hidentifier, Option.map_none,
      Option.or_none, Option.bind_none]
  have hbracket {α : Type} (p : Parser α) : run (inBrackets p) ("new".toList ++ ' ' :: s) = none :=
    run_inBrackets_none (by decide) _
  have hbrace {α : Type} (p : Parser α) : run (inBraces p) ("new".toList ++ ' ' :: s) = none :=
    run_inBraces_none (by decide) _
  have hparen : run (inParens (expression d B)) ("new".toList ++ ' ' :: s) = none :=
    run_inParens_none (by decide) _
  simp only [primary, run_choice_cons, run_choice_nil, harrow, functionExpr, run_map,
    run_functionWith_word hw hend (show "new" ≠ "function" by decide) (by simp), classExpr,
    run_classWith_word hw hend (by decide), hmarkup, hliteral, run_yielding,
    run_keyword_other hw hend (show "new" ≠ "this" by decide), hidentifier, arrayExpr, hbracket,
    objectExpr, hbrace, hparen, Option.map_none, Option.none_or]

/-- Nothing is read where `new` follows `new`. -/
theorem run_expression_newNew [Shrinks B] (s : List Char) :
    run (expression d B) ("new ".toList ++ ("new ".toList ++ s)) = none := by
  have hend : ∀ t, endsWord (' ' :: t) = true := endsWord_cons (by decide)
  have htext : ∀ t, "new ".toList ++ t = "new".toList ++ ' ' :: t := fun _ => rfl
  rw [htext, htext]
  refine run_levelRule_none_of_primary ⟨fun _ => ?_, fun _ => ?_⟩ (run_primary_new _) 0
  · rw [run_unaryOp_word (by decide) (hend _)]
    rfl
  · have hskip : skip (' ' :: ("new".toList ++ ' ' :: s)) = "new".toList ++ ' ' :: s := by
      rw [skip_blank (by decide), skip_identifier (by decide)]
    rw [newExpr, run_both, run_skipThen, run_keyword_word (by decide) (hend _), if_pos rfl,
      Option.bind_some, hskip, run_both, run_primary_new]
    rfl

/-! ## Printed callees -/

variable [Shrinks B] {level : Nat}

/-- What the grammar does with the printed text of an expression by itself and behind `new `. -/
structure PrintsBehindNew (d : Dialect) (B : Parser (List Stmt)) (Good : List Char → Prop)
    (level : Nat) (e : Expr) : Prop where
  prints : PrintsWell d B Good level e
  whole : e.exposesCall = false →
    CalleeText d B Good e (e.guarded Power.access (e.print level)).toList
  taken : ∀ taken, e.afterNew? = some taken →
    Printed d B Good 10 taken ("new ".toList ++ (e.print level).toList)

namespace PrintsBehindNew

/-- The text of a callee as printing puts it behind `new `. -/
theorem calleeText {e : Expr} (h : PrintsBehindNew d B Good level e) (hG : TextClass d Good)
    (hwhole : e.isWholeCallee = true) :
    CalleeText d B Good e (if e.isCall then Print.parens (e.print level)
      else e.guarded Power.access (e.print level)).toList := by
  by_cases hcall : e.isCall = true
  · rw [if_pos hcall, toList_parens]
    exact .ofPrimary (h.prints.parens hG)
  · rw [if_neg hcall]
    refine h.whole ?_
    rw [Bool.not_eq_true] at hcall
    simpa [Expr.isWholeCallee, hcall] using hwhole

/-- An expression that is neither a call nor a member nor a `new` is an operand or stands in
parentheses. -/
theorem ofOperand (hG : TextClass d Good) {e : Expr} (h : PrintsWell d B Good level e)
    (hpower : (e.power == Power.access) = false) : PrintsBehindNew d B Good level e where
  prints := h
  whole _ := by
    refine .ofPrimary ?_
    by_cases hlow : e.power < Power.access
    · rw [Expr.guarded, if_pos hlow, toList_parens]
      exact h.parens hG
    · have hhigh : Power.access + 1 ≤ e.power := by
        have hne : e.power ≠ Power.access := beq_eq_false_iff_ne.1 hpower
        omega
      have hlevel : levelOf e.power = 11 := Nat.le_antisymm (levelOf_le _) (levelOf_mono hhigh)
      rw [Expr.guarded, if_neg hlow, ← hlevel]
      exact h
  taken taken htaken :=
    absurd (Expr.power_of_exposesCall (Expr.exposesCall_of_afterNew? htaken))
      (beq_eq_false_iff_ne.1 hpower)

theorem member (hG : TextClass d Good) {object : Expr} {key : MemberKey} {optional : Bool}
    (h : PrintsBehindNew d B Good level object) (hkey : KeyPrintsWell d B Good level key optional) :
    PrintsBehindNew d B Good level (.member object key optional) where
  prints := .member hG h.prints hkey
  whole hexposes := by
    rw [Expr.guarded_access rfl, Expr.print, String.toList_append]
    exact (h.whole hexposes).member hkey
  taken taken htaken := by
    obtain ⟨inner, hinner, rfl⟩ := Option.map_eq_some_iff.1 htaken
    have hexposes := Expr.exposesCall_of_afterNew? hinner
    rw [Expr.print, Expr.guarded_of_exposesCall hexposes, String.toList_append, ← List.append_assoc]
    exact (h.taken inner hinner).suffix (Nat.le_refl 10) (SuffixText.access hkey)

/-- Behind `new`, a call gives its arguments to the `new`. If the callee has a call of its own within
reach, the `new` takes that one, and these arguments are a suffix of what comes of it. -/
theorem call (hG : TextClass d Good) {callee : Expr} {args : List Argument} {optional : Bool}
    (h : PrintsBehindNew d B Good level callee)
    (hargs : ∀ a ∈ args, PrintsWell d B Good level a.value) :
    PrintsBehindNew d B Good level (.call callee args optional) where
  prints := .call hG h.prints hargs optional
  whole hexposes := absurd hexposes (by simp [Expr.exposesCall])
  taken taken htaken := by
    have hrow := argumentsPrinted_of_forall hargs
    rw [Expr.print, String.toList_append, String.toList_append, parens_printAll, List.append_assoc]
    rw [Expr.afterNew?] at htaken
    split at htaken
    · rename_i hexposes
      -- the `new` belongs to a call further inside
      obtain ⟨inner, hinner, rfl⟩ := Option.map_eq_some_iff.1 htaken
      rw [Expr.guarded_of_exposesCall hexposes, ← List.append_assoc]
      exact (h.taken inner hinner).suffix (Nat.le_refl 10) (suffixText_call hG hargs optional)
    · rename_i hexposes
      -- the arguments of this call are those of the `new`
      have hcallee := h.whole (Bool.eq_false_iff.2 hexposes)
      cases optional with
      | false =>
        obtain rfl := Option.some.inj htaken
        have hnew := Printed.new hG hcallee hrow
        rwa [map_fst_printedArguments] at hnew
      | true =>
        obtain rfl := Option.some.inj htaken
        have hnew := Printed.newOptionalCall hG hcallee hrow
        rwa [map_fst_printedArguments] at hnew

theorem new (hG : TextClass d Good) {callee : Expr} {args : List Argument}
    (h : CalleeText d B Good callee (if callee.isCall then Print.parens (callee.print level)
      else callee.guarded Power.access (callee.print level)).toList)
    (hargs : ∀ a ∈ args, PrintsWell d B Good level a.value) :
    PrintsBehindNew d B Good level (.new callee (some args)) where
  prints := by
    have hnew := Printed.new hG h (argumentsPrinted_of_forall hargs)
    rw [map_fst_printedArguments] at hnew
    refine .ofPrinted hnew rfl ?_
    rw [Expr.print_new, String.toList_append, String.toList_append, Option.getD_some,
      parens_printAll]
  whole hexposes := absurd hexposes (by simp [Expr.exposesCall])
  taken taken htaken := by simp [Expr.afterNew?] at htaken

end PrintsBehindNew

end Callees

end Grammar

/-! ## Absent arguments -/

namespace Expr

/-- Gives empty arguments to a `new` that has none. -/
def fillNew : Expr → Expr
  | .new callee none => .new callee (some [])
  | e => e

/-- Gives empty arguments to every `new` in an expression that has none. -/
def filled (e : Expr) : Expr := Id.run (e.traverse (Traversal.onExprs fillNew))

end Expr

def Argument.filled (a : Argument) : Argument := ⟨a.spread, a.value.filled⟩

namespace Expr

theorem traverseAll_fillNew (args : List Argument) :
    Argument.traverseAll (Traversal.onExprs fillNew) args = args.map Argument.filled := by
  induction args with
  | nil => rfl
  | cons a args ih =>
    obtain ⟨spread, value⟩ := a
    rw [List.map_cons, ← ih]
    rfl

@[simp] theorem filled_call (callee : Expr) (args : List Argument) (optional : Bool) :
    (Expr.call callee args optional).filled =
      .call callee.filled (args.map Argument.filled) optional := by
  rw [← traverseAll_fillNew]
  rfl

@[simp] theorem filled_array (elems : List Argument) :
    (Expr.array elems).filled = .array (elems.map Argument.filled) := by
  rw [← traverseAll_fillNew]
  rfl

@[simp] theorem filled_new (callee : Expr) (args : Option (List Argument)) :
    (Expr.new callee args).filled =
      .new callee.filled (some ((args.getD []).map Argument.filled)) := by
  cases args with
  | none => rfl
  | some args =>
    rw [← traverseAll_fillNew]
    rfl

/-- Empty arguments are printed like absent ones. -/
theorem fillNew_alike (e : Expr) : e.fillNew.Alike e := by
  match e with
  | .new callee none =>
    refine ⟨fun level => ?_, rfl, rfl, rfl, rfl⟩
    rw [Expr.fillNew, Expr.print_new, Expr.print_new]
    rfl
  | .new callee (some args) => exact .refl _
  | .this | .ident _ | .lit _ | .array _ | .object _ | .func _ _ | .arrow _ _ _ | .classExpr _ _
  | .call _ _ _ | .member _ _ _ | .unary _ _ | .binary _ _ _ | .cond _ _ _ | .assign _ _ _
  | .jsx _ => exact .refl _

theorem filled_alike (e : Expr) : e.filled.Alike e :=
  e.traverse_alike
    { expr := fun _ walk => fillNew_alike walk
      stmt := fun _ walk => .refl walk
      block := fun _ _ _ => rfl
      item := fun _ _ => rfl
      decl := fun _ _ => rfl
      func := fun _ _ => rfl
      classBody := fun _ _ => rfl
      pattern := fun _ _ => rfl
      element := fun _ _ => rfl }

theorem printAll_filled (args : List Argument) (level : Nat) :
    Argument.printAll (args.map Argument.filled) level = Argument.printAll args level := by
  induction args with
  | nil => rfl
  | cons a args ih =>
    obtain ⟨spread, value⟩ := a
    rw [List.map_cons, Argument.printAll, Argument.printAll, ih]
    simp only [Argument.filled, Argument.print, value.filled_alike.guarded]

/-- A traversal that changes expressions by filling them only keeps the calls at their front. -/
theorem exposesCall_traverse {r : Traversal Id}
    (h : ∀ e (walk : Expr), Id.run (r.expr e walk) = walk.fillNew) (e : Expr) :
    (Id.run (e.traverse r)).exposesCall = e.exposesCall := by
  have hfill (e : Expr) : e.fillNew.exposesCall = e.exposesCall := by
    unfold fillNew
    split <;> rfl
  fun_induction Expr.exposesCall e with
  | case1 callee args optional => exact (congrArg exposesCall (h _ _)).trans (hfill _)
  | case2 callee args => cases args <;> exact (congrArg exposesCall (h _ _)).trans (hfill _)
  | case3 obj key optional ih =>
    exact (congrArg exposesCall (h _ _)).trans ((hfill _).trans ih)
  | case4 e hcall hnew hmember =>
    cases e with
    | call callee args optional => exact absurd rfl (hcall callee args optional)
    | new callee args => exact absurd rfl (hnew callee args)
    | member obj key optional => exact absurd rfl (hmember obj key optional)
    | _ => exact (congrArg exposesCall (h _ _)).trans (hfill _)

theorem isWholeCallee_filled (e : Expr) : e.filled.isWholeCallee = e.isWholeCallee := by
  rw [isWholeCallee, isWholeCallee, e.filled_alike.isCall, filled,
    exposesCall_traverse fun _ _ => rfl]

end Expr

namespace Grammar

open Peg Peg.Parser Text

/-! ## Trees with `new` -/

/-- Operator trees in which every `new` has a callee that its text keeps together. -/
abbrev KeptTree : Expr → Prop := OperatorTreeWith fun callee => callee.isWholeCallee = true

namespace KeptTree

section PrintsBehindNew

variable {d : Dialect} {B : Parser (List Stmt)} {Good : List Char → Prop} {level : Nat}

theorem printsWell_filled {args : List Argument}
    (h : ∀ a ∈ args, PrintsBehindNew d B Good level a.value.filled) :
    ∀ a ∈ args.map Argument.filled, PrintsWell d B Good level a.value := by
  intro a ha
  obtain ⟨b, hb, rfl⟩ := List.mem_map.1 ha
  exact (h b hb).prints

/-- By induction over the tree. All but accesses, calls and `new` are in parentheses behind `new`. -/
theorem printsBehindNew [Shrinks B] (hG : TextClass d Good) {e : Expr} (h : KeptTree e) :
    PrintsBehindNew d B Good level e.filled := by
  induction h with
  | this => exact .ofOperand hG (.this hG) rfl
  | ident hname hawait => exact .ofOperand hG (.ident hG hname hawait) rfl
  | number htext => exact .ofOperand hG (.number hG htext) rfl
  | string hlit => exact .ofOperand hG (.string hG hlit) rfl
  | template hraw => exact .ofOperand hG (.template hG hraw) rfl
  | bool b => exact .ofOperand hG (.bool hG b) rfl
  | null => exact .ofOperand hG (.null hG) rfl
  | unary op _ ih => exact .ofOperand hG (.unary hG ih.prints) rfl
  | binary op _ _ ihl ihr =>
    exact .ofOperand hG (.binary hG ihl.prints ihr.prints) (by cases op <;> rfl)
  | cond _ _ _ iht ihc iha =>
    exact .ofOperand hG (.cond hG iht.prints ihc.prints iha.prints) rfl
  | assign op _ _ iht ihv => exact .ofOperand hG (.assign hG iht.prints ihv.prints) rfl
  | member optional _ hname ih => exact .member hG ih (.ident hG hname optional)
  | computedMember _ _ iho ihk => exact .member hG iho (.computed hG ihk.prints)
  | call optional _ _ ihc iha =>
    rw [Expr.filled_call]
    exact .call hG ihc (printsWell_filled iha)
  | new _ hwhole _ ihc iha =>
    rw [Expr.filled_new]
    exact .new hG (ihc.calleeText hG ((Expr.isWholeCallee_filled _).trans hwhole))
      (printsWell_filled iha)
  | array _ ih =>
    rw [Expr.filled_array]
    exact .ofOperand hG (.array hG (printsWell_filled ih)) rfl

end PrintsBehindNew

end KeptTree

/-! ## Reading a printed `new` -/

/-- What the printed text of an expression is read as, and what is left of the text. -/
def reread (d : Dialect) (level : Nat) (e : Expr) : Option (Expr × List Char) :=
  (expression d (blockOf (statement d)) (.ofList (e.print level).toList)).read?

section Reread

variable {d : Dialect} {level : Nat} {callee : Expr} {args : Option (List Argument)}

theorem LeadsArrowFree.arrowFree {text : String} (h : LeadsArrowFree text) :
    ArrowFree text.toList := by
  have hfree := h [] rfl
  rwa [List.append_nil] at hfree

/-- The text of a tree with `new` is read as that tree, with all arguments written out. -/
theorem reread_kept {e : Expr} (h : KeptTree e) : reread d level e = some (e.filled, []) := by
  have hprinted : PrintsWell d (blockOf (statement d)) ArrowFree level e.filled :=
    (h.printsBehindNew (arrowFree_textClass d)).prints
  rw [PrintsWell, e.filled_alike.text] at hprinted
  exact hprinted.read_whole (h.leadsArrowFree level).arrowFree

theorem print_new_of_exposesCall (hcall : callee.isCall = false)
    (hexposes : callee.exposesCall = true) (args : List Argument) :
    ((Expr.new callee (some args)).print level).toList =
      "new ".toList ++ (callee.print level).toList ++
        SuffixText.parenText (printedArguments args level) := by
  rw [Expr.print_new, hcall, if_neg Bool.false_ne_true, Expr.guarded_of_exposesCall hexposes,
    String.toList_append, String.toList_append, Option.getD_some, parens_printAll,
    List.append_assoc]

/-- The text of a `new` whose callee is not kept together: the arguments go to what the callee is
read as behind `new`. -/
theorem reread_taken (hcallee : KeptTree callee) (hargs : ∀ a ∈ args.getD [], KeptTree a.value)
    (hwhole : callee.isWholeCallee = false) :
    reread d level (.new callee args) = callee.filled.afterNew?.map fun taken =>
      (.call taken ((args.getD []).map Argument.filled) false, []) := by
  have hG := arrowFree_textClass d
  have hprint := (Expr.new callee args).filled_alike.text level
  have hfree : ArrowFree ((Expr.new callee args).print level).toList :=
    (LeadsArrowFree.new (hcallee.leadsArrowFree level)
      fun a ha => (hargs a ha).leadsArrowFree level).arrowFree
  rw [← Expr.isWholeCallee_filled, Expr.isWholeCallee, Bool.or_eq_false_iff,
    Bool.not_eq_false'] at hwhole
  rw [← hprint, Expr.filled_new, print_new_of_exposesCall hwhole.1 hwhole.2] at hfree
  rw [reread, ← hprint, Expr.filled_new, print_new_of_exposesCall hwhole.1 hwhole.2]
  cases hafter : callee.filled.afterNew? with
  | none =>
    -- the callee starts with another `new`
    obtain ⟨text, htext⟩ := Expr.exists_print_of_afterNew?_eq_none hwhole.2 hafter level
    rw [htext, String.toList_append, List.append_assoc, List.append_assoc, read?_eq_run,
      Cursor.ofList_rest]
    exact run_expression_newNew _
  | some taken =>
    have hbehind : PrintsBehindNew d (blockOf (statement d)) ArrowFree level callee.filled :=
      hcallee.printsBehindNew hG
    have hrow : ∀ a ∈ (args.getD []).map Argument.filled,
        PrintsWell d (blockOf (statement d)) ArrowFree level a.value :=
      KeptTree.printsWell_filled fun a ha => (hargs a ha).printsBehindNew hG
    exact ((hbehind.taken taken hafter).suffix (Nat.le_refl 10)
      (suffixText_call hG hrow false)).read_whole hfree

end Reread

/-- With parentheses around the callee, every `new` can be read. -/
theorem read_new_parens (d : Dialect) {callee : Expr} {args : Option (List Argument)}
    (hcallee : KeptTree callee) (hargs : ∀ a ∈ args.getD [], KeptTree a.value) (level : Nat) :
    (expression d (blockOf (statement d)) (.ofList ("new " ++ (Print.parens (callee.print level) ++
      Print.parens (Print.commaList (Argument.printAll (args.getD []) level)))).toList)).read? =
        some ((Expr.new callee args).filled, []) := by
  have hG := arrowFree_textClass d
  have hbehind : PrintsBehindNew d (blockOf (statement d)) ArrowFree level callee.filled :=
    hcallee.printsBehindNew hG
  have hrow : ∀ a ∈ (args.getD []).map Argument.filled,
      PrintsWell d (blockOf (statement d)) ArrowFree level a.value :=
    KeptTree.printsWell_filled fun a ha => (hargs a ha).printsBehindNew hG
  have hnew := Printed.new hG (.ofPrimary (hbehind.prints.parens hG))
    (argumentsPrinted_of_forall hrow)
  have hlead : LeadsArrowFree ("new " ++ (Print.parens (callee.print level) ++
      Print.parens (Print.commaList (Argument.printAll (args.getD []) level)))) :=
    .append (.ofPlain rfl) (.append (hcallee.leadsArrowFree level).parens
      (LeadsArrowFree.printAll fun a ha => (hargs a ha).leadsArrowFree level).parens)
  rw [map_fst_printedArguments, ← parens_printAll, Expr.printAll_filled,
    callee.filled_alike.text,
    ← toList_parens, ← String.toList_append, ← String.toList_append, ← Expr.filled_new] at hnew
  exact hnew.read_whole hlead.arrowFree

/-- The printed text of a `new` is read as that `new` exactly if its callee is a call or has no call
at its front. Otherwise it is read as a call of what `new` makes of the callee's first call. -/
theorem reread_new (d : Dialect) {callee : Expr} {args : Option (List Argument)}
    (hcallee : KeptTree callee) (hargs : ∀ a ∈ args.getD [], KeptTree a.value) (level : Nat) :
    (reread d level (.new callee args) = some ((Expr.new callee args).filled, []) ↔
      callee.isWholeCallee = true) ∧
    (callee.isWholeCallee = false →
      reread d level (.new callee args) = callee.filled.afterNew?.map fun taken =>
        (.call taken ((args.getD []).map Argument.filled) false, [])) := by
  refine ⟨⟨fun hread => ?_, fun hwhole => reread_kept (.new hcallee hwhole hargs)⟩,
    reread_taken hcallee hargs⟩
  by_cases hwhole : callee.isWholeCallee = true
  · exact hwhole
  · rw [reread_taken hcallee hargs (Bool.eq_false_iff.2 hwhole), Expr.filled_new] at hread
    obtain ⟨taken, -, hcall⟩ := Option.map_eq_some_iff.1 hread
    simp at hcall

/-- `a().b` -/
def memberOfCall : Expr := .member (.call (.ident "a") [] false) (.ident "b") false

theorem keptTree_memberOfCall : KeptTree memberOfCall :=
  .member false (.call false (.ident (by decide) (by decide)) (by simp)) (by decide)

/-- `new (a().b)` is printed as `new a().b()`, a call of the member `b` of a new `a`. -/
theorem reread_new_memberOfCall :
    KeptTree memberOfCall ∧ (Expr.new memberOfCall none).print 0 = "new a().b()" ∧
      reread ⟨.ecmaScript, false⟩ 0 (.new memberOfCall none) =
        some (.call (.member (.new (.ident "a") (some [])) (.ident "b") false) [] false, []) :=
  ⟨keptTree_memberOfCall, by decide +kernel,
    (reread_new _ keptTree_memberOfCall (by simp) 0).2 rfl⟩

/-- So what is read as a `new` is not always printed as one. -/
theorem not_reread_new :
    ¬ ∀ (d : Dialect) (text : String) (callee : Expr) (args : Option (List Argument)),
      (expression d (blockOf (statement d)) (.ofList text.toList)).read? =
        some (.new callee args, []) →
      reread d 0 (.new callee args) = some ((Expr.new callee args).filled, []) := by
  intro hreread
  have hargs : ∀ a ∈ (some ([] : List Argument)).getD [], KeptTree a.value := by simp
  have hread : (expression ⟨.ecmaScript, false⟩ (blockOf (statement ⟨.ecmaScript, false⟩))
      (.ofList "new (a().b)()".toList)).read? = some (.new memberOfCall (some []), []) := by
    have hparens := read_new_parens ⟨.ecmaScript, false⟩ keptTree_memberOfCall hargs 0
    rwa [show "new " ++ (Print.parens (memberOfCall.print 0) ++
      Print.parens (Print.commaList (Argument.printAll ((some []).getD []) 0))) = "new (a().b)()"
        by decide +kernel] at hparens
  have htaken : reread ⟨.ecmaScript, false⟩ 0 (.new memberOfCall (some [])) =
      memberOfCall.filled.afterNew?.map fun taken => (.call taken [] false, []) :=
    reread_taken keptTree_memberOfCall hargs rfl
  rw [hreread _ _ _ _ hread] at htaken
  obtain ⟨taken, -, hcall⟩ := Option.map_eq_some_iff.1 htaken.symm
  rw [Expr.filled_new] at hcall
  simp at hcall

end Grammar

end TsxCompiler
