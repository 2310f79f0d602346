import TsxCompiler.Proofs.Operators

/-!
# Printed trees

An expression is printed at the level of the grammar that its power belongs to, and a text that
needs more power than the expression has is put in parentheses. So `PrintsWell`, the invariant of
printed texts for the text that printing gives, goes from the parts of an operator to the whole.
-/

namespace TsxCompiler.Grammar

open Peg Peg.Parser Text

attribute [simp] Expr.print

variable {d : Dialect} {B : Parser (List Stmt)} {Good : List Char → Prop} {level : Nat}

/-- The grammar reads the printed text of an expression as that expression, at the level that its
power belongs to. -/
def PrintsWell (d : Dialect) (B : Parser (List Stmt)) (Good : List Char → Prop) (level : Nat)
    (e : Expr) : Prop :=
  Printed d B Good (levelOf e.power) e (e.print level).toList

theorem PrintsWell.ofPrinted {e : Expr} {w : List Char} {j : Nat} (h : Printed d B Good j e w)
    (hj : levelOf e.power = j) (hw : (e.print level).toList = w) : PrintsWell d B Good level e := by
  subst hj hw
  exact h

/-! ## Parentheses -/

theorem assignment_le_power (e : Expr) : Power.assignment ≤ e.power := by
  cases e with
  | binary op left right =>
    show 2 ≤ op.precedence
    cases op <;> decide
  | _ => simp [Expr.power, Power.assignment, Power.conditional, Power.unary, Power.access,
      Power.primary]

@[simp] theorem guarded_assignment (e : Expr) (text : String) :
    e.guarded Power.assignment text = text := by
  rw [Expr.guarded, if_neg (Nat.not_lt.2 (assignment_le_power e))]

@[simp] theorem toList_parens (text : String) :
    (Print.parens text).toList = '(' :: (text.toList ++ [')']) := by
  simp [Print.parens]

/-- Where a power is needed, the printed text belongs to a level of that power. -/
theorem PrintsWell.guarded [Shrinks B] (hG : TextClass d Good) {e : Expr}
    (h : PrintsWell d B Good level e) (power : Nat) :
    ∃ j, levelOf power ≤ j ∧ Printed d B Good j e (e.guarded power (e.print level)).toList := by
  by_cases hp : e.power < power
  · refine ⟨11, levelOf_le power, ?_⟩
    rw [Expr.guarded, if_pos hp, toList_parens]
    exact h.parens hG
  · refine ⟨levelOf e.power, levelOf_mono (by omega), ?_⟩
    rw [Expr.guarded, if_neg hp]
    exact h

/-! ## Rows -/

/-- Arguments with the printed texts of their values. -/
def printedArguments (args : List Argument) (level : Nat) : List (Argument × List Char) :=
  args.map fun a => (a, (a.value.print level).toList)

theorem map_fst_printedArguments (args : List Argument) (level : Nat) :
    (printedArguments args level).map Prod.fst = args := by
  rw [printedArguments, List.map_map]
  exact List.map_id args

theorem argumentTexts_printedArguments (args : List Argument) (level : Nat) :
    argumentTexts (printedArguments args level) =
      (Argument.printAll args level).map String.toList := by
  induction args with
  | nil => rfl
  | cons a args ih =>
    obtain ⟨spread, value⟩ := a
    have hfirst : argumentText spread (value.print level).toList =
        (Argument.print ⟨spread, value⟩ level).toList := by
      cases spread <;> simp [argumentText, Argument.print, Print.textIf]
    rw [Argument.printAll, List.map_cons, ← ih, ← hfirst]
    rfl

theorem argumentsPrinted_of_forall {args : List Argument}
    (h : ∀ a ∈ args, PrintsWell d B Good level a.value) :
    ArgumentsPrinted d B Good (printedArguments args level) := by
  intro x hx
  obtain ⟨a, ha, rfl⟩ := List.mem_map.1 hx
  exact ⟨_, h a ha⟩

theorem commaList_printAll (args : List Argument) (level : Nat) (z : List Char) :
    (Print.commaList (Argument.printAll args level)).toList ++ z =
      rowText z (argumentTexts (printedArguments args level)) := by
  rw [commaList_append, argumentTexts_printedArguments]

theorem parens_printAll (args : List Argument) (level : Nat) :
    (Print.parens (Print.commaList (Argument.printAll args level))).toList =
      SuffixText.parenText (printedArguments args level) := by
  rw [toList_parens, commaList_printAll, SuffixText.parenText]

/-! ## Suffixes -/

/-- The grammar reads the printed text of a member access as that access, behind any object. -/
def KeyPrintsWell (d : Dialect) (B : Parser (List Stmt)) (Good : List Char → Prop) (level : Nat)
    (key : MemberKey) (optional : Bool) : Prop :=
  SuffixText d B Good (memberSuffix (expression d B)) (fun object => .member object key optional)
    (key.print optional level).toList

theorem KeyPrintsWell.ident (hG : TextClass d Good) {name : String}
    (hname : isIdentifier name = true) (optional : Bool) :
    KeyPrintsWell d B Good level (.ident name) optional := by
  cases optional with
  | false => simpa [KeyPrintsWell, MemberKey.print] using SuffixText.member hG hname
  | true => simpa [KeyPrintsWell, MemberKey.print] using SuffixText.optionalMember hG hname

theorem KeyPrintsWell.computed [Shrinks B] (hG : TextClass d Good) {key : Expr}
    (h : PrintsWell d B Good level key) :
    KeyPrintsWell d B Good level (.computed key) false := by
  simpa [KeyPrintsWell, MemberKey.print, Print.textIf] using SuffixText.computedMember hG h

/-- The printed text of the arguments of a call, behind any callee. -/
theorem suffixText_call [Shrinks B] (hG : TextClass d Good) {args : List Argument}
    (hargs : ∀ a ∈ args, PrintsWell d B Good level a.value) (optional : Bool) :
    SuffixText d B Good (accessSuffix d B) (fun callee => .call callee args optional)
      ((Print.textIf optional "?.").toList ++
        SuffixText.parenText (printedArguments args level)) := by
  have hrow := argumentsPrinted_of_forall hargs
  cases optional with
  | false =>
    have hcall := SuffixText.call hG hrow
    rwa [map_fst_printedArguments] at hcall
  | true =>
    have hcall := SuffixText.optionalCall hG hrow
    rwa [map_fst_printedArguments] at hcall

/-! ## Operands -/

namespace PrintsWell

variable [Shrinks B] (hG : TextClass d Good)
include hG

theorem this : PrintsWell d B Good level .this :=
  Printed.word (w := "this") hG (by decide) rfl (by decide)

theorem ident {name : String} (h : isName name = true) (hawait : name ≠ "await") :
    PrintsWell d B Good level (.ident name) := by
  have hoperand := wordOperand_of_isName h
  simp only [isName, Bool.and_eq_true] at h
  exact ofPrinted (Printed.word hG h.1 hoperand hawait) rfl (by simp)

theorem bool (b : Bool) : PrintsWell d B Good level (.lit (.bool b)) := by
  cases b with
  | true =>
    exact ofPrinted (Printed.word (w := "true") hG (by decide) rfl (by decide)) rfl
      (by simp [Literal.print])
  | false =>
    exact ofPrinted (Printed.word (w := "false") hG (by decide) rfl (by decide)) rfl
      (by simp [Literal.print])

theorem null : PrintsWell d B Good level (.lit .null) :=
  ofPrinted (Printed.word (w := "null") hG (by decide) rfl (by decide)) rfl
    (by simp [Literal.print])

theorem number {text : String} (h : IsNumeral text) :
    PrintsWell d B Good level (.lit (.number text)) :=
  ofPrinted (Printed.number hG h) rfl (by simp [Literal.print])

theorem string {lit : StringLit} (h : IsSpelled lit) :
    PrintsWell d B Good level (.lit (.string lit)) := by
  obtain ⟨raw, hraw⟩ := h.exists_raw
  exact ofPrinted (Printed.string hG h hraw) rfl
    (by simp [Literal.print, StringLit.print, hraw])

theorem template {raw : String} (h : isTemplateText raw = true) :
    PrintsWell d B Good level (.lit (.template raw)) :=
  ofPrinted (Printed.template hG h) rfl (by simp [Literal.print, backquote])

theorem array {elems : List Argument} (h : ∀ a ∈ elems, PrintsWell d B Good level a.value) :
    PrintsWell d B Good level (.array elems) := by
  have htext : ((Expr.array elems).print level).toList =
      '[' :: rowText [']'] (argumentTexts (printedArguments elems level)) := by
    simp [← commaList_printAll]
  have hprinted := Printed.array hG (argumentsPrinted_of_forall h)
  rwa [map_fst_printedArguments, ← htext] at hprinted

/-! ## Members and calls -/

theorem member {object : Expr} {key : MemberKey} {optional : Bool}
    (h : PrintsWell d B Good level object) (hkey : KeyPrintsWell d B Good level key optional) :
    PrintsWell d B Good level (.member object key optional) := by
  obtain ⟨j, hj, hobject⟩ := h.guarded hG Power.access
  exact ofPrinted (hobject.suffix hj (SuffixText.access hkey)) rfl (by simp)

theorem call {callee : Expr} {args : List Argument} (h : PrintsWell d B Good level callee)
    (hargs : ∀ a ∈ args, PrintsWell d B Good level a.value) (optional : Bool) :
    PrintsWell d B Good level (.call callee args optional) := by
  obtain ⟨j, hj, hcallee⟩ := h.guarded hG Power.access
  exact ofPrinted (hcallee.suffix hj (suffixText_call hG hargs optional)) rfl
    (by rw [Expr.print, String.toList_append, String.toList_append, parens_printAll,
      List.append_assoc])

/-! ## Operators -/

theorem unary {op : UnaryOp} {arg : Expr} (h : PrintsWell d B Good level arg) :
    PrintsWell d B Good level (.unary op arg) := by
  obtain ⟨j, hj, harg⟩ := h.guarded hG Power.unary
  have hgap : Printed.IsGap op
      (Print.textIf (op.isWord || (op.isSign && arg.isSigned)) " ").toList := by
    cases hcond : (op.isWord || (op.isSign && arg.isSigned)) with
    | true => exact .inl rfl
    | false => exact .inr ⟨rfl, (Bool.or_eq_false_iff.1 hcond).1⟩
  exact ofPrinted (harg.unary hG hj hgap) rfl (by simp)

theorem binary {op : BinaryOp} {left right : Expr} (hleft : PrintsWell d B Good level left)
    (hright : PrintsWell d B Good level right) :
    PrintsWell d B Good level (.binary op left right) := by
  obtain ⟨i, hi, hl⟩ := hleft.guarded hG op.leftPower
  obtain ⟨j, hj, hr⟩ := hright.guarded hG op.rightPower
  -- The levels of the operands, for each operator.
  have hlevels : levelOf op.precedence ≤ levelOf op.leftPower ∧
      levelOf op.precedence + 1 ≤ levelOf op.rightPower := by
    cases op <;> decide
  exact ofPrinted (hl.binary hG (Nat.le_trans hlevels.1 hi) hr (Nat.le_trans hlevels.2 hj)) rfl
    (by simp)

theorem cond {test cons alt : Expr} (htest : PrintsWell d B Good level test)
    (hcons : PrintsWell d B Good level cons) (halt : PrintsWell d B Good level alt) :
    PrintsWell d B Good level (.cond test cons alt) := by
  obtain ⟨i, hi, ht⟩ := htest.guarded hG (Power.conditional + 1)
  exact ofPrinted (ht.cond hG hi hcons halt) rfl (by simp)

theorem assign {op : AssignOp} {target value : Expr} (htarget : PrintsWell d B Good level target)
    (hvalue : PrintsWell d B Good level value) :
    PrintsWell d B Good level (.assign op target value) := by
  obtain ⟨i, hi, ht⟩ := htarget.guarded hG Power.access
  have hlevel : 1 ≤ i := Nat.le_trans (by decide) hi
  exact ofPrinted (ht.assign hG hlevel hvalue) rfl (by simp)

end PrintsWell

end TsxCompiler.Grammar
