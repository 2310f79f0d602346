import TsxCompiler.Proofs.ArrowFree
import TsxCompiler.Proofs.PrintedTree

/-!
# Operator trees are read back

An operator tree is built from names and literals with operators, member accesses, calls and
arrays. The tree has no parentheses; printing puts them where the grammar needs them, so the printed
text of an operator tree is read as that tree, in every dialect (`expression_read_print`).

The text of an operator tree has no arrows and no comments, so nothing in it is taken for the head
of an arrow function.
-/

/-- Absent arguments are printed like empty ones. -/
theorem TsxCompiler.Expr.print_new (callee : Expr) (args : Option (List Argument)) (level : Nat) :
    (Expr.new callee args).print level =
      "new " ++ ((if callee.isCall then Print.parens (callee.print level)
        else callee.guarded Power.access (callee.print level)) ++
          Print.parens (Print.commaList (Argument.printAll (args.getD []) level))) := by
  cases args <;> simp [print, Argument.printAll, String.append_assoc]

namespace TsxCompiler.Grammar

open Peg Peg.Parser Text

/-! ## Operator trees -/

/-- Expressions made of operators, member accesses, calls and arrays over names and literals. A `new`
may be among them if its callee is one of the `Kept` ones. -/
inductive OperatorTreeWith (Kept : Expr → Prop) : Expr → Prop where
  | this : OperatorTreeWith Kept .this
  | ident {name : String} : isName name = true → name ≠ "await" → OperatorTreeWith Kept (.ident name)
  | number {text : String} : IsNumeral text → OperatorTreeWith Kept (.lit (.number text))
  | string {lit : StringLit} : IsSpelled lit → OperatorTreeWith Kept (.lit (.string lit))
  | template {raw : String} : isTemplateText raw = true → OperatorTreeWith Kept (.lit (.template raw))
  | bool (b : Bool) : OperatorTreeWith Kept (.lit (.bool b))
  | null : OperatorTreeWith Kept (.lit .null)
  | unary (op : UnaryOp) {arg : Expr} :
    OperatorTreeWith Kept arg → OperatorTreeWith Kept (.unary op arg)
  | binary (op : BinaryOp) {left right : Expr} :
    OperatorTreeWith Kept left → OperatorTreeWith Kept right →
      OperatorTreeWith Kept (.binary op left right)
  | cond {test cons alt : Expr} :
    OperatorTreeWith Kept test → OperatorTreeWith Kept cons → OperatorTreeWith Kept alt →
      OperatorTreeWith Kept (.cond test cons alt)
  | assign (op : AssignOp) {target value : Expr} :
    OperatorTreeWith Kept target → OperatorTreeWith Kept value →
      OperatorTreeWith Kept (.assign op target value)
  | member {object : Expr} {name : String} (optional : Bool) :
    OperatorTreeWith Kept object → isIdentifier name = true →
      OperatorTreeWith Kept (.member object (.ident name) optional)
  | computedMember {object key : Expr} :
    OperatorTreeWith Kept object → OperatorTreeWith Kept key →
      OperatorTreeWith Kept (.member object (.computed key) false)
  | call {callee : Expr} {args : List Argument} (optional : Bool) :
    OperatorTreeWith Kept callee → (∀ a ∈ args, OperatorTreeWith Kept a.value) →
      OperatorTreeWith Kept (.call callee args optional)
  | new {callee : Expr} {args : Option (List Argument)} :
    OperatorTreeWith Kept callee → Kept callee →
      (∀ a ∈ args.getD [], OperatorTreeWith Kept a.value) → OperatorTreeWith Kept (.new callee args)
  | array {elems : List Argument} :
    (∀ a ∈ elems, OperatorTreeWith Kept a.value) → OperatorTreeWith Kept (.array elems)

/-- Operator trees without `new`. -/
abbrev OperatorTree : Expr → Prop := OperatorTreeWith fun _ => False

/-! ## Texts that can stand in front of an arrow-free text -/

/-- A text that can stand in front of any arrow-free text. -/
def LeadsArrowFree (text : String) : Prop :=
  ∀ s, ArrowFree s → ArrowFree (text.toList ++ s)

namespace LeadsArrowFree

theorem append {a b : String} (ha : LeadsArrowFree a) (hb : LeadsArrowFree b) :
    LeadsArrowFree (a ++ b) := by
  intro s hs
  rw [String.toList_append, List.append_assoc]
  exact ha _ (hb s hs)

/-- Characters that start neither an arrow nor a comment nor a literal. -/
theorem ofPlain {text : String}
    (h : text.toList.all (fun c => !isQuote c && c != '=' && c != '/') = true) :
    LeadsArrowFree text := by
  intro s hs
  generalize text.toList = w at h ⊢
  induction w with
  | nil => exact hs
  | cons c w ih =>
    simp only [List.all_cons, Bool.and_eq_true, Bool.not_eq_true', bne_iff_ne, ne_eq] at h
    obtain ⟨⟨⟨hquote, heq⟩, hslash⟩, hw⟩ := h
    rw [List.cons_append, arrowFree_cons hquote]
    exact ⟨by simp [startsArrowOrComment, heq, hslash], ih hw⟩

theorem ofWord {name : String} (h : isIdentifier name = true) : LeadsArrowFree name := by
  have hall := all_of_isIdentifier h
  refine ofPlain ?_
  rw [List.all_eq_true] at hall ⊢
  intro c hc
  have hne : ∀ x, isWordPart x = false → c ≠ x := by
    rintro x hx rfl
    simp [hall c hc] at hx
  simp [isQuote_of_isWordPart (hall c hc), hne '=' (by decide), hne '/' (by decide)]

theorem ofNumber {text : String} (h : IsNumeral text) : LeadsArrowFree text := by
  have hdigits : ∀ {ds : List Char}, isDigits ds = true →
      ds.all (fun c => !isQuote c && c != '=' && c != '/') = true := by
    intro ds hds
    simp only [isDigits, Bool.and_eq_true, List.all_eq_true] at hds
    rw [List.all_eq_true]
    intro c hc
    exact forall_isDigit (P := fun c => (!isQuote c && c != '=' && c != '/') = true) (by decide)
      (hds.2 c hc)
  refine ofPlain ?_
  obtain ⟨whole, hwhole, htext | ⟨fraction, hfraction, htext⟩⟩ := h
  · rw [htext]
    exact hdigits hwhole
  · rw [htext, List.all_append, hdigits hwhole, List.all_cons, hdigits hfraction]
    decide

theorem ofString {lit : StringLit} (h : IsSpelled lit) : LeadsArrowFree lit.print := by
  intro s hs
  obtain ⟨raw, hraw⟩ := h.exists_raw
  have hprint : lit.print = raw := by simp [StringLit.print, hraw]
  rw [hprint]
  exact (arrowFree_string h hraw s).2 hs

theorem ofTemplate {raw : String} (h : isTemplateText raw = true) :
    LeadsArrowFree (Literal.template raw).print := by
  intro s hs
  have htext : (Literal.template raw).print.toList ++ s =
      backquote :: (raw.toList ++ backquote :: s) := by
    simp [Literal.print, backquote]
  rw [htext]
  exact (arrowFree_template h s).2 hs

theorem parens {text : String} (h : LeadsArrowFree text) : LeadsArrowFree (Print.parens text) :=
  append (append (ofPlain rfl) h) (ofPlain rfl)

theorem guarded {text : String} (h : LeadsArrowFree text) (e : Expr) (power : Nat) :
    LeadsArrowFree (e.guarded power text) := by
  unfold Expr.guarded
  split
  · exact h.parens
  · exact h

/-- The blank behind an operator keeps it from starting an arrow or a comment. -/
theorem spaced {text symbol : String} (h : LeadsArrowFree text)
    (hsymbol : ∀ s, ArrowFree s → ArrowFree (symbol.toList ++ ' ' :: s)) :
    LeadsArrowFree (text ++ " " ++ symbol ++ " ") := by
  intro s hs
  have htext : (text ++ " " ++ symbol ++ " ").toList ++ s =
      text.toList ++ ' ' :: (symbol.toList ++ ' ' :: s) := by
    simp
  rw [htext]
  refine h _ ((arrowFree_cons (by decide) _).2 ⟨rfl, hsymbol s hs⟩)

theorem arrowFree_binaryOp (op : BinaryOp) {s : List Char} (hs : ArrowFree s) :
    ArrowFree (op.symbol.toList ++ ' ' :: s) := by
  cases op <;> simpa [BinaryOp.symbol, ArrowFree, isArrowFreeIn, isQuote, backquote,
    startsArrowOrComment] using hs

theorem arrowFree_assignOp (op : AssignOp) {s : List Char} (hs : ArrowFree s) :
    ArrowFree (op.symbol.toList ++ ' ' :: s) := by
  cases op <;> simpa [AssignOp.symbol, ArrowFree, isArrowFreeIn, isQuote, backquote,
    startsArrowOrComment] using hs

theorem commaList {texts : List String} (h : ∀ text ∈ texts, LeadsArrowFree text) :
    LeadsArrowFree (Print.commaList texts) := by
  have htail : ∀ {s : List Char} {texts : List String}, ArrowFree s → (∀ text ∈ texts, LeadsArrowFree text) →
      ArrowFree (rowTail s (texts.map String.toList)) := by
    intro s texts hs htexts
    induction texts with
    | nil => exact hs
    | cons text texts ih =>
      have hrest := htexts text (by simp) _ (ih fun t ht => htexts t (by simp [ht]))
      have hcomma : LeadsArrowFree ", " := ofPlain rfl
      exact hcomma _ hrest
  intro s hs
  rw [commaList_append]
  cases texts with
  | nil => exact hs
  | cons text texts => exact h text (by simp) _ (htail hs fun t ht => h t (by simp [ht]))

theorem printAll {args : List Argument} {level : Nat}
    (h : ∀ a ∈ args, LeadsArrowFree (a.value.print level)) :
    LeadsArrowFree (Print.commaList (Argument.printAll args level)) := by
  refine commaList ?_
  induction args with
  | nil => simp [Argument.printAll]
  | cons a args ih =>
    obtain ⟨spread, value⟩ := a
    have hfirst : LeadsArrowFree (Argument.print ⟨spread, value⟩ level) := by
      have hvalue := h ⟨spread, value⟩ (by simp)
      rw [Argument.print, guarded_assignment]
      cases spread with
      | false => exact append (ofPlain rfl) hvalue
      | true => exact append (ofPlain rfl) hvalue
    intro text htext
    rw [Argument.printAll, List.mem_cons] at htext
    rcases htext with rfl | htext
    · exact hfirst
    · exact ih (fun b hb => h b (by simp [hb])) text htext

/-! ## Printed expressions -/

section Print

variable {level : Nat}

theorem this : LeadsArrowFree (Expr.this.print level) := by
  rw [Expr.print]
  exact ofPlain rfl

theorem ident {name : String} (h : isName name = true) :
    LeadsArrowFree ((Expr.ident name).print level) := by
  rw [Expr.print]
  simp only [isName, Bool.and_eq_true] at h
  exact ofWord h.1

theorem number {text : String} (h : IsNumeral text) :
    LeadsArrowFree ((Expr.lit (.number text)).print level) := by
  rw [Expr.print]
  exact ofNumber h

theorem string {lit : StringLit} (h : IsSpelled lit) :
    LeadsArrowFree ((Expr.lit (.string lit)).print level) := by
  rw [Expr.print]
  exact ofString h

theorem template {raw : String} (h : isTemplateText raw = true) :
    LeadsArrowFree ((Expr.lit (.template raw)).print level) := by
  rw [Expr.print]
  exact ofTemplate h

theorem bool (b : Bool) : LeadsArrowFree ((Expr.lit (.bool b)).print level) := by
  rw [Expr.print]
  cases b <;> exact ofPlain rfl

theorem null : LeadsArrowFree ((Expr.lit .null).print level) := by
  rw [Expr.print]
  exact ofPlain rfl

theorem unary (op : UnaryOp) {arg : Expr} (h : LeadsArrowFree (arg.print level)) :
    LeadsArrowFree ((Expr.unary op arg).print level) := by
  rw [Expr.print]
  refine append (append ?_ ?_) (h.guarded _ _)
  · cases op <;> exact ofPlain rfl
  · unfold Print.textIf
    split <;> exact ofPlain rfl

theorem binary (op : BinaryOp) {left right : Expr} (hleft : LeadsArrowFree (left.print level))
    (hright : LeadsArrowFree (right.print level)) :
    LeadsArrowFree ((Expr.binary op left right).print level) := by
  rw [Expr.print]
  exact append (spaced (hleft.guarded _ _) fun s => arrowFree_binaryOp op) (hright.guarded _ _)

theorem cond {test cons alt : Expr} (htest : LeadsArrowFree (test.print level))
    (hcons : LeadsArrowFree (cons.print level)) (halt : LeadsArrowFree (alt.print level)) :
    LeadsArrowFree ((Expr.cond test cons alt).print level) := by
  rw [Expr.print]
  exact append (append (append (append (htest.guarded _ _) (ofPlain rfl)) (hcons.guarded _ _))
    (ofPlain rfl)) (halt.guarded _ _)

theorem assign (op : AssignOp) {target value : Expr} (htarget : LeadsArrowFree (target.print level))
    (hvalue : LeadsArrowFree (value.print level)) :
    LeadsArrowFree ((Expr.assign op target value).print level) := by
  rw [Expr.print]
  exact append (spaced (htarget.guarded _ _) fun s => arrowFree_assignOp op) (hvalue.guarded _ _)

theorem member (optional : Bool) {object : Expr} {name : String}
    (h : LeadsArrowFree (object.print level)) (hname : isIdentifier name = true) :
    LeadsArrowFree ((Expr.member object (.ident name) optional).print level) := by
  rw [Expr.print, MemberKey.print]
  refine append (h.guarded _ _) (append ?_ (ofWord hname))
  cases optional <;> exact ofPlain rfl

theorem computedMember {object key : Expr} (h : LeadsArrowFree (object.print level))
    (hkey : LeadsArrowFree (key.print level)) :
    LeadsArrowFree ((Expr.member object (.computed key) false).print level) := by
  rw [Expr.print, MemberKey.print]
  exact append (h.guarded _ _) (append (append (ofPlain rfl) hkey) (ofPlain rfl))

theorem call (optional : Bool) {callee : Expr} {args : List Argument}
    (h : LeadsArrowFree (callee.print level))
    (hargs : ∀ a ∈ args, LeadsArrowFree (a.value.print level)) :
    LeadsArrowFree ((Expr.call callee args optional).print level) := by
  rw [Expr.print]
  refine append (append (h.guarded _ _) ?_) (printAll hargs).parens
  cases optional <;> exact ofPlain rfl

theorem new {callee : Expr} {args : Option (List Argument)} (h : LeadsArrowFree (callee.print level))
    (hargs : ∀ a ∈ args.getD [], LeadsArrowFree (a.value.print level)) :
    LeadsArrowFree ((Expr.new callee args).print level) := by
  rw [Expr.print_new]
  refine append (ofPlain rfl) (append ?_ (printAll hargs).parens)
  split
  · exact h.parens
  · exact h.guarded _ _

theorem array {elems : List Argument} (h : ∀ a ∈ elems, LeadsArrowFree (a.value.print level)) :
    LeadsArrowFree ((Expr.array elems).print level) := by
  rw [Expr.print]
  exact append (append (ofPlain rfl) (printAll h)) (ofPlain rfl)

end Print

end LeadsArrowFree

/-! ## The round trip -/

/-- No operator is spelled like an arrow, and literals are closed, so no arrow stands in the text of
an operator tree. -/
theorem OperatorTreeWith.leadsArrowFree {Kept : Expr → Prop} {e : Expr}
    (h : OperatorTreeWith Kept e) (level : Nat) : LeadsArrowFree (e.print level) := by
  induction h with
  | this => exact .this
  | ident hname => exact .ident hname
  | number htext => exact .number htext
  | string hlit => exact .string hlit
  | template hraw => exact .template hraw
  | bool b => exact .bool b
  | null => exact .null
  | unary op _ ih => exact .unary op ih
  | binary op _ _ ihl ihr => exact .binary op ihl ihr
  | cond _ _ _ iht ihc iha => exact .cond iht ihc iha
  | assign op _ _ iht ihv => exact .assign op iht ihv
  | member optional _ hname ih => exact .member optional ih hname
  | computedMember _ _ iho ihk => exact .computedMember iho ihk
  | call optional _ _ ihc iha => exact .call optional ihc iha
  | new _ _ _ ihc iha => exact .new ihc iha
  | array _ ih => exact .array ih

theorem OperatorTree.printsWell {d : Dialect} {B : Parser (List Stmt)} {Good : List Char → Prop} [Shrinks B]
    (hG : TextClass d Good) {e : Expr} (h : OperatorTree e) (level : Nat) :
    PrintsWell d B Good level e := by
  induction h with
  | this => exact .this hG
  | ident hname hawait => exact .ident hG hname hawait
  | number htext => exact .number hG htext
  | string hlit => exact .string hG hlit
  | template hraw => exact .template hG hraw
  | bool b => exact .bool hG b
  | null => exact .null hG
  | unary op _ ih => exact .unary hG ih
  | binary op _ _ ihl ihr => exact .binary hG ihl ihr
  | cond _ _ _ iht ihc iha => exact .cond hG iht ihc iha
  | assign op _ _ iht ihv => exact .assign hG iht ihv
  | member optional _ hname ih => exact .member hG ih (.ident hG hname optional)
  | computedMember _ _ iho ihk => exact .member hG iho (.computed hG ihk)
  | call optional _ _ ihc iha => exact .call hG ihc iha optional
  | new _ hkept => exact hkept.elim
  | array _ ih => exact .array hG ih

theorem context_nil {d : Dialect} {B : Parser (List Stmt)} : Context d B [] where
  word := rfl
  number := rfl
  quiet := by
    rw [skip_nil]
    exact quiet_nil

/-- A text without arrows that the invariant holds of is read as a whole. -/
theorem Printed.read_whole {d : Dialect} {B : Parser (List Stmt)} [Shrinks B] {j : Nat} {e : Expr}
    {w : List Char} (h : Printed d B ArrowFree j e w) (hfree : ArrowFree w) :
    (expression d B (.ofList w)).read? = some (e, []) := by
  have hhalts : Halts d B 0 (skip []) := by
    rw [skip_nil]
    exact halts_nil
  have hread := h.readsAt (Nat.zero_le j) context_nil (by rwa [List.append_nil]) hhalts
  rw [List.append_nil, skip_nil] at hread
  rw [read?_eq_run, Cursor.ofList_rest]
  exact hread

/-- The printed text of an operator tree, in parentheses where its place needs more power than the
tree has, is read as the tree and as a whole. -/
theorem expression_read_print (d : Dialect) {e : Expr} (h : OperatorTree e) (power level : Nat) :
    (expression d (blockOf (statement d))
      (.ofList (e.guarded power (e.print level)).toList)).read? = some (e, []) := by
  obtain ⟨j, -, hprinted⟩ :=
    (h.printsWell (B := blockOf (statement d)) (arrowFree_textClass d) level).guarded
      (arrowFree_textClass d) power
  have hfree : ArrowFree ((e.guarded power (e.print level)).toList ++ []) :=
    (h.leadsArrowFree level).guarded e power [] rfl
  rw [List.append_nil] at hfree
  exact hprinted.read_whole hfree

/-- A conditional with all that needs care: `??` over `||`, a sign over a sign, an optional call
with a spread argument, and an assignment as a value. -/
def mixedOperators : Expr :=
  .cond (.binary .nullish (.binary .or (.ident "a") (.lit .null)) (.lit (.bool true)))
    (.unary .minus (.unary .minus (.lit (.number "1.5"))))
    (.call (.member (.assign .plain (.ident "b") .this) (.ident "in") true)
      [⟨true, .array [⟨false, .lit (.string ⟨"c", some "'c'"⟩)⟩]⟩] true)

theorem expression_read_print_mixedOperators :
    mixedOperators.print 0 = "(a || null) ?? true ? - -1.5 : (b = this)?.in?.(...['c'])" ∧
    (expression .tsx (blockOf (statement .tsx))
      (.ofList (mixedOperators.guarded 0 (mixedOperators.print 0)).toList)).read? =
        some (mixedOperators, []) := by
  have hnumeral : IsNumeral "1.5" := ⟨['1'], by decide, .inr ⟨['5'], by decide, by decide⟩⟩
  have hspelled : IsSpelled ⟨"c", some "'c'"⟩ :=
    ⟨'\'', ['c'], .inr rfl, by decide, by decide, by decide⟩
  have hargs : OperatorTree (.array [⟨false, .lit (.string ⟨"c", some "'c'"⟩)⟩]) := by
    refine .array fun a ha => ?_
    rw [List.mem_singleton.1 ha]
    exact .string hspelled
  refine ⟨by decide +kernel, expression_read_print .tsx (.cond (.binary _ (.binary _
    (.ident (by decide) (by decide)) .null) (.bool _)) (.unary _ (.unary _ (.number hnumeral)))
    (.call _ (.member _ (.assign _ (.ident (by decide) (by decide)) .this) (by decide))
      fun a ha => ?_)) 0 0⟩
  rw [List.mem_singleton.1 ha]
  exact hargs

end TsxCompiler.Grammar
