import TsxCompiler.Proofs.ExpressionModules
import TsxCompiler.Proofs.WellFormed

/-!
# How the text of an expression starts

At the start of a statement a brace opens a block, and `function`, `class` and `async function` open
a declaration; behind the arrow of a function a brace opens its body. An expression whose text would
start so is put in parentheses. Which expressions those are is decided on the tree, down its left
edge, while the parentheses that may stand on that edge are decided from binding powers.

The first token of an expression says little about what follows it: `async`, `let`, `type` and
`interface` are names, and in front of the right word they declare something. Behind a name the
printer writes a suffix, an operator or the end of the statement (`Continues`), and none of them is
a name, a `function` or a pattern, but for the bracket of a computed member: `let[0]` reads as the
declaration of a pattern (`Expr.opensLet`). So the text of an expression starts with a sign, with a
word that starts nothing else or with a name that goes on so (`ExpressionFront`), and each kind of
expression does when its leftmost part does (`Expr.front_print`).
-/

namespace TsxCompiler

open Grammar Peg Peg.Parser Print
open Text (isIdentifier isWordPart isWordStart isBlank)

/-! ## First words -/

/-- Whether a text begins with a word that ends there. -/
def BeginsWith (word : String) (text : List Char) : Prop :=
  ∃ rest, text = word.toList ++ rest ∧ endsWord rest = true

/-- A text that is not taken for a block, a function or a class. -/
structure StartsPlainly (text : List Char) : Prop where
  brace : text.head? ≠ some '\x7b'
  function : ¬ BeginsWith "function" text
  classWord : ¬ BeginsWith "class" text
  asyncFunction : ∀ rest, text = "async".toList ++ rest → endsWord rest = true →
    ¬ BeginsWith "function" (skip rest)

/-- A text begins with one word only. -/
theorem BeginsWith.unique {a b : String} {text : List Char} (ha : isIdentifier a = true)
    (hb : isIdentifier b = true) (hta : BeginsWith a text) (htb : BeginsWith b text) : a = b := by
  obtain ⟨r, rfl, hr⟩ := hta
  obtain ⟨t, ht, hend⟩ := htb
  have hread := run_rawWord_append ha hr
  rw [ht, run_rawWord_append hb hend] at hread
  exact (congrArg Prod.fst (Option.some.inj hread)).symm

theorem not_beginsWith_cons {word : String} {wanted c : Char} {more : List Char}
    (hword : word.toList = wanted :: more) (hc : c ≠ wanted) (s : List Char) :
    ¬ BeginsWith word (c :: s) := by
  rintro ⟨rest, h, -⟩
  rw [hword] at h
  exact hc (List.cons.inj h).1

/-- No block and no declaration starts with a sign other than a brace. -/
theorem startsPlainly_cons {c : Char} (hstart : isWordStart c = false) (hbrace : c ≠ '\x7b')
    (s : List Char) : StartsPlainly (c :: s) := by
  have hne : ∀ {x : Char}, isWordStart x = true → c ≠ x := fun hx =>
    (ne_of_isWordStart hx hstart).symm
  refine ⟨fun hhead => hbrace (Option.some.inj hhead), not_beginsWith_cons rfl (hne (by decide)) s,
    not_beginsWith_cons rfl (hne (by decide)) s, ?_⟩
  intro rest htext
  exact absurd (List.cons.inj htext).1 (hne (by decide))

/-- A word other than the three starts plainly, `async` in front of no `function`. -/
theorem startsPlainly_word {word : String} {rest : List Char} (hword : isIdentifier word = true)
    (hend : endsWord rest = true) (hfunction : word ≠ "function") (hclass : word ≠ "class")
    (hasync : word = "async" → ¬ BeginsWith "function" (skip rest)) :
    StartsPlainly (word.toList ++ rest) := by
  have hbegins : BeginsWith word (word.toList ++ rest) := ⟨rest, rfl, hend⟩
  refine ⟨?_, fun h => hfunction (hbegins.unique hword rfl h),
    fun h => hclass (hbegins.unique hword rfl h), ?_⟩
  · intro hhead
    obtain ⟨c, cs, hchars, hstart⟩ := exists_of_isIdentifier hword
    rw [hchars] at hhead
    exact ne_of_isWordStart hstart (by decide) (Option.some.inj hhead)
  · intro r htext hr
    have hname : word = "async" := hbegins.unique hword rfl ⟨r, htext, hr⟩
    rw [hname] at htext
    rw [← List.append_cancel_left htext]
    exact hasync hname

theorem StartsPlainly.head_ne {w rest : List Char} (h : StartsPlainly (w ++ rest)) :
    w.head? ≠ some '\x7b' := by
  cases w with
  | nil => simp
  | cons c s => exact h.brace

/-! ## What stands behind a name -/

/-- A text that may stand behind the first name of an expression: no other name comes next and no
`function`, and a bracket only where `bracketless` does not hold. -/
structure Continues (bracketless : Prop) (rest : List Char) : Prop where
  ends : endsWord rest = true
  name : run identifier (skip rest) = none
  function : run (keyword "function") (skip rest) = none
  brace : (skip rest).head? ≠ some '\x7b'
  bracket : bracketless → (skip rest).head? ≠ some '['

section Suffixes

variable {bracketless : Prop}

/-- In front of a sign. -/
theorem continues_sign {c : Char} {s rest : List Char} (hskip : skip rest = c :: s)
    (hends : endsWord rest = true) (hstart : isWordStart c = false) (hbrace : c ≠ '\x7b')
    (hbracket : bracketless → c ≠ '[') : Continues bracketless rest := by
  refine ⟨hends, ?_, ?_, ?_, fun h => ?_⟩ <;> rw [hskip]
  · exact run_identifier_none hstart s
  · exact run_keyword_none hstart "function" s
  · exact fun heq => hbrace (Option.some.inj heq)
  · exact fun heq => hbracket h (Option.some.inj heq)

/-- The end of a statement, or a suffix. -/
theorem continues_cons {c : Char} (hc : c ∈ [';', '(', '.', '?', '['])
    (hbracket : bracketless → c ≠ '[') (s : List Char) : Continues bracketless (c :: s) := by
  simp only [List.mem_cons, List.not_mem_nil, or_false] at hc
  rcases hc with rfl | rfl | rfl | rfl | rfl <;>
    exact continues_sign (skip_cons (by decide) (by decide) s) (endsWord_cons (by decide) s)
      (by decide) (by decide) hbracket

theorem continues_semicolon (s : List Char) : Continues bracketless (';' :: s) :=
  continues_cons (by decide) (fun _ => by decide) s

theorem continues_text {head : String} {c : Char} {cs : List Char} (hhead : head.toList = c :: cs)
    (hc : c ∈ [';', '(', '.', '?', '[']) (hbracket : bracketless → c ≠ '[') (text : String)
    (s : List Char) : Continues bracketless ((head ++ text).toList ++ s) := by
  rw [String.toList_append, hhead]
  exact continues_cons hc hbracket _

/-- An operator that is a sign. -/
theorem continues_blank {c : Char} {s : List Char} (hskip : skip (c :: s) = c :: s)
    (hstart : isWordStart c = false) (hc : c ∉ ['\x7b', '[']) :
    Continues bracketless (' ' :: c :: s) := by
  simp only [List.mem_cons, List.not_mem_nil, or_false, not_or] at hc
  exact continues_sign ((skip_blank (by decide) _).trans hskip) rfl hstart hc.1 fun _ => hc.2

/-- An operator that is a word. -/
theorem continues_word {w : String} {s : List Char} (hw : isIdentifier w = true)
    (hreserved : isReserved w = true) (hne : w ≠ "function") :
    Continues bracketless (' ' :: (w.toList ++ ' ' :: s)) := by
  obtain ⟨c, cs, hc, hstart⟩ := exists_of_isIdentifier hw
  have hend : endsWord (' ' :: s) = true := rfl
  refine ⟨rfl, ?_, ?_, ?_, fun _ => ?_⟩ <;> rw [skip_blank (by decide), skip_identifier hw]
  · exact run_identifier_reserved hw hend hreserved
  · exact run_keyword_other hw hend hne
  · rw [hc]
    exact fun heq => ne_of_isWordStart hstart (by decide) (Option.some.inj heq)
  · rw [hc]
    exact fun heq => ne_of_isWordStart hstart (by decide) (Option.some.inj heq)

theorem continues_binary (op : BinaryOp) (s : List Char) :
    Continues bracketless (' ' :: (op.symbol.toList ++ ' ' :: s)) := by
  cases op with
  | div => exact continues_blank (skip_slash (by decide) (by decide) _) (by decide) (by decide)
  | instanceOf => exact continues_word (by decide) (by decide) (by decide)
  | isIn => exact continues_word (by decide) (by decide) (by decide)
  | _ => exact continues_blank (skip_cons (by decide) (by decide) _) (by decide) (by decide)

theorem continues_assign (op : AssignOp) (s : List Char) :
    Continues bracketless (' ' :: (op.symbol.toList ++ ' ' :: s)) := by
  cases op <;> exact continues_blank (skip_cons (by decide) (by decide) _) (by decide) (by decide)

theorem continues_arguments (optional : Bool) (text : String) (s : List Char) :
    Continues bracketless ((textIf optional "?." ++ parens text).toList ++ s) := by
  cases optional with
  | true => exact continues_text rfl (by decide) (fun _ => by decide) _ s
  | false =>
    rw [textIf, if_neg (by decide), String.empty_append, parens, String.append_assoc]
    exact continues_text rfl (by decide) (fun _ => by decide) _ s

/-- Whether a member is given in brackets. -/
def MemberKey.isComputed : MemberKey → Bool
  | .computed _ => true
  | .ident _ => false

theorem continues_memberKey {key : MemberKey} (optional : Bool) (level : Nat) (s : List Char)
    (h : bracketless → key.isComputed = false) :
    Continues bracketless ((key.print optional level).toList ++ s) := by
  match key, optional with
  | .ident name, true => exact continues_text rfl (by decide) (fun _ => by decide) name s
  | .ident name, false => exact continues_text rfl (by decide) (fun _ => by decide) name s
  | .computed value, true =>
    rw [MemberKey.print, String.append_assoc, String.append_assoc]
    exact continues_text rfl (by decide) (fun _ => by decide) _ s
  | .computed value, false =>
    rw [MemberKey.print, textIf, if_neg (by decide), String.empty_append, String.append_assoc]
    exact continues_text rfl (by decide) (fun hb => Bool.noConfusion (h hb)) _ s

end Suffixes

/-! ## The front of an expression -/

/-- The words that start an expression and nothing else. -/
def expressionWords : List String :=
  ["this", "true", "false", "null", "new", "typeof", "void", "await"]

/-- A text that starts as an expression: with a sign, a word or a name. Where `plain` holds, no
bracket stands behind the name `let`. -/
inductive ExpressionFront (plain : Prop) : List Char → Prop
  | sign {c : Char} (hstart : isWordStart c = false) (hc : c ∉ ['\x7b', ';']) (s : List Char) :
    ExpressionFront plain (c :: s)
  | word {w : String} {s : List Char} (hw : w ∈ expressionWords) (hend : endsWord s = true) :
    ExpressionFront plain (w.toList ++ s)
  | name {name : String} {s : List Char} (hname : isName name = true)
    (hs : Continues (plain ∧ name = "let") s) : ExpressionFront plain (name.toList ++ s)

theorem isIdentifier_of_mem_expressionWords {w : String} (h : w ∈ expressionWords) :
    isIdentifier w = true := by
  simp only [expressionWords, List.mem_cons, List.not_mem_nil, or_false] at h
  rcases h with rfl | rfl | rfl | rfl | rfl | rfl | rfl | rfl <;> decide

/-- What starts as an expression is taken for no block, function or class. -/
theorem ExpressionFront.startsPlainly {plain : Prop} {text : List Char}
    (h : ExpressionFront plain text) : StartsPlainly text := by
  cases h with
  | sign hstart hc s =>
    simp only [List.mem_cons, List.not_mem_nil, or_false, not_or] at hc
    exact startsPlainly_cons hstart hc.1 s
  | word hw hend =>
    refine startsPlainly_word (isIdentifier_of_mem_expressionWords hw) hend ?_ ?_ ?_ <;>
      rintro rfl <;> exact absurd hw (by decide)
  | name hname hs =>
    refine startsPlainly_word (isIdentifier_of_isName hname) hs.ends
      (ne_of_isName hname (by decide)) (ne_of_isName hname (by decide)) fun _ hbegins => ?_
    obtain ⟨rest, htext, hend⟩ := hbegins
    have hread := hs.function
    rw [htext, run_keyword_append (by decide) hend] at hread
    cases hread

/-- The names, numbers and spelled strings of a node are ones that can be read. -/
def Node.IsLexed : Node → Prop
  | .expr (.ident name) => isName name = true
  | .expr (.lit (.number text)) => IsNumeral text
  | .expr (.lit (.string lit)) => ∀ raw ∈ lit.raw, ∃ value, Grammar.IsSpelled ⟨value, some raw⟩
  | _ => True

section Fronts

variable {plain : Prop}

theorem front_text {head : String} {c : Char} {cs : List Char} (hhead : head.toList = c :: cs)
    (hstart : isWordStart c = false) (hc : c ∉ ['\x7b', ';']) (text : String) (rest : List Char) :
    ExpressionFront plain ((head ++ text).toList ++ rest) := by
  rw [String.toList_append, hhead]
  exact .sign hstart hc _

theorem front_parens (text : String) (rest : List Char) :
    ExpressionFront plain ((parens text).toList ++ rest) := by
  rw [parens, String.append_assoc]
  exact front_text rfl (by decide) (by decide) _ rest

theorem front_guarded {e : Expr} {power : Nat} {text : String} {rest : List Char}
    (h : power ≤ e.power → ExpressionFront plain (text.toList ++ rest)) :
    ExpressionFront plain ((e.guarded power text).toList ++ rest) := by
  unfold Expr.guarded
  split
  · exact front_parens text rest
  · exact h (by omega)

theorem front_numeral {text : String} (h : IsNumeral text) (rest : List Char) :
    ExpressionFront plain (text.toList ++ rest) := by
  have hdigits : ∀ ds more : List Char, isDigits ds = true → ExpressionFront plain (ds ++ more) := by
    intro ds more hds
    cases ds with
    | nil => exact absurd hds (by decide)
    | cons c ds =>
      simp only [isDigits, List.all_cons, Bool.and_eq_true] at hds
      refine .sign (isWordStart_of_isDigit hds.2.1) (fun hc => ?_) _
      simp only [List.mem_cons, List.not_mem_nil, or_false] at hc
      rcases hc with rfl | rfl <;> exact absurd hds.2.1 (by decide)
  obtain ⟨whole, hwhole, htext | ⟨fraction, -, htext⟩⟩ := h
  · rw [htext]
    exact hdigits whole rest hwhole
  · rw [htext, List.append_assoc]
    exact hdigits whole _ hwhole

theorem front_stringLit {lit : StringLit}
    (h : ∀ raw ∈ lit.raw, ∃ value, Grammar.IsSpelled ⟨value, some raw⟩) (rest : List Char) :
    ExpressionFront plain (lit.print.toList ++ rest) := by
  unfold StringLit.print
  split
  · rename_i raw hraw
    obtain ⟨value, quote, body, hquote, -, hspelled, -⟩ := h raw hraw
    rw [Option.some.inj hspelled, String.toList_ofList]
    rcases hquote with rfl | rfl <;> exact .sign (by decide) (by decide) _
  · rw [Text.quote, String.append_assoc]
    exact front_text rfl (by decide) (by decide) _ rest

theorem front_lit {value : Literal} (h : Node.IsLexed (.expr (.lit value))) {rest : List Char}
    (hend : endsWord rest = true) : ExpressionFront plain (value.print.toList ++ rest) := by
  match value with
  | .string lit => exact front_stringLit h rest
  | .number text => exact front_numeral h rest
  | .bool true | .bool false | .null => exact .word (by decide) hend
  | .template raw =>
    rw [Literal.print, String.append_assoc]
    exact front_text rfl (by decide) (by decide) _ rest

theorem front_unary (op : UnaryOp) (signed : Bool) (text : String) (rest : List Char) :
    ExpressionFront plain
      ((op.symbol ++ (textIf (op.isWord || signed) " " ++ text)).toList ++ rest) := by
  cases op with
  | typeOf | void | await =>
    rw [String.toList_append, UnaryOp.isWord, Bool.true_or, textIf, if_pos rfl,
      String.toList_append, List.append_assoc]
    exact .word (by decide) rfl
  | _ => exact front_text rfl (by decide) (by decide) _ rest

/-- Whether an expression is the name `let`. -/
def Expr.isLet : Expr → Bool
  | .ident name => name == "let"
  | _ => false

/-- Whether the text of an expression starts with a computed member of `let`. -/
def Expr.opensLet : Expr → Bool
  | .call callee _ _ => decide (Power.access ≤ callee.power) && callee.opensLet
  | .member obj key _ =>
    (obj.isLet && key.isComputed) || (decide (Power.access ≤ obj.power) && obj.opensLet)
  | .binary op left _ => decide (op.leftPower ≤ left.power) && left.opensLet
  | .cond test _ _ => decide (Power.conditional + 1 ≤ test.power) && test.opensLet
  | .assign _ target _ => decide (Power.access ≤ target.power) && target.opensLet
  | _ => false

/-- An expression printed without parentheses starts as one, in front of what may follow a name. Of
the names only `let` could take a bracket behind it for a pattern. -/
theorem Expr.front_print (e : Expr) (level : Nat) (h : AllNodes Node.IsLexed e.nodes)
    (hclear : e.startsAmbiguously = false) (hlet : plain → e.opensLet = false) {rest : List Char}
    (hrest : Continues (plain ∧ e.isLet = true) rest) :
    ExpressionFront plain ((e.print level).toList ++ rest) := by
  match e with
  | .this =>
    rw [Expr.print]
    exact .word (by decide) hrest.ends
  | .ident name =>
    show ExpressionFront plain (name.toList ++ rest)
    exact .name h.head (by simpa [Expr.isLet] using hrest)
  | .lit value => exact front_lit h.head hrest.ends
  | .array elems =>
    rw [Expr.print, String.append_assoc]
    exact front_text rfl (by decide) (by decide) _ rest
  | .object props => exact Bool.noConfusion hclear
  | .func name body => exact Bool.noConfusion hclear
  | .classExpr name body => exact Bool.noConfusion hclear
  | .arrow true params body =>
    simp only [Expr.print, textIf, if_true, parens, String.toList_append, List.append_assoc]
    show ExpressionFront plain ("async".toList ++ ' ' :: '(' :: _)
    exact .name (by decide)
      (continues_blank (skip_cons (by decide) (by decide) _) (by decide) (by decide))
  | .arrow false params body =>
    simp only [Expr.print, textIf, Bool.false_eq_true, if_false, parens, String.empty_append,
      String.append_assoc]
    exact front_text rfl (by decide) (by decide) _ rest
  -- below here the text starts with the text of the first part, unless that is in parentheses
  | .call callee args isOptional =>
    rw [Expr.print, String.append_assoc, String.toList_append, List.append_assoc]
    refine front_guarded fun hpower => callee.front_print level h.tail.left hclear
      (fun hplain => ?_) (continues_arguments isOptional _ rest)
    simpa [Expr.opensLet, hpower] using hlet hplain
  | .new callee args =>
    have hnew : ∀ text : String, ExpressionFront plain (("new " ++ text).toList ++ rest) := by
      intro text
      rw [String.toList_append, List.append_assoc]
      show ExpressionFront plain ("new".toList ++ ' ' :: (text.toList ++ rest))
      exact .word (by decide) rfl
    cases args <;> rw [Expr.print, String.append_assoc] <;> exact hnew _
  | .member obj key isOptional =>
    rw [Expr.print, String.toList_append, List.append_assoc]
    have hopens : plain → (obj.isLet && key.isComputed) = false ∧
        (decide (Power.access ≤ obj.power) && obj.opensLet) = false := by
      intro hplain
      simpa only [Expr.opensLet, Bool.or_eq_false_iff] using hlet hplain
    refine front_guarded fun hpower => obj.front_print level h.tail.left hclear
      (fun hplain => ?_) (continues_memberKey isOptional level rest fun hobj => ?_)
    · simpa [hpower] using (hopens hplain).2
    · -- `let` with a bracket behind it would be a declaration
      simpa [hobj.2] using (hopens hobj.1).1
  | .unary op arg =>
    rw [Expr.print, String.append_assoc]
    exact front_unary op (op.isSign && arg.isSigned) _ rest
  | .binary op left right =>
    rw [Expr.print, String.append_assoc, String.append_assoc, String.append_assoc,
      String.toList_append, List.append_assoc]
    refine front_guarded fun hpower => left.front_print level h.tail.left hclear
      (fun hplain => ?_) ?_
    · simpa [Expr.opensLet, hpower] using hlet hplain
    · simp only [String.toList_append, List.append_assoc]
      exact continues_binary op _
  | .cond test cons alt =>
    rw [Expr.print, String.append_assoc, String.append_assoc, String.append_assoc,
      String.toList_append, List.append_assoc]
    refine front_guarded fun hpower => test.front_print level h.tail.left.left hclear
      (fun hplain => ?_) ?_
    · simpa [Expr.opensLet, hpower] using hlet hplain
    · rw [String.toList_append, List.append_assoc]
      exact continues_blank (skip_cons (by decide) (by decide) _) (by decide) (by decide)
  | .assign op target value =>
    rw [Expr.print, String.append_assoc, String.append_assoc, String.append_assoc,
      String.toList_append, List.append_assoc]
    refine front_guarded fun hpower => target.front_print level h.tail.left hclear
      (fun hplain => ?_) ?_
    · simpa [Expr.opensLet, hpower] using hlet hplain
    · simp only [String.toList_append, List.append_assoc]
      exact continues_assign op _
  | .jsx ⟨name, attributes, children, selfClosing⟩ =>
    rw [Expr.print, Element.print, String.append_assoc, String.append_assoc]
    exact front_text rfl (by decide) (by decide) _ rest

/-- So does an expression as a statement, in parentheses where it needs them. -/
theorem Expr.front_unambiguous {e : Expr} (level : Nat) (h : AllNodes Node.IsLexed e.nodes)
    (hlet : plain → e.opensLet = false) {rest : List Char}
    (hrest : Continues (plain ∧ e.isLet = true) rest) :
    ExpressionFront plain ((e.unambiguous (e.print level)).toList ++ rest) := by
  unfold Expr.unambiguous
  split
  · exact front_parens _ rest
  · rename_i hplain
    exact e.front_print level h (eq_false_of_ne_true hplain) hlet hrest

/-- And so does one behind an arrow. -/
theorem ArrowBody.front_print {value : Expr} (level : Nat) (h : AllNodes Node.IsLexed value.nodes)
    (hlet : plain → value.opensLet = false) {rest : List Char}
    (hrest : Continues (plain ∧ value.isLet = true) rest) :
    ExpressionFront plain (((ArrowBody.expr value).print level).toList ++ rest) := by
  rw [ArrowBody.print]
  split
  · exact front_parens _ rest
  · rename_i hplain
    exact front_guarded fun _ =>
      value.front_print level h (eq_false_of_ne_true hplain) hlet hrest

end Fronts

/-! ## Statements and arrow bodies -/

/-- An expression whose names, numbers and spelled strings can be read is printed as a statement
that starts with none of `{`, `function`, `class` and `async function`, and as the body of an arrow
function behind whose arrow stands no `{`. -/
theorem statement_startsPlainly (e : Expr) (level : Nat) (h : ∀ n ∈ e.nodes, n.IsLexed) :
    StartsPlainly ((Stmt.expr e).print level).toList ∧
      ∀ isAsync params, ∃ body,
        (Expr.arrow isAsync params (.expr e)).print level =
          textIf isAsync "async " ++ parens (commaList (Pattern.printAll params level)) ++ " => " ++
            body ∧
        body.toList.head? ≠ some '\x7b' := by
  refine ⟨?_, fun isAsync params => ⟨(ArrowBody.expr e).print level, by rw [Expr.print], ?_⟩⟩
  · rw [Stmt.print, String.toList_append]
    exact (Expr.front_unambiguous level h False.elim (continues_semicolon [])).startsPlainly
  · exact (ArrowBody.front_print level h False.elim (continues_semicolon [])).startsPlainly.head_ne

/-- `async in function() {}`, where `async` is a name and no word but `in` parts it from
`function`. -/
theorem statement_startsPlainly_async :
    (∀ n ∈ (Expr.binary .isIn (.ident "async") (.func none ⟨false, [], []⟩)).nodes, n.IsLexed) ∧
      StartsPlainly ((Stmt.expr (.binary .isIn (.ident "async")
        (.func none ⟨false, [], []⟩))).print 0).toList :=
  have hname : isName "async" = true := by decide
  have h : AllNodes Node.IsLexed
      (Expr.binary .isIn (.ident "async") (.func none ⟨false, [], []⟩)).nodes :=
    .cons trivial (.append (.cons hname allNodes_nil)
      (.cons trivial (.cons trivial (.append allNodes_nil allNodes_nil))))
  ⟨h, (statement_startsPlainly _ 0 h).1⟩

end TsxCompiler
