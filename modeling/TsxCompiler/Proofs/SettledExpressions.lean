import TsxCompiler.Proofs.ElementTexts
import TsxCompiler.Proofs.FunctionTexts
import TsxCompiler.Proofs.ObjectTexts
import TsxCompiler.Proofs.SettledTrees
import TsxCompiler.Proofs.StatementStarts

/-!
# Expressions that were read are read back

The printed text of an expression that was read is read as its settled expression. This is followed
along the grammar, for patterns, functions, objects and markup, and through the operators
(`yields_settledExpr`), given that it holds of the blocks in them. What nodes have to be like for that
is asked node by node (`Node.isStable`): the callee of a `new` has to be one that its text keeps
together, and no statement may start with `let[`. Classes are left out, and so are the items of a
module that are not statements.
-/

namespace TsxCompiler

open Grammar

/-- Whether the text of a node is read as that node, as far as its own parts decide. Of items only
statements are considered, and of those none with a class. -/
def Node.isStable : Node → Bool
  | .expr (.new callee _) => callee.isWholeCallee
  | .stmt (.expr e) => !e.opensLet
  | .classBody _ | .item (.imports _) | .item (.exports _) => false
  | _ => true

/-- A node whose text is read as that node and whose names and literals can be read. -/
structure StableNode (n : Node) : Prop where
  stable : n.isStable = true
  lexed : n.IsLexed

theorem not_stable_classBody {body : ClassBody} (h : AllNodes StableNode body.nodes) : False := by
  obtain ⟨superClass, members⟩ := body
  cases superClass <;> exact Bool.false_ne_true h.head.stable

namespace Grammar

open Peg Peg.Parser Text

variable {d : Dialect} {B : Parser (List Stmt)} {Good : List Char → Prop}

/-- The settled expression is read from its text, by itself and behind `new`. -/
def SettledExpr (d : Dialect) (B : Parser (List Stmt)) (Good : List Char → Prop) (e : Expr) : Prop :=
  ∀ level, PrintsBehindNew d B Good level e.settled

def SettledPattern (d : Dialect) (B : Parser (List Stmt)) (Good : List Char → Prop) (p : Pattern) :
    Prop :=
  AllNodes StableNode p.nodes → ∀ level, PatternText d B Good p.settled (p.settled.print level)

def SettledKey (d : Dialect) (B : Parser (List Stmt)) (Good : List Char → Prop) (key : PropertyKey) :
    Prop :=
  AllNodes StableNode key.nodes → ∀ level, KeyText d B Good key.settled (key.settled.print level)

/-- The settled statements of a block are read from their text. -/
def SettledBlock (B : Parser (List Stmt)) (Good : List Char → Prop) (stmts : List Stmt) : Prop :=
  (∀ s ∈ stmts, AllNodes StableNode s.nodes) → ∀ level,
    BlockText B Good (Stmt.settledBlock stmts) (Stmt.printBlock (Stmt.settledBlock stmts) level)

theorem SettledExpr.printsWell_all {args : List Argument}
    (h : ∀ a ∈ args, SettledExpr d B Good a.value) (level : Nat) :
    ∀ a ∈ args.map Argument.settled, PrintsWell d B Good level a.value := by
  intro a ha
  obtain ⟨x, hx, rfl⟩ := List.mem_map.1 ha
  exact (h x hx level).prints

theorem SettledExpr.printsWell_option {value : Option Expr}
    (h : ∀ e ∈ value, SettledExpr d B Good e) (level : Nat) :
    ∀ e ∈ value.map Expr.settled, PrintsWell d B Good level e := by
  intro e he
  obtain ⟨x, hx, rfl⟩ := Option.map_eq_some_iff.1 he
  exact (h x hx level).prints

/-! ## Patterns -/

section Rules

variable [Shrinks B] (hG : BraceClass d Good) {E : Parser Expr}
  (hE : Yields (Keeps StableNode (SettledExpr d B Good)) E)
include hE

omit [Shrinks B] in
theorem yields_settledInitializer :
    Yields (fun value => (∀ e ∈ value, AllNodes StableNode e.nodes) →
      ∀ level, ∀ e ∈ value.map Expr.settled, PrintsWell d B Good level e) (initializer E) :=
  (hE.skipThen _).optional.mono fun _ h hnodes =>
    SettledExpr.printsWell_option fun e he => h e he (hnodes e he)

include hG

theorem yields_settledKey : Yields (SettledKey d B Good) (propertyKey E) := by
  refine .choice (yields_stringLit.map fun lit h _ _ => .string hG.toTextClass h)
    (.choice (yields_number.map fun text h _ _ => .number hG.toTextClass h)
      (.choice ((hE.between _ _).map fun e h hnodes level => ?_)
        (yields_word.map fun name h _ _ => .word hG.toTextClass h)))
  exact .computed hG.toTextClass (h hnodes level).prints

section Patterns

variable {X : Parser Pattern} (hX : Yields (SettledPattern d B Good) X)
include hX

theorem yields_settledElement :
    Yields (fun p => AllNodes StableNode p.nodes → ∀ level,
      EntryText d B Good (patternElement (expression d B) (bindingPattern (expression d B)))
        p.settled (p.settled.print level)) (patternElement E X) := by
  refine .orElse ((hX.skipThen _).map fun p hp hnodes level => ?_)
    (hX.both (yields_settledInitializer hE) fun p value hp hvalue hnodes level => ?_)
  · exact entryText_rest hG.toTextClass (hp hnodes.tail level)
  · obtain ⟨hpattern, hinit⟩ := nodes_withDefault hnodes
    rw [Pattern.settled_withDefault, print_withDefault]
    exact entryText_element hG.toTextClass (hp hpattern level) (hvalue hinit level)

theorem yields_settledEntry :
    Yields (fun x => AllNodes StableNode x.nodes → ∀ level,
      EntryText d B Good (patternProperty (expression d B) (bindingPattern (expression d B)))
        x.settled (x.settled.print level)) (patternProperty E X) := by
  refine .choice ((hX.skipThen _).map fun p hp hnodes level => ?_)
    (.choice ((((yields_settledKey hG hE).thenSkip _).seq hX).both (yields_settledInitializer hE)
      fun entry value hentry hvalue hnodes level => ?_)
      (yields_identifier.both (yields_settledInitializer hE)
        fun name value hname hvalue hnodes level => ?_))
  · exact entryText_restProperty hG.toTextClass (hp hnodes level)
  · obtain ⟨htarget, hinit⟩ := nodes_withDefault hnodes.right
    show EntryText d B Good _ (PatternProperty.keyed entry.1.settled (withDefault entry.2 value).settled)
      (entry.1.settled.print level ++ ": " ++ (withDefault entry.2 value).settled.print level)
    rw [Pattern.settled_withDefault, print_withDefault]
    exact entryText_keyed hG.toTextClass (hentry.1 hnodes.left level) (hentry.2 htarget level)
      (hvalue hinit level)
  · have hinit : ∀ e ∈ value, AllNodes StableNode e.nodes := by
      intro e he
      obtain rfl : value = some e := he
      exact hnodes
    rw [PatternProperty.settled_shorthand, print_shorthand]
    exact entryText_shorthand hG.toTextClass hname (hvalue hinit level)

omit hX in
/-- The text of a pattern that was read is read as its settled pattern. -/
theorem yields_settledPattern : Yields (SettledPattern d B Good) (bindingPattern E) := by
  refine .fix fun X hX => .choice ?_ (.choice ?_ ?_)
  · refine (((yields_settledElement hG hE hX).sepByTrailing _).between _ _).map
      fun ps hps hnodes level => ?_
    have hparts := hnodes.tail
    rw [Pattern.nodesAll_eq, allNodes_flatMap] at hparts
    rw [Pattern.settled_array]
    refine patternText_array hG.toTextClass fun p hp => ?_
    obtain ⟨x, hx, rfl⟩ := List.mem_map.1 hp
    exact hps x hx (hparts x hx) level
  · refine (((yields_settledEntry hG hE hX).sepByTrailing _).between _ _).map
      fun xs hxs hnodes level => ?_
    have hparts := hnodes.tail
    rw [PatternProperty.nodesAll_eq, allNodes_flatMap] at hparts
    rw [Pattern.settled_object]
    refine patternText_object hG fun p hp => ?_
    obtain ⟨x, hx, rfl⟩ := List.mem_map.1 hp
    exact hxs x hx (hparts x hx) level
  · exact yields_identifier.map fun name hname _ _ => patternText_ident hG.toTextClass hname

end Patterns

theorem yields_settledParams :
    Yields (fun ps => AllNodes StableNode (Pattern.nodesAll ps) → ∀ level,
      ParamsText d B Good level (ps.map Pattern.settled)) (params d E) := by
  have hpattern := yields_settledPattern hG hE
  have hparam : Yields (fun p => AllNodes StableNode p.nodes → ∀ level,
      EntryText d B Good (param d (expression d B)) p.settled (p.settled.print level))
      ((restParam d E).orElse (plainParam d E)) := by
    refine .orElse (((hpattern.skipThen _).thenSkip _).map fun p hp hnodes level => ?_)
      (((hpattern.thenSkip _).thenSkip _).both (yields_settledInitializer hE)
        fun p value hp hvalue hnodes level => ?_)
    · exact entryText_restParam hG.toTextClass (hp hnodes.tail level)
    · obtain ⟨htarget, hinit⟩ := nodes_withDefault hnodes
      rw [Pattern.settled_withDefault, print_withDefault]
      exact entryText_plainParam hG.toTextClass (hp htarget level) (hvalue hinit level)
  refine .between _ _ ((hparam.sepByTrailing _).mono fun ps hps hnodes level p hp => ?_)
  rw [Pattern.nodesAll_eq, allNodes_flatMap] at hnodes
  obtain ⟨x, hx, rfl⟩ := List.mem_map.1 hp
  exact hps x hx (hnodes x hx) level

/-! ## Functions -/

variable (hS : SuffixClosed Good) {S : Parser (List Stmt)} (hB : Yields (SettledBlock B Good) S)
include hB

theorem yields_settledTail :
    Yields (fun x => AllNodes StableNode (Pattern.nodesAll x.1 ++ Stmt.nodesAll x.2) → ∀ level,
      ParamsText d B Good level (x.1.map Pattern.settled) ∧
        BlockText B Good (Stmt.settledBlock x.2) (Stmt.printBlock (Stmt.settledBlock x.2) level))
      (functionTail d E S) := by
  refine ((((yields_settledParams hG hE).skipThen _).thenSkip _).seq hB).mono
    fun x hx hnodes level => ⟨hx.1 hnodes.left level, hx.2 ?_ level⟩
  have hbody := hnodes.right
  rwa [Stmt.nodesAll_eq, allNodes_flatMap] at hbody

/-- A function behind its name. -/
theorem yields_settledFunc {α : Type} {P : α → Prop} {name : Parser α} (hname : Yields P name) :
    Yields (fun x => P x.1 ∧ (AllNodes StableNode x.2.nodes → ∀ level,
      ParamsText d B Good level x.2.settled.params ∧
        BlockText B Good x.2.settled.body (Stmt.printBlock x.2.settled.body level)))
      (functionWith name d E S) := by
  refine (((Yields.trivial asyncMark).thenSkip _).seq hname).both (yields_settledTail hG hE hB)
    fun x y hx hy => ⟨hx.2, fun hnodes level => ?_⟩
  rw [Func.settled_mk]
  exact hy hnodes.tail level

include hS

theorem yields_settledFunction :
    Yields (Keeps StableNode (SettledExpr d B Good)) (functionExpr d S E) := by
  refine (yields_settledFunc hG hE hB yields_identifier.optional).map fun x hx hnodes level => ?_
  obtain ⟨name, isAsync, params, body⟩ := x
  obtain ⟨hname, hparts⟩ := hx
  obtain ⟨hparams, hbody⟩ := hparts hnodes.tail level
  rw [Expr.settled_func, Func.settled_mk] at *
  exact .ofOperand hG.toTextClass (.func hS hG.toTextClass hparams hbody hname isAsync) rfl

variable (hopen : ∀ c s, c ≠ '\x7b' → run B (c :: s) = none)
include hopen

/-- Arrows: a single name in front of the arrow is printed in parentheses, as a list of one
parameter. A body that starts with a brace is printed in parentheses too, so that it is not taken for
a block. -/
theorem yields_settledArrow :
    Yields (Keeps StableNode (SettledExpr d B Good)) (arrowExpr d S E) := by
  have hparams : Yields (fun ps => AllNodes StableNode (Pattern.nodesAll ps) → ∀ level,
      ParamsText d B Good level (ps.map Pattern.settled))
      ((params d E).orElse (identifier.map fun name => [Pattern.ident name])) := by
    refine (yields_settledParams hG hE).orElse (yields_identifier.map fun name hname _ level => ?_)
    have hentry : EntryText d B Good (param d (expression d B)) (withDefault (.ident name) none)
        ((Pattern.ident name).print level ++ initializerText level none) :=
      entryText_plainParam hG.toTextClass (patternText_ident hG.toTextClass hname) (by simp)
    rw [← print_withDefault] at hentry
    intro p hp
    obtain rfl : p = .ident name := by simpa using hp
    exact hentry
  have hbody : Yields (fun body => AllNodes StableNode body.nodes → ∀ level,
      BodyText d B Good body.settled (body.settled.print level)) (arrowBody E S) := by
    refine (hB.map fun ss h hnodes level => ?_).orElse
      ((hE.skipThen _).map fun e he hnodes level => ?_)
    · rw [ArrowBody.nodes, Stmt.nodesAll_eq, allNodes_flatMap] at hnodes
      rw [ArrowBody.settled_block]
      exact bodyText_block (h hnodes level)
    · -- how the text starts is decided on the expression as it was read
      rw [ArrowBody.settled_expr]
      refine bodyText_expr hopen hG.toTextClass (he hnodes level).prints fun hplain => ?_
      rw [e.settled_alike.startsAmbiguously] at hplain
      rw [e.settled_alike.text]
      exact (e.front_print level (fun n hn => (hnodes n hn).lexed) hplain False.elim
        (continues_semicolon [])).startsPlainly.head_ne
  refine (((Yields.trivial _).seq hparams |>.thenSkip _).thenSkip _).both hbody
    fun x body hx hbody hnodes level => ?_
  rw [Expr.settled_arrow]
  exact .ofOperand hG.toTextClass (.arrow hS hG.toTextClass (hx.2 hnodes.tail.left level)
    (hbody hnodes.tail.right level) x.1) rfl

end Rules

/-! ## Objects, markup and `new` -/

/-- The change that settling makes in the braces of markup. -/
def BraceChange.settling : BraceChange where
  onExpr := Expr.settled
  onElement := Element.settled
  onAttribute := Attribute.settled
  onValue := AttributeValue.settled
  onChild := Child.settled
  element_eq := Element.settled_mk
  spread_eq _ := rfl
  named_eq := Attribute.settled_named
  value_string _ := rfl
  value_expr _ := rfl
  value_element _ := rfl
  child_text _ := rfl
  child_expr := Child.settled_expr
  child_element _ := rfl

section Operands

variable [Shrinks B] (hG : BraceClass d Good) (hS : SuffixClosed Good)
include hG

theorem yields_settledObject {E : Parser Expr}
    (hE : Yields (Keeps StableNode (SettledExpr d B Good)) E) :
    Yields (Keeps StableNode (SettledExpr d B Good)) (objectExpr E) := by
  have hproperty : Yields (fun x => AllNodes StableNode x.nodes → ∀ level,
      PropertyText d B Good x.settled (x.settled.print level)) (property E) := by
    refine .choice ((hE.skipThen _).map fun e he hnodes level => ?_)
      (.choice (((yields_settledKey hG hE).thenSkip _).both hE fun key e hkey he hnodes level => ?_)
        (yields_identifier.map fun name hname _ level => ?_))
    · exact propertyText_spread hG.toTextClass (he hnodes level).prints
    · exact propertyText_keyed hG.toTextClass (hkey hnodes.left level) (he hnodes.right level).prints
    · exact propertyText_shorthand hG.toTextClass hname
  refine ((hproperty.sepByTrailing _).between _ _).map fun props h hnodes level => ?_
  have hparts := hnodes.tail
  rw [Property.nodesAll_eq, allNodes_flatMap] at hparts
  rw [Expr.settled_object]
  refine .ofOperand hG.toTextClass (.object hG fun x hx => ?_) rfl
  obtain ⟨y, hy, rfl⟩ := List.mem_map.1 hx
  exact h y hy (hparts y hy) level

omit hG in
theorem SettledExpr.fillsBraces {e : Expr} (h : SettledExpr d B Good e) (level : Nat) :
    FillsBraces d B Good e.settled (e.settled.print level) where
  skips s := (h level).prints.skip_append _
  reads s hgood := (h level).prints.reads_entry (entryEnd_cons (by decide) s) hgood

include hS

omit hG in
/-- An element is an operand, where markup is part of the language. -/
theorem PrintsWell.jsx (hd : d.markup = true) {el : Element} {level : Nat}
    (h : ElementText d B Good el (el.print level)) : PrintsWell d B Good level (.jsx el) := by
  obtain ⟨c, t, ht, -⟩ := h.starts
  have hread := h.reads
  rw [ht] at hread
  refine PrintsWell.ofPrinted (w := '<' :: c :: t) ?_ rfl (by rw [Expr.print, ht])
  exact Printed.ofLiteral (by decide) (by decide) (by decide) (fun s => hS _ s)
    fun rest _ hgood => run_primary_element hd (hread rest hgood)

theorem yields_settledMarkup {E : Parser Expr}
    (hE : Yields (Keeps StableNode (SettledExpr d B Good)) E) :
    Yields (Keeps StableNode (SettledExpr d B Good)) (markupExpr d E) := by
  unfold markupExpr
  split
  · rename_i hd
    have helement : Yields (fun el => AllNodes StableNode el.nodes → ∀ level,
        ElementText d B Good el.settled (el.settled.print level)) (element E) :=
      yields_elementText hS .settling (fun h => h.fillsBraces) hE
    exact (yields_lexeme helement).map fun el hel hnodes level =>
      .ofOperand hG.toTextClass (.jsx hS hd (hel hnodes.tail level)) rfl
  · exact (Yields.trivial _).check nofun

end Operands

/-- The settled callee is read behind `new`, if it is one that its text keeps together. -/
def SettledCallee (d : Dialect) (B : Parser (List Stmt)) (Good : List Char → Prop) (e : Expr) :
    Prop :=
  e.isWholeCallee = true → ∀ level, CalleeText d B Good e.settled
    (if e.settled.isCall then Print.parens (e.settled.print level)
      else e.settled.guarded Power.access (e.settled.print level)).toList

/-- A member of an object is a whole callee behind `new` if no call is exposed in the object. -/
theorem settledCallee_member [Shrinks B] {object : Expr} {key : MemberKey} {optional : Bool}
    {settledKey : MemberKey} (h : SettledCallee d B Good object)
    (hsettled : (Expr.member object key optional).settled =
      .member object.settled settledKey optional)
    (hkey : ∀ level, KeyPrintsWell d B Good level settledKey optional) :
    SettledCallee d B Good (.member object key optional) := by
  intro hwhole level
  have hexposes : object.exposesCall = false := by
    simpa [Expr.isWholeCallee, Expr.isCall, Expr.exposesCall] using hwhole
  have hcall : object.settled.isCall = false := by
    rw [object.settled_alike.isCall]
    cases object with
    | call => cases hexposes
    | _ => rfl
  have hobject := h (by simp [Expr.isWholeCallee, hexposes]) level
  rw [hcall, if_neg Bool.false_ne_true] at hobject
  have hself : (Expr.member object.settled settledKey optional).isCall = false := rfl
  rw [hsettled, hself, if_neg Bool.false_ne_true, Expr.guarded_access rfl, Expr.print,
    String.toList_append]
  exact hobject.member (hkey level)

/-! ## Expressions -/

section Expressions

variable [Shrinks B] (hG : BraceClass d Good)
include hG

/-- All operators but accesses and calls are operands in parentheses behind `new`. -/
theorem settledExpr_closed : OperatorClosed StableNode (SettledExpr d B Good) where
  this _ := .ofOperand hG.toTextClass (.this hG.toTextClass) rfl
  ident hname hawait _ := .ofOperand hG.toTextClass (.ident hG.toTextClass hname hawait) rfl
  lit {value} h _ := by
    refine .ofOperand hG.toTextClass ?_ rfl
    rw [Expr.settled_lit]
    cases value with
    | string lit => exact .string hG.toTextClass h
    | number text => exact .number hG.toTextClass h
    | bool b => exact .bool hG.toTextClass b
    | null => exact .null hG.toTextClass
    | template raw => exact .template hG.toTextClass h
  array h level := by
    rw [Expr.settled_array]
    exact .ofOperand hG.toTextClass
      (.array hG.toTextClass (SettledExpr.printsWell_all h level)) rfl
  call optional hcallee hargs level := by
    rw [Expr.settled_call]
    exact .call hG.toTextClass (hcallee level) (SettledExpr.printsWell_all hargs level)
  member optional h hname level :=
    .member hG.toTextClass (h level) (.ident hG.toTextClass hname optional)
  computed h hkey level :=
    .member hG.toTextClass (h level) (.computed hG.toTextClass (hkey level).prints)
  unary _ h level := .ofOperand hG.toTextClass (.unary hG.toTextClass (h level).prints) rfl
  binary op _ _ hleft hright level :=
    .ofOperand hG.toTextClass (.binary hG.toTextClass (hleft level).prints (hright level).prints)
      (by cases op <;> rfl)
  cond _ htest hcons halt level :=
    .ofOperand hG.toTextClass
      (.cond hG.toTextClass (htest level).prints (hcons level).prints (halt level).prints) rfl
  assign _ _ _ htarget hvalue level :=
    .ofOperand hG.toTextClass
      (.assign hG.toTextClass (htarget level).prints (hvalue level).prints) rfl

variable (hS : SuffixClosed Good) (hopen : ∀ c s, c ≠ '\x7b' → run B (c :: s) = none)
  {S : Parser (List Stmt)} (hB : Yields (SettledBlock B Good) S)
include hS hopen hB

theorem settledOperand_closed :
    OperandClosed d S StableNode (SettledExpr d B Good) (SettledCallee d B Good) where
  arrow hE := yields_settledArrow hG hE hS hB hopen
  function hE := yields_settledFunction hG hE hS hB
  classes _ := (Yields.trivial _).map fun _ _ hnodes => (not_stable_classBody hnodes.tail).elim
  object hE := yields_settledObject hG hE
  markup hE := yields_settledMarkup hG hS hE
  callee {e} h hwhole level :=
    (h level).calleeText hG.toTextClass (e.isWholeCallee_settled.trans hwhole)
  calleeAwait _ _ := .name hG.toTextClass (by decide)
  calleeMember optional h hname :=
    settledCallee_member h rfl fun _ => .ident hG.toTextClass hname optional
  calleeComputed h hkey :=
    settledCallee_member h rfl fun level => .computed hG.toTextClass (hkey level).prints
  new hnode hcallee hargs level := by
    rw [Expr.settled_new]
    exact .new hG.toTextClass (hcallee hnode.stable level) (SettledExpr.printsWell_all hargs level)

/-- The text of an expression that was read is read as its settled expression, given that this holds
of the blocks in it. -/
theorem yields_settledExpr : Yields (Keeps StableNode (SettledExpr d B Good)) (expression d S) :=
  yields_keeps (settledExpr_closed hG) (settledOperand_closed hG hS hopen hB)

end Expressions

end Grammar

end TsxCompiler
