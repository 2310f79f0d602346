import TsxCompiler.Proofs.ModuleTexts
import TsxCompiler.Proofs.Phrases
import TsxCompiler.Proofs.Primaries

/-!
# Reading a module comes to an end

The rules of the grammar as they are written, with the ten rules that stand for something in a
module as names. The texts are found from the definitions of the rules themselves (`HasText`), and
the checks on them are computed.

* `rules`, `grammar` — the named rules and their texts;
* `terminating_grammar` — the texts pass the checks in every dialect;
* `rules_progress_and_halt` — every named rule reads at least one character, no chain of calls
  comes back to a rule before it has read one, no repetition turns on the spot, and reading a module
  ends on every text with a program or an error.
-/

namespace TsxCompiler.Peg

open TsxCompiler.Peg.Parser

variable {R : Type} {value : R → Type} {α β γ : Type}

/-- The text that the parsers of a family are written as, with the rules `ρ` as names. -/
class HasText {ι : Type} (ρ : ι → (r : R) → Parser (value r)) (p : ι → Parser α) where
  text : Phrase value α
  parser_text : ∀ i, text.parser (ρ i) = p i

namespace HasText

variable {ι : Type} (ρ : ι → (r : R) → Parser (value r))

/-- The text of a family, as one that stands for its parsers. -/
def written (p : ι → Parser α) [P : HasText ρ p] :
    {φ : Phrase value α // ∀ i, φ.parser (ρ i) = p i} :=
  ⟨P.text, P.parser_text⟩

/-- A rule is written as its name. -/
abbrev name (r : R) : HasText ρ fun i => ρ i r := ⟨.rule r, fun _ => rfl⟩

variable (p : ι → Parser α) (q : ι → Parser β) [P : HasText ρ p] [Q : HasText ρ q]

instance (a : α) : HasText ρ fun _ => succeed a := ⟨.succeed a, fun _ => rfl⟩

instance (test : Char → Bool) : HasText ρ fun _ => satisfy test := ⟨.satisfy test, fun _ => rfl⟩

instance (wanted : Char) : HasText ρ fun _ => char wanted := ⟨.char wanted, fun _ => rfl⟩

instance (text : String) : HasText ρ fun _ => literal text := ⟨.literal text, fun _ => rfl⟩

instance : HasText ρ fun _ => atEnd := ⟨.atEnd, fun _ => rfl⟩

instance (f : α → β) : HasText ρ fun i => (p i).map f :=
  ⟨.map f P.text, fun i => congrArg (Parser.map f) (P.parser_text i)⟩

instance (b : β) : HasText ρ fun i => (p i).yielding b :=
  ⟨.map (fun _ => b) P.text, fun i => congrArg (Parser.yielding b) (P.parser_text i)⟩

instance (accept : α → Except String β) : HasText ρ fun i => (p i).check accept :=
  ⟨.check accept P.text, fun i => congrArg (Parser.check accept) (P.parser_text i)⟩

instance (text : String) : HasText ρ fun i => (p i).label text :=
  ⟨.label text P.text, fun i => congrArg (Parser.label text) (P.parser_text i)⟩

instance : HasText ρ fun i => (p i).peek :=
  ⟨.peek P.text, fun i => congrArg Parser.peek (P.parser_text i)⟩

instance (f : α → β → γ) : HasText ρ fun i => both f (p i) (q i) :=
  ⟨.both f P.text Q.text,
    fun i => congrArg₂ (Parser.both f) (P.parser_text i) (Q.parser_text i)⟩

instance : HasText ρ fun i => (p i).seq (q i) :=
  ⟨.both Prod.mk P.text Q.text,
    fun i => congrArg₂ Parser.seq (P.parser_text i) (Q.parser_text i)⟩

instance : HasText ρ fun i => (p i).thenSkip (q i) :=
  ⟨.both (fun a _ => a) P.text Q.text,
    fun i => congrArg₂ Parser.thenSkip (P.parser_text i) (Q.parser_text i)⟩

instance : HasText ρ fun i => (p i).skipThen (q i) :=
  ⟨.both (fun _ b => b) P.text Q.text,
    fun i => congrArg₂ Parser.skipThen (P.parser_text i) (Q.parser_text i)⟩

instance (q : ι → Parser α) [Q : HasText ρ q] : HasText ρ fun i => (p i).orElse (q i) :=
  ⟨.orElse P.text Q.text,
    fun i => congrArg₂ Parser.orElse (P.parser_text i) (Q.parser_text i)⟩

instance : HasText ρ fun i => choice (p i) [] := P

instance (q : ι → Parser α) (more : ι → List (Parser α))
    [Q : HasText ρ fun i => choice (q i) (more i)] :
    HasText ρ fun i => choice (p i) (q i :: more i) :=
  ⟨.choice P.text Q.text,
    fun i => congrArg₂ (fun p q => Parser.choice p [q]) (P.parser_text i) (Q.parser_text i)⟩

instance : HasText ρ fun i => (p i).optional :=
  ⟨.optional P.text, fun i => congrArg Parser.optional (P.parser_text i)⟩

instance : HasText ρ fun i => many (p i) :=
  ⟨.many P.text, fun i => congrArg Parser.many (P.parser_text i)⟩

instance : HasText ρ fun i => many1 (p i) :=
  ⟨.many1 P.text, fun i => congrArg Parser.many1 (P.parser_text i)⟩

instance : HasText ρ fun i => skipUntil (p i) :=
  ⟨.skipUntil P.text, fun i => congrArg Parser.skipUntil (P.parser_text i)⟩

instance : HasText ρ fun i => sepBy1 (q i) (p i) :=
  ⟨.sepBy1 Q.text P.text,
    fun i => congrArg₂ Parser.sepBy1 (Q.parser_text i) (P.parser_text i)⟩

instance : HasText ρ fun i => sepByTrailing (q i) (p i) :=
  ⟨.sepByTrailing Q.text P.text,
    fun i => congrArg₂ Parser.sepByTrailing (Q.parser_text i) (P.parser_text i)⟩

end HasText

end TsxCompiler.Peg

namespace TsxCompiler.Grammar

open Peg Peg.Parser

/-! ## The named rules -/

/-- The rules that stand for something in a module, and the blanks and comments between them. -/
inductive Rule where
  | moduleItem | statement | expression | pattern | classMember | type | markup | element | child
  | elementAttribute | trivia
deriving DecidableEq

/-- What a rule reads. -/
def Rule.Value : Rule → Type
  | moduleItem => Item
  | statement => Stmt
  | expression | markup => Expr
  | pattern => Pattern
  | classMember => ClassMember
  | type | trivia => Unit
  | element => Element
  | child => Child
  | elementAttribute => Attribute

variable (d : Dialect)

/-- Statements in braces. -/
abbrev block : Parser (List Stmt) := blockOf (statement d)

/-- An expression, with blocks of statements inside. -/
abbrev expr : Parser Expr := expression d (block d)

/-- The parser for a rule. -/
def rules : (r : Rule) → Parser r.Value
  | .moduleItem => moduleItem d
  | .statement => statement d
  | .expression => expr d
  | .pattern => bindingPattern (expr d)
  | .classMember => classMember d (expr d) (block d)
  | .type => typeExpr
  | .markup => markupExpr d (expr d)
  | .element => element (expr d)
  | .child => child (expr d) (element (expr d))
  | .elementAttribute => elementAttribute (expr d) (element (expr d))
  | .trivia => triviaPiece

/-- The parser for a rule with one step of its definition done. -/
def bodies : (r : Rule) → Parser r.Value
  | .moduleItem => moduleItem d
  | .statement => statementBody d (statement d)
  | .expression => expressionBody d (block d) (expr d)
  | .pattern => patternBody (expr d) (bindingPattern (expr d))
  | .classMember => classMember d (expr d) (block d)
  | .type => typeBody typeExpr
  | .markup => markupExpr d (expr d)
  | .element => markupBody (expr d) (element (expr d))
  | .child => child (expr d) (element (expr d))
  | .elementAttribute => elementAttribute (expr d) (element (expr d))
  | .trivia => triviaPiece

theorem run_rules (r : Rule) (s : List Char) : run (rules d r) s = run (bodies d r) s := by
  cases r with
  | statement => exact run_statement d s
  | expression => exact run_expression d (block d) s
  | pattern => exact run_bindingPattern (expr d) s
  | type => exact run_typeExpr s
  | element => exact run_element (expr d) s
  | moduleItem | classMember | markup | child | elementAttribute | trivia => rfl

instance (E : Parser Expr) (L : Parser Element) [Shrinks E] [Consumes L] :
    Consumes (child E L) := by
  unfold child
  infer_instance

theorem consumes_rules : (r : Rule) → Consumes (rules d r)
  | .moduleItem => inferInstanceAs (Consumes (moduleItem d))
  | .statement => inferInstanceAs (Consumes (statement d))
  | .expression => inferInstanceAs (Consumes (expr d))
  | .pattern => inferInstanceAs (Consumes (bindingPattern (expr d)))
  | .classMember => inferInstanceAs (Consumes (classMember d (expr d) (block d)))
  | .type => inferInstanceAs (Consumes typeExpr)
  | .markup => inferInstanceAs (Consumes (markupExpr d (expr d)))
  | .element => inferInstanceAs (Consumes (element (expr d)))
  | .child => inferInstanceAs (Consumes (child (expr d) (element (expr d))))
  | .elementAttribute =>
    inferInstanceAs (Consumes (elementAttribute (expr d) (element (expr d))))
  | .trivia => inferInstanceAs (Consumes triviaPiece)

/-! ## Names -/

section Texts

variable {α : Type} (l : Language)

/-- The text that the two dialects of a language write a parser as. -/
abbrev Written (p : Bool → Parser α) := HasText (fun m => rules ⟨l, m⟩) p

/-- The name of a rule stands for the rule. -/
abbrev Written.name (r : Rule) : Written l fun m => rules ⟨l, m⟩ r := HasText.name _ r

instance : Written l fun m => moduleItem ⟨l, m⟩ := .name l .moduleItem

instance : Written l fun m => statement ⟨l, m⟩ := .name l .statement

instance : Written l fun m => expr ⟨l, m⟩ := .name l .expression

instance : Written l fun m => bindingPattern (expr ⟨l, m⟩) := .name l .pattern

instance : Written l fun m => classMember ⟨l, m⟩ (expr ⟨l, m⟩) (block ⟨l, m⟩) := .name l .classMember

instance : Written l fun _ => typeExpr := .name l .type

instance : Written l fun m => markupExpr ⟨l, m⟩ (expr ⟨l, m⟩) := .name l .markup

instance : Written l fun m => element (expr ⟨l, m⟩) := .name l .element

instance : Written l fun m => child (expr ⟨l, m⟩) (element (expr ⟨l, m⟩)) := .name l .child

instance : Written l fun m => elementAttribute (expr ⟨l, m⟩) (element (expr ⟨l, m⟩)) :=
  .name l .elementAttribute

instance : Written l fun _ => triviaPiece := .name l .trivia

/-! ## Lexemes and types -/

section Parts

variable (p : Bool → Parser α) [P : Written l p]

instance : Written l fun _ => trivia := by
  delta trivia
  infer_instance

instance : Written l fun m => lexeme (p m) := by
  delta lexeme
  infer_instance

instance (text : String) : Written l fun _ => sym text := by
  delta sym
  infer_instance

instance : Written l fun m => inParens (p m) := by
  delta inParens between
  infer_instance

instance : Written l fun m => inBrackets (p m) := by
  delta inBrackets between
  infer_instance

instance : Written l fun m => inBraces (p m) := by
  delta inBraces between
  infer_instance

instance : Written l fun m => inAngles (p m) := by
  delta inAngles between
  infer_instance

instance : Written l fun _ => rawWord := by
  delta rawWord
  infer_instance

instance : Written l fun _ => word := by
  delta word
  infer_instance

instance : Written l fun _ => identifier := by
  delta identifier
  infer_instance

instance (text : String) : Written l fun _ => keyword text := by
  delta keyword
  infer_instance

instance : Written l fun _ => terminator := by
  delta terminator
  infer_instance

instance : Written l fun _ => escapePair := by
  delta escapePair anyChar
  infer_instance

instance : Written l fun _ => stringLit := by
  delta stringLit quotedString quotedBody
  infer_instance

instance : Written l fun _ => template := by
  delta template
  infer_instance

instance : Written l fun _ => number := by
  delta number digits
  infer_instance

instance : Written l fun m => forget (p m) := by
  delta forget
  infer_instance

instance : Written l fun _ => typeBody typeExpr := by
  delta typeBody arrayType primaryType functionType parenType objectType tupleType literalType
  delta typeReference typeArgs memberType paramType
  infer_instance

instance : Written l fun _ => typeParams := by
  delta typeParams typeParam
  infer_instance

/-- What only a typed dialect reads is no matter of markup. -/
instance (q : Bool → Parser α) [Q : Written l q] :
    Written l fun m => if (Dialect.mk l m).isTypeScript then p m else q m where
  text := if l = .typeScript then P.text else Q.text
  parser_text m := by
    cases l with
    | ecmaScript => exact Q.parser_text m
    | typeScript => exact P.parser_text m

instance (p : Bool → Parser Unit) [Written l p] : Written l fun m => whenTyped ⟨l, m⟩ (p m) := by
  delta whenTyped
  infer_instance

instance : Written l fun m => ascription ⟨l, m⟩ := by
  delta ascription typeAscription
  infer_instance

instance : Written l fun m => optionalMark ⟨l, m⟩ := by
  delta optionalMark
  infer_instance

instance : Written l fun m => genericParams ⟨l, m⟩ := by
  delta genericParams
  infer_instance

end Parts

/-! ## Patterns, functions and classes -/

instance : Written l fun m => propertyKey (expr ⟨l, m⟩) := by
  delta propertyKey
  infer_instance

instance : Written l fun m => initializer (expr ⟨l, m⟩) := by
  delta initializer
  infer_instance

instance : Written l fun m => patternBody (expr ⟨l, m⟩) (bindingPattern (expr ⟨l, m⟩)) := by
  delta patternBody arrayPattern objectPattern patternElement patternProperty
  infer_instance

instance : Written l fun m => params ⟨l, m⟩ (expr ⟨l, m⟩) := by
  delta params restParam plainParam
  infer_instance

instance : Written l fun _ => asyncMark := by
  delta asyncMark
  infer_instance

instance : Written l fun m => block ⟨l, m⟩ := by
  delta block blockOf
  infer_instance

instance : Written l fun m => functionTail ⟨l, m⟩ (expr ⟨l, m⟩) (block ⟨l, m⟩) := by
  delta functionTail
  infer_instance

section Names

variable (name : Bool → Parser α) [Written l name]

instance : Written l fun m => functionWith (name m) ⟨l, m⟩ (expr ⟨l, m⟩) (block ⟨l, m⟩) := by
  delta functionWith
  infer_instance

instance : Written l fun m => classWith (name m) ⟨l, m⟩ (expr ⟨l, m⟩) (block ⟨l, m⟩) := by
  delta classWith classTail classMembers implementsClause
  infer_instance

end Names

/-! ## Markup and expressions -/

instance : Written l fun _ => nameSegment := by
  delta nameSegment
  infer_instance

instance : Written l fun _ => closingTag := by
  delta closingTag tagName
  infer_instance

instance : Written l fun m => markupBody (expr ⟨l, m⟩) (element (expr ⟨l, m⟩)) := by
  delta markupBody fragment taggedElement elementBody tagName
  infer_instance

instance : Written l fun m => argument (expr ⟨l, m⟩) := by
  delta argument
  infer_instance

instance : Written l fun m => arguments (expr ⟨l, m⟩) := by
  delta arguments
  infer_instance

instance : Written l fun _ => literalExpr := by
  delta literalExpr
  infer_instance

instance : Written l fun m => arrowExpr ⟨l, m⟩ (block ⟨l, m⟩) (expr ⟨l, m⟩) := by
  delta arrowExpr arrowBody
  infer_instance

instance : Written l fun m => primary ⟨l, m⟩ (block ⟨l, m⟩) (expr ⟨l, m⟩) := by
  delta primary functionExpr classExpr arrayExpr objectExpr property
  infer_instance

instance : Written l fun m => memberSuffix (expr ⟨l, m⟩) := by
  delta memberSuffix
  infer_instance

instance : Written l fun m => unaryExpr ⟨l, m⟩ (block ⟨l, m⟩) (expr ⟨l, m⟩) := by
  delta unaryExpr unaryOp casts postfixExpr newExpr callSuffix
  infer_instance

instance (operand : Bool → Parser Expr) (op : Bool → Parser BinaryOp) [Written l operand]
    [Written l op] : Written l fun m => binaryLevel (operand m) (op m) := by
  delta binaryLevel
  infer_instance

instance : Written l fun m => expressionBody ⟨l, m⟩ (block ⟨l, m⟩) (expr ⟨l, m⟩) := by
  delta expressionBody conditional nullish disjunction conjunction equality relational additive
  delta multiplicative multiplicativeOp additiveOp relationalOp equalityOp assignOp
  infer_instance

/-! ## Statements and modules -/

instance : Written l fun m => declaration ⟨l, m⟩ (expr ⟨l, m⟩) (block ⟨l, m⟩) := by
  delta declaration runtimeDecl varDecl declarator functionDecl classDecl typeAlias interfaceDecl
  infer_instance

instance : Written l fun m => statementBody ⟨l, m⟩ (statement ⟨l, m⟩) := by
  delta statementBody returnStmt branchStmt throwStmt
  infer_instance

instance : Written l fun _ => importList := by
  delta importList namedImport
  infer_instance

instance : Written l fun m => importDecl ⟨l, m⟩ := by
  delta importDecl typeOnlyMark importClause defaultImport starImport
  infer_instance

instance : Written l fun m => exportDecl ⟨l, m⟩ (expr ⟨l, m⟩) (block ⟨l, m⟩) := by
  delta exportDecl defaultExport exportAll exportList exportSpecifier
  infer_instance

instance : Written l fun m => program ⟨l, m⟩ := by
  delta program
  infer_instance

/-! ## The grammar -/

/-- The text of a rule, as one that stands for its body with markup and without it; the rule for
markup, in which the two differ, is left as its name. -/
noncomputable def ruleText : (r : Rule) →
    {φ : Phrase Rule.Value r.Value // ∀ m, φ.parser (rules ⟨l, m⟩) = bodies ⟨l, m⟩ r}
  | .statement => HasText.written _ fun m => statementBody ⟨l, m⟩ (statement ⟨l, m⟩)
  | .expression =>
    HasText.written _ fun m => expressionBody ⟨l, m⟩ (block ⟨l, m⟩) (expr ⟨l, m⟩)
  | .pattern =>
    HasText.written _ fun m => patternBody (expr ⟨l, m⟩) (bindingPattern (expr ⟨l, m⟩))
  | .type => HasText.written (fun m => rules ⟨l, m⟩) fun _ => typeBody typeExpr
  | .element => HasText.written _ fun m => markupBody (expr ⟨l, m⟩) (element (expr ⟨l, m⟩))
  | .markup => HasText.written _ fun m => markupExpr ⟨l, m⟩ (expr ⟨l, m⟩)
  -- The other rules are no recursion of their own, and their names are opened here only.
  | .moduleItem => by
    show {φ : Phrase Rule.Value Item // ∀ m, φ.parser (rules ⟨l, m⟩) = moduleItem ⟨l, m⟩}
    delta moduleItem
    exact HasText.written _ _
  | .classMember => by
    show {φ : Phrase Rule.Value ClassMember //
      ∀ m, φ.parser (rules ⟨l, m⟩) = classMember ⟨l, m⟩ (expr ⟨l, m⟩) (block ⟨l, m⟩)}
    delta classMember methodMember fieldMember modifiers
    exact HasText.written _ _
  | .child => by
    show {φ : Phrase Rule.Value Child //
      ∀ m, φ.parser (rules ⟨l, m⟩) = child (expr ⟨l, m⟩) (element (expr ⟨l, m⟩))}
    delta child childText childContainer
    exact HasText.written _ _
  | .elementAttribute => by
    show {φ : Phrase Rule.Value Attribute //
      ∀ m, φ.parser (rules ⟨l, m⟩) = elementAttribute (expr ⟨l, m⟩) (element (expr ⟨l, m⟩))}
    delta elementAttribute attributeName attributeValue container
    exact HasText.written _ _
  | .trivia => by
    show {φ : Phrase Rule.Value Unit // ∀ m, φ.parser (rules ⟨l, m⟩) = triviaPiece}
    delta triviaPiece
    exact HasText.written _ _

end Texts

variable (d : Dialect)

/-- The text of a parser of a dialect. -/
abbrev writtenAs {α : Type} (p : Dialect → Parser α)
    [P : Written d.language fun m => p ⟨d.language, m⟩] : Phrase Rule.Value α :=
  P.text

/-- The text of the rule for markup: an element, or a refusal. -/
noncomputable def markupText :
    {φ : Phrase Rule.Value Expr // φ.parser (rules d) = markupExpr d (expr d)} := by
  match d with
  | ⟨l, true⟩ =>
    let φ := HasText.written (fun m => rules ⟨l, m⟩)
      fun m => (lexeme (element (expr ⟨l, m⟩))).map Expr.jsx
    exact ⟨φ.val, φ.property true⟩
  | ⟨l, false⟩ =>
    let φ := HasText.written (fun m => rules ⟨l, m⟩) fun _ => (char '<').check
      fun _ => (.error "JSX syntax requires the markup extension" : Except String Expr)
    exact ⟨φ.val, φ.property false⟩

/-- The text of the grammar. -/
noncomputable def grammar : (r : Rule) → Phrase Rule.Value r.Value
  | .markup => (markupText d).val
  | r => (ruleText d.language r).val

/-- The text of the rule for whole modules. -/
noncomputable def programText : {φ : Phrase Rule.Value Program // φ.parser (rules d) = program d} :=
  let φ := HasText.written (fun m => rules ⟨d.language, m⟩) fun m => program ⟨d.language, m⟩
  ⟨φ.val, φ.property d.markup⟩

/-- A rule that another one may start with has a lower rank. -/
def Rule.rank : Rule → Nat
  | moduleItem => 4
  | statement => 3
  | expression => 2
  | markup | child => 1
  | _ => 0

theorem parser_grammar (r : Rule) : (grammar d r).parser (rules d) = bodies d r := by
  cases r with
  | markup => exact (markupText d).property
  | _ => exact (ruleText d.language _).property d.markup

theorem loopsProgress_grammar (r : Rule) : (grammar d r).loopsProgress = true := by
  obtain ⟨l, m⟩ := d
  cases l <;> cases m <;> cases r <;> decide +kernel

theorem loopsProgress_programText : (programText d).val.loopsProgress = true := by
  obtain ⟨l, m⟩ := d
  cases l <;> cases m <;> decide +kernel

theorem rank_lt_of_first (r : Rule) : ∀ r' ∈ (grammar d r).first, r'.rank < r.rank := by
  obtain ⟨l, m⟩ := d
  cases l <;> cases m <;> cases r <;> decide +kernel

/-- The grammar passes the checks. -/
theorem terminating_grammar : Terminating (grammar d) (rules d) Rule.rank where
  run_eq r s := by rw [parser_grammar, run_rules]
  consumes := consumes_rules d
  loops := loopsProgress_grammar d
  first_lt := rank_lt_of_first d

/-- Behind an opening parenthesis, an expression comes back to itself. -/
theorem callsRule_expression_paren (s : List Char) :
    CallsRule (grammar d) (rules d) (.expression, '(' :: s) (.expression, skip s) := by
  have hunary : run (many unaryOp) ('(' :: s) = some ([], '(' :: s) :=
    run_many_none (run_unaryOp_none (by decide) (by decide) (by decide) (by decide) s)
  have hparen : run (sym "(") ('(' :: s) = some ((), skip s) := run_sym_append "(" s
  have hinner : (writtenAs d fun d => inParens (expr d)).Calls (rules d) ('(' :: s)
      .expression (skip s) :=
    .inl (.inr ⟨skip s, ⟨(), hparen⟩, rfl, rfl⟩)
  have hprimary : (writtenAs d fun d => primary d (block d) (expr d)).Calls (rules d)
      ('(' :: s) .expression (skip s) := by
    iterate 9 right
    exact hinner
  have hoperand : (writtenAs d fun d => unaryExpr d (block d) (expr d)).Calls (rules d)
      ('(' :: s) .expression (skip s) :=
    .inl (.inr ⟨'(' :: s, ⟨[], hunary⟩, .inl (.inr hprimary)⟩)
  -- No operator and no assignment stands before the operand.
  show (writtenAs d fun d => expressionBody d (block d) (expr d)).Calls (rules d) ('(' :: s)
    .expression (skip s)
  iterate 9 left
  exact hoperand

/-- The rule for modules reads a text to its end or finds no module in it, and the answer is the
program or an error. -/
theorem parse_eq_ok_or_error (text : List Char) :
    (∃ p, run (program d) text = some (p, []) ∧ parse d text = .ok p) ∨
      ∃ e, run (program d) text = none ∧ parse d text = .error e := by
  cases h : run (program d) text with
  | none =>
    have hread := toOption_grammarParse d text
    cases hp : parse d text with
    | ok p => simp [h, hp, Except.toOption] at hread
    | error e => exact .inr ⟨e, rfl, rfl⟩
  | some x =>
    obtain ⟨p, r⟩ := x
    obtain ⟨items, hitems, -⟩ := run_map_inv h
    obtain ⟨u, t, -, hend⟩ := run_thenSkip_inv hitems
    obtain rfl : r = [] := (run_atEnd_inv hend).2
    exact .inl ⟨p, rfl, grammarParse_of_run_program h⟩

/-- A named rule that reads anything reads at least one character, and no chain of calls comes back
to a rule before it has read one. So no repetition turns on the spot, every rule ends on every
text, and the reading of a module ends with a program or with an error. -/
theorem rules_progress_and_halt :
    (∀ r, Consumes (rules d r)) ∧
    (∀ r s, run (rules d r) s = run ((grammar d r).parser (rules d)) s) ∧
    (∀ r s t, Relation.TransGen (CallsRule (grammar d) (rules d)) (r, s) (r, t) →
      t.length < s.length) ∧
    (∀ r, (grammar d r).LoopsConsume (rules d)) ∧ (programText d).val.LoopsConsume (rules d) ∧
    (∀ r s, Reads (grammar d) (.rule r) s (run (rules d r) s)) ∧
    ∀ text, Reads (grammar d) (programText d).val text (run (program d) text) ∧
      ((∃ p, run (program d) text = some (p, []) ∧ parse d text = .ok p) ∨
        ∃ e, run (program d) text = none ∧ parse d text = .error e) := by
  have hgrammar := terminating_grammar d
  have := hgrammar.consumes
  refine ⟨hgrammar.consumes, hgrammar.run_eq, fun r s t => hgrammar.length_lt_of_chain,
    fun r => ?_, ?_, hgrammar.reads_rule, fun text => ⟨?_, parse_eq_ok_or_error d text⟩⟩
  · exact Phrase.loopsConsume_of_loopsProgress _ (hgrammar.loops r)
  · exact Phrase.loopsConsume_of_loopsProgress _ (loopsProgress_programText d)
  · have hread := hgrammar.reads (loopsProgress_programText d) text
    rwa [(programText d).property] at hread

theorem rules_progress_and_halt_parens :
    Relation.TransGen (CallsRule (grammar ⟨.typeScript, true⟩) (rules ⟨.typeScript, true⟩))
      (.expression, ['(', 'a', ')']) (.expression, ['a', ')']) ∧
    ['a', ')'].length < ['(', 'a', ')'].length := by
  have hcall := callsRule_expression_paren ⟨.typeScript, true⟩ ['a', ')']
  rw [skip_cons (by decide) (by decide)] at hcall
  exact ⟨.single hcall, (rules_progress_and_halt ⟨.typeScript, true⟩).2.2.1 _ _ _ (.single hcall)⟩

end TsxCompiler.Grammar
