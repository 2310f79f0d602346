import TsxCompiler.Grammar.Module
import TsxCompiler.Proofs.Progress

/-!
# The rules of the grammar make progress

Every rule leaves an end of the text, every rule that stands for something in the tree reads at
least one character, and the recursive rules are fixed points of their bodies. These are the only
facts about recursion that the later modules use.
-/

namespace TsxCompiler.Grammar

open Peg Peg.Parser Text

variable {α β : Type}

/-! ## Lexemes -/

instance : Consumes triviaPiece := by
  have hline : Consumes (literal "//") := consumes_literal (by decide)
  have hblock : Consumes (literal "/*") := consumes_literal (by decide)
  unfold triviaPiece
  infer_instance

instance : Shrinks trivia := by
  unfold trivia
  infer_instance

instance (p : Parser α) [Shrinks p] : Shrinks (lexeme p) := by
  unfold lexeme
  infer_instance

instance (p : Parser α) [Consumes p] : Consumes (lexeme p) := by
  unfold lexeme
  infer_instance

instance (n : Nat) (p q : Parser α) [Shrinks p] [AgreeBelow n p q] :
    AgreeBelow n (lexeme p) (lexeme q) := by
  unfold lexeme
  infer_instance

instance (text : String) : Shrinks (sym text) := by
  unfold sym
  infer_instance

theorem consumes_sym {text : String} (ht : text.toList ≠ []) : Consumes (sym text) := by
  have := consumes_literal ht
  unfold sym
  infer_instance

instance : Consumes rawWord := by
  unfold rawWord
  infer_instance

instance : Consumes word := by
  unfold word
  infer_instance

instance : Consumes identifier := by
  unfold identifier
  infer_instance

instance (text : String) : Consumes (keyword text) := by
  unfold keyword
  infer_instance

instance : Shrinks terminator := by
  unfold terminator
  infer_instance

instance : Consumes escapePair := by
  unfold escapePair anyChar
  infer_instance

instance (quote : Char) : Shrinks (quotedBody quote) := by
  unfold quotedBody
  infer_instance

instance (quote : Char) : Consumes (quotedString quote) := by
  unfold quotedString
  infer_instance

instance : Consumes stringLit := by
  unfold stringLit
  infer_instance

instance : Consumes template := by
  unfold template
  infer_instance

instance : Consumes digits := by
  unfold digits
  infer_instance

instance : Consumes number := by
  unfold number
  infer_instance

/-! ## Brackets -/

/-- A value between an opening part that makes progress and a closing part. -/
theorem consumes_between {opening closing : Parser Unit} (p : Parser α) [Consumes opening]
    [Shrinks closing] [Shrinks p] : Consumes (between opening closing p) := by
  unfold between
  infer_instance

/-- Behind the opening part, agreement on shorter texts is enough. -/
theorem agreeBelow_between {opening closing : Parser Unit} {n : Nat} (p q : Parser α)
    [Consumes opening] [Shrinks p] [AgreeBelow n p q] :
    AgreeBelow (n + 1) (between opening closing p) (between opening closing q) := by
  have h : AgreeBelow (n + 1) (opening.skipThen p) (opening.skipThen q) := by
    unfold skipThen
    infer_instance
  unfold between
  infer_instance

instance (p : Parser α) [Shrinks p] : Consumes (inParens p) :=
  have : Consumes (sym "(") := consumes_sym (by decide)
  consumes_between p

instance (p : Parser α) [Shrinks p] : Consumes (inBrackets p) :=
  have : Consumes (sym "[") := consumes_sym (by decide)
  consumes_between p

instance (p : Parser α) [Shrinks p] : Consumes (inBraces p) :=
  have : Consumes (sym "\x7b") := consumes_sym (by decide)
  consumes_between p

instance (p : Parser α) [Shrinks p] : Consumes (inAngles p) :=
  have : Consumes (sym "<") := consumes_sym (by decide)
  consumes_between p

section Brackets

variable {n : Nat}

instance (p q : Parser α) [Shrinks p] [AgreeBelow n p q] :
    AgreeBelow (n + 1) (inParens p) (inParens q) :=
  have : Consumes (sym "(") := consumes_sym (by decide)
  agreeBelow_between p q

instance (p q : Parser α) [Shrinks p] [AgreeBelow n p q] :
    AgreeBelow (n + 1) (inBrackets p) (inBrackets q) :=
  have : Consumes (sym "[") := consumes_sym (by decide)
  agreeBelow_between p q

instance (p q : Parser α) [Shrinks p] [AgreeBelow n p q] :
    AgreeBelow (n + 1) (inBraces p) (inBraces q) :=
  have : Consumes (sym "\x7b") := consumes_sym (by decide)
  agreeBelow_between p q

instance (p q : Parser α) [Shrinks p] [AgreeBelow n p q] :
    AgreeBelow (n + 1) (inAngles p) (inAngles q) :=
  have : Consumes (sym "<") := consumes_sym (by decide)
  agreeBelow_between p q

instance (p q : Parser α) [Shrinks p] [AgreeBelow n p q] :
    AgreeBelow n (inBrackets p) (inBrackets q) := by
  unfold inBrackets between
  infer_instance

instance (p q : Parser α) [Shrinks p] [AgreeBelow n p q] :
    AgreeBelow n (inParens p) (inParens q) := by
  unfold inParens between
  infer_instance

instance (p q : Parser α) [Shrinks p] [AgreeBelow n p q] :
    AgreeBelow n (inBraces p) (inBraces q) := by
  unfold inBraces between
  infer_instance

end Brackets

/-! ## Types -/

instance (p : Parser α) [Shrinks p] : Shrinks (forget p) := by
  unfold forget
  infer_instance

instance (p : Parser α) [Consumes p] : Consumes (forget p) := by
  unfold forget
  infer_instance

instance (n : Nat) (p q : Parser α) [AgreeBelow n p q] : AgreeBelow n (forget p) (forget q) := by
  unfold forget
  infer_instance

section Types

variable (n : Nat) (X Y : Parser Unit) [Shrinks X]

instance : Consumes (typeArgs X) := by
  unfold typeArgs
  infer_instance

instance : Consumes (typeReference X) := by
  unfold typeReference
  infer_instance

instance : Consumes literalType := by
  unfold literalType
  infer_instance

instance : Consumes (memberType X) := by
  unfold memberType
  infer_instance

instance : Consumes (objectType X) := by
  unfold objectType
  infer_instance

instance : Consumes (tupleType X) := by
  unfold tupleType
  infer_instance

instance : Consumes (paramType X) := by
  unfold paramType
  infer_instance

instance : Consumes (functionType X) := by
  unfold functionType
  infer_instance

instance : Consumes (primaryType X) := by
  unfold primaryType parenType
  infer_instance

instance : Consumes (arrayType X) := by
  unfold arrayType
  infer_instance

instance : Consumes (typeBody X) := by
  unfold typeBody
  infer_instance

variable [AgreeBelow n X Y]

instance : AgreeBelow (n + 1) (typeArgs X) (typeArgs Y) := by
  unfold typeArgs
  infer_instance

instance : AgreeBelow (n + 1) (typeReference X) (typeReference Y) := by
  unfold typeReference
  infer_instance

instance : AgreeBelow n (memberType X) (memberType Y) := by
  unfold memberType
  infer_instance

instance : AgreeBelow (n + 1) (objectType X) (objectType Y) := by
  unfold objectType
  infer_instance

instance : AgreeBelow (n + 1) (tupleType X) (tupleType Y) := by
  unfold tupleType
  infer_instance

instance : AgreeBelow n (paramType X) (paramType Y) := by
  unfold paramType
  infer_instance

instance : AgreeBelow (n + 1) (functionType X) (functionType Y) := by
  unfold functionType
  infer_instance

instance : AgreeBelow (n + 1) (primaryType X) (primaryType Y) := by
  unfold primaryType parenType
  infer_instance

instance : AgreeBelow (n + 1) (arrayType X) (arrayType Y) := by
  unfold arrayType
  infer_instance

instance : AgreeBelow (n + 1) (typeBody X) (typeBody Y) := by
  unfold typeBody
  infer_instance

end Types

instance : Consumes typeExpr := consumes_fix fun _ _ => inferInstance

theorem run_typeExpr (s : List Char) : run typeExpr s = run (typeBody typeExpr) s :=
  run_fix_eq (fun _ _ => inferInstance) (fun _ _ _ _ _ _ => inferInstance) s

instance : Shrinks typeAscription := by
  unfold typeAscription
  infer_instance

instance : Shrinks typeParams := by
  unfold typeParams typeParam
  infer_instance

instance (d : Dialect) (p : Parser Unit) [Shrinks p] : Shrinks (whenTyped d p) := by
  unfold whenTyped
  split <;> infer_instance

instance (d : Dialect) : Shrinks (ascription d) := by
  unfold ascription
  infer_instance

instance (d : Dialect) : Shrinks (optionalMark d) := by
  unfold optionalMark
  infer_instance

instance (d : Dialect) : Shrinks (genericParams d) := by
  unfold genericParams
  infer_instance

/-! ## Patterns -/

section Patterns

variable (n : Nat) (d : Dialect) (E E' : Parser Expr) (P P' : Parser Pattern) [Shrinks E]

instance : Consumes (propertyKey E) := by
  unfold propertyKey
  infer_instance

instance : Shrinks (initializer E) := by
  unfold initializer
  infer_instance

section Recursion

variable [Shrinks P]

instance : Shrinks (patternElement E P) := by
  unfold patternElement
  infer_instance

instance : Consumes (arrayPattern E P) := by
  unfold arrayPattern
  infer_instance

instance : Shrinks (patternProperty E P) := by
  unfold patternProperty
  infer_instance

instance : Consumes (objectPattern E P) := by
  unfold objectPattern
  infer_instance

instance : Consumes (patternBody E P) := by
  unfold patternBody
  infer_instance

end Recursion

instance : Consumes (bindingPattern E) := consumes_fix fun _ _ => inferInstance

instance : Consumes (restParam d E) := by
  unfold restParam
  infer_instance

instance : Consumes (plainParam d E) := by
  unfold plainParam
  infer_instance

instance : Consumes (params d E) := by
  unfold params
  infer_instance

variable [AgreeBelow n E E']

instance : AgreeBelow n (propertyKey E) (propertyKey E') := by
  unfold propertyKey
  infer_instance

instance : AgreeBelow n (initializer E) (initializer E') := by
  unfold initializer
  infer_instance

section Recursion

variable [Shrinks P] [AgreeBelow n P P']

instance : AgreeBelow n (patternElement E P) (patternElement E' P') := by
  unfold patternElement
  infer_instance

instance : AgreeBelow (n + 1) (arrayPattern E P) (arrayPattern E' P') := by
  unfold arrayPattern
  infer_instance

instance : AgreeBelow n (patternProperty E P) (patternProperty E' P') := by
  unfold patternProperty
  infer_instance

instance : AgreeBelow (n + 1) (objectPattern E P) (objectPattern E' P') := by
  unfold objectPattern
  infer_instance

instance : AgreeBelow (n + 1) (patternBody E P) (patternBody E' P') := by
  unfold patternBody
  infer_instance

end Recursion

theorem run_bindingPattern (s : List Char) :
    run (bindingPattern E) s = run (patternBody E (bindingPattern E)) s :=
  run_fix_eq (fun _ _ => inferInstance) (fun _ _ _ _ _ _ => inferInstance) s

instance [Shrinks E'] : AgreeBelow n (bindingPattern E) (bindingPattern E') := by
  refine agreeBelow_fix (fun _ _ => inferInstance) (fun _ _ => inferInstance) ?_
  intro X Y m hm _ _ _
  have : AgreeBelow m E E' := AgreeBelow.mono (n := n) inferInstance (by omega)
  infer_instance

variable [Shrinks E']

instance : AgreeBelow n (restParam d E) (restParam d E') := by
  unfold restParam
  infer_instance

instance : AgreeBelow n (plainParam d E) (plainParam d E') := by
  unfold plainParam
  infer_instance

instance : AgreeBelow (n + 1) (params d E) (params d E') := by
  unfold params
  infer_instance

instance : AgreeBelow n (params d E) (params d E') := by
  unfold params
  infer_instance

end Patterns

/-! ## Functions and classes -/

instance : Shrinks asyncMark := by
  unfold asyncMark
  infer_instance

section Callables

variable (n : Nat) (d : Dialect) (E E' : Parser Expr) (B B' : Parser (List Stmt))
  (N : Parser α) [Shrinks E] [Shrinks B]

instance : Shrinks (modifiers d) := by
  unfold modifiers
  infer_instance

instance : Shrinks (implementsClause d) := by
  unfold implementsClause
  infer_instance

instance : Consumes (functionTail d E B) := by
  unfold functionTail
  infer_instance

instance [Shrinks N] : Consumes (functionWith N d E B) := by
  unfold functionWith
  infer_instance

instance : Consumes (methodMember d E B) := by
  unfold methodMember
  infer_instance

instance : Consumes (fieldMember d E) := by
  unfold fieldMember
  infer_instance

instance : Consumes (classMember d E B) := by
  unfold classMember
  infer_instance

instance : Consumes (classMembers d E B) := by
  unfold classMembers
  infer_instance

instance : Consumes (classTail d E B) := by
  unfold classTail
  infer_instance

instance [Shrinks N] : Consumes (classWith N d E B) := by
  unfold classWith
  infer_instance

variable [Shrinks E'] [AgreeBelow n E E'] [AgreeBelow n B B']

instance : AgreeBelow n (functionTail d E B) (functionTail d E' B') := by
  unfold functionTail
  infer_instance

instance [Shrinks N] :
    AgreeBelow (n + 1) (functionWith N d E B) (functionWith N d E' B') := by
  unfold functionWith
  infer_instance

instance : AgreeBelow n (methodMember d E B) (methodMember d E' B') := by
  unfold methodMember
  infer_instance

instance : AgreeBelow n (fieldMember d E) (fieldMember d E') := by
  unfold fieldMember
  infer_instance

instance : AgreeBelow n (classMember d E B) (classMember d E' B') := by
  unfold classMember
  infer_instance

instance : AgreeBelow n (classMembers d E B) (classMembers d E' B') := by
  unfold classMembers
  infer_instance

instance : AgreeBelow n (classTail d E B) (classTail d E' B') := by
  unfold classTail
  infer_instance

instance [Shrinks N] :
    AgreeBelow (n + 1) (classWith N d E B) (classWith N d E' B') := by
  unfold classWith
  infer_instance

end Callables

/-! ## Markup -/

instance : Consumes nameSegment := by
  unfold nameSegment
  infer_instance

instance : Consumes tagName := by
  unfold tagName
  infer_instance

instance : Consumes attributeName := by
  unfold attributeName
  infer_instance

instance : Consumes closingTag := by
  unfold closingTag
  infer_instance

instance : Consumes childText := by
  unfold childText
  infer_instance

section Markup

variable (n : Nat) (E E' : Parser Expr) (L L' : Parser Element) [Shrinks E]

instance : Consumes (container E) := by
  unfold container
  infer_instance

instance : Consumes (childContainer E) := by
  unfold childContainer
  infer_instance

section Recursion

variable [Shrinks L]

instance : Shrinks (attributeValue E L) := by
  unfold attributeValue
  infer_instance

instance : Consumes (elementAttribute E L) := by
  unfold elementAttribute
  infer_instance

instance : Shrinks (child E L) := by
  unfold child
  infer_instance

instance : Consumes (fragment E L) := by
  unfold fragment
  infer_instance

instance : Shrinks (elementBody E L) := by
  unfold elementBody
  infer_instance

instance : Consumes (taggedElement E L) := by
  unfold taggedElement
  infer_instance

instance : Consumes (markupBody E L) := by
  unfold markupBody
  infer_instance

end Recursion

instance : Consumes (element E) := consumes_fix fun _ _ => inferInstance

variable [AgreeBelow n E E']

instance : AgreeBelow n (container E) (container E') := by
  unfold container
  infer_instance

instance : AgreeBelow n (childContainer E) (childContainer E') := by
  unfold childContainer
  infer_instance

section Recursion

variable [Shrinks L] [AgreeBelow n L L']

instance : AgreeBelow n (attributeValue E L) (attributeValue E' L') := by
  unfold attributeValue
  infer_instance

instance : AgreeBelow n (elementAttribute E L) (elementAttribute E' L') := by
  unfold elementAttribute
  infer_instance

instance : AgreeBelow n (child E L) (child E' L') := by
  unfold child
  infer_instance

instance : AgreeBelow (n + 1) (fragment E L) (fragment E' L') := by
  unfold fragment
  infer_instance

instance : AgreeBelow n (elementBody E L) (elementBody E' L') := by
  unfold elementBody
  infer_instance

instance : AgreeBelow (n + 1) (taggedElement E L) (taggedElement E' L') := by
  unfold taggedElement
  infer_instance

instance : AgreeBelow (n + 1) (markupBody E L) (markupBody E' L') := by
  unfold markupBody
  infer_instance

end Recursion

theorem run_element (s : List Char) :
    run (element E) s = run (markupBody E (element E)) s :=
  run_fix_eq (fun _ _ => inferInstance) (fun _ _ _ _ _ _ => inferInstance) s

instance [Shrinks E'] : AgreeBelow (n + 1) (element E) (element E') := by
  refine agreeBelow_fix (fun _ _ => inferInstance) (fun _ _ => inferInstance) ?_
  intro X Y m hm _ _ _
  have : AgreeBelow m E E' := AgreeBelow.mono (n := n) inferInstance (by omega)
  infer_instance

end Markup

/-! ## Expressions -/

instance : Consumes literalExpr := by
  unfold literalExpr
  infer_instance

instance : Consumes unaryOp := by
  have hnot : Consumes (sym "!") := consumes_sym (by decide)
  have hminus : Consumes (sym "-") := consumes_sym (by decide)
  have hplus : Consumes (sym "+") := consumes_sym (by decide)
  unfold unaryOp
  infer_instance

instance : Shrinks multiplicativeOp := by
  unfold multiplicativeOp
  infer_instance

instance : Shrinks additiveOp := by
  unfold additiveOp
  infer_instance

instance : Shrinks relationalOp := by
  unfold relationalOp
  infer_instance

instance : Shrinks equalityOp := by
  unfold equalityOp
  infer_instance

instance : Shrinks assignOp := by
  unfold assignOp
  infer_instance

instance (d : Dialect) : Shrinks (casts d) := by
  unfold casts
  infer_instance

instance (operand : Parser Expr) (op : Parser BinaryOp) [Consumes operand] [Shrinks op] :
    Consumes (binaryLevel operand op) := by
  unfold binaryLevel
  infer_instance

section Expressions

variable (n : Nat) (d : Dialect) (B B' : Parser (List Stmt)) (E E' : Parser Expr)
  [Shrinks B] [Shrinks E]

instance : Shrinks (argument E) := by
  unfold argument
  infer_instance

instance : Consumes (arguments E) := by
  unfold arguments
  infer_instance

instance : Consumes (arrayExpr E) := by
  unfold arrayExpr
  infer_instance

instance : Shrinks (property E) := by
  unfold property
  infer_instance

instance : Consumes (objectExpr E) := by
  unfold objectExpr
  infer_instance

instance : Shrinks (arrowBody E B) := by
  unfold arrowBody
  infer_instance

instance : Consumes (arrowExpr d B E) := by
  unfold arrowExpr
  infer_instance

instance : Consumes (functionExpr d B E) := by
  unfold functionExpr
  infer_instance

instance : Consumes (classExpr d B E) := by
  unfold classExpr
  infer_instance

instance : Consumes (markupExpr d E) := by
  unfold markupExpr
  split <;> infer_instance

instance : Consumes (primary d B E) := by
  unfold primary
  infer_instance

instance : Consumes (memberSuffix E) := by
  unfold memberSuffix
  infer_instance

instance : Consumes (callSuffix E) := by
  unfold callSuffix
  infer_instance

instance : Consumes (newExpr d B E) := by
  unfold newExpr
  infer_instance

instance : Consumes (postfixExpr d B E) := by
  unfold postfixExpr
  infer_instance

instance : Consumes (unaryExpr d B E) := by
  unfold unaryExpr
  infer_instance

instance : Consumes (multiplicative d B E) := by
  unfold multiplicative
  infer_instance

instance : Consumes (additive d B E) := by
  unfold additive
  infer_instance

instance : Consumes (relational d B E) := by
  unfold relational
  infer_instance

instance : Consumes (equality d B E) := by
  unfold equality
  infer_instance

instance : Consumes (conjunction d B E) := by
  unfold conjunction
  infer_instance

instance : Consumes (disjunction d B E) := by
  unfold disjunction
  infer_instance

instance : Consumes (nullish d B E) := by
  unfold nullish
  infer_instance

instance : Consumes (conditional d B E) := by
  unfold conditional
  infer_instance

instance : Consumes (expressionBody d B E) := by
  unfold expressionBody
  infer_instance

variable [Shrinks E'] [AgreeBelow n E E'] [AgreeBelow n B B']

instance : AgreeBelow n (argument E) (argument E') := by
  unfold argument
  infer_instance

instance : AgreeBelow (n + 1) (arguments E) (arguments E') := by
  unfold arguments
  infer_instance

instance : AgreeBelow n (arguments E) (arguments E') := by
  unfold arguments
  infer_instance

instance : AgreeBelow (n + 1) (arrayExpr E) (arrayExpr E') := by
  unfold arrayExpr
  infer_instance

instance : AgreeBelow n (property E) (property E') := by
  unfold property
  infer_instance

instance : AgreeBelow (n + 1) (objectExpr E) (objectExpr E') := by
  unfold objectExpr
  infer_instance

instance : AgreeBelow n (arrowBody E B) (arrowBody E' B') := by
  unfold arrowBody
  infer_instance

instance : AgreeBelow (n + 1) (arrowExpr d B E) (arrowExpr d B' E') := by
  unfold arrowExpr
  infer_instance

instance : AgreeBelow (n + 1) (functionExpr d B E) (functionExpr d B' E') := by
  unfold functionExpr
  infer_instance

instance : AgreeBelow (n + 1) (classExpr d B E) (classExpr d B' E') := by
  unfold classExpr
  infer_instance

instance : AgreeBelow (n + 1) (markupExpr d E) (markupExpr d E') := by
  unfold markupExpr
  split <;> infer_instance

instance : AgreeBelow (n + 1) (primary d B E) (primary d B' E') := by
  unfold primary
  infer_instance

instance : AgreeBelow n (memberSuffix E) (memberSuffix E') := by
  unfold memberSuffix
  infer_instance

instance : AgreeBelow n (callSuffix E) (callSuffix E') := by
  unfold callSuffix
  infer_instance

instance : AgreeBelow (n + 1) (newExpr d B E) (newExpr d B' E') := by
  have : AgreeBelow n (primary d B E) (primary d B' E') :=
    AgreeBelow.mono (n := n + 1) inferInstance (by omega)
  unfold newExpr
  infer_instance

instance : AgreeBelow (n + 1) (postfixExpr d B E) (postfixExpr d B' E') := by
  unfold postfixExpr
  infer_instance

instance : AgreeBelow (n + 1) (unaryExpr d B E) (unaryExpr d B' E') := by
  unfold unaryExpr
  infer_instance

instance : AgreeBelow (n + 1) (multiplicative d B E) (multiplicative d B' E') := by
  unfold multiplicative binaryLevel
  infer_instance

instance : AgreeBelow (n + 1) (additive d B E) (additive d B' E') := by
  unfold additive binaryLevel
  infer_instance

instance : AgreeBelow (n + 1) (relational d B E) (relational d B' E') := by
  unfold relational binaryLevel
  infer_instance

instance : AgreeBelow (n + 1) (equality d B E) (equality d B' E') := by
  unfold equality binaryLevel
  infer_instance

instance : AgreeBelow (n + 1) (conjunction d B E) (conjunction d B' E') := by
  unfold conjunction binaryLevel
  infer_instance

instance : AgreeBelow (n + 1) (disjunction d B E) (disjunction d B' E') := by
  unfold disjunction binaryLevel
  infer_instance

instance : AgreeBelow (n + 1) (nullish d B E) (nullish d B' E') := by
  unfold nullish binaryLevel
  infer_instance

instance : AgreeBelow (n + 1) (conditional d B E) (conditional d B' E') := by
  unfold conditional
  infer_instance

instance : AgreeBelow (n + 1) (expressionBody d B E) (expressionBody d B' E') := by
  unfold expressionBody
  infer_instance

end Expressions

instance (d : Dialect) (B : Parser (List Stmt)) [Shrinks B] : Consumes (expression d B) :=
  consumes_fix fun _ _ => inferInstance

theorem run_expression (d : Dialect) (B : Parser (List Stmt)) [Shrinks B] (s : List Char) :
    run (expression d B) s = run (expressionBody d B (expression d B)) s :=
  run_fix_eq (fun _ _ => inferInstance) (fun _ _ _ _ _ _ => inferInstance) s

instance (n : Nat) (d : Dialect) (B B' : Parser (List Stmt)) [Shrinks B] [Shrinks B']
    [AgreeBelow n B B'] : AgreeBelow (n + 1) (expression d B) (expression d B') := by
  refine agreeBelow_fix (fun _ _ => inferInstance) (fun _ _ => inferInstance) ?_
  intro X Y m hm _ _ _
  have : AgreeBelow m B B' := AgreeBelow.mono (n := n) inferInstance (by omega)
  infer_instance

/-! ## Statements and modules -/

section Statements

variable (n : Nat) (d : Dialect) (S S' : Parser Stmt) (E E' : Parser Expr)
  (B B' : Parser (List Stmt)) [Shrinks S] [Shrinks E] [Shrinks B]

instance : Consumes (blockOf S) := by
  unfold blockOf
  infer_instance

instance : Consumes (declarator d E) := by
  unfold declarator
  infer_instance

instance : Consumes (varDecl d E) := by
  unfold varDecl
  infer_instance

instance : Consumes (functionDecl d E B) := by
  unfold functionDecl
  infer_instance

instance : Consumes (classDecl d E B) := by
  unfold classDecl
  infer_instance

instance : Consumes typeAlias := by
  unfold typeAlias
  infer_instance

instance : Consumes interfaceDecl := by
  unfold interfaceDecl
  infer_instance

instance : Consumes (runtimeDecl d E B) := by
  unfold runtimeDecl
  infer_instance

instance : Consumes (declaration d E B) := by
  unfold declaration
  split <;> infer_instance

instance : Consumes (returnStmt E) := by
  unfold returnStmt
  infer_instance

instance : Consumes (branchStmt E S) := by
  unfold branchStmt
  infer_instance

instance : Consumes (throwStmt E) := by
  unfold throwStmt
  infer_instance

instance : Consumes (statementBody d S) := by
  have : Consumes (sym ";") := consumes_sym (by decide)
  unfold statementBody
  infer_instance

section Agreement

variable [Shrinks E'] [AgreeBelow n E E'] [AgreeBelow n B B'] [AgreeBelow n S S']

instance : AgreeBelow (n + 1) (blockOf S) (blockOf S') := by
  unfold blockOf
  infer_instance

instance : AgreeBelow n (declarator d E) (declarator d E') := by
  unfold declarator
  infer_instance

instance : AgreeBelow (n + 1) (varDecl d E) (varDecl d E') := by
  unfold varDecl
  infer_instance

instance : AgreeBelow (n + 1) (functionDecl d E B) (functionDecl d E' B') := by
  unfold functionDecl
  infer_instance

instance : AgreeBelow (n + 1) (classDecl d E B) (classDecl d E' B') := by
  unfold classDecl
  infer_instance

instance : AgreeBelow (n + 1) (runtimeDecl d E B) (runtimeDecl d E' B') := by
  unfold runtimeDecl
  infer_instance

instance : AgreeBelow (n + 1) (declaration d E B) (declaration d E' B') := by
  unfold declaration
  split <;> infer_instance

instance : AgreeBelow (n + 1) (returnStmt E) (returnStmt E') := by
  unfold returnStmt
  infer_instance

instance : AgreeBelow (n + 1) (branchStmt E S) (branchStmt E' S') := by
  unfold branchStmt
  infer_instance

instance : AgreeBelow (n + 1) (throwStmt E) (throwStmt E') := by
  unfold throwStmt
  infer_instance

end Agreement

instance [Shrinks S'] [AgreeBelow n S S'] :
    AgreeBelow (n + 1) (statementBody d S) (statementBody d S') := by
  have hB : AgreeBelow n (blockOf S) (blockOf S') :=
    AgreeBelow.mono (n := n + 1) inferInstance (by omega)
  have hE : AgreeBelow n (expression d (blockOf S)) (expression d (blockOf S')) :=
    AgreeBelow.mono (n := n + 1) inferInstance (by omega)
  unfold statementBody
  infer_instance

end Statements

instance (d : Dialect) : Consumes (statement d) := consumes_fix fun _ _ => inferInstance

theorem run_statement (d : Dialect) (s : List Char) :
    run (statement d) s = run (statementBody d (statement d)) s :=
  run_fix_eq (fun _ _ => inferInstance) (fun _ _ _ _ _ _ => inferInstance) s

instance : Consumes namedImport := by
  unfold namedImport
  infer_instance

instance : Consumes exportSpecifier := by
  unfold exportSpecifier
  infer_instance

instance (d : Dialect) : Consumes (importDecl d) := by
  have : Shrinks (typeOnlyMark d) := by
    unfold typeOnlyMark
    split <;> infer_instance
  unfold importDecl importClause defaultImport starImport importList
  infer_instance

instance (d : Dialect) (E : Parser Expr) (B : Parser (List Stmt)) [Shrinks E] [Shrinks B] :
    Consumes (exportDecl d E B) := by
  unfold exportDecl defaultExport exportAll exportList
  infer_instance

instance (d : Dialect) : Consumes (moduleItem d) := by
  unfold moduleItem
  infer_instance

end TsxCompiler.Grammar
