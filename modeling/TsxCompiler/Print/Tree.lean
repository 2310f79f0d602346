import TsxCompiler.Print.Power
import TsxCompiler.Text.Quoted

/-!
# Printing statements and expressions

One statement per line, four blanks per level. The level is the last argument of every function
here; the text starts at the cursor, so it is indented only from its second line on.
-/

namespace TsxCompiler

/-! ## Pieces of text -/

namespace Print

/-- The blanks in front of a line at a level. -/
def indentation (level : Nat) : String :=
  String.join (List.replicate level "    ")

/-- A line at a level. -/
def line (text : String) (level : Nat) : String :=
  indentation level ++ text ++ "\n"

/-- Texts with commas between them. -/
def commaList (texts : List String) : String :=
  ", ".intercalate texts

/-- A text in parentheses. -/
def parens (text : String) : String :=
  "(" ++ text ++ ")"

/-- Entries of an object or an object pattern in braces. -/
def bracesAround (entries : List String) : String :=
  if entries.isEmpty then "\x7b\x7d" else "\x7b " ++ commaList entries ++ " \x7d"

/-- Lines in braces, the closing one on a line of its own. -/
def blockAround (lines : String) (level : Nat) : String :=
  "\x7b\n" ++ lines ++ indentation level ++ "\x7d"

/-- A name behind a keyword, if there is one. -/
def nameAfter : Option String → String
  | some name => " " ++ name
  | none => ""

/-- A text where a condition holds and nothing elsewhere. -/
def textIf (condition : Bool) (text : String) : String :=
  if condition then text else ""

end Print

open Print

/-- A string literal: as it was written, or quoted from its value. -/
def StringLit.print (s : StringLit) : String :=
  match s.raw with
  | some raw => raw
  | none => Text.quote s.value

/-- A literal. -/
def Literal.print : Literal → String
  | .string lit => lit.print
  | .number text => text
  | .bool true => "true"
  | .bool false => "false"
  | .null => "null"
  | .template raw => "`" ++ raw ++ "`"

/-- The text of an expression where at least the given power is needed. -/
def Expr.guarded (e : Expr) (power : Nat) (text : String) : String :=
  if e.power < power then parens text else text

/-- The text of an expression at the start of a statement. -/
def Expr.unambiguous (e : Expr) (text : String) : String :=
  if e.startsAmbiguously then parens text else text

/-- The power that the left operand of an operator needs. `??` may not be mixed with `||` and `&&`
without parentheses. -/
def BinaryOp.leftPower (op : BinaryOp) : Nat :=
  if op = .nullish then BinaryOp.and.precedence + 1 else op.precedence

/-- The power that the right operand of an operator needs. -/
def BinaryOp.rightPower (op : BinaryOp) : Nat :=
  max op.leftPower (op.precedence + 1)

/-- A statement as a line of its own, given its text at a level. -/
def Stmt.asLine (s : Stmt) (text : Nat → String) (level : Nat) : String :=
  if s.isErased then "" else line (text level) level

/-- A statement in braces, given its text at a level. -/
def Stmt.asBlock (s : Stmt) (text : Nat → String) (level : Nat) : String :=
  if s.isBlock then text level
  else if s.isErased then "\x7b\x7d"
  else blockAround (line (text (level + 1)) (level + 1)) level

/-- A statement behind `else`, given its text at a level: another `if` goes on on the same line. -/
def Stmt.asElse (s : Stmt) (text : Nat → String) (level : Nat) : String :=
  if s.isBranch then text level else s.asBlock text level

/-! ## The tree -/

mutual

/-- The text of an expression, without parentheses around it. -/
def Expr.print : Expr → Nat → String
  | .this, _ => "this"
  | .ident name, _ => name
  | .lit value, _ => value.print
  | .array elems, level => "[" ++ commaList (Argument.printAll elems level) ++ "]"
  | .object props, level => bracesAround (Property.printAll props level)
  | .func name body, level => body.print ("function" ++ nameAfter name) level
  | .arrow isAsync params body, level =>
    textIf isAsync "async " ++ parens (commaList (Pattern.printAll params level)) ++ " => " ++
      body.print level
  | .classExpr name body, level => "class" ++ nameAfter name ++ body.print level
  | .call callee args optional, level =>
    callee.guarded Power.access (callee.print level) ++ textIf optional "?." ++
      parens (commaList (Argument.printAll args level))
  | .new callee args, level =>
    "new " ++
      (if callee.isCall then parens (callee.print level)
        else callee.guarded Power.access (callee.print level)) ++
      parens (commaList (match args with
        | some args => Argument.printAll args level
        | none => []))
  | .member object key optional, level =>
    object.guarded Power.access (object.print level) ++ key.print optional level
  | .unary op arg, level =>
    op.symbol ++ textIf (op.isWord || (op.isSign && arg.isSigned)) " " ++
      arg.guarded Power.unary (arg.print level)
  | .binary op left right, level =>
    left.guarded op.leftPower (left.print level) ++ " " ++ op.symbol ++ " " ++
      right.guarded op.rightPower (right.print level)
  | .cond test cons alt, level =>
    test.guarded (Power.conditional + 1) (test.print level) ++ " ? " ++
      cons.guarded Power.assignment (cons.print level) ++ " : " ++
      alt.guarded Power.assignment (alt.print level)
  | .assign op target value, level =>
    target.guarded Power.access (target.print level) ++ " " ++ op.symbol ++ " " ++
      value.guarded Power.assignment (value.print level)
  | .jsx element, level => element.print level

/-- The text of an element of an array or argument list. -/
def Argument.print : Argument → Nat → String
  | ⟨spread, value⟩, level =>
    textIf spread "..." ++ value.guarded Power.assignment (value.print level)

def Argument.printAll : List Argument → Nat → List String
  | [], _ => []
  | a :: rest, level => a.print level :: Argument.printAll rest level

/-- The text of an entry of an object literal. -/
def Property.print : Property → Nat → String
  | .spread value, level => "..." ++ value.guarded Power.assignment (value.print level)
  | .keyed key value, level =>
    key.print level ++ ": " ++ value.guarded Power.assignment (value.print level)
  | .shorthand name, _ => name

def Property.printAll : List Property → Nat → List String
  | [], _ => []
  | p :: rest, level => p.print level :: Property.printAll rest level

/-- The text of a property name. -/
def PropertyKey.print : PropertyKey → Nat → String
  | .ident name, _ => name
  | .string lit, _ => lit.print
  | .number text, _ => text
  | .computed value, level =>
    "[" ++ value.guarded Power.assignment (value.print level) ++ "]"

/-- The text of a member access behind its object. -/
def MemberKey.print : MemberKey → Bool → Nat → String
  | .ident name, optional, _ => (if optional then "?." else ".") ++ name
  | .computed value, optional, level =>
    textIf optional "?." ++ "[" ++ value.print level ++ "]"

/-- The text behind the `=>` of an arrow function. -/
def ArrowBody.print : ArrowBody → Nat → String
  | .block stmts, level => Stmt.printBlock stmts level
  | .expr value, level =>
    if value.startsAmbiguously then parens (value.print level)
    else value.guarded Power.assignment (value.print level)

/-- The text of a pattern. -/
def Pattern.print : Pattern → Nat → String
  | .ident name, _ => name
  | .array elems, level => "[" ++ commaList (Pattern.printAll elems level) ++ "]"
  | .object props, level => bracesAround (PatternProperty.printAll props level)
  | .withDefault target value, level =>
    target.print level ++ " = " ++ value.guarded Power.assignment (value.print level)
  | .rest target, level => "..." ++ target.print level

def Pattern.printAll : List Pattern → Nat → List String
  | [], _ => []
  | p :: rest, level => p.print level :: Pattern.printAll rest level

/-- The text of an entry of an object pattern. -/
def PatternProperty.print : PatternProperty → Nat → String
  | .keyed key target, level => key.print level ++ ": " ++ target.print level
  | .shorthand name none, _ => name
  | .shorthand name (some value), level =>
    name ++ " = " ++ value.guarded Power.assignment (value.print level)
  | .rest target, level => "..." ++ target.print level

def PatternProperty.printAll : List PatternProperty → Nat → List String
  | [], _ => []
  | p :: rest, level => p.print level :: PatternProperty.printAll rest level

/-- The text of a function, given what stands between `async` and its parameters. -/
def Func.print : Func → String → Nat → String
  | ⟨isAsync, params, body⟩, head, level =>
    textIf isAsync "async " ++ head ++ parens (commaList (Pattern.printAll params level)) ++ " " ++
      Stmt.printBlock body level

/-- The text of a class behind its name. -/
def ClassBody.print : ClassBody → Nat → String
  | ⟨superClass, members⟩, level =>
    (match superClass with
      | some value => " extends " ++ value.guarded Power.access (value.print level)
      | none => "") ++
    (if members.isEmpty then " \x7b\x7d"
      else " " ++ blockAround (ClassMember.printAll members (level + 1)) level)

/-- The text of a class member. -/
def ClassMember.print : ClassMember → Nat → String
  | .method key body isStatic, level =>
    textIf isStatic "static " ++ body.print (key.print level) level
  | .field key none isStatic, level => textIf isStatic "static " ++ key.print level ++ ";"
  | .field key (some value) isStatic, level =>
    textIf isStatic "static " ++ key.print level ++ " = " ++
      value.guarded Power.assignment (value.print level) ++ ";"

def ClassMember.printAll : List ClassMember → Nat → String
  | [], _ => ""
  | m :: rest, level => line (m.print level) level ++ ClassMember.printAll rest level

/-- The text of a statement from its first character to its last. -/
def Stmt.print : Stmt → Nat → String
  | .block stmts, level => Stmt.printBlock stmts level
  | .decl decl, level => decl.print level
  | .expr value, level => value.unambiguous (value.print level) ++ ";"
  | .ret none, _ => "return;"
  | .ret (some value), level => "return " ++ value.print level ++ ";"
  | .branch test cons none, level =>
    "if (" ++ test.print level ++ ") " ++ cons.asBlock cons.print level
  | .branch test cons (some alt), level =>
    "if (" ++ test.print level ++ ") " ++ cons.asBlock cons.print level ++ " else " ++
      alt.asElse alt.print level
  | .throw value, level => "throw " ++ value.print level ++ ";"
  | .empty, _ => ""

/-- The lines of a list of statements. -/
def Stmt.printAll : List Stmt → Nat → String
  | [], _ => ""
  | s :: rest, level => s.asLine s.print level ++ Stmt.printAll rest level

/-- Statements in braces. -/
def Stmt.printBlock : List Stmt → Nat → String
  | [], _ => "\x7b\x7d"
  | s :: rest, level =>
    if s.isErased && rest.all Stmt.isErased then "\x7b\x7d"
    else blockAround (s.asLine s.print (level + 1) ++ Stmt.printAll rest (level + 1)) level

/-- The text of a declaration. -/
def Decl.print : Decl → Nat → String
  | .var kind declarators, level =>
    kind.keyword ++ " " ++ commaList (Declarator.printAll declarators level) ++ ";"
  | .func name body, level => body.print ("function " ++ name) level
  | .classDecl name body, level => "class " ++ name ++ body.print level
  | .typeDecl _, _ => ""

/-- The text of a declared pattern with its initial value. -/
def Declarator.print : Declarator → Nat → String
  | ⟨target, none⟩, level => target.print level
  | ⟨target, some value⟩, level =>
    target.print level ++ " = " ++ value.guarded Power.assignment (value.print level)

def Declarator.printAll : List Declarator → Nat → List String
  | [], _ => []
  | d :: rest, level => d.print level :: Declarator.printAll rest level

/-- The text of an element. -/
def Element.print : Element → Nat → String
  | ⟨name, attributes, children, selfClosing⟩, level =>
    "<" ++ name.getD "" ++ Attribute.printAll attributes level ++
      (if selfClosing then " />"
        else ">" ++ Child.printAll children level ++ "</" ++ name.getD "" ++ ">")

/-- The text of an attribute. -/
def Attribute.print : Attribute → Nat → String
  | .named name none, _ => name
  | .named name (some value), level => name ++ "=" ++ value.print level
  | .spread value, level =>
    "\x7b..." ++ value.guarded Power.assignment (value.print level) ++ "\x7d"

def Attribute.printAll : List Attribute → Nat → String
  | [], _ => ""
  | a :: rest, level => " " ++ a.print level ++ Attribute.printAll rest level

/-- The text of what an attribute is set to. -/
def AttributeValue.print : AttributeValue → Nat → String
  | .string lit, _ => lit.print
  | .expr value, level => "\x7b" ++ value.guarded Power.assignment (value.print level) ++ "\x7d"
  | .element element, level => element.print level

/-- The text of what stands between the tags of an element. -/
def Child.print : Child → Nat → String
  | .text raw, _ => raw
  | .expr none, _ => "\x7b\x7d"
  | .expr (some value), level =>
    "\x7b" ++ value.guarded Power.assignment (value.print level) ++ "\x7d"
  | .element element, level => element.print level

def Child.printAll : List Child → Nat → String
  | [], _ => ""
  | c :: rest, level => c.print level ++ Child.printAll rest level

end

end TsxCompiler
