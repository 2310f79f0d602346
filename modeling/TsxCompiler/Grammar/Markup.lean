import TsxCompiler.Grammar.TypeExpr

/-!
# Markup

Elements, fragments, attributes and children. Blanks between the tags of an element are part of its
text, so an element does not read the blanks behind it; the expression rule does that after the
outermost one.
-/

namespace TsxCompiler.Grammar

open Peg Peg.Parser Text

/-! ## Names -/

/-- A name that may have dashes in it. -/
def nameSegment : Parser String :=
  both (fun c cs => String.ofList (c :: cs)) (satisfy isWordStart)
    (many (satisfy fun c => isWordPart c || c == '-'))

/-- A tag name: `div`, `my-element`, `Foo.Bar`. -/
def tagName : Parser String :=
  ((sepBy1 (char '.') nameSegment).map ".".intercalate).label "tag name"

/-- An attribute name, which may have a namespace: `xlink:href`. -/
def attributeName : Parser String :=
  (both (fun name rest => match rest with
      | some own => name ++ ":" ++ own
      | none => name)
    nameSegment ((char ':').skipThen nameSegment).optional).label "attribute name"

/-- A closing tag, as the name in it; a fragment closes without one. -/
def closingTag : Parser String :=
  ((((((char '<').seq trivia).seq (char '/')).skipThen trivia).skipThen
    (lexeme tagName).optional).thenSkip (char '>')).map fun name => name.getD ""

/-! ## Attributes and children -/

/-- An expression in braces. -/
def container (expr : Parser Expr) : Parser Expr :=
  (((char '{').skipThen trivia).skipThen expr).thenSkip (char '}')

/-- What an attribute may be set to. -/
def attributeValue (expr : Parser Expr) (element : Parser Element) : Parser AttributeValue :=
  choice (stringLit.map AttributeValue.string)
    [ (lexeme (container expr)).map AttributeValue.expr,
      (lexeme element).map AttributeValue.element ]

/-- A spread or a named attribute. -/
def elementAttribute (expr : Parser Expr) (element : Parser Element) : Parser Attribute :=
  choice
    ((lexeme ((((((char '{').skipThen trivia).skipThen (sym "...")).skipThen expr)).thenSkip
      (char '}'))).map Attribute.spread)
    [ both Attribute.named (lexeme attributeName)
        ((sym "=").skipThen (attributeValue expr element)).optional ]

/-- Text up to the next tag or container. -/
def childText : Parser Child :=
  (many1 (satisfy fun c => c != '<' && c != '{')).map fun cs => .text (String.ofList cs)

/-- A container between tags, which may be empty. -/
def childContainer (expr : Parser Expr) : Parser Child :=
  ((((char '{').skipThen trivia).skipThen expr.optional).thenSkip (char '}')).map Child.expr

/-- Text, a container or an element. -/
def child (expr : Parser Expr) (element : Parser Element) : Parser Child :=
  choice childText [childContainer expr, element.map Child.element]

/-! ## Elements -/

/-- `<>…</>` -/
def fragment (expr : Parser Expr) (element : Parser Element) : Parser Element :=
  (((((char '<').seq trivia).seq (char '>')).skipThen
    (many (child expr element))).seq closingTag).check fun (children, closing) =>
      if closing = "" then .ok ⟨none, [], children, false⟩
      else .error ("expected '</>' to close fragment, found '</" ++ closing ++ ">'")

/-- What follows the attributes of an element: `/>`, or children and a closing tag. -/
def elementBody (expr : Parser Expr) (element : Parser Element) :
    Parser (Option (List Child × String)) :=
  choice ((literal "/>").yielding none)
    [(((char '>').skipThen (many (child expr element))).seq closingTag).map some]

/-- An element from its name, its attributes and what follows them; the closing tag has to repeat
the name. -/
def closeElement (name : String) (attributes : List Attribute) :
    Option (List Child × String) → Except String Element
  | none => .ok ⟨some name, attributes, [], true⟩
  | some (children, closing) =>
    if closing = name then .ok ⟨some name, attributes, children, false⟩
    else .error ("expected '</" ++ name ++ ">', found '</" ++ closing ++ ">'")

/-- `<name …>…</name>` or `<name … />` -/
def taggedElement (expr : Parser Expr) (element : Parser Element) : Parser Element :=
  (((((char '<').skipThen trivia).skipThen (lexeme tagName)).seq
    (many (elementAttribute expr element))).seq (elementBody expr element)).check
      fun ((name, attributes), body) => closeElement name attributes body

/-- The body of the recursive rule for elements. -/
def markupBody (expr : Parser Expr) (element : Parser Element) : Parser Element :=
  (fragment expr element).orElse (taggedElement expr element)

/-- An element or a fragment. -/
def element (expr : Parser Expr) : Parser Element := fix (markupBody expr)

end TsxCompiler.Grammar
