import TsxCompiler.Emit.Error
import TsxCompiler.Lower.MarkupText
import TsxCompiler.Text.CharClass
import TsxCompiler.Tree.Build
import TsxCompiler.Tree.Traverse

/-!
# Markup as calls

An element becomes a call of the pragma with its tag, its attributes as an object and its children:
`<Tag a="1" {...rest}>text{x}</Tag>` is `pragma(Tag, { a: "1", ...rest }, "text", x)`. Tags that
start in lower case or have a dash are passed as strings; a fragment has a pragma of its own.
-/

namespace TsxCompiler

open Text

/-- What elements and fragments are made with. -/
structure Pragma where
  element : String
  fragment : String
deriving DecidableEq, Repr

/-- Whether a text is a dotted path of identifiers. -/
def isDottedPath (path : String) : Bool :=
  (parts '.' path).all isIdentifier

/-- The pragma as it is usually set. -/
def Pragma.standard : Pragma := ⟨"React.createElement", "React.Fragment"⟩

/-- What a tag stands for. -/
def tagExpr (name : String) : Expr :=
  let chars := name.toList
  if chars.contains '-' || (!chars.contains '.' && chars.head?.any Char.isLower) then
    .ofString name
  else .ofPath name

/-- The property name for an attribute. -/
def attributeKey (name : String) : PropertyKey :=
  if isIdentifier name then .ident name else .string (.ofValue name)

mutual

/-- The call that makes an element. -/
def Element.toCall (pragma : Pragma) : Element → Expr
  | ⟨name, attributes, children, _⟩ =>
    .apply (.ofPath pragma.element)
      ((match name with
          | some name => tagExpr name
          | none => .ofPath pragma.fragment) ::
        (if attributes.isEmpty then .lit .null
          else .object (Attribute.toProperties pragma attributes)) ::
        Child.toArguments pragma children)

/-- The properties that attributes set. -/
def Attribute.toProperties (pragma : Pragma) : List Attribute → List Property
  | [] => []
  | .spread value :: rest => .spread value :: Attribute.toProperties pragma rest
  | .named name none :: rest =>
    .keyed (attributeKey name) (.ofBool true) :: Attribute.toProperties pragma rest
  | .named name (some value) :: rest =>
    .keyed (attributeKey name) (value.toExpr pragma) :: Attribute.toProperties pragma rest

/-- The value of an attribute. -/
def AttributeValue.toExpr (pragma : Pragma) : AttributeValue → Expr
  | .string lit => .lit (.string lit)
  | .expr value => value
  | .element element => element.toCall pragma

/-- The arguments that children make. Empty containers and text that is only layout make none. -/
def Child.toArguments (pragma : Pragma) : List Child → List Expr
  | [] => []
  | .text raw :: rest =>
    match MarkupText.normalize raw.toList with
    | some text => .ofString (String.ofList text) :: Child.toArguments pragma rest
    | none => Child.toArguments pragma rest
  | .expr none :: rest => Child.toArguments pragma rest
  | .expr (some value) :: rest => value :: Child.toArguments pragma rest
  | .element element :: rest => element.toCall pragma :: Child.toArguments pragma rest

end

/-- An expression whose parts hold no markup any more, without the markup at its top. -/
def Expr.lowerMarkup (pragma : Pragma) : Expr → Expr
  | .jsx element => element.toCall pragma
  | e => e

/-- A module with calls in place of its markup. -/
def Program.lowerMarkup (pragma : Pragma) (p : Program) : Except EmitError Program :=
  if !isDottedPath pragma.element then .error (.invalidPragma pragma.element)
  else if !isDottedPath pragma.fragment then .error (.invalidPragma pragma.fragment)
  else .ok (p.mapExprs (Expr.lowerMarkup pragma))

end TsxCompiler
