import TsxCompiler.Highlight.Token
import TsxCompiler.Settings.Error

/-!
# Themes

A theme gives every token class a style, and shows code by writing the style around each token.
-/

namespace TsxCompiler

/-- A style for every token class. -/
structure Theme where
  style : TokenClass → Style

namespace Theme

/-- The theme that writes nothing. -/
def plain : Theme := ⟨fun _ => .plain⟩

/-- A theme with another style for one class. -/
def set (theme : Theme) (tokenClass : TokenClass) (style : Style) : Theme :=
  ⟨fun c => if c = tokenClass then style else theme.style c⟩

/-- The colors that are used unless settings say otherwise. -/
def palette : TokenClass → StyleSpec
  | .keyword => .ofColor "blue"
  | .string => .ofColor "green"
  | .comment => { StyleSpec.ofColor "dark_grey" with italic := true }
  | .identifier => .plain
  | .punctuation => .ofColor "dark_cyan"
  | .plain => .plain

/-- The theme of the palette. -/
def standard : Theme := ⟨fun c => ((palette c).toStyle.toOption).getD .plain⟩

/-- Sets the style of the class with a name. -/
def setNamed (theme : Theme) (name : String) (spec : StyleSpec) : Except ConfigError Theme :=
  match TokenClass.ofName? name with
  | none => .error (.invalidStyle name .notATokenClass)
  | some tokenClass =>
    match spec.toStyle with
    | .ok style => .ok (theme.set tokenClass style)
    | .error cause => .error (.invalidStyle name cause)

/-- The standard theme with the given styles in place of its own; the first problem is reported. -/
def ofSpecs (specs : List (String × StyleSpec)) : Except ConfigError Theme :=
  specs.foldlM (fun theme (name, spec) => theme.setNamed name spec) standard

/-- A token in its style. -/
def renderToken (theme : Theme) (token : Token) : String :=
  (theme.style token.tokenClass).opening ++ token.text ++ (theme.style token.tokenClass).closing

/-- Tokens in their styles, one after the other. -/
def render (theme : Theme) (tokens : List Token) : String :=
  String.join (tokens.map theme.renderToken)

end Theme

end TsxCompiler
