import TsxCompiler.Text.CharClass

/-!
# The nesting limit

Reading a module recurses once per open bracket or element, so a text that opens too many of them at
once is turned away before it is read. The scan knows strings and comments, which may hold any
bracket, and takes `<` for a tag only where an expression can start.
-/

namespace TsxCompiler.Nesting

open Text

/-- How many brackets and elements may be open at once. -/
def maxDepth : Nat := 128

/-- Whether a `<` between these two characters starts an element: the one before it has to leave
room for an expression, which rules out comparisons and type arguments. -/
def opensTag (prev : Option Char) (next : Char) : Bool :=
  (match prev with
    | none => true
    | some p => "([\x7b,=>?:;&|!".toList.contains p) && (isAlphabetic next || next == '>')

/-- The depth after a character of code that starts neither a string nor a comment nor a closing
tag. -/
def depthAfter (depth : Nat) (prev : Option Char) (c : Char) (next : Option Char) : Nat :=
  if c = '(' || c = '[' || c = '{' then depth + 1
  else if c = ')' || c = ']' || c = '}' || (c = '/' && next = some '>') then depth - 1
  else if c = '<' && next.any (opensTag prev) then depth + 1
  else depth

/-- The first index from `i` on where the test accepts a character and the one behind it. -/
def seek (chars : Array Char) (stop : Char → Option Char → Bool) (i : Nat) : Nat :=
  if h : i < chars.size then
    if stop chars[i] chars[i + 1]? then i else seek chars stop (i + 1)
  else i
termination_by chars.size - i

/-- The index behind a string, from an index behind its opening quote on. A line break ends a quoted
string, so that the apostrophe of a text cannot hide the rest of it. -/
def skipString (chars : Array Char) (quote : Char) (i : Nat) : Nat :=
  if h : i < chars.size then
    if chars[i] = '\\' then skipString chars quote (i + 2)
    else if chars[i] = '\n' && quote != '\x60' then i
    else if chars[i] = quote then i + 1
    else skipString chars quote (i + 1)
  else chars.size
termination_by chars.size - i

theorem le_seek (chars : Array Char) (stop : Char → Option Char → Bool) (i : Nat) :
    i ≤ seek chars stop i := by
  fun_induction seek chars stop i with
  | case1 => exact Nat.le_refl _
  | case2 i _ _ ih => exact Nat.le_of_succ_le ih
  | case3 => exact Nat.le_refl _

theorem lt_seek {chars : Array Char} {stop : Char → Option Char → Bool} {i : Nat}
    (h : i < chars.size) (hstop : stop chars[i] chars[i + 1]? = false) : i < seek chars stop i := by
  rw [seek, dif_pos h, hstop]
  exact le_seek chars stop (i + 1)

theorem min_le_skipString (chars : Array Char) (quote : Char) (i : Nat) :
    min i chars.size ≤ skipString chars quote i := by
  fun_induction skipString chars quote i with
  | case1 i _ _ ih => omega
  | case2 => omega
  | case3 => omega
  | case4 i _ _ _ _ ih => omega
  | case5 => omega

/-- Goes on from index `i` with so many brackets and elements open. The last character of code that
was not a blank is `prev`; for a string, it is its quote. -/
def scan (chars : Array Char) (depth : Nat) (prev : Option Char) (i : Nat) : Option Nat :=
  if h : i < chars.size then
    if chars[i] = '/' && chars[i + 1]? = some '/' then
      scan chars depth prev (seek chars (fun c _ => c == '\n') i)
    else if chars[i] = '/' && chars[i + 1]? = some '*' then
      scan chars depth prev (seek chars (fun c next => c == '*' && next == some '/') (i + 2) + 2)
    else if chars[i] = '\'' || chars[i] = '"' || chars[i] = '\x60' then
      scan chars depth (some chars[i]) (skipString chars chars[i] (i + 1))
    else if chars[i] = '<' && chars[i + 1]? = some '/' then
      scan chars (depth - 1) prev (i + 2)
    else if depthAfter depth prev chars[i] chars[i + 1]? > maxDepth then some i
    else
      scan chars (depthAfter depth prev chars[i] chars[i + 1]?)
        (if isBlank chars[i] then prev else some chars[i]) (i + 1)
  else none
termination_by chars.size - i
decreasing_by
  · have hlt : i < seek chars (fun c _ => c == '\n') i := lt_seek h (by simp_all)
    omega
  · have hle := le_seek chars (fun c next => c == '*' && next == some '/') (i + 2)
    omega
  · have hle := min_le_skipString chars chars[i] (i + 1)
    omega
  · omega
  · omega

/-- The number of characters before the first bracket or tag that opens one level too many. -/
def excess (text : List Char) : Option Nat :=
  scan text.toArray 0 none 0

end TsxCompiler.Nesting
