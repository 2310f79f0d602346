import TsxCompiler.Proofs.LinePositions
import TsxCompiler.Proofs.ModuleTexts

/-!
# Where a diagnostic points

A diagnostic is a failure of the nesting scan or the furthest failure of the grammar, and it names
its place three times: by offset, and by the line and the column that are looked up for it. Positions
grow with the offsets of a text, so the two determine each other.

That the offset is a place of the text at all has to be followed through the grammar, since the
reported failure may come from any branch that was tried and given up, also from a value that was
read and then refused. `ReportsWithin` says of a parser that every failure it ends in or remembers
is reported no earlier in the text than where the parser was started; the combinators keep this, and
so do recursive rules.

* `ReportsWithin` — failures that stay within the text a parser was given.
* `parse_error_place` — the place of every diagnostic.
-/

namespace TsxCompiler

/-! ## Failures that stay within a text -/

namespace Peg

variable {α β γ : Type}

namespace Failure

variable {n : Nat} {x y : Failure}

theorem start_furthest_le (hx : x.start ≤ n) (hy : y.start ≤ n) : (x.furthest y).start ≤ n := by
  unfold furthest
  split
  · exact hx
  split
  · exact hy
  · exact hx

/-- Every remembered failure is reported where at most `n` characters are left. -/
def MetWithin (n : Nat) (met : Option Failure) : Prop :=
  ∀ f ∈ met, f.start ≤ n

theorem metWithin_none : MetWithin n none := by
  simp [MetWithin]

theorem metWithin_some (h : x.start ≤ n) : MetWithin n (some x) := by
  simpa [MetWithin] using h

theorem MetWithin.mono {m : Nat} {met : Option Failure} (h : MetWithin m met) (hmn : m ≤ n) :
    MetWithin n met :=
  fun f hf => Nat.le_trans (h f hf) hmn

theorem MetWithin.merge {a b : Option Failure} (ha : MetWithin n a) (hb : MetWithin n b) :
    MetWithin n (merge a b) := by
  cases a with
  | none => exact hb
  | some x =>
    cases b with
    | none => exact ha
    | some y => exact metWithin_some (start_furthest_le (hb y rfl) (ha x rfl))

theorem start_withMet_le {met : Option Failure} (hx : x.start ≤ n) (hmet : MetWithin n met) :
    (x.withMet met).start ≤ n := by
  cases met with
  | none => exact hx
  | some y => exact start_furthest_le hx (hmet y rfl)

end Failure

open TsxCompiler.Peg.Failure

/-- An outcome that leaves at most `n` characters and whose failures are reported where at most as
many are left. -/
def Outcome.Within (n : Nat) : Outcome α → Prop
  | ok _ next met => next.left ≤ n ∧ MetWithin n met
  | fail f => f.start ≤ n

theorem Outcome.Within.mono {m n : Nat} {o : Outcome α} (h : o.Within m) (hmn : m ≤ n) :
    o.Within n := by
  cases o with
  | ok a next met => exact ⟨Nat.le_trans h.1 hmn, h.2.mono hmn⟩
  | fail f => exact Nat.le_trans h hmn

namespace Parser

/-- A parser that goes forward only and reports no failure from before where it was started. -/
class ReportsWithin (p : Parser α) : Prop where
  within : ∀ c, (p c).Within c.left

open ReportsWithin (within)

section

variable {p : Parser α} [ReportsWithin p] {c next : Cursor} {a : α} {met : Option Failure}
  {f : Failure}

theorem within_ok (h : p c = .ok a next met) : next.left ≤ c.left ∧ MetWithin c.left met := by
  have hp := within (p := p) c
  rwa [h] at hp

theorem within_fail (h : p c = .fail f) : f.start ≤ c.left := by
  have hp := within (p := p) c
  rwa [h] at hp

end

/-! ## Primitive parsers and results -/

theorem left_next?_le {c next : Cursor} {x : Char} (h : c.next? = some (x, next)) :
    next.left ≤ c.left := by
  cases hrest : c.rest with
  | nil => simp [Cursor.next?_nil hrest] at h
  | cons y ys =>
    rw [Cursor.next?_cons hrest] at h
    cases h
    simp [c.left_eq, hrest]

instance (a : α) : ReportsWithin (succeed a) where
  within _ := ⟨Nat.le_refl _, metWithin_none⟩

instance (test : Char → Bool) : ReportsWithin (satisfy test) where
  within c := by
    unfold satisfy
    split
    · rename_i x next hnext
      split
      · exact ⟨left_next?_le hnext, metWithin_none⟩
      · exact Nat.le_refl c.left
    · exact Nat.le_refl c.left

instance : ReportsWithin anyChar := inferInstanceAs (ReportsWithin (satisfy _))

instance (wanted : Char) : ReportsWithin (char wanted) where
  within c := by
    unfold char
    split
    · rename_i x next hnext
      split
      · exact ⟨left_next?_le hnext, metWithin_none⟩
      · exact Nat.le_refl c.left
    · exact Nat.le_refl c.left

theorem reportsWithin_chars (text : List Char) : ReportsWithin (chars text) := by
  induction text with
  | nil => exact inferInstanceAs (ReportsWithin (succeed ()))
  | cons wanted more ih =>
    refine ⟨fun c => ?_⟩
    simp only [chars]
    cases h : char wanted c with
    | ok x next met => exact (ih.within next).mono (within_ok h).1
    | fail f => exact within_fail h

instance (text : String) : ReportsWithin (literal text) := reportsWithin_chars text.toList

instance : ReportsWithin atEnd where
  within c := by
    unfold atEnd
    split
    · exact Nat.le_refl c.left
    · exact ⟨Nat.le_refl c.left, metWithin_none⟩

instance (f : α → β) (p : Parser α) [ReportsWithin p] : ReportsWithin (p.map f) where
  within c := by
    unfold map
    cases h : p c with
    | ok a next met => exact within_ok h
    | fail f => exact within_fail h

instance (b : β) (p : Parser α) [ReportsWithin p] : ReportsWithin (p.yielding b) :=
  inferInstanceAs (ReportsWithin (p.map _))

/-- A refused value is reported where it starts. -/
instance (accept : α → Except String β) (p : Parser α) [ReportsWithin p] :
    ReportsWithin (p.check accept) where
  within c := by
    unfold check
    cases h : p c with
    | fail f => exact within_fail h
    | ok a next met =>
      dsimp only
      cases accept a with
      | ok b => exact within_ok h
      | error message => exact Nat.le_refl c.left

instance (text : String) (p : Parser α) [ReportsWithin p] : ReportsWithin (p.label text) where
  within c := by
    unfold label
    cases h : p c with
    | fail f =>
      have hf : f.start ≤ c.left := within_fail h
      exact hf
    | ok a next met =>
      obtain ⟨hnext, hmet⟩ := within_ok h
      refine ⟨hnext, ?_⟩
      cases met with
      | none => exact metWithin_none
      | some f => exact metWithin_some (hmet f rfl)

instance (p : Parser α) [ReportsWithin p] : ReportsWithin p.peek where
  within c := by
    unfold peek
    cases h : p c with
    | fail f => exact within_fail h
    | ok a next met => exact ⟨Nat.le_refl c.left, (within_ok h).2⟩

/-! ## Sequence and choice -/

instance (p : Parser α) (q : Parser β) [ReportsWithin p] [ReportsWithin q] (f : α → β → γ) :
    ReportsWithin (both f p q) where
  within c := by
    unfold both
    cases h : p c with
    | fail failure => exact within_fail h
    | ok a mid met =>
      obtain ⟨hmid, hmet⟩ := within_ok h
      dsimp only
      cases hq : q mid with
      | fail failure => exact start_withMet_le (Nat.le_trans (within_fail hq) hmid) hmet
      | ok b next met' =>
        obtain ⟨hnext, hmet'⟩ := within_ok hq
        exact ⟨Nat.le_trans hnext hmid, hmet.merge (hmet'.mono hmid)⟩

instance (p : Parser α) (q : Parser β) [ReportsWithin p] [ReportsWithin q] :
    ReportsWithin (p.seq q) := inferInstanceAs (ReportsWithin (both _ p q))

instance (p : Parser α) (q : Parser β) [ReportsWithin p] [ReportsWithin q] :
    ReportsWithin (p.thenSkip q) := inferInstanceAs (ReportsWithin (both _ p q))

instance (p : Parser α) (q : Parser β) [ReportsWithin p] [ReportsWithin q] :
    ReportsWithin (p.skipThen q) := inferInstanceAs (ReportsWithin (both _ p q))

instance (opening : Parser α) (closing : Parser β) (p : Parser γ) [ReportsWithin opening]
    [ReportsWithin closing] [ReportsWithin p] : ReportsWithin (between opening closing p) :=
  inferInstanceAs (ReportsWithin ((opening.skipThen p).thenSkip closing))

/-- A failure that is passed over is remembered. -/
instance (p : Parser α) [ReportsWithin p] : ReportsWithin p.optional where
  within c := by
    unfold optional
    cases h : p c with
    | fail failure => exact ⟨Nat.le_refl c.left, metWithin_some (within_fail h)⟩
    | ok a next met => exact within_ok h

instance (p q : Parser α) [ReportsWithin p] [ReportsWithin q] : ReportsWithin (p.orElse q) where
  within c := by
    unfold orElse
    cases h : p c with
    | ok a next met => exact within_ok h
    | fail first =>
      dsimp only
      cases hq : q c with
      | ok a next met => exact within_ok hq
      | fail second => exact start_furthest_le (within_fail h) (within_fail hq)

instance (p : Parser α) [h : ReportsWithin p] : ReportsWithin (choice p []) := h

instance (p q : Parser α) (more : List (Parser α)) [ReportsWithin p]
    [ReportsWithin (choice q more)] : ReportsWithin (choice p (q :: more)) where
  within c := by
    simp only [choice]
    cases h : p c with
    | ok a next met => exact within_ok h
    | fail first =>
      dsimp only
      cases hmore : choice q more c with
      | ok a next met => exact within_ok hmore
      | fail others => exact start_furthest_le (within_fail hmore) (within_fail h)

/-! ## Repetition and recursion -/

instance (p : Parser α) [ReportsWithin p] : ReportsWithin (many p) where
  within c := by
    induction hn : c.left using Nat.strongRecOn generalizing c with
    | _ n ih =>
      subst hn
      rw [many]
      cases h : p c with
      | fail failure => exact ⟨Nat.le_refl c.left, metWithin_some (within_fail h)⟩
      | ok a next met =>
        obtain ⟨hnext, hmet⟩ := within_ok h
        dsimp only
        split
        · rename_i hlt
          have hrest := (ih next.left hlt next rfl).mono hnext
          cases hmany : many p next with
          | fail failure =>
            rw [hmany] at hrest
            exact hrest
          | ok as last met' =>
            rw [hmany] at hrest
            exact ⟨hrest.1, hmet.merge hrest.2⟩
        · exact ⟨hnext, hmet⟩

instance (p : Parser α) [ReportsWithin p] : ReportsWithin (many1 p) where
  within c := by
    unfold many1
    split
    · rename_i failure h
      exact (within_ok h).2 failure rfl
    · exact within c

instance (p : Parser α) [ReportsWithin p] : ReportsWithin (skipUntil p) where
  within c := by
    induction hn : c.left using Nat.strongRecOn generalizing c with
    | _ n ih =>
      subst hn
      rw [skipUntil]
      cases h : p c with
      | ok a next met => exact within_ok h
      | fail failure =>
        have hfailure := within_fail h
        dsimp only
        split
        · exact hfailure
        · rename_i x next hnext
          split
          · rename_i hlt
            have hrest := (ih next.left hlt next rfl).mono (left_next?_le hnext)
            cases hskip : skipUntil p next with
            | ok a last met =>
              rw [hskip] at hrest
              exact ⟨hrest.1, (metWithin_some hfailure).merge hrest.2⟩
            | fail later =>
              rw [hskip] at hrest
              exact hrest
          · exact hfailure

/-- A row that ends where at most `n` characters are left, with failures reported no earlier. -/
structure Row.Within (n : Nat) (row : Row α) : Prop where
  stop : row.stop.left ≤ n
  met : MetWithin n row.met
  ended : row.ended.start ≤ n

section Rows

variable (sep : Parser β) (p : Parser α) [ReportsWithin sep] [ReportsWithin p]

/-- By induction over what is left to read, as a round of the loop goes on only if it consumed
something. -/
theorem within_followers (c : Cursor) : Row.Within c.left (followers sep p c) := by
  induction hn : c.left using Nat.strongRecOn generalizing c with
  | _ n ih =>
    subst hn
    rw [followers]
    cases h : sep c with
    | fail failure => exact ⟨Nat.le_refl c.left, metWithin_none, within_fail h⟩
    | ok u mid met =>
      obtain ⟨hmid, hmet⟩ := within_ok h
      dsimp only
      cases hp : p mid with
      | fail failure =>
        exact ⟨Nat.le_refl c.left, hmet, Nat.le_trans (within_fail hp) hmid⟩
      | ok a next met' =>
        obtain ⟨hnext, hmet'⟩ := within_ok hp
        have hvalue := hmet.merge (hmet'.mono hmid)
        dsimp only
        split
        · rename_i hlt
          have hrest := ih next.left hlt next rfl
          have hle : next.left ≤ c.left := Nat.le_of_lt hlt
          exact ⟨Nat.le_trans hrest.stop hle, hvalue.merge (hrest.met.mono hle),
            Nat.le_trans hrest.ended hle⟩
        · exact ⟨Nat.le_trans hnext hmid, hvalue, Nat.le_trans hnext hmid⟩

theorem within_rowOf (c : Cursor) : Row.Within c.left (rowOf sep p c) := by
  unfold rowOf
  cases h : p c with
  | fail failure => exact ⟨Nat.le_refl c.left, metWithin_none, within_fail h⟩
  | ok a next met =>
    obtain ⟨hnext, hmet⟩ := within_ok h
    have hrest := within_followers sep p next
    exact ⟨Nat.le_trans hrest.stop hnext, hmet.merge (hrest.met.mono hnext),
      Nat.le_trans hrest.ended hnext⟩

instance : ReportsWithin (sepBy1 sep p) where
  within c := by
    have hrow := within_rowOf sep p c
    unfold sepBy1
    dsimp only
    split
    · exact hrow.ended
    · exact ⟨hrow.stop, hrow.met.merge (metWithin_some hrow.ended)⟩

instance : ReportsWithin (sepByTrailing sep p) where
  within c := by
    have hrow := within_rowOf sep p c
    have hended := metWithin_some hrow.ended
    unfold sepByTrailing
    dsimp only
    split
    · exact ⟨Nat.le_refl c.left, hrow.met.merge hended⟩
    · cases h : sep (rowOf sep p c).stop with
      | ok u next met =>
        obtain ⟨hnext, hmet⟩ := within_ok h
        exact ⟨Nat.le_trans hnext hrow.stop,
          (hrow.met.merge (hmet.mono hrow.stop)).merge hended⟩
      | fail failure =>
        have hfailure := metWithin_some (Nat.le_trans (within_fail h) hrow.stop)
        exact ⟨hrow.stop, (hrow.met.merge hfailure).merge hended⟩

end Rows

/-- A recursive rule reports what its body reports. -/
theorem reportsWithin_fix {body : Parser α → Parser α}
    (h : ∀ X, ReportsWithin X → ReportsWithin (body X)) : ReportsWithin (fix body) := by
  refine ⟨fun c => ?_⟩
  induction hn : c.left using Nat.strongRecOn generalizing c with
  | _ n ih =>
    have hbelow : ReportsWithin (below c.left (fix body)) := by
      refine ⟨fun d => ?_⟩
      unfold below
      split
      · exact ih d.left (by omega) d rfl
      · exact Nat.le_refl d.left
    rw [fix_eq, ← hn]
    exact (h _ hbelow).within c

end Parser

end Peg

/-! ## The grammar -/

namespace Grammar

open Peg Peg.Parser

variable {α : Type}

instance : ReportsWithin trivia := by
  unfold trivia triviaPiece
  infer_instance

instance (p : Parser α) [ReportsWithin p] : ReportsWithin (lexeme p) := by
  unfold lexeme
  infer_instance

instance (text : String) : ReportsWithin (sym text) := by
  unfold sym
  infer_instance

instance (p : Parser α) [ReportsWithin p] : ReportsWithin (inParens p) := by
  unfold inParens
  infer_instance

instance (p : Parser α) [ReportsWithin p] : ReportsWithin (inBrackets p) := by
  unfold inBrackets
  infer_instance

instance (p : Parser α) [ReportsWithin p] : ReportsWithin (inBraces p) := by
  unfold inBraces
  infer_instance

instance (p : Parser α) [ReportsWithin p] : ReportsWithin (inAngles p) := by
  unfold inAngles
  infer_instance

instance : ReportsWithin rawWord := by
  unfold rawWord
  infer_instance

instance : ReportsWithin word := by
  unfold word
  infer_instance

instance : ReportsWithin identifier := by
  unfold identifier
  infer_instance

instance (text : String) : ReportsWithin (keyword text) := by
  unfold keyword
  infer_instance

instance : ReportsWithin terminator := by
  unfold terminator
  infer_instance

instance : ReportsWithin stringLit := by
  unfold stringLit quotedString quotedBody escapePair
  infer_instance

instance : ReportsWithin template := by
  unfold template escapePair
  infer_instance

instance : ReportsWithin number := by
  unfold number digits
  infer_instance

section Types

instance (p : Parser α) [ReportsWithin p] : ReportsWithin (forget p) := by
  unfold forget
  infer_instance

instance (X : Parser Unit) [ReportsWithin X] : ReportsWithin (primaryType X) := by
  unfold primaryType functionType parenType objectType tupleType literalType typeReference typeArgs
    memberType paramType
  infer_instance

instance : ReportsWithin typeExpr := by
  refine reportsWithin_fix fun X _ => ?_
  unfold typeBody arrayType
  infer_instance

instance : ReportsWithin typeParams := by
  unfold typeParams typeParam
  infer_instance

instance (d : Dialect) (p : Parser Unit) [ReportsWithin p] : ReportsWithin (whenTyped d p) := by
  unfold whenTyped
  split <;> infer_instance

instance (d : Dialect) : ReportsWithin (ascription d) := by
  unfold ascription typeAscription
  infer_instance

instance (d : Dialect) : ReportsWithin (optionalMark d) := by
  unfold optionalMark
  infer_instance

instance (d : Dialect) : ReportsWithin (genericParams d) := by
  unfold genericParams
  infer_instance

end Types

section Rules

variable (d : Dialect) (E : Parser Expr) (B : Parser (List Stmt)) (N : Parser α)
  [ReportsWithin E] [ReportsWithin B] [ReportsWithin N]

instance : ReportsWithin (propertyKey E) := by
  unfold propertyKey
  infer_instance

instance : ReportsWithin (initializer E) := by
  unfold initializer
  infer_instance

instance : ReportsWithin (bindingPattern E) := by
  refine reportsWithin_fix fun X _ => ?_
  unfold patternBody arrayPattern objectPattern patternElement patternProperty
  infer_instance

instance : ReportsWithin (params d E) := by
  unfold params restParam plainParam
  infer_instance

instance : ReportsWithin asyncMark := by
  unfold asyncMark
  infer_instance

instance : ReportsWithin (functionTail d E B) := by
  unfold functionTail
  infer_instance

instance : ReportsWithin (functionWith N d E B) := by
  unfold functionWith
  infer_instance

instance : ReportsWithin (classMembers d E B) := by
  unfold classMembers classMember methodMember fieldMember modifiers
  infer_instance

instance : ReportsWithin (classWith N d E B) := by
  unfold classWith classTail implementsClause
  infer_instance

instance : ReportsWithin tagName := by
  unfold tagName nameSegment
  infer_instance

instance : ReportsWithin closingTag := by
  unfold closingTag
  infer_instance

instance (X : Parser Element) [ReportsWithin X] : ReportsWithin (elementAttribute E X) := by
  unfold elementAttribute attributeName nameSegment attributeValue container
  infer_instance

instance (X : Parser Element) [ReportsWithin X] : ReportsWithin (child E X) := by
  unfold child childText childContainer
  infer_instance

instance : ReportsWithin (element E) := by
  refine reportsWithin_fix fun X _ => ?_
  unfold markupBody fragment taggedElement elementBody
  infer_instance

instance : ReportsWithin (arguments E) := by
  unfold arguments argument
  infer_instance

instance : ReportsWithin (arrowExpr d B E) := by
  unfold arrowExpr arrowBody
  infer_instance

instance : ReportsWithin (markupExpr d E) := by
  unfold markupExpr
  split <;> infer_instance

instance : ReportsWithin (primary d B E) := by
  unfold primary functionExpr classExpr literalExpr arrayExpr objectExpr argument property
  infer_instance

instance : ReportsWithin (memberSuffix E) := by
  unfold memberSuffix
  infer_instance

instance : ReportsWithin (unaryExpr d B E) := by
  unfold unaryExpr unaryOp casts postfixExpr newExpr callSuffix
  infer_instance

instance (operand : Parser Expr) (op : Parser BinaryOp) [ReportsWithin operand]
    [ReportsWithin op] : ReportsWithin (binaryLevel operand op) := by
  unfold binaryLevel
  infer_instance

instance : ReportsWithin (nullish d B E) := by
  unfold nullish disjunction conjunction equality relational additive multiplicative equalityOp
    relationalOp additiveOp multiplicativeOp
  infer_instance

end Rules

instance (d : Dialect) (B : Parser (List Stmt)) [ReportsWithin B] :
    ReportsWithin (expression d B) := by
  refine reportsWithin_fix fun X _ => ?_
  unfold expressionBody conditional assignOp
  infer_instance

instance (S : Parser Stmt) [ReportsWithin S] : ReportsWithin (blockOf S) := by
  unfold blockOf
  infer_instance

instance (d : Dialect) (E : Parser Expr) (B : Parser (List Stmt)) [ReportsWithin E]
    [ReportsWithin B] : ReportsWithin (declaration d E B) := by
  unfold declaration runtimeDecl varDecl functionDecl classDecl typeAlias interfaceDecl declarator
  split <;> infer_instance

instance (d : Dialect) : ReportsWithin (statement d) := by
  refine reportsWithin_fix fun X _ => ?_
  unfold statementBody returnStmt branchStmt throwStmt
  infer_instance

instance (d : Dialect) : ReportsWithin (importDecl d) := by
  have : ReportsWithin (typeOnlyMark d) := by
    unfold typeOnlyMark
    split <;> infer_instance
  unfold importDecl importClause defaultImport starImport importList namedImport
  infer_instance

instance (d : Dialect) : ReportsWithin (program d) := by
  unfold program moduleItem exportDecl defaultExport exportAll exportList exportSpecifier
  infer_instance

end Grammar

/-! ## Diagnostics -/

/-- The scan stops at a character of the text. -/
theorem Nesting.scan_lt {chars : Array Char} {depth i offset : Nat} {prev : Option Char}
    (h : scan chars depth prev i = some offset) : offset < chars.size := by
  fun_induction scan chars depth prev i with
  | case1 _ _ _ _ _ ih => exact ih h
  | case2 _ _ _ _ _ _ ih => exact ih h
  | case3 _ _ _ _ _ _ _ ih => exact ih h
  | case4 _ _ _ _ _ _ _ _ ih => exact ih h
  | case5 _ _ i hi =>
    cases h
    exact hi
  | case6 _ _ _ _ _ _ _ _ _ ih => exact ih h
  | case7 => cases h

open Text

/-- A diagnostic was made for an offset: the one where the scan stopped, or the one that leaves as
many characters as the failure of the grammar says. -/
theorem exists_offset_of_parse {d : Dialect} {text : String} {e : ParseError}
    (h : Program.parse d text = .error e) :
    ∃ offset message, e = .ofOffset text.toList offset message ∧
      ((Nesting.excess text.toList = some offset ∧ offset < text.length) ∨
        ∃ f, Grammar.program d (.ofList text.toList) = .fail f ∧
          offset + f.start = text.length) := by
  unfold Program.parse at h
  dsimp only at h
  cases hscan : Nesting.excess text.toList with
  -- the scan for brackets comes first; only behind it the grammar is tried
  | some offset =>
    rw [hscan] at h
    cases h
    have hlt := Nesting.scan_lt hscan
    rw [List.size_toArray, String.length_toList] at hlt
    exact ⟨offset, _, rfl, .inl ⟨rfl, hlt⟩⟩
  | none =>
    rw [hscan] at h
    dsimp only at h
    unfold Grammar.parse at h
    cases hread : Grammar.program d (.ofList text.toList) with
    | ok program next met =>
      rw [hread] at h
      cases h
    | fail f =>
      rw [hread] at h
      cases h
      have hstart : f.start ≤ text.toList.length := Peg.Parser.within_fail hread
      rw [← String.length_toList]
      exact ⟨text.toList.length - f.start, _, rfl, .inr ⟨f, rfl, Nat.sub_add_cancel hstart⟩⟩

/-- Every diagnostic points into its text. Its offset is at most the number of characters, and it is
the place where the nesting scan stopped or where the failure of the grammar was reported. Its line
and column are those that the line starts give for the offset; the line counts the line breaks
before it, and the column the characters behind the last of them. The positions that are looked up
grow strictly with the offsets of a text, so line and column tell the offset. -/
theorem parse_error_place (text : String) :
    (∀ d e, Program.parse d text = .error e →
      e.offset ≤ text.length ∧
      ((Nesting.excess text.toList = some e.offset ∧ e.offset < text.length) ∨
        ∃ f, Grammar.program d (.ofList text.toList) = .fail f ∧
          e.offset + f.start = text.length) ∧
      (LineIndex.ofText text.toList).position e.offset = ⟨e.line, e.column⟩ ∧
      e.line = 1 + (text.toList.take e.offset).count '\n' ∧
      e.column = 1 + ((text.toList.take e.offset).reverse.takeWhile (· != '\n')).length ∧
      ∀ offset ≤ text.length,
        (LineIndex.ofText text.toList).position offset = ⟨e.line, e.column⟩ →
          offset = e.offset) ∧
    ∀ a b, a < b → b ≤ text.length →
      (LineIndex.ofText text.toList).position a < (LineIndex.ofText text.toList).position b := by
  -- looking a position up in the index is counting line breaks
  have hlookup : ∀ offset ≤ text.length, (LineIndex.ofText text.toList).position offset =
      Position.ofOffset text.toList offset := fun offset h =>
    LineIndex.position_eq (String.length_toList ▸ h)
  refine ⟨fun d e h => ?_, fun a b hab hb => ?_⟩
  · obtain ⟨offset, message, rfl, hplace⟩ := exists_offset_of_parse h
    have hoffset : offset ≤ text.length := by
      rcases hplace with ⟨-, hlt⟩ | ⟨f, -, hstart⟩ <;> omega
    refine ⟨hoffset, hplace, rfl, ?_, ?_, fun other hother heq => ?_⟩
    · exact (congrArg Position.line (hlookup offset hoffset)).trans (Position.ofOffset_line _ _)
    · exact (congrArg Position.column (hlookup offset hoffset)).trans (Position.ofOffset_column _ _)
    · have hsame : (LineIndex.ofText text.toList).position other =
          (LineIndex.ofText text.toList).position offset := heq
      rw [hlookup other hother, hlookup offset hoffset] at hsame
      exact Position.ofOffset_inj (String.length_toList ▸ hother) (String.length_toList ▸ hoffset)
        hsame
  · rw [hlookup a (by omega), hlookup b hb]
    exact Position.ofOffset_lt hab (String.length_toList ▸ hb)

theorem parse_error_place_deepText :
    ∃ e, Program.parse .tsx (String.ofList ('\n' :: List.replicate 129 '(')) = .error e ∧
      e.offset = 129 ∧ e.line = 2 ∧ e.column = 129 := by
  have hscan :
      Nesting.excess (String.ofList ('\n' :: List.replicate 129 '(')).toList = some 129 := by
    rw [String.toList_ofList]
    decide +kernel
  have herror := parse_of_excess (d := .tsx) hscan
  obtain ⟨-, -, -, hline, hcolumn, -⟩ := (parse_error_place _).1 _ _ herror
  refine ⟨_, herror, rfl, hline.trans ?_, hcolumn.trans ?_⟩
  · rw [String.toList_ofList]
    decide +kernel
  · rw [String.toList_ofList]
    decide +kernel

end TsxCompiler
