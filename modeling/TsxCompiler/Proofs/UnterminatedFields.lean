import TsxCompiler.Print.Module
import TsxCompiler.Proofs.ExpressionModules
import TsxCompiler.Proofs.NestingScan
import TsxCompiler.Proofs.Rows

/-!
# Fields without a terminator

A terminator may be left out wherever one may stand, whatever comes next and on whatever line. So a
word in front of the members of a class, unless it is a modifier, is a field of its own, and the
members behind it are read as they are without it (`parse_wordBeforeMembers`). An accessor is read
that way too: its `get` is a field, and a method follows.
-/

namespace TsxCompiler.Grammar

open Peg Peg.Parser Text

variable {d : Dialect} {E : Parser Expr} {B : Parser (List Stmt)} {word : String}

/-! ## How members start -/

/-- Words that change the member behind them instead of naming one. -/
def modifierWords : List String :=
  ["static", "async", "public", "private", "protected", "readonly", "override"]

/-- Where no modifier stands none is read. -/
theorem run_modifiers_none {s : List Char} (h : ∀ w ∈ modifierWords, run (keyword w) s = none) :
    run (modifiers d) s = some ((), s) := by
  have hmany : run (many (choice (keyword "public") [keyword "private", keyword "protected",
      keyword "readonly", keyword "override"])) s = some ([], s) := by
    refine run_many_none ?_
    simp [run_choice_cons, h "public" (by decide), h "private" (by decide),
      h "protected" (by decide), h "readonly" (by decide), h "override" (by decide)]
  unfold modifiers whenTyped
  split
  · simp [forget, run_yielding, hmany]
  · rfl

/-- A member without modifiers is a method, or else a field. -/
theorem run_classMember_plain {s : List Char}
    (h : ∀ w ∈ modifierWords, run (keyword w) s = none) :
    run (classMember d E B) s =
      (run ((methodMember d E B).orElse (fieldMember d E)) s).map fun x => (x.1 false, x.2) := by
  have hstatic : run (keyword "static").optional s = some (none, s) :=
    run_optional_none (h "static" (by decide))
  rw [classMember, run_both, run_thenSkip, run_map, hstatic]
  simp [run_modifiers_none h]

theorem run_classMember_none {c : Char} (h : startsMember c = false) (s : List Char) :
    run (classMember d E B) (c :: s) = none := by
  have hw : isWordStart c = false := by
    simp only [startsMember, Bool.or_eq_false_iff] at h
    exact h.1.1
  rw [run_classMember_plain fun w _ => run_keyword_none hw w s]
  simp [run_orElse, methodMember, fieldMember, run_both, run_seq, run_thenSkip,
    run_asyncMark_none (run_keyword_none hw "async" s), run_propertyKey_none h]

/-! ## A word as a field -/

/-- Characters that go on with a member behind its name. -/
def extendsKey (c : Char) : Bool :=
  ['(', '<', '?', ':', '='].contains c

/-- A word that is no modifier is a field if nothing goes on with it; a terminator behind it is read
and nothing else is asked of what follows. -/
theorem run_classMember_word (hword : isIdentifier word = true) (hmodifier : word ∉ modifierWords)
    {rest t : List Char} {c : Char} (hend : endsWord rest = true) (hrest : skip rest = c :: t)
    (hc : extendsKey c = false) :
    run (classMember d E B) (word.toList ++ rest) =
      (run terminator (c :: t)).map fun x => (.field (.ident word) none false, x.2) := by
  have hother : ∀ w ∈ modifierWords, run (keyword w) (word.toList ++ rest) = none := by
    intro w hw
    refine run_keyword_other hword hend ?_
    rintro rfl
    exact hmodifier hw
  simp only [extendsKey, List.contains_eq_mem, List.mem_cons, List.not_mem_nil, or_false, not_or,
    decide_eq_false_iff_not] at hc
  obtain ⟨hparen, hangle, hquestion, hcolon, hequals⟩ := hc
  have hkey : run (propertyKey E) (word.toList ++ rest) = some (.ident word, c :: t) :=
    hrest ▸ run_propertyKey_word hword hend
  -- a method would go on with type parameters or a parenthesis
  have hmethod : run (methodMember d E B) (word.toList ++ rest) = none := by
    have hgeneric := run_genericParams_none (d := d) (run_sym_none "<" rfl hangle t)
    simp [methodMember, run_both, run_seq, run_asyncMark_none (hother "async" (by decide)), hkey,
      functionTail, run_thenSkip, run_skipThen, hgeneric, params, run_inParens_none hparen]
  have hmark : run (optionalMark d) (c :: t) = some ((), c :: t) := by
    unfold optionalMark whenTyped
    split
    · simp [forget, run_yielding, run_optional, run_sym_none "?" rfl hquestion]
    · rfl
  have hascription : run (ascription d) (c :: t) = some ((), c :: t) :=
    run_ascription_none (run_sym_none ":" rfl hcolon t)
  have hinitializer : run (initializer E) (c :: t) = some (none, c :: t) := by
    simp [initializer, run_optional, run_skipThen, run_sym_none "=" rfl hequals]
  rw [run_classMember_plain hother, run_orElse, hmethod]
  -- so the word is a field, if a terminator can be read behind it
  cases hterminator : run terminator (c :: t) <;>
    simp [fieldMember, run_thenSkip, run_both, hkey, hmark, hascription, hinitializer, hterminator]

/-! ## Members in braces -/

/-- A row of semicolons ends at the same place whether or not the first was read as a terminator. -/
theorem run_semicolons_terminator (s : List Char) :
    ∃ t us vs r, run terminator s = some ((), t) ∧ run (many (sym ";")) t = some (us, r) ∧
      run (many (sym ";")) s = some (vs, r) := by
  cases h : run (sym ";") s with
  | none =>
    exact ⟨s, [], [], s, by simp [terminator, run_yielding, run_optional, h], run_many_none h,
      run_many_none h⟩
  | some x =>
    obtain ⟨u, t⟩ := x
    obtain ⟨us, r, hus⟩ := run_many_isSome (sym ";") t
    have : Consumes (sym ";") := consumes_sym (by decide)
    have hstep : run (many (sym ";")) s = some (u :: us, r) := by
      rw [run_many_step h, hus]
      rfl
    exact ⟨t, us, u :: us, r, by simp [terminator, run_yielding, run_optional, h], hus, hstep⟩

variable [Shrinks E] [Shrinks B]

/-- The members of a class start with a member, a semicolon or the closing brace. -/
theorem extendsKey_of_run_classMembers {s r : List Char} {members : List ClassMember}
    (h : run (classMembers d E B) ('\x7b' :: s) = some (members, r)) :
    ∃ c t, skip s = c :: t ∧ extendsKey c = false := by
  obtain ⟨u, _, hinner, hclose⟩ := run_between_inv rfl h
  cases hs : skip s with
  | nil =>
    have hend : ∀ {α : Type} {p : Parser α} [Shrinks p] {a : α} {t : List Char},
        run p [] = some (a, t) → t = [] := by
      intro α p _ a t ht
      exact List.suffix_nil.1 (Shrinks.suffix [] a t ht)
    rw [hs] at hinner
    rw [hend hinner] at hclose
    simp at hclose
  | cons c t =>
    refine ⟨c, t, rfl, ?_⟩
    rw [← Bool.not_eq_true]
    intro hc
    -- a mark that goes on with a key starts no member and does not close the class
    have hno : startsMember c = false ∧ c ≠ ';' ∧ c ≠ '\x7d' := by
      simp only [extendsKey, List.contains_eq_mem, List.mem_cons, List.not_mem_nil, or_false,
        decide_eq_true_eq] at hc
      rcases hc with rfl | rfl | rfl | rfl | rfl <;> decide
    have hmember : run ((classMember d E B).thenSkip (many (sym ";"))) (c :: t) = none := by
      simp [run_thenSkip, run_classMember_none hno.1]
    have hstay : run ((many (sym ";")).skipThen
        (many ((classMember d E B).thenSkip (many (sym ";"))))) (c :: t) = some ([], c :: t) := by
      simp [run_skipThen, run_many_none (run_sym_none ";" rfl hno.2.1 t), run_many_none hmember]
    rw [hs, hstay] at hinner
    cases hinner
    simp [run_sym_none "\x7d" rfl hno.2.2] at hclose

/-- A word in front of the members is one more of them. -/
theorem run_classMembers_word (hword : isIdentifier word = true) (hmodifier : word ∉ modifierWords)
    {s r : List Char} {members : List ClassMember}
    (h : run (classMembers d E B) ('\x7b' :: ' ' :: s) = some (members, r)) :
    run (classMembers d E B) ('\x7b' :: ' ' :: (word.toList ++ ' ' :: s)) =
      some (.field (.ident word) none false :: members, r) := by
  have hblank : isBlank ' ' = true := by decide
  have hend : endsWord (' ' :: s) = true := endsWord_cons (by decide) s
  -- the members start with a character that does not go on with a key
  obtain ⟨c, t, hskip, hc⟩ := extendsKey_of_run_classMembers h
  obtain ⟨u, _, hinner, hclose⟩ := run_between_inv rfl h
  obtain ⟨vs, v, hsemis, hmembers⟩ := run_skipThen_inv hinner
  obtain ⟨t', us, vs', v', hterminator, hus, hvs⟩ := run_semicolons_terminator (skip (' ' :: s))
  rw [hsemis] at hvs
  cases hvs
  rw [hskip] at hterminator
  -- the field needs no terminator, and semicolons are skipped behind it as at the front
  have hfirst : run ((classMember d E B).thenSkip (many (sym ";"))) (word.toList ++ ' ' :: s) =
      some (.field (.ident word) none false, v) := by
    rw [run_thenSkip, run_classMember_word hword hmodifier hend hskip hc, hterminator]
    simp [hus]
  have hno : run (sym ";") (word.toList ++ ' ' :: s) = none := run_sym_word rfl (by decide) hword _
  have hall : run ((many (sym ";")).skipThen
      (many ((classMember d E B).thenSkip (many (sym ";"))))) (word.toList ++ ' ' :: s) =
      some (.field (.ident word) none false :: members, u) := by
    rw [run_skipThen, run_many_none hno, Option.bind_some, run_many_step hfirst, hmembers]
    rfl
  have hopen : run (sym "\x7b") ('\x7b' :: ' ' :: (word.toList ++ ' ' :: s)) =
      some ((), word.toList ++ ' ' :: s) := by
    simp [run_sym, run_chars_cons, run_char_cons, skip_blank hblank, skip_identifier hword]
  rw [classMembers, inBraces, between, run_thenSkip, run_skipThen, hopen, Option.bind_some, hall,
    Option.bind_some, hclose]
  rfl

end TsxCompiler.Grammar

/-! ## Classes as modules -/

namespace TsxCompiler

/-- A class with its members, or what stands for them, in braces. -/
def classText (name body : String) : String :=
  "class " ++ name ++ " \x7b " ++ body ++ " \x7d"

/-- The module that declares a class without a superclass. -/
def classModule (name : String) (members : List ClassMember) : Program :=
  ⟨[.stmt (.decl (.classDecl name ⟨none, members⟩))]⟩

theorem toList_classText (name body : String) :
    (classText name body).toList =
      "class".toList ++ ' ' ::
        (name.toList ++ ' ' :: '\x7b' :: ' ' :: (body.toList ++ [' ', '\x7d'])) := by
  simp [classText]

end TsxCompiler

namespace TsxCompiler.Grammar

open Peg Peg.Parser Text

variable {d : Dialect} {name : String}

/-- Behind the name of a class its members are next if a brace is. -/
theorem run_classDecl_name {E : Parser Expr} {B : Parser (List Stmt)} (hname : isName name = true)
    (s : List Char) :
    run (classDecl d E B) ("class".toList ++ ' ' :: (name.toList ++ ' ' :: '\x7b' :: s)) =
      (run (classMembers d E B) ('\x7b' :: s)).map fun x =>
        (.classDecl name ⟨none, x.1⟩, x.2) := by
  have hblank : isBlank ' ' = true := by decide
  have hshape : isIdentifier name = true := (Bool.and_eq_true_iff.1 hname).1
  have hend : ∀ t, endsWord (' ' :: t) = true := endsWord_cons (by decide)
  have hbrace : isWordStart '\x7b' = false := by decide
  have hkeyword : run (keyword "class")
      ("class".toList ++ ' ' :: (name.toList ++ ' ' :: '\x7b' :: s)) =
      some ((), name.toList ++ ' ' :: '\x7b' :: s) := by
    rw [run_keyword_append (by decide) (hend _), skip_blank hblank, skip_identifier hshape]
  have hidentifier : run identifier (name.toList ++ ' ' :: '\x7b' :: s) =
      some (name, '\x7b' :: s) := by
    rw [run_identifier_append hname (hend _), skip_blank hblank, skip_cons (by decide) (by decide)]
  have hgeneric : run (genericParams d) ('\x7b' :: s) = some ((), '\x7b' :: s) :=
    run_genericParams_none (run_sym_none "<" rfl (by decide) s)
  have himplements : run (implementsClause d) ('\x7b' :: s) = some ((), '\x7b' :: s) := by
    unfold implementsClause whenTyped
    split
    · simp [forget, run_yielding, run_optional, run_skipThen, run_keyword_none hbrace]
    · rfl
  have htail : run (classTail d E B) ('\x7b' :: s) =
      (run (classMembers d E B) ('\x7b' :: s)).map fun x => (⟨none, x.1⟩, x.2) := by
    simp [classTail, run_both, run_thenSkip, run_skipThen, hgeneric, run_optional,
      run_keyword_none hbrace, himplements]
  rw [classDecl, run_map, classWith, run_seq, run_skipThen, hkeyword]
  cases hmembers : run (classMembers d E B) ('\x7b' :: s) <;>
    simp [hidentifier, htail, hmembers]

/-- A class that starts with its keyword is an item of a module. -/
theorem run_moduleItem_class {w : String} (hw : w = "class") {rest r : List Char} {decl : Decl}
    (hend : endsWord rest = true)
    (h : run (classDecl d (expression d (blockOf (statement d))) (blockOf (statement d)))
      (w.toList ++ rest) = some (decl, r)) :
    run (moduleItem d) (w.toList ++ rest) = some (.stmt (.decl decl), r) := by
  have hshape : isIdentifier w = true := hw ▸ by decide
  have hother : ∀ x, "class" ≠ x → run (keyword x) (w.toList ++ rest) = none :=
    fun x hx => run_keyword_other hshape hend (hw ▸ hx)
  have hvar : run (varDecl d (expression d (blockOf (statement d)))) (w.toList ++ rest) = none := by
    simp [varDecl, run_thenSkip, run_both, run_choice_cons, run_yielding, hother]
  have hfunction : run (functionDecl d (expression d (blockOf (statement d)))
      (blockOf (statement d))) (w.toList ++ rest) = none := by
    have hasync : w = "async" → run (keyword "function") (skip rest) = none := by simp [hw]
    simp [functionDecl, run_map, run_functionWith_word hshape hend (by simp [hw]) hasync]
  have hdeclaration : run (declaration d (expression d (blockOf (statement d)))
      (blockOf (statement d))) (w.toList ++ rest) = some (decl, r) := by
    unfold declaration
    split <;> simp [run_orElse, runtimeDecl, run_choice_cons, hvar, hfunction, h]
  have hbrace : run (sym "\x7b") (w.toList ++ rest) = none :=
    run_sym_word rfl (by decide) hshape rest
  have hblock : run (blockOf (statement d)) (w.toList ++ rest) = none := by
    simp [blockOf, inBraces, between, run_thenSkip, run_skipThen, hbrace]
  have hstatement : run (statement d) (w.toList ++ rest) = some (.decl decl, r) := by
    rw [run_statement]
    simp [statementBody, run_choice_cons, run_map, hblock, hdeclaration]
  exact run_moduleItem_stmt (hother "import" (by decide)) (hother "export" (by decide)) hstatement

/-- An alternative that cannot give a value did not give it. -/
theorem run_choice_map_inv {α β : Type} {f : α → β} {p : Parser α} {q : Parser β}
    {more : List (Parser β)} {s r : List Char} {b : β}
    (h : run (choice (p.map f) (q :: more)) s = some (b, r)) (hne : ∀ a, f a ≠ b) :
    run (choice q more) s = some (b, r) := by
  rcases run_choice_cons_inv h with h | ⟨-, h⟩
  · obtain ⟨a, -, ha⟩ := run_map_inv h
    exact absurd ha (hne a)
  · exact h

/-- Nothing but the rule for classes declares a class. -/
theorem run_classDecl_of_moduleItem {s r : List Char} {body : ClassBody}
    (h : run (moduleItem d) s = some (.stmt (.decl (.classDecl name body)), r)) :
    run (classDecl d (expression d (blockOf (statement d))) (blockOf (statement d))) s =
      some (.classDecl name body, r) := by
  have hstatement : run (statement d) s = some (.decl (.classDecl name body), r) := by
    have h := run_choice_map_inv (run_choice_map_inv h (by simp)) (by simp)
    obtain ⟨_, hread, heq⟩ := run_map_inv h
    cases heq
    exact hread
  have hdeclaration : run (declaration d (expression d (blockOf (statement d)))
      (blockOf (statement d))) s = some (.classDecl name body, r) := by
    rw [run_statement, statementBody] at hstatement
    rcases run_choice_cons_inv (run_choice_map_inv hstatement (by simp)) with h | ⟨-, h⟩
    · obtain ⟨_, hread, heq⟩ := run_map_inv h
      cases heq
      exact hread
    -- No other kind of statement is a declaration.
    rcases run_choice_cons_inv (run_choice_map_inv h (by simp)) with h | ⟨-, h⟩
    · obtain ⟨_, _, _, -, -, heq⟩ := run_both_inv h
      cases heq
    have h := run_choice_map_inv (run_choice_map_inv h (by simp)) (by simp)
    obtain ⟨_, -, heq⟩ := run_map_inv h
    cases heq
  have hruntime : run (runtimeDecl d (expression d (blockOf (statement d))) (blockOf (statement d)))
      s = some (.classDecl name body, r) := by
    unfold declaration at hdeclaration
    split at hdeclaration
    · rcases run_orElse_inv hdeclaration with h | ⟨-, h⟩
      · exact h
      obtain ⟨_, -, heq⟩ := run_map_inv h
      cases heq
    · exact hdeclaration
  rcases run_choice_cons_inv hruntime with h | ⟨-, h⟩
  · obtain ⟨_, _, hread, -⟩ := run_thenSkip_inv h
    obtain ⟨_, _, _, -, -, heq⟩ := run_both_inv hread
    cases heq
  · exact run_choice_map_inv h (by simp)

/-- A row of one value was read as that value. -/
theorem run_of_run_many_singleton {α : Type} {p : Parser α} {s r : List Char} {a : α}
    (h : run (many p) s = some ([a], r)) : run p s = some (a, r) := by
  rw [run_many] at h
  split at h
  · cases h
  · rename_i b t hb
    split at h
    · obtain ⟨⟨bs, u⟩, hbs, heq⟩ := Option.map_eq_some_iff.1 h
      cases heq
      -- The row behind the first value is empty, so it ends where it starts.
      rw [run_many] at hbs
      split at hbs
      · cases hbs
        exact hb
      · split at hbs
        · obtain ⟨_, -, heq⟩ := Option.map_eq_some_iff.1 hbs
          cases heq
        · cases hbs
    · cases h
      exact hb

/-- The text of a class is read as a module exactly if its members are read to the end. -/
theorem run_program_class (hname : isName name = true) (s : List Char)
    (members : List ClassMember) :
    run (program d) ("class".toList ++ ' ' :: (name.toList ++ ' ' :: '\x7b' :: s)) =
        some (classModule name members, []) ↔
      run (classMembers d (expression d (blockOf (statement d))) (blockOf (statement d)))
        ('\x7b' :: s) = some (members, []) := by
  have hskip : ∀ t, skip ("class".toList ++ t) = "class".toList ++ t :=
    skip_identifier (by decide)
  have hdecl := run_classDecl_name (d := d) (E := expression d (blockOf (statement d)))
    (B := blockOf (statement d)) hname s
  constructor
  · intro h
    obtain ⟨items, hitems, hbody⟩ := run_map_inv h
    obtain ⟨_, t, hread, hatEnd⟩ := run_thenSkip_inv hitems
    obtain ⟨_, u, htrivia, hmany⟩ := run_skipThen_inv hread
    rw [run_trivia, hskip] at htrivia
    cases htrivia
    cases hbody
    have ht : t = [] := (run_atEnd_inv hatEnd).1
    -- the one item is the class, as no other item starts with the word
    have hitem := run_classDecl_of_moduleItem (run_of_run_many_singleton hmany)
    rw [hdecl, ht] at hitem
    obtain ⟨⟨ms, v⟩, hms, heq⟩ := Option.map_eq_some_iff.1 hitem
    cases heq
    exact hms
  · intro h
    rw [h] at hdecl
    exact run_program_item (hskip _) (run_moduleItem_class rfl (endsWord_cons (by decide) _) hdecl)

end TsxCompiler.Grammar

/-! ## Depth -/

namespace TsxCompiler

open Grammar Peg Peg.Parser Text

variable {d : Dialect} {name word body : String} {members : List ClassMember}

/-- The scan comes to the members of a class with one brace open. -/
theorem excess_class (hname : isIdentifier name = true) (s : List Char) :
    ∃ index, Nesting.excess
        ("class".toList ++ ' ' :: (name.toList ++ ' ' :: '\x7b' :: ' ' :: s)) =
      Nesting.scanFrom ⟨.code, 1, some '\x7b'⟩ index s := by
  have hzero : 0 ≤ Nesting.maxDepth := by decide
  have hone : 1 ≤ Nesting.maxDepth := by decide
  have hclass : "class".toList.all isWordPart = true := by decide
  have hbrace : ∀ prev next,
      Nesting.step ⟨.code, 0, prev⟩ '\x7b' next = ⟨.code, 1, some '\x7b'⟩ := by
    intro prev next
    simp [Nesting.step, Nesting.stepCode, Nesting.depthAfter, show isBlank '\x7b' = false by decide]
  rw [Nesting.excess_eq_scanFrom, Nesting.State.start, Nesting.scanFrom_word hclass rfl hzero,
    Nesting.scanFrom_blank rfl hzero, Nesting.scanFrom_word (all_of_isIdentifier hname) rfl hzero,
    Nesting.scanFrom_blank rfl hzero, Nesting.scanFrom_cons (hbrace _ _) hone,
    Nesting.scanFrom_blank rfl hone]
  exact ⟨_, rfl⟩

/-- A word in front of the members hides a tag at most, and never brings one to light. -/
theorem excess_wordBefore (hname : isIdentifier name = true) (hword : isIdentifier word = true)
    {s : List Char}
    (h : Nesting.excess
      ("class".toList ++ ' ' :: (name.toList ++ ' ' :: '\x7b' :: ' ' :: s)) = none) :
    Nesting.excess ("class".toList ++ ' ' :: (name.toList ++ ' ' :: '\x7b' :: ' ' ::
      (word.toList ++ ' ' :: s))) = none := by
  have hone : 1 ≤ Nesting.maxDepth := by decide
  obtain ⟨i, hi⟩ := excess_class hname s
  obtain ⟨j, hj⟩ := excess_class hname (word.toList ++ ' ' :: s)
  rw [hi] at h
  have hbelow : Nesting.State.Below ⟨.code, 1, word.toList.getLast?.or (some '\x7b')⟩
      ⟨.code, 1, some '\x7b'⟩ :=
    ⟨rfl, Nat.le_refl 1, .inr (Nesting.opensTag_identifier hword _)⟩
  rw [hj, Nesting.scanFrom_word (all_of_isIdentifier hword) rfl hone,
    Nesting.scanFrom_blank rfl hone]
  exact Nesting.scanFrom_below hbelow h _

/-! ## Words before members -/

/-- A class is read exactly if it does not nest too deep and its members are read to the end. -/
theorem parse_classText (hname : isName name = true) :
    Program.parse d (classText name body) = .ok (classModule name members) ↔
      Nesting.excess (classText name body).toList = none ∧
        run (classMembers d (expression d (blockOf (statement d))) (blockOf (statement d)))
          ('\x7b' :: ' ' :: (body.toList ++ [' ', '\x7d'])) = some (members, []) := by
  rw [← run_program_class hname, ← toList_classText]
  constructor
  · intro h
    obtain ⟨r, hr⟩ := run_program_of_parse h
    obtain ⟨_, hitems, -⟩ := run_map_inv hr
    obtain ⟨_, _, -, hatEnd⟩ := run_thenSkip_inv hitems
    obtain rfl : r = [] := (run_atEnd_inv hatEnd).2
    exact ⟨excess_of_parse h, hr⟩
  · rintro ⟨hdepth, hread⟩
    exact parse_of_run_program hdepth hread

theorem parse_emptyClass (d : Dialect) (hname : isName name = true)
    (hdepth : Nesting.excess (classText name "").toList = none) :
    Program.parse d (classText name "") = .ok (classModule name []) := by
  have hblank : isBlank ' ' = true := by decide
  have hclose : skip ['\x7d'] = ['\x7d'] := skip_cons (by decide) (by decide) []
  have hsemis : run (sym ";") ['\x7d'] = none := run_sym_none ";" rfl (by decide) []
  have hread : run (classMembers d (expression d (blockOf (statement d))) (blockOf (statement d)))
      ('\x7b' :: ' ' :: ("".toList ++ [' ', '\x7d'])) = some ([], skip []) := by
    refine run_between_cons (c := '\x7d') rfl rfl ?_
    simp [skip_blank hblank, hclose, run_skipThen, run_thenSkip, run_many_none, hsemis,
      run_classMember_none (show startsMember '\x7d' = false by decide)]
  exact (parse_classText hname).2 ⟨hdepth, by rwa [skip_nil] at hread⟩

/-- A word that is no modifier may stand in front of the members of any class, on their line and
without a terminator: it is a field, and the members are those of the class without it. -/
theorem parse_wordBeforeMembers (hname : isName name = true) (hword : isIdentifier word = true)
    (hmodifier : word ∉ modifierWords)
    (h : Program.parse d (classText name body) = .ok (classModule name members)) :
    Program.parse d (classText name (word ++ " " ++ body)) =
      .ok (classModule name (.field (.ident word) none false :: members)) := by
  have hshape : isIdentifier name = true := (Bool.and_eq_true_iff.1 hname).1
  obtain ⟨hdepth, hread⟩ := (parse_classText hname).1 h
  have htext : (word ++ " " ++ body).toList ++ [' ', '\x7d'] =
      word.toList ++ ' ' :: (body.toList ++ [' ', '\x7d']) := by
    simp
  refine (parse_classText hname).2 ⟨?_, ?_⟩
  · rw [toList_classText] at hdepth ⊢
    rw [htext]
    exact excess_wordBefore hshape hword hdepth
  · rw [htext]
    exact run_classMembers_word hword hmodifier hread

theorem parse_wordBeforeMembers_twice :
    isName "A" = true ∧ isIdentifier "get" = true ∧ "get" ∉ modifierWords ∧
      Program.parse ⟨.ecmaScript, false⟩ "class A \x7b x  \x7d" =
        .ok (classModule "A" [.field (.ident "x") none false]) ∧
      Program.parse ⟨.ecmaScript, false⟩ "class A \x7b get x  \x7d" =
        .ok (classModule "A" [.field (.ident "get") none false, .field (.ident "x") none false]) := by
  have hname : isName "A" = true := by decide
  have hword : isIdentifier "get" = true := by decide
  have hmodifier : "get" ∉ modifierWords := by decide
  have hempty := parse_emptyClass ⟨.ecmaScript, false⟩ hname (by decide +kernel)
  have hfield := parse_wordBeforeMembers hname (show isIdentifier "x" = true by decide) (by decide) hempty
  have hfields := parse_wordBeforeMembers hname hword hmodifier hfield
  have hone : classText "A" ("x" ++ " " ++ "") = "class A \x7b x  \x7d" := by decide
  have htwo : classText "A" ("get" ++ " " ++ ("x" ++ " " ++ "")) = "class A \x7b get x  \x7d" := by
    decide
  rw [hone] at hfield
  rw [htwo] at hfields
  exact ⟨hname, hword, hmodifier, hfield, hfields⟩

/-- What follows on the same line is read as a construct of its own, wherever a terminator may be
left out. -/
theorem parse_sameLine :
    (["class A \x7b get x() \x7b return 1 \x7d \x7d", "let a = 1 let b", "throw a b", "a b",
        "function f() \x7b return a b \x7d", "import 'm' a", "export * from 'm' a"].map fun text =>
      (Program.parse ⟨.ecmaScript, false⟩ text).toOption.map Program.print) =
    [some "class A \x7b\n    get;\n    x() \x7b\n        return 1;\n    \x7d\n\x7d\n",
      some "let a = 1;\nlet b;\n", some "throw a;\nb;\n", some "a;\nb;\n",
      some "function f() \x7b\n    return a;\n    b;\n\x7d\n", some "import 'm';\na;\n",
      some "export * from 'm';\na;\n"] := by
  decide +kernel

end TsxCompiler
