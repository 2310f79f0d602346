import TsxCompiler.Proofs.EntryTexts

/-!
# Object literals are read back

The entries of an object literal are printed as a row in braces, and each is read as it is printed.
In parentheses or as an argument the literal is tried as a pattern first: each of its entries is then
read to its end or not to the end of any entry (`PropertyText.tried`), so a try that reads the closing
brace has read the whole literal.
-/

namespace TsxCompiler.Grammar

open Peg Peg.Parser Text

variable {d : Dialect} {B : Parser (List Stmt)} {Good : List Char → Prop} {level : Nat}

/-! ## Entries -/

/-- The text of an entry of an object literal: it is read as the entry, and as an entry of an object
pattern it is read to its end or gets stuck. -/
structure PropertyText (d : Dialect) (B : Parser (List Stmt)) (Good : List Char → Prop)
    (x : Property) (text : String) : Prop
    extends EntryText d B Good (property (expression d B)) x text where
  closed : ∀ s, run (sym "\x7d") (text.toList ++ s) = none
  tried : ∀ rest, ValueEnd d B rest → EntryEnd d B (skip rest) → Good (text.toList ++ rest) →
    ∀ entry r, run (patternProperty (expression d B) (bindingPattern (expression d B)))
      (text.toList ++ rest) = some (entry, r) → r = skip rest ∨ isOpen r = true

section Entries

variable [Shrinks B] (hG : TextClass d Good) {e : Expr}
include hG

/-- A spread in an object literal. Tried as an entry of a pattern it is a rest entry. -/
theorem propertyText_spread (h : PrintsWell d B Good level e) :
    PropertyText d B Good (.spread e) ((Property.spread e).print level) := by
  have htext : ∀ s, ((Property.spread e).print level).toList ++ s =
      '.' :: '.' :: '.' :: ((e.print level).toList ++ s) := by
    simp [Property.print]
  have hgood : ∀ {s}, Good (((Property.spread e).print level).toList ++ s) →
      Good ((e.print level).toList ++ s) := by
    intro s hs
    rw [htext] at hs
    exact hG.append (w := ['.', '.', '.']) (by decide) hs
  refine { drop := fun s hs => h.drop s (hgood hs), skip_append := fun s => ?_,
           reads := fun rest hrest hs => ?_, closed := fun s => ?_,
           tried := fun rest hrest _ hs entry r hr => ?_ }
  · rw [htext]
    exact skip_cons (by decide) (by decide) _
  · have hread := h.reads_value hrest (hgood hs)
    rw [htext, property, run_choice_cons, run_map, run_skipThen, Printed.run_dots_append,
      Option.bind_some, h.skip_append, hread]
    rfl
  · rw [htext]
    exact run_sym_none "\x7d" rfl (by decide) _
  · have hends := h.pattern rest hrest.word hrest.number (hgood hs)
    rw [htext] at hr
    rcases run_choice_cons_inv hr with hr | ⟨-, hr⟩
    · obtain ⟨p, hp, -⟩ := run_map_inv hr
      rw [run_skipThen, Printed.run_dots_append, Option.bind_some, h.skip_append] at hp
      exact isOpen_of_patternEnds (hends p r hp)
    · -- neither a key nor a name starts with a point
      simp [run_choice_cons, run_both, run_seq, run_thenSkip,
        run_propertyKey_none (show startsMember '.' = false by decide),
        run_identifier_none (show isWordStart '.' = false by decide)] at hr

/-- A key with a value. Tried as an entry of a pattern, either the value is a pattern too, up to
where it ends as one, or the key is a name by itself and the colon is left. -/
theorem propertyText_keyed {key : PropertyKey} (hkey : KeyText d B Good key (key.print level))
    (h : PrintsWell d B Good level e) :
    PropertyText d B Good (.keyed key e) ((Property.keyed key e).print level) := by
  have htext : ∀ s, ((Property.keyed key e).print level).toList ++ s =
      (key.print level).toList ++ ':' :: ' ' :: ((e.print level).toList ++ s) := by
    simp [Property.print]
  have hgood : ∀ {s}, Good (((Property.keyed key e).print level).toList ++ s) →
      Good ((e.print level).toList ++ s) := by
    intro s hs
    rw [htext] at hs
    exact hG.append (w := [':', ' ']) (by decide) (hkey.drop _ hs)
  have hcolon : ∀ s, skip (':' :: ' ' :: s) = ':' :: ' ' :: s :=
    fun s => skip_cons (by decide) (by decide) _
  have hvalue : ∀ s, run (sym ":") (':' :: ' ' :: ((e.print level).toList ++ s)) =
      some ((), (e.print level).toList ++ s) := by
    intro s
    simp [run_sym, run_chars_cons, run_char_cons, skip_blank (show isBlank ' ' = true by decide),
      h.skip_append]
  have hdots : ∀ s, run (sym "...") ((key.print level).toList ++ s) = none :=
    hkey.run_sym_none "..." rfl (by decide)
  refine { drop := fun s hs => h.drop s (hgood hs), skip_append := fun s => ?_,
           reads := fun rest hrest hs => ?_, closed := fun s => ?_,
           tried := fun rest hrest hend hs entry r hr => ?_ }
  · rw [htext]
    exact hkey.skip_append _
  · have hread := h.reads_value hrest (hgood hs)
    rw [htext] at hs ⊢
    have hname := hkey.reads _ rfl rfl hs
    rw [hcolon] at hname
    rw [property, run_choice_cons, run_map, run_skipThen, hdots, run_choice_cons, run_both,
      run_thenSkip, hname, Option.bind_some, hvalue, Option.map_some, Option.bind_some, hread]
    rfl
  · rw [htext]
    exact hkey.run_sym_none "\x7d" rfl (by decide) _
  · have hends := h.pattern rest hrest.word hrest.number (hgood hs)
    rw [htext] at hs hr
    have hname := hkey.reads _ rfl rfl hs
    rw [hcolon] at hname
    rw [patternProperty, run_choice_cons, run_map, run_skipThen, hdots] at hr
    rcases run_choice_cons_inv hr with hr | ⟨-, hr⟩
    · obtain ⟨x, o, t, hx, ho, -⟩ := run_both_inv hr
      rw [run_seq, run_thenSkip, hname, Option.bind_some, hvalue, Option.map_some,
        Option.bind_some] at hx
      obtain ⟨y, hy, hxt⟩ := Option.map_eq_some_iff.1 hx
      obtain ⟨-, rfl⟩ := Prod.mk.inj hxt
      exact run_initializer_ends hend (hends y.1 y.2 hy) ho
    · -- a name in front of the colon, which nothing goes on with
      obtain ⟨name, o, t, hx, ho, -⟩ := run_both_inv hr
      obtain rfl := hkey.names _ rfl name t hx
      rw [hcolon, run_initializer_none (by decide)] at ho
      obtain ⟨-, rfl⟩ := Prod.mk.inj (Option.some.inj ho)
      exact .inr rfl

/-- A name by itself. In a pattern it may have a default, so what follows it is not `=`. -/
theorem propertyText_shorthand {name : String} (hname : isName name = true) :
    PropertyText d B Good (.shorthand name) ((Property.shorthand name).print level) := by
  have hword : isIdentifier name = true := isIdentifier_of_isName hname
  have hsym : ∀ (mark : String) {x : Char} {more : List Char}, mark.toList = x :: more →
      isWordStart x = false → ∀ s, run (sym mark) (name.toList ++ s) = none :=
    fun mark _ _ hm hx s => run_sym_word hm hx hword s
  have hcolon : ∀ {rest}, ValueEnd d B rest → run (sym ":") (skip rest) = none :=
    fun hrest => hrest.run_sym_none ":" rfl (by decide)
  rw [Property.print]
  refine { drop := fun s => hG.append (passed_of_isIdentifier hword),
           skip_append := skip_identifier hword, reads := fun rest hrest _ => ?_,
           closed := hsym "\x7d" rfl (by decide), tried := fun rest hrest hend _ entry r hr => ?_ }
  · simp [property, run_choice_cons, run_map, run_skipThen, run_both, run_thenSkip,
      hsym "..." rfl (by decide), run_propertyKey_word hword hrest.word, hcolon hrest,
      run_identifier_append hname hrest.word]
  · simp only [patternProperty, run_choice_cons, run_choice_nil, run_map, run_skipThen, run_both,
      run_seq, run_thenSkip, hsym "..." rfl (by decide), run_propertyKey_word hword hrest.word,
      hcolon hrest, run_identifier_append hname hrest.word, Option.bind_none, Option.map_none,
      Option.bind_some, Option.none_or] at hr
    obtain ⟨x, hx, hxr⟩ := Option.map_eq_some_iff.1 hr
    obtain ⟨-, rfl⟩ := Prod.mk.inj hxr
    have hends : PatternEnds d B False rest (skip rest) := .inl rfl
    exact run_initializer_ends hend hends hx

end Entries

/-! ## Literals -/

theorem printAll_objectEntries (props : List Property) (level : Nat) :
    Property.printAll props level = props.map fun x => x.print level := by
  induction props with
  | nil => rfl
  | cons x props ih => rw [Property.printAll, ih, List.map_cons]

section Literals

variable {props : List Property}

/-- The entries of a literal in front of its closing brace, tried as those of a pattern. -/
theorem rowTried_properties (hG : TextClass d Good)
    (h : ∀ x ∈ props, PropertyText d B Good x (x.print level)) {rest : List Char}
    (hgood : Good (rowText (' ' :: '\x7d' :: rest) (props.map fun x => (x.print level).toList))) :
    RowTried (patternProperty (expression d B) (bindingPattern (expression d B))) "\x7d"
      (' ' :: '\x7d' :: rest) (props.map fun x => (x.print level).toList) := by
  induction props with
  | nil => trivial
  | cons x props ih =>
    have hx := h x (by simp)
    have htail := hx.drop _ hgood
    have hend : EntryEnd d B (skip (rowTail (' ' :: '\x7d' :: rest)
        (props.map fun x => (x.print level).toList))) := by
      cases props with
      | nil =>
        rw [List.map_nil, rowTail, skip_blank (by decide), skip_cons (by decide) (by decide)]
        exact entryEnd_cons (by decide) rest
      | cons y props =>
        rw [List.map_cons, rowTail, skip_cons (by decide) (by decide)]
        exact entryEnd_cons (by decide) _
    refine ⟨fun entry r hr => ?_, hx.skip_append _, hx.closed _,
      ih (fun y hy => h y (by simp [hy])) ?_⟩
    · exact (hx.tried _ (valueEnd_rowTail (valueEnd_blank (by decide) rest) _) hend hgood entry r
        hr).imp id (dead_of_isOpen (by decide) rfl)
    · cases props with
      | nil => exact htail
      | cons y ys => exact hG.cons (by decide) (hG.cons (by decide) htail)

variable [Shrinks B] (hG : BraceClass d Good)
include hG

/-- A literal that is read as a pattern is read up to its closing brace. -/
theorem run_objectPattern_printed (h : ∀ x ∈ props, PropertyText d B Good x (x.print level))
    {rest r : List Char} {p : Pattern}
    (hgood : Good ((Print.bracesAround (props.map fun x => x.print level)).toList ++ rest))
    (hr : run (bindingPattern (expression d B))
      ((Print.bracesAround (props.map fun x => x.print level)).toList ++ rest) = some (p, r)) :
    r = skip rest := by
  have hbrace : skip ('\x7d' :: rest) = '\x7d' :: rest := skip_of_endsValue (by decide) rest
  have hnone : run (patternProperty (expression d B) (bindingPattern (expression d B)))
      ('\x7d' :: rest) = none := by
    simp [patternProperty, run_choice_cons, run_map, run_skipThen, run_both, run_seq, run_thenSkip,
      run_sym_none "..." rfl (show '\x7d' ≠ '.' by decide),
      run_propertyKey_none (show startsMember '\x7d' = false by decide),
      run_identifier_none (show isWordStart '\x7d' = false by decide)]
  rw [bracesAround_append] at hgood hr
  -- of the three kinds of patterns, only one starts with a brace
  rw [run_bindingPattern, patternBody, run_choice_cons, arrayPattern, run_map,
    run_inBrackets_none (by decide)] at hr
  rcases run_choice_cons_inv hr with hr | ⟨-, hr⟩
  · obtain ⟨entries, hentries, -⟩ := run_map_inv hr
    obtain ⟨t, u, hrow, hclose⟩ := run_between_inv rfl hentries
    have ht : t = '\x7d' :: rest := by
      split at hrow
      · rw [hbrace, run_sepByTrailing, hnone] at hrow
        exact (congrArg Prod.snd (Option.some.inj hrow)).symm
      · rename_i hne
        rw [if_neg hne] at hgood
        have hblank : skip (' ' :: '\x7d' :: rest) = '\x7d' :: rest := by
          rw [skip_blank (by decide), hbrace]
        rw [skip_blank (by decide), commaList_append, List.map_map] at hrow
        have hin := hG.cons (by decide) (hG.brace (.inl rfl) hgood)
        rw [commaList_append, List.map_map] at hin
        have hend := run_row_tried (rowTried_properties hG.toTextClass h hin)
          (hblank.symm ▸ run_sym_none "," rfl (by decide) rest) (hblank.symm ▸ hnone) hrow hclose
        rw [hend, hblank]
    subst ht
    simpa [run_sym, run_chars_cons, run_char_cons, eq_comm] using hclose
  · simp [run_choice_nil, run_map, run_identifier_none (show isWordStart '\x7b' = false by decide)]
      at hr

/-- An object literal keeps the invariant of printed expressions. -/
theorem PrintsWell.object (h : ∀ x ∈ props, PropertyText d B Good x (x.print level)) :
    PrintsWell d B Good level (.object props) := by
  have hentries : ∀ x ∈ props, EntryText d B Good (property (expression d B)) x (x.print level) :=
    fun x hx => (h x hx).toEntryText
  have hstart := bracesAround_append (props.map fun x => x.print level)
  have hnone : ∀ s, run (property (expression d B)) ('\x7d' :: s) = none := by
    intro s
    simp [property, run_choice_cons, run_map, run_skipThen, run_both, run_thenSkip,
      run_sym_none "..." rfl (show '\x7d' ≠ '.' by decide),
      run_propertyKey_none (show startsMember '\x7d' = false by decide),
      run_identifier_none (show isWordStart '\x7d' = false by decide)]
  refine PrintsWell.ofPrinted (Printed.ofPrimary ?_ (fun s => good_bracesAround hG hentries)
    (fun rest _ => ?_) (fun rest _ hgood => ?_) fun rest _ _ hgood p r hp =>
      .inl (run_objectPattern_printed hG h hgood hp)) rfl
    (by rw [Expr.print, printAll_objectEntries])
  · exact ⟨'\x7b', _, by simpa using hstart [], by decide⟩
  · rw [hstart]
    exact ⟨fun _ => run_unaryOp_none (by decide) (by decide) (by decide) (by decide) _,
      fun _ => run_newExpr_none (by decide) _⟩
  · have hread := run_bracesAround hG hentries hnone hgood
    rw [hstart] at hread ⊢
    rw [run_primary_cons (by decide) (by decide) (run_arrowExpr_none (by decide) (by decide) _),
      run_literalExpr_none (by decide) (by decide) (by decide) (by decide) (by decide), arrayExpr,
      run_map, run_inBrackets_none (by decide), objectExpr, run_map, hread]
    rfl

end Literals

end TsxCompiler.Grammar
