import TsxCompiler.Proofs.ParsedTrees
import TsxCompiler.Proofs.ConditionalArrows

/-!
# How tags are read

The names in tags, what stands between an opening and a closing tag, and the two kinds of elements
put together from these parts. Everything here is said of texts that go on in any way.
-/

namespace TsxCompiler.Grammar

open Peg Peg.Parser Text

/-! ## Names -/

/-- A character that a name in a tag may go on with. -/
def isNamePart (c : Char) : Bool :=
  isWordPart c || c == '-'

/-- A name between two points or colons. -/
def IsSegment (name : String) : Prop :=
  ∃ c cs, name.toList = c :: cs ∧ isWordStart c = true ∧ cs.all isNamePart = true

/-- The name of a tag: names with points between them. -/
def IsTag (name : String) : Prop :=
  ∃ first more, IsSegment first ∧ (∀ x ∈ more, IsSegment x) ∧ name = ".".intercalate (first :: more)

/-- The name of an attribute, which may have a namespace. -/
def IsAttributeName (name : String) : Prop :=
  IsSegment name ∨ ∃ space own, IsSegment space ∧ IsSegment own ∧ name = space ++ ":" ++ own

/-- Whether no name goes on with a text. -/
def endsName : List Char → Bool
  | [] => true
  | c :: _ => !isNamePart c && c != '.' && c != ':'

section Names

variable {name : String} {rest : List Char}

theorem isSegment_of_isIdentifier (h : isIdentifier name = true) : IsSegment name := by
  obtain ⟨c, cs, hc, hstart⟩ := exists_of_isIdentifier h
  refine ⟨c, cs, hc, hstart, ?_⟩
  have hall := all_of_isIdentifier h
  rw [hc, List.all_cons, Bool.and_eq_true, List.all_eq_true] at hall
  rw [List.all_eq_true]
  intro x hx
  simp [isNamePart, hall.2 x hx]

theorem yields_segment : Yields IsSegment nameSegment :=
  (Yields.satisfy _).both (Yields.satisfy _).many fun c cs hc hcs =>
    ⟨c, cs, String.toList_ofList, hc, List.all_eq_true.2 hcs⟩

theorem yields_tag : Yields IsTag tagName := by
  refine ((yields_segment.sepBy1 _).map fun names h => ?_).label _
  cases names with
  | nil => exact absurd rfl h.1
  | cons first more =>
    exact ⟨first, more, h.2 first (by simp), fun x hx => h.2 x (by simp [hx]), rfl⟩

theorem yields_attributeName : Yields IsAttributeName attributeName := by
  refine (yields_segment.both (yields_segment.skipThen _).optional
    fun name own hname hown => ?_).label _
  cases own with
  | none => exact .inl hname
  | some own => exact .inr ⟨name, own, hname, hown own rfl, rfl⟩

theorem run_nameSegment_append (h : IsSegment name)
    (hend : ∀ c ∈ rest.head?, isNamePart c = false) :
    run nameSegment (name.toList ++ rest) = some (name, rest) := by
  obtain ⟨c, cs, hc, hstart, hparts⟩ := h
  obtain ⟨htake, hdrop⟩ := takeWhile_append_of_all hparts hend
  have hspelled : String.ofList (c :: cs) = name := by rw [← hc, String.ofList_toList]
  change run (both _ (satisfy isWordStart) (many (satisfy isNamePart))) _ = _
  rw [hc, List.cons_append, run_both, run_satisfy_cons, if_pos hstart, Option.bind_some,
    run_many_satisfy, htake, hdrop, Option.map_some, hspelled]

theorem head_of_endsName (h : endsName rest = true) :
    ∀ c ∈ rest.head?, isNamePart c = false ∧ c ≠ '.' ∧ c ≠ ':' := by
  cases rest with
  | nil => simp
  | cons c rest => simpa [endsName, and_assoc] using h

/-- The text of the names behind the first one. -/
def pointed (more : List String) : List Char :=
  more.flatMap fun x => '.' :: x.toList

theorem toList_intercalate_points (first : String) (more : List String) :
    (".".intercalate (first :: more)).toList = first.toList ++ pointed more := by
  have hsep : ".".toList = ['.'] := rfl
  rw [String.toList_intercalate, hsep, List.map_cons]
  induction more generalizing first with
  | nil => simp [pointed]
  | cons next more ih =>
    rw [List.map_cons, List.intercalate_cons_cons, ih next]
    simp [pointed]

theorem IsSegment.isTag (h : IsSegment name) : IsTag name := by
  refine ⟨name, [], h, by simp, ?_⟩
  rw [← String.toList_inj, toList_intercalate_points]
  exact (List.append_nil _).symm

/-- No name goes on behind the point that divides it from the next one. -/
theorem head_pointed (more : List String) (hend : endsName rest = true) :
    ∀ c ∈ (pointed more ++ rest).head?, isNamePart c = false := by
  cases more with
  | nil => exact fun c hc => (head_of_endsName hend c hc).1
  | cons x more =>
    intro c hc
    obtain rfl : '.' = c := by simpa [pointed] using hc
    decide

theorem runFollowers_points {more : List String} (h : ∀ x ∈ more, IsSegment x)
    (hend : endsName rest = true) :
    runFollowers (char '.') nameSegment (pointed more ++ rest) = (more, rest) := by
  induction more with
  | nil =>
    have hpoint : run (char '.') rest = none := by
      cases rest with
      | nil => rfl
      | cons c rest => simp [run_char_cons, (head_of_endsName hend c rfl).2.1]
    exact runFollowers_none hpoint
  | cons x more ih =>
    have hread : run ((char '.').skipThen nameSegment)
        ('.' :: (x.toList ++ (pointed more ++ rest))) = some (x, pointed more ++ rest) := by
      rw [run_skipThen, run_char_cons, if_pos rfl, Option.bind_some]
      exact run_nameSegment_append (h x (by simp)) (head_pointed more hend)
    have htext : pointed (x :: more) ++ rest = '.' :: (x.toList ++ (pointed more ++ rest)) := by
      simp [pointed]
    have hlength : (pointed more ++ rest).length <
        ('.' :: (x.toList ++ (pointed more ++ rest))).length := by
      simp only [List.length_cons, List.length_append]
      omega
    rw [htext, runFollowers_eq, hread]
    simp only [if_pos hlength, ih fun y hy => h y (by simp [hy])]

theorem run_tagName_append (h : IsTag name) (hend : endsName rest = true) :
    run tagName (name.toList ++ rest) = some (name, rest) := by
  obtain ⟨first, more, hfirst, hmore, rfl⟩ := h
  rw [toList_intercalate_points, List.append_assoc]
  simp [tagName, run_map, run_sepBy1, run_nameSegment_append hfirst (head_pointed more hend),
    runFollowers_points hmore hend]

theorem run_attributeName_append (h : IsAttributeName name) (hend : endsName rest = true) :
    run attributeName (name.toList ++ rest) = some (name, rest) := by
  have hhead := head_of_endsName hend
  have hcolon : run (char ':') rest = none := by
    cases rest with
    | nil => rfl
    | cons c rest => simp [run_char_cons, (hhead c rfl).2.2]
  rcases h with hname | ⟨space, own, hspace, hown, rfl⟩
  · simp [attributeName, run_both, run_nameSegment_append hname fun c hc => (hhead c hc).1,
      run_optional, run_skipThen, hcolon]
  · have htext : (space ++ ":" ++ own).toList ++ rest =
        space.toList ++ ':' :: (own.toList ++ rest) := by
      simp
    have hstop : ∀ c ∈ (':' :: (own.toList ++ rest)).head?, isNamePart c = false := by
      intro c hc
      obtain rfl : ':' = c := by simpa using hc
      decide
    rw [htext]
    simp [attributeName, run_both, run_nameSegment_append hspace hstop, run_optional, run_skipThen,
      run_char_cons, run_nameSegment_append hown fun c hc => (hhead c hc).1]

theorem IsTag.exists_start (h : IsTag name) :
    ∃ c cs, name.toList = c :: cs ∧ isWordStart c = true := by
  obtain ⟨first, more, ⟨c, cs, hc, hstart, -⟩, -, rfl⟩ := h
  exact ⟨c, cs ++ pointed more, by rw [toList_intercalate_points, hc, List.cons_append], hstart⟩

theorem IsAttributeName.exists_start (h : IsAttributeName name) :
    ∃ c cs, name.toList = c :: cs ∧ isWordStart c = true := by
  rcases h with ⟨c, cs, hc, hstart, -⟩ | ⟨space, own, ⟨c, cs, hc, hstart, -⟩, -, rfl⟩
  · exact ⟨c, cs, hc, hstart⟩
  · exact ⟨c, cs ++ (':' :: own.toList), by simp [hc], hstart⟩

end Names

/-! ## Closing tags and children -/

section Children

variable {name : String} {E : Parser Expr}

/-- What stands in a closing tag is no comment. A fragment closes without a name. -/
theorem skip_closing (h : name = "" ∨ IsTag name) (rest : List Char) :
    skip ('/' :: (name.toList ++ '>' :: rest)) = '/' :: (name.toList ++ '>' :: rest) := by
  rcases h with rfl | h
  · exact skip_slash (by decide) (by decide) rest
  · obtain ⟨c, cs, hc, hstart⟩ := h.exists_start
    rw [hc, List.cons_append]
    exact skip_slash (ne_of_isWordStart hstart (by decide)) (ne_of_isWordStart hstart (by decide)) _

theorem skip_tag (h : IsTag name) (rest : List Char) :
    skip (name.toList ++ rest) = name.toList ++ rest := by
  obtain ⟨c, cs, hc, hstart⟩ := h.exists_start
  rw [hc]
  exact skip_wordStart hstart _

theorem run_closingTag_append (h : name = "" ∨ IsTag name) (rest : List Char) :
    run closingTag ('<' :: '/' :: (name.toList ++ '>' :: rest)) = some (name, rest) := by
  have hslash := skip_closing h rest
  have hbracket : skip ('>' :: rest) = '>' :: rest := skip_cons (by decide) (by decide) rest
  rcases h with rfl | h
  · have htag : run (lexeme tagName) ('>' :: rest) = none := by
      simp [run_lexeme, tagName, run_map, run_sepBy1, nameSegment, run_both, run_satisfy_cons,
        show isWordStart '>' = false by decide]
    simp only [String.toList_empty, List.nil_append] at hslash ⊢
    simp [closingTag, run_map, run_thenSkip, run_skipThen, run_seq, run_char_cons, run_trivia,
      hslash, hbracket, run_optional_none htag]
  · have htag : run (lexeme tagName) (name.toList ++ '>' :: rest) = some (name, '>' :: rest) := by
      rw [run_lexeme, run_tagName_append h rfl, Option.map_some, hbracket]
    simp [closingTag, run_map, run_thenSkip, run_skipThen, run_seq, run_char_cons, run_trivia,
      hslash, skip_tag h, run_optional_some htag]

/-- A child that starts with a tag is an element. -/
theorem run_child_tag (t : List Char) :
    run (child E (element E)) ('<' :: t) =
      (run (element E) ('<' :: t)).map fun x => (.element x.1, x.2) := by
  have htext : run childText ('<' :: t) = none := by
    simp [run_childText, Option.filter, isChildChar]
  simp [child, run_choice_cons, htext, childContainer, run_map, run_thenSkip, run_skipThen,
    run_char_cons]

/-- A text is a child of its own, up to the next tag or container. -/
theorem run_child_text {content : String} (hplain : content.toList.all isChildChar = true)
    (hne : content.toList ≠ []) {rest : List Char}
    (hstop : ∀ c ∈ rest.head?, isChildChar c = false) :
    run (child E (element E)) (content.toList ++ rest) = some (.text content, rest) := by
  obtain ⟨htake, hdrop⟩ := takeWhile_append_of_all hplain hstop
  obtain ⟨c, cs, hc⟩ := List.exists_cons_of_ne_nil hne
  have hhead : (content.toList ++ rest).head?.filter isChildChar = some c := by
    rw [hc, List.all_cons, Bool.and_eq_true] at hplain
    simp [hc, Option.filter, hplain.1]
  have htext : run childText (content.toList ++ rest) = some (.text content, rest) := by
    rw [run_childText, hhead, htake, hdrop, String.ofList_toList]
    rfl
  simp [child, run_choice_cons, htext]

theorem run_elementAttribute_none {X : Parser Element} {c : Char} (hstart : isWordStart c = false)
    (hbrace : c ≠ '\x7b') (t : List Char) : run (elementAttribute E X) (c :: t) = none := by
  simp [elementAttribute, run_choice_cons, run_map, run_lexeme, run_thenSkip, run_skipThen,
    run_char_cons, hbrace, run_both, attributeName, nameSegment, run_satisfy_cons, hstart]

theorem run_elementBody_closed {X : Parser Element} (rest : List Char) :
    run (elementBody E X) ('/' :: '>' :: rest) = some (none, rest) := by
  simp [elementBody, run_choice_cons, run_yielding, literal, run_chars_cons, run_char_cons]

theorem run_elementBody_children (h : IsTag name) {s rest : List Char} {children : List Child}
    (hchildren : run (many (child E (element E))) s =
      some (children, '<' :: '/' :: (name.toList ++ '>' :: rest))) :
    run (elementBody E (element E)) ('>' :: s) = some (some (children, name), rest) := by
  simp [elementBody, run_choice_cons, run_yielding, literal, run_chars_cons, run_char_cons, run_map,
    run_seq, run_skipThen, hchildren, run_closingTag_append (.inr h)]

variable [Shrinks E]

instance : Consumes (child E (element E)) := by
  unfold child
  infer_instance

/-- No child starts at a closing tag. -/
theorem run_child_closing (h : name = "" ∨ IsTag name) (rest : List Char) :
    run (child E (element E)) ('<' :: '/' :: (name.toList ++ '>' :: rest)) = none := by
  have hslash := skip_closing h rest
  have hsegment : ∀ t, run nameSegment ('/' :: t) = none := by
    simp [nameSegment, run_both, run_satisfy_cons, show isWordStart '/' = false by decide]
  have helement : run (element E) ('<' :: '/' :: (name.toList ++ '>' :: rest)) = none := by
    rw [run_element]
    simp [markupBody, fragment, taggedElement, run_orElse, run_check, run_seq, run_skipThen,
      run_char_cons, run_trivia, hslash, run_lexeme, tagName, run_map, run_sepBy1, hsegment]
  rw [run_child_tag, helement]
  rfl

/-! ## Elements -/

/-- An element from its name, its attributes and what stands behind them. -/
theorem run_element_tag (h : IsTag name) {t more rest : List Char} (ht : endsName t = true)
    {attributes : List Attribute} {body : Option (List Child × String)} {el : Element}
    (hattributes : run (many (elementAttribute E (element E))) (skip t) = some (attributes, more))
    (hbody : run (elementBody E (element E)) more = some (body, rest))
    (hclose : closeElement name attributes body = .ok el) :
    run (element E) ('<' :: (name.toList ++ t)) = some (el, rest) := by
  have hfragment : run (fragment E (element E)) ('<' :: (name.toList ++ t)) = none := by
    have hbracket : run (char '>') (name.toList ++ t) = none := by
      obtain ⟨c, cs, hc, hstart⟩ := h.exists_start
      rw [hc, List.cons_append, run_char_cons, if_neg (ne_of_isWordStart hstart (by decide))]
    simp [fragment, run_check, run_seq, run_skipThen, run_char_cons, run_trivia, skip_tag h,
      hbracket]
  have htag : run (lexeme tagName) (name.toList ++ t) = some (name, skip t) := by
    rw [run_lexeme, run_tagName_append h ht, Option.map_some]
  rw [run_element, markupBody, run_orElse, hfragment]
  simp [taggedElement, run_check, run_seq, run_skipThen, run_char_cons, run_trivia, skip_tag h,
    htag, hattributes, hbody, hclose, Except.toOption]

theorem run_element_fragment {s rest : List Char} {children : List Child}
    (hchildren : run (many (child E (element E))) s =
      some (children, '<' :: '/' :: '>' :: rest)) :
    run (element E) ('<' :: '>' :: s) = some (⟨none, [], children, false⟩, rest) := by
  have hclosing : run closingTag ('<' :: '/' :: '>' :: rest) = some ("", rest) :=
    run_closingTag_append (.inl rfl) rest
  have hbracket : skip ('>' :: s) = '>' :: s := skip_cons (by decide) (by decide) s
  rw [run_element, markupBody, run_orElse]
  simp [fragment, run_check, run_seq, run_skipThen, run_char_cons, run_trivia, hbracket, hchildren,
    hclosing, Except.toOption]

/-- An element is an operand, where markup is part of the language. -/
theorem run_primary_element {d : Dialect} (hd : d.markup = true) {B : Parser (List Stmt)}
    [Shrinks B] {t r : List Char} {el : Element}
    (h : run (element (expression d B)) ('<' :: t) = some (el, r)) :
    run (primary d B (expression d B)) ('<' :: t) = some (.jsx el, skip r) := by
  have hlt : isWordStart '<' = false := by decide
  simp [primary, run_choice_cons, run_arrowExpr_none hlt (by decide), functionExpr, run_map,
    run_functionWith_none hlt, classExpr, run_classWith_none hlt, markupExpr, hd, run_lexeme, h]

end Children

end TsxCompiler.Grammar
