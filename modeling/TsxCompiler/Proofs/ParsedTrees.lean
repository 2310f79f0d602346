import TsxCompiler.Proofs.ModuleTexts
import TsxCompiler.Proofs.WellFormed
import TsxCompiler.Proofs.Yields

/-!
# Parsed trees are well formed

Every rule of the grammar yields a well-formed part of the tree, given that the rules it refers to
do. Through the recursive rules for patterns, elements, expressions and statements this holds of
every module that is read.
-/

namespace TsxCompiler.Grammar

open Peg Peg.Parser Text

/-! ## Words and literals -/

theorem yields_identifier : Yields (fun name => isName name = true) identifier :=
  fun _ _ _ h => (run_identifier_inv h).1

theorem yields_word : Yields (fun name => isIdentifier name = true) word :=
  fun _ _ _ h => (run_word_inv h).1

theorem yields_stringLit : Yields IsSpelled stringLit :=
  fun _ _ _ h => (run_stringLit_inv h).1

theorem yields_number : Yields IsNumeral number :=
  fun _ _ _ h => (run_number_inv h).1

theorem yields_template : Yields (fun raw => isTemplateText raw = true) template :=
  fun _ _ _ h => (run_template_inv h).1

theorem yields_lexeme {α : Type} {P : α → Prop} {p : Parser α} (h : Yields P p) :
    Yields P (lexeme p) :=
  h.thenSkip trivia

/-! ## Patterns -/

theorem nodes_withDefault {F : Node → Prop} {p : Pattern} {value : Option Expr}
    (h : AllNodes F (withDefault p value).nodes) :
    AllNodes F p.nodes ∧ ∀ e ∈ value, AllNodes F e.nodes := by
  cases value with
  | none => exact ⟨h, by simp⟩
  | some e =>
    refine ⟨h.tail.left, fun x hx => ?_⟩
    obtain rfl : e = x := by simpa using hx
    exact h.tail.right

section Rules

variable {d : Dialect} {E : Parser Expr} {B : Parser (List Stmt)}
  (hE : Yields (fun e => AllWritten e.nodes) E)
  (hB : Yields (fun ss => ∀ s ∈ ss, AllWritten s.nodes) B)

section Patterns

include hE

theorem yields_propertyKey :
    Yields (fun key => key.WellFormed ∧ AllWritten key.nodes) (propertyKey E) := by
  refine .choice (yields_stringLit.map fun lit h => ⟨h, ?_⟩)
    (.choice (yields_number.map fun text h => ⟨h, ?_⟩)
      (.choice ((hE.between _ _).map fun value h => ⟨trivial, ?_⟩)
        (yields_word.map fun name h => ⟨h, ?_⟩)))
  all_goals simp_all

theorem yields_initializer :
    Yields (fun value => ∀ e ∈ value, AllWritten e.nodes) (initializer E) :=
  (hE.skipThen _).optional

omit hE in
theorem allWritten_withDefault {target : Pattern} {value : Option Expr}
    (ht : target.isWithDefault = false ∧ AllWritten target.nodes)
    (hv : ∀ e ∈ value, AllWritten e.nodes) : AllWritten (withDefault target value).nodes := by
  cases value with
  | none => exact ht.2
  | some e =>
    have he := hv e rfl
    simp [withDefault, ht.1, ht.2, he]

variable {X : Parser Pattern}
  (hX : Yields (fun p => p.isWithDefault = false ∧ AllWritten p.nodes) X)
include hX

theorem yields_patternElement : Yields (fun p => AllWritten p.nodes) (patternElement E X) := by
  refine .orElse ((hX.skipThen _).map fun p hp => ?_)
    (hX.both (yields_initializer hE) fun p value hp hv => allWritten_withDefault hp hv)
  simp [hp.2]

theorem yields_patternProperty :
    Yields (fun p => p.WellFormed ∧ AllWritten p.nodes) (patternProperty E X) := by
  refine .choice ((hX.skipThen _).map fun p hp => ?_)
    (.choice ((((yields_propertyKey hE).thenSkip _).seq hX).both (yields_initializer hE)
      fun entry value he hv => ?_)
      (yields_identifier.both (yields_initializer hE) fun name value hn hv => ?_))
  · simp [PatternProperty.WellFormed, hp.2]
  · obtain ⟨⟨hkey, hnodes⟩, htarget⟩ := he
    have hdefault := allWritten_withDefault htarget hv
    simp [PatternProperty.WellFormed, hkey, hnodes, hdefault]
  · cases value with
    | none => simp [PatternProperty.WellFormed, hn]
    | some e =>
      have he := hv e rfl
      simp [PatternProperty.WellFormed, hn, he]

omit hX in
theorem yields_bindingPattern :
    Yields (fun p => p.isWithDefault = false ∧ AllWritten p.nodes) (bindingPattern E) := by
  refine .fix fun X hX => .choice ?_ (.choice ?_ ?_)
  · refine (((yields_patternElement hE hX).sepByTrailing _).between _ _).map fun ps hps => ?_
    simpa [Pattern.isWithDefault] using hps
  · refine (((yields_patternProperty hE hX).sepByTrailing _).between _ _).map fun ps hps => ?_
    simp only [Pattern.isWithDefault, Pattern.nodes, PatternProperty.nodesAll_eq,
      allNodes_cons, Node.Written, Node.WellFormed, Node.IsSpelled, Pattern.WellFormed,
      allNodes_flatMap, true_and, and_true]
    exact ⟨fun p hp => (hps p hp).1, fun p hp => (hps p hp).2⟩
  · refine yields_identifier.map fun name hn => ?_
    simp [Pattern.isWithDefault, hn]

omit hX in
theorem yields_params : Yields (fun ps => ∀ p ∈ ps, AllWritten p.nodes) (params d E) := by
  have hpattern := yields_bindingPattern hE
  refine .between _ _ (.sepByTrailing _ (.orElse ?_ ?_))
  · refine ((hpattern.skipThen _).thenSkip _).map fun p hp => ?_
    simp [hp.2]
  · exact ((hpattern.thenSkip _).thenSkip _).both (yields_initializer hE) fun p value hp hv =>
      allWritten_withDefault hp hv

end Patterns

/-! ## Functions and classes -/

section Callables

include hE hB

theorem yields_functionTail :
    Yields (fun x => (∀ p ∈ x.1, AllWritten p.nodes) ∧ ∀ s ∈ x.2, AllWritten s.nodes)
      (functionTail d E B) :=
  (((yields_params hE).skipThen _).thenSkip _).seq hB

theorem yields_functionWith {α : Type} {P : α → Prop} {name : Parser α} (hname : Yields P name) :
    Yields (fun x => P x.1 ∧ AllWritten x.2.nodes) (functionWith name d E B) := by
  refine (((Yields.trivial asyncMark).thenSkip _).seq hname).both (yields_functionTail hE hB)
    fun x y hx hy => ⟨hx.2, ?_⟩
  simpa using hy

theorem yields_classMember :
    Yields (fun m => m.WellFormed ∧ AllWritten m.nodes) (classMember d E B) := by
  have hkey := yields_propertyKey hE
  have hmethod : Yields (fun (f : Bool → ClassMember) =>
      ∀ b, (f b).WellFormed ∧ AllWritten (f b).nodes) (methodMember d E B) := by
    refine ((Yields.trivial asyncMark).seq hkey).both (yields_functionTail hE hB)
      fun x y hx hy b => ?_
    obtain ⟨-, hkey, hnodes⟩ := hx
    simpa [ClassMember.WellFormed, hkey, hnodes]
      using hy
  have hfield : Yields (fun (f : Bool → ClassMember) =>
      ∀ b, (f b).WellFormed ∧ AllWritten (f b).nodes) (fieldMember d E) := by
    refine (((hkey.thenSkip _).thenSkip _).both (yields_initializer hE)
      fun key value hkey hv b => ?_).thenSkip _
    cases value with
    | none => simpa [ClassMember.WellFormed] using hkey
    | some e =>
      have he := hv e rfl
      simpa [ClassMember.WellFormed, he] using hkey
  exact ((Yields.trivial _).thenSkip _).both (hmethod.orElse hfield) fun b f _ hf => hf b

theorem yields_classTail : Yields (fun body => AllWritten body.nodes) (classTail d E B) := by
  have hmembers : Yields (fun ms => ∀ m ∈ ms, m.WellFormed ∧ AllWritten m.nodes)
      (classMembers d E B) :=
    (((yields_classMember hE hB).thenSkip _).many.skipThen _).between _ _
  refine (((hE.skipThen _).optional.skipThen _).thenSkip _).both hmembers
    fun superClass members hs hm => ?_
  have hparts : (∀ m ∈ members, m.WellFormed) ∧ ∀ m ∈ members, AllWritten m.nodes :=
    ⟨fun m hmem => (hm m hmem).1, fun m hmem => (hm m hmem).2⟩
  cases superClass with
  | none => simpa using hparts
  | some e =>
    have he := hs e rfl
    simpa [he] using hparts

theorem yields_classWith {α : Type} {P : α → Prop} {name : Parser α} (hname : Yields P name) :
    Yields (fun x => P x.1 ∧ AllWritten x.2.nodes) (classWith name d E B) :=
  (hname.skipThen _).seq (yields_classTail hE hB)

end Callables

/-! ## Markup -/

/-- Characters that start neither a tag nor a container. -/
def isChildChar (c : Char) : Bool :=
  c != '<' && c != '\x7b'

/-- A text between tags is as long as possible. -/
theorem run_childText (s : List Char) :
    run childText s = (s.head?.filter isChildChar).map fun _ =>
      (.text (String.ofList (s.takeWhile isChildChar)), s.dropWhile isChildChar) := by
  change run ((many1 (satisfy isChildChar)).map fun cs => Child.text (String.ofList cs)) s = _
  rw [run_map, run_many1, run_many_satisfy]
  cases s with
  | nil => rfl
  | cons c s =>
    rw [run_satisfy_cons]
    cases hc : isChildChar c <;> simp [hc, Option.filter]

/-- A text child runs up to the first `<` or brace, so no other text child follows it. -/
theorem run_childText_inv {s r : List Char} {c : Child} (h : run childText s = some (c, r)) :
    c.isText = true ∧ c.WellFormed ∧ run childText r = none := by
  rw [run_childText] at h
  obtain ⟨x, hx, hc⟩ := Option.map_eq_some_iff.1 h
  obtain ⟨hhead, hplain⟩ := Option.filter_eq_some_iff.1 hx
  obtain ⟨t, rfl⟩ : ∃ t, s = x :: t := List.head?_eq_some_iff.1 hhead
  simp only [Prod.mk.injEq] at hc
  obtain ⟨rfl, rfl⟩ := hc
  have hchars : ∀ c ∈ (x :: t).takeWhile isChildChar, isChildChar c = true :=
    fun c hc => List.all_eq_true.1 List.all_takeWhile c hc
  refine ⟨rfl, ⟨?_, ?_, ?_⟩, ?_⟩
  · rw [List.takeWhile_cons_of_pos hplain]
    simp
  · intro hmem
    simpa [isChildChar] using hchars '<' (by simpa using hmem)
  · intro hmem
    simpa [isChildChar] using hchars '\x7b' (by simpa using hmem)
  · have hstop : (((x :: t).dropWhile isChildChar).head?.filter isChildChar) = none := by
      cases hd : ((x :: t).dropWhile isChildChar).head? with
      | none => rfl
      | some y =>
        have hy := List.head?_dropWhile_not isChildChar (x :: t)
        simp only [hd] at hy
        simp [Option.filter, hy]
    rw [run_childText, hstop]
    rfl

/-- A child is the text that can be read, and if none can be read it is no text. -/
theorem run_child_inv {X : Parser Element} {s r : List Char} {c : Child}
    (h : run (child E X) s = some (c, r)) :
    run childText s = some (c, r) ∨ run childText s = none ∧ c.isText = false := by
  rcases run_choice_cons_inv h with h | ⟨hnone, h⟩
  · exact .inl h
  refine .inr ⟨hnone, ?_⟩
  rcases run_choice_cons_inv h with h | ⟨-, h⟩
  · obtain ⟨value, -, rfl⟩ := run_map_inv h
    rfl
  · obtain ⟨e, -, rfl⟩ := run_map_inv h
    rfl

theorem textsApart_cons {c : Child} {cs : List Child} (hcs : Child.textsApart cs = true)
    (hhead : c.isText = true → ∀ x ∈ cs.head?, x.isText = false) :
    Child.textsApart (c :: cs) = true := by
  cases cs with
  | nil => rfl
  | cons x cs =>
    rw [Child.textsApart, hcs]
    cases hc : c.isText with
    | false => rfl
    | true => simp [hhead hc x rfl]

/-- Texts are read as long as possible, so behind a text there is no other one. -/
theorem textsApart_of_run {X : Parser Element} {s r : List Char} {cs : List Child}
    (h : run (many (child E X)) s = some (cs, r)) :
    Child.textsApart cs = true ∧
      (run childText s = none → ∀ x ∈ cs.head?, x.isText = false) := by
  -- by induction over what is left: behind a text child none is read
  induction hn : s.length using Nat.strongRecOn generalizing s cs with
  | _ n ih =>
    rw [run_many] at h
    split at h
    · simp only [Option.some.injEq, Prod.mk.injEq] at h
      simp [← h.1, Child.textsApart]
    · rename_i c t hc
      have hfirst : run childText s = none → c.isText = false := by
        intro hnone
        rcases run_child_inv hc with htext | ⟨-, htext⟩
        · simp [hnone] at htext
        · exact htext
      split at h
      · obtain ⟨⟨cs', u⟩, hu, hb⟩ := Option.map_eq_some_iff.1 h
        cases hb
        obtain ⟨hapart, hhead⟩ := ih t.length (by omega) hu rfl
        refine ⟨textsApart_cons hapart fun htext => hhead ?_, by simpa using hfirst⟩
        rcases run_child_inv hc with hread | ⟨-, hother⟩
        · exact (run_childText_inv hread).2.2
        · simp [hother] at htext
      · simp only [Option.some.injEq, Prod.mk.injEq] at h
        rw [← h.1]
        exact ⟨rfl, by simpa using hfirst⟩

theorem yields_nameSegment : Yields (fun name => isTagName name = true) nameSegment := by
  refine (Yields.satisfy _).both (Yields.satisfy _).many fun c cs hc hcs => ?_
  simp only [isTagName, String.toList_ofList, List.all_cons, Bool.and_eq_true, List.all_eq_true]
  refine ⟨by simp [isWordPart_of_isWordStart hc], fun x hx => ?_⟩
  have hx := hcs x hx
  simp only [Bool.or_eq_true] at hx ⊢
  exact .inl hx

theorem isTagName_intercalate {names : List String} (h : ∀ name ∈ names, isTagName name = true) :
    isTagName (".".intercalate names) = true := by
  have hsep : ".".toList = ['.'] := rfl
  rw [isTagName, String.toList_intercalate, hsep]
  induction names with
  | nil => rfl
  | cons name names ih =>
    have hname := h name (by simp)
    rw [isTagName] at hname
    have hnames := ih fun x hx => h x (by simp [hx])
    cases names with
    | nil => simpa using hname
    | cons next names =>
      simp only [List.map_cons] at hnames ⊢
      rw [List.intercalate_cons_cons, List.all_append, List.all_append, hname, hnames]
      rfl

theorem yields_tagName : Yields (fun name => isTagName name = true) tagName := by
  refine ((yields_nameSegment.sepBy1 _).map fun names h => ?_).label _
  exact isTagName_intercalate h.2

section Elements

include hE

variable {X : Parser Element} (hX : Yields (fun e => AllWritten e.nodes) X)
include hX

theorem yields_elementAttribute :
    Yields (fun a => a.WellFormed ∧ AllWritten a.nodes) (elementAttribute E X) := by
  have hvalue : Yields (fun v => (∀ name, (Attribute.named name (some v)).WellFormed) ∧
      AllWritten v.nodes) (attributeValue E X) := by
    refine .choice (yields_stringLit.map fun lit h => ?_)
      (.choice ((yields_lexeme (((hE.skipThen _)).thenSkip _)).map fun e he => ?_)
        ((yields_lexeme hX).map fun e he => ?_))
    · simpa [Attribute.WellFormed] using h
    · simpa [Attribute.WellFormed] using he
    · simpa [Attribute.WellFormed] using he
  refine .choice ((yields_lexeme ((hE.skipThen _).thenSkip _)).map fun e he => ?_)
    ((Yields.trivial _).both (hvalue.skipThen _).optional fun name value _ hv => ?_)
  · simpa [Attribute.WellFormed] using he
  · cases value with
    | none => simp [Attribute.WellFormed]
    | some v => exact ⟨(hv v rfl).1 name, by simpa using (hv v rfl).2⟩

theorem yields_child : Yields (fun c => c.WellFormed ∧ AllWritten c.nodes) (child E X) := by
  refine .choice (fun s c r h => ?_) (.choice ((((hE.optional).skipThen _).thenSkip _).map
    fun value hv => ?_) (hX.map fun e he => ?_))
  · obtain ⟨htext, hwell, -⟩ := run_childText_inv h
    refine ⟨hwell, ?_⟩
    cases c with
    | text raw => simp
    | expr value => simp [Child.isText] at htext
    | element e => simp [Child.isText] at htext
  · cases value with
    | none => simp [Child.WellFormed]
    | some e => simpa [Child.WellFormed] using hv e rfl
  · simpa [Child.WellFormed] using he

theorem yields_children :
    Yields (fun cs => (∀ c ∈ cs, c.WellFormed ∧ AllWritten c.nodes) ∧
      Child.textsApart cs = true) (many (child E X)) :=
  fun s cs r h => ⟨(yields_child hE hX).many s cs r h, (textsApart_of_run h).1⟩

theorem yields_fragment : Yields (fun e => AllWritten e.nodes) (fragment E X) := by
  refine (((yields_children hE hX).skipThen _).seq (Yields.trivial _)).check fun x e hx he => ?_
  obtain ⟨⟨hchildren, hapart⟩, -⟩ := hx
  simp only at he
  split at he
  · cases he
    have hroot : Element.WellFormed ⟨none, [], x.1, false⟩ :=
      { fragment_attributes := fun _ => rfl
        fragment_open := fun _ => rfl
        closed_children := nofun
        attributes := nofun
        children := fun c hc => (hchildren c hc).1
        apart := hapart }
    simpa [Element.nodes, Attribute.nodesAll, hroot] using
      fun c hc => (hchildren c hc).2
  · cases he

/-- Elements that are read are well formed: a self-closing one has no children, and of the children
of another one no two texts stand side by side. -/
theorem yields_taggedElement : Yields (fun e => AllWritten e.nodes) (taggedElement E X) := by
  have hbody : Yields (fun body => ∀ x ∈ body,
      (∀ c ∈ x.1, c.WellFormed ∧ AllWritten c.nodes) ∧ Child.textsApart x.1 = true)
      (elementBody E X) := by
    refine .choice (.yielding (by simp) _)
      ((((yields_children hE hX).skipThen _).seq (Yields.trivial _)).map fun x hx => ?_)
    simpa using hx.1
  refine ((((yields_lexeme yields_tagName).skipThen _).seq
    (yields_elementAttribute hE hX).many).seq hbody).check fun x e hx he => ?_
  obtain ⟨⟨name, attributes⟩, body⟩ := x
  obtain ⟨⟨hname, hattributes⟩, hbody⟩ := hx
  cases body with
  | none =>
    cases he
    have hroot : Element.WellFormed ⟨some name, attributes, [], true⟩ :=
      { fragment_attributes := by simp
        fragment_open := by simp
        closed_children := fun _ => rfl
        attributes := fun a ha => (hattributes a ha).1
        children := by simp
        apart := rfl }
    simpa [Element.nodes, Child.nodesAll, hroot] using
      ⟨hname, fun a ha => (hattributes a ha).2⟩
  | some content =>
    obtain ⟨children, closing⟩ := content
    obtain ⟨hchildren, hapart⟩ := hbody _ rfl
    -- the closing tag is that of the element, or the element is refused
    simp only [closeElement] at he
    split at he
    · cases he
      have hroot : Element.WellFormed ⟨some name, attributes, children, false⟩ :=
        { fragment_attributes := by simp
          fragment_open := by simp
          closed_children := by simp
          attributes := fun a ha => (hattributes a ha).1
          children := fun c hc => (hchildren c hc).1
          apart := hapart }
      simpa [Element.nodes, hroot] using
        ⟨hname, fun a ha => (hattributes a ha).2, fun c hc => (hchildren c hc).2⟩
    · cases he

omit hX in
theorem yields_element : Yields (fun e => AllWritten e.nodes) (element E) :=
  .fix fun _ hX => (yields_fragment hE hX).orElse (yields_taggedElement hE hX)

end Elements

/-! ## Expressions -/

section Expressions

theorem yields_literalExpr : Yields (fun e => AllWritten e.nodes) literalExpr := by
  refine Yields.map (P := Literal.WellFormed) ?_ fun value h => ?_
  · exact .choice (yields_stringLit.map fun _ h => h)
      (.choice (yields_template.map fun _ h => h)
        (.choice (yields_number.map fun _ h => h)
          (.choice (.yielding trivial _) (.choice (.yielding trivial _) (.yielding trivial _)))))
  · simpa using h

include hE

theorem yields_arguments_row :
    Yields (fun args => ∀ a ∈ args, AllWritten a.value.nodes)
      (sepByTrailing (sym ",") (argument E)) :=
  .sepByTrailing _ ((Yields.trivial _).both hE fun _ _ _ he => he)

theorem yields_objectExpr : Yields (fun e => AllWritten e.nodes) (objectExpr E) := by
  have hproperty : Yields (fun p => p.WellFormed ∧ AllWritten p.nodes) (property E) := by
    refine .choice ((hE.skipThen _).map fun e he => ?_)
      (.choice (((yields_propertyKey hE).thenSkip _).both hE fun key e hkey he => ?_)
        (yields_identifier.map fun name hn => ?_))
    · simpa [Property.WellFormed] using he
    · simpa [Property.WellFormed, he] using hkey
    · simpa [Property.WellFormed] using hn
  refine ((hproperty.sepByTrailing _).between _ _).map fun props h => ?_
  simp only [Expr.nodes, Property.nodesAll_eq, allNodes_cons, Node.Written, Node.WellFormed,
    Node.IsSpelled, Expr.WellFormed, allNodes_flatMap, and_true]
  exact ⟨fun p hp => (h p hp).1, fun p hp => (h p hp).2⟩

theorem yields_memberSuffix :
    Yields (fun f => ∀ e, AllWritten e.nodes → AllWritten (f e).nodes) (memberSuffix E) := by
  refine .choice ((yields_word.skipThen _).map fun name hname e he => ?_)
    (.choice ((yields_word.skipThen _).map fun name hname e he => ?_)
      ((hE.between _ _).map fun key hkey e he => ?_))
  · simp [MemberKey.WellFormed, hname, he]
  · simp [MemberKey.WellFormed, hname, he]
  · simp [MemberKey.WellFormed, hkey, he]

theorem yields_callSuffix :
    Yields (fun f => ∀ e, AllWritten e.nodes → AllWritten (f e).nodes) (callSuffix E) := by
  have hargs := (yields_arguments_row hE).between (sym "(") (sym ")")
  refine .choice ((hargs.skipThen _).map fun args h e he => ?_) (hargs.map fun args h e he => ?_)
  · simpa [he] using h
  · simpa [he] using h

omit hE in
theorem allWritten_applySuffixes {e : Expr} {suffixes : List (Expr → Expr)}
    (he : AllWritten e.nodes)
    (h : ∀ f ∈ suffixes, ∀ e, AllWritten e.nodes → AllWritten (f e).nodes) :
    AllWritten (applySuffixes e suffixes).nodes := by
  induction suffixes generalizing e with
  | nil => exact he
  | cons f fs ih => exact ih (h f (by simp) e he) fun g hg => h g (by simp [hg])

include hB

theorem yields_arrowExpr : Yields (fun e => AllWritten e.nodes) (arrowExpr d B E) := by
  have hparams : Yields (fun ps => ∀ p ∈ ps, AllWritten p.nodes)
      ((params d E).orElse (identifier.map fun name => [Pattern.ident name])) := by
    refine (yields_params hE).orElse (yields_identifier.map fun name hn => ?_)
    simpa using hn
  have hbody : Yields (fun body => AllWritten body.nodes) (arrowBody E B) := by
    refine (hB.map fun ss h => ?_).orElse ((hE.skipThen _).map fun e he => ?_)
    · simpa using h
    · simpa using he
  refine (((Yields.trivial _).seq hparams |>.thenSkip _).thenSkip _).both hbody
    fun x body hx hb => ?_
  simpa [hb] using hx.2

theorem yields_primary : Yields (fun e => AllWritten e.nodes) (primary d B E) := by
  refine .choice (yields_arrowExpr hE hB) (.choice ?function (.choice ?classes (.choice ?markup
    (.choice yields_literalExpr (.choice (.yielding ?this _) (.choice ?ident (.choice ?array
      (.choice (yields_objectExpr hE) (hE.between _ _)))))))))
  case function =>
    refine (yields_functionWith hE hB yields_identifier.optional).map fun x hx => ?_
    simpa using hx
  case classes =>
    refine (yields_classWith hE hB yields_identifier.optional).map fun x hx => ?_
    simpa using hx
  case markup =>
    unfold markupExpr
    split
    · refine (yields_lexeme (yields_element hE)).map fun e he => ?_
      simpa using he
    · exact (Yields.trivial _).check nofun
  case this => simp
  case ident =>
    refine yields_identifier.map fun name hn => ?_
    simpa using hn
  case array =>
    refine ((yields_arguments_row hE).between _ _).map fun args h => ?_
    simpa using h

theorem yields_postfixExpr : Yields (fun e => AllWritten e.nodes) (postfixExpr d B E) := by
  have hprimary := yields_primary (d := d) hE hB
  have hmember := yields_memberSuffix hE
  have hcallee : Yields (fun e => AllWritten e.nodes)
      (both applySuffixes (primary d B E) (many (memberSuffix E))) :=
    hprimary.both hmember.many fun e fs he hf => allWritten_applySuffixes he hf
  have hnew : Yields (fun e => AllWritten e.nodes) (newExpr d B E) := by
    refine (hcallee.skipThen _).both ((yields_arguments_row hE).between _ _).optional
      fun callee args hc ha => ?_
    cases args with
    | none => simpa using hc
    | some args => simpa [hc] using ha args rfl
  exact (hnew.orElse hprimary).both (hmember.orElse (yields_callSuffix hE)).many
    fun e fs he hf => allWritten_applySuffixes he hf

omit hE hB in
theorem yields_binaryLevel {operand : Parser Expr} {op : Parser BinaryOp}
    (h : Yields (fun e => AllWritten e.nodes) operand) :
    Yields (fun e => AllWritten e.nodes) (binaryLevel operand op) := by
  refine h.both ((Yields.trivial op).seq h).many fun first rest hfirst hrest => ?_
  induction rest generalizing first with
  | nil => exact hfirst
  | cons x rest ih =>
    refine ih _ ?_ fun y hy => hrest y (by simp [hy])
    have hx := (hrest x (by simp)).2
    simp [hfirst, hx]

theorem yields_unaryExpr : Yields (fun e => AllWritten e.nodes) (unaryExpr d B E) := by
  refine ((Yields.trivial _).both (yields_postfixExpr hE hB) fun ops e _ he => ?_).thenSkip _
  induction ops with
  | nil => exact he
  | cons op ops ih => simpa using ih

theorem yields_expressionBody :
    Yields (fun e => AllWritten e.nodes) (expressionBody d B E) := by
  have hnullish : Yields (fun e => AllWritten e.nodes) (nullish d B E) :=
    yields_binaryLevel (yields_binaryLevel (yields_binaryLevel (yields_binaryLevel
      (yields_binaryLevel (yields_binaryLevel (yields_binaryLevel (yields_unaryExpr hE hB)))))))
  have hconditional : Yields (fun e => AllWritten e.nodes) (conditional d B E) := by
    refine hnullish.both (((hE.skipThen _).thenSkip _).seq hE).optional
      fun test branches ht hb => ?_
    cases branches with
    | none => exact ht
    | some x =>
      obtain ⟨hcons, halt⟩ := hb x rfl
      simp [ht, hcons, halt]
  refine hconditional.both ((Yields.trivial assignOp).seq hE).optional fun target value ht hv => ?_
  cases value with
  | none => exact ht
  | some x => simpa [ht] using (hv x rfl).2

omit hE in
theorem yields_expression : Yields (fun e => AllWritten e.nodes) (expression d B) :=
  .fix fun _ hX => yields_expressionBody hX hB

end Expressions

/-! ## Statements -/

section Declarations

include hE

theorem yields_varDecl : Yields (fun x => AllWritten x.nodes) (varDecl d E) := by
  have hdeclarator : Yields (fun x => AllWritten x.nodes) (declarator d E) := by
    refine ((yields_bindingPattern hE).thenSkip _).both (yields_initializer hE)
      fun target value ht hv => ?_
    cases value with
    | none => simpa using ht.2
    | some e => simpa [ht.2] using hv e rfl
  refine ((Yields.trivial _).both (hdeclarator.sepBy1 _) fun kind ds _ hds => ?_).thenSkip _
  simpa using hds

include hB

theorem yields_declaration : Yields (fun x => AllWritten x.nodes) (declaration d E B) := by
  have hruntime : Yields (fun x => AllWritten x.nodes) (runtimeDecl d E B) := by
    refine .choice (yields_varDecl hE)
      (.choice ((yields_functionWith hE hB yields_identifier).map fun x hx => ?_)
        ((yields_classWith hE hB yields_identifier).map fun x hx => ?_))
    · simpa using hx
    · simpa [hx.1] using hx.2
  unfold declaration
  split
  · refine hruntime.orElse (Yields.map (P := fun name => isName name = true) (.orElse ?_ ?_)
      fun name hn => ?_)
    · exact (((((yields_identifier.skipThen _).thenSkip _).thenSkip _).thenSkip _).thenSkip _)
    · exact (((yields_identifier.skipThen _).thenSkip _).thenSkip _).thenSkip _
    · simpa using hn
  · exact hruntime

end Declarations

end Rules

/-- All that is read as a statement is written the way its nodes ask for. The blocks in it are
statements read by the same rule, so this is a fixed point. -/
theorem yields_statement (d : Dialect) : Yields (fun s => AllWritten s.nodes) (statement d) := by
  refine .fix fun X hX => ?_
  have hB : Yields (fun ss => ∀ s ∈ ss, AllWritten s.nodes) (blockOf X) := hX.many.between _ _
  have hE : Yields (fun e => AllWritten e.nodes) (expression d (blockOf X)) :=
    yields_expression hB
  refine .choice (hB.map fun ss h => ?block) (.choice ((yields_declaration hE hB).map
    fun x hx => ?decl) (.choice ?ret (.choice ?branch (.choice ?throw (.choice (.yielding ?empty _)
      ((hE.thenSkip _).map fun e he => ?expr))))))
  case block => simpa using h
  case decl => simpa using hx
  case ret =>
    refine ((hE.optional.skipThen _).thenSkip _).map fun value hv => ?_
    cases value with
    | none => simp
    | some e => simpa using hv e rfl
  case branch =>
    refine (((hE.between _ _).skipThen _).seq hX).both (hX.skipThen _).optional
      fun x alt hx ha => ?_
    cases alt with
    | none => simpa using hx
    | some s =>
      have hs := ha s rfl
      simpa [hs] using hx
  case throw =>
    refine ((hE.skipThen _).thenSkip _).map fun e he => ?_
    simpa using he
  case empty => simp
  case expr => simpa using he

/-! ## Modules -/

theorem yields_importList :
    Yields (fun specifiers => ∃ entries : List (String × Option String),
      specifiers = entries.map fun x => .named x.1 x.2) importList := by
  have hnamed : Yields (fun s => ∃ x : String × Option String, s = .named x.1 x.2) namedImport := by
    refine (Yields.trivial _).both (Yields.trivial _) fun imported binding _ _ => ?_
    cases binding with
    | none => exact ⟨(imported, none), rfl⟩
    | some name => exact ⟨(name, some imported), rfl⟩
  refine ((hnamed.sepByTrailing _).between _ _).mono fun specifiers h => ?_
  induction specifiers with
  | nil => exact ⟨[], rfl⟩
  | cons s specifiers ih =>
    obtain ⟨x, rfl⟩ := h s (by simp)
    obtain ⟨entries, rfl⟩ := ih fun y hy => h y (by simp [hy])
    exact ⟨x :: entries, rfl⟩

/-- An import has one of six shapes; empty braces leave no trace. -/
theorem yields_importClause : Yields ImportShape importClause := by
  have hstar : Yields (fun specifiers => ∃ all, specifiers = [.star all]) starImport :=
    (Yields.trivial _).map fun name _ => ⟨name, rfl⟩
  refine .choice (yields_importList.mono ?_) (.choice (hstar.mono ?_) ?_)
  · rintro _ ⟨entries, rfl⟩
    by_cases h : entries = []
    · subst h
      exact .bare
    · exact .named h
  · rintro _ ⟨all, rfl⟩
    exact .star all
  · have hmore : Yields (fun specifiers => (∃ entries : List (String × Option String),
        specifiers = entries.map fun x => .named x.1 x.2) ∨ ∃ all, specifiers = [.star all])
        (importList.orElse starImport) :=
      .orElse (yields_importList.mono fun _ h => .inl h) (hstar.mono fun _ h => .inr h)
    refine (Yields.trivial _).both (hmore.skipThen _).optional fun name rest _ hrest => ?_
    cases rest with
    | none => exact .default name
    | some specifiers =>
      rcases hrest specifiers rfl with ⟨entries, rfl⟩ | ⟨all, rfl⟩
      · by_cases h : entries = []
        · subst h
          exact .default name
        · exact .defaultNamed name h
      · exact .defaultStar name all

/-- What holds of every entry of an import, by the names that were read for it. -/
theorem yields_importClause_all {P : ImportSpecifier → Prop} (hnamed : Yields P namedImport)
    (hdefault : ∀ name, isName name = true → P (.default name))
    (hstar : ∀ name, isName name = true → P (.star name)) :
    Yields (fun specifiers => ∀ s ∈ specifiers, P s) importClause := by
  have hlist : Yields (fun specifiers => ∀ s ∈ specifiers, P s) importList :=
    (hnamed.sepByTrailing _).between _ _
  have hall : Yields (fun specifiers => ∀ s ∈ specifiers, P s) starImport := by
    refine (yields_identifier.skipThen _).map fun name h => ?_
    simpa using hstar name h
  refine .choice hlist (.choice hall
    (yields_identifier.both ((hlist.orElse hall).skipThen _).optional fun name rest h hrest => ?_))
  intro s hs
  rcases List.mem_cons.1 hs with rfl | hs
  · exact hdefault name h
  · cases rest with
    | none => cases hs
    | some specifiers => exact hrest specifiers rfl s hs

theorem yields_importClause_spelled :
    Yields (fun specifiers => ∀ s ∈ specifiers, s.IsSpelled) importClause := by
  refine yields_importClause_all (yields_word.both (yields_identifier.skipThen _).optional
    fun imported binding h hb => ?_) (fun _ => isIdentifier_of_isName) fun _ => isIdentifier_of_isName
  cases binding with
  | none => exact ⟨h, nofun⟩
  | some name =>
    refine ⟨isIdentifier_of_isName (hb name rfl), fun x hx => ?_⟩
    cases hx
    exact h

theorem yields_importDecl (d : Dialect) :
    Yields (fun i => i.WellFormed ∧ ∀ s ∈ i.specifiers, s.IsSpelled) (importDecl d) := by
  refine ((Yields.orElse (yields_stringLit.map fun source h => ⟨⟨h, .bare⟩, nofun⟩)
    ((((Yields.trivial _).seq (yields_importClause.and yields_importClause_spelled)).thenSkip _).both
      yields_stringLit fun x source hx h => ⟨⟨h, hx.2.1⟩, hx.2.2⟩)).skipThen _).thenSkip _

theorem yields_exportDecl {d : Dialect} {E : Parser Expr} {B : Parser (List Stmt)}
    (hE : Yields (fun e => AllWritten e.nodes) E)
    (hB : Yields (fun ss => ∀ s ∈ ss, AllWritten s.nodes) B) :
    Yields (fun x => x.WellFormed ∧ AllWritten x.nodes) (exportDecl d E B) := by
  refine .skipThen _ (.choice ?default (.choice ?all (.choice ?list ?decl)))
  case default =>
    refine Yields.map (P := fun x => (Export.default x).WellFormed ∧ AllWritten x.nodes)
      (.skipThen _ (.choice ((yields_functionWith hE hB yields_identifier.optional).map fun x hx => ?_)
        (.choice ((yields_classWith hE hB yields_identifier.optional).map fun x hx => ?_)
          ((hE.thenSkip _).map fun e he => ?_)))) fun x hx => ?_
    · simpa [Export.WellFormed, DefaultExport.nodes] using hx
    · simpa [Export.WellFormed, DefaultExport.nodes] using hx
    · simpa [Export.WellFormed, DefaultExport.nodes] using he
    · simpa [Export.nodes] using hx
  case all =>
    refine ((yields_stringLit.skipThen _).thenSkip _).map fun source h => ?_
    simpa [Export.WellFormed, Export.nodes] using h
  case list =>
    have hentry : Yields (fun s => isIdentifier s.binding = true ∧
        ∀ x ∈ s.exported, isIdentifier x = true) exportSpecifier :=
      yields_word.both (yields_word.skipThen _).optional fun _ _ h h' => ⟨h, h'⟩
    refine (((hentry.sepByTrailing _).between _ _).both (yields_stringLit.skipThen _).optional
      fun specifiers source hs h => ?_).thenSkip _
    exact ⟨⟨hs, h⟩, by simp [Export.nodes]⟩
  case decl =>
    refine (yields_declaration hE hB).map fun x hx => ?_
    simpa [Export.WellFormed, Export.nodes] using hx

theorem yields_program_written (d : Dialect) :
    Yields (fun p => AllWritten p.nodes) (program d) := by
  have hstmt := yields_statement d
  have hB : Yields (fun ss => ∀ s ∈ ss, AllWritten s.nodes) (blockOf (statement d)) :=
    hstmt.many.between _ _
  have hE : Yields (fun e => AllWritten e.nodes) (expression d (blockOf (statement d))) :=
    yields_expression hB
  have hitem : Yields (fun x => AllWritten x.nodes) (moduleItem d) := by
    refine .choice ((yields_importDecl d).map fun x hx => ?_)
      (.choice ((yields_exportDecl hE hB).map fun x hx => ?_) (hstmt.map fun s hs => ?_))
    · simpa [Item.nodes] using hx
    · simpa [Item.nodes] using hx
    · simpa [Item.nodes] using hs
  refine ((hitem.many.skipThen _).thenSkip _).map fun items h => ?_
  simpa [Program.nodes] using h

theorem yields_program (d : Dialect) : Yields (fun p => AllWellFormed p.nodes) (program d) :=
  (yields_program_written d).mono fun _ h n hn => (h n hn).1

end TsxCompiler.Grammar

namespace TsxCompiler

open Peg.Parser

/-- Every node of a module that was read is well formed. -/
theorem parse_nodes_wellFormed {d : Dialect} {text : String} {p : Program}
    (h : Program.parse d text = .ok p) : ∀ n ∈ p.nodes, n.WellFormed := by
  obtain ⟨r, hr⟩ := run_program_of_parse h
  exact Grammar.yields_program d _ p r hr

/-- A module with a pattern with a default, a member access and markup. -/
def wellFormedSample : String :=
  "export const [\x7b z = `u` \x7d] = d[\"k\"]?.in;\n" ++
  "export default <a b='c'>t\x7bz\x7d</a>;\n"

theorem parse_nodes_wellFormed_sample :
    ∃ p, Program.parse .tsx wellFormedSample = .ok p ∧ p.nodes.length = 13 ∧
      ∀ n ∈ p.nodes, n.WellFormed := by
  have hnodes : (Program.parse .tsx wellFormedSample).toOption.map (·.nodes.length) = some 13 := by
    decide +kernel
  obtain ⟨p, hp, hlength⟩ := Option.map_eq_some_iff.1 hnodes
  have hparse := eq_ok_of_toOption hp
  exact ⟨p, hparse, hlength, parse_nodes_wellFormed hparse⟩

end TsxCompiler
