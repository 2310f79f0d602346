import TsxCompiler.Proofs.Patterns

/-!
# Reading types token by token

A type is read as a sequence of words, literals and punctuators, so what is left of a text behind a
type is known from what each of these tokens leaves. `TokenTexts` says this for three kinds of
texts: those that may be left at all, those that a type may start in, and those behind a word, where
alone type arguments are looked for. If no text of the first kind starts with an arrow, then none of
them is an annotation with an arrow behind it (`TokenTexts.run_ascription_arrow`).
-/

namespace TsxCompiler.Grammar

open Peg Peg.Parser Text

variable {α β γ : Type} {P Q R : List Char → Prop}

/-! ## What a parser leaves -/

/-- Of a text of the first kind the parser leaves one of the second. -/
def Turns (P Q : List Char → Prop) (p : Parser α) : Prop :=
  ∀ s a r, run p s = some (a, r) → P s → Q r

namespace Turns

theorem weaken {P' Q' : List Char → Prop} {p : Parser α} (h : Turns P Q p)
    (hP : ∀ s, P' s → P s) (hQ : ∀ s, Q s → Q' s) : Turns P' Q' p :=
  fun s a r hr hs => hQ r (h s a r hr (hP s hs))

theorem yielding {p : Parser α} (h : Turns P Q p) (b : β) : Turns P Q (p.yielding b) := by
  intro s c r hr hs
  obtain ⟨a, ha, -⟩ := run_map_inv hr
  exact h s a r ha hs

theorem forget {p : Parser α} (h : Turns P Q p) : Turns P Q (forget p) := h.yielding ()

theorem both {f : α → β → γ} {p : Parser α} {q : Parser β} (hp : Turns P Q p) (hq : Turns Q R q) :
    Turns P R (both f p q) := by
  intro s c r hr hs
  obtain ⟨a, b, t, ha, hb, -⟩ := run_both_inv hr
  exact hq t b r hb (hp s a t ha hs)

theorem seq {p : Parser α} {q : Parser β} (hp : Turns P Q p) (hq : Turns Q R q) :
    Turns P R (p.seq q) := hp.both hq

theorem thenSkip {p : Parser α} {q : Parser β} (hp : Turns P Q p) (hq : Turns Q R q) :
    Turns P R (p.thenSkip q) := hp.both hq

theorem skipThen {p : Parser α} {q : Parser β} (hp : Turns P Q p) (hq : Turns Q R q) :
    Turns P R (p.skipThen q) := hp.both hq

theorem between {T : List Char → Prop} {opening : Parser α} {closing : Parser β} {p : Parser γ}
    (ho : Turns P Q opening) (hp : Turns Q R p) (hc : Turns R T closing) :
    Turns P T (between opening closing p) := (ho.skipThen hp).thenSkip hc

theorem orElse {p q : Parser α} (hp : Turns P Q p) (hq : Turns P Q q) :
    Turns P Q (p.orElse q) := by
  intro s a r hr hs
  rcases run_orElse_inv hr with hr | ⟨-, hr⟩
  · exact hp s a r hr hs
  · exact hq s a r hr hs

theorem choice {p q : Parser α} {more : List (Parser α)} (hp : Turns P Q p)
    (hq : Turns P Q (choice q more)) : Turns P Q (choice p (q :: more)) := by
  intro s a r hr hs
  rcases run_choice_cons_inv hr with hr | ⟨-, hr⟩
  · exact hp s a r hr hs
  · exact hq s a r hr hs

theorem optional {p : Parser α} (hp : Turns P Q p) (hPQ : ∀ s, P s → Q s) :
    Turns P Q p.optional := by
  intro s o r hr hs
  rcases run_optional_inv hr with ⟨a, -, hr⟩ | ⟨-, -, rfl⟩
  · exact hp s a r hr hs
  · exact hPQ _ hs

theorem many {p : Parser α} [Consumes p] (hp : Turns P P p) : Turns P P (many p) := by
  intro s as r hr
  exact run_many_induct (motive := fun _ s r => P s → P r) (fun _ _ hs => hs)
    (fun s t _ a _ ha _ ih hs => ih (hp s a t ha hs)) hr

theorem followers {sep : Parser β} {p : Parser α} (hsep : Turns Q P sep) (hp : Turns P Q p)
    {s : List Char} (hs : Q s) : Q (runFollowers sep p s).2 := by
  induction hn : s.length using Nat.strongRecOn generalizing s with
  | _ n ih =>
    rw [runFollowers_eq]
    split
    · exact hs
    · rename_i a r hr
      obtain ⟨_, t, hfirst, hnext⟩ := run_skipThen_inv hr
      have hr' : Q r := hp t a r hnext (hsep s _ t hfirst hs)
      split
      · exact ih r.length (by omega) hr' rfl
      · exact hr'

theorem sepBy1 {sep : Parser β} {p : Parser α} (hsep : Turns Q P sep) (hp : Turns P Q p) :
    Turns P Q (sepBy1 sep p) := by
  intro s as r hr hs
  rw [run_sepBy1] at hr
  obtain ⟨⟨a, t⟩, ha, hb⟩ := Option.map_eq_some_iff.1 hr
  cases hb
  exact followers hsep hp (hp s a t ha hs)

theorem sepByTrailing {sep : Parser β} {p : Parser α} (hsep : Turns Q P sep) (hp : Turns P Q p)
    (hPQ : ∀ s, P s → Q s) : Turns P Q (sepByTrailing sep p) := by
  intro s as r hr hs
  rw [run_sepByTrailing] at hr
  split at hr
  · simp only [Option.some.injEq, Prod.mk.injEq] at hr
    exact hr.2 ▸ hPQ s hs
  · rename_i a t ht
    simp only [Option.some.injEq, Prod.mk.injEq] at hr
    have hrow := followers hsep hp (hp s a t ht hs)
    rw [← hr.2]
    cases hlast : run sep (runFollowers sep p t).2 with
    | none => simpa using hrow
    | some x => simpa using hPQ _ (hsep _ x.1 x.2 hlast hrow)

theorem fix {body : Parser α → Parser α} (h : ∀ X, Turns P Q X → Turns P Q (body X)) :
    Turns P Q (fix body) := by
  intro s
  induction hn : s.length using Nat.strongRecOn generalizing s with
  | _ n ih =>
    intro a r hr
    have hbelow : Turns P Q (below s.length (Parser.fix body)) := by
      intro t b u ht
      rw [run_below] at ht
      split at ht
      · exact ih t.length (by omega) t rfl b u ht
      · simp at ht
    rw [run_fix] at hr
    exact h _ hbelow s a r hr

end Turns

/-! ## Types -/

/-- The punctuators of a type that something may follow. -/
def openingMarks : List String := [",", ".", ";", ":", "?", "|", "&", "...", "(", "["]

/-- What the tokens of a type leave, for three kinds of texts: what may be left at all, where an
operand may start, and what stands behind a word. -/
structure TokenTexts (any operand behind : List Char → Prop) : Prop where
  any_of_operand : ∀ s, operand s → any s
  any_of_behind : ∀ s, behind s → any s
  opening : ∀ {text : String}, text ∈ openingMarks → Turns any operand (sym text)
  closing : ∀ {text : String}, text ∈ [")", "]", ">"] → Turns any any (sym text)
  angle : Turns behind operand (sym "<")
  braces : ∀ {p : Parser (List Unit)}, Turns operand any p → Turns any any (inBraces p)
  word : Turns operand behind word
  string : Turns any any stringLit
  number : Turns any any number
  arrow : ∀ {s}, any s → run (sym "=>") s = none

namespace TokenTexts

variable {any operand behind : List Char → Prop} (h : TokenTexts any operand behind)
include h

theorem optionalMark {text : String} (ht : text ∈ openingMarks) :
    Turns any any (sym text).optional :=
  ((h.opening ht).weaken (fun _ hs => hs) h.any_of_operand).optional fun _ hs => hs

section Rules

variable {X : Parser Unit} (hX : Turns operand any X)
include hX

theorem typeReference : Turns operand any (typeReference X) := by
  have hname : Turns operand behind (sepBy1 (sym ".") Grammar.word) :=
    .sepBy1 ((h.opening (by decide)).weaken h.any_of_behind fun _ hs => hs) h.word
  have hargs : Turns behind any (typeArgs X) :=
    (h.angle.between (.sepBy1 (h.opening (by decide)) hX) (h.closing (by decide))).forget
  exact (hname.seq (hargs.optional h.any_of_behind)).forget

omit hX in
theorem literalType : Turns operand any literalType :=
  ((h.string.forget).orElse h.number.forget).weaken h.any_of_operand fun _ hs => hs

theorem memberType : Turns operand any (memberType X) := by
  have hname : Turns operand any ((forget Grammar.word).orElse (forget stringLit)) :=
    (h.word.forget.weaken (fun _ hs => hs) h.any_of_behind).orElse
      (h.string.forget.weaken h.any_of_operand fun _ hs => hs)
  exact (((hname.seq (h.optionalMark (by decide))).thenSkip (h.opening (by decide))).seq hX).forget

theorem paramType : Turns operand any (paramType X) := by
  have hdots : Turns operand operand (sym "...").optional :=
    ((h.opening (by decide)).weaken h.any_of_operand fun _ hs => hs).optional fun _ hs => hs
  have hname : Turns operand any ((sym "...").optional.seq Grammar.word) :=
    (hdots.seq h.word).weaken (fun _ hs => hs) h.any_of_behind
  have htype : Turns any any ((sym ":").skipThen X).optional :=
    ((h.opening (by decide)).skipThen hX).optional fun _ hs => hs
  exact ((hname.seq (h.optionalMark (by decide))).seq htype).forget

/-- No arrow follows the parameters. -/
theorem functionType : Turns operand any (functionType X) := by
  have hparams : Turns operand any (inParens (sepByTrailing (sym ",") (Grammar.paramType X))) :=
    ((h.opening (by decide)).weaken h.any_of_operand fun _ hs => hs).between
      (.sepByTrailing (h.opening (by decide)) (h.paramType hX) h.any_of_operand)
      (h.closing (by decide))
  have harrow : Turns any operand (sym "=>") := by
    intro s a r hr hs
    rw [h.arrow hs] at hr
    cases hr
  exact ((hparams.thenSkip harrow).seq hX).forget

theorem primaryType : Turns operand any (primaryType X) := by
  have hparen : Turns operand any (parenType X) :=
    ((h.opening (by decide)).weaken h.any_of_operand fun _ hs => hs).between hX
      (h.closing (by decide))
  have hmembers : Turns operand any
      (sepByTrailing ((sym ";").orElse (sym ",")) (Grammar.memberType X)) :=
    .sepByTrailing ((h.opening (by decide)).orElse (h.opening (by decide))) (h.memberType hX)
      h.any_of_operand
  have hobject : Turns operand any (objectType X) :=
    ((h.braces hmembers).weaken h.any_of_operand fun _ hs => hs).forget
  have htuple : Turns operand any (tupleType X) :=
    (((h.opening (by decide)).weaken h.any_of_operand fun _ hs => hs).between
      (.sepByTrailing (h.opening (by decide)) hX h.any_of_operand) (h.closing (by decide))).forget
  exact (h.functionType hX).choice (hparen.choice (hobject.choice (htuple.choice
    (h.literalType.choice (h.typeReference hX)))))

theorem typeBody : Turns operand any (typeBody X) := by
  have : Consumes (sym "[") := consumes_sym (by decide)
  have hbrackets : Turns any any ((sym "[").seq (sym "]")) :=
    (h.opening (by decide)).seq ((h.closing (by decide)).weaken h.any_of_operand fun _ hs => hs)
  have harray : Turns operand any (arrayType X) := ((h.primaryType hX).seq hbrackets.many).forget
  have hbar : Turns operand operand (sym "|").optional :=
    ((h.opening (by decide)).weaken h.any_of_operand fun _ hs => hs).optional fun _ hs => hs
  exact (hbar.skipThen
    (.sepBy1 ((h.opening (by decide)).orElse (h.opening (by decide))) harray)).forget

end Rules

theorem typeExpr : Turns operand any typeExpr := .fix fun _ hX => h.typeBody hX

/-- No annotation is followed by an arrow. -/
theorem run_ascription_arrow (d : Dialect) {s : List Char} (hs : any s) :
    run ((ascription d).thenSkip (sym "=>")) s = none := by
  have htype : Turns any any (ascription d) := by
    unfold ascription whenTyped
    split
    · exact (((h.opening (by decide)).skipThen h.typeExpr).optional fun _ hs => hs).forget
    · intro s a r hr hs
      simp only [run_succeed, Option.some.injEq, Prod.mk.injEq] at hr
      exact hr.2 ▸ hs
  cases hrun : run ((ascription d).thenSkip (sym "=>")) s with
  | none => rfl
  | some x =>
    obtain ⟨_, t, ht, harrow⟩ := run_thenSkip_inv hrun
    rw [h.arrow (htype s _ t ht hs)] at harrow
    cases harrow

end TokenTexts

end TsxCompiler.Grammar
