import TsxCompiler.Highlight.Theme
import TsxCompiler.Proofs.LosslessTokens

/-!
# Markers and the code between them

A style writes escape sequences around a token. Stripping takes the leftmost sequence out, again and
again, and looks at characters only: code may start with a bracket, with digits or with an `m`, right
behind a marker. A sequence ends at its first `m` and starts with a character that code without
escape characters does not have, so no sequence reaches from a marker into the code or back.

* `Marker.strip` — a marker in front of any text is stripped as a whole.
* `Theme.ofSpecs_marked` — the styles of every theme that settings describe are markers.
* `Theme.strip_render` — what is left of shown tokens is their texts.
-/

namespace TsxCompiler

/-! ## Escape sequences -/

/-- A text that is made of escape sequences alone. -/
inductive Marker : List Char → Prop where
  | nil : Marker []
  | sequence {parameters s : List Char} : parameters.all isParameterChar = true → Marker s →
      Marker ('\x1b' :: '[' :: (parameters ++ 'm' :: s))

theorem afterSequence?_parameters {parameters : List Char}
    (h : parameters.all isParameterChar = true) (s : List Char) :
    afterSequence? ('[' :: (parameters ++ 'm' :: s)) = some s := by
  have hstop : (parameters ++ 'm' :: s).dropWhile isParameterChar = 'm' :: s := by
    rw [List.dropWhile_append_of_pos (List.all_eq_true.1 h)]
    exact List.dropWhile_cons_of_neg (by decide)
  simp only [afterSequence?, hstop]

/-- A sequence goes. -/
theorem stripChars_sequence {parameters : List Char} (h : parameters.all isParameterChar = true)
    (s : List Char) : stripChars ('\x1b' :: '[' :: (parameters ++ 'm' :: s)) = stripChars s := by
  rw [stripChars, if_pos (by decide)]
  split
  · rename_i rest hrest
    have hs : s = rest := Option.some.inj ((afterSequence?_parameters h s).symm.trans hrest)
    exact congrArg stripChars hs.symm
  · rename_i hnone
    rw [afterSequence?_parameters h] at hnone
    cases hnone

/-- Characters in front of the first escape character stay. -/
theorem stripChars_append {code : List Char} (h : '\x1b' ∉ code) (s : List Char) :
    stripChars (code ++ s) = code ++ stripChars s := by
  induction code with
  | nil => rfl
  | cons c code ih =>
    obtain ⟨hc, hcode⟩ := List.ne_and_not_mem_of_not_mem_cons h
    have hplain : (c == '\x1b') = false := by simpa using Ne.symm hc
    rw [List.cons_append, stripChars, if_neg (by simp [hplain]), ih hcode, List.cons_append]

namespace Marker

theorem append {s t : List Char} (hs : Marker s) (ht : Marker t) : Marker (s ++ t) := by
  induction hs with
  | nil => exact ht
  | @sequence parameters s hparameters _ ih =>
    have hparts : '\x1b' :: '[' :: (parameters ++ 'm' :: s) ++ t =
        '\x1b' :: '[' :: (parameters ++ 'm' :: (s ++ t)) := by
      simp
    rw [hparts]
    exact .sequence hparameters ih

/-- A marker in front of any text is stripped as a whole, whatever the text starts with. -/
theorem strip {marker : List Char} (h : Marker marker) (s : List Char) :
    stripChars (marker ++ s) = stripChars s := by
  induction h with
  | nil => rfl
  | @sequence parameters marker hparameters _ ih =>
    have hparts : '\x1b' :: '[' :: (parameters ++ 'm' :: marker) ++ s =
        '\x1b' :: '[' :: (parameters ++ 'm' :: (marker ++ s)) := by
      simp
    rw [hparts, stripChars_sequence hparameters, ih]

end Marker

theorem marker_escape {parameters : String} (h : parameters.toList.all isParameterChar = true) :
    Marker (escape parameters).toList := by
  have hparts : (escape parameters).toList =
      '\x1b' :: '[' :: (parameters.toList ++ 'm' :: []) := by
    simp [escape]
  rw [hparts]
  exact .sequence h .nil

/-! ## Styles -/

theorem all_isParameterChar_toString (n : Nat) : (toString n).toList.all isParameterChar = true := by
  have hdigits : (toString n).toList = Nat.toDigits 10 n := Nat.toList_repr
  rw [hdigits, List.all_eq_true]
  intro c hc
  have hdigit : c.isDigit = true :=
    Nat.isDigit_of_mem_toDigits (b := 10) (by decide) (by decide) hc
  simp [isParameterChar, hdigit]

theorem Color.marker_sequence (color : Color) : Marker color.sequence.toList := by
  cases color with
  | indexed index =>
    refine marker_escape ?_
    rw [String.toList_append, List.all_append, all_isParameterChar_toString]
    decide
  | rgb red green blue =>
    refine marker_escape ?_
    simp only [String.toList_append, List.all_append, all_isParameterChar_toString]
    decide

/-- Both texts of a style are markers. -/
structure Style.Marked (style : Style) : Prop where
  opening : Marker style.opening.toList
  closing : Marker style.closing.toList

theorem Style.plain_marked : Style.plain.Marked := ⟨.nil, .nil⟩

theorem marker_ite {condition : Bool} {parameters : String}
    (h : parameters.toList.all isParameterChar = true) :
    Marker (if condition then escape parameters else "").toList := by
  cases condition
  · exact .nil
  · exact marker_escape h

theorem StyleSpec.marker_sequences (spec : StyleSpec) (color : Option Color) :
    Marker (spec.sequences color).toList := by
  simp only [StyleSpec.sequences, String.toList_append]
  refine (((?_ : Marker _).append (marker_ite (by decide))).append (marker_ite (by decide))).append
    (marker_ite (by decide))
  cases color with
  | none => exact .nil
  | some c => exact c.marker_sequence

/-- The style of a spec that has one is made of markers. -/
theorem StyleSpec.toStyle_marked {spec : StyleSpec} {style : Style} (h : spec.toStyle = .ok style) :
    style.Marked := by
  have hstyle : ∀ color : Option Color, (if (spec.sequences color).isEmpty then Style.plain
      else ⟨spec.sequences color, escape "0"⟩).Marked := by
    intro color
    split
    · exact Style.plain_marked
    · exact ⟨spec.marker_sequences color, marker_escape (by decide)⟩
  unfold StyleSpec.toStyle at h
  split at h
  · cases h
    exact hstyle none
  · split at h
    · rename_i color _
      cases h
      exact hstyle (some color)
    · cases h

/-! ## Themes -/

namespace Theme

/-- Every style of a theme is made of markers. -/
def Marked (theme : Theme) : Prop := ∀ tokenClass, (theme.style tokenClass).Marked

theorem standard_marked : standard.Marked := by
  intro tokenClass
  show (((palette tokenClass).toStyle.toOption).getD .plain).Marked
  cases h : (palette tokenClass).toStyle with
  | error => exact Style.plain_marked
  | ok style => exact StyleSpec.toStyle_marked h

theorem set_marked {theme : Theme} (htheme : theme.Marked) {style : Style} (hstyle : style.Marked)
    (tokenClass : TokenClass) : (theme.set tokenClass style).Marked := by
  intro c
  show (if c = tokenClass then style else theme.style c).Marked
  split
  · exact hstyle
  · exact htheme c

/-- Setting one style by its name keeps a theme made of markers. -/
theorem setNamed_marked {theme theme' : Theme} {name : String} {spec : StyleSpec}
    (htheme : theme.Marked) (h : theme.setNamed name spec = .ok theme') : theme'.Marked := by
  unfold setNamed at h
  split at h
  · cases h
  · split at h
    · rename_i style hstyle
      cases h
      exact set_marked htheme (StyleSpec.toStyle_marked hstyle) _
    · cases h

theorem foldlM_setNamed_marked {specs : List (String × StyleSpec)} {theme theme' : Theme}
    (htheme : theme.Marked)
    (h : specs.foldlM (fun theme (name, spec) => theme.setNamed name spec) theme = .ok theme') :
    theme'.Marked := by
  induction specs generalizing theme with
  | nil =>
    cases h
    exact htheme
  | cons spec specs ih =>
    obtain ⟨name, spec⟩ := spec
    rw [List.foldlM_cons] at h
    cases hset : theme.setNamed name spec with
    | error cause =>
      simp only [hset] at h
      cases h
    | ok next =>
      simp only [hset] at h
      exact ih (setNamed_marked htheme hset) h

/-- The styles of every theme that settings describe are made of markers. -/
theorem ofSpecs_marked {specs : List (String × StyleSpec)} {theme : Theme}
    (h : ofSpecs specs = .ok theme) : theme.Marked :=
  foldlM_setNamed_marked standard_marked h

/-! ## Shown tokens -/

/-- What is left of shown tokens, in front of any text, is their texts. -/
theorem strip_render {theme : Theme} (htheme : theme.Marked) {tokens : List Token}
    (hcode : '\x1b' ∉ tokens.flatMap (·.text.toList)) (s : List Char) :
    stripChars ((theme.render tokens).toList ++ s) =
      tokens.flatMap (·.text.toList) ++ stripChars s := by
  induction tokens with
  | nil => rfl
  | cons t tokens ih =>
    simp only [List.flatMap_cons, List.mem_append, not_or] at hcode
    have hstyle := htheme t.tokenClass
    calc stripChars ((theme.render (t :: tokens)).toList ++ s)
        = stripChars ((theme.style t.tokenClass).opening.toList ++ (t.text.toList ++
            ((theme.style t.tokenClass).closing.toList ++
              ((theme.render tokens).toList ++ s)))) := by
          simp [render, renderToken]
      _ = t.text.toList ++ stripChars ((theme.render tokens).toList ++ s) := by
          rw [hstyle.opening.strip, stripChars_append hcode.1, hstyle.closing.strip]
      _ = (t :: tokens).flatMap (·.text.toList) ++ stripChars s := by
          rw [ih hcode.2, List.flatMap_cons, List.append_assoc]

theorem render_plain (tokens : List Token) :
    (plain.render tokens).toList = tokens.flatMap (·.text.toList) := by
  induction tokens with
  | nil => rfl
  | cons t tokens ih => simpa [render, renderToken, plain, Style.plain] using ih

end Theme

theorem Token.tokenize_flatMap (code : String) :
    (Token.tokenize code).flatMap (·.text.toList) = code.toList := by
  have htexts : (Token.tokenize code).map text =
      (Highlight.pieces code.toList).map fun piece => String.ofList piece.2 := by
    rw [Token.tokenize_eq, Token.place_text]
  calc (Token.tokenize code).flatMap (·.text.toList)
      = ((Token.tokenize code).map text).flatMap String.toList := (List.flatMap_map ..).symm
    _ = ((Highlight.pieces code.toList).map Prod.snd).flatten := by
        rw [htexts, List.flatMap_map, List.flatMap_def]
        simp
    _ = code.toList := Highlight.pieces_flatten _

/-- Showing code only adds markers that can be taken out again: code without escape characters,
shown in any theme that settings describe, is the code again once it is stripped. The plain theme
adds nothing to any code. -/
theorem Theme.render_onlyAddsMarkers :
    (∀ (specs : List (String × StyleSpec)) (theme : Theme) (code : String),
      Theme.ofSpecs specs = .ok theme → '\x1b' ∉ code.toList →
        stripMarkers (theme.render (Token.tokenize code)) = code) ∧
    ∀ code : String, Theme.plain.render (Token.tokenize code) = code := by
  refine ⟨?_, ?_⟩
  · intro specs theme code hspecs hcode
    rw [← Token.tokenize_flatMap] at hcode
    have hstrip := strip_render (ofSpecs_marked hspecs) hcode []
    rw [List.append_nil, Token.tokenize_flatMap, stripChars, List.append_nil] at hstrip
    rw [stripMarkers, hstrip, String.ofList_toList]
  · intro code
    rw [← String.toList_inj, render_plain, Token.tokenize_flatMap]

/-- Code that looks like the rest of a sequence, right behind a marker. -/
theorem Theme.render_onlyAddsMarkers_brackets :
    ∃ theme, Theme.ofSpecs
        [("identifier", ⟨some "#+f8000", true, false, true⟩), ("punctuation", .ofColor "red")] =
          .ok theme ∧
      '\x1b' ∉ "[0;1m in [m".toList ∧
      stripMarkers (theme.render (Token.tokenize "[0;1m in [m")) = "[0;1m in [m" := by
  obtain ⟨theme, htheme⟩ : ∃ theme, Theme.ofSpecs
      [("identifier", ⟨some "#+f8000", true, false, true⟩), ("punctuation", .ofColor "red")] =
        .ok theme := ⟨_, rfl⟩
  have hcode : '\x1b' ∉ "[0;1m in [m".toList := by decide
  exact ⟨theme, htheme, hcode, Theme.render_onlyAddsMarkers.1 _ theme _ htheme hcode⟩

end TsxCompiler
