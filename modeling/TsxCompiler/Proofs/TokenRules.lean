import TsxCompiler.Proofs.CleanText
import TsxCompiler.Proofs.FirstBytes
import TsxCompiler.Proofs.LosslessTokens

/-!
# Which class a token has

A token is judged by its own text and by what stands around it in the code. Words and runs of
punctuation are as long as they can be at both ends; comments and strings end where they first can.
That a run cannot be made longer at its front depends on all tokens before it: wherever a token
ends, no run is cut in two (`cut_apart`), and this goes through the code from token to token.

* `blockComment_upToFirst`, `quoted_upToFirst` — the two scans stop at the first end.
* `cut_followsRules` — one token, where no run is cut at its front.
* `Token.tokenize_followsRules` — every token of every code.
* `Token.keyword_shownAsIdentifier` — a keyword that is shown as an identifier, by the character
  behind it.
-/

namespace TsxCompiler.Highlight

/-! ## The rules -/

/-- A run of characters of one kind that cannot be made longer at either end. -/
structure IsMaximalRun (p : Char → Bool) (before text behind : List Char) : Prop where
  nonempty : text ≠ []
  all : ∀ c ∈ text, p c = true
  before : ∀ c ∈ before.getLast?, p c = false
  behind : ∀ c ∈ behind.head?, p c = false

/-- A body that goes up to the first place where it may end, or to the end of the code. -/
structure IsUpToFirst (Ends : List Char → Prop) (body behind : List Char) : Prop where
  first : ∀ front rest, body = front ++ rest → Ends front → rest = []
  ends : Ends body ∨ behind = []

/-- Two slashes and the rest of the line. -/
structure IsLineComment (text behind : List Char) : Prop where
  opener : ['/', '/'] <+: text
  oneLine : '\n' ∉ text
  ends : behind.head? = some '\n' ∨ behind = []

def EndsComment (body : List Char) : Prop := ['*', '/'] <:+ body

def IsBlockComment (text behind : List Char) : Prop :=
  ∃ body, text = '/' :: '*' :: body ∧ IsUpToFirst EndsComment body behind

/-- Whether the character behind a text is escaped: the text ends in a backslash that is not
escaped itself. -/
def escapesNext (text : List Char) : Bool :=
  text.foldl (fun escaped c => c == '\\' && !escaped) false

def EndsString (quote : Char) (body : List Char) : Prop :=
  ∃ front, body = front ++ [quote] ∧ escapesNext front = false

def IsString (text behind : List Char) : Prop :=
  ∃ quote body, isQuote quote = true ∧ text = quote :: body ∧
    IsUpToFirst (EndsString quote) body behind

/-- A character that starts no word, no punctuation, no string and no comment. -/
structure IsUnclassed (c : Char) : Prop where
  word : isWordChar c = false
  punctuation : isPunctuation c = false
  quote : isQuote c = false
  slash : c ≠ '/'

/-- What a token of a class is, given the code before and behind it. A word of the keyword list is
shown as a keyword unless the character behind it has the first byte of a character of words. -/
structure FollowsRules (before : List Char) (tokenClass : TokenClass) (text behind : List Char) :
    Prop where
  word : tokenClass = .keyword ∨ tokenClass = .identifier → IsMaximalRun isWordChar before text behind
  keyword : tokenClass = .keyword ∨ tokenClass = .identifier →
    (tokenClass = .keyword ↔
      String.ofList text ∈ keywords ∧ ∀ c ∈ behind.head?, ¬ StartsLikeWord c)
  comment : tokenClass = .comment → IsLineComment text behind ∨ IsBlockComment text behind
  string : tokenClass = .string → IsString text behind
  punctuation : tokenClass = .punctuation →
    text = ['/'] ∨ IsMaximalRun isPunctuation before text behind
  plain : tokenClass = .plain → ∀ c ∈ text, IsUnclassed c

/-! ## Scans stop at the first end -/

section

variable {Ends : List Char → Prop} {c : Char} {body behind : List Char}

theorem isUpToFirst_nil : IsUpToFirst Ends [] [] :=
  ⟨fun _ _ h _ => (List.append_eq_nil_iff.1 h.symm).2, .inr rfl⟩

theorem isUpToFirst_singleton (hnil : ¬ Ends []) (h : Ends [c] ∨ behind = []) :
    IsUpToFirst Ends [c] behind := by
  refine ⟨?_, h⟩
  intro front rest heq hends
  cases front with
  | nil => exact absurd hends hnil
  | cons d front => exact (List.append_eq_nil_iff.1 (List.cons.inj heq).2.symm).2

/-- A character in front that has no part in any end. -/
theorem IsUpToFirst.cons (h : IsUpToFirst Ends body behind) (hnil : ¬ Ends [])
    (hcons : ∀ front, front <+: body → (Ends (c :: front) ↔ Ends front)) :
    IsUpToFirst Ends (c :: body) behind := by
  refine ⟨?_, h.ends.imp_left (hcons body List.prefix_rfl).2⟩
  intro front rest heq hends
  cases front with
  | nil => exact absurd hends hnil
  | cons d front =>
    obtain ⟨rfl, htail⟩ := List.cons.inj heq
    exact h.first front rest htail ((hcons front ⟨rest, htail.symm⟩).1 hends)

end

theorem not_endsComment_nil : ¬ EndsComment [] := fun h => absurd h.length_le (by simp)

theorem endsComment_cons {c : Char} {body : List Char} (h : ¬ (c = '*' ∧ body = ['/'])) :
    EndsComment (c :: body) ↔ EndsComment body := by
  unfold EndsComment
  rw [List.suffix_cons_iff]
  constructor
  · rintro (heq | hsuffix)
    · obtain ⟨rfl, rfl⟩ := List.cons.inj heq
      exact absurd ⟨rfl, rfl⟩ h
    · exact hsuffix
  · exact .inr

/-- A block comment goes up to the first `*/`. -/
theorem blockComment_upToFirst (cs : List Char) :
    IsUpToFirst EndsComment (blockComment cs).1 (blockComment cs).2 := by
  fun_induction blockComment cs with
  | case1 => exact isUpToFirst_nil
  | case2 rest =>
    refine ⟨?_, .inl List.suffix_rfl⟩
    intro front rest h hends
    have hlength : 2 ≤ front.length := hends.length_le
    have htotal := congrArg List.length h
    simp only [List.length_cons, List.length_nil, List.length_append] at htotal
    exact List.length_eq_zero_iff.1 (by omega)
  | case3 c cs hnot body behind hscan ih =>
    rw [hscan] at ih
    refine ih.cons not_endsComment_nil fun front hfront => endsComment_cons ?_
    -- What is scanned starts the text, so `*/` at its front would have ended the comment.
    rintro ⟨rfl, rfl⟩
    obtain ⟨rest, hbody⟩ : ['/'] <+: body := hfront
    have hcs : body ++ behind = cs := by simpa [hscan] using blockComment_append cs
    exact hnot (rest ++ behind) rfl (by simp [← hcs, ← hbody])

theorem not_endsString_nil (quote : Char) : ¬ EndsString quote [] := by
  rintro ⟨front, h, -⟩
  exact absurd (List.append_eq_nil_iff.1 h.symm).2 (List.cons_ne_nil _ _)

/-- A character that is neither the quote nor a backslash is passed. -/
theorem endsString_cons {quote c : Char} (hquote : c ≠ quote) (hslash : c ≠ '\\') (body : List Char) :
    EndsString quote (c :: body) ↔ EndsString quote body := by
  have hpass : ∀ front, escapesNext (c :: front) = escapesNext front := by
    intro front
    have hc : (c == '\\') = false := by simpa using hslash
    rw [escapesNext, List.foldl_cons, hc]
    rfl
  constructor
  · rintro ⟨front, h, hfront⟩
    cases front with
    | nil => exact absurd (List.cons.inj h).1 hquote
    | cons d front =>
      obtain ⟨rfl, rfl⟩ := List.cons.inj h
      exact ⟨front, rfl, (hpass front).symm.trans hfront⟩
  · rintro ⟨front, rfl, hfront⟩
    exact ⟨c :: front, rfl, (hpass front).trans hfront⟩

/-- A backslash is passed together with the character behind it. -/
theorem endsString_escape {quote : Char} (hquote : quote ≠ '\\') (c : Char) (body : List Char) :
    EndsString quote ('\\' :: c :: body) ↔ EndsString quote body := by
  have hpass : ∀ front, escapesNext ('\\' :: c :: front) = escapesNext front := by
    intro front
    simp [escapesNext]
  constructor
  · rintro ⟨front, h, hfront⟩
    rcases front with - | ⟨d, - | ⟨e, front⟩⟩
    · exact absurd (List.cons.inj h).1.symm hquote
    · obtain ⟨rfl, -⟩ := List.cons.inj h
      simp [escapesNext] at hfront
    · simp only [List.cons_append, List.cons.injEq] at h
      obtain ⟨rfl, rfl, rfl⟩ := h
      exact ⟨front, rfl, (hpass front).symm.trans hfront⟩
  · rintro ⟨front, rfl, hfront⟩
    exact ⟨'\\' :: c :: front, rfl, (hpass front).trans hfront⟩

/-- A string goes up to the first quote that is not escaped. -/
theorem quoted_upToFirst {quote : Char} (hquote : quote ≠ '\\') (cs : List Char) :
    IsUpToFirst (EndsString quote) (quoted quote cs).1 (quoted quote cs).2 := by
  fun_induction quoted quote cs with
  | case1 => exact isUpToFirst_nil
  | case2 c cs body behind hscan ih =>
    rw [hscan] at ih
    refine ⟨?_, ih.ends.imp_left (endsString_escape hquote c body).2⟩
    intro front rest h hends
    rcases front with - | ⟨d, - | ⟨e, front⟩⟩
    · exact absurd hends (not_endsString_nil quote)
    · obtain ⟨front, hfront, -⟩ := hends
      have hlast : d = quote := by simpa using congrArg List.getLast? hfront
      exact absurd ((List.cons.inj h).1.trans hlast).symm hquote
    · simp only [List.cons_append, List.cons.injEq] at h
      obtain ⟨rfl, rfl, htail⟩ := h
      exact ih.first front rest htail ((endsString_escape hquote c front).1 hends)
  | case3 c cs hnot hc =>
    have hc : c = quote := by simpa using hc
    subst hc
    exact isUpToFirst_singleton (not_endsString_nil c) (.inl ⟨[], rfl, rfl⟩)
  | case4 c cs hnot hc body behind hscan ih =>
    rw [hscan] at ih
    have hc : c ≠ quote := by simpa using hc
    by_cases hslash : c = '\\'
    · -- A backslash that is not followed by anything is the last character of the code.
      subst hslash
      have hcs : cs = [] := by
        cases cs with
        | nil => rfl
        | cons d cs => exact absurd rfl (hnot d cs rfl)
      subst hcs
      obtain ⟨rfl, rfl⟩ : [] = body ∧ [] = behind := by simpa [quoted] using hscan
      exact isUpToFirst_singleton (not_endsString_nil quote) (.inr rfl)
    · exact ih.cons (not_endsString_nil quote) fun front _ => endsString_cons hc hslash front

theorem run_behind (p : Char → Bool) (cs : List Char) : ∀ c ∈ (run p cs).2.head?, p c = false := by
  intro c hc
  have hne : cs.dropWhile p ≠ [] := by
    intro hnil
    simp [run, hnil] at hc
  have hhead : (cs.dropWhile p).head hne = c := by
    simpa [run, List.head?_eq_some_head hne] using hc
  rw [← hhead]
  simpa using List.head_dropWhile_not p hne

theorem run_all (p : Char → Bool) (cs : List Char) : ∀ c ∈ (run p cs).1, p c = true :=
  List.all_eq_true.1 List.all_takeWhile

/-! ## No run is cut in two -/

/-- No run of characters of a kind goes on from a text into the text behind it. -/
def Apart (p : Char → Bool) (before behind : List Char) : Prop :=
  (∀ c ∈ before.getLast?, p c = false) ∨ ∀ c ∈ behind.head?, p c = false

theorem Apart.append {p : Char → Bool} {text behind : List Char} (h : Apart p text behind)
    (hne : text ≠ []) (before : List Char) : Apart p (before ++ text) behind := by
  refine h.imp_left fun htext c hc => htext c ?_
  rw [List.getLast?_append, List.getLast?_eq_some_getLast hne] at hc
  rw [List.getLast?_eq_some_getLast hne]
  exact hc

theorem apart_of_behind_nil (p : Char → Bool) (before : List Char) : Apart p before [] :=
  .inr fun _ hc => nomatch hc

theorem apart_of_getLast {p : Char → Bool} {before : List Char} {c : Char}
    (hlast : before.getLast? = some c) (hc : p c = false) (behind : List Char) :
    Apart p before behind := by
  refine .inl fun d hd => ?_
  rw [hlast] at hd
  rwa [← Option.some.inj hd]

/-- Behind a run of one kind, a run of a kind that shares no character with it is not cut. -/
theorem apart_of_all {p q : Char → Bool} {text : List Char} (hall : ∀ c ∈ text, q c = true)
    (hpq : ∀ c, q c = true → p c = false) (behind : List Char) : Apart p text behind :=
  .inl fun c hc => hpq c (hall c (List.mem_of_getLast? hc))

theorem isWordChar_of_isPunctuation {c : Char} (h : isPunctuation c = true) :
    isWordChar c = false := by
  have hall : "!%&*+,-.:;<=>?@^|~()\x7b\x7d[]#".toList.all (!isWordChar ·) = true := by decide
  simpa using List.all_eq_true.1 hall c (List.contains_iff_mem.1 h)

theorem isPunctuation_of_isWordChar {c : Char} (h : isWordChar c = true) :
    isPunctuation c = false := by
  rw [← Bool.not_eq_true]
  intro hp
  simp [isWordChar_of_isPunctuation hp] at h

theorem isUnclassed_of_isBlank {c : Char} (h : Text.isBlank c = true) : IsUnclassed c :=
  Grammar.forall_isBlank (P := IsUnclassed) (fun n hn => by
    have hall : ∀ n ∈ Grammar.blankCodes, isWordChar (Char.ofNat n) = false ∧
        isPunctuation (Char.ofNat n) = false ∧ isQuote (Char.ofNat n) = false ∧
        Char.ofNat n ≠ '/' := by decide +kernel
    obtain ⟨hword, hpunctuation, hquote, hslash⟩ := hall n hn
    exact ⟨hword, hpunctuation, hquote, hslash⟩) h

theorem forall_mem_cons_run {p : Char → Bool} {c : Char} (hc : p c = true) (cs : List Char) :
    ∀ d ∈ c :: (run p cs).1, p d = true :=
  List.forall_mem_cons.2 ⟨hc, run_all p cs⟩

/-- Where a block comment ends, no run of a kind that the slash is not of is cut. -/
theorem apart_blockComment {p : Char → Bool} (hslash : p '/' = false) (cs : List Char) :
    Apart p ('/' :: '*' :: (blockComment cs).1) (blockComment cs).2 := by
  rcases (blockComment_upToFirst cs).ends with ⟨front, hfront⟩ | hnil
  · refine apart_of_getLast (c := '/') ?_ hslash _
    simp [← hfront, List.getLast?_cons]
  · rw [hnil]
    exact apart_of_behind_nil p _

/-- Where a string ends, no run of a kind that the quote is not of is cut. -/
theorem apart_quoted {p : Char → Bool} {quote : Char} (hquote : quote ≠ '\\') (hp : p quote = false)
    (cs : List Char) : Apart p (quote :: (quoted quote cs).1) (quoted quote cs).2 := by
  rcases (quoted_upToFirst hquote cs).ends with ⟨front, hfront, -⟩ | hnil
  · refine apart_of_getLast (c := quote) ?_ hp _
    simp [hfront, List.getLast?_cons]
  · rw [hnil]
    exact apart_of_behind_nil p _

theorem ne_backslash_of_isQuote {c : Char} (h : isQuote c = true) : c ≠ '\\' := by
  rintro rfl
  exact absurd h (by decide)

/-- What a cut at a character can be. -/
inductive CutCase (c : Char) (cs : List Char) : Cut → Prop where
  | lineComment (hc : c = '/') (hcs : ['/'] <+: cs) :
      CutCase c cs (.of .comment (run (· != '\n') cs))
  | blockComment (body : List Char) (hc : c = '/') (hcs : cs = '*' :: body) :
      CutCase c cs ⟨.comment, '*' :: (blockComment body).1, (blockComment body).2⟩
  | slash (hc : c = '/') : CutCase c cs ⟨.punctuation, [], cs⟩
  | string (hc : isQuote c = true) : CutCase c cs (.of .string (quoted c cs))
  | word (hc : isWordChar c = true) :
      CutCase c cs ⟨wordClass (c :: (run isWordChar cs).1) (run isWordChar cs).2,
        (run isWordChar cs).1, (run isWordChar cs).2⟩
  | punctuation (hc : isPunctuation c = true) :
      CutCase c cs (.of .punctuation (run isPunctuation cs))
  | blanks (hc : Text.isBlank c = true) : CutCase c cs (.of .plain (run Text.isBlank cs))
  | other (hc : IsUnclassed c) : CutCase c cs ⟨.plain, [], cs⟩

/-- The rules in the order in which they are tried. Only the last one needs that none of the others
applies. -/
theorem cut_cases (c : Char) (cs : List Char) : CutCase c cs (cut c cs) := by
  unfold cut
  split
  · rename_i hc
    have hc : c = '/' := by simpa using hc
    split
    · rename_i rest
      exact .lineComment hc ⟨rest, rfl⟩
    · rename_i body
      exact .blockComment body hc rfl
    · exact .slash hc
  · rename_i hslash
    split
    · exact .string ‹_›
    · rename_i hquote
      split
      · exact .word ‹_›
      · rename_i hword
        split
        · exact .punctuation ‹_›
        · rename_i hpunctuation
          split
          · exact .blanks ‹_›
          · exact .other ⟨by simpa using hword, by simpa using hpunctuation, by simpa using hquote,
              by simpa using hslash⟩

/-- Wherever a token ends, no word and no run of punctuation is cut in two. -/
theorem cut_apart (c : Char) (cs : List Char) :
    Apart isWordChar (c :: (cut c cs).taken) (cut c cs).rest ∧
      Apart isPunctuation (c :: (cut c cs).taken) (cut c cs).rest := by
  generalize hcut : cut c cs = token
  obtain hcase : CutCase c cs token := hcut ▸ cut_cases c cs
  cases hcase with
  | lineComment hc hcs =>
    have hline : ∀ {p : Char → Bool}, p '\n' = false →
        ∀ d ∈ (run (· != '\n') cs).2.head?, p d = false := by
      intro p hp d hd
      have hd : d = '\n' := by simpa using run_behind (· != '\n') cs d hd
      rwa [hd]
    exact ⟨.inr (hline (by decide)), .inr (hline (by decide))⟩
  | blockComment body hc hcs =>
    subst hc
    exact ⟨apart_blockComment (by decide) body, apart_blockComment (by decide) body⟩
  | slash hc =>
    subst hc
    exact ⟨apart_of_getLast (c := '/') rfl (by decide) _,
      apart_of_getLast (c := '/') rfl (by decide) _⟩
  | string hc =>
    have hne := ne_backslash_of_isQuote hc
    exact ⟨apart_quoted hne (isWordChar_of_isQuote hc) cs,
      apart_quoted hne (isPunctuation_of_isQuote hc) cs⟩
  -- a run goes as far as its kind of characters, and other kinds share none with it
  | word hc =>
    exact ⟨.inr (run_behind isWordChar cs),
      apart_of_all (forall_mem_cons_run hc cs) (fun _ => isPunctuation_of_isWordChar) _⟩
  | punctuation hc =>
    exact ⟨apart_of_all (forall_mem_cons_run hc cs) (fun _ => isWordChar_of_isPunctuation) _,
      .inr (run_behind isPunctuation cs)⟩
  | blanks hc =>
    have hall := forall_mem_cons_run hc cs
    exact ⟨apart_of_all hall (fun _ h => (isUnclassed_of_isBlank h).word) _,
      apart_of_all hall (fun _ h => (isUnclassed_of_isBlank h).punctuation) _⟩
  | other hc => exact ⟨apart_of_getLast rfl hc.word _, apart_of_getLast rfl hc.punctuation _⟩

/-! ## One token -/

theorem isMaximalRun_run {p : Char → Bool} {c : Char} {before cs : List Char} (hc : p c = true)
    (hbefore : Apart p before (c :: cs)) :
    IsMaximalRun p before (c :: (run p cs).1) (run p cs).2 := by
  refine ⟨List.cons_ne_nil _ _, forall_mem_cons_run hc cs, ?_, run_behind p cs⟩
  rcases hbefore with hbefore | hhead
  · exact hbefore
  · exact absurd (hhead c rfl) (by simp [hc])

theorem wordClass_eq (word rest : List Char) :
    wordClass word rest = .keyword ∨ wordClass word rest = .identifier := by
  unfold wordClass
  split
  · exact .inl rfl
  · exact .inr rfl

theorem wordClass_keyword_iff {word rest : List Char} (hrest : ∀ c ∈ rest.head?, isWordChar c = false) :
    wordClass word rest = .keyword ↔
      String.ofList word ∈ keywords ∧ ∀ c ∈ rest.head?, ¬ StartsLikeWord c := by
  have hnext : (rest.head?.any seemsToContinue = false) ↔ ∀ c ∈ rest.head?, ¬ StartsLikeWord c := by
    cases hhead : rest.head? with
    | none => simp
    | some c => simp [← seemsToContinue_iff (hrest c hhead)]
  unfold wordClass
  split
  · rename_i h
    simp only [Bool.and_eq_true, Bool.not_eq_true', List.contains_iff_mem, hnext] at h
    exact iff_of_true rfl h
  · rename_i h
    simp only [Bool.and_eq_true, Bool.not_eq_true', List.contains_iff_mem, hnext] at h
    exact iff_of_false (by simp) h

theorem isLineComment_run {c : Char} {cs : List Char} (hc : c = '/') (hcs : ['/'] <+: cs) :
    IsLineComment (c :: (run (· != '\n') cs).1) (run (· != '\n') cs).2 := by
  subst hc
  refine ⟨?_, ?_, ?_⟩
  · obtain ⟨rest, rfl⟩ := hcs
    exact ⟨(run (· != '\n') rest).1, by simp [run]⟩
  · intro hmem
    have hall := forall_mem_cons_run (p := (· != '\n')) (c := '/') (by decide) cs
    exact absurd (hall _ hmem) (by decide)
  · cases hrest : (run (· != '\n') cs).2 with
    | nil => exact .inr rfl
    | cons d ds =>
      have hd := run_behind (· != '\n') cs d (by rw [hrest]; rfl)
      exact .inl (congrArg some (by simpa using hd))

section

variable {before text behind : List Char}

-- A token has one class, so of the rules only the one for its class says anything.

theorem FollowsRules.ofWord (h : IsMaximalRun isWordChar before text behind) :
    FollowsRules before (wordClass text behind) text behind := by
  refine ⟨fun _ => h, fun _ => wordClass_keyword_iff h.behind, ?_, ?_, ?_, ?_⟩
  all_goals
    intro hclass
    rcases wordClass_eq text behind with hword | hword
    · exact absurd (hword.symm.trans hclass) (by simp)
    · exact absurd (hword.symm.trans hclass) (by simp)

theorem FollowsRules.ofComment (h : IsLineComment text behind ∨ IsBlockComment text behind) :
    FollowsRules before .comment text behind :=
  ⟨by simp, by simp, fun _ => h, by simp, by simp, by simp⟩

theorem FollowsRules.ofString (h : IsString text behind) :
    FollowsRules before .string text behind :=
  ⟨by simp, by simp, by simp, fun _ => h, by simp, by simp⟩

theorem FollowsRules.ofPunctuation
    (h : text = ['/'] ∨ IsMaximalRun isPunctuation before text behind) :
    FollowsRules before .punctuation text behind :=
  ⟨by simp, by simp, by simp, by simp, fun _ => h, by simp⟩

theorem FollowsRules.ofPlain (h : ∀ c ∈ text, IsUnclassed c) :
    FollowsRules before .plain text behind :=
  ⟨by simp, by simp, by simp, by simp, by simp, fun _ => h⟩

end

/-- One token follows the rules, where no run is cut at its front. -/
theorem cut_followsRules {before cs : List Char} {c : Char}
    (hword : Apart isWordChar before (c :: cs))
    (hpunctuation : Apart isPunctuation before (c :: cs)) :
    FollowsRules before (cut c cs).tokenClass (c :: (cut c cs).taken) (cut c cs).rest := by
  generalize hcut : cut c cs = token
  obtain hcase : CutCase c cs token := hcut ▸ cut_cases c cs
  cases hcase with
  | lineComment hc hcs => exact .ofComment (.inl (isLineComment_run hc hcs))
  | blockComment body hc hcs =>
    exact .ofComment (.inr ⟨_, congrArg (· :: _) hc, blockComment_upToFirst body⟩)
  | slash hc => exact .ofPunctuation (.inl (congrArg (· :: []) hc))
  | string hc =>
    exact .ofString ⟨c, _, hc, rfl, quoted_upToFirst (ne_backslash_of_isQuote hc) cs⟩
  | word hc => exact .ofWord (isMaximalRun_run hc hword)
  | punctuation hc => exact .ofPunctuation (.inr (isMaximalRun_run hc hpunctuation))
  | blanks hc =>
    exact .ofPlain fun d hd => isUnclassed_of_isBlank (forall_mem_cons_run hc cs d hd)
  | other hc => exact .ofPlain (List.forall_mem_singleton.2 hc)

/-! ## All tokens -/

/-- The characters of pieces, one piece after the other. -/
def chars (pieces : List (TokenClass × List Char)) : List Char := (pieces.map Prod.snd).flatten

@[simp] theorem chars_nil : chars [] = [] := rfl

@[simp] theorem chars_append (front back : List (TokenClass × List Char)) :
    chars (front ++ back) = chars front ++ chars back := by
  simp [chars]

@[simp] theorem chars_cons (piece : TokenClass × List Char) (rest : List (TokenClass × List Char)) :
    chars (piece :: rest) = piece.2 ++ chars rest := rfl

@[simp] theorem chars_pieces (cs : List Char) : chars (pieces cs) = cs := pieces_flatten cs

/-- Every piece of a text follows the rules, where no run is cut at the front of the text. -/
theorem pieces_followRules {before cs : List Char} (hword : Apart isWordChar before cs)
    (hpunctuation : Apart isPunctuation before cs) {front back : List (TokenClass × List Char)}
    {piece : TokenClass × List Char} (h : pieces cs = front ++ piece :: back) :
    FollowsRules (before ++ chars front) piece.1 piece.2 (chars back) := by
  fun_induction pieces cs generalizing before front with
  | case1 => simp at h
  | case2 c cs _ ih =>
    cases front with
    | nil =>
      obtain ⟨rfl, rfl⟩ := List.cons.inj h
      simpa using cut_followsRules hword hpunctuation
    | cons x front =>
      obtain ⟨rfl, hback⟩ := List.cons.inj h
      obtain ⟨hword', hpunctuation'⟩ := cut_apart c cs
      have hrest := ih (hword'.append (List.cons_ne_nil _ _) before)
        (hpunctuation'.append (List.cons_ne_nil _ _) before) hback
      simpa using hrest

end TsxCompiler.Highlight

namespace TsxCompiler.Token

open Highlight

/-- A placed piece is one of the pieces, and starts behind the bytes of those before it. -/
theorem exists_of_mem_place {start : Nat} {pieces : List (TokenClass × List Char)} {t : Token}
    (h : t ∈ place start pieces) :
    ∃ front back, pieces = front ++ (t.tokenClass, t.text.toList) :: back ∧
      t.start = start + (String.ofList (chars front)).utf8ByteSize := by
  induction pieces generalizing start with
  | nil => cases h
  | cons piece pieces ih =>
    obtain ⟨tokenClass, text⟩ := piece
    rcases List.mem_cons.1 h with rfl | htail
    · exact ⟨[], pieces, by simp, by simp⟩
    · obtain ⟨front, back, rfl, hstart⟩ := ih htail
      refine ⟨(tokenClass, text) :: front, back, rfl, ?_⟩
      rw [hstart]
      simp [String.ofList_append, String.utf8ByteSize_append, Nat.add_assoc]

/-- Every token of every code stands behind the bytes before its place, and follows the rules
there: words and punctuation are maximal runs, words of the keyword list are keywords unless the
character behind them starts like a character of words, comments and strings go up to their first
end, and what is left is of none of these kinds. -/
theorem tokenize_followsRules (code : String) :
    ∀ t ∈ tokenize code, ∃ before behind : String,
      code = before ++ t.text ++ behind ∧ before.utf8ByteSize = t.start ∧
        FollowsRules before.toList t.tokenClass t.text.toList behind.toList := by
  intro t ht
  rw [tokenize_eq] at ht
  obtain ⟨front, back, hpieces, hstart⟩ := exists_of_mem_place ht
  refine ⟨String.ofList (chars front), String.ofList (chars back), ?_, by simpa using hstart.symm, ?_⟩
  · have hcode := chars_pieces code.toList
    rw [hpieces] at hcode
    rw [← String.toList_inj, ← hcode]
    simp
  · have hapart : ∀ p, Apart p [] code.toList := fun p => .inl fun c hc => nomatch hc
    simpa using pieces_followRules (hapart _) (hapart _) hpieces

/-- A closed string with an escaped quote in it, behind a comment and in front of a word. -/
theorem tokenize_followsRules_escapedQuote :
    let code := "/*'*/'a\\'b'in"
    let t : Token := ⟨.string, "'a\\'b'", 5, 11⟩
    t ∈ tokenize code ∧ ∃ before behind : String,
      code = before ++ t.text ++ behind ∧ before.utf8ByteSize = t.start ∧
        FollowsRules before.toList t.tokenClass t.text.toList behind.toList := by
  intro code t
  have ht : t ∈ tokenize code := by decide +kernel
  exact ⟨ht, tokenize_followsRules code t ht⟩

/-- The word `in` is a keyword, and the character behind it is no part of a word; still the word is
shown as an identifier. -/
theorem keyword_shownAsIdentifier :
    ∃ t ∈ tokenize "in😀", t.tokenClass = .identifier ∧ t.text ∈ keywords ∧
      isWordChar '😀' = false :=
  ⟨⟨.identifier, "in", 0, 2⟩, by decide +kernel⟩

end TsxCompiler.Token
