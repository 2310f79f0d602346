import TsxCompiler.Highlight.Token

/-!
# Tokens as pieces of a text

The lexer counts bytes. The same tokens are found by splitting the characters of a text: into what a
token takes and what is left, piece by piece, with the places of the pieces told by their own texts.
A count that ended inside of a character, or before or behind the end of a token, would make a
difference; there is none (`Token.tokenize_eq`).

* `Highlight.cut`, `Highlight.pieces` — one token and all tokens of a text as characters.
* `Highlight.blockCommentBytes_eq`, `Highlight.stringBytes_eq` — the two scans count the bytes of
  what they pass over.
* `Token.tokenize_eq` — the tokens of a code are its pieces, placed one after the other.
-/

namespace TsxCompiler

namespace Highlight

/-! ## Splitting a text -/

/-- Splits a text behind the first `*/`, or at its end. -/
def blockComment : List Char → List Char × List Char
  | [] => ([], [])
  | '*' :: '/' :: rest => (['*', '/'], rest)
  | c :: rest =>
    let (body, rest) := blockComment rest
    (c :: body, rest)

/-- Splits a text behind the first quote that no backslash escapes, or at its end. -/
def quoted (quote : Char) : List Char → List Char × List Char
  | [] => ([], [])
  | '\\' :: c :: rest =>
    let (body, rest) := quoted quote rest
    ('\\' :: c :: body, rest)
  | c :: rest =>
    if c == quote then ([c], rest)
    else
      let (body, rest) := quoted quote rest
      (c :: body, rest)

/-- Splits a text behind its longest run of characters of one kind. -/
def run (p : Char → Bool) (cs : List Char) : List Char × List Char :=
  (cs.takeWhile p, cs.dropWhile p)

/-- A token at the front of a text. -/
structure Cut where
  tokenClass : TokenClass
  /-- What belongs to the token behind its first character. -/
  taken : List Char
  rest : List Char

/-- A cut of one class. -/
def Cut.of (tokenClass : TokenClass) (parts : List Char × List Char) : Cut :=
  ⟨tokenClass, parts.1, parts.2⟩

/-- The token that starts with a character in front of a text. -/
def cut (c : Char) (cs : List Char) : Cut :=
  if c == '/' then
    match cs with
    | '/' :: _ => .of .comment (run (· != '\n') cs)
    | '*' :: body =>
      let (body, rest) := blockComment body
      ⟨.comment, '*' :: body, rest⟩
    | _ => ⟨.punctuation, [], cs⟩
  else if isQuote c then .of .string (quoted c cs)
  else if isWordChar c then
    let (word, rest) := run isWordChar cs
    ⟨wordClass (c :: word) rest, word, rest⟩
  else if isPunctuation c then .of .punctuation (run isPunctuation cs)
  else if Text.isBlank c then .of .plain (run Text.isBlank cs)
  else ⟨.plain, [], cs⟩

/-! ## Nothing is lost -/

theorem blockComment_append (cs : List Char) :
    (blockComment cs).1 ++ (blockComment cs).2 = cs := by
  fun_induction blockComment cs with
  | case1 => rfl
  | case2 => rfl
  | case3 c rest _ body rest' h ih => simp_all

theorem quoted_append (quote : Char) (cs : List Char) :
    (quoted quote cs).1 ++ (quoted quote cs).2 = cs := by
  fun_induction quoted quote cs with
  | case1 => rfl
  | case2 c rest body rest' h ih => simp_all
  | case3 => rfl
  | case4 c rest _ _ body rest' h ih => simp_all

theorem run_append (p : Char → Bool) (cs : List Char) : (run p cs).1 ++ (run p cs).2 = cs :=
  List.takeWhile_append_dropWhile

/-- A cut splits the text. -/
theorem cut_append (c : Char) (cs : List Char) : (cut c cs).taken ++ (cut c cs).rest = cs := by
  unfold cut
  split
  · split
    · exact run_append _ _
    · simp [blockComment_append]
    · rfl
  · split
    · exact quoted_append _ _
    · split
      · exact run_append _ _
      · split
        · exact run_append _ _
        · split
          · exact run_append _ _
          · rfl

theorem cut_rest_length_le (c : Char) (cs : List Char) : (cut c cs).rest.length ≤ cs.length := by
  have h := congrArg List.length (cut_append c cs)
  rw [List.length_append] at h
  omega

/-! ## Tokens -/

/-- The tokens of a text, without their places. -/
def pieces : List Char → List (TokenClass × List Char)
  | [] => []
  | c :: cs =>
    have := cut_rest_length_le c cs
    ((cut c cs).tokenClass, c :: (cut c cs).taken) :: pieces (cut c cs).rest
termination_by cs => cs.length
decreasing_by simp only [List.length_cons]; omega

end Highlight

namespace Token

/-- Places pieces one after the other, the first of them at a byte. -/
def place : Nat → List (TokenClass × List Char) → List Token
  | _, [] => []
  | start, (tokenClass, chars) :: rest =>
    let text := String.ofList chars
    let stop := start + text.utf8ByteSize
    ⟨tokenClass, text, start, stop⟩ :: place stop rest

end Token

/-! ## Counting bytes -/

namespace Highlight

theorem bytes_nil : bytes [] = 0 := rfl

theorem bytes_cons (c : Char) (cs : List Char) : bytes (c :: cs) = c.utf8Size + bytes cs :=
  rfl

theorem utf8ByteSize_ofList (cs : List Char) : (String.ofList cs).utf8ByteSize = bytes cs := by
  induction cs with
  | nil => rfl
  | cons c cs ih =>
    rw [← List.singleton_append, String.ofList_append, String.utf8ByteSize_append,
      ← String.singleton_eq_ofList, String.utf8ByteSize_singleton, ih, List.singleton_append,
      bytes_cons]

/-- The bytes of a text end between two characters of every text that goes on behind it. -/
theorem splitBytes_append (taken rest : List Char) :
    splitBytes (bytes taken) (taken ++ rest) = some (taken, rest) := by
  induction taken with
  | nil => rw [bytes_nil, List.nil_append, splitBytes]
  | cons c taken ih =>
    obtain ⟨n, hn⟩ := Nat.exists_eq_add_of_lt c.utf8Size_pos
    have hbytes : bytes (c :: taken) = n + bytes taken + 1 := by
      rw [bytes_cons]
      omega
    have hrest : n + bytes taken + 1 - c.utf8Size = bytes taken := by omega
    rw [hbytes, List.cons_append, splitBytes, if_pos (by omega), hrest, ih]
    rfl

/-- A comment is closed as many bytes further on as its body has, or never. -/
theorem findClose_eq (i : Nat) (cs : List Char) :
    ((findClose i cs).map (· + 2)).getD (i + bytes cs) = i + bytes (blockComment cs).1 := by
  fun_induction blockComment cs generalizing i with
  | case1 => rfl
  | case2 rest => rfl
  | case3 c rest hclose body rest' h ih =>
    rw [findClose]
    · have hstep := ih (i + c.utf8Size)
      rw [h] at hstep
      rw [bytes_cons, bytes_cons, ← Nat.add_assoc, hstep, Nat.add_assoc]
    · exact hclose

theorem blockCommentBytes_eq (cs : List Char) :
    blockCommentBytes cs = bytes (blockComment cs).1 := by
  have hscan := findClose_eq 0 cs
  rw [Nat.zero_add, Nat.zero_add] at hscan
  rw [blockCommentBytes, ← hscan]
  cases findClose 0 cs <;> rfl

/-- A string is closed as many bytes further on as its body has, or never. -/
theorem findQuote_eq {quote : Char} (hquote : quote ≠ '\\') (i : Nat) (cs : List Char) :
    (findQuote quote false i cs).getD (i + bytes cs) = i + bytes (quoted quote cs).1 := by
  fun_induction quoted quote cs generalizing i with
  | case1 => rfl
  | case2 c rest body rest' h ih =>
    -- The backslash is passed over, and so is what it escapes.
    have hstep := ih (i + '\\'.utf8Size + c.utf8Size)
    rw [h] at hstep
    simp only [findQuote, Bool.false_eq_true, if_false, beq_self_eq_true, if_true, bytes_cons,
      ← Nat.add_assoc]
    exact hstep
  | case3 c rest hescape hc =>
    obtain rfl : c = quote := eq_of_beq hc
    simp [findQuote, hquote, bytes_cons, bytes_nil]
  | case4 c rest hescape hc body rest' h ih =>
    have hstep := ih (i + c.utf8Size)
    rw [h] at hstep
    rw [findQuote, if_neg Bool.false_ne_true, bytes_cons, bytes_cons, ← Nat.add_assoc]
    by_cases hslash : c = '\\'
    · -- A backslash at the end of the code escapes nothing.
      cases rest with
      | nil =>
        cases h
        simp [hslash, findQuote, bytes_nil]
      | cons x rest => exact (hescape x rest hslash rfl).elim
    · simp only [beq_iff_eq, hslash, if_false, hc, Bool.false_eq_true]
      rw [hstep, Nat.add_assoc]

theorem stringBytes_eq {quote : Char} (hquote : quote ≠ '\\') (cs : List Char) :
    stringBytes quote cs = bytes (quoted quote cs).1 := by
  have hscan := findQuote_eq hquote 0 cs
  rwa [Nat.zero_add, Nat.zero_add] at hscan

/-- What is matched and what the end is moved on by are the bytes of what a token takes. -/
theorem longestMatch_eq (c : Char) (cs : List Char) :
    (longestMatch c cs).tokenClass = (cut c cs).tokenClass ∧
      (longestMatch c cs).matched + (longestMatch c cs).bump = bytes (cut c cs).taken := by
  fun_cases cut c cs with
  | case1 hc tail =>
    rw [longestMatch, if_pos hc]
    exact ⟨rfl, rfl⟩
  -- only comments and strings are measured by loops of their own
  | case2 hc body taken rest hbody =>
    have htaken : (blockComment body).1 = taken := congrArg Prod.fst hbody
    rw [longestMatch, if_pos hc]
    refine ⟨rfl, ?_⟩
    rw [blockCommentBytes_eq, htaken]
    exact (bytes_cons '*' taken).symm
  | case3 _ hc hline hblock =>
    rw [longestMatch, if_pos hc]
    · exact ⟨rfl, rfl⟩
    · exact hline
    · exact hblock
  | case4 _ hc hquoted =>
    have hquote : c ≠ '\\' := by
      rintro rfl
      exact absurd hquoted (by decide)
    unfold longestMatch
    rw [if_neg hc, if_pos hquoted]
    exact ⟨rfl, (Nat.zero_add _).trans (stringBytes_eq hquote cs)⟩
  | case5 _ hc hquoted hword word rest hrun =>
    unfold longestMatch
    rw [if_neg hc, if_neg hquoted, if_pos hword]
    cases hrun
    exact ⟨rfl, rfl⟩
  | case6 _ hc hquoted hword hmark =>
    unfold longestMatch
    rw [if_neg hc, if_neg hquoted, if_neg hword, if_pos hmark]
    exact ⟨rfl, rfl⟩
  | case7 _ hc hquoted hword hmark hblank =>
    unfold longestMatch
    rw [if_neg hc, if_neg hquoted, if_neg hword, if_neg hmark, if_pos hblank]
    exact ⟨rfl, rfl⟩
  | case8 _ hc hquoted hword hmark hblank =>
    unfold longestMatch
    rw [if_neg hc, if_neg hquoted, if_neg hword, if_neg hmark, if_neg hblank]
    exact ⟨rfl, rfl⟩

end Highlight

/-! ## Tokens -/

namespace Token

open Highlight

/-- Tokens are the pieces of the text with their places: the length of the longest match in bytes is
that of the piece's characters. -/
theorem lex_eq (start : Nat) (cs : List Char) : lex start cs = place start (pieces cs) := by
  fun_induction pieces cs generalizing start with
  | case1 => rw [lex, place]
  | case2 c cs _ ih =>
    obtain ⟨hclass, hbytes⟩ := longestMatch_eq c cs
    have hsplit : splitBytes ((longestMatch c cs).matched + (longestMatch c cs).bump) cs =
        some ((cut c cs).taken, (cut c cs).rest) := by
      have happend := splitBytes_append (cut c cs).taken (cut c cs).rest
      rwa [cut_append, ← hbytes] at happend
    have hstop : start + (String.ofList (c :: (cut c cs).taken)).utf8ByteSize =
        start + (c.utf8Size + ((longestMatch c cs).matched + (longestMatch c cs).bump)) := by
      rw [utf8ByteSize_ofList, bytes_cons, hbytes]
    rw [lex, place]
    dsimp only
    rw [hstop]
    split
    · rename_i hnone
      rw [hsplit] at hnone
      cases hnone
    · rename_i taken rest hsome
      rw [hsplit] at hsome
      cases hsome
      rw [hclass, ih]

/-- The tokens of a code are its pieces, placed one after the other: every count of bytes ends where
a piece does. -/
theorem tokenize_eq (code : String) : tokenize code = place 0 (pieces code.toList) :=
  lex_eq 0 code.toList

end Token

end TsxCompiler
