import TsxCompiler.Proofs.TokenPieces

/-!
# Tokens and the code they came from

Cutting a text into tokens loses nothing. Each cut hands on the text behind it unchanged, so the
pieces of a text are the text again; placing the pieces one after the other then puts every token
where its own bytes are. The lexer, which counts bytes, ends every token where a piece ends
(`Token.tokenize_eq`).

* `Highlight.pieces_flatten` — the pieces of a text, one after the other, are the text.
* `Token.place_isSliceOf` — a placed piece is the slice of the code between its two places.
* `Token.tokenize_lossless` — all of it for the tokens of a piece of code.
-/

namespace TsxCompiler

/-! ## Pieces -/

namespace Highlight

/-- The pieces of a text, one after the other, are the text. -/
theorem pieces_flatten (cs : List Char) : ((pieces cs).map Prod.snd).flatten = cs := by
  fun_induction pieces cs with
  | case1 => rfl
  | case2 c cs _ ih =>
    rw [List.map_cons, List.flatten_cons, ih]
    exact congrArg (c :: ·) (cut_append c cs)

/-- A piece has at least the character it starts with. -/
theorem pieces_ne_nil {cs : List Char} {piece : TokenClass × List Char} (h : piece ∈ pieces cs) :
    piece.2 ≠ [] := by
  fun_induction pieces cs with
  | case1 => cases h
  | case2 c cs _ ih =>
    rcases List.mem_cons.1 h with rfl | htail
    · exact List.cons_ne_nil _ _
    · exact ih htail

end Highlight

/-! ## Places -/

namespace Token

/-- Both ends of a token are between two characters of the code, and the bytes from the one to the
other are its text. -/
def IsSliceOf (code : String) (t : Token) : Prop :=
  ∃ (hstart : String.Pos.Raw.IsValid code ⟨t.start⟩) (hstop : String.Pos.Raw.IsValid code ⟨t.stop⟩),
    String.extract (code.pos ⟨t.start⟩ hstart) (code.pos ⟨t.stop⟩ hstop) = t.text

/-- A token is a slice of every code that has its text behind as many bytes as come before it. -/
theorem isSliceOf_append (before behind text : String) (tokenClass : TokenClass) :
    IsSliceOf (before ++ (text ++ behind))
      ⟨tokenClass, text, before.utf8ByteSize, before.utf8ByteSize + text.utf8ByteSize⟩ := by
  have hstart : String.Pos.Raw.IsValid (before ++ (text ++ behind)) ⟨before.utf8ByteSize⟩ :=
    (String.Pos.Raw.isValid_rawEndPos (s := before)).append_right (text ++ behind)
  have hstop : String.Pos.Raw.IsValid (before ++ (text ++ behind))
      ⟨before.utf8ByteSize + text.utf8ByteSize⟩ := by
    rw [← String.append_assoc, ← String.utf8ByteSize_append]
    exact (String.Pos.Raw.isValid_rawEndPos (s := before ++ text)).append_right behind
  refine ⟨hstart, hstop, ?_⟩
  -- What comes before is cut off as a whole, and what comes behind as well.
  have hcut : (before.toByteArray ++ (text.toByteArray ++ behind.toByteArray)).extract
      before.utf8ByteSize (before.utf8ByteSize + text.utf8ByteSize) =
        (text.toByteArray ++ behind.toByteArray).extract 0 text.utf8ByteSize := by
    rw [← String.size_toByteArray]
    exact ByteArray.extract_append_size_add (i := 0)
  rw [← String.toByteArray_inj, String.toByteArray_extract, String.offset_pos, String.offset_pos,
    String.toByteArray_append, String.toByteArray_append, hcut]
  exact ByteArray.extract_append_eq_left String.size_toByteArray.symm

theorem place_text (start : Nat) (pieces : List (TokenClass × List Char)) :
    (place start pieces).map text = pieces.map fun piece => String.ofList piece.2 := by
  induction pieces generalizing start with
  | nil => rfl
  | cons piece rest ih => simp [place, ih]

/-- Placed pieces follow each other without a gap, from the first place to the one behind their
last byte. -/
theorem place_contiguous (start : Nat) (pieces : List (TokenClass × List Char)) :
    start :: (place start pieces).map stop =
      (place start pieces).map Token.start ++
        [start + (String.ofList (pieces.map Prod.snd).flatten).utf8ByteSize] := by
  induction pieces generalizing start with
  | nil => simp [place]
  | cons piece rest ih =>
    have hbytes : (String.ofList ((piece :: rest).map Prod.snd).flatten).utf8ByteSize =
        (String.ofList piece.2).utf8ByteSize +
          (String.ofList (rest.map Prod.snd).flatten).utf8ByteSize := by
      rw [List.map_cons, List.flatten_cons, String.ofList_append, String.utf8ByteSize_append]
    rw [hbytes]
    simp only [place, List.map_cons, List.cons_append]
    rw [ih, Nat.add_assoc]

/-- A placed piece is the slice of the code between its two places. -/
theorem place_isSliceOf {before : String} {pieces : List (TokenClass × List Char)} {t : Token}
    (h : t ∈ place before.utf8ByteSize pieces) :
    IsSliceOf (before ++ String.ofList (pieces.map Prod.snd).flatten) t := by
  induction pieces generalizing before with
  | nil => cases h
  | cons piece rest ih =>
    rw [List.map_cons, List.flatten_cons, String.ofList_append]
    rcases List.mem_cons.1 h with rfl | htail
    · exact isSliceOf_append before _ _ piece.1
    · rw [← String.append_assoc]
      rw [← String.utf8ByteSize_append] at htail
      exact ih htail

/-! ## Tokens -/

/-- The tokens of a piece of code are the code: no token is empty, their texts one after the
other are the code, the first starts at byte zero, each starts where the one before it stops and the
last stops at the code's last byte, and each is the slice of the code between its two places, both
of which are between characters. -/
theorem tokenize_lossless (code : String) :
    (∀ t ∈ tokenize code, t.text ≠ "") ∧
      String.join ((tokenize code).map text) = code ∧
      0 :: (tokenize code).map stop = (tokenize code).map start ++ [code.utf8ByteSize] ∧
      ∀ t ∈ tokenize code, IsSliceOf code t := by
  have hcode : String.ofList ((Highlight.pieces code.toList).map Prod.snd).flatten = code := by
    rw [Highlight.pieces_flatten, String.ofList_toList]
  have htexts : (tokenize code).map text =
      (Highlight.pieces code.toList).map fun piece => String.ofList piece.2 := by
    rw [tokenize_eq, place_text]
  refine ⟨?_, ?_, ?_, ?_⟩
  · intro t ht hempty
    have hmem : t.text ∈ (tokenize code).map text := List.mem_map_of_mem ht
    rw [htexts] at hmem
    obtain ⟨piece, hpiece, htext⟩ := List.mem_map.1 hmem
    rw [hempty] at htext
    exact Highlight.pieces_ne_nil hpiece (by simpa using htext)
  · rw [← String.toList_inj, String.toList_join, htexts, List.flatMap_map]
    simpa [List.flatMap_def] using Highlight.pieces_flatten code.toList
  · have hplaces := place_contiguous 0 (Highlight.pieces code.toList)
    rwa [hcode, Nat.zero_add, ← tokenize_eq] at hplaces
  · intro t ht
    rw [tokenize_eq] at ht
    have hslice : IsSliceOf ("" ++ String.ofList _) t := place_isSliceOf ht
    rwa [hcode, String.empty_append] at hslice

theorem tokenize_lossless_unclosed :
    let t : Token := ⟨.string, "'é\\", 3, 7⟩
    t ∈ tokenize "in 'é\\" ∧ t.text ≠ "" ∧ IsSliceOf "in 'é\\" t := by
  intro t
  have hmem : t ∈ tokenize "in 'é\\" := by decide +kernel
  obtain ⟨hnonempty, -, -, hslices⟩ := tokenize_lossless "in 'é\\"
  exact ⟨hmem, hnonempty t hmem, hslices t hmem⟩

end Token

end TsxCompiler
