import TsxCompiler.Highlight.Token

/-!
# What a first byte says about a character

A word that is in front of a character beyond ASCII is judged by the first byte of that character
alone. Most first bytes are shared by characters of words and by others; six of them belong to no
character of words at all. The table of letters and numbers has no entry in the stretches of these
six, and an entry for each of the others, so `seemsToContinue` says exactly whether some character
of words starts with the same byte.

* `lead_eq_iff` — first bytes, as numbers.
* `isWordChar_of_firstByte`, `exists_isWordChar_of_firstByte` — the two kinds of first bytes.
* `seemsToContinue_iff` — a character seems to go on with a word if it starts like one that would.
-/

namespace TsxCompiler.Highlight

/-- The first byte of a character in UTF-8. -/
def lead (c : Char) : Option UInt8 := (String.utf8EncodeChar c).head?

/-- Some character of words has the same first byte. -/
def StartsLikeWord (c : Char) : Prop := ∃ d, isWordChar d = true ∧ lead d = lead c

/-! ## First bytes as numbers -/

theorem toNat_lt_limit (c : Char) : c.toNat < 0x110000 := by
  rcases c.valid with h | ⟨-, h⟩
  · exact Nat.lt_trans h (by decide)
  · exact h

theorem firstByte_bounds {c : Char} (h : 0x80 ≤ c.toNat) :
    0xC2 ≤ firstByte c ∧ firstByte c < 0xF5 := by
  have hlimit := toNat_lt_limit c
  unfold firstByte
  split
  · omega
  · split
    · omega
    · omega

/-- The number of the first byte of any character. -/
def leadCode (c : Char) : Nat := if c.toNat < 0x80 then c.toNat else firstByte c

theorem lead_eq (c : Char) : lead c = some (UInt8.ofNat (leadCode c)) := by
  have hlimit := toNat_lt_limit c
  have hval : c.val.toNat = c.toNat := rfl
  have h1 : c.toNat ≤ 0x7F ↔ c.toNat < 0x80 := Nat.lt_succ_iff.symm
  have h2 : c.toNat ≤ 0x7FF ↔ c.toNat < 0x800 := Nat.lt_succ_iff.symm
  have h3 : c.toNat ≤ 0xFFFF ↔ c.toNat < 0x10000 := Nat.lt_succ_iff.symm
  unfold lead String.utf8EncodeChar leadCode firstByte
  -- Both sides branch on the size of the character, once their bounds are written alike.
  simp only [hval, h1, h2, h3, apply_ite List.head?, List.head?_cons, apply_ite UInt8.ofNat,
    apply_ite some]
  split
  · rfl
  · split
    · exact congrArg (fun n => some (UInt8.ofNat n)) (by omega)
    · split
      · exact congrArg (fun n => some (UInt8.ofNat n)) (by omega)
      · exact congrArg (fun n => some (UInt8.ofNat n)) (by omega)

theorem leadCode_lt (c : Char) : leadCode c < 0x100 := by
  unfold leadCode
  split
  · omega
  · have hbounds := firstByte_bounds (c := c) (by omega)
    omega

theorem lead_eq_iff {c d : Char} : lead c = lead d ↔ leadCode c = leadCode d := by
  rw [lead_eq, lead_eq, Option.some_inj]
  constructor
  · intro h
    have hcode := congrArg UInt8.toNat h
    rwa [UInt8.toNat_ofNat_of_lt' (leadCode_lt c), UInt8.toNat_ofNat_of_lt' (leadCode_lt d)] at hcode
  · exact congrArg _

theorem lead_eq_iff_of_ascii {c d : Char} (hc : c.toNat < 0x80) : lead d = lead c ↔ d = c := by
  refine ⟨fun h => ?_, congrArg lead⟩
  have hcode := lead_eq_iff.1 h
  rw [leadCode, leadCode, if_pos hc] at hcode
  split at hcode
  · exact Char.toNat_inj.1 hcode
  · have hbounds := firstByte_bounds (c := d) (by omega)
    omega

theorem lead_eq_iff_of_le {c d : Char} (hc : 0x80 ≤ c.toNat) :
    lead d = lead c ↔ 0x80 ≤ d.toNat ∧ firstByte d = firstByte c := by
  have hbounds := firstByte_bounds hc
  rw [lead_eq_iff, leadCode, leadCode, if_neg (by omega : ¬ c.toNat < 0x80)]
  split
  · omega
  · omega

/-! ## First bytes of words -/

/-- The first bytes of longer characters that no character of words has. -/
def wordlessBytes : List Nat := [0xCC, 0xEE, 0xF1, 0xF2, 0xF3, 0xF4]

/-- The characters with such a first byte lie in three stretches without letters and numbers. -/
theorem isWordChar_of_firstByte {d : Char} (hd : 0x80 ≤ d.toNat)
    (h : firstByte d ∈ wordlessBytes) : isWordChar d = false := by
  -- the code points with these first bytes
  have hstretch : (0x300 ≤ d.toNat ∧ d.toNat < 0x340) ∨ (0xE000 ≤ d.toNat ∧ d.toNat < 0xF000) ∨
      0x40000 ≤ d.toNat := by
    have hlimit := toNat_lt_limit d
    simp only [wordlessBytes, List.mem_cons, List.not_mem_nil, or_false] at h
    unfold firstByte at h
    split at h
    · omega
    · split at h
      · omega
      · omega
  -- no range of the tables meets them
  have htable : ∀ r ∈ Text.alphabeticRanges ++ Text.numericRanges, (r.2 < 0x300 ∨ 0x340 ≤ r.1) ∧
      (r.2 < 0xE000 ∨ 0xF000 ≤ r.1) ∧ r.2 < 0x40000 := by
    decide +kernel
  have hlisted : Text.inRanges (Text.alphabeticRanges ++ Text.numericRanges) d.toNat = false := by
    rw [Text.inRanges, List.any_eq_false]
    intro r hr
    have hr := htable r hr
    simp only [Bool.and_eq_true, decide_eq_true_eq]
    omega
  have hletter : Text.isLetterOrNumber d = false := by
    rw [Text.inRanges, List.any_append, Bool.or_eq_false_iff] at hlisted
    rw [Text.isLetterOrNumber, Text.isAlphanumeric, Text.isAlphabetic, Text.isNumeric,
      if_neg (by omega), if_neg (by omega), Text.inRanges, Text.inRanges, hlisted.1, hlisted.2]
    rfl
  have hne : ∀ c : Char, c.toNat < 0x80 → (d == c) = false := by
    intro c hc
    rw [beq_eq_false_iff_ne]
    rintro rfl
    omega
  rw [isWordChar, hletter, hne '_' (by decide), hne '$' (by decide)]
  rfl

/-- A character of words for each first byte that one has, those of ASCII apart. -/
def wordLeads : List Nat :=
  [0xAA, 0xC0, 0x100, 0x140, 0x180, 0x1C0, 0x200, 0x240, 0x280, 0x2C0, 0x370, 0x386, 0x3C0, 0x400,
    0x440, 0x480, 0x4C0, 0x500, 0x540, 0x580, 0x5D0, 0x620, 0x640, 0x680, 0x6C0, 0x710, 0x74D,
    0x780, 0x7C0, 0x800, 0x1000, 0x2070, 0x3005, 0x4000, 0x5000, 0x6000, 0x7000, 0x8000, 0x9000,
    0xA000, 0xB000, 0xC000, 0xD000, 0xF900, 0x10000]

theorem exists_isWordChar_of_firstByte {c : Char} (hc : 0x80 ≤ c.toNat)
    (h : firstByte c ∉ wordlessBytes) :
    ∃ d, isWordChar d = true ∧ 0x80 ≤ d.toNat ∧ firstByte d = firstByte c := by
  have hwords : ∀ n ∈ wordLeads, isWordChar (Char.ofNat n) = true ∧ 0x80 ≤ (Char.ofNat n).toNat := by
    decide +kernel
  have hbytes : ∀ b < 0xF5, 0xC2 ≤ b → b ∉ wordlessBytes →
      ∃ n ∈ wordLeads, firstByte (Char.ofNat n) = b := by
    decide +kernel
  obtain ⟨hlow, hhigh⟩ := firstByte_bounds hc
  obtain ⟨n, hn, hbyte⟩ := hbytes _ hhigh hlow h
  obtain ⟨hword, hle⟩ := hwords n hn
  exact ⟨Char.ofNat n, hword, hle, hbyte⟩

/-- A character that is not of words seems to go on with one if it starts like a character that
would. -/
theorem seemsToContinue_iff {c : Char} (hc : isWordChar c = false) :
    seemsToContinue c = true ↔ StartsLikeWord c := by
  by_cases hascii : c.toNat < 0x80
  · have hseems : seemsToContinue c = false := by
      simp [seemsToContinue, Nat.not_le_of_lt hascii]
    refine iff_of_false (by simp [hseems]) ?_
    rintro ⟨d, hd, hlead⟩
    rw [(lead_eq_iff_of_ascii hascii).1 hlead, hc] at hd
    cases hd
  · have hlong : 0x80 ≤ c.toNat := Nat.le_of_not_lt hascii
    have hbyte : seemsToContinue c = true ↔ firstByte c ∉ wordlessBytes := by
      simp [seemsToContinue, wordlessBytes, hlong]
    rw [hbyte]
    constructor
    · intro h
      obtain ⟨d, hd, hle, hfirst⟩ := exists_isWordChar_of_firstByte hlong h
      exact ⟨d, hd, (lead_eq_iff_of_le hlong).2 ⟨hle, hfirst⟩⟩
    · rintro ⟨d, hd, hlead⟩ hmem
      obtain ⟨hle, hfirst⟩ := (lead_eq_iff_of_le hlong).1 hlead
      rw [isWordChar_of_firstByte hle (hfirst ▸ hmem)] at hd
      cases hd

end TsxCompiler.Highlight
