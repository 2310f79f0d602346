import TsxCompiler.Proofs.Reading

/-!
# Progress and recursion

A recursive rule sees itself only on shorter texts. For every rule of the grammar that makes no
difference, because a rule reads at least one character before it comes back to itself. The three
notions that make this precise are closed under the combinators:

* `Shrinks` — what is left is an end of the text;
* `Consumes` — and a proper one;
* `AgreeBelow` — two parsers read the same from all texts shorter than a bound.

A body whose answers on texts of one length depend only on shorter texts has its recursive rule as
a fixed point (`run_fix_eq`).
-/

namespace TsxCompiler.Peg.Parser

variable {α β γ : Type}

/-- What a parser leaves is an end of the text. -/
class Shrinks (p : Parser α) : Prop where
  suffix : ∀ s a r, run p s = some (a, r) → r <:+ s

/-- What a parser leaves is a proper end of the text. -/
class Consumes (p : Parser α) : Prop extends Shrinks p where
  lt : ∀ s a r, run p s = some (a, r) → r.length < s.length

/-- Two parsers read the same from texts shorter than `n`. -/
class AgreeBelow (n : Nat) (p q : Parser α) : Prop where
  eq : ∀ s : List Char, s.length < n → run p s = run q s

theorem length_le_of_run {p : Parser α} [Shrinks p] {s r : List Char} {a : α}
    (h : run p s = some (a, r)) : r.length ≤ s.length :=
  (Shrinks.suffix s a r h).length_le

theorem length_lt_of_run {p : Parser α} [Consumes p] {s r : List Char} {a : α}
    (h : run p s = some (a, r)) : r.length < s.length :=
  Consumes.lt s a r h

/-- Repetition of a rule that makes progress, one step. -/
theorem run_many_step {p : Parser α} [Consumes p] {s r : List Char} {a : α}
    (h : run p s = some (a, r)) :
    run (many p) s = (run (many p) r).map fun x => (a :: x.1, x.2) :=
  run_many_some h (length_lt_of_run h)

/-! ## Primitive parsers and results -/

instance (a : α) : Shrinks (succeed a) where
  suffix s b r h := by simp_all

instance : Shrinks atEnd where
  suffix s b r h := by
    obtain ⟨rfl, rfl⟩ := run_atEnd_inv h
    exact List.suffix_rfl

instance (test : Char → Bool) : Consumes (satisfy test) where
  suffix s a r h := by
    cases s with
    | nil => simp at h
    | cons c s =>
      rw [run_satisfy_cons] at h
      split at h <;> simp at h
      exact h.2 ▸ List.suffix_cons c s
  lt s a r h := by
    cases s with
    | nil => simp at h
    | cons c s =>
      rw [run_satisfy_cons] at h
      split at h <;> simp at h
      simp [h.2]

instance (wanted : Char) : Consumes (char wanted) where
  suffix s a r h := by
    cases s with
    | nil => simp at h
    | cons c s =>
      rw [run_char_cons] at h
      split at h <;> simp at h
      exact h.2 ▸ List.suffix_cons c s
  lt s a r h := by
    cases s with
    | nil => simp at h
    | cons c s =>
      rw [run_char_cons] at h
      split at h <;> simp at h
      simp [h.2]

instance (text : String) : Shrinks (literal text) where
  suffix _ _ _ h := ⟨text.toList, (run_chars_inv h).symm⟩

theorem consumes_literal {text : String} (ht : text.toList ≠ []) : Consumes (literal text) where
  lt s a r h := by
    have := List.length_pos_iff.2 ht
    rw [run_chars_inv h, List.length_append]
    omega

theorem run_map_inv {f : α → β} {p : Parser α} {s r : List Char} {b : β}
    (h : run (p.map f) s = some (b, r)) : ∃ a, run p s = some (a, r) ∧ f a = b := by
  rw [run_map] at h
  obtain ⟨⟨a, t⟩, ha, hb⟩ := Option.map_eq_some_iff.1 h
  simp only [Prod.mk.injEq] at hb
  obtain ⟨rfl, rfl⟩ := hb
  exact ⟨a, ha, rfl⟩

instance (f : α → β) (p : Parser α) [Shrinks p] : Shrinks (p.map f) where
  suffix s b r h := by
    obtain ⟨a, ha, -⟩ := run_map_inv h
    exact Shrinks.suffix s a r ha

instance (f : α → β) (p : Parser α) [Consumes p] : Consumes (p.map f) where
  lt s b r h := by
    obtain ⟨a, ha, -⟩ := run_map_inv h
    exact length_lt_of_run ha

instance (b : β) (p : Parser α) [Shrinks p] : Shrinks (p.yielding b) :=
  inferInstanceAs (Shrinks (p.map _))

instance (b : β) (p : Parser α) [Consumes p] : Consumes (p.yielding b) :=
  inferInstanceAs (Consumes (p.map _))

theorem run_check_inv {accept : α → Except String β} {p : Parser α} {s r : List Char} {b : β}
    (h : run (p.check accept) s = some (b, r)) : ∃ a, run p s = some (a, r) ∧ accept a = .ok b := by
  rw [run_check] at h
  obtain ⟨⟨a, t⟩, ha, hb⟩ := Option.bind_eq_some_iff.1 h
  cases hacc : accept a with
  | error e => simp [hacc, Except.toOption] at hb
  | ok b' =>
    simp only [hacc, Except.toOption, Option.map_some, Option.some.injEq, Prod.mk.injEq] at hb
    obtain ⟨rfl, rfl⟩ := hb
    exact ⟨a, ha, hacc⟩

instance (accept : α → Except String β) (p : Parser α) [Shrinks p] : Shrinks (p.check accept) where
  suffix s b r h := by
    obtain ⟨a, ha, -⟩ := run_check_inv h
    exact Shrinks.suffix s a r ha

instance (accept : α → Except String β) (p : Parser α) [Consumes p] :
    Consumes (p.check accept) where
  lt s b r h := by
    obtain ⟨a, ha, -⟩ := run_check_inv h
    exact length_lt_of_run ha

instance (text : String) (p : Parser α) [Shrinks p] : Shrinks (p.label text) where
  suffix s a r h := Shrinks.suffix s a r (run_label text p s ▸ h)

instance (text : String) (p : Parser α) [Consumes p] : Consumes (p.label text) where
  lt s a r h := Consumes.lt s a r (run_label text p s ▸ h)

instance (p : Parser α) : Shrinks p.peek where
  suffix s a r h := by
    rw [run_peek] at h
    obtain ⟨⟨b, t⟩, -, hb⟩ := Option.map_eq_some_iff.1 h
    cases hb
    exact List.suffix_rfl

/-! ## Sequence and choice -/

/-- Both parts of a sequence, from what the sequence read. -/
theorem run_both_inv {f : α → β → γ} {p : Parser α} {q : Parser β} {s r : List Char} {c : γ}
    (h : run (both f p q) s = some (c, r)) :
    ∃ a b t, run p s = some (a, t) ∧ run q t = some (b, r) ∧ f a b = c := by
  rw [run_both] at h
  obtain ⟨⟨a, t⟩, ha, hb⟩ := Option.bind_eq_some_iff.1 h
  obtain ⟨⟨b, u⟩, hq, hc⟩ := Option.map_eq_some_iff.1 hb
  cases hc
  exact ⟨a, b, t, ha, hq, rfl⟩

theorem run_thenSkip_inv {p : Parser α} {q : Parser β} {s r : List Char} {a : α}
    (h : run (p.thenSkip q) s = some (a, r)) :
    ∃ b t, run p s = some (a, t) ∧ run q t = some (b, r) := by
  obtain ⟨a', b, t, ha, hb, rfl⟩ := run_both_inv h
  exact ⟨b, t, ha, hb⟩

theorem run_skipThen_inv {p : Parser α} {q : Parser β} {s r : List Char} {b : β}
    (h : run (p.skipThen q) s = some (b, r)) :
    ∃ a t, run p s = some (a, t) ∧ run q t = some (b, r) := by
  obtain ⟨a, b', t, ha, hb, rfl⟩ := run_both_inv h
  exact ⟨a, t, ha, hb⟩

instance (f : α → β → γ) (p : Parser α) (q : Parser β) [Shrinks p] [Shrinks q] :
    Shrinks (both f p q) where
  suffix s c r h := by
    obtain ⟨a, b, t, ha, hb, -⟩ := run_both_inv h
    exact (Shrinks.suffix t b r hb).trans (Shrinks.suffix s a t ha)

/-- A sequence makes progress when its first part does … -/
instance consumes_both_left (f : α → β → γ) (p : Parser α) (q : Parser β) [Consumes p]
    [Shrinks q] : Consumes (both f p q) where
  lt s c r h := by
    obtain ⟨a, b, t, ha, hb, -⟩ := run_both_inv h
    exact Nat.lt_of_le_of_lt (length_le_of_run hb) (length_lt_of_run ha)

/-- … or its second part. -/
instance consumes_both_right (f : α → β → γ) (p : Parser α) (q : Parser β) [Shrinks p]
    [Consumes q] : Consumes (both f p q) where
  lt s c r h := by
    obtain ⟨a, b, t, ha, hb, -⟩ := run_both_inv h
    exact Nat.lt_of_lt_of_le (length_lt_of_run hb) (length_le_of_run ha)

instance (p : Parser α) (q : Parser β) [Shrinks p] [Shrinks q] : Shrinks (p.seq q) :=
  inferInstanceAs (Shrinks (both _ p q))

instance (p : Parser α) (q : Parser β) [Shrinks p] [Shrinks q] : Shrinks (p.thenSkip q) :=
  inferInstanceAs (Shrinks (both _ p q))

instance (p : Parser α) (q : Parser β) [Shrinks p] [Shrinks q] : Shrinks (p.skipThen q) :=
  inferInstanceAs (Shrinks (both _ p q))

instance consumes_seq (p : Parser α) (q : Parser β) [Consumes (both Prod.mk p q)] :
    Consumes (p.seq q) :=
  inferInstanceAs (Consumes (both _ p q))

instance consumes_thenSkip (p : Parser α) (q : Parser β) [Consumes (both (fun a _ => a) p q)] :
    Consumes (p.thenSkip q) :=
  inferInstanceAs (Consumes (both _ p q))

instance consumes_skipThen (p : Parser α) (q : Parser β) [Consumes (both (fun _ b => b) p q)] :
    Consumes (p.skipThen q) :=
  inferInstanceAs (Consumes (both _ p q))

theorem run_orElse_inv {p q : Parser α} {s r : List Char} {a : α}
    (h : run (p.orElse q) s = some (a, r)) :
    run p s = some (a, r) ∨ run p s = none ∧ run q s = some (a, r) := by
  rw [run_orElse] at h
  cases hp : run p s with
  | none => exact .inr ⟨rfl, by simpa [hp] using h⟩
  | some x => exact .inl (by simpa [hp] using h)

instance (p q : Parser α) [Shrinks p] [Shrinks q] : Shrinks (p.orElse q) where
  suffix s a r h := by
    rcases run_orElse_inv h with h | ⟨-, h⟩ <;> exact Shrinks.suffix s a r h

instance (p q : Parser α) [Consumes p] [Consumes q] : Consumes (p.orElse q) where
  lt s a r h := by
    rcases run_orElse_inv h with h | ⟨-, h⟩ <;> exact length_lt_of_run h

theorem run_choice_cons_inv {p q : Parser α} {more : List (Parser α)} {s r : List Char} {a : α}
    (h : run (choice p (q :: more)) s = some (a, r)) :
    run p s = some (a, r) ∨ run p s = none ∧ run (choice q more) s = some (a, r) := by
  rw [run_choice_cons] at h
  cases hp : run p s with
  | none => exact .inr ⟨rfl, by simpa [hp] using h⟩
  | some x => exact .inl (by simpa [hp] using h)

instance (p : Parser α) [h : Shrinks p] : Shrinks (choice p []) := h

instance (p q : Parser α) (more : List (Parser α)) [Shrinks p] [Shrinks (choice q more)] :
    Shrinks (choice p (q :: more)) where
  suffix s a r h := by
    rcases run_choice_cons_inv h with h | ⟨-, h⟩ <;> exact Shrinks.suffix s a r h

instance (p : Parser α) [h : Consumes p] : Consumes (choice p []) := h

instance (p q : Parser α) (more : List (Parser α)) [Consumes p] [Consumes (choice q more)] :
    Consumes (choice p (q :: more)) where
  lt s a r h := by
    rcases run_choice_cons_inv h with h | ⟨-, h⟩ <;> exact length_lt_of_run h

theorem run_optional_inv {p : Parser α} {s r : List Char} {o : Option α}
    (h : run p.optional s = some (o, r)) :
    (∃ a, o = some a ∧ run p s = some (a, r)) ∨ o = none ∧ run p s = none ∧ r = s := by
  rw [run_optional] at h
  cases hp : run p s with
  | none =>
    simp only [hp, Option.map_none, Option.getD_none, Option.some.injEq, Prod.mk.injEq] at h
    exact .inr ⟨h.1.symm, rfl, h.2.symm⟩
  | some x =>
    simp only [hp, Option.map_some, Option.getD_some, Option.some.injEq, Prod.mk.injEq] at h
    obtain ⟨rfl, rfl⟩ := h
    exact .inl ⟨x.1, rfl, rfl⟩

instance (p : Parser α) [Shrinks p] : Shrinks p.optional where
  suffix s o r h := by
    rcases run_optional_inv h with ⟨a, -, h⟩ | ⟨-, -, rfl⟩
    · exact Shrinks.suffix s a r h
    · exact List.suffix_rfl

/-! ## Repetition -/

/-- What holds of a row: it holds of the end of the row, and one more value keeps it. -/
theorem run_many_induct {p : Parser α} [Consumes p]
    {motive : List α → List Char → List Char → Prop} (nil : ∀ s, run p s = none → motive [] s s)
    (cons : ∀ s t r a as, run p s = some (a, t) → run (many p) t = some (as, r) →
      motive as t r → motive (a :: as) s r)
    {s r : List Char} {as : List α} (h : run (many p) s = some (as, r)) : motive as s r := by
  induction hn : s.length using Nat.strongRecOn generalizing s as with
  | _ n ih =>
    cases hp : run p s with
    | none =>
      rw [run_many_none hp] at h
      cases h
      exact nil _ hp
    | some x =>
      have hlt := length_lt_of_run hp
      rw [run_many_step hp] at h
      obtain ⟨⟨bs, u⟩, hu, hb⟩ := Option.map_eq_some_iff.1 h
      cases hb
      exact cons s x.2 _ x.1 bs hp hu (ih x.2.length (by omega) hu rfl)

instance (p : Parser α) [Shrinks p] : Shrinks (many p) where
  suffix s := by
    induction hn : s.length using Nat.strongRecOn generalizing s with
    | _ n ih =>
      intro as r h
      rw [run_many] at h
      split at h
      · simp only [Option.some.injEq, Prod.mk.injEq] at h
        exact h.2 ▸ List.suffix_rfl
      · rename_i a t ht
        have hts := Shrinks.suffix s a t ht
        split at h
        · rename_i hlt
          obtain ⟨⟨bs, u⟩, hu, hb⟩ := Option.map_eq_some_iff.1 h
          cases hb
          exact (ih t.length (by omega) t rfl _ _ hu).trans hts
        · simp only [Option.some.injEq, Prod.mk.injEq] at h
          exact h.2 ▸ hts

instance (p : Parser α) [Shrinks p] : Shrinks (many1 p) where
  suffix s as r h := by
    rw [run_many1] at h
    obtain ⟨x, -, hx⟩ := Option.bind_eq_some_iff.1 h
    exact Shrinks.suffix s as r hx

instance (p : Parser α) [Consumes p] : Consumes (many1 p) where
  lt s as r h := by
    rw [run_many1] at h
    obtain ⟨⟨a, t⟩, ha, hx⟩ := Option.bind_eq_some_iff.1 h
    rw [run_many_step ha] at hx
    obtain ⟨⟨bs, u⟩, hu, hb⟩ := Option.map_eq_some_iff.1 hx
    cases hb
    exact Nat.lt_of_le_of_lt (length_le_of_run hu) (length_lt_of_run ha)

instance (p : Parser α) [Shrinks p] : Shrinks (skipUntil p) where
  suffix s := by
    induction s with
    | nil =>
      intro u r h
      rw [run_skipUntil_nil] at h
      obtain ⟨x, hx, hr⟩ := Option.map_eq_some_iff.1 h
      cases hr
      exact Shrinks.suffix [] x.1 x.2 hx
    | cons c s ih =>
      intro u r h
      rw [run_skipUntil_cons] at h
      rcases Option.or_eq_some_iff.1 h with hhere | ⟨-, hlater⟩
      · obtain ⟨x, hx, hr⟩ := Option.map_eq_some_iff.1 hhere
        cases hr
        exact Shrinks.suffix (c :: s) x.1 x.2 hx
      · exact (ih u r hlater).trans (List.suffix_cons c s)

theorem runFollowers_suffix (sep : Parser β) (p : Parser α) [Shrinks sep] [Shrinks p]
    (s : List Char) : (runFollowers sep p s).2 <:+ s := by
  induction hn : s.length using Nat.strongRecOn generalizing s with
  | _ n ih =>
    rw [runFollowers_eq]
    split
    · exact List.suffix_rfl
    · rename_i a r hr
      have hs : r <:+ s := Shrinks.suffix s a r hr
      split
      · exact (ih r.length (by omega) r rfl).trans hs
      · exact hs

instance (sep : Parser β) (p : Parser α) [Shrinks sep] [Shrinks p] : Shrinks (sepBy1 sep p) where
  suffix s as r h := by
    rw [run_sepBy1] at h
    obtain ⟨⟨a, t⟩, ha, hb⟩ := Option.map_eq_some_iff.1 h
    cases hb
    exact (runFollowers_suffix sep p t).trans (Shrinks.suffix s a t ha)

instance (sep : Parser β) (p : Parser α) [Shrinks sep] [Consumes p] :
    Consumes (sepBy1 sep p) where
  lt s as r h := by
    rw [run_sepBy1] at h
    obtain ⟨⟨a, t⟩, ha, hb⟩ := Option.map_eq_some_iff.1 h
    cases hb
    exact Nat.lt_of_le_of_lt (runFollowers_suffix sep p t).length_le (length_lt_of_run ha)

instance (sep : Parser β) (p : Parser α) [Shrinks sep] [Shrinks p] :
    Shrinks (sepByTrailing sep p) where
  suffix s as r h := by
    rw [run_sepByTrailing] at h
    split at h
    · simp only [Option.some.injEq, Prod.mk.injEq] at h
      exact h.2 ▸ List.suffix_rfl
    · rename_i a t ht
      simp only [Option.some.injEq, Prod.mk.injEq] at h
      have hf := (runFollowers_suffix sep p t).trans (Shrinks.suffix s a t ht)
      rw [← h.2]
      cases hs : run sep (runFollowers sep p t).2 with
      | none => simpa using hf
      | some x => simpa using (Shrinks.suffix _ x.1 x.2 hs).trans hf

/-! ## Agreement on shorter texts -/

section Agreement

variable {n : Nat}

instance (p : Parser α) : AgreeBelow n p p := ⟨fun _ _ => rfl⟩

theorem AgreeBelow.mono {m : Nat} {p q : Parser α} (h : AgreeBelow n p q) (hm : m ≤ n) :
    AgreeBelow m p q :=
  ⟨fun s hs => h.eq s (by omega)⟩

instance (f : α → β) (p q : Parser α) [h : AgreeBelow n p q] :
    AgreeBelow n (p.map f) (q.map f) where
  eq s hs := by rw [run_map, run_map, h.eq s hs]

instance (b : β) (p q : Parser α) [AgreeBelow n p q] :
    AgreeBelow n (p.yielding b) (q.yielding b) :=
  inferInstanceAs (AgreeBelow n (p.map _) (q.map _))

instance (accept : α → Except String β) (p q : Parser α) [h : AgreeBelow n p q] :
    AgreeBelow n (p.check accept) (q.check accept) where
  eq s hs := by rw [run_check, run_check, h.eq s hs]

instance (text : String) (p q : Parser α) [h : AgreeBelow n p q] :
    AgreeBelow n (p.label text) (q.label text) where
  eq s hs := by rw [run_label, run_label, h.eq s hs]

instance (p q : Parser α) [h : AgreeBelow n p q] : AgreeBelow n p.optional q.optional where
  eq s hs := by rw [run_optional, run_optional, h.eq s hs]

instance (p p' q q' : Parser α) [hp : AgreeBelow n p p'] [hq : AgreeBelow n q q'] :
    AgreeBelow n (p.orElse q) (p'.orElse q') where
  eq s hs := by rw [run_orElse, run_orElse, hp.eq s hs, hq.eq s hs]

instance (p p' : Parser α) [hp : AgreeBelow n p p'] :
    AgreeBelow n (choice p []) (choice p' []) := hp

instance (p p' q q' : Parser α) (more more' : List (Parser α)) [hp : AgreeBelow n p p']
    [hq : AgreeBelow n (choice q more) (choice q' more')] :
    AgreeBelow n (choice p (q :: more)) (choice p' (q' :: more')) where
  eq s hs := by rw [run_choice_cons, run_choice_cons, hp.eq s hs, hq.eq s hs]

/-- Behind a part that makes progress, agreement on shorter texts is enough. -/
instance (priority := low) agreeBelow_both_consumes (f : α → β → γ) (p p' : Parser α)
    (q q' : Parser β) [Consumes p] [hp : AgreeBelow (n + 1) p p'] [hq : AgreeBelow n q q'] :
    AgreeBelow (n + 1) (both f p q) (both f p' q') where
  eq s hlt := by
    rw [run_both, run_both, ← hp.eq s hlt]
    cases h : run p s with
    | none => rfl
    | some x =>
      have := length_lt_of_run h
      simp only [Option.bind_some]
      rw [hq.eq x.2 (by omega)]

instance agreeBelow_both (f : α → β → γ) (p p' : Parser α) (q q' : Parser β) [Shrinks p]
    [hp : AgreeBelow n p p'] [hq : AgreeBelow n q q'] :
    AgreeBelow n (both f p q) (both f p' q') where
  eq s hlt := by
    rw [run_both, run_both, ← hp.eq s hlt]
    cases h : run p s with
    | none => rfl
    | some x =>
      have := length_le_of_run h
      simp only [Option.bind_some]
      rw [hq.eq x.2 (by omega)]

instance (p p' : Parser α) (q q' : Parser β)
    [AgreeBelow n (both Prod.mk p q) (both Prod.mk p' q')] :
    AgreeBelow n (p.seq q) (p'.seq q') :=
  inferInstanceAs (AgreeBelow n (both _ p q) (both _ p' q'))

instance (p p' : Parser α) (q q' : Parser β)
    [AgreeBelow n (both (fun a _ => a) p q) (both (fun a _ => a) p' q')] :
    AgreeBelow n (p.thenSkip q) (p'.thenSkip q') :=
  inferInstanceAs (AgreeBelow n (both _ p q) (both _ p' q'))

instance (p p' : Parser α) (q q' : Parser β)
    [AgreeBelow n (both (fun _ b => b) p q) (both (fun _ b => b) p' q')] :
    AgreeBelow n (p.skipThen q) (p'.skipThen q') :=
  inferInstanceAs (AgreeBelow n (both _ p q) (both _ p' q'))

instance (p p' : Parser α) [Shrinks p] [hp : AgreeBelow n p p'] :
    AgreeBelow n (many p) (many p') where
  eq s := by
    induction hl : s.length using Nat.strongRecOn generalizing s with
    | _ l ih =>
      intro hlt
      rw [run_many, run_many, ← hp.eq s (by omega)]
      cases h : run p s with
      | none => rfl
      | some x =>
        have := length_le_of_run h
        dsimp only
        split
        · rw [ih x.2.length (by omega) x.2 rfl (by omega)]
        · rfl

theorem runFollowers_congr (sep : Parser β) (p p' : Parser α) [Shrinks sep] [Shrinks p]
    [AgreeBelow n p p'] (s : List Char) (hlt : s.length < n) :
    runFollowers sep p s = runFollowers sep p' s := by
  have hboth : AgreeBelow n (sep.skipThen p) (sep.skipThen p') := inferInstance
  induction hl : s.length using Nat.strongRecOn generalizing s with
  | _ l ih =>
    rw [runFollowers_eq, runFollowers_eq, ← hboth.eq s hlt]
    cases h : run (sep.skipThen p) s with
    | none => rfl
    | some x =>
      have := length_le_of_run h
      dsimp only
      split
      · rw [ih x.2.length (by omega) x.2 (by omega) rfl]
      · rfl

instance (sep : Parser β) (p p' : Parser α) [Shrinks sep] [Shrinks p] [hp : AgreeBelow n p p'] :
    AgreeBelow n (sepBy1 sep p) (sepBy1 sep p') where
  eq s hlt := by
    rw [run_sepBy1, run_sepBy1, ← hp.eq s hlt]
    cases h : run p s with
    | none => rfl
    | some x =>
      have := length_le_of_run h
      simp only [Option.map_some, runFollowers_congr sep p p' x.2 (show x.2.length < n by omega)]

instance (sep : Parser β) (p p' : Parser α) [Shrinks sep] [Shrinks p] [hp : AgreeBelow n p p'] :
    AgreeBelow n (sepByTrailing sep p) (sepByTrailing sep p') where
  eq s hlt := by
    rw [run_sepByTrailing, run_sepByTrailing, ← hp.eq s hlt]
    cases h : run p s with
    | none => rfl
    | some x =>
      have := length_le_of_run h
      dsimp only
      rw [← runFollowers_congr sep p p' x.2 (show x.2.length < n by omega)]

end Agreement

/-! ## Recursive rules -/

instance (n : Nat) (p : Parser α) [Shrinks p] : Shrinks (below n p) where
  suffix s a r h := by
    rw [run_below] at h
    split at h
    · exact Shrinks.suffix s a r h
    · simp at h

/-- A recursive rule inherits what its body keeps. -/
theorem shrinks_fix {body : Parser α → Parser α} (hs : ∀ X, Shrinks X → Shrinks (body X)) :
    Shrinks (fix body) := by
  have hbelow : ∀ n, Shrinks (below n (fix body)) := by
    intro n
    induction n using Nat.strongRecOn with
    | _ n ih =>
      refine ⟨fun s a r h => ?_⟩
      rw [run_below] at h
      split at h
      · rename_i hlt
        rw [run_fix] at h
        exact (hs _ (ih s.length hlt)).suffix s a r h
      · simp at h
  refine ⟨fun s a r h => ?_⟩
  rw [run_fix] at h
  exact (hs _ (hbelow s.length)).suffix s a r h

theorem consumes_fix {body : Parser α → Parser α} (hc : ∀ X, Shrinks X → Consumes (body X)) :
    Consumes (fix body) := by
  have hf := shrinks_fix fun X hX => (hc X hX).toShrinks
  refine ⟨fun s a r h => ?_⟩
  rw [run_fix] at h
  exact (hc _ inferInstance).lt s a r h

/-- Two recursive rules agree when their bodies do, given agreement of the rules on shorter texts. -/
theorem agreeBelow_fix {body body' : Parser α → Parser α} {n : Nat}
    (hs : ∀ X, Shrinks X → Shrinks (body X)) (hs' : ∀ X, Shrinks X → Shrinks (body' X))
    (h : ∀ X Y m, m < n → Shrinks X → Shrinks Y → AgreeBelow m X Y →
      AgreeBelow (m + 1) (body X) (body' Y)) :
    AgreeBelow n (fix body) (fix body') := by
  have hf := shrinks_fix hs
  have hf' := shrinks_fix hs'
  induction n with
  | zero => exact ⟨fun s hlt => by omega⟩
  | succ n ih =>
    have hn := ih fun X Y m hm => h X Y m (by omega)
    refine ⟨fun s hlt => ?_⟩
    rw [run_fix, run_fix]
    have hbelow : AgreeBelow s.length (below s.length (fix body)) (below s.length (fix body')) :=
      ⟨fun t ht => by rw [run_below, run_below, if_pos ht, if_pos ht, hn.eq t (by omega)]⟩
    exact (h _ _ s.length hlt inferInstance inferInstance hbelow).eq s (by omega)

/-- A recursive rule is a fixed point of its body, when the body comes back to the rule only after
it has read something. -/
theorem run_fix_eq {body : Parser α → Parser α} (hs : ∀ X, Shrinks X → Shrinks (body X))
    (h : ∀ X Y m, Shrinks X → Shrinks Y → AgreeBelow m X Y →
      AgreeBelow (m + 1) (body X) (body Y)) (s : List Char) :
    run (fix body) s = run (body (fix body)) s := by
  have hf := shrinks_fix hs
  have hbelow : AgreeBelow s.length (below s.length (fix body)) (fix body) :=
    ⟨fun t ht => by rw [run_below, if_pos ht]⟩
  rw [run_fix]
  exact (h _ _ s.length inferInstance hf hbelow).eq s (by omega)

end TsxCompiler.Peg.Parser
