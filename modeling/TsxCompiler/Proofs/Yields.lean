import TsxCompiler.Proofs.Rules

/-!
# What parsers yield

`Yields P p` says that every value a parser reads has the property `P`. A combinator yields what
its parts yield, and a recursive rule what its body yields, given that the rule itself does.
-/

namespace TsxCompiler.Peg.Parser

variable {α β γ : Type} {P : α → Prop} {Q : β → Prop} {R : γ → Prop}

/-- Every value that a parser reads has a property. -/
def Yields (P : α → Prop) (p : Parser α) : Prop :=
  ∀ s a r, run p s = some (a, r) → P a

namespace Yields

theorem trivial (p : Parser α) : Yields (fun _ => True) p :=
  fun _ _ _ _ => True.intro

theorem mono {P' : α → Prop} {p : Parser α} (h : Yields P p) (hP : ∀ a, P a → P' a) :
    Yields P' p :=
  fun s a r hr => hP a (h s a r hr)

theorem and {P' : α → Prop} {p : Parser α} (h : Yields P p) (h' : Yields P' p) :
    Yields (fun a => P a ∧ P' a) p :=
  fun s a r hr => ⟨h s a r hr, h' s a r hr⟩

/-! ## Results -/

theorem succeed {a : α} (h : P a) : Yields P (succeed a) := by
  intro s b r hr
  simp only [run_succeed, Option.some.injEq, Prod.mk.injEq] at hr
  exact hr.1 ▸ h

theorem map {f : α → β} {p : Parser α} (h : Yields P p) (hf : ∀ a, P a → Q (f a)) :
    Yields Q (p.map f) := by
  intro s b r hr
  obtain ⟨a, ha, rfl⟩ := run_map_inv hr
  exact hf a (h s a r ha)

theorem yielding {b : β} (h : Q b) (p : Parser α) : Yields Q (p.yielding b) :=
  (trivial p).map fun _ _ => h

theorem check {accept : α → Except String β} {p : Parser α} (h : Yields P p)
    (hf : ∀ a b, P a → accept a = .ok b → Q b) : Yields Q (p.check accept) := by
  intro s b r hr
  obtain ⟨a, ha, hb⟩ := run_check_inv hr
  exact hf a b (h s a r ha) hb

theorem label {p : Parser α} (h : Yields P p) (text : String) : Yields P (p.label text) := by
  intro s a r hr
  rw [run_label] at hr
  exact h s a r hr

theorem satisfy (test : Char → Bool) : Yields (fun c => test c = true) (satisfy test) := by
  intro s c r hr
  cases s with
  | nil => simp at hr
  | cons x s =>
    rw [run_satisfy_cons] at hr
    split at hr
    · rename_i hx
      simp only [Option.some.injEq, Prod.mk.injEq] at hr
      exact hr.1 ▸ hx
    · simp at hr

/-! ## Sequence and choice -/

theorem both {f : α → β → γ} {p : Parser α} {q : Parser β} (hp : Yields P p) (hq : Yields Q q)
    (hf : ∀ a b, P a → Q b → R (f a b)) : Yields R (both f p q) := by
  intro s c r hr
  obtain ⟨a, b, t, ha, hb, rfl⟩ := run_both_inv hr
  exact hf a b (hp s a t ha) (hq t b r hb)

theorem seq {p : Parser α} {q : Parser β} (hp : Yields P p) (hq : Yields Q q) :
    Yields (fun x => P x.1 ∧ Q x.2) (p.seq q) :=
  hp.both hq fun _ _ ha hb => ⟨ha, hb⟩

theorem thenSkip {p : Parser α} (hp : Yields P p) (q : Parser β) : Yields P (p.thenSkip q) :=
  hp.both (trivial q) fun _ _ ha _ => ha

theorem skipThen (p : Parser α) {q : Parser β} (hq : Yields Q q) : Yields Q (p.skipThen q) :=
  (trivial p).both hq fun _ _ _ hb => hb

theorem between (opening : Parser β) (closing : Parser γ) {p : Parser α} (hp : Yields P p) :
    Yields P (between opening closing p) :=
  (hp.skipThen opening).thenSkip closing

theorem orElse {p q : Parser α} (hp : Yields P p) (hq : Yields P q) : Yields P (p.orElse q) := by
  intro s a r hr
  rcases run_orElse_inv hr with h | ⟨-, h⟩
  · exact hp s a r h
  · exact hq s a r h

/-- A choice, one alternative at a time. -/
theorem choice {p q : Parser α} {more : List (Parser α)} (hp : Yields P p)
    (hq : Yields P (choice q more)) : Yields P (choice p (q :: more)) := by
  intro s a r hr
  rcases run_choice_cons_inv hr with h | ⟨-, h⟩
  · exact hp s a r h
  · exact hq s a r h

theorem optional {p : Parser α} (hp : Yields P p) :
    Yields (fun o => ∀ a ∈ o, P a) p.optional := by
  intro s o r hr a ha
  rcases run_optional_inv hr with ⟨b, rfl, hb⟩ | ⟨rfl, -⟩
  · cases ha
    exact hp s _ r hb
  · cases ha

/-! ## Repetition and recursion -/

theorem many {p : Parser α} (hp : Yields P p) : Yields (fun as => ∀ a ∈ as, P a) (many p) := by
  intro s
  induction hn : s.length using Nat.strongRecOn generalizing s with
  | _ n ih =>
    intro as r hr
    rw [run_many] at hr
    split at hr
    · simp only [Option.some.injEq, Prod.mk.injEq] at hr
      simp [← hr.1]
    · rename_i a t ht
      have ha := hp s a t ht
      split at hr
      · obtain ⟨⟨bs, u⟩, hu, hb⟩ := Option.map_eq_some_iff.1 hr
        cases hb
        have hbs := ih t.length (by omega) t rfl bs _ hu
        simpa using ⟨ha, hbs⟩
      · simp only [Option.some.injEq, Prod.mk.injEq] at hr
        simpa [← hr.1] using ha

theorem forall_runFollowers (sep : Parser β) {p : Parser α} (hp : Yields P p) (s : List Char) :
    ∀ a ∈ (runFollowers sep p s).1, P a := by
  induction hn : s.length using Nat.strongRecOn generalizing s with
  | _ n ih =>
    rw [runFollowers_eq]
    split
    · simp
    · rename_i a r hr
      have ha : P a := hp.skipThen sep s a r hr
      split
      · simpa using ⟨ha, ih r.length (by omega) r rfl⟩
      · simpa using ha

theorem sepBy1 (sep : Parser β) {p : Parser α} (hp : Yields P p) :
    Yields (fun as => as ≠ [] ∧ ∀ a ∈ as, P a) (sepBy1 sep p) := by
  intro s as r hr
  rw [run_sepBy1] at hr
  obtain ⟨⟨a, t⟩, ha, hb⟩ := Option.map_eq_some_iff.1 hr
  cases hb
  simpa using ⟨hp s a t ha, hp.forall_runFollowers sep t⟩

theorem sepByTrailing (sep : Parser β) {p : Parser α} (hp : Yields P p) :
    Yields (fun as => ∀ a ∈ as, P a) (sepByTrailing sep p) := by
  intro s as r hr
  rw [run_sepByTrailing] at hr
  split at hr
  · simp only [Option.some.injEq, Prod.mk.injEq] at hr
    simp [← hr.1]
  · rename_i a t ht
    simp only [Option.some.injEq, Prod.mk.injEq] at hr
    rw [← hr.1]
    simpa using ⟨hp s a t ht, hp.forall_runFollowers sep t⟩

theorem fix {body : Parser α → Parser α} (h : ∀ X, Yields P X → Yields P (body X)) :
    Yields P (fix body) := by
  intro s
  induction hn : s.length using Nat.strongRecOn generalizing s with
  | _ n ih =>
    intro a r hr
    have hbelow : Yields P (below s.length (Parser.fix body)) := by
      intro t b u ht
      rw [run_below] at ht
      split at ht
      · exact ih t.length (by omega) t rfl b u ht
      · simp at ht
    rw [run_fix] at hr
    exact h _ hbelow s a r hr

end Yields

end TsxCompiler.Peg.Parser
