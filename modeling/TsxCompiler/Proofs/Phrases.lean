import Mathlib.Logic.Relation
import TsxCompiler.Proofs.Progress

/-!
# Grammars as they are written

The recursive rules and the repetitions of the grammar carry a bound: they go on only from a
shorter text. Whether a bound is ever met depends on how a grammar is written and cannot be seen
from what its parsers answer. A `Phrase` is the text of a rule, with the rules it refers to as
names, and `Reads` is reading by that text without any bound: a repetition goes on behind every
value, wherever that has left it, and a name stands for the text of its rule. A reading is a finite
tree of such steps, so there is none for a rule that comes back to itself where it started or for a
repetition that turns on the spot.

* `Phrase.progresses`, `Phrase.first`, `Phrase.loopsProgress` — what can be checked of a text:
  that it reads at least one character, which rules it may call before it has read one, and that
  each of its repetitions repeats something that reads one;
* `Terminating` — a grammar that passes the checks;
* `Terminating.length_lt_of_chain` — no chain of calls comes back to a rule at the same place;
* `Terminating.reads` — every reading ends, with what the bounded parsers answer.
-/

namespace TsxCompiler.Peg

open TsxCompiler.Peg.Parser

/-! ## Turns of a repetition -/

namespace Parser

variable {α β : Type}

/-- A parser may leave the text `t` of the text `s`. -/
def Leaves (p : Parser α) (s t : List Char) : Prop := ∃ a, run p s = some (a, t)

theorem suffix_of_leaves {p : Parser α} [Shrinks p] {s t : List Char} (h : Leaves p s t) :
    t <:+ s := by
  obtain ⟨a, ha⟩ := h
  exact Shrinks.suffix s a t ha

theorem suffix_of_turns {p : Parser α} [Shrinks p] {s t : List Char}
    (h : Relation.ReflTransGen (Leaves p) s t) : t <:+ s := by
  induction h with
  | refl => exact List.suffix_rfl
  | tail _ hstep ih => exact (suffix_of_leaves hstep).trans ih

/-- What follows in a list is the separator with a value behind it, as often as there is one. -/
theorem run_many_skipThen (sep : Parser β) (p : Parser α) (s : List Char) :
    run (many (sep.skipThen p)) s = some (runFollowers sep p s) := by
  induction hl : s.length using Nat.strongRecOn generalizing s with
  | _ l ih =>
    rw [run_many, runFollowers_eq]
    cases run (sep.skipThen p) s with
    | none => rfl
    | some x =>
      dsimp only
      split
      · rw [ih x.2.length (by omega) x.2 rfl]
        rfl
      · rfl

/-- A list stops where turns have led it. -/
theorem turns_runFollowers (sep : Parser β) (p : Parser α) (s : List Char) :
    Relation.ReflTransGen (Leaves (sep.skipThen p)) s (runFollowers sep p s).2 := by
  induction hl : s.length using Nat.strongRecOn generalizing s with
  | _ l ih =>
    rw [runFollowers_eq]
    cases h : run (sep.skipThen p) s with
    | none => exact .refl
    | some x =>
      have hstep : Leaves (sep.skipThen p) s x.2 := ⟨x.1, h⟩
      dsimp only
      split
      · exact .head hstep (ih x.2.length (by omega) x.2 rfl)
      · exact .single hstep

end Parser

/-! ## Phrases -/

/-- The text of a rule of a grammar whose rules `r` have values of the type `value r`. -/
inductive Phrase {R : Type} (value : R → Type) : Type → Type 1 where
  | rule (r : R) : Phrase value (value r)
  | succeed {α : Type} (a : α) : Phrase value α
  | satisfy (test : Char → Bool) : Phrase value Char
  | char (wanted : Char) : Phrase value Char
  | literal (text : String) : Phrase value Unit
  | atEnd : Phrase value Unit
  | map {α β : Type} (f : α → β) (p : Phrase value α) : Phrase value β
  | check {α β : Type} (accept : α → Except String β) (p : Phrase value α) : Phrase value β
  | label {α : Type} (text : String) (p : Phrase value α) : Phrase value α
  | peek {α : Type} (p : Phrase value α) : Phrase value α
  | both {α β γ : Type} (f : α → β → γ) (p : Phrase value α) (q : Phrase value β) : Phrase value γ
  | orElse {α : Type} (p q : Phrase value α) : Phrase value α
  /-- The first of several alternatives, and the others as one phrase. -/
  | choice {α : Type} (p q : Phrase value α) : Phrase value α
  | optional {α : Type} (p : Phrase value α) : Phrase value (Option α)
  | many {α : Type} (p : Phrase value α) : Phrase value (List α)
  | many1 {α : Type} (p : Phrase value α) : Phrase value (List α)
  | skipUntil {α : Type} (p : Phrase value α) : Phrase value Unit
  | sepBy1 {α β : Type} (sep : Phrase value β) (p : Phrase value α) : Phrase value (List α)
  | sepByTrailing {α β : Type} (sep : Phrase value β) (p : Phrase value α) : Phrase value (List α)

variable {R : Type} {value : R → Type} {α β γ : Type}

namespace Phrase

/-- What a phrase stands for, given parsers for the rules. -/
def parser (ρ : (r : R) → Parser (value r)) : {α : Type} → Phrase value α → Parser α
  | _, rule r => ρ r
  | _, succeed a => Parser.succeed a
  | _, satisfy test => Parser.satisfy test
  | _, char wanted => Parser.char wanted
  | _, literal text => Parser.literal text
  | _, atEnd => Parser.atEnd
  | _, map f p => (p.parser ρ).map f
  | _, check accept p => (p.parser ρ).check accept
  | _, label text p => (p.parser ρ).label text
  | _, peek p => (p.parser ρ).peek
  | _, both f p q => Parser.both f (p.parser ρ) (q.parser ρ)
  | _, orElse p q => (p.parser ρ).orElse (q.parser ρ)
  | _, choice p q => Parser.choice (p.parser ρ) [q.parser ρ]
  | _, optional p => (p.parser ρ).optional
  | _, many p => Parser.many (p.parser ρ)
  | _, many1 p => Parser.many1 (p.parser ρ)
  | _, skipUntil p => Parser.skipUntil (p.parser ρ)
  | _, sepBy1 sep p => Parser.sepBy1 (sep.parser ρ) (p.parser ρ)
  | _, sepByTrailing sep p => Parser.sepByTrailing (sep.parser ρ) (p.parser ρ)

/-! ## What can be checked of a text -/

/-- Whether a phrase can be seen to read at least one character, if every rule does. -/
def progresses : {α : Type} → Phrase value α → Bool
  | _, rule _ | _, satisfy _ | _, char _ => true
  | _, literal text => !text.isEmpty
  | _, map _ p | _, check _ p | _, label _ p | _, many1 p | _, sepBy1 _ p => p.progresses
  | _, both _ p q => p.progresses || q.progresses
  | _, orElse p q | _, choice p q => p.progresses && q.progresses
  | _, succeed _ | _, atEnd | _, peek _ | _, optional _ | _, many _ | _, skipUntil _
  | _, sepByTrailing _ _ => false

/-- The rules that a phrase may call before it has read anything. -/
def first : {α : Type} → Phrase value α → List R
  | _, rule r => [r]
  | _, succeed _ | _, satisfy _ | _, char _ | _, literal _ | _, atEnd => []
  | _, map _ p | _, check _ p | _, label _ p | _, peek p | _, optional p | _, many p | _, many1 p
  | _, skipUntil p => p.first
  | _, both _ p q => p.first ++ if p.progresses then [] else q.first
  | _, orElse p q | _, choice p q => p.first ++ q.first
  | _, sepBy1 sep p | _, sepByTrailing sep p => p.first ++ if p.progresses then [] else sep.first

/-- Whether every repetition in a phrase repeats something that reads at least one character. -/
def loopsProgress : {α : Type} → Phrase value α → Bool
  | _, rule _ | _, succeed _ | _, satisfy _ | _, char _ | _, literal _ | _, atEnd => true
  | _, map _ p | _, check _ p | _, label _ p | _, peek p | _, optional p
  | _, skipUntil p => p.loopsProgress
  | _, both _ p q | _, orElse p q | _, choice p q => p.loopsProgress && q.loopsProgress
  | _, many p | _, many1 p => p.progresses && p.loopsProgress
  | _, sepBy1 sep p | _, sepByTrailing sep p =>
    p.progresses && p.loopsProgress && sep.loopsProgress

/-! ## Progress -/

section Progress

variable (ρ : (r : R) → Parser (value r))

instance shrinks_toParser [∀ r, Shrinks (ρ r)] (φ : Phrase value α) : Shrinks (φ.parser ρ) := by
  induction φ <;> unfold parser <;> infer_instance

/-- What is seen to read at least one character does. -/
theorem consumes_of_progresses [∀ r, Consumes (ρ r)] {φ : Phrase value α}
    (h : φ.progresses = true) : Consumes (φ.parser ρ) := by
  induction φ with
  | succeed | atEnd | peek | optional | many | skipUntil | sepByTrailing => simp [progresses] at h
  | rule | satisfy | char => unfold parser; infer_instance
  | literal text =>
    refine consumes_literal fun hnil => ?_
    simp_all [progresses]
  | map f p ih | check f p ih | label f p ih | many1 p ih | sepBy1 sep p _ ih =>
    have := ih h
    unfold parser
    infer_instance
  | both f p q ihp ihq =>
    rcases Bool.or_eq_true_iff.1 h with h | h
    · have := ihp h
      exact consumes_both_left f _ _
    · have := ihq h
      exact consumes_both_right f _ _
  | orElse p q ihp ihq | choice p q ihp ihq =>
    obtain ⟨hp, hq⟩ := Bool.and_eq_true_iff.1 h
    have := ihp hp
    have := ihq hq
    unfold parser
    infer_instance

/-- Every repetition in a phrase reads at least one character each time around. -/
def LoopsConsume : {α : Type} → Phrase value α → Prop
  | _, rule _ | _, succeed _ | _, satisfy _ | _, char _ | _, literal _ | _, atEnd => True
  | _, map _ p | _, check _ p | _, label _ p | _, peek p | _, optional p
  | _, skipUntil p => p.LoopsConsume
  | _, both _ p q | _, orElse p q | _, choice p q => p.LoopsConsume ∧ q.LoopsConsume
  | _, many p | _, many1 p => Consumes (p.parser ρ) ∧ p.LoopsConsume
  | _, sepBy1 sep p | _, sepByTrailing sep p =>
    Consumes ((sep.parser ρ).skipThen (p.parser ρ)) ∧ p.LoopsConsume ∧ sep.LoopsConsume

/-- The check of the loops is sound: a loop whose item passes it consumes in every round. -/
theorem loopsConsume_of_loopsProgress [∀ r, Consumes (ρ r)] {φ : Phrase value α}
    (h : φ.loopsProgress = true) : φ.LoopsConsume ρ := by
  induction φ with
  | rule | succeed | satisfy | char | literal | atEnd => trivial
  | map f p ih | check f p ih | label f p ih | peek p ih | optional p ih | skipUntil p ih =>
    exact ih h
  | both f p q ihp ihq | orElse p q ihp ihq | choice p q ihp ihq =>
    obtain ⟨hp, hq⟩ := Bool.and_eq_true_iff.1 h
    exact ⟨ihp hp, ihq hq⟩
  | many p ih | many1 p ih =>
    obtain ⟨hprogress, hp⟩ := Bool.and_eq_true_iff.1 h
    exact ⟨consumes_of_progresses ρ hprogress, ih hp⟩
  | sepBy1 sep p ihsep ihp | sepByTrailing sep p ihsep ihp =>
    obtain ⟨hp, hsep⟩ := Bool.and_eq_true_iff.1 h
    obtain ⟨hprogress, hp⟩ := Bool.and_eq_true_iff.1 hp
    have := consumes_of_progresses ρ hprogress
    exact ⟨inferInstance, ihp hp, ihsep hsep⟩

end Progress

/-! ## Calls -/

section Calls

variable (ρ : (r : R) → Parser (value r))

/-- On the text `s`, a phrase may call the rule `r` on the text `t`. -/
def Calls : {α : Type} → Phrase value α → List Char → R → List Char → Prop
  | _, rule r', s, r, t => r = r' ∧ t = s
  | _, succeed _, _, _, _ | _, satisfy _, _, _, _ | _, char _, _, _, _ | _, literal _, _, _, _
  | _, atEnd, _, _, _ => False
  | _, map _ p, s, r, t | _, check _ p, s, r, t | _, label _ p, s, r, t | _, peek p, s, r, t
  | _, optional p, s, r, t => p.Calls s r t
  | _, both _ p q, s, r, t => p.Calls s r t ∨ ∃ u, Leaves (p.parser ρ) s u ∧ q.Calls u r t
  | _, orElse p q, s, r, t | _, choice p q, s, r, t => p.Calls s r t ∨ q.Calls s r t
  -- Behind any number of turns, wherever they have left the repetition.
  | _, many p, s, r, t | _, many1 p, s, r, t =>
    ∃ u, Relation.ReflTransGen (Leaves (p.parser ρ)) s u ∧ p.Calls u r t
  | _, skipUntil p, s, r, t => ∃ u, u <:+ s ∧ p.Calls u r t
  | _, sepBy1 sep p, s, r, t | _, sepByTrailing sep p, s, r, t =>
    p.Calls s r t ∨ ∃ u v, Leaves (p.parser ρ) s u ∧
      Relation.ReflTransGen (Leaves ((sep.parser ρ).skipThen (p.parser ρ))) u v ∧
      (sep.Calls v r t ∨ ∃ w, Leaves (sep.parser ρ) v w ∧ p.Calls w r t)

/-- What holds behind an end of a text holds behind the text, unless the end is the whole. -/
theorem later_of_suffix {L : List R} {s t u : List Char} {r : R} (hu : u <:+ s)
    (h : t.length < u.length ∨ t = u ∧ r ∈ L) : t.length < s.length ∨ u = s ∧ t = s ∧ r ∈ L := by
  rcases h with h | ⟨rfl, hr⟩
  · exact .inl (Nat.lt_of_lt_of_le h hu.length_le)
  · rcases Nat.lt_or_ge t.length s.length with hlt | hge
    · exact .inl hlt
    · have hts := hu.eq_of_length_le hge
      exact .inr ⟨hts, hts, hr⟩

variable [∀ r, Consumes (ρ r)]

/-- Behind a phrase that reads something, nothing is first. -/
theorem later_of_leaves {L : List R} {p : Phrase value α} {s t u : List Char} {r : R}
    (hu : Leaves (p.parser ρ) s u) (h : t.length < u.length ∨ t = u ∧ r ∈ L) :
    t.length < s.length ∨ t = s ∧ r ∈ if p.progresses then [] else L := by
  rcases later_of_suffix (suffix_of_leaves hu) h with hlt | ⟨rfl, rfl, hr⟩
  · exact .inl hlt
  · cases hp : p.progresses with
    | false => exact .inr ⟨rfl, by simpa using hr⟩
    | true =>
      have := consumes_of_progresses ρ hp
      obtain ⟨a, ha⟩ := hu
      exact absurd (length_lt_of_run ha) (Nat.lt_irrefl _)

/-- A rule is called on a shorter text, or it is one of those that may come first. -/
theorem calls_cases {φ : Phrase value α} {s t : List Char} {r : R} (h : φ.Calls ρ s r t) :
    t.length < s.length ∨ t = s ∧ r ∈ φ.first := by
  induction φ generalizing s t with
  | rule r' => exact .inr ⟨h.2, by simp [first, h.1]⟩
  | succeed | satisfy | char | literal | atEnd => exact h.elim
  | map f p ih | check f p ih | label f p ih | peek p ih | optional p ih => exact ih h
  | both f p q ihp ihq =>
    rcases h with h | ⟨u, hu, h⟩
    · exact (ihp h).imp_right fun ⟨hs, hr⟩ => ⟨hs, List.mem_append_left _ hr⟩
    · exact (later_of_leaves ρ hu (ihq h)).imp_right
        fun ⟨hs, hr⟩ => ⟨hs, List.mem_append_right _ hr⟩
  | orElse p q ihp ihq | choice p q ihp ihq =>
    rcases h with h | h
    · exact (ihp h).imp_right fun ⟨hs, hr⟩ => ⟨hs, List.mem_append_left _ hr⟩
    · exact (ihq h).imp_right fun ⟨hs, hr⟩ => ⟨hs, List.mem_append_right _ hr⟩
  | many p ih | many1 p ih =>
    obtain ⟨u, hturns, h⟩ := h
    exact (later_of_suffix (suffix_of_turns hturns) (ih h)).imp_right And.right
  | skipUntil p ih =>
    obtain ⟨u, hu, h⟩ := h
    exact (later_of_suffix hu (ih h)).imp_right And.right
  | sepBy1 sep p ihsep ihp | sepByTrailing sep p ihsep ihp =>
    rcases h with h | ⟨u, v, hu, hturns, h⟩
    · exact (ihp h).imp_right fun ⟨hs, hr⟩ => ⟨hs, List.mem_append_left _ hr⟩
    · -- One turn calls what the separator calls, or what a value calls behind it.
      have hturn : t.length < v.length ∨ t = v ∧ r ∈ p.first ++ sep.first := by
        rcases h with h | ⟨w, hw, h⟩
        · exact (ihsep h).imp_right fun ⟨hs, hr⟩ => ⟨hs, List.mem_append_right _ hr⟩
        · exact (later_of_suffix (suffix_of_leaves hw) (ihp h)).imp_right
            fun ⟨_, hs, hr⟩ => ⟨hs, List.mem_append_left _ hr⟩
      have hrow := (later_of_suffix (suffix_of_turns hturns) hturn).imp_right And.right
      refine (later_of_leaves ρ hu hrow).imp_right fun ⟨hs, hr⟩ => ⟨hs, ?_⟩
      cases hp : p.progresses <;> simp_all [first]

end Calls

end Phrase

/-! ## Reading without a bound -/

/-- One reading by the text `G` of a grammar, step by step: a phrase ends on the text `s` with a
value and the text behind it, or finds none. -/
inductive Reads (G : (r : R) → Phrase value (value r)) :
    {α : Type} → Phrase value α → List Char → Option (α × List Char) → Prop where
  -- A name stands for the text of its rule.
  | rule {r s o} : Reads G (G r) s o → Reads G (.rule r) s o
  | succeed {α : Type} (a : α) (s) : Reads G (.succeed a) s (some (a, s))
  | satisfy (test s) : Reads G (.satisfy test) s (run (satisfy test) s)
  | char (wanted s) : Reads G (.char wanted) s (run (char wanted) s)
  | literal (text s) : Reads G (.literal text) s (run (literal text) s)
  | atEnd (s) : Reads G .atEnd s (run atEnd s)
  | map {α β : Type} {p s o} (f : α → β) :
      Reads G p s o → Reads G (.map f p) s (o.map fun x => (f x.1, x.2))
  | check {α β : Type} {p s o} (accept : α → Except String β) :
      Reads G p s o →
      Reads G (.check accept p) s (o.bind fun x => (accept x.1).toOption.map fun b => (b, x.2))
  | label {α : Type} {p : Phrase value α} {s o} (text) :
      Reads G p s o → Reads G (.label text p) s o
  | peek {α : Type} {p : Phrase value α} {s o} :
      Reads G p s o → Reads G (.peek p) s (o.map fun x => (x.1, s))
  -- The second part of a sequence is read behind the first …
  | both_none {α β γ : Type} {p s} (f : α → β → γ) (q) :
      Reads G p s none → Reads G (.both f p q) s none
  | both_some {α β γ : Type} {p q s t a o} (f : α → β → γ) :
      Reads G p s (some (a, t)) → Reads G q t o →
      Reads G (.both f p q) s (o.map fun y => (f a y.1, y.2))
  -- … and that of a choice at the same place, when there is no first.
  | orElse_some {α : Type} {p : Phrase value α} {s x} (q) :
      Reads G p s (some x) → Reads G (.orElse p q) s (some x)
  | orElse_none {α : Type} {p q : Phrase value α} {s o} :
      Reads G p s none → Reads G q s o → Reads G (.orElse p q) s o
  | choice_some {α : Type} {p : Phrase value α} {s x} (q) :
      Reads G p s (some x) → Reads G (.choice p q) s (some x)
  | choice_none {α : Type} {p q : Phrase value α} {s o} :
      Reads G p s none → Reads G q s o → Reads G (.choice p q) s o
  | optional_none {α : Type} {p : Phrase value α} {s} :
      Reads G p s none → Reads G (.optional p) s (some (none, s))
  | optional_some {α : Type} {p : Phrase value α} {s r a} :
      Reads G p s (some (a, r)) → Reads G (.optional p) s (some (some a, r))
  -- A repetition goes on wherever a value has left it, even if that is where it stood before.
  | many_none {α : Type} {p : Phrase value α} {s} :
      Reads G p s none → Reads G (.many p) s (some ([], s))
  | many_some {α : Type} {p : Phrase value α} {s t r a as} :
      Reads G p s (some (a, t)) → Reads G (.many p) t (some (as, r)) →
      Reads G (.many p) s (some (a :: as, r))
  | many1_none {α : Type} {p : Phrase value α} {s} :
      Reads G p s none → Reads G (.many1 p) s none
  | many1_some {α : Type} {p : Phrase value α} {s t r a as} :
      Reads G p s (some (a, t)) → Reads G (.many p) t (some (as, r)) →
      Reads G (.many1 p) s (some (a :: as, r))
  | skipUntil_here {α : Type} {p : Phrase value α} {s r a} :
      Reads G p s (some (a, r)) → Reads G (.skipUntil p) s (some ((), r))
  | skipUntil_end {α : Type} {p : Phrase value α} :
      Reads G p [] none → Reads G (.skipUntil p) [] none
  | skipUntil_later {α : Type} {p : Phrase value α} {c s o} :
      Reads G p (c :: s) none → Reads G (.skipUntil p) s o → Reads G (.skipUntil p) (c :: s) o
  -- A list repeats the separator with a value behind it.
  | sepBy1_none {α β : Type} {p : Phrase value α} {s} (sep : Phrase value β) :
      Reads G p s none → Reads G (.sepBy1 sep p) s none
  | sepBy1_some {α β : Type} {sep : Phrase value β} {p : Phrase value α} {s t r a as} :
      Reads G p s (some (a, t)) →
      Reads G (.many (.both (fun _ b => b) sep p)) t (some (as, r)) →
      Reads G (.sepBy1 sep p) s (some (a :: as, r))
  | sepByTrailing_none {α β : Type} {p : Phrase value α} {s} (sep : Phrase value β) :
      Reads G p s none → Reads G (.sepByTrailing sep p) s (some ([], s))
  | sepByTrailing_some {α β : Type} {sep : Phrase value β} {p : Phrase value α} {s t r u a as o} :
      Reads G p s (some (a, t)) →
      Reads G (.many (.both (fun _ b => b) sep p)) t (some (as, r)) →
      Reads G (.optional sep) r (some (o, u)) →
      Reads G (.sepByTrailing sep p) s (some (a :: as, u))

namespace Reads

variable {G : (r : R) → Phrase value (value r)} {ρ : (r : R) → Parser (value r)}

/-- A sequence ends if its first part does, and its second part behind it. -/
theorem both_run (f : α → β → γ) {p : Phrase value α} {q : Phrase value β} {s : List Char}
    (hp : Reads G p s (run (p.parser ρ) s))
    (hq : ∀ t, Leaves (p.parser ρ) s t → Reads G q t (run (q.parser ρ) t)) :
    Reads G (.both f p q) s (run ((Phrase.both f p q).parser ρ) s) := by
  rw [Phrase.parser, run_both]
  cases h : run (p.parser ρ) s with
  | none => exact .both_none f q (h ▸ hp)
  | some x => exact .both_some f (h ▸ hp) (hq x.2 ⟨x.1, h⟩)

theorem optional_run {p : Phrase value α} {s : List Char}
    (hp : Reads G p s (run (p.parser ρ) s)) :
    Reads G (.optional p) s (run ((Phrase.optional p).parser ρ) s) := by
  rw [Phrase.parser]
  cases h : run (p.parser ρ) s with
  | none =>
    rw [run_optional_none h]
    exact .optional_none (h ▸ hp)
  | some x =>
    rw [run_optional_some h]
    exact .optional_some (h ▸ hp)

/-- A repetition ends if what it repeats makes progress and ends wherever a turn starts. -/
theorem many_run {p : Phrase value α} [Consumes (p.parser ρ)] {s : List Char}
    (hp : ∀ t, Relation.ReflTransGen (Leaves (p.parser ρ)) s t →
      Reads G p t (run (p.parser ρ) t)) :
    Reads G (.many p) s (run ((Phrase.many p).parser ρ) s) := by
  rw [Phrase.parser]
  induction hl : s.length using Nat.strongRecOn generalizing s with
  | _ l ih =>
    have hread := hp s .refl
    cases h : run (p.parser ρ) s with
    | none =>
      rw [run_many_none h]
      exact .many_none (h ▸ hread)
    | some x =>
      -- Each turn leaves a shorter text for the turns behind it.
      have hlt := length_lt_of_run h
      have hrest := ih x.2.length (by omega) (fun t ht => hp t (.head ⟨x.1, h⟩ ht)) rfl
      obtain ⟨as, r, hrow⟩ := run_many_isSome (p.parser ρ) x.2
      rw [run_many_step h, hrow]
      exact .many_some (h ▸ hread) (hrow ▸ hrest)

/-- Skipping goes on by one character until the phrase is read or the text ends. -/
theorem skipUntil_run {p : Phrase value α} {s : List Char}
    (hp : ∀ t, t <:+ s → Reads G p t (run (p.parser ρ) t)) :
    Reads G (.skipUntil p) s (run ((Phrase.skipUntil p).parser ρ) s) := by
  rw [Phrase.parser]
  induction s with
  | nil =>
    have hread := hp [] List.suffix_rfl
    rw [run_skipUntil_nil]
    cases h : run (p.parser ρ) [] with
    | none => exact .skipUntil_end (h ▸ hread)
    | some x => exact .skipUntil_here (h ▸ hread)
  | cons c s ih =>
    have hread := hp (c :: s) List.suffix_rfl
    rw [run_skipUntil_cons]
    cases h : run (p.parser ρ) (c :: s) with
    | none =>
      exact .skipUntil_later (h ▸ hread) (ih fun t ht => hp t (ht.trans (List.suffix_cons c s)))
    | some x => exact .skipUntil_here (h ▸ hread)

/-- Wherever a turn of a list starts, the separator and the value behind it come to an end. -/
def TurnsEnd (G : (r : R) → Phrase value (value r)) (ρ : (r : R) → Parser (value r))
    (sep : Phrase value β) (p : Phrase value α) (s : List Char) : Prop :=
  ∀ t, Relation.ReflTransGen (Leaves ((sep.parser ρ).skipThen (p.parser ρ))) s t →
    Reads G sep t (run (sep.parser ρ) t) ∧
      ∀ u, Leaves (sep.parser ρ) t u → Reads G p u (run (p.parser ρ) u)

/-- The values that follow in a list are a repetition. -/
theorem followers_run {sep : Phrase value β} {p : Phrase value α} [Shrinks (sep.parser ρ)]
    [Consumes (p.parser ρ)] {s : List Char} (h : TurnsEnd G ρ sep p s) :
    Reads G (.many (.both (fun _ b => b) sep p)) s
      (some (runFollowers (sep.parser ρ) (p.parser ρ) s)) := by
  have : Consumes ((Phrase.both (fun _ b => b) sep p).parser ρ) :=
    inferInstanceAs (Consumes ((sep.parser ρ).skipThen (p.parser ρ)))
  rw [← run_many_skipThen]
  exact many_run fun t ht => both_run _ (h t ht).1 (h t ht).2

/-- Behind its first value, the turns of a list end if every rule that the list calls does. -/
theorem turnsEnd_of_calls {sep : Phrase value β} {p : Phrase value α} {s u : List Char}
    (hsep : ∀ {v}, (∀ r t, sep.Calls ρ v r t → Reads G (.rule r) t (run (ρ r) t)) →
      Reads G sep v (run (sep.parser ρ) v))
    (hp : ∀ {v}, (∀ r t, p.Calls ρ v r t → Reads G (.rule r) t (run (ρ r) t)) →
      Reads G p v (run (p.parser ρ) v))
    (h : ∀ r t, (Phrase.sepBy1 sep p).Calls ρ s r t → Reads G (.rule r) t (run (ρ r) t))
    (hu : Leaves (p.parser ρ) s u) : TurnsEnd G ρ sep p u := by
  intro v hv
  refine ⟨hsep fun r t ht => ?_, fun w hw => hp fun r t ht => ?_⟩
  · exact h r t (.inr ⟨u, v, hu, hv, .inl ht⟩)
  · exact h r t (.inr ⟨u, v, hu, hv, .inr ⟨w, hw, ht⟩⟩)

/-- Reading by a phrase ends if every rule that it calls comes to an end. -/
theorem of_calls [∀ r, Consumes (ρ r)] {φ : Phrase value α} {s : List Char}
    (hloops : φ.loopsProgress = true)
    (h : ∀ r t, φ.Calls ρ s r t → Reads G (.rule r) t (run (ρ r) t)) :
    Reads G φ s (run (φ.parser ρ) s) := by
  induction φ generalizing s with
  | rule r => exact h r s ⟨rfl, rfl⟩
  | succeed a => exact .succeed a s
  | satisfy test => exact .satisfy test s
  | char wanted => exact .char wanted s
  | literal text => exact .literal text s
  | atEnd => exact .atEnd s
  | map f p ih =>
    rw [Phrase.parser, run_map]
    exact .map f (ih hloops h)
  | check accept p ih =>
    rw [Phrase.parser, run_check]
    exact .check accept (ih hloops h)
  | label text p ih =>
    rw [Phrase.parser, run_label]
    exact .label text (ih hloops h)
  | peek p ih =>
    rw [Phrase.parser, run_peek]
    exact .peek (ih hloops h)
  | both f p q ihp ihq =>
    obtain ⟨hp, hq⟩ := Bool.and_eq_true_iff.1 hloops
    exact both_run f (ihp hp fun r t ht => h r t (.inl ht))
      fun u hu => ihq hq fun r t ht => h r t (.inr ⟨u, hu, ht⟩)
  | orElse p q ihp ihq =>
    obtain ⟨hp, hq⟩ := Bool.and_eq_true_iff.1 hloops
    have hfirst := ihp hp fun r t ht => h r t (.inl ht)
    have hsecond := ihq hq fun r t ht => h r t (.inr ht)
    rw [Phrase.parser, run_orElse]
    cases hrun : run (p.parser ρ) s with
    | none => exact .orElse_none (hrun ▸ hfirst) hsecond
    | some x => exact .orElse_some q (hrun ▸ hfirst)
  | choice p q ihp ihq =>
    obtain ⟨hp, hq⟩ := Bool.and_eq_true_iff.1 hloops
    have hfirst := ihp hp fun r t ht => h r t (.inl ht)
    have hsecond := ihq hq fun r t ht => h r t (.inr ht)
    rw [Phrase.parser, run_choice_cons]
    cases hrun : run (p.parser ρ) s with
    | none => exact .choice_none (hrun ▸ hfirst) hsecond
    | some x => exact .choice_some q (hrun ▸ hfirst)
  | optional p ih => exact optional_run (ih hloops h)
  | many p ih =>
    obtain ⟨hprogress, hp⟩ := Bool.and_eq_true_iff.1 hloops
    have := Phrase.consumes_of_progresses ρ hprogress
    exact many_run fun u hu => ih hp fun r t ht => h r t ⟨u, hu, ht⟩
  | many1 p ih =>
    obtain ⟨hprogress, hp⟩ := Bool.and_eq_true_iff.1 hloops
    have := Phrase.consumes_of_progresses ρ hprogress
    have hread : ∀ u, Relation.ReflTransGen (Leaves (p.parser ρ)) s u →
        Reads G p u (run (p.parser ρ) u) :=
      fun u hu => ih hp fun r t ht => h r t ⟨u, hu, ht⟩
    rw [Phrase.parser, run_many1]
    cases hrun : run (p.parser ρ) s with
    | none => exact .many1_none (hrun ▸ hread s .refl)
    | some x =>
      have hrest := many_run fun u hu => hread u (.head ⟨x.1, hrun⟩ hu)
      obtain ⟨as, r, hrow⟩ := run_many_isSome (p.parser ρ) x.2
      rw [Option.bind_some, run_many_step hrun, hrow]
      exact .many1_some (hrun ▸ hread s .refl) (hrow ▸ hrest)
  | skipUntil p ih =>
    exact skipUntil_run fun u hu => ih hloops fun r t ht => h r t ⟨u, hu, ht⟩
  | sepBy1 sep p ihsep ihp =>
    obtain ⟨hp, hsep⟩ := Bool.and_eq_true_iff.1 hloops
    obtain ⟨hprogress, hp⟩ := Bool.and_eq_true_iff.1 hp
    have := Phrase.consumes_of_progresses ρ hprogress
    have hread := ihp hp fun r t ht => h r t (.inl ht)
    rw [Phrase.parser, run_sepBy1]
    cases hrun : run (p.parser ρ) s with
    | none => exact .sepBy1_none sep (hrun ▸ hread)
    | some x =>
      have hturns := turnsEnd_of_calls (ihsep hsep) (ihp hp) h ⟨x.1, hrun⟩
      exact .sepBy1_some (hrun ▸ hread) (followers_run hturns)
  | sepByTrailing sep p ihsep ihp =>
    obtain ⟨hp, hsep⟩ := Bool.and_eq_true_iff.1 hloops
    obtain ⟨hprogress, hp⟩ := Bool.and_eq_true_iff.1 hp
    have := Phrase.consumes_of_progresses ρ hprogress
    have hread := ihp hp fun r t ht => h r t (.inl ht)
    rw [Phrase.parser, run_sepByTrailing]
    cases hrun : run (p.parser ρ) s with
    | none => exact .sepByTrailing_none sep (hrun ▸ hread)
    | some x =>
      have hturns := turnsEnd_of_calls (ihsep hsep) (ihp hp) h ⟨x.1, hrun⟩
      -- The separator is tried once more where the row has stopped.
      have hlast := optional_run (hturns _ (turns_runFollowers _ _ x.2)).1
      rw [Phrase.parser, run_optional] at hlast
      exact .sepByTrailing_some (hrun ▸ hread) (followers_run hturns) hlast

end Reads

/-! ## Grammars that pass the checks -/

/-- The text `G` of a grammar, read by the parsers `ρ`, passes the checks: the parsers read what the
texts of their rules say and at least one character, no repetition turns on the spot, and a rule
that comes first in another has a lower rank. -/
structure Terminating (G : (r : R) → Phrase value (value r)) (ρ : (r : R) → Parser (value r))
    (rank : R → Nat) : Prop where
  run_eq : ∀ r s, run (ρ r) s = run ((G r).parser ρ) s
  consumes : ∀ r, Consumes (ρ r)
  loops : ∀ r, (G r).loopsProgress = true
  first_lt : ∀ r, ∀ r' ∈ (G r).first, rank r' < rank r

/-- Reading by the first rule, on its text, may call the second rule on its text. -/
def CallsRule (G : (r : R) → Phrase value (value r)) (ρ : (r : R) → Parser (value r))
    (c c' : R × List Char) : Prop :=
  (G c.1).Calls ρ c.2 c'.1 c'.2

namespace Terminating

variable {G : (r : R) → Phrase value (value r)} {ρ : (r : R) → Parser (value r)} {rank : R → Nat}

/-- A call goes to a shorter text, or to a rule of lower rank on the same one. -/
theorem lt_of_callsRule (h : Terminating G ρ rank) {c c' : R × List Char}
    (hc : CallsRule G ρ c c') :
    c'.2.length < c.2.length ∨ c'.2 = c.2 ∧ rank c'.1 < rank c.1 := by
  have := h.consumes
  exact (Phrase.calls_cases ρ hc).imp_right fun ⟨hs, hr⟩ => ⟨hs, h.first_lt _ _ hr⟩

/-- So does a chain of calls. -/
theorem lt_of_chain (h : Terminating G ρ rank) {c c' : R × List Char}
    (hc : Relation.TransGen (CallsRule G ρ) c c') :
    c'.2.length < c.2.length ∨ c'.2 = c.2 ∧ rank c'.1 < rank c.1 := by
  induction hc with
  | single hstep => exact h.lt_of_callsRule hstep
  | tail _ hstep ih =>
    rcases h.lt_of_callsRule hstep with hlt | ⟨hs, hrank⟩
    · refine .inl (Nat.lt_of_lt_of_le hlt ?_)
      rcases ih with hlt' | ⟨hs', -⟩
      · exact Nat.le_of_lt hlt'
      · exact Nat.le_of_eq (congrArg List.length hs')
    · rw [hs]
      exact ih.imp_right fun ⟨hs', hrank'⟩ => ⟨hs', Nat.lt_trans hrank hrank'⟩

/-- A chain of calls that comes back to a rule has read something on its way. -/
theorem length_lt_of_chain (h : Terminating G ρ rank) {r : R} {s t : List Char}
    (hc : Relation.TransGen (CallsRule G ρ) (r, s) (r, t)) : t.length < s.length :=
  (h.lt_of_chain hc).resolve_right fun ⟨_, hrank⟩ => Nat.lt_irrefl _ hrank

/-- Every rule ends on every text, with what its parser reads. -/
theorem reads_rule (h : Terminating G ρ rank) (r : R) (s : List Char) :
    Reads G (.rule r) s (run (ρ r) s) := by
  have := h.consumes
  -- The rules called on a shorter text end, and so do those of lower rank on this one.
  induction hl : s.length using Nat.strongRecOn generalizing r s with
  | _ l ihtext =>
    induction hk : rank r using Nat.strongRecOn generalizing r with
    | _ k ihrank =>
      rw [h.run_eq]
      refine .rule (.of_calls (h.loops r) fun r' t hcall => ?_)
      have hstep : CallsRule G ρ (r, s) (r', t) := hcall
      rcases h.lt_of_callsRule hstep with hlt | ⟨hs, hrank⟩
      · exact ihtext t.length (hl ▸ hlt) r' t rfl
      · cases hs
        exact ihrank (rank r') (hk ▸ hrank) r' rfl

/-- So does every phrase with the rules in it. -/
theorem reads (h : Terminating G ρ rank) {φ : Phrase value α} (hloops : φ.loopsProgress = true)
    (s : List Char) : Reads G φ s (run (φ.parser ρ) s) :=
  have := h.consumes
  .of_calls hloops fun r t _ => h.reads_rule r t

end Terminating

end TsxCompiler.Peg
