import TsxCompiler.Peg.Recursion
import TsxCompiler.Peg.Repetition

/-!
# What parsers read

Failures decide what a message says and never what is read. `run` forgets them, so that a parser
becomes a partial function from a text to a value and the text behind it. Each combinator has one
equation here; everything that is proved about the grammar later goes through these equations and
never looks at a failure again.

* `run_both`, `run_choice_cons`, `run_optional` — sequence and choice.
* `run_many`, `run_sepByTrailing` — repetition, one step at a time.
* `run_fix` — a recursive rule, which may use itself only on shorter texts.
-/

namespace TsxCompiler.Peg.Parser

variable {α β γ : Type}

/-- What a parser reads at the start of a text, and the text behind it. -/
def run (p : Parser α) (s : List Char) : Option (α × List Char) :=
  (p (.ofList s)).read?

/-- A cursor is determined by the text it stands before. -/
theorem read?_eq_run (p : Parser α) (c : Cursor) : (p c).read? = run p c.rest := by
  simp [run]

theorem run_of_ok {p : Parser α} {s : List Char} {a : α} {c : Cursor} {met : Option Failure}
    (h : p (.ofList s) = .ok a c met) : run p s = some (a, c.rest) := by
  simp [run, h, Outcome.read?]

theorem run_of_fail {p : Parser α} {s : List Char} {f : Failure}
    (h : p (.ofList s) = .fail f) : run p s = none := by
  simp [run, h, Outcome.read?]

/-! ## Primitive parsers -/

@[simp] theorem run_succeed (a : α) (s : List Char) : run (succeed a) s = some (a, s) := rfl

@[simp] theorem run_satisfy_nil (test : Char → Bool) : run (satisfy test) [] = none := rfl

theorem run_satisfy_cons (test : Char → Bool) (c : Char) (s : List Char) :
    run (satisfy test) (c :: s) = if test c then some (c, s) else none := by
  have hn : (Cursor.ofList (c :: s)).next? = some (c, .ofList s) := Cursor.next?_cons rfl
  unfold run satisfy
  rw [hn]
  cases htest : test c <;> simp [htest, Outcome.read?]

@[simp] theorem run_char_nil (wanted : Char) : run (char wanted) [] = none := rfl

theorem run_char_cons (wanted c : Char) (s : List Char) :
    run (char wanted) (c :: s) = if c = wanted then some (c, s) else none := by
  have hn : (Cursor.ofList (c :: s)).next? = some (c, .ofList s) := Cursor.next?_cons rfl
  unfold run char
  rw [hn]
  by_cases hc : c = wanted <;> simp [hc, Outcome.read?]

@[simp] theorem run_chars_nil (s : List Char) : run (chars []) s = some ((), s) := rfl

theorem run_chars_cons (wanted : Char) (more s : List Char) :
    run (chars (wanted :: more)) s = (run (char wanted) s).bind fun x => run (chars more) x.2 := by
  unfold run
  simp only [chars]
  cases h : char wanted (.ofList s) with
  | ok a next met => simp [Outcome.read?]
  | fail f => simp [Outcome.read?]

/-- A text reads itself. -/
theorem run_chars_append (text s : List Char) : run (chars text) (text ++ s) = some ((), s) := by
  induction text with
  | nil => simp
  | cons c text ih => simp [run_chars_cons, run_char_cons, ih]

theorem run_chars_inv {text s r : List Char} {u : Unit} (h : run (chars text) s = some (u, r)) :
    s = text ++ r := by
  induction text generalizing s with
  | nil => simpa using h
  | cons c text ih =>
    cases s with
    | nil => simp [run_chars_cons] at h
    | cons x s =>
      rw [run_chars_cons, run_char_cons] at h
      by_cases hx : x = c
      · subst hx
        simp only [if_true, Option.bind_some] at h
        simp [ih h]
      · simp [hx] at h

@[simp] theorem run_atEnd_nil : run atEnd [] = some ((), []) := rfl

theorem run_atEnd_inv {s r : List Char} {u : Unit} (h : run atEnd s = some (u, r)) :
    s = [] ∧ r = [] := by
  cases s with
  | nil => simpa using h
  | cons c s =>
    have hn : (Cursor.ofList (c :: s)).next? = some (c, .ofList s) := Cursor.next?_cons rfl
    unfold run atEnd at h
    rw [hn] at h
    simp [Outcome.read?] at h

/-! ## Results -/

theorem run_map (f : α → β) (p : Parser α) (s : List Char) :
    run (p.map f) s = (run p s).map fun x => (f x.1, x.2) := by
  unfold run map
  cases p (.ofList s) <;> simp [Outcome.read?]

theorem run_yielding (b : β) (p : Parser α) (s : List Char) :
    run (p.yielding b) s = (run p s).map fun x => (b, x.2) :=
  run_map _ p s

/-- Only an accepted value counts as read. -/
theorem run_check (accept : α → Except String β) (p : Parser α) (s : List Char) :
    run (p.check accept) s =
      (run p s).bind fun x => (accept x.1).toOption.map fun b => (b, x.2) := by
  unfold run check
  cases p (.ofList s) with
  | ok a next met => cases h : accept a <;> simp [Outcome.read?, h, Except.toOption]
  | fail f => simp [Outcome.read?]

@[simp] theorem run_label (text : String) (p : Parser α) (s : List Char) :
    run (p.label text) s = run p s := by
  unfold run label
  cases p (.ofList s) <;> simp [Outcome.read?]

theorem run_peek (p : Parser α) (s : List Char) :
    run p.peek s = (run p s).map fun x => (x.1, s) := by
  unfold run peek
  cases p (.ofList s) <;> simp [Outcome.read?]

/-! ## Sequence and choice -/

theorem run_both (f : α → β → γ) (p : Parser α) (q : Parser β) (s : List Char) :
    run (both f p q) s =
      (run p s).bind fun x => (run q x.2).map fun y => (f x.1 y.1, y.2) := by
  unfold run both
  cases p (.ofList s) with
  | fail failure => simp [Outcome.read?]
  | ok a mid met =>
    have hq := read?_eq_run q mid
    cases hmid : q mid with
    | ok b next met' => rw [hmid] at hq; simp_all [Outcome.read?, run]
    | fail failure => rw [hmid] at hq; simp_all [Outcome.read?, run]

theorem run_seq (p : Parser α) (q : Parser β) (s : List Char) :
    run (p.seq q) s = (run p s).bind fun x => (run q x.2).map fun y => ((x.1, y.1), y.2) :=
  run_both Prod.mk p q s

theorem run_thenSkip (p : Parser α) (q : Parser β) (s : List Char) :
    run (p.thenSkip q) s = (run p s).bind fun x => (run q x.2).map fun y => (x.1, y.2) :=
  run_both (fun a _ => a) p q s

theorem run_skipThen (p : Parser α) (q : Parser β) (s : List Char) :
    run (p.skipThen q) s = (run p s).bind fun x => run q x.2 := by
  rw [skipThen, run_both]
  simp

theorem run_orElse (p q : Parser α) (s : List Char) :
    run (p.orElse q) s = (run p s).or (run q s) := by
  unfold run orElse
  cases p (.ofList s) with
  | ok a next met => simp [Outcome.read?]
  | fail first => cases q (.ofList s) <;> simp [Outcome.read?]

@[simp] theorem run_choice_nil (p : Parser α) (s : List Char) :
    run (choice p []) s = run p s := rfl

theorem run_choice_cons (p q : Parser α) (more : List (Parser α)) (s : List Char) :
    run (choice p (q :: more)) s = (run p s).or (run (choice q more) s) := by
  unfold run
  simp only [choice]
  cases p (.ofList s) with
  | ok a next met => simp [Outcome.read?]
  | fail first => cases choice q more (.ofList s) <;> simp [Outcome.read?]

theorem run_optional (p : Parser α) (s : List Char) :
    run p.optional s = some (((run p s).map Prod.fst), ((run p s).map Prod.snd).getD s) := by
  unfold run optional
  cases p (.ofList s) <;> simp [Outcome.read?]

/-- A value that is not there is left out. -/
theorem run_optional_none {p : Parser α} {s : List Char} (h : run p s = none) :
    run p.optional s = some (none, s) := by
  simp [run_optional, h]

theorem run_optional_some {p : Parser α} {s r : List Char} {a : α} (h : run p s = some (a, r)) :
    run p.optional s = some (some a, r) := by
  simp [run_optional, h]

/-! ## Repetition -/

/-- The loop goes on as long as something was consumed. -/
theorem run_many (p : Parser α) (s : List Char) :
    run (many p) s =
      match run p s with
      | none => some ([], s)
      | some (a, r) =>
        if r.length < s.length then (run (many p) r).map fun x => (a :: x.1, x.2)
        else some ([a], r) := by
  conv => lhs; unfold run
  rw [many]
  cases hp : p (.ofList s) with
  | fail failure => simp [run_of_fail hp, Outcome.read?]
  | ok a next met =>
    simp only [run_of_ok hp, Cursor.ofList_left, next.left_eq]
    split
    · have hm := read?_eq_run (many p) next
      cases hnext : many p next <;> rw [hnext] at hm <;> simp [← hm, Outcome.read?]
    · rfl

/-- A row ends where nothing more can be read. -/
theorem run_many_none {p : Parser α} {s : List Char} (h : run p s = none) :
    run (many p) s = some ([], s) := by
  rw [run_many, h]

theorem run_many_some {p : Parser α} {s r : List Char} {a : α} (h : run p s = some (a, r))
    (hlt : r.length < s.length) :
    run (many p) s = (run (many p) r).map fun x => (a :: x.1, x.2) := by
  rw [run_many, h]
  simp [hlt]

/-- A row never fails. -/
theorem run_many_isSome (p : Parser α) (s : List Char) : ∃ as r, run (many p) s = some (as, r) := by
  rw [run_many]
  split
  · exact ⟨_, _, rfl⟩
  · split
    · rename_i a r _ hlt
      obtain ⟨as, t, ht⟩ := run_many_isSome p r
      exact ⟨a :: as, t, by simp [ht]⟩
    · exact ⟨_, _, rfl⟩
termination_by s.length

theorem run_many1 (p : Parser α) (s : List Char) :
    run (many1 p) s = (run p s).bind fun _ => run (many p) s := by
  cases hp : p (.ofList s) with
  | fail failure =>
    have hm : many p (.ofList s) = .ok [] (.ofList s) (some failure) := by rw [many, hp]
    simp [run, many1, hm, hp, Outcome.read?]
  | ok a next met =>
    rw [run_of_ok hp, Option.bind_some]
    unfold run many1
    rw [many, hp]
    dsimp only
    by_cases hlt : next.left < (Cursor.ofList s).left
    · rw [if_pos hlt]
      cases many p next <;> rfl
    · rw [if_neg hlt]

theorem run_skipUntil_nil (p : Parser α) :
    run (skipUntil p) [] = (run p []).map fun x => ((), x.2) := by
  conv => lhs; unfold run
  rw [skipUntil]
  cases hp : p (.ofList []) with
  | ok a next met => simp [run_of_ok hp, Outcome.read?]
  | fail f => rw [run_of_fail hp]; rfl

/-- What is looked for stands here or further on. -/
theorem run_skipUntil_cons (p : Parser α) (c : Char) (s : List Char) :
    run (skipUntil p) (c :: s) =
      ((run p (c :: s)).map fun x => ((), x.2)).or (run (skipUntil p) s) := by
  conv => lhs; unfold run
  rw [skipUntil]
  cases hc : p (.ofList (c :: s)) with
  | ok a next met => simp [run_of_ok hc, Outcome.read?]
  | fail f =>
    have hn : (Cursor.ofList (c :: s)).next? = some (c, .ofList s) := Cursor.next?_cons rfl
    simp only [hn, run_of_fail hc, Cursor.ofList_left, List.length_cons, Nat.lt_add_one, if_true]
    cases hs : skipUntil p (.ofList s) with
    | ok a next met => simp [run_of_ok hs, Outcome.read?]
    | fail f => simp [run_of_fail hs, Outcome.read?]

/-- The values that follow in a list, and where they end. -/
def runFollowers (sep : Parser β) (p : Parser α) (s : List Char) : List α × List Char :=
  ((followers sep p (.ofList s)).values, (followers sep p (.ofList s)).stop.rest)

theorem runFollowers_eq (sep : Parser β) (p : Parser α) (s : List Char) :
    runFollowers sep p s =
      match run (sep.skipThen p) s with
      | none => ([], s)
      | some (a, r) =>
        if r.length < s.length then (a :: (runFollowers sep p r).1, (runFollowers sep p r).2)
        else ([a], r) := by
  rw [run_skipThen]
  conv => lhs; unfold runFollowers
  cases hsep : sep (.ofList s) with
  | fail failure =>
    rw [followers, hsep]
    simp [run_of_fail hsep]
  | ok u mid met =>
    have hp := read?_eq_run p mid
    rw [followers, hsep, run_of_ok hsep]
    dsimp only
    cases hmid : p mid with
    | fail failure =>
      rw [hmid] at hp
      simp [← hp, Outcome.read?]
    | ok a next met' =>
      rw [hmid] at hp
      simp only [Option.bind_some, ← hp, Outcome.read?, Cursor.ofList_left, next.left_eq]
      split <;> simp [runFollowers]

/-- Without a separator nothing follows. -/
theorem runFollowers_none {sep : Parser β} {p : Parser α} {s : List Char} (h : run sep s = none) :
    runFollowers sep p s = ([], s) := by
  rw [runFollowers_eq, run_skipThen, h]
  rfl

theorem run_sepByTrailing (sep : Parser β) (p : Parser α) (s : List Char) :
    run (sepByTrailing sep p) s =
      match run p s with
      | none => some ([], s)
      | some (a, r) =>
        some (a :: (runFollowers sep p r).1,
          ((run sep (runFollowers sep p r).2).map Prod.snd).getD (runFollowers sep p r).2) := by
  conv => lhs; unfold run sepByTrailing rowOf
  cases hp : p (.ofList s) with
  | fail failure => simp [run_of_fail hp, Outcome.read?]
  | ok a next met =>
    have hsep := read?_eq_run sep (followers sep p next).stop
    simp only [run_of_ok hp, List.isEmpty_cons, runFollowers, Cursor.eq_ofList_rest]
    cases hstop : sep (followers sep p next).stop with
    | ok u last met' => rw [hstop] at hsep; simp [← hsep, Outcome.read?]
    | fail failure => rw [hstop] at hsep; simp [← hsep, Outcome.read?]

theorem run_sepBy1 (sep : Parser β) (p : Parser α) (s : List Char) :
    run (sepBy1 sep p) s =
      (run p s).map fun x => (x.1 :: (runFollowers sep p x.2).1, (runFollowers sep p x.2).2) := by
  conv => lhs; unfold run sepBy1 rowOf
  cases hp : p (.ofList s) with
  | fail failure => simp [run_of_fail hp, Outcome.read?]
  | ok a next met => simp [run_of_ok hp, runFollowers, Outcome.read?]

/-! ## Recursion -/

theorem run_below (n : Nat) (p : Parser α) (s : List Char) :
    run (below n p) s = if s.length < n then run p s else none := by
  unfold run below
  rw [Cursor.ofList_left]
  split <;> simp [Outcome.read?, *]

/-- A recursive rule is its body, with the rule itself for shorter texts. -/
theorem run_fix (body : Parser α → Parser α) (s : List Char) :
    run (fix body) s = run (body (below s.length (fix body))) s := by
  conv => lhs; unfold run
  rw [fix_eq]
  rfl

end TsxCompiler.Peg.Parser
