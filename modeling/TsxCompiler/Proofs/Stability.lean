import TsxCompiler.Pipeline.Engine
import TsxCompiler.Proofs.SettledModules

/-!
# Printing what was printed

A run that keeps modules and markup as they are reads a module and prints it. Its output is a
module again, and one would expect the run to leave that as it is. Of a module of statements without
classes it does, with the exceptions that the text shows:

* the callee of a `new` holds a call or another `new` in its front (`Node.isStable`), and its text
  takes the arguments for its own;
* a statement starts with `let[` (`Node.isStable`), and the text is read as a declaration;
* in TypeScript, the `:` of a conditional reads as an annotation in front of an arrow
  (`colonsApart`);
* the braces that branches get nest too deep.

`reprint_stable` — nothing else changes such a module when it is printed again.
-/

namespace TsxCompiler

open Grammar Peg Peg.Parser

/-- What a run without passes makes of a text when it keeps modules and markup as they are. -/
def reprint (d : Dialect) (options : EmitOptions) (ctx : RunContext) (text : String) :
    Except Failure String :=
  (Engine.standard.run ⟨d, [], { options with format := .esModule, markup := .preserve }⟩ ctx
    text).outcome

theorem reprint_eq (d : Dialect) (options : EmitOptions) (ctx : RunContext) (text : String) :
    reprint d options ctx text =
      match Program.parse d text with
      | .ok p => .ok p.print
      | .error cause => .error (.parse cause) := by
  simp only [reprint, Engine.run, Engine.standard]
  cases Program.parse d text <;> rfl

/-- A `new` in the callee of another `new` loses its parentheses, and what is printed is no module
any more. -/
theorem reprint_nested_new :
    (reprint .tsx .standard ⟨"run", false, none, "input.tsx"⟩ "new (new a)()").toOption =
      some "new new a()();\n" ∧
    (reprint .tsx .standard ⟨"run", false, none, "input.tsx"⟩ "new new a()();\n").toOption =
      none := by
  decide +kernel

/-! ## Colons -/

/-- Whether the colon that a text may start with stands in front of a type and an arrow. -/
def colonTaken (d : Dialect) : List Char → Bool
  | ' ' :: ':' :: ' ' :: s => (run ((ascription d).thenSkip (sym "=>")) (':' :: ' ' :: s)).isSome
  | _ => false

/-- No colon between blanks in a text stands in front of a type and an arrow. -/
def colonsApart (d : Dialect) : List Char → Bool
  | [] => true
  | c :: s => !colonTaken d (c :: s) && colonsApart d s

theorem suffixClosed_colonsApart (d : Dialect) : SuffixClosed fun s => colonsApart d s = true := by
  intro w s h
  induction w with
  | nil => exact h
  | cons c w ih =>
    rw [List.cons_append, colonsApart, Bool.and_eq_true] at h
    exact ih h.2

theorem run_ascription_of_colonsApart {d : Dialect} {s : List Char}
    (h : colonsApart d (' ' :: ':' :: ' ' :: s) = true) :
    run ((ascription d).thenSkip (sym "=>")) (':' :: ' ' :: s) = none := by
  rw [colonsApart, Bool.and_eq_true] at h
  simpa [colonTaken] using h.1

/-- Outside TypeScript there are no annotations. -/
theorem run_ascription_untyped {d : Dialect} (hd : d.isTypeScript = false) (s : List Char) :
    run ((ascription d).thenSkip (sym "=>")) (':' :: s) = none := by
  rw [ascription, whenTyped, if_neg (by simp [hd]), run_thenSkip, run_succeed, Option.bind_some,
    run_sym_none "=>" rfl (by decide)]
  rfl

/-! ## Stability -/

theorem Node.IsLexed.of_wellFormed {n : Node} (h : n.WellFormed) : n.IsLexed := by
  cases n with
  | expr e =>
    cases e with
    | ident => exact h
    | lit value =>
      cases value with
      | number => exact h
      | string lit =>
        obtain ⟨value, raw⟩ := lit
        intro text htext
        obtain rfl : raw = some text := htext
        exact ⟨value, h⟩
      | _ => trivial
    | _ => trivial
  | _ => trivial

/-- The text of a module whose nodes are stable is read as the settled module, if it does not nest
too deep. -/
theorem parse_print {d : Dialect} {text : String} {p : Program} (h : Program.parse d text = .ok p)
    (hnodes : ∀ n ∈ p.nodes, n.isStable = true)
    (hcolons : d.isTypeScript = true → colonsApart d p.print.toList = true)
    (hdepth : Nesting.excess p.print.toList = none) : Program.parse d p.print = .ok p.settled := by
  obtain ⟨r, hread⟩ := run_program_of_parse h
  have hstable : AllNodes StableNode p.nodes := fun n hn =>
    ⟨hnodes n hn, .of_wellFormed (parse_nodes_wellFormed h n hn)⟩
  -- outside TypeScript every text will do
  let Good : List Char → Prop := fun s => d.isTypeScript = true → colonsApart d s = true
  have hS : SuffixClosed Good := fun w s hs hd => suffixClosed_colonsApart d w s (hs hd)
  have hG : BraceClass d Good := hS.braceClass fun {s} hs => by
    cases hd : d.isTypeScript with
    | true => exact run_ascription_of_colonsApart (hs hd)
    | false => exact run_ascription_untyped hd _
  exact parse_of_run_program hdepth (run_program_print hG hS hread hstable hcolons)

/-- A module whose nodes are stable is printed again as it was, as long as its text does not nest too
deep. -/
theorem reprint_stable {d : Dialect} {text : String} {p : Program} (options : EmitOptions)
    (ctx : RunContext) (h : Program.parse d text = .ok p)
    (hnodes : ∀ n ∈ p.nodes, n.isStable = true)
    (hcolons : d.isTypeScript = true → colonsApart d p.print.toList = true) :
    reprint d options ctx text = .ok p.print ∧
      (reprint d options ctx p.print = .ok p.print ↔ Nesting.excess p.print.toList = none) := by
  refine ⟨by rw [reprint_eq, h], fun hagain => ?_, fun hdepth => ?_⟩
  · rw [reprint_eq] at hagain
    cases hread : Program.parse d p.print with
    | ok q => exact excess_of_parse hread
    | error cause =>
      rw [hread] at hagain
      cases hagain
  · rw [reprint_eq, parse_print h hnodes hcolons hdepth]
    exact congrArg Except.ok p.print_settled

/-- A module with branches that get braces, a callee that keeps its parentheses, a doubled sign and
a conditional. -/
def stableSample : String :=
  "function k(\x7b a, c: [b] \x7d) \x7b if (c) return new (a(1))(- -c); " ++
  "else throw c ? 1 : [...a] \x7d\nlet f = async (x = 2) => <b k=\x7b\x7b x \x7d\x7d/>"

theorem reprint_stable_sample :
    ∃ p, Program.parse .tsx stableSample = .ok p ∧ p.nodes.length = 34 ∧
      (∀ n ∈ p.nodes, n.isStable = true) ∧ colonsApart .tsx p.print.toList = true ∧
      reprint .tsx .standard ⟨"run", false, none, "input.tsx"⟩ p.print = .ok p.print := by
  have hsample : (Program.parse .tsx stableSample).toOption.map (fun p =>
      (p.nodes.length, p.nodes.all Node.isStable, colonsApart .tsx p.print.toList,
        (Nesting.excess p.print.toList).isNone)) = some (34, true, true, true) := by
    decide +kernel
  obtain ⟨p, hp, hfacts⟩ := Option.map_eq_some_iff.1 hsample
  simp only [Prod.mk.injEq, List.all_eq_true, Option.isNone_iff_eq_none] at hfacts
  obtain ⟨hlength, hnodes, hcolons, hdepth⟩ := hfacts
  have hparse := eq_ok_of_toOption hp
  have hstable := reprint_stable .standard ⟨"run", false, none, "input.tsx"⟩ hparse hnodes
    fun _ => hcolons
  exact ⟨p, hparse, hlength, hnodes, hcolons, hstable.2.2 hdepth⟩

end TsxCompiler
