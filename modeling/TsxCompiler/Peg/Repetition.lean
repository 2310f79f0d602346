import TsxCompiler.Peg.Parser

/-!
# Repetition

Values in a row, with or without something between them. Every repetition ends because it goes on
only from a cursor with fewer characters left; the rules of the grammar all read at least one
character, so that never cuts one short.
-/

namespace TsxCompiler.Peg.Parser

variable {α β : Type}

/-- Reads values as long as there are any. The failure that ended the row is remembered. -/
def many (p : Parser α) : Parser (List α) := fun c =>
  match p c with
  | .fail failure => .ok [] c (some failure)
  | .ok value next met =>
    if next.left < c.left then
      match many p next with
      | .ok values last met' => .ok (value :: values) last (Failure.merge met met')
      | .fail failure => .fail failure
    else .ok [value] next met
termination_by c => c.left

/-- Reads one value or more. -/
def many1 (p : Parser α) : Parser (List α) := fun c =>
  match many p c with
  | .ok [] _ (some failure) => .fail failure
  | outcome => outcome

/-- Skips characters up to and including what `p` reads. -/
def skipUntil (p : Parser α) : Parser Unit := fun c =>
  match p c with
  | .ok _ next met => .ok () next met
  | .fail failure =>
    match c.next? with
    | none => .fail failure
    | some (_, next) =>
      if next.left < c.left then
        match skipUntil p next with
        | .ok _ last met => .ok () last (Failure.merge (some failure) met)
        | .fail later => .fail later
      else .fail failure
termination_by c => c.left

/-! ## Lists with separators -/

/-- Values read in a row, where the row ended, the best failure met and the one that ended it. -/
structure Row (α : Type) where
  values : List α
  stop : Cursor
  met : Option Failure
  ended : Failure

/-- The values that follow in a list, each after a separator. A separator with no value behind it
is not read. -/
def followers (sep : Parser β) (p : Parser α) (c : Cursor) : Row α :=
  match sep c with
  | .fail failure => ⟨[], c, none, failure⟩
  | .ok _ mid met =>
    match p mid with
    | .fail failure => ⟨[], c, met, failure⟩
    | .ok value next met' =>
      if next.left < c.left then
        let row := followers sep p next
        ⟨value :: row.values, row.stop, Failure.merge (Failure.merge met met') row.met, row.ended⟩
      else ⟨[value], next, Failure.merge met met', .unexpected next.left none []⟩
termination_by c.left

/-- The values of a list from its first one on. -/
def rowOf (sep : Parser β) (p : Parser α) (c : Cursor) : Row α :=
  match p c with
  | .fail failure => ⟨[], c, none, failure⟩
  | .ok value next met =>
    let row := followers sep p next
    ⟨value :: row.values, row.stop, Failure.merge met row.met, row.ended⟩

/-- Reads values with separators between them, possibly none. -/
def sepBy (sep : Parser β) (p : Parser α) : Parser (List α) := fun c =>
  let row := rowOf sep p c
  .ok row.values row.stop (Failure.merge row.met (some row.ended))

/-- Reads at least one value, with separators between them. -/
def sepBy1 (sep : Parser β) (p : Parser α) : Parser (List α) := fun c =>
  let row := rowOf sep p c
  if row.values.isEmpty then .fail row.ended
  else .ok row.values row.stop (Failure.merge row.met (some row.ended))

/-- Reads values with separators between them, and one more separator if it is there. -/
def sepByTrailing (sep : Parser β) (p : Parser α) : Parser (List α) := fun c =>
  let row := rowOf sep p c
  if row.values.isEmpty then .ok [] c (Failure.merge row.met (some row.ended))
  else
    match sep row.stop with
    | .ok _ next met =>
      .ok row.values next (Failure.merge (Failure.merge row.met met) (some row.ended))
    | .fail failure =>
      .ok row.values row.stop
        (Failure.merge (Failure.merge row.met (some failure)) (some row.ended))

end TsxCompiler.Peg.Parser
