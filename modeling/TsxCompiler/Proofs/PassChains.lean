import TsxCompiler.Pipeline.Engine
import TsxCompiler.Proofs.ModuleTexts

/-!
# Chains of passes

A run threads one module through the passes of its configuration. `Pass.after` says which module
stands before each of them, counted from the front and without a word about failures;
`Pass.RefusesAt` says which pass ends the chain. Passes are called in a monad that puts every call
on record, so what was applied is what was called, as often as it was. A chain either comes to one
refusing pass, which is the last it applies, or applies all of them (`applyAll_of_refusesAt`,
`applyAll_of_after`).

* `Engine.run_followsPasses` — what a run does with its passes, for every reader and every emitter,
  and what a pass that changes nothing adds to it.
-/

namespace TsxCompiler

variable {ctx : RunContext} {pass : Pass} {passes rest : List Pass} {program last : Program}
  {cause : PassError}

/-! ## The modules between the passes -/

/-- What the first passes of a list make of a module one after the other, if each of them is there
and none of them refuses. -/
def Pass.after (ctx : RunContext) (passes : List Pass) (program : Program) : Nat → Option Program
  | 0 => some program
  | k + 1 => do
    let before ← Pass.after ctx passes program k
    let pass ← passes[k]?
    (pass.apply before ctx).toOption

/-- The pass at an index is the first that refuses: those before it made a module, and it says why
it will not have that one. -/
def Pass.RefusesAt (ctx : RunContext) (passes : List Pass) (program : Program) (index : Nat)
    (pass : Pass) (cause : PassError) : Prop :=
  passes[index]? = some pass ∧
    ∃ before, Pass.after ctx passes program index = some before ∧
      pass.apply before ctx = .error cause

/-- The first pass of a list is applied to the module, and the others to what it made of it. -/
theorem after_cons (ctx : RunContext) (pass : Pass) (rest : List Pass) (program : Program)
    (k : Nat) :
    Pass.after ctx (pass :: rest) program (k + 1) =
      (pass.apply program ctx).toOption.bind fun next => Pass.after ctx rest next k := by
  induction k with
  | zero =>
    simp only [Pass.after, Option.bind_eq_bind, Option.bind_some, List.getElem?_cons_zero]
    cases (pass.apply program ctx).toOption <;> rfl
  | succ k ih =>
    rw [Pass.after, ih]
    cases (pass.apply program ctx).toOption <;> simp [Pass.after]

theorem after_cons_ok {next : Program} (h : pass.apply program ctx = .ok next) (k : Nat) :
    Pass.after ctx (pass :: rest) program (k + 1) = Pass.after ctx rest next k := by
  rw [after_cons, h]
  rfl

theorem after_cons_error (h : pass.apply program ctx = .error cause) (k : Nat) :
    Pass.after ctx (pass :: rest) program (k + 1) = none := by
  rw [after_cons, h]
  rfl

/-- Behind a pass that goes through, the chain is refused where the rest of it is. -/
theorem refusesAt_cons_ok {next : Program} (h : pass.apply program ctx = .ok next) {i : Nat}
    {refusing : Pass} :
    Pass.RefusesAt ctx (pass :: rest) program (i + 1) refusing cause ↔
      Pass.RefusesAt ctx rest next i refusing cause := by
  simp only [Pass.RefusesAt, List.getElem?_cons_succ, after_cons_ok h]

/-- Behind a pass that refuses, no other one does. -/
theorem refusesAt_cons_error (h : pass.apply program ctx = .error cause) {i : Nat} {refusing : Pass}
    {cause' : PassError} (hi : Pass.RefusesAt ctx (pass :: rest) program i refusing cause') :
    i = 0 ∧ refusing = pass ∧ cause' = cause := by
  obtain ⟨hpass, before, hbefore, hcause⟩ := hi
  cases i with
  | zero =>
    simp only [List.getElem?_cons_zero, Option.some.injEq] at hpass
    simp only [Pass.after, Option.some.injEq] at hbefore
    subst hpass hbefore
    rw [h] at hcause
    exact ⟨rfl, rfl, (Except.error.inj hcause).symm⟩
  | succ i =>
    rw [after_cons_error h] at hbefore
    cases hbefore

/-! ## What a chain does -/

theorem applyAll_nil (ctx : RunContext) (start : Nat) (program : Program) :
    Pass.applyAll ctx start [] program = ⟨[], .ok program⟩ :=
  rfl

theorem run_callAll_cons_error (h : pass.apply program ctx = .error cause) (start : Nat)
    (log : List Pass) :
    (Pass.callAll (Pass.call ctx) start (pass :: rest) program).run log =
      (.error (.pass start pass.name cause), log ++ [pass]) := by
  simp only [Pass.callAll, Pass.call, h]
  rfl

theorem run_callAll_cons_ok {next : Program} (h : pass.apply program ctx = .ok next) (start : Nat)
    (log : List Pass) :
    (Pass.callAll (Pass.call ctx) start (pass :: rest) program).run log =
      (Pass.callAll (Pass.call ctx) (start + 1) rest next).run (log ++ [pass]) := by
  simp only [Pass.callAll, Pass.call, h]
  rfl

/-- What is on record before a chain stays in front of what the chain adds. -/
theorem run_callAll (start : Nat) (passes : List Pass) (program : Program) (log : List Pass) :
    (Pass.callAll (Pass.call ctx) start passes program).run log =
      ((Pass.applyAll ctx start passes program).outcome,
        log ++ (Pass.applyAll ctx start passes program).applied) := by
  induction passes generalizing start program log with
  | nil =>
    rw [applyAll_nil, List.append_nil]
    rfl
  | cons pass rest ih =>
    rw [Pass.applyAll]
    cases happly : pass.apply program ctx with
    | error cause => simp only [run_callAll_cons_error happly, List.nil_append]
    | ok next => simp only [run_callAll_cons_ok happly, ih, List.nil_append, List.append_assoc]

/-- A pass that refuses is called, and none behind it. -/
theorem applyAll_cons_error (h : pass.apply program ctx = .error cause) (start : Nat) :
    Pass.applyAll ctx start (pass :: rest) program =
      ⟨[pass], .error (.pass start pass.name cause)⟩ := by
  rw [Pass.applyAll, run_callAll_cons_error h]
  rfl

/-- A pass that goes through is called once, before those behind it. -/
theorem applyAll_cons_ok {next : Program} (h : pass.apply program ctx = .ok next) (start : Nat) :
    Pass.applyAll ctx start (pass :: rest) program =
      ⟨pass :: (Pass.applyAll ctx (start + 1) rest next).applied,
        (Pass.applyAll ctx (start + 1) rest next).outcome⟩ := by
  rw [Pass.applyAll, run_callAll_cons_ok h, run_callAll]
  rfl

/-- A chain that is refused ends there: the passes up to the refusing one are applied, and none
behind it. -/
theorem applyAll_of_refusesAt {i : Nat} (h : Pass.RefusesAt ctx passes program i pass cause)
    (start : Nat) :
    Pass.applyAll ctx start passes program =
      ⟨passes.take (i + 1), .error (.pass (start + i) pass.name cause)⟩ := by
  induction passes generalizing i program start with
  | nil => simp [Pass.RefusesAt] at h
  | cons first rest ih =>
    cases happly : first.apply program ctx with
    | error cause' =>
      obtain ⟨rfl, rfl, rfl⟩ := refusesAt_cons_error happly h
      simp [applyAll_cons_error happly]
    | ok next =>
      cases i with
      | zero =>
        obtain ⟨hpass, before, hbefore, hcause⟩ := h
        simp only [List.getElem?_cons_zero, Option.some.injEq] at hpass
        simp only [Pass.after, Option.some.injEq] at hbefore
        subst hpass hbefore
        rw [happly] at hcause
        cases hcause
      | succ i =>
        have hrest := ih ((refusesAt_cons_ok happly).1 h) (start + 1)
        have hindex : start + 1 + i = start + (i + 1) := by omega
        simp [applyAll_cons_ok happly, hrest, hindex]

/-- A chain that nothing refuses applies every pass and makes what they make together. -/
theorem applyAll_of_after (h : Pass.after ctx passes program passes.length = some last)
    (start : Nat) : Pass.applyAll ctx start passes program = ⟨passes, .ok last⟩ := by
  induction passes generalizing program start with
  | nil =>
    simp only [List.length_nil, Pass.after, Option.some.injEq] at h
    rw [applyAll_nil, h]
  | cons first rest ih =>
    cases happly : first.apply program ctx with
    | error cause =>
      rw [List.length_cons, after_cons_error happly] at h
      cases h
    | ok next =>
      rw [List.length_cons, after_cons_ok happly] at h
      simp [applyAll_cons_ok happly, ih h (start + 1)]

/-- One of the two happens. -/
theorem refusesAt_or_after (ctx : RunContext) (passes : List Pass) (program : Program) :
    (∃ i pass cause, Pass.RefusesAt ctx passes program i pass cause) ∨
      ∃ last, Pass.after ctx passes program passes.length = some last := by
  induction passes generalizing program with
  | nil => exact .inr ⟨program, rfl⟩
  | cons first rest ih =>
    cases happly : first.apply program ctx with
    | error cause => exact .inl ⟨0, first, cause, rfl, program, rfl, happly⟩
    | ok next =>
      rcases ih next with ⟨i, pass, cause, h⟩ | ⟨last, h⟩
      · exact .inl ⟨i + 1, pass, cause, (refusesAt_cons_ok happly).2 h⟩
      · exact .inr ⟨last, by rw [List.length_cons, after_cons_ok happly, h]⟩

/-- A chain fails with a pass exactly where that pass is the first to refuse. -/
theorem applyAll_outcome_iff {i : Nat} {name : String} :
    (Pass.applyAll ctx 0 passes program).outcome = .error (.pass i name cause) ↔
      ∃ pass, Pass.RefusesAt ctx passes program i pass cause ∧ pass.name = name := by
  constructor
  · intro h
    rcases refusesAt_or_after ctx passes program with ⟨j, pass, cause', hj⟩ | ⟨last, hlast⟩
    · rw [applyAll_of_refusesAt hj] at h
      simp only [Nat.zero_add, Except.error.injEq, Failure.pass.injEq] at h
      obtain ⟨rfl, rfl, rfl⟩ := h
      exact ⟨pass, hj, rfl⟩
    · rw [applyAll_of_after hlast] at h
      cases h
  · rintro ⟨pass, h, rfl⟩
    rw [applyAll_of_refusesAt h, Nat.zero_add]

/-! ## A pass that changes nothing -/

theorem mapError_ok {ε ε' α : Type} (f : ε → ε') (a : α) :
    (Except.ok a : Except ε α).mapError f = .ok a := rfl

theorem mapError_error {ε ε' α : Type} (f : ε → ε') (e : ε) :
    (Except.error e : Except ε α).mapError f = .error (f e) := rfl

/-- A failure as it is reported once a pass has been put in at a position: passes from there on are
one further back. -/
def Failure.movedFrom (position : Nat) : Failure → Failure
  | .pass index name cause => .pass (if position ≤ index then index + 1 else index) name cause
  | failure => failure

/-- Counting the passes from one more moves every failure. -/
theorem applyAll_succ (ctx : RunContext) (start : Nat) (passes : List Pass) (program : Program) :
    (Pass.applyAll ctx (start + 1) passes program).applied =
        (Pass.applyAll ctx start passes program).applied ∧
      (Pass.applyAll ctx (start + 1) passes program).outcome =
        (Pass.applyAll ctx start passes program).outcome.mapError (Failure.movedFrom start) := by
  rcases refusesAt_or_after ctx passes program with ⟨i, pass, cause, h⟩ | ⟨last, h⟩
  · have hindex : start + 1 + i = start + i + 1 := by omega
    simp [applyAll_of_refusesAt h, mapError_error, Failure.movedFrom, hindex]
  · simp [applyAll_of_after h, mapError_ok]

/-- A failure in front of the position stays where it is. -/
theorem movedFrom_of_lt {position index : Nat} {name : String} (h : index < position) :
    Failure.movedFrom position (.pass index name cause) = .pass index name cause := by
  simp [Failure.movedFrom, Nat.not_le.2 h]

/-- A pass that changes nothing is applied where it stands, if the chain comes that far, and is
noticed only by the indices behind it. -/
theorem applyAll_insertIdx (hpass : ∀ program, pass.apply program ctx = .ok program) (k start : Nat)
    (passes : List Pass) (program : Program) :
    (Pass.applyAll ctx start (passes.insertIdx k pass) program).applied.eraseIdx k =
        (Pass.applyAll ctx start passes program).applied ∧
      (Pass.applyAll ctx start (passes.insertIdx k pass) program).outcome =
        (Pass.applyAll ctx start passes program).outcome.mapError
          (Failure.movedFrom (start + k)) := by
  induction k generalizing start passes program with
  | zero =>
    obtain ⟨happlied, houtcome⟩ := applyAll_succ ctx start passes program
    simp [applyAll_cons_ok (hpass program), happlied, houtcome]
  | succ k ih =>
    cases passes with
    | nil => simp [applyAll_nil, mapError_ok]
    | cons first rest =>
      rw [List.insertIdx_succ_cons]
      cases happly : first.apply program ctx with
      | error cause =>
        have hlt : start < start + (k + 1) := by omega
        simp [applyAll_cons_error happly, mapError_error, movedFrom_of_lt hlt]
      | ok next =>
        obtain ⟨happlied, houtcome⟩ := ih (start + 1) rest next
        have hposition : start + 1 + k = start + (k + 1) := by omega
        simp [applyAll_cons_ok happly, happlied, houtcome, hposition]

/-! ## Runs -/

namespace Engine

variable {engine : Engine} {config : Config} {text : String}

theorem run_of_parse_error {cause : ParseError}
    (h : engine.parse config.dialect text = .error cause) :
    engine.run config ctx text = ⟨[], .error (.parse cause)⟩ := by
  simp [run, h]

theorem run_of_parse_ok (h : engine.parse config.dialect text = .ok program) :
    engine.run config ctx text =
      ⟨(Pass.applyAll ctx 0 config.passes program).applied,
        (Pass.applyAll ctx 0 config.passes program).outcome.bind fun last =>
          (engine.emit config.emit last).mapError Failure.emit⟩ := by
  simp only [run, h]
  congr 1
  cases (Pass.applyAll ctx 0 config.passes program).outcome with
  | error failure => rfl
  | ok last =>
    cases hemit : engine.emit config.emit last <;>
      simp [bind, Except.bind, hemit, mapError_ok, mapError_error]

/-- Only a pass makes a run fail with a pass. -/
theorem run_outcome_pass_iff (h : engine.parse config.dialect text = .ok program) {i : Nat}
    {name : String} :
    (engine.run config ctx text).outcome = .error (.pass i name cause) ↔
      (Pass.applyAll ctx 0 config.passes program).outcome = .error (.pass i name cause) := by
  rw [run_of_parse_ok h]
  cases (Pass.applyAll ctx 0 config.passes program).outcome with
  | error failure => simp [Except.bind]
  | ok last =>
    cases hemit : engine.emit config.emit last <;> simp [Except.bind, hemit, mapError_ok, mapError_error]

/-- A pass that changes nothing adds itself to a run and moves the index of a failure behind it. -/
theorem run_insertIdx (hpass : ∀ program, pass.apply program ctx = .ok program) (k : Nat) :
    let more := engine.run { config with passes := config.passes.insertIdx k pass } ctx text
    more.applied.eraseIdx k = (engine.run config ctx text).applied ∧
      more.outcome = (engine.run config ctx text).outcome.mapError (Failure.movedFrom k) := by
  intro more
  cases hparse : engine.parse config.dialect text with
  | error cause =>
    have hmore : more = ⟨[], .error (.parse cause)⟩ := run_of_parse_error hparse
    rw [hmore, run_of_parse_error hparse]
    exact ⟨List.eraseIdx_nil, rfl⟩
  | ok program =>
    obtain ⟨happlied, houtcome⟩ := applyAll_insertIdx hpass k 0 config.passes program
    rw [Nat.zero_add] at houtcome
    have hmore : more = _ := run_of_parse_ok hparse
    rw [hmore, run_of_parse_ok hparse, houtcome]
    refine ⟨happlied, ?_⟩
    cases (Pass.applyAll ctx 0 config.passes program).outcome with
    | error failure => rfl
    | ok last =>
      cases hemit : engine.emit config.emit last <;>
        simp [Except.bind, hemit, mapError_ok, mapError_error, Failure.movedFrom]

/-- What a run does with its passes, whatever reads the text and whatever emits the code.

* A text that cannot be read is reported as the reader reports it, and no pass is applied.
* Otherwise the run fails with a pass exactly where that pass is the first to refuse the module that
  the passes before it made; up to there each pass is applied once and in order, and none behind it.
* If no pass refuses, every pass is applied, and the result is what the emitter makes of the last
  module.
* A pass that changes nothing may be put in anywhere: beside itself, the same passes are applied,
  and the outcome is the same but for the index of a failure at or behind its position. -/
theorem run_followsPasses (engine : Engine) (config : Config) (ctx : RunContext) (text : String) :
    (∀ cause, engine.parse config.dialect text = .error cause →
      engine.run config ctx text = ⟨[], .error (.parse cause)⟩) ∧
    (∀ program, engine.parse config.dialect text = .ok program →
      (∀ i name cause, (engine.run config ctx text).outcome = .error (.pass i name cause) ↔
        ∃ pass, Pass.RefusesAt ctx config.passes program i pass cause ∧ pass.name = name) ∧
      (∀ i pass cause, Pass.RefusesAt ctx config.passes program i pass cause →
        (engine.run config ctx text).applied = config.passes.take (i + 1)) ∧
      ((∀ i pass cause, ¬Pass.RefusesAt ctx config.passes program i pass cause) →
        ∃ last, Pass.after ctx config.passes program config.passes.length = some last ∧
          engine.run config ctx text =
            ⟨config.passes, (engine.emit config.emit last).mapError Failure.emit⟩)) ∧
    (∀ pass : Pass, (∀ program, pass.apply program ctx = .ok program) → ∀ k,
      let more := engine.run { config with passes := config.passes.insertIdx k pass } ctx text
      more.applied.eraseIdx k = (engine.run config ctx text).applied ∧
        more.outcome = (engine.run config ctx text).outcome.mapError (Failure.movedFrom k)) := by
  refine ⟨fun cause h => run_of_parse_error h, fun program h => ⟨?_, ?_, ?_⟩,
    fun pass hpass k => run_insertIdx hpass k⟩
  · intro i name cause
    rw [run_outcome_pass_iff h, applyAll_outcome_iff]
  · intro i pass cause hrefuses
    rw [run_of_parse_ok h, applyAll_of_refusesAt hrefuses]
  · intro hnone
    -- a pass refuses, or all of them give a program
    rcases refusesAt_or_after ctx config.passes program with ⟨i, pass, cause, hi⟩ | ⟨last, hlast⟩
    · exact absurd hi (hnone i pass cause)
    · refine ⟨last, hlast, ?_⟩
      rw [run_of_parse_ok h, applyAll_of_after hlast]
      rfl

/-- Two passes that change nothing around one that refuses every module. -/
def rejecting : Config :=
  { Config.standard with
    passes := [.identity, ⟨"reject", [], fun _ _ => .error ⟨"nope"⟩⟩, .identity] }

theorem run_followsPasses_rejecting :
    let ctx : RunContext := ⟨"run", false, none, "input.tsx"⟩
    (Engine.standard.run rejecting ctx "a;").outcome = .error (.pass 1 "reject" ⟨"nope"⟩) ∧
      (Engine.standard.run rejecting ctx "a;").applied = rejecting.passes.take 2 ∧
      (Engine.standard.run { rejecting with passes := rejecting.passes.insertIdx 1 .identity } ctx
        "a;").outcome = .error (.pass 2 "reject" ⟨"nope"⟩) := by
  intro ctx
  have hread : (Engine.standard.parse rejecting.dialect "a;").toOption.isSome = true := by
    decide +kernel
  obtain ⟨program, hprogram⟩ := Option.isSome_iff_exists.1 hread
  have hparse := eq_ok_of_toOption hprogram
  obtain ⟨-, hpasses, hidentity⟩ := run_followsPasses Engine.standard rejecting ctx "a;"
  obtain ⟨hfails, happlied, -⟩ := hpasses program hparse
  have hrefuses : Pass.RefusesAt ctx rejecting.passes program 1
      ⟨"reject", [], fun _ _ => .error ⟨"nope"⟩⟩ ⟨"nope"⟩ := ⟨rfl, program, rfl, rfl⟩
  have houtcome := (hfails 1 "reject" ⟨"nope"⟩).2 ⟨_, hrefuses, rfl⟩
  refine ⟨houtcome, happlied 1 _ _ hrefuses, ?_⟩
  rw [(hidentity .identity (fun _ => rfl) 1).2, houtcome]
  rfl

end Engine

end TsxCompiler
