import Mathlib.Data.List.Forall2
import TsxCompiler.Pass.Refresh
import TsxCompiler.Proofs.SignedBlocks

/-!
# What fast refresh does to the items of a module

Instrumenting a module puts statements before and behind its items, and a signature in front of one
block of an item at most; it changes nothing else (`Refresh.instrument_onlyAdds`).
-/

namespace TsxCompiler

/-! ## Signed items -/

/-- The second item is the first one with a signature as the first statement of one block; without
the signature it is the first item again. -/
def Item.SignedAs (old new : Item) : Prop :=
  ∃ f : List Stmt → Item, OpenBlock f ∧
    (∃ stmts, f stmts = old ∧ f (signatureCall :: stmts) = new) ∧
    ∀ stmts, f (signatureCall :: stmts) = new → f stmts = old

theorem OpenBlock.signedAs {f : List Stmt → Item} (hf : OpenBlock f) (stmts : List Stmt) :
    (f stmts).SignedAs (f (signatureCall :: stmts)) := by
  refine ⟨f, hf, ⟨stmts, rfl, rfl⟩, fun others hothers => ?_⟩
  have heq := hf.injective hothers
  rw [List.cons.injEq] at heq
  rw [heq.2]

/-- Signing leaves an item alone or signs a block of it, and an empty block is never signed. -/
theorem Item.sign_frame (item : Item) :
    (item.sign.1 = item ∨ item.SignedAs item.sign.1) ∧
      (item.sign.2.isEmpty = true → item.sign.1 = item) := by
  rcases item.sign_spec with hsame | ⟨f, stmts, hf, rfl, hsign⟩
  · simp [hsame]
  · by_cases hhooks : (blockHooks stmts).isEmpty = true
    · simp [hsign, signBlock, hhooks]
    · have hsigned : signBlock stmts = signatureCall :: stmts := by
        rw [signBlock, if_neg hhooks]
      rw [hsign, hsigned]
      refine ⟨.inr (hf.signedAs stmts), fun hempty => ?_⟩
      -- an empty block calls no hooks
      obtain rfl : stmts = [] := by simpa [BodyScan.ofBlock] using hempty
      exact absurd rfl hhooks

namespace Refresh

/-- Each item stays or gets one signature; if no component is registered, all stay. -/
theorem signAll_frame (skip : List String) (items : List Item) :
    List.Forall₂ (fun old new => new = old ∨ old.SignedAs new) items (signAll skip items).1 ∧
      ((signAll skip items).2 = [] → (signAll skip items).1 = items) := by
  induction items generalizing skip with
  | nil => exact ⟨.nil, fun _ => rfl⟩
  | cons item rest ih =>
    obtain ⟨hkept, hempty⟩ := item.sign_frame
    rw [signAll]
    split
    · obtain ⟨hrest, hnone⟩ := ih skip
      exact ⟨.cons (.inl rfl) hrest, fun hall => congrArg (item :: ·) (hnone hall)⟩
    · rename_i name _
      by_cases hblock : item.sign.2.isEmpty = true
      · obtain ⟨hrest, hnone⟩ := ih skip
        simp only [hblock, if_true]
        refine ⟨.cons hkept hrest, fun hall => ?_⟩
        rw [hempty hblock, hnone hall]
      · simp only [hblock]
        exact ⟨.cons hkept (ih (name :: skip)).1, fun hall => absurd hall (List.cons_ne_nil _ _)⟩

/-- Items in the module that registers some components. -/
def registering (moduleId : String) (items : List Item) (components : List Component) : Program :=
  if components.isEmpty then ⟨items⟩
  else
    ⟨(prologue components).map Item.stmt ++ items ++ (epilogue moduleId components).map Item.stmt⟩

theorem instrument_eq (moduleId : String) (p : Program) :
    instrument moduleId p = registering moduleId (signAll p.ignoredComponents p.body).1
      (signAll p.ignoredComponents p.body).2 :=
  rfl

/-- Fast refresh only adds to a module: it leaves the module as it is, or it puts its own statements
in front of the items and behind them, and each item stays what it was but for a signature at the
start of one of its blocks. -/
theorem instrument_onlyAdds (moduleId : String) (p : Program) :
    instrument moduleId p = p ∨
      ∃ (components : List Component) (items : List Item),
        (instrument moduleId p).body = (prologue components).map Item.stmt ++ items ++
          (epilogue moduleId components).map Item.stmt ∧
        items.length = p.body.length ∧
        ∀ (i : Nat) (old new : Item), p.body[i]? = some old → items[i]? = some new →
          new = old ∨ old.SignedAs new := by
  obtain ⟨hitems, hnone⟩ := signAll_frame p.ignoredComponents p.body
  rw [instrument_eq, registering]
  split
  · rename_i hempty
    refine .inl ?_
    rw [hnone (List.isEmpty_iff.1 hempty)]
  · refine .inr ⟨_, _, rfl, hitems.length_eq.symm, fun i old new hold hnew => ?_⟩
    obtain ⟨hi, rfl⟩ := List.getElem?_eq_some_iff.1 hold
    obtain ⟨hi', rfl⟩ := List.getElem?_eq_some_iff.1 hnew
    exact hitems.get hi hi'

end Refresh

end TsxCompiler
