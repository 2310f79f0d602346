import TsxCompiler.Proofs.SettledStatements

/-!
# Modules that were read are read back

The printed text of a module that was read is read as the settled module, line by line
(`run_program_print`): items that nothing is printed for are gone, and each of the others is read
back from its line.
-/

namespace TsxCompiler.Grammar

open Peg Peg.Parser Text

variable {d : Dialect} {Good : List Char → Prop}

/-! ## Items -/

/-- The text of an item: it is read as the item in front of all but an `else`. -/
def ItemText (d : Dialect) (Good : List Char → Prop) (x : Item) (text : String) : Prop :=
  LineText Good (fun t => run (keyword "else") t = none) (moduleItem d) x text

/-- An item that is printed as one line and read back from it. -/
def ItemReads (d : Dialect) (Good : List Char → Prop) (x : Item) : Prop :=
  ∃ text, x.print = Print.line text 0 ∧ ItemText d Good x text

theorem itemReads_stmt {s : Stmt} (hkept : s.isErased = false)
    (h : StatementText d Good s (s.print 0)) : ItemReads d Good (.stmt s) := by
  refine ⟨s.print 0, ?_, h.skip_append, h.words "else" (by decide), fun rest hnext hgood => ?_⟩
  · rw [Item.print, Stmt.asLine, hkept, if_neg Bool.false_ne_true]
  · exact run_moduleItem_stmt (h.words "import" (by decide) _) (h.words "export" (by decide) _)
      (h.reads rest hnext hgood)

/-- The settled item is read from its line. -/
def SettledItem (d : Dialect) (Good : List Char → Prop) (x : Item) : Prop :=
  x.isErased = false → AllNodes StableNode x.nodes → ItemReads d Good x.settled

section Items

variable (hG : BraceClass d Good) (hS : SuffixClosed Good)
include hG hS

/-- The text of an item that was read is read as its settled item, unless nothing is printed for
it. -/
theorem yields_settledItem : Yields (SettledItem d Good) (moduleItem d) := by
  refine .choice ((Yields.trivial _).map fun _ _ _ hnodes =>
      (Bool.false_ne_true hnodes.head.stable).elim)
    (.choice ((Yields.trivial _).map fun _ _ _ hnodes =>
        (Bool.false_ne_true hnodes.head.stable).elim)
      ((yields_settledStatement hG hS).map fun s hs herased hnodes => ?_))
  rw [Item.settled_stmt]
  exact itemReads_stmt (s.settled_alike.isErased.trans herased) ((hs hnodes.tail).text herased 0)

omit hG in
/-- Items with a line each are read line by line. -/
theorem run_program_itemLines {items : List Item} (h : ∀ x ∈ items, ItemReads d Good x)
    (hgood : Good (String.join (items.map Item.print)).toList) :
    run (program d) (String.join (items.map Item.print)).toList = some (⟨items⟩, []) := by
  have hline : ∀ x, ∃ text, x ∈ items → x.print = Print.line text 0 ∧ ItemText d Good x text := by
    intro x
    by_cases hx : x ∈ items
    · obtain ⟨text, htext⟩ := h x hx
      exact ⟨text, fun _ => htext⟩
    · exact ⟨"", fun h => absurd h hx⟩
  obtain ⟨text, htext⟩ := Classical.skolem.1 hline
  have hlines : String.join (items.map Item.print) = linesOf (items.map text) 0 := by
    rw [linesOf, List.map_map]
    congr 1
    exact List.map_congr_left fun x hx => (htext x hx).1
  rw [hlines] at hgood ⊢
  rw [← List.append_nil (linesOf _ _).toList] at hgood ⊢
  obtain ⟨-, hread⟩ := run_lines hS (fun x hx => (htext x hx).2) (by simp)
    (by rw [skip_nil, run_moduleItem_nil]) hgood
  rw [skip_nil] at hread
  exact run_program_items hread

/-- The text of a module that was read is read as the settled module. -/
theorem run_program_print {s r : List Char} {p : Program} (h : run (program d) s = some (p, r))
    (hnodes : AllNodes StableNode p.nodes) (hgood : Good p.print.toList) :
    run (program d) p.print.toList = some (p.settled, []) := by
  obtain ⟨items, hread, rfl⟩ := run_map_inv h
  obtain ⟨_, t, hread, -⟩ := run_thenSkip_inv hread
  obtain ⟨_, u, -, hread⟩ := run_skipThen_inv hread
  have hitems := (yields_settledItem hG hS).many u items t hread
  rw [Program.nodes, allNodes_flatMap] at hnodes
  rw [← Program.print_settled] at hgood ⊢
  refine run_program_itemLines hS (fun x hx => ?_) hgood
  obtain ⟨hx, hkept⟩ := List.mem_filter.1 hx
  obtain ⟨y, hy, rfl⟩ := List.mem_map.1 hx
  rw [y.isErased_settled] at hkept
  exact hitems y hy (by simpa using hkept) (hnodes y hy)

end Items

end TsxCompiler.Grammar
