import TsxCompiler.Proofs.SettledExpressions
import TsxCompiler.Proofs.StatementTexts

/-!
# Statements that were read are read back

The printed text of a statement that was read is read as its settled statement
(`yields_settledStatement`). The rule for statements is recursive, so this is shown of one round of
it: blocks and functions hold statements, and expressions hold blocks. A branch of an `if` is printed
in braces whatever it was, so next to the text of a statement its text as a block is followed.
-/

namespace TsxCompiler

open Grammar

/-- The statements of a branch. -/
def Stmt.branchBlock : Stmt → List Stmt
  | .block stmts => stmts
  | s => [s]

theorem Stmt.branchBlock_of_isBlock {s : Stmt} (h : s.isBlock = false) : s.branchBlock = [s] := by
  cases s with
  | block => cases h
  | _ => rfl

theorem Stmt.braced_settled (s : Stmt) : s.settled.braced = .block (settledBlock s.branchBlock) := by
  by_cases h : s.isBlock = true
  · match s with
    | .block stmts =>
      rw [settled_block]
      rfl
  · have hplain := eq_false_of_ne_true h
    rw [braced, if_neg (by rw [s.settled_alike.isBlock, hplain]; decide),
      branchBlock_of_isBlock hplain, settledBlock, List.map_singleton]
    cases herased : s.settled.isErased <;> simp [herased]

theorem nodes_declarator {F : Node → Prop} {target : Pattern} {value : Option Expr}
    (h : AllNodes F (Declarator.nodes ⟨target, value⟩)) :
    AllNodes F target.nodes ∧ ∀ e ∈ value, AllNodes F e.nodes := by
  cases value with
  | none => exact ⟨h, by simp⟩
  | some e =>
    refine ⟨h.left, fun x hx => ?_⟩
    obtain rfl : e = x := by simpa using hx
    exact h.right

namespace Grammar

open Peg Peg.Parser Text

variable {d : Dialect} {Good : List Char → Prop}

/-- The settled statement is read from its text, by itself and as a branch. -/
structure SettledStmt (d : Dialect) (Good : List Char → Prop) (s : Stmt) : Prop where
  text : s.isErased = false → ∀ level, StatementText d Good s.settled (s.settled.print level)
  branch : ∀ level, BlockText (blockOf (statement d)) Good (Stmt.settledBlock s.branchBlock)
    (Stmt.printBlock (Stmt.settledBlock s.branchBlock) level)

section Blocks

variable (hS : SuffixClosed Good)
include hS

theorem blockText_settled {stmts : List Stmt}
    (h : ∀ s ∈ stmts, s.isErased = false → ∀ level,
      StatementText d Good s.settled (s.settled.print level)) (level : Nat) :
    BlockText (blockOf (statement d)) Good (Stmt.settledBlock stmts)
      (Stmt.printBlock (Stmt.settledBlock stmts) level) := by
  have hmem : ∀ s ∈ Stmt.settledBlock stmts, ∃ x ∈ stmts, x.isErased = false ∧ s = x.settled := by
    intro s hs
    obtain ⟨hs, hkept⟩ := List.mem_filter.1 hs
    obtain ⟨x, hx, rfl⟩ := List.mem_map.1 hs
    rw [x.settled_alike.isErased] at hkept
    exact ⟨x, hx, by simpa using hkept, rfl⟩
  refine blockText hS (fun s hs => ?_) fun s hs => ?_
  · obtain ⟨x, -, hkept, rfl⟩ := hmem s hs
    rw [x.settled_alike.isErased, hkept]
  · obtain ⟨x, hx, hkept, rfl⟩ := hmem s hs
    exact h x hx hkept (level + 1)

/-- A statement that is no block is a block of its own as a branch. -/
theorem SettledStmt.ofText {s : Stmt} (hblock : s.isBlock = false)
    (h : s.isErased = false → ∀ level, StatementText d Good s.settled (s.settled.print level)) :
    SettledStmt d Good s := by
  refine ⟨h, ?_⟩
  rw [Stmt.branchBlock_of_isBlock hblock]
  refine blockText_settled hS fun x hx => ?_
  obtain rfl : x = s := by simpa using hx
  exact h

omit hS in
theorem SettledStmt.block {stmts : List Stmt}
    (h : ∀ level, BlockText (blockOf (statement d)) Good (Stmt.settledBlock stmts)
      (Stmt.printBlock (Stmt.settledBlock stmts) level)) : SettledStmt d Good (.block stmts) := by
  refine ⟨fun _ level => ?_, h⟩
  rw [Stmt.settled_block, Stmt.print]
  exact statementText_block (h level)

omit hS in
/-- What stands behind `else`. -/
theorem SettledStmt.elseText {s : Stmt} (h : SettledStmt d Good s) (level : Nat) :
    (s.settled.bracedElse.isBlock || s.settled.bracedElse.isBranch) = true ∧
      StatementText d Good s.settled.bracedElse (s.settled.bracedElse.print level) := by
  unfold Stmt.bracedElse
  split
  · rename_i hbranch
    refine ⟨by rw [hbranch, Bool.or_true], h.text ?_ level⟩
    rw [s.settled_alike.isBranch] at hbranch
    match s with
    | .branch _ _ _ => rfl
  · refine ⟨by rw [s.settled.isBlock_braced, Bool.true_or], ?_⟩
    rw [s.braced_settled, Stmt.print]
    exact statementText_block (h.branch level)

end Blocks

/-! ## Declarations -/

section Rules

variable (hG : BraceClass d Good) (hS : SuffixClosed Good) {E : Parser Expr}
  (hE : Yields (Keeps StableNode (SettledExpr d (blockOf (statement d)) Good)) E)
include hG hE

theorem yields_settledVar :
    Yields (fun x => AllNodes StableNode x.nodes → ∀ level,
      DeclText d Good x.settled (x.settled.print level)) (varDecl d E) := by
  have hdeclarator : Yields (fun x => AllNodes StableNode x.nodes → ∀ level,
      EntryText d (blockOf (statement d)) Good
        (declarator d (expression d (blockOf (statement d)))) x.settled (x.settled.print level))
      (declarator d E) := by
    refine ((yields_settledPattern hG hE).thenSkip _).both (yields_settledInitializer hE)
      fun target value htarget hvalue hnodes level => ?_
    obtain ⟨hpattern, hinit⟩ := nodes_declarator hnodes
    rw [Declarator.settled_mk, print_declarator]
    exact entryText_declarator hG.toTextClass (htarget hpattern level) (hvalue hinit level)
  refine ((Yields.trivial _).both (hdeclarator.sepBy1 _)
    fun kind xs _ hxs hnodes level => ?_).thenSkip _
  have hparts := hnodes.tail
  rw [Declarator.nodesAll_eq, allNodes_flatMap] at hparts
  obtain ⟨x, xs, rfl⟩ := List.exists_cons_of_ne_nil hxs.1
  rw [Decl.settled_var, List.map_cons]
  refine declText_var hG.toTextClass kind fun y hy => ?_
  rw [← List.map_cons] at hy
  obtain ⟨z, hz, rfl⟩ := List.mem_map.1 hy
  exact hxs.2 z hz (hparts z hz) level

variable {S : Parser (List Stmt)} (hB : Yields (SettledBlock (blockOf (statement d)) Good) S)
include hS hB

theorem yields_settledRuntimeDecl :
    Yields (fun x => AllNodes StableNode x.nodes → ∀ level,
      DeclText d Good x.settled (x.settled.print level)) (runtimeDecl d E S) := by
  refine .choice (yields_settledVar hG hE)
    (.choice ((yields_settledFunc hG hE hB yields_identifier).map fun x hx hnodes level => ?_)
      ((Yields.trivial _).map fun _ _ hnodes _ => (not_stable_classBody hnodes.tail.tail).elim))
  · obtain ⟨name, isAsync, params, body⟩ := x
    obtain ⟨hname, hparts⟩ := hx
    obtain ⟨hparams, hbody⟩ := hparts hnodes.tail level
    rw [Func.settled_mk] at hparams hbody
    dsimp only
    rw [Decl.settled_func, Func.settled_mk]
    exact declText_func hG.toTextClass hS hname hparams hbody isAsync

/-- The text of a declaration that was read is read as its settled declaration, unless it declares a
type. -/
theorem yields_settledDeclaration :
    Yields (fun x => (Stmt.decl x).isErased = false → AllNodes StableNode x.nodes → ∀ level,
      DeclText d Good x.settled (x.settled.print level)) (declaration d E S) := by
  have hruntime := (yields_settledRuntimeDecl hG hS hE hB).mono
    fun x h (_ : (Stmt.decl x).isErased = false) => h
  unfold declaration
  split
  · exact hruntime.orElse ((Yields.trivial _).map fun name _ herased => by cases herased)
  · exact hruntime

end Rules

/-! ## Statements -/

theorem run_blockOf_open (c : Char) (s : List Char) (h : c ≠ '\x7b') :
    run (blockOf (statement d)) (c :: s) = none :=
  run_blockOf_none (run_sym_none "\x7b" rfl h s)

section Statements

variable (hG : BraceClass d Good) (hS : SuffixClosed Good)
include hS

/-- Blocks of statements that are read back are read back. -/
theorem yields_settledBlock {X : Parser Stmt}
    (hX : Yields (fun s => AllNodes StableNode s.nodes → SettledStmt d Good s) X) :
    Yields (SettledBlock (blockOf (statement d)) Good) (blockOf X) :=
  .between _ _ (hX.many.mono fun _ h hnodes =>
    blockText_settled hS fun s hs => (h s hs (hnodes s hs)).text)

include hG

theorem yields_settledBlockExpr {X : Parser Stmt}
    (hX : Yields (fun s => AllNodes StableNode s.nodes → SettledStmt d Good s) X) :
    Yields (Keeps StableNode (SettledExpr d (blockOf (statement d)) Good))
      (expression d (blockOf X)) :=
  yields_settledExpr hG hS run_blockOf_open (yields_settledBlock hS hX)

/-- The text of a statement that was read is read as its settled statement. -/
theorem yields_settledStatement :
    Yields (fun s => AllNodes StableNode s.nodes → SettledStmt d Good s) (statement d) := by
  refine .fix fun X hX => ?_
  have hB := yields_settledBlock hS hX
  have hE := yields_settledBlockExpr hG hS hX
  refine .choice (hB.map fun ss h hnodes => ?block) (.choice ((yields_settledDeclaration hG hS hE
    hB).map fun x hx hnodes => ?decl) (.choice ?ret (.choice ?branch (.choice ?throw
      (.choice (.yielding ?empty _) ((hE.thenSkip _).map fun e he hnodes => ?expr))))))
  case block =>
    have hparts := hnodes.tail
    rw [Stmt.nodesAll_eq, allNodes_flatMap] at hparts
    exact .block (h hparts)
  case decl =>
    refine .ofText hS rfl fun herased level => ?_
    rw [Stmt.settled_decl]
    exact statementText_decl (hx herased hnodes.tail level)
  case ret =>
    refine ((hE.optional.skipThen _).thenSkip _).map fun value hvalue hnodes => ?_
    refine .ofText hS rfl fun _ level => ?_
    rw [Stmt.settled_ret]
    refine statementText_return hG.toTextClass
      (SettledExpr.printsWell_option (fun e he => hvalue e he ?_) level)
    obtain rfl : value = some e := he
    exact hnodes.tail
  case branch =>
    refine (((hE.between _ _).skipThen _).seq hX).both (hX.skipThen _).optional
      fun x alt hx halt hnodes => ?_
    obtain ⟨test, cons⟩ := x
    have hparts : AllNodes StableNode test.nodes ∧ AllNodes StableNode cons.nodes ∧
        ∀ s ∈ alt, AllNodes StableNode s.nodes := by
      cases alt with
      | none => exact ⟨hnodes.tail.left, hnodes.tail.right, by simp⟩
      | some s =>
        refine ⟨hnodes.tail.left.left, hnodes.tail.left.right, fun t ht => ?_⟩
        obtain rfl : s = t := by simpa using ht
        exact hnodes.tail.right
    obtain ⟨htest, hcons, helse⟩ := hparts
    refine .ofText hS rfl fun _ level => ?_
    rw [Stmt.settled_branch, cons.braced_settled]
    refine statementText_branch hS (hx.1 htest level).prints ((hx.2 hcons).branch level)
      fun a ha => ?_
    obtain ⟨s, hs, rfl⟩ := Option.map_eq_some_iff.1 ha
    exact (halt s hs (helse s hs)).elseText level
  case throw =>
    refine ((hE.skipThen _).thenSkip _).map fun e he hnodes => ?_
    refine .ofText hS rfl fun _ level => ?_
    rw [Stmt.settled_throw]
    exact statementText_throw hG.toTextClass (he hnodes.tail level).prints
  case empty => exact fun _ => .ofText hS rfl fun herased => by cases herased
  case expr =>
    refine .ofText hS rfl fun _ level => ?_
    have hopens : e.opensLet = false := by simpa [Node.isStable] using hnodes.head.stable
    rw [Stmt.settled_expr]
    refine statementText_expr hG.toTextClass (he hnodes.tail level).prints fun s => ?_
    -- how the text starts is decided on the expression as it was read
    rw [e.settled_alike.unambiguous level]
    exact startsExpression_of_front (Expr.front_unambiguous level
      (fun n hn => (hnodes.tail n hn).lexed) (fun _ => hopens) (continues_semicolon s))

end Statements

end Grammar

end TsxCompiler
