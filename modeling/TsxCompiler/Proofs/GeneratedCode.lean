import TsxCompiler.Emit.Emit
import TsxCompiler.Proofs.CleanPrinting
import TsxCompiler.Proofs.LinkInterface
import TsxCompiler.Proofs.TidyPasses

/-!
# Generated code is cut cleanly

A tidy module stays tidy when its imports and exports are lowered, and everything that is written
around it is clean text. So the code of a run, from any text and through built-in passes, has no
comment and no string that is left open, as long as markup becomes calls
(`run_tokens_clean`).
-/

namespace TsxCompiler

open Highlight Text

/-! ## Names at module scope -/

theorem isPlain_append {a b : String} (ha : isPlain a = true) (hb : isPlain b = true) :
    isPlain (a ++ b) = true := by
  rw [isPlain, String.toList_append, List.all_append]
  rw [isPlain] at ha hb
  rw [ha, hb]
  rfl

theorem isPlain_bindingBase (source : String) : isPlain (bindingBase source) = true := by
  simp only [bindingBase]
  split
  · rfl
  · rw [isPlain, String.toList_ofList, List.all_cons, List.all_map, Bool.and_eq_true,
      List.all_eq_true]
    refine ⟨rfl, fun c _ => ?_⟩
    simp only [Function.comp_apply]
    split
    · rename_i hc
      exact opensNothing_of_isWordPart hc
    · rfl

theorem isPlain_candidateName {base : String} (h : isPlain base = true) (n : Nat) :
    isPlain (candidateName base n) = true := by
  cases n with
  | zero => exact h
  | succ n =>
    have hdigits : isPlain (toString (n + 1)) = true := by
      rw [isPlain, Nat.toString_eq_ofList_toDigits, String.toList_ofList, List.all_eq_true]
      exact forall_mem_toDigits (by decide) (by decide) (n + 1)
    exact isPlain_append h hdigits

theorem isPlain_freshName (taken : List String) {base : String} (h : isPlain base = true) :
    isPlain (freshName taken base) = true := by
  unfold freshName
  cases hfind : ((List.range (taken.length + 1)).map (candidateName base)).find?
      fun name => !taken.contains name with
  | none => exact h
  | some name =>
    obtain ⟨n, -, rfl⟩ := List.mem_map.1 (List.mem_of_find?_eq_some hfind)
    exact isPlain_candidateName h n

mutual

/-- A tidy pattern binds plain names. -/
theorem Pattern.isPlain_boundNames (p : Pattern) (h : AllTidy false p.nodes) :
    ∀ x ∈ p.boundNames, isPlain x = true := by
  match p with
  | .ident name =>
    simp only [Pattern.nodes, allNodes_cons] at h
    exact List.forall_mem_singleton.2 h.1
  | .array elems =>
    simp only [Pattern.nodes, allNodes_cons] at h
    exact Pattern.isPlain_boundNamesOf elems h.2
  | .object props =>
    simp only [Pattern.nodes, allNodes_cons] at h
    exact PatternProperty.isPlain_boundNamesOf props h.1 h.2
  | .withDefault target value =>
    simp only [Pattern.nodes, allNodes_cons, allNodes_append] at h
    exact target.isPlain_boundNames h.2.1
  | .rest target =>
    simp only [Pattern.nodes, allNodes_cons] at h
    exact target.isPlain_boundNames h.2

theorem Pattern.isPlain_boundNamesOf (ps : List Pattern) (h : AllTidy false (Pattern.nodesAll ps)) :
    ∀ x ∈ Pattern.boundNamesOf ps, isPlain x = true := by
  match ps with
  | [] => exact nofun
  | p :: rest =>
    simp only [Pattern.nodesAll, allNodes_append] at h
    exact List.forall_mem_append.2
      ⟨p.isPlain_boundNames h.1, Pattern.isPlain_boundNamesOf rest h.2⟩

theorem PatternProperty.isPlain_boundNames (p : PatternProperty) (hp : p.Tidy)
    (h : AllTidy false p.nodes) : ∀ x ∈ p.boundNames, isPlain x = true := by
  match p with
  | .keyed key target =>
    simp only [PatternProperty.nodes, allNodes_append] at h
    exact target.isPlain_boundNames h.2
  | .shorthand name value => exact List.forall_mem_singleton.2 hp
  | .rest target => exact target.isPlain_boundNames h

theorem PatternProperty.isPlain_boundNamesOf (props : List PatternProperty)
    (hprops : ∀ p ∈ props, p.Tidy) (h : AllTidy false (PatternProperty.nodesAll props)) :
    ∀ x ∈ PatternProperty.boundNamesOf props, isPlain x = true := by
  match props with
  | [] => exact nofun
  | p :: rest =>
    simp only [PatternProperty.nodesAll, allNodes_append] at h
    obtain ⟨hp, hrest⟩ := List.forall_mem_cons.1 hprops
    exact List.forall_mem_append.2
      ⟨p.isPlain_boundNames hp h.1, PatternProperty.isPlain_boundNamesOf rest hrest h.2⟩

end

theorem Decl.isPlain_boundNames {d : Decl} (h : AllTidy false d.nodes) :
    ∀ x ∈ d.boundNames, isPlain x = true := by
  cases d with
  | var kind declarators =>
    simp only [Decl.nodes, Declarator.nodesAll_eq, allNodes_cons, allNodes_flatMap] at h
    intro x hx
    obtain ⟨⟨target, init⟩, hd, hx⟩ := List.mem_flatMap.1 hx
    have hnodes := h.2 _ hd
    cases init with
    | none => exact target.isPlain_boundNames hnodes x hx
    | some value =>
      simp only [Declarator.nodes, allNodes_append] at hnodes
      exact target.isPlain_boundNames hnodes.1 x hx
  | func name body =>
    simp only [Decl.nodes, allNodes_cons] at h
    exact List.forall_mem_singleton.2 h.1
  | classDecl name body =>
    simp only [Decl.nodes, allNodes_cons] at h
    exact List.forall_mem_singleton.2 h.1
  | typeDecl name => exact List.forall_mem_nil _

/-! ## Lowered code -/

/-- The statements of lowered code are tidy, those in place and those that wait. -/
structure Linked.Tidy (l : Linked) : Prop where
  body : ∀ s ∈ l.body, AllTidy false s.nodes
  deferred : ∀ s ∈ l.deferred, AllTidy false s.nodes

namespace Linked

theorem tidy_empty : Linked.empty.Tidy := ⟨nofun, nofun⟩

theorem Tidy.append {a b : Linked} (ha : a.Tidy) (hb : b.Tidy) : (a.append b).Tidy :=
  ⟨List.forall_mem_append.2 ⟨ha.body, hb.body⟩,
    List.forall_mem_append.2 ⟨ha.deferred, hb.deferred⟩⟩

theorem tidy_ofBody {stmts : List Stmt} (h : ∀ s ∈ stmts, AllTidy false s.nodes) :
    (Linked.ofBody stmts).Tidy := ⟨h, nofun⟩

theorem tidy_concat {ls : List Linked} (h : ∀ l ∈ ls, l.Tidy) : (Linked.concat ls).Tidy := by
  induction ls with
  | nil => exact tidy_empty
  | cons l ls ih =>
    obtain ⟨hl, hls⟩ := List.forall_mem_cons.1 h
    exact hl.append (ih hls)

theorem allTidy_export {name : String} {value : Expr} (hname : isPlain name = true)
    (hvalue : AllTidy false value.nodes) :
    AllTidy false (Stmt.assign (.dot (.ident "exports") name) value).nodes := by
  have hexports : isPlain "exports" = true := rfl
  simp [hname, hvalue, hexports]

theorem tidy_exportNow {name : String} {value : Expr} (hname : isPlain name = true)
    (hvalue : AllTidy false value.nodes) : (Linked.exportNow name value).Tidy :=
  ⟨List.forall_mem_singleton.2 (allTidy_export hname hvalue), nofun⟩

theorem tidy_exportLater {name : String} {value : Expr} (hname : isPlain name = true)
    (hvalue : AllTidy false value.nodes) : (Linked.exportLater name value).Tidy :=
  ⟨nofun, List.forall_mem_singleton.2 (allTidy_export hname hvalue)⟩

end Linked

theorem allTidy_requireCall (source : String) : AllTidy false (requireCall source).nodes := by
  have hrequire : isPlain "require" = true := rfl
  simp [requireCall, hrequire]

theorem Helper.isPlain_name (helper : Helper) : isPlain helper.name = true := by
  cases helper <;> rfl

theorem Helper.callWith_tidy (isExternal : Bool) (helper : Helper) {args : List Expr}
    (h : ∀ e ∈ args, AllTidy false e.nodes) :
    AllTidy false (helper.callWith isExternal args).nodes := by
  have hmember : isPlain "_" = true := rfl
  have hname := helper.isPlain_name
  cases isExternal with
  | true => simpa [Helper.callWith, hmember, hname] using h
  | false => simpa [Helper.callWith, hname] using h

theorem ImportClause.Tidy.memberConstants_tidy {clause : ImportClause} (h : clause.Tidy)
    {binding : String} (hbinding : isPlain binding = true) :
    ∀ s ∈ Import.memberConstants binding clause, AllTidy false s.nodes := by
  have hdefault : isPlain "default" = true := rfl
  intro s hs
  rcases List.mem_append.1 hs with hs | hs
  · obtain ⟨name, hname, rfl⟩ := Option.map_eq_some_iff.1 (Option.mem_toList.1 hs)
    simp [h.default name hname, hbinding, hdefault]
  · obtain ⟨⟨name, imported⟩, hmem, rfl⟩ := List.mem_map.1 hs
    obtain ⟨hname, himported⟩ := h.named _ hmem
    cases imported with
    | none => simpa [hbinding] using hname
    | some imported =>
      have himported := himported imported rfl
      simpa [hbinding, himported] using hname

/-- Lowering a tidy import gives tidy statements: the source of the import occurs only quoted, and
the name of the constant is the import's own or a made-up one of plain characters. -/
theorem Import.link_tidy (isExternal : Bool) (taken : List String) {i : Import} (h : i.Tidy) :
    (i.link isExternal taken).1.Tidy := by
  have hclause := ImportClause.tidy_ofSpecifiers h.specifiers
  by_cases ht : i.typeOnly = true
  · simp only [Import.link, ht, if_true]
    exact Linked.tidy_empty
  rw [Bool.not_eq_true] at ht
  by_cases hne : i.specifiers = []
  · have hlink : (i.link isExternal taken).1 = .ofBody [.expr (requireCall i.source.value)] := by
      simp [Import.link, ht, hne]
    rw [hlink]
    refine Linked.tidy_ofBody (List.forall_mem_singleton.2 ?_)
    exact (allNodes_cons _ _).2 ⟨trivial, allTidy_requireCall _⟩
  -- the name of the constant: the one behind `* as`, or one made up from the source
  have hname : isPlain (i.moduleName taken) = true := by
    unfold Import.moduleName
    cases hstar : (ImportClause.ofSpecifiers i.specifiers).star with
    | none => exact isPlain_freshName taken (isPlain_bindingBase _)
    | some name => exact hclause.star name hstar
  have hrequired : AllTidy false (interop isExternal (ImportClause.ofSpecifiers i.specifiers).helper?
      (requireCall i.source.value)).nodes := by
    unfold interop
    split
    · exact Helper.callWith_tidy isExternal _ (List.forall_mem_singleton.2 (allTidy_requireCall _))
    · exact allTidy_requireCall _
  refine ⟨?_, ?_⟩
  · rw [Import.link_body ht hne]
    exact List.forall_mem_cons.2 ⟨(allTidy_declare _ _ _).2 ⟨hname, hrequired⟩,
      hclause.memberConstants_tidy hname⟩
  · have hdeferred : (i.link isExternal taken).1.deferred = [] := by
      simp [Import.link, ht, hne, Linked.ofBody, Linked.empty]
    rw [hdeferred]
    exact List.forall_mem_nil _

/-- Lowering a tidy export gives tidy statements: what is exported keeps its own nodes, and what is
added is made of `exports`, the exported names and, for another module, a call of `require` and a
made-up name. -/
theorem Export.link_tidy (isExternal : Bool) (taken : List String) {d : Export} (htidy : d.Tidy)
    (h : AllTidy false d.nodes) : (d.link isExternal taken).1.Tidy := by
  have hdefault : isPlain "default" = true := rfl
  have hident : ∀ {name : String}, isPlain name = true →
      AllTidy false (Expr.ident name).nodes := fun hname => (allNodes_cons _ _).2 ⟨hname, allNodes_nil⟩
  cases d with
  | decl d =>
    -- the declaration stays, with one assignment for each name that it binds
    have hnames := Decl.isPlain_boundNames h
    refine (Linked.tidy_ofBody (List.forall_mem_singleton.2 ?_)).append (Linked.tidy_concat fun l hl => ?_)
    · exact (allNodes_cons _ _).2 ⟨trivial, h⟩
    · obtain ⟨name, hname, rfl⟩ := List.mem_map.1 hl
      exact Linked.tidy_exportNow (hnames name hname) (hident (hnames name hname))
  | default value =>
    cases value with
    | func name body =>
      cases name with
      | none =>
        -- without a name the function is the value itself
        exact Linked.tidy_exportNow hdefault ((allNodes_cons _ _).2 ⟨htidy, h⟩)
      | some name =>
        have hname := htidy name rfl
        refine (Linked.tidy_ofBody (List.forall_mem_singleton.2 ?_)).append
          (Linked.tidy_exportNow hdefault (hident hname))
        exact (allNodes_cons _ _).2 ⟨trivial, (allNodes_cons _ _).2 ⟨hname, h⟩⟩
    | classDef name body =>
      cases name with
      | none =>
        exact Linked.tidy_exportNow hdefault ((allNodes_cons _ _).2 ⟨htidy, h⟩)
      | some name =>
        have hname := htidy name rfl
        refine (Linked.tidy_ofBody (List.forall_mem_singleton.2 ?_)).append
          (Linked.tidy_exportNow hdefault (hident hname))
        exact (allNodes_cons _ _).2 ⟨trivial, (allNodes_cons _ _).2
          ⟨hname, (allNodes_cons _ _).2 ⟨trivial, h⟩⟩⟩
    | expr value =>
      cases value with
      | ident name => exact Linked.tidy_exportLater hdefault h
      | _ => exact Linked.tidy_exportNow hdefault h
  | list specifiers source =>
    -- a specifier exports its binding under its own name or another one
    have hexported : ∀ s ∈ specifiers, isPlain s.exportedName = true := by
      intro s hs
      unfold ExportSpecifier.exportedName
      cases hname : s.exported with
      | none => exact (htidy.1 s hs).binding
      | some name => exact (htidy.1 s hs).exported name hname
    cases source with
    | none =>
      refine Linked.tidy_concat fun l hl => ?_
      obtain ⟨s, hs, rfl⟩ := List.mem_map.1 hl
      exact Linked.tidy_exportLater (hexported s hs) (hident (htidy.1 s hs).binding)
    | some source =>
      -- a constant holds the other module, and members of it are assigned
      have hname : isPlain (freshName taken (bindingBase source.value)) = true :=
        isPlain_freshName taken (isPlain_bindingBase _)
      refine (Linked.tidy_ofBody (List.forall_mem_singleton.2 ?_)).append
        (Linked.tidy_concat fun l hl => ?_)
      · exact (allTidy_declare _ _ _).2 ⟨hname, allTidy_requireCall _⟩
      · obtain ⟨s, hs, rfl⟩ := List.mem_map.1 hl
        exact Linked.tidy_exportNow (hexported s hs)
          ((allTidy_dot _ _).2 ⟨(htidy.1 s hs).binding, hident hname⟩)
  | all source =>
    have hexports : isPlain "exports" = true := rfl
    refine ⟨List.forall_mem_singleton.2 ((allNodes_cons _ _).2 ⟨trivial, ?_⟩), nofun⟩
    refine Helper.callWith_tidy isExternal .exportStar (List.forall_mem_cons.2
      ⟨allTidy_requireCall _, List.forall_mem_singleton.2 (hident hexports)⟩)

theorem Item.link_tidy (isExternal : Bool) (taken : List String) {x : Item}
    (h : AllTidy false x.nodes) : (x.link isExternal taken).1.Tidy := by
  cases x with
  | stmt s =>
    simp only [Item.nodes, allNodes_cons] at h
    exact Linked.tidy_ofBody (List.forall_mem_singleton.2 h.2)
  | imports decl =>
    simp only [Item.nodes, allNodes_cons] at h
    exact decl.link_tidy isExternal taken h.2.1
  | exports decl =>
    simp only [Item.nodes, allNodes_cons] at h
    exact decl.link_tidy isExternal taken h.1 h.2

theorem Item.linkAll_tidy (isExternal : Bool) (taken : List String) {items : List Item}
    (h : ∀ x ∈ items, AllTidy false x.nodes) : (Item.linkAll isExternal taken items).Tidy := by
  induction items generalizing taken with
  | nil => exact Linked.tidy_empty
  | cons x rest ih =>
    obtain ⟨hx, hrest⟩ := List.forall_mem_cons.1 h
    exact (x.link_tidy isExternal taken hx).append (ih _ hrest)

theorem Program.toCommonJs_tidy {isExternal : Bool} {p : Program} {code : CommonJsModule}
    (h : AllTidy false p.nodes) (hcode : p.toCommonJs isExternal = .ok code) :
    ∀ s ∈ code.body, AllTidy false s.nodes := by
  simp only [Program.nodes, allNodes_flatMap] at h
  have hlinked := Item.linkAll_tidy isExternal p.topLevelNames h
  simp only [Program.toCommonJs] at hcode
  split at hcode
  · cases hcode
  · cases hcode
    exact List.forall_mem_append.2 ⟨hlinked.body, hlinked.deferred⟩

/-! ## The text of a module -/

theorem isClean_topLine {s : Stmt} (h : AllTidy false s.nodes) : IsClean s.topLine :=
  Stmt.isClean_topLine h 0

theorem isClean_default : IsClean "\"default\"" :=
  Clean.ofClosed ⟨'"', "default".toList, rfl, rfl, rfl⟩

/-- The definitions of the helpers hold no string but `"default"`. -/
theorem Helper.isClean_definition (helper : Helper) : ∀ line ∈ helper.definition, IsClean line := by
  -- each helper has one line with a literal in it at most, and that is closed
  have hdefault : ∀ {before behind : String}, isPlain before = true → isPlain behind = true →
      IsClean (before ++ "\"default\"" ++ behind) := fun hbefore hbehind =>
    ((IsClean.ofPlain hbefore).append isClean_default).append (.ofPlain hbehind)
  intro line hline
  cases hplain : isPlain line with
  | true => exact .ofPlain hplain
  | false =>
    cases helper with
    | interopDefault =>
      have hall : ∀ line ∈ Helper.interopDefault.definition, isPlain line = true := by decide
      simp [hall line hline] at hplain
    | interopWildcard =>
      have hone : ∀ line ∈ Helper.interopWildcard.definition, isPlain line = true ∨
          line = "            if (key !== " ++ "\"default\"" ++
            " && Object.prototype.hasOwnProperty.call(obj, key)) newObj[key] = obj[key];" := by
        decide +kernel
      rcases hone line hline with h | rfl
      · simp [h] at hplain
      · exact hdefault (by decide +kernel) (by decide +kernel)
    | exportStar =>
      have hone : ∀ line ∈ Helper.exportStar.definition, isPlain line = true ∨
          line = "        if (k !== " ++ "\"default\"" ++
            " && !Object.prototype.hasOwnProperty.call(to, k)) \x7b" := by
        decide +kernel
      rcases hone line hline with h | rfl
      · simp [h] at hplain
      · exact hdefault (by decide +kernel) (by decide +kernel)

theorem Helper.isClean_prologue (isExternal : Bool) (helpersModule : String) (helper : Helper) :
    IsClean (helper.prologue isExternal helpersModule) := by
  unfold Helper.prologue
  split
  · exact isClean_topLine ((allTidy_declare _ _ _).2 ⟨helper.isPlain_name, allTidy_requireCall _⟩)
  · refine isClean_join fun text htext => ?_
    obtain ⟨line, hline, rfl⟩ := List.mem_map.1 htext
    exact (helper.isClean_definition line hline).append (.ofPlain rfl)

theorem isClean_useStrict : IsClean useStrict.topLine := by
  have hlit : IsClean "\"use strict\"" :=
    Clean.ofClosed ⟨'"', "use strict".toList, rfl, rfl, rfl⟩
  refine isClean_topLine ((allNodes_cons _ _).2 ⟨trivial, (allNodes_cons _ _).2 ⟨hlit, allNodes_nil⟩⟩)

theorem isClean_esModuleMarker : IsClean esModuleMarker.topLine := by
  have hnames : isPlain "Object" = true ∧ isPlain "defineProperty" = true ∧
      isPlain "exports" = true ∧ isPlain "value" = true := ⟨rfl, rfl, rfl, rfl⟩
  refine isClean_topLine ?_
  simp [esModuleMarker, hnames, Property.Tidy, PropertyKey.Tidy]

theorem CommonJsModule.isClean_print (options : EmitOptions) {code : CommonJsModule}
    (h : ∀ s ∈ code.body, AllTidy false s.nodes) : IsClean (code.print options) := by
  have hmarker : IsClean (if code.hasExports then esModuleMarker.topLine else "") := by
    split
    · exact isClean_esModuleMarker
    · exact isClean_empty
  refine ((isClean_useStrict.append hmarker).append ?_).append ?_
  · refine isClean_join fun text htext => ?_
    obtain ⟨helper, -, rfl⟩ := List.mem_map.1 htext
    exact helper.isClean_prologue _ _
  · refine isClean_join fun text htext => ?_
    obtain ⟨s, hs, rfl⟩ := List.mem_map.1 htext
    exact isClean_topLine (h s hs)

/-- The text of a tidy module whose markup becomes calls is clean, in either format. -/
theorem Program.isClean_emit {options : EmitOptions} {pragma : Pragma} {p : Program} {code : String}
    (hmarkup : options.markup = .classic pragma) (h : AllTidy true p.nodes)
    (hcode : p.emit options = .ok code) : IsClean code := by
  simp only [Program.emit, hmarkup] at hcode
  cases hlower : p.lowerMarkup pragma with
  | error cause =>
    rw [hlower] at hcode
    cases hcode
  | ok q =>
    have hq := Program.lowerMarkup_tidy h hlower
    rw [hlower] at hcode
    simp only [bind, Except.bind] at hcode
    split at hcode
    · cases hcode
      exact Program.isClean_print hq
    · split at hcode
      · cases hcode
      · rename_i linked hlinked
        cases hcode
        exact CommonJsModule.isClean_print options (Program.toCommonJs_tidy hq hlinked)

/-! ## Runs -/

theorem parse_tidy {d : Dialect} {text : String} {p : Program} (h : Program.parse d text = .ok p) :
    AllTidy true p.nodes := by
  obtain ⟨r, hr⟩ := run_program_of_parse h
  intro n hn
  exact Node.Written.tidy (Grammar.yields_program_written d _ p r hr n hn)

/-- A run that returned code has read a module, applied all passes and emitted the result. -/
theorem run_ok {config : Config} {ctx : RunContext} {text code : String}
    (h : (Engine.standard.run config ctx text).outcome = .ok code) :
    ∃ p q, Program.parse config.dialect text = .ok p ∧
      (Pass.applyAll ctx 0 config.passes p).outcome = .ok q ∧ q.emit config.emit = .ok code := by
  simp only [Engine.run, Engine.standard] at h
  split at h
  · cases h
  · rename_i p hp
    cases hchain : (Pass.applyAll ctx 0 config.passes p).outcome with
    | error cause =>
      simp only [hchain] at h
      cases h
    | ok q =>
      simp only [hchain, bind, Except.bind] at h
      split at h
      · rename_i emitted hemitted
        cases h
        exact ⟨p, q, hp, hchain, hemitted⟩
      · cases h

/-- The code of a run has no comment, and all its strings are closed. -/
theorem run_tokens_clean {config : Config} {ctx : RunContext} {text code : String} {pragma : Pragma}
    (hpasses : ∀ pass ∈ config.passes, pass.IsBuiltin)
    (hmarkup : config.emit.markup = .classic pragma)
    (hcode : (Engine.standard.run config ctx text).outcome = .ok code) :
    ∀ t ∈ Token.tokenize code,
      t.tokenClass ≠ .comment ∧ (t.tokenClass = .string → IsClosed t.text.toList) := by
  obtain ⟨p, q, hparse, hchain, hemit⟩ := run_ok hcode
  have hp := parse_tidy hparse
  have hq := Pass.applyAll_tidy hpasses hp hchain
  exact tokenize_clean (Program.isClean_emit hmarkup hq hemit)

/-- A module with quotes and slashes wherever they may stand: in a source, a template, a division,
a comment, an attribute and a text between tags. -/
def quotesAndSlashes : String :=
  "import a from 'x//y'; // z\n" ++
  "export function B() \x7b useState(a / 2); return <p c='\"'>//\" \x7b\x60'//\x60\x7d</p>; \x7d\n"

/-- Components are registered, helpers are written out and modules are lowered. -/
def lowerEverything : Config :=
  ⟨.tsx, [⟨"react-refresh", [("skipEnvCheck", .bool true)], Refresh.transform ⟨none, true⟩⟩],
    ⟨.commonJs, .classic .standard, false, "helpers"⟩⟩

theorem run_tokens_clean_quotesAndSlashes :
    ∃ code, (Engine.standard.run lowerEverything ⟨"run", false, none, "input.tsx"⟩
        quotesAndSlashes).outcome = .ok code ∧ code ≠ "" ∧
      ∀ t ∈ Token.tokenize code,
        t.tokenClass ≠ .comment ∧ (t.tokenClass = .string → IsClosed t.text.toList) := by
  have hcode : ((Engine.standard.run lowerEverything ⟨"run", false, none, "input.tsx"⟩
      quotesAndSlashes).outcome.toOption.map fun code => decide (code = "")) = some false := by
    decide +kernel
  obtain ⟨code, hsome, hempty⟩ := Option.map_eq_some_iff.1 hcode
  have hrun := eq_ok_of_toOption hsome
  have hpasses : ∀ pass ∈ lowerEverything.passes, pass.IsBuiltin :=
    List.forall_mem_singleton.2 rfl
  exact ⟨code, hrun, of_decide_eq_false hempty, run_tokens_clean hpasses rfl hrun⟩

end TsxCompiler
