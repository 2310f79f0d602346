import TsxCompiler.Proofs.NameClashes
import TsxCompiler.Proofs.Provenance

/-!
# Names of required modules

A module that is required without a name of its own is bound to one that is made from its source, with
a number behind it where that is taken. Sources can be any text, and a numbered name can be what another
source asks for, so a name is only known to be free when it is chosen; from then on it is taken.

* `Renames` — the search for a free name, as the loop goes through the candidates;
* `Item.takenAfter` — the names that are taken when items have been lowered;
* `toCommonJs_freshBindings` — the search always ends, and the names that a run makes up are
  identifiers, distinct, and no names of the module.
-/

namespace TsxCompiler

open Text

/-! ## The search for a free name -/

/-- The search for a free name, from a candidate on, and the name that it ends with. A search that
never ends has no derivation. -/
inductive Renames (taken : List String) (base : String) : Nat → String → Prop where
  | free {n : Nat} : candidateName base n ∉ taken → Renames taken base n (candidateName base n)
  | next {n : Nat} {name : String} : candidateName base n ∈ taken →
    Renames taken base (n + 1) name → Renames taken base n name

section Search

variable {taken : List String} {base : String}

theorem Renames.unique {n : Nat} {a b : String} (ha : Renames taken base n a)
    (hb : Renames taken base n b) : a = b := by
  induction ha with
  | free hfree =>
    cases hb with
    | free _ => rfl
    | next htaken _ => exact absurd htaken hfree
  | next htaken _ ih =>
    cases hb with
    | free hfree => exact absurd htaken hfree
    | next _ hb => exact ih hb

/-- Looking through candidates in order is a search. -/
theorem renames_of_find? {count start : Nat} {name : String}
    (h : ((List.range' start count).map (candidateName base)).find?
      (fun name => !taken.contains name) = some name) : Renames taken base start name := by
  induction count generalizing start with
  | zero => simp at h
  | succ count ih =>
    rw [List.range'_succ, List.map_cons] at h
    by_cases htaken : candidateName base start ∈ taken
    · rw [List.find?_cons_of_neg (by simpa using htaken)] at h
      exact .next htaken (ih h)
    · rw [List.find?_cons_of_pos (by simpa using htaken)] at h
      cases h
      exact .free htaken

/-- The search ends, with the name that lowering chooses. -/
theorem renames_freshName (taken : List String) (base : String) :
    Renames taken base 0 (freshName taken base) := by
  have hfree := freshName_not_mem taken base
  rw [freshName, List.range_eq_range'] at hfree ⊢
  cases hfind : ((List.range' 0 (taken.length + 1)).map (candidateName base)).find?
      fun name => !taken.contains name with
  | some name => exact renames_of_find? hfind
  | none =>
    -- the base is the first candidate, so it would be taken if there were none
    rw [hfind] at hfree
    exact .free hfree

end Search

/-! ## Spelling -/

/-- An underscore and characters of words. -/
def IsBindingName (name : String) : Prop :=
  ∃ chars, name.toList = '_' :: chars ∧ chars.all isWordPart = true

theorem IsBindingName.isIdentifier {name : String} (h : IsBindingName name) :
    isIdentifier name = true := by
  obtain ⟨chars, hname, hchars⟩ := h
  rw [Text.isIdentifier, hname]
  exact Bool.and_eq_true_iff.2 ⟨rfl, hchars⟩

theorem IsBindingName.head? {name : String} (h : IsBindingName name) :
    name.toList.head? = some '_' := by
  obtain ⟨chars, hname, -⟩ := h
  rw [hname]
  rfl

theorem isBindingName_bindingBase (source : String) : IsBindingName (bindingBase source) := by
  simp only [bindingBase]
  split
  · exact ⟨"module".toList, by decide, by decide⟩
  · refine ⟨_, String.toList_ofList, ?_⟩
    rw [List.all_map, List.all_eq_true]
    intro c _
    simp only [Function.comp_apply]
    split
    · assumption
    · rfl

theorem isWordPart_of_isDigit {c : Char} (h : c.isDigit = true) : isWordPart c = true :=
  Grammar.forall_isDigit (P := fun c => isWordPart c = true) (by decide) h

theorem IsBindingName.candidateName {base : String} (h : IsBindingName base) (n : Nat) :
    IsBindingName (candidateName base n) := by
  obtain ⟨chars, hbase, hchars⟩ := h
  cases n with
  | zero => exact ⟨chars, hbase, hchars⟩
  | succ n =>
    have hdigits : (toString (n + 1)).toList = Nat.toDigits 10 (n + 1) := Nat.toList_repr
    refine ⟨chars ++ Nat.toDigits 10 (n + 1), ?_, ?_⟩
    · rw [TsxCompiler.candidateName, String.toList_append, hbase, hdigits, List.cons_append]
    · rw [List.all_append, hchars, Bool.true_and, List.all_eq_true]
      intro c hc
      exact isWordPart_of_isDigit (Nat.isDigit_of_mem_toDigits (b := 10) (by decide) (by decide) hc)

/-! ## The names of a run -/

/-- The names that are taken when items have been lowered. -/
def Item.takenAfter (isExternal : Bool) (taken : List String) (items : List Item) : List String :=
  items.foldl (fun taken item => (item.link isExternal taken).2) taken

/-- Lowering takes the names that it makes up, one after the other, and no others. -/
theorem takenAfter_eq (isExternal : Bool) (taken : List String) (items : List Item) :
    Item.takenAfter isExternal taken items = (Item.madeUp taken items).reverse ++ taken := by
  induction items generalizing taken with
  | nil => rfl
  | cons item rest ih =>
    have hstep : Item.takenAfter isExternal taken (item :: rest) =
        Item.takenAfter isExternal (item.link isExternal taken).2 rest := rfl
    rw [hstep, item.link_taken, ih, Item.madeUp, List.reverse_append, List.append_assoc]
    cases item.madeUp? taken <;> rfl

/-- An item that requires a module without a name of its own binds it to the name that is chosen. -/
theorem Item.bind_mem_layout {item : Item} {source : String} (h : item.boundSource? = some source)
    (taken : List String) :
    ∃ via, .bind (freshName taken (bindingBase source)) via source ∈ item.layout taken := by
  cases item with
  | stmt s => cases h
  | imports i =>
    simp only [boundSource?] at h
    split at h
    · cases h
    · rename_i hbound
      obtain rfl := Option.some.inj h
      simp only [Bool.or_eq_true, not_or, Bool.not_eq_true, Option.isSome_eq_false_iff,
        Option.isNone_iff_eq_none] at hbound
      obtain ⟨⟨ht, hempty⟩, hstar⟩ := hbound
      simp [layout, Import.layout, Import.moduleName, ht, hempty, hstar]
  | exports e =>
    cases e with
    | decl d => cases h
    | default value => cases h
    | all source => cases h
    | list specifiers source =>
      cases source with
      | none => cases h
      | some source =>
        obtain rfl := Option.some.inj h
        exact ⟨none, List.mem_cons_self ..⟩

/-- Each name that is made up is bound to the module that it is made up for. -/
theorem layoutAll_binds (taken : List String) (items : List Item) :
    List.Forall₂ (fun name source => ∃ via, .bind name via source ∈ Item.layoutAll taken items)
      (Item.madeUp taken items) (items.filterMap Item.boundSource?) := by
  induction items generalizing taken with
  | nil => exact .nil
  | cons item rest ih =>
    have hrest : List.Forall₂ (fun name source => ∃ via, .bind name via source ∈
          item.layout taken ++ Item.layoutAll ((item.madeUp? taken).toList ++ taken) rest)
        (Item.madeUp ((item.madeUp? taken).toList ++ taken) rest)
        (rest.filterMap Item.boundSource?) :=
      (ih _).imp fun _ _ ⟨via, hbind⟩ => ⟨via, List.mem_append_right _ hbind⟩
    rw [Item.madeUp, Item.layoutAll]
    -- an item either adds to both lists or to neither
    cases hsource : item.boundSource? with
    | none =>
      have hnone : item.madeUp? taken = none := by rw [Item.madeUp?, hsource, Option.map_none]
      rw [hnone] at hrest ⊢
      rw [List.filterMap_cons_none hsource]
      exact hrest
    | some source =>
      have hname : item.madeUp? taken = some (freshName taken (bindingBase source)) := by
        rw [Item.madeUp?, hsource, Option.map_some]
      obtain ⟨via, hbind⟩ := Item.bind_mem_layout hsource taken
      rw [hname] at hrest ⊢
      rw [List.filterMap_cons_some hsource]
      exact .cons ⟨via, List.mem_append_left _ hbind⟩ hrest

/-- The names that lowering a module made up. -/
structure FreshBindings (isExternal : Bool) (p : Program) (body : List Stmt) : Prop where
  /-- They are the names that were taken during the run. -/
  taken : Item.takenAfter isExternal p.topLevelNames p.body =
    p.moduleBindings.reverse ++ p.topLevelNames
  /-- Each is what its module is bound to. -/
  bound : List.Forall₂ (fun name source => ∃ via,
      .declare .const name (interop isExternal via (requireCall source)) ∈ body)
    p.moduleBindings p.boundSources
  distinct : p.moduleBindings.Nodup
  free : ∀ name ∈ p.moduleBindings, name ∉ p.topLevelNames
  spelled : ∀ name ∈ p.moduleBindings,
    name.toList.head? = some '_' ∧ isIdentifier name = true

/-- The search for a free name ends for every source and all names that are taken, and in no other
name; and the names that are made up when a module is lowered are fresh. -/
theorem toCommonJs_freshBindings :
    (∀ taken source name, Renames taken (bindingBase source) 0 name ↔
      name = freshName taken (bindingBase source)) ∧
    ∀ (p : Program) (isExternal : Bool) (m : CommonJsModule), p.toCommonJs isExternal = .ok m →
      FreshBindings isExternal p m.body := by
  constructor
  · intro taken source name
    constructor
    · exact fun h => h.unique (renames_freshName _ _)
    · rintro rfl
      exact renames_freshName _ _
  · intro p isExternal m h
    obtain ⟨hdistinct, hfree⟩ := p.moduleBindings_fresh
    refine ⟨takenAfter_eq _ _ _, (layoutAll_binds _ _).imp ?_, hdistinct, hfree, ?_⟩
    · rintro name source ⟨via, hbind⟩
      rw [(laidOut_of_toCommonJs h).body_eq]
      exact ⟨via, List.mem_map.2 ⟨_, List.mem_append_left _ hbind, rfl⟩⟩
    · intro name hname
      obtain ⟨source, -, n, rfl⟩ := candidateName_of_mem_madeUp hname
      have hspelled := (isBindingName_bindingBase source).candidateName n
      exact ⟨hspelled.head?, hspelled.isIdentifier⟩

/-- A source that asks for a numbered name, between two of one source; the next number is taken. -/
def numberedSources : String :=
  "import \x7b a \x7d from 'lib';\nimport \x7b b \x7d from 'lib1';\n" ++
  "export \x7b c \x7d from './lib.js';\nconst _lib2 = a;\n"

theorem toCommonJs_freshBindings_numberedSources :
    ∃ p m, Program.parse .tsx numberedSources = .ok p ∧ p.toCommonJs false = .ok m ∧
      p.moduleBindings = ["_lib", "_lib1", "_lib3"] ∧
      p.boundSources = ["lib", "lib1", "./lib.js"] ∧ FreshBindings false p m.body := by
  have hrun : ((Program.parse .tsx numberedSources).toOption.bind fun p =>
      (p.toCommonJs false).toOption.map fun _ => (p.moduleBindings, p.boundSources)) =
      some (["_lib", "_lib1", "_lib3"], ["lib", "lib1", "./lib.js"]) := by
    decide +kernel
  obtain ⟨p, m, hparse, hlower, hresult⟩ := exists_of_lowered hrun
  simp only [Prod.mk.injEq] at hresult
  obtain ⟨hnames, hsources⟩ := hresult
  exact ⟨p, m, hparse, hlower, hnames, hsources, toCommonJs_freshBindings.2 p false m hlower⟩

end TsxCompiler
