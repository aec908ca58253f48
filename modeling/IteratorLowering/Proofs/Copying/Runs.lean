import IteratorLowering.Proofs.Copying.Trees
import IteratorLowering.Proofs.Forest.Handles

/-!
# Running copies

The body of a function may be exchanged for its copy: every run goes step by step as before
(`copiesHygienically`). The statements of the function correspond to their copies and all others to
themselves, and every variable to its clone (`SymbolMap.swap`). That the clones are new and pairwise
different makes the correspondence one-to-one.
-/

set_option autoImplicit false
set_option relaxedAutoImplicit false

namespace IteratorLowering

/-! ### Variables and their clones -/

theorem FiniteMap.mem_keys {Key Value : Type} [DecidableEq Key] {map : FiniteMap Key Value}
    {key : Key} {value : Value} (h : map.find? key = some value) : key ∈ map.keys := by
  obtain ⟨bindings⟩ := map
  change lookup key bindings = some value at h
  change key ∈ bindings.map Prod.fst
  induction bindings with
  | nil => cases h
  | cons binding rest ih =>
    unfold lookup at h
    split at h
    · rename_i heq
      exact heq ▸ List.mem_cons_self
    · exact List.mem_cons_of_mem _ (ih h)

namespace SymbolMap

/-- Exchange what the map sends somewhere with what it is sent to. -/
def swap (map : SymbolMap) (symbol : SymId) : SymId :=
  (map.keys.find? fun original ↦ map.find? original = some symbol).getD (map.resolve symbol)

/-- The map sends symbols of the program one-to-one to others that it does not have. -/
structure Fresh (program : Program) (map : SymbolMap) : Prop where
  known : ∀ {symbol clone}, map.find? symbol = some clone → program.HasSymbol symbol
  new : ∀ {symbol clone}, map.find? symbol = some clone → ¬ program.HasSymbol clone
  distinct : ∀ {symbol other clone}, map.find? symbol = some clone →
    map.find? other = some clone → symbol = other

variable {program : Program} {map : SymbolMap} {symbol clone : SymId}

theorem resolve_of_none (h : map.find? symbol = none) : map.resolve symbol = symbol := by
  rw [resolve, h, Option.getD_none]

namespace Fresh

theorem swap_clone (h : Fresh program map) (hclone : map.find? symbol = some clone) :
    map.swap clone = symbol := by
  unfold swap
  cases hfound : map.keys.find? fun original ↦ map.find? original = some clone with
  | none =>
    have hnone := List.find?_eq_none.mp hfound symbol (FiniteMap.mem_keys hclone)
    exact absurd hclone (by simpa using hnone)
  | some original =>
    have hsent := List.find?_some hfound
    exact h.distinct (by simpa using hsent) hclone

theorem swap_of_not_clone (hclone : ∀ original, map.find? original ≠ some symbol) :
    map.swap symbol = map.resolve symbol := by
  rw [swap, List.find?_eq_none.mpr fun original _ ↦ by simpa using hclone original,
    Option.getD_none]

/-- The symbols of the program are no clones. -/
theorem swap_of_has (h : Fresh program map) (hsymbol : program.HasSymbol symbol) :
    map.swap symbol = map.resolve symbol :=
  swap_of_not_clone fun _ hsent ↦ h.new hsent hsymbol

theorem swap_involutive (h : Fresh program map) : Function.Involutive map.swap := by
  intro symbol
  by_cases hclone : ∃ original, map.find? original = some symbol
  · obtain ⟨original, hsent⟩ := hclone
    rw [h.swap_clone hsent, h.swap_of_has (h.known hsent), resolve, hsent, Option.getD_some]
  · rw [not_exists] at hclone
    rw [swap_of_not_clone hclone]
    cases hsent : map.find? symbol with
    | none => rw [resolve_of_none hsent, swap_of_not_clone hclone, resolve_of_none hsent]
    | some clone => rw [resolve, hsent, Option.getD_some, h.swap_clone hsent]

end Fresh

end SymbolMap

theorem StmtKind.mem_symbols_of_defined? {kind : StmtKind} {symbol : SymId}
    (h : kind.defined? = some symbol) : symbol ∈ kind.symbols := by
  cases kind with
  | action inner =>
    cases inner with
    | define =>
      cases h
      exact List.mem_cons_self
    | _ => cases h
  | branch | block => cases h

namespace Program

/-- Every symbol that a function mentions has been made. -/
def SymbolsKnown (program : Program) : Prop :=
  ∀ {function}, program.HasFunction function → ∀ {symbol}, program.Mentions function symbol →
    program.HasSymbol symbol

/-- It is enough that every entry of the arenas mentions symbols that have been made. -/
theorem symbolsKnown_of_forall {program : Program} (hlinked : program.WellLinked)
    (hstatements : ∀ stmt ∈ program.statements, ∀ symbol ∈ stmt.kind.symbols,
      program.HasSymbol symbol)
    (hfunctions : ∀ definition ∈ program.functions,
      (∀ symbol ∈ definition.formals, program.HasSymbol symbol) ∧
        ∀ symbol ∈ definition.retSym, program.HasSymbol symbol) : program.SymbolsKnown := by
  rintro ⟨index⟩ hfunction symbol hmentions
  have hmem : program.function ⟨index⟩ ∈ program.functions := by
    rw [function, Array.getD_eq_getD_getElem?, Array.getElem?_eq_getElem hfunction]
    exact Array.getElem_mem hfunction
  rcases hmentions with hformal | hret | ⟨id, hid, hsymbol⟩
  · exact (hfunctions _ hmem).1 symbol hformal
  · exact (hfunctions _ hmem).2 symbol hret
  · have hhas : program.Has id := ((hlinked.mem_functionStmts_iff hfunction).mp hid).has
    refine hstatements (program.stmt id) ?_ symbol hsymbol
    rw [stmt, Array.getD_eq_getD_getElem?, Array.getElem?_eq_getElem hhas]
    exact Array.getElem_mem hhas

/-- The program with another statement as the body of a function. -/
def withBody (program : Program) (function : FnId) (new : StmtId) : Program :=
  ((program.setBodyOf (program.bodyOf function) none).setBodyOf new
    (some function)).modifyFunction function fun definition ↦ { definition with body := new }

/-- Runs go alike in every respect but the symbols in references. -/
def RunsAlike (program final : Program) (rename : SymId → SymId) : Prop :=
  ∀ {function}, program.HasFunction function → ∀ {args : List Value},
    (∀ arg ∈ args, arg.isScalar = true) → ∀ limits : Limits,
      Outcome.Like Eq (fun symbol symbol' ↦ symbol' = rename symbol)
        (Machine.new.run program limits function args)
        (Machine.new.run final limits function args) ∧
      (Eval.left (Machine.new.run final limits function args)).steps =
        (Eval.left (Machine.new.run program limits function args)).steps

variable {program final : Program} {function : FnId} {copy : StmtId}

/-- A detached statement is put in the place of a body. -/
theorem replace_bodyOf (hlinked : program.WellLinked) (hfunction : program.HasFunction function)
    (hcopy : program.Detached copy) :
    Edit.replace (program.bodyOf function) copy program =
      .ok () (program.withBody function copy) := by
  have hdetach : Edit.detach copy program = .ok () program := by
    change (if (program.parent copy).isSome then Edit.remove copy else pure ()) program = _
    rw [hcopy.parent]
    rfl
  have hbind (next : PUnit → Edit Unit) :
      (Edit.detach copy >>= next) program = next ⟨⟩ program := by
    change EStateM.bind _ _ _ = _
    rw [EStateM.bind, hdetach]
  have hget (next : Program → Edit Unit) : (get >>= next) program = next program program := rfl
  rw [Edit.replace, hbind, hget, hlinked.parent_body hfunction]
  dsimp only
  rw [hlinked.bodyOf_body hfunction]
  rfl

theorem kind_withBody (program : Program) (function : FnId) (new id : StmtId) :
    (program.withBody function new).kind id = program.kind id :=
  (kind_setBodyOf ..).trans (kind_setBodyOf ..)

theorem function_withBody (hfunction : program.HasFunction function) (other : FnId) :
    (program.withBody function copy).function other =
      if other = function then { program.function other with body := copy }
      else program.function other := by
  have hmodified := function_modifyFunction
    ((program.setBodyOf (program.bodyOf function) none).setBodyOf copy (some function)) function
    other fun definition ↦ { definition with body := copy }
  by_cases hother : other = function
  · rw [if_pos ⟨hother, hfunction⟩] at hmodified
    rw [if_pos hother]
    exact hmodified
  · rw [if_neg fun hboth ↦ hother hboth.1] at hmodified
    rw [if_neg hother]
    exact hmodified

/-- The map that a copy comes with sends every symbol that is declared in the tree to a clone. -/
theorem IsCopy.fresh {root : StmtId} {map : SymbolMap}
    (h : program.IsCopy final root copy .empty map)
    (hknown : ∀ symbol ∈ program.definedSymbols root, program.HasSymbol symbol) :
    SymbolMap.Fresh program map := by
  have hmisses : ∀ {symbol clone}, map.find? symbol = some clone →
      SymbolMap.Misses .empty (program.definedSymbols root) symbol := by
    intro symbol clone hsent
    by_contra hmiss
    rw [h.kept hmiss] at hsent
    cases hsent
  refine ⟨fun hsent ↦ hknown _ (hmisses hsent).1, fun hsent ↦ ?_, fun hsent hsent' ↦ ?_⟩
  · obtain ⟨clone, hclone, hnew, -⟩ := h.clone (hmisses hsent)
    exact Option.some.inj (hclone.symm.trans hsent) ▸ hnew
  · exact h.distinct (hmisses hsent) (hmisses hsent') (hsent.trans hsent'.symm)

/-- A symbol that is not declared in the tree is kept. -/
theorem IsCopy.resolve_of_not_mem {root : StmtId} {map : SymbolMap}
    (h : program.IsCopy final root copy .empty map) {symbol : SymId}
    (hsymbol : symbol ∉ program.definedSymbols root) : map.resolve symbol = symbol :=
  SymbolMap.resolve_of_none (h.kept fun hmiss ↦ hsymbol hmiss.1)

/-- What a symbol is sent to has the same entry, up to its owner. -/
theorem IsCopy.entry {root : StmtId} {map : SymbolMap}
    (h : program.IsCopy final root copy .empty map) {symbol : SymId}
    (hsymbol : program.HasSymbol symbol) :
    { final.symbol (map.resolve symbol) with owner := none } =
      { program.symbol symbol with owner := none } := by
  by_cases hdeclared : symbol ∈ program.definedSymbols root
  · obtain ⟨clone, hclone, -, -, hentry⟩ := h.clone ⟨hdeclared, rfl⟩
    rw [SymbolMap.resolve, hclone, Option.getD_some, hentry]
  · rw [h.resolve_of_not_mem hdeclared, (h.symbol hsymbol).2]

end Program

/-! ### Runs -/

/-- How the statements correspond when the body of a function is exchanged for its copy. -/
def Correspondence.copying (program final : Program) (function : FnId) (map : SymbolMap)
    (image : StmtId → StmtId) : Correspondence where
  source := program
  target := final.withBody function (image (program.bodyOf function))
  rename := map.swap
  kept := program.HasSymbol
  named := program.HasSymbol
  shared := program.HasSymbol
  jumped := program.HasSymbol
  called := program.HasFunction
  pairs id id' := program.Stands id ∧
    id' = if id ∈ program.functionStmts function then image id else id
  stretch _ _ := False

/-- The second run has the same limits and keeps step. -/
def Pace.exact (limits : Limits) : Pace where
  Index := Unit
  within := ⊤
  limits := limits
  limits' _ := limits
  lasts rounds lasting := lasting () = rounds
  steps steps steps' := steps' = steps
  heaps := Eq
  fails _ := True

theorem Pace.exact_fair (limits : Limits) : (Pace.exact limits).Fair where
  tick hsteps hroom := .of_forall fun _ ↦ hsteps ▸ hroom
  steps hsteps := congrArg Nat.succ hsteps
  heaps hsize := congrArg Nat.succ hsize
  depth := .of_forall fun _ ↦ Nat.le_refl _
  lasts {rounds _} hlasts := ⟨fun _ ↦ rounds, rfl, .of_forall fun _ ↦ hlasts⟩
  exact _ _ := ⟨.of_forall fun _ ↦ rfl, fun hsteps ↦ hsteps, fun hlasts ↦ .of_forall fun _ ↦ hlasts⟩

namespace Program

section

variable {program final : Program} {function : FnId} {map : SymbolMap} {image : StmtId → StmtId}

/-- The body of a function has been copied, and the copy may take its place. -/
structure Doubles (program final : Program) (function : FnId) (map : SymbolMap)
    (image : StmtId → StmtId) : Prop where
  linked : program.WellLinked
  calls : program.CallsKnown
  symbols : program.SymbolsKnown
  known : program.HasFunction function
  interface : ∀ symbol, program.DeclaresIn function symbol →
    symbol ∉ (program.function function).formals ∧ symbol ∉ (program.function function).retSym
  alone : program.DeclaresAlone function
  copy : program.IsCopy final (program.bodyOf function) (image (program.bodyOf function)) .empty map
  fresh : SymbolMap.Fresh program map
  kind : ∀ id ∈ program.functionStmts function, final.kind (image id) =
    ((program.kind id).mapSymbols map.resolve).mapStmts image

namespace Doubles

variable (h : program.Doubles final function map image)

include h

theorem entry_swap {symbol : SymId} (hsymbol : program.HasSymbol symbol) :
    { final.symbol (map.swap symbol) with owner := none } =
      { program.symbol symbol with owner := none } := by
  rw [h.fresh.swap_of_has hsymbol, h.copy.entry hsymbol]

/-- What a function mentions keeps its name, unless it is declared in the function that was
copied. -/
theorem swap_eq_self {other : FnId} {symbol : SymId} (hother : program.HasFunction other)
    (hmentions : program.Mentions other symbol)
    (hdeclared : other = function → ¬ program.DeclaresIn function symbol) :
    map.swap symbol = symbol := by
  rw [h.fresh.swap_of_has (h.symbols hother hmentions),
    h.copy.resolve_of_not_mem fun hmem ↦ ?_]
  have hdeclares : program.DeclaresIn function symbol := mem_definedSymbols.mp hmem
  exact hdeclared (h.alone hdeclares hother hmentions) hdeclares

theorem map_formals {other : FnId} (hother : program.HasFunction other) :
    (program.function other).formals.map map.swap = (program.function other).formals := by
  refine (List.map_congr_left fun symbol hsymbol ↦ ?_).trans (List.map_id _)
  refine h.swap_eq_self hother (.inl hsymbol) fun heq hdeclares ↦ ?_
  exact (h.interface symbol hdeclares).1 (heq ▸ hsymbol)

theorem map_retSym {other : FnId} (hother : program.HasFunction other) :
    (program.function other).retSym.map map.swap = (program.function other).retSym := by
  refine (Option.map_congr fun symbol hsymbol ↦ ?_).trans Option.map_id'
  refine h.swap_eq_self hother (.inr (.inl hsymbol)) fun heq hdeclares ↦ ?_
  exact (h.interface symbol hdeclares).2 (heq ▸ hsymbol)

theorem allows {id : StmtId} (hid : program.Stands id)
    (hhas : ∀ symbol ∈ (program.kind id).symbols, program.HasSymbol symbol) :
    (Correspondence.copying program final function map image).Allows (program.kind id) := by
  have hreads : ∀ symbol ∈ (program.kind id).reads, program.HasSymbol symbol :=
    fun symbol hsymbol ↦ hhas symbol (List.mem_append_right _ hsymbol)
  refine ⟨hreads, fun symbol hsymbol ↦ hhas symbol ?_, fun label hlabel ↦
    hhas label (StmtKind.mem_symbols_of_gotoTarget? hlabel), fun value hvalue ↦ ?_⟩
  · exact List.mem_append_left _ (Option.mem_toList.mpr hsymbol)
  · have hsubset := StmtKind.symbols_subset_of_expression? hvalue
    exact ⟨fun symbol hsymbol ↦ hreads symbol (hsubset hsymbol),
      fun symbol hsymbol ↦ hreads symbol (hsubset (Expr.address?_subset hsymbol)),
      fun callee hcallee ↦ h.calls.callee hid value hvalue callee hcallee⟩

/-- What stands in the function has become its copy. -/
theorem kind_inside {id : StmtId} (hid : id ∈ program.functionStmts function)
    (hhas : ∀ symbol ∈ (program.kind id).symbols, program.HasSymbol symbol) :
    final.kind (image id) = ((program.kind id).mapSymbols map.swap).mapStmts fun id ↦
      if id ∈ program.functionStmts function then image id else id := by
  rw [h.kind id hid, StmtKind.mapSymbols_congr fun symbol hsymbol ↦
    (h.fresh.swap_of_has (hhas symbol hsymbol)).symm]
  refine StmtKind.mapStmts_congr fun child hchild ↦ (if_pos ?_).symm
  rw [StmtKind.children_mapSymbols] at hchild
  exact h.linked.child_mem_walk (.root (h.linked.parent_body h.known)) (h.linked.has_body h.known)
    hid hchild

/-- What stands in another function is as it was. -/
theorem kind_outside {other : FnId} (hother : program.HasFunction other) (hne : other ≠ function)
    {id : StmtId} (hid : program.StandsIn other id) :
    final.kind id = ((program.kind id).mapSymbols map.swap).mapStmts fun id ↦
      if id ∈ program.functionStmts function then image id else id := by
  have hmem := (h.linked.mem_functionStmts_iff hother).mpr hid
  have hsame : (program.kind id).mapSymbols map.swap = program.kind id :=
    (StmtKind.mapSymbols_congr fun symbol hsymbol ↦
      h.swap_eq_self hother (.inr (.inr ⟨id, hmem, hsymbol⟩)) (absurd · hne)).trans
      (StmtKind.mapSymbols_id _)
  rw [Program.kind, (h.copy.statement hid.has).2, hsame]
  refine ((StmtKind.mapStmts_congr fun child hchild ↦ if_neg fun hinside ↦ hne ?_).trans
    (StmtKind.mapStmts_id _)).symm
  exact h.linked.standsIn_unique (hid.inside (.single (h.linked.parent_of_child hchild)))
    ((h.linked.mem_functionStmts_iff h.known).mp hinside)

theorem kinds {id : StmtId} (hid : program.Stands id) :
    (Correspondence.copying program final function map image).Kinds (program.kind id)
      ((final.withBody function (image (program.bodyOf function))).kind
        (if id ∈ program.functionStmts function then image id else id)) := by
  obtain ⟨other, hother, hstands⟩ := hid
  have hmem := (h.linked.mem_functionStmts_iff hother).mpr hstands
  have hhas : ∀ symbol ∈ (program.kind id).symbols, program.HasSymbol symbol :=
    fun symbol hsymbol ↦ h.symbols hother (.inr (.inr ⟨id, hmem, hsymbol⟩))
  have hkinds := @Correspondence.Allows.kinds _ _ (h.allows ⟨other, hother, hstands⟩ hhas)
    (fun id ↦ if id ∈ program.functionStmts function then image id else id)
    fun child hchild ↦ ⟨h.linked.stands_child ⟨other, hother, hstands⟩ hchild, rfl⟩
  rw [kind_withBody]
  convert hkinds using 1
  change _ = ((program.kind id).mapSymbols map.swap).mapStmts _
  split
  · rename_i hinside
    exact h.kind_inside hinside hhas
  · rename_i houtside
    exact h.kind_outside hother (fun heq ↦ houtside (heq ▸ hmem)) hstands

theorem function_eq (other : FnId) :
    (final.withBody function (image (program.bodyOf function))).function other =
      if other = function then
        { program.function other with body := image (program.bodyOf function) }
      else program.function other := by
  have hfinal : final.HasFunction function := by
    rw [h.copy.tables]
    exact h.known
  rw [function_withBody hfinal, h.copy.tables]
  rfl

theorem functions {other : FnId} (hother : program.HasFunction other) :
    (Correspondence.copying program final function map image).Functions (program.function other)
      ((final.withBody function (image (program.bodyOf function))).function other) := by
  have hstands := h.linked.stands_body hother
  have hformals := (h.map_formals hother).symm
  have hretSym := (h.map_retSym hother).symm
  have hkept : ∀ symbol ∈ (program.function other).retSym, program.HasSymbol symbol :=
    fun symbol hsymbol ↦ h.symbols hother (.inr (.inl hsymbol))
  rw [h.function_eq]
  split
  · rename_i heq
    subst heq
    exact ⟨rfl, rfl, rfl, hformals, hretSym, hkept, hstands, (if_pos (self_mem_walk _ _)).symm⟩
  · rename_i hne
    refine ⟨rfl, rfl, rfl, hformals, hretSym, hkept, hstands, (if_neg fun hmem ↦ hne ?_).symm⟩
    exact h.linked.standsIn_unique (h.linked.standsIn_body hother)
      ((h.linked.mem_functionStmts_iff h.known).mp hmem)

theorem sound : (Correspondence.copying program final function map image).Sound where
  injective := h.fresh.swap_involutive.injective
  symbolName hsymbol := (congrArg Symbol.name (h.entry_swap hsymbol) :)
  symbolType hsymbol := (congrArg Symbol.type (h.entry_swap hsymbol) :)
  isLabel hsymbol := (congrArg Symbol.isLabel (h.entry_swap hsymbol) :)
  named hsymbol := hsymbol
  kept hsymbol := hsymbol
  label hsymbol := hsymbol
  types := by
    change final.types = program.types
    rw [h.copy.tables]
  table := by
    change final.table = program.table
    rw [h.copy.tables]
  functionName other := by
    change ((final.withBody function _).function other).name = (program.function other).name
    rw [h.function_eq]
    split <;> rfl
  slot := h.calls.slot
  iterator := h.calls.iterator
  function := h.functions
  statement := by
    rintro id _ ⟨hid, rfl⟩
    exact h.kinds hid
  stretch_ne_nil := False.elim
  stretch_label := False.elim

/-- Runs go on as before when the body of a function is exchanged for its copy. -/
theorem runsAlike :
    program.RunsAlike (final.withBody function (image (program.bodyOf function))) map.resolve := by
  intro called hcalled args hargs limits
  have hsimulates : Eval.Simulates (Correspondence.copying program final function map image)
      (Pace.exact limits) :=
    .of_no_stretch h.sound (Pace.exact_fair limits) fun _ _ h ↦ h
  obtain ⟨objects, result, -, hnumber, hresult, hlike, hsteps⟩ :=
    run_like hsimulates rfl rfl rfl hcalled hargs fun _ _ _ ↦ trivial
  obtain rfl : Machine.new.run (final.withBody function (image (program.bodyOf function))) limits
      called args = result := (Filter.eventually_top.mp hresult) ()
  refine ⟨hlike.mono (fun _ _ hlinked ↦ ObjId.ext (hnumber hlinked)) fun _ _ hname ↦ ?_, hsteps⟩
  rw [← h.fresh.swap_of_has hname.1]
  exact hname.2

end Doubles

end

end Program

variable {program : Program}

theorem copiesHygienically (hlinked : program.WellLinked) :
    (∀ {root depth}, program.AtDepth root depth → program.Has root →
      (∀ symbol ∈ program.definedSymbols root, program.HasSymbol symbol) → ∀ map : SymbolMap,
        Program.copyTree root map program =
          Program.copyTreeInOrder (program.definedSymbols root) root map program ∧
        ∀ order : List SymId, order.Perm (program.definedSymbols root) → ∃ copy map' final,
          Program.copyTreeInOrder order root map program = ((copy, map'), final) ∧
            program.IsCopy final root copy map map') ∧
    (program.CallsKnown → program.SymbolsKnown → ∀ {function}, program.HasFunction function →
      (∀ symbol, program.DeclaresIn function symbol → symbol ∉ (program.function function).formals ∧
        symbol ∉ (program.function function).retSym) →
      program.DeclaresAlone function → ∀ order : List SymId,
        order.Perm (program.definedSymbols (program.bodyOf function)) → ∃ copy map copied final,
          Program.copyTreeInOrder order (program.bodyOf function) .empty program =
            ((copy, map), copied) ∧
          Edit.replace (program.bodyOf function) copy copied = .ok () final ∧
          program.RunsAlike final fun symbol ↦ (map.find? symbol).getD symbol) := by
  refine ⟨fun {root depth} hdepth hroot hknown map ↦
    ⟨Program.copyTree_eq root map, fun order horder ↦ ?_⟩,
    fun hcalls hsymbols {function} hfunction hinterface halone order horder ↦ ?_⟩
  · obtain ⟨image, map', middle, final, hrun, hcloned, hcopied⟩ :=
      Program.copyTreeInOrder_copied hlinked hdepth hroot hknown horder map
    exact ⟨image root, map', final, hrun,
      Program.CopiedAs.isCopy hlinked hdepth hroot hcloned hcopied⟩
  · have hdepth : program.AtDepth (program.bodyOf function) 0 :=
      .root (hlinked.parent_body hfunction)
    have hknown : ∀ symbol ∈ program.definedSymbols (program.bodyOf function),
        program.HasSymbol symbol := fun symbol hsymbol ↦ by
      obtain ⟨id, hid, hdefined⟩ := Program.mem_definedSymbols.mp hsymbol
      exact hsymbols hfunction (.inr (.inr ⟨id, hid, StmtKind.mem_symbols_of_defined? hdefined⟩))
    obtain ⟨image, map, middle, copied, hrun, hcloned, hcopied⟩ :=
      Program.copyTreeInOrder_copied hlinked hdepth (hlinked.has_body hfunction)
        hknown horder .empty
    have hcopy :=
      Program.CopiedAs.isCopy hlinked hdepth (hlinked.has_body hfunction) hcloned hcopied
    have hdoubles : program.Doubles copied function map image := ⟨hlinked, hcalls, hsymbols,
      hfunction, hinterface, halone, hcopy, hcopy.fresh hknown,
      Program.CopiedAs.kind_image hcloned hcopied⟩
    refine ⟨image (program.bodyOf function), map, copied, _, hrun, ?_, hdoubles.runsAlike⟩
    have hbody : copied.bodyOf function = program.bodyOf function := by
      rw [hcopy.tables]
      rfl
    rw [← hbody]
    refine Program.replace_bodyOf hcopy.linked ?_ (hbody ▸ hcopy.detached)
    rw [hcopy.tables]
    exact hfunction

/-- A function that declares a variable and a label, and jumps to the label over a failure. -/
def jumpsOver : Program where
  types := builtinTypes
  symbols := #[{ name := "x", kind := .var, type := .int, owner := some ⟨0⟩ },
    { name := "end", kind := .label, type := .void, owner := some ⟨0⟩ }]
  statements := #[
    { kind := .plain [⟨1⟩, ⟨2⟩, ⟨3⟩, ⟨4⟩, ⟨5⟩, ⟨6⟩], bodyOf := some ⟨0⟩, span := .none },
    { kind := .action (.define ⟨0⟩), parent := some ⟨0⟩, span := .none },
    { kind := .action (.assign ⟨0⟩ (.use (.int 5))), parent := some ⟨0⟩, span := .none },
    { kind := .action (.goto ⟨1⟩), parent := some ⟨0⟩, span := .none },
    { kind := .action (.fail "skipped"), parent := some ⟨0⟩, span := .none },
    { kind := .action (.define ⟨1⟩), parent := some ⟨0⟩, span := .none },
    { kind := .action (.ret (.sym ⟨0⟩)), parent := some ⟨0⟩, span := .none }]
  functions := #[{ name := "main", retType := .int, body := ⟨0⟩ }]

theorem copyTreeInOrder_jumpsOver :
    let made := Program.copyTreeInOrder [⟨1⟩, ⟨0⟩] ⟨0⟩ .empty jumpsOver
    made.1.2.find? ⟨0⟩ = some ⟨3⟩ ∧ made.1.2.find? ⟨1⟩ = some ⟨2⟩ ∧
      (made.2.walk made.1.1).tail.map made.2.kind = [.action (.define ⟨3⟩),
        .action (.assign ⟨3⟩ (.use (.int 5))), .action (.goto ⟨2⟩),
        .action (.fail "skipped"), .action (.define ⟨2⟩), .action (.ret (.sym ⟨3⟩))] := by
  decide +kernel

theorem replace_jumpsOver :
    let made := Program.copyTreeInOrder [⟨1⟩, ⟨0⟩] (jumpsOver.bodyOf ⟨0⟩) .empty jumpsOver
    (match Edit.replace (jumpsOver.bodyOf ⟨0⟩) made.1.1 made.2 with
      | .ok _ final => decide ((final.functionStmts ⟨0⟩).flatMap
          (fun id ↦ (final.kind id).symbols) = [⟨3⟩, ⟨3⟩, ⟨2⟩, ⟨2⟩, ⟨3⟩])
      | .error _ _ => false) = true := by
  decide +kernel

/-- The copy of the body names the clones, and the original symbols no more. -/
theorem copiesHygienically_jumpsOver :
    jumpsOver.WellLinked ∧ jumpsOver.definedSymbols ⟨0⟩ = [⟨0⟩, ⟨1⟩] ∧
      (∃ copy map final, Program.copyTreeInOrder [⟨1⟩, ⟨0⟩] ⟨0⟩ .empty jumpsOver =
        ((copy, map), final) ∧ jumpsOver.IsCopy final ⟨0⟩ copy .empty map ∧
          map.find? ⟨0⟩ = some ⟨3⟩ ∧ map.find? ⟨1⟩ = some ⟨2⟩ ∧
          (final.walk copy).tail.map final.kind = [.action (.define ⟨3⟩),
            .action (.assign ⟨3⟩ (.use (.int 5))), .action (.goto ⟨2⟩),
            .action (.fail "skipped"), .action (.define ⟨2⟩), .action (.ret (.sym ⟨3⟩))]) ∧
      ∃ copy map copied final, Program.copyTreeInOrder [⟨1⟩, ⟨0⟩] (jumpsOver.bodyOf ⟨0⟩) .empty
          jumpsOver = ((copy, map), copied) ∧
        Edit.replace (jumpsOver.bodyOf ⟨0⟩) copy copied = .ok () final ∧
          (final.functionStmts ⟨0⟩).flatMap (fun id ↦ (final.kind id).symbols) =
            [⟨3⟩, ⟨3⟩, ⟨2⟩, ⟨2⟩, ⟨3⟩] ∧
          jumpsOver.RunsAlike final fun symbol ↦ (map.find? symbol).getD symbol := by
  have hlinked : jumpsOver.WellLinked := by decide
  have hdefined : jumpsOver.definedSymbols ⟨0⟩ = [⟨0⟩, ⟨1⟩] := by decide +kernel
  have horder : [⟨1⟩, ⟨0⟩].Perm (jumpsOver.definedSymbols ⟨0⟩) := hdefined ▸ by decide
  have hfunction : jumpsOver.HasFunction ⟨0⟩ := Nat.zero_lt_one
  refine ⟨hlinked, hdefined, ?_, ?_⟩
  · have hknown : ∀ symbol ∈ jumpsOver.definedSymbols ⟨0⟩, jumpsOver.HasSymbol symbol :=
      hdefined ▸ by decide
    obtain ⟨copy, map, final, hrun, hcopy⟩ :=
      ((copiesHygienically hlinked).1 (.root rfl) (by decide) hknown .empty).2 _ horder
    have hmade := copyTreeInOrder_jumpsOver
    rw [hrun] at hmade
    exact ⟨copy, map, final, hrun, hcopy, hmade⟩
  · have hcalls : jumpsOver.CallsKnown :=
      Program.callsKnown_of_forall (by decide) (by decide) (by decide)
    have hsymbols : jumpsOver.SymbolsKnown :=
      Program.symbolsKnown_of_forall hlinked (by decide) (by decide)
    obtain ⟨copy, map, copied, final, hrun, hreplace, halike⟩ :=
      (copiesHygienically hlinked).2 hcalls hsymbols hfunction (fun _ _ ↦ ⟨nofun, nofun⟩)
        (Program.declaresAlone_of_size_eq_one rfl hfunction) _ horder
    have hmade := replace_jumpsOver
    rw [hrun] at hmade
    dsimp only at hmade
    rw [hreplace] at hmade
    exact ⟨copy, map, copied, final, hrun, hreplace, of_decide_eq_true hmade, halike⟩

end IteratorLowering
