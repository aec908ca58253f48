import IteratorLowering.Proofs.Forest.Handles
import IteratorLowering.Proofs.Passes.Zipping

/-!
# The shape of a zippered header

A header of nested tuples has a leaf at each of its `Program.leafPaths`. Opening it gives one
component for each leaf, from left to right, and the stores that put the index together lead from
the index along the path of the leaf to the index of its component (`ZipSetup.Opens`,
`opens_zipSetup`). Every temporary on the way is new, and no field of an index tuple is stored
twice.

Opening a header adds statements and symbols and nothing else (`Program.Declares`), so that the
types that are read on the way are those of the program before.
-/

set_option autoImplicit false
set_option relaxedAutoImplicit false

namespace IteratorLowering

namespace Program

/-! ### Adding symbols -/

/-- A program with the same types and with symbols added to those of another one. -/
structure Declares (program final : Program) : Prop where
  types : final.types = program.types
  symbol : ∀ {id}, program.HasSymbol id →
    final.HasSymbol id ∧ final.symbolType id = program.symbolType id

namespace Declares

variable {program middle final : Program}

theorem refl (program : Program) : program.Declares program := ⟨rfl, fun h ↦ ⟨h, rfl⟩⟩

theorem trans (first : program.Declares middle) (second : middle.Declares final) :
    program.Declares final where
  types := second.types.trans first.types
  symbol h := by
    obtain ⟨hmiddle, htype⟩ := first.symbol h
    obtain ⟨hfinal, htype'⟩ := second.symbol hmiddle
    exact ⟨hfinal, htype'.trans htype⟩

instance : IsPreorder Program Declares where
  refl := refl
  trans _ _ _ := trans

theorem of_statements (program : Program) (statements : Array Stmt) :
    program.Declares { program with statements } :=
  ⟨rfl, fun h ↦ ⟨h, rfl⟩⟩

theorem addSymbol (program : Program) (entry : Symbol) :
    program.Declares (program.addSymbol entry).2 where
  types := rfl
  symbol {id} h := by
    have hlt : id.index < program.symbols.size := h
    refine ⟨?_, ?_⟩
    · simp only [HasSymbol, Program.addSymbol, Array.size_push]
      omega
    · simp only [symbolType, Program.symbol, Program.addSymbol, Array.getD_eq_getD_getElem?,
        Array.getElem?_push_lt hlt, Array.getElem?_eq_getElem hlt]

theorem type (h : program.Declares final) (id : TypeId) : final.type id = program.type id := by
  rw [Program.type, Program.type, h.types]

theorem valueType (h : program.Declares final) (id : TypeId) :
    final.valueType id = program.valueType id := by
  simp only [Program.valueType, h.type]

theorem tupleFields? (h : program.Declares final) (id : TypeId) :
    final.tupleFields? id = program.tupleFields? id := by
  simp only [Program.tupleFields?, h.valueType, h.type]

end Declares

/-- The number of fields behind a symbol, seen through a reference. -/
def width (program : Program) (symbol : SymId) : Nat :=
  (program.type (program.valueType (program.symbolType symbol))).fields.length

theorem Declares.width {program final : Program} (h : program.Declares final) {symbol : SymId}
    (hsymbol : program.HasSymbol symbol) : final.width symbol = program.width symbol := by
  rw [Program.width, Program.width, (h.symbol hsymbol).2, h.valueType, h.type]

/-- A variable of an aggregate stays one of the same width. -/
theorem Grows.isAggregate {program final : Program} (h : program.Grows final) {symbol : SymId}
    (hsymbol : program.HasSymbol symbol)
    (haggregate : (program.type (program.symbolType symbol)).isAggregate = true) :
    (final.type (final.symbolType symbol)).isAggregate = true ∧
      (final.type (final.symbolType symbol)).fields.length = program.width symbol := by
  have htype : program.HasType (program.symbolType symbol) := by
    by_contra hout
    rw [type_of_not_has hout] at haggregate
    cases haggregate
  have hkind := congrArg TypeDef.kind (h.type htype).2
  have hfields := congrArg TypeDef.fields (h.type htype).2
  dsimp only at hkind hfields
  -- An aggregate is no reference, so it is its own value type.
  have hvalue : program.valueType (program.symbolType symbol) = program.symbolType symbol := by
    unfold Program.valueType
    split
    next target href => simp [TypeDef.isAggregate, href] at haggregate
    next => rfl
  rw [(h.symbol hsymbol).2, TypeDef.isAggregate, hkind, hfields, width, hvalue]
  exact ⟨haggregate, rfl⟩

/-- A symbol that was just added. -/
theorem hasSymbol_addSymbol (program : Program) (entry : Symbol) :
    (program.addSymbol entry).2.HasSymbol (program.addSymbol entry).1 := by
  simp [HasSymbol, addSymbol]

theorem not_hasSymbol_addSymbol (program : Program) (entry : Symbol) :
    ¬ program.HasSymbol (program.addSymbol entry).1 :=
  Nat.lt_irrefl _

theorem symbolType_addSymbol (program : Program) (entry : Symbol) :
    (program.addSymbol entry).2.symbolType (program.addSymbol entry).1 = entry.type := by
  simp [symbolType, Program.symbol, addSymbol]

/-! ### The leaves of a header -/

/-- The paths to the leaves of a header type, from left to right, looking into tuples down to the
given number of levels. -/
def leafPathsTo (program : Program) : Nat → TypeId → List (List Nat)
  | 0, _ => [[]]
  | depth + 1, type =>
    match program.tupleFields? type with
    | none => [[]]
    | some types => types.zipIdx.flatMap fun (type, position) =>
        (program.leafPathsTo depth type).map (position :: ·)

/-- The paths to the leaves of a header type, from left to right. -/
def leafPaths (program : Program) (type : TypeId) : List (List Nat) :=
  program.leafPathsTo program.types.size type

theorem Declares.leafPathsTo {program final : Program} (h : program.Declares final) (depth : Nat)
    (type : TypeId) : final.leafPathsTo depth type = program.leafPathsTo depth type := by
  induction depth generalizing type with
  | zero => rfl
  | succ depth ih => simp only [Program.leafPathsTo, h.tupleFields?, ih]

end Program

/-! ### Edits add nothing -/

section

variable {program : Program}

theorem Edit.declares_position {id : StmtId} :
    Ensures (Edit.position id) program program.Declares fun _ _ ↦ True := by
  unfold Edit.position
  refine ensures_get_bind.mpr ?_
  split
  · exact .stay trivial
  · exact ensures_throw.mpr (.refl program)

theorem Edit.declares_modifyBody {block : StmtId} {change : List StmtId → List StmtId} :
    Ensures (Edit.modifyBody block change) program program.Declares fun _ _ ↦ True := by
  unfold Edit.modifyBody
  refine ensures_get_bind.mpr ?_
  split
  · exact ensures_modify.mpr ⟨.of_statements _ _, trivial⟩
  all_goals exact ensures_throw.mpr (.refl program)

theorem Edit.declares_detach {id : StmtId} :
    Ensures (Edit.detach id) program program.Declares fun _ _ ↦ True := by
  unfold Edit.detach
  refine ensures_get_bind.mpr ?_
  split
  · unfold Edit.remove
    refine Ensures.seq declares_position fun place _ _ _ ↦ ?_
    refine Ensures.seq declares_modifyBody fun _ _ _ _ ↦ ?_
    exact ensures_modify.mpr ⟨.of_statements _ _, trivial⟩
  · exact .stay trivial

theorem Edit.declares_insertBefore {anchor new : StmtId} :
    Ensures (Edit.insertBefore anchor new) program program.Declares fun _ _ ↦ True := by
  unfold Edit.insertBefore
  refine Ensures.seq declares_detach fun _ _ _ _ ↦ ?_
  refine Ensures.seq declares_position fun place _ _ _ ↦ ?_
  unfold Edit.insertAt
  refine Ensures.seq declares_detach fun _ _ _ _ ↦ ?_
  refine Ensures.seq declares_modifyBody fun _ _ _ _ ↦ ?_
  exact ensures_modify.mpr ⟨.of_statements _ _, trivial⟩

theorem declares_newAction {action : Action} {span : Span} :
    Ensures (newAction action span) program program.Declares fun _ _ ↦ True :=
  ensures_modifyGet.mpr ⟨.of_statements _ _, trivial⟩

theorem declares_emitBefore {anchor : StmtId} {action : Action} {span : Span} :
    Ensures (emitBefore anchor action span) program program.Declares fun _ _ ↦ True :=
  Ensures.seq (.build declares_newAction) fun _ _ _ _ ↦ Edit.declares_insertBefore.edit

/-- A component that is read into a local has the type that is asked for. -/
theorem declares_readComponent {block : StmtId} {owner : FnId} {tuple : SymId} {position : Nat}
    {type : TypeId} :
    Ensures (readComponent block owner tuple position type) program program.Declares
      fun component final ↦ final.HasSymbol component ∧ final.symbolType component = type := by
  unfold readComponent
  refine ensures_get_bind.mpr (ensures_modifyGet_bind.mpr ?_)
  refine .after (.addSymbol program _) ?_
  refine Ensures.seq declares_emitBefore fun _ middle h _ ↦ ?_
  refine Ensures.seq declares_emitBefore fun _ final h' _ ↦ .stay ?_
  obtain ⟨hhas, htype⟩ := (h.trans h').symbol (program.hasSymbol_addSymbol _)
  exact ⟨hhas, htype.trans (program.symbolType_addSymbol _)⟩

end

/-! ### What is opened -/

namespace ZipSetup

/-- Following stores from an index tuple along a path leads to the symbol. -/
inductive Leads (stores : List IndexStore) : SymId → List Nat → SymId → Prop
  | here {index : SymId} : Leads stores index [] index
  | into {store : IndexStore} {path : List Nat} {leaf : SymId} (hstore : store ∈ stores)
      (hpath : Leads stores store.value path leaf) :
      Leads stores store.tuple (store.field :: path) leaf

theorem Leads.mono {stores stores' : List IndexStore} (hsub : stores ⊆ stores') {index leaf : SymId}
    {path : List Nat} (h : Leads stores index path leaf) : Leads stores' index path leaf := by
  induction h with
  | here => exact .here
  | into hstore _ ih => exact .into (hsub hstore) ih

/-- A setup that was made between two programs puts the fields of an index together from the
leaves at some paths. -/
structure Opens (program final : Program) (index : SymId) (fields : List Nat)
    (paths : List (List Nat)) (setup : ZipSetup) : Prop where
  leaf : List.Forall₂ (fun path component ↦ Leads setup.indexStores index path component.2)
    paths setup.components
  tuple : ∀ store ∈ setup.indexStores,
    store.tuple = index ∧ store.field ∈ fields ∨ store.tuple ∈ setup.indexDefs
  value : ∀ store ∈ setup.indexStores, store.value ∈ setup.indexDefs
  new : ∀ symbol ∈ setup.indexDefs, ¬ program.HasSymbol symbol ∧ final.HasSymbol symbol
  width : ∀ store ∈ setup.indexStores, store.field < final.width store.tuple
  apart : setup.indexStores.Pairwise fun first second ↦
    first.tuple = second.tuple → first.field ≠ second.field

variable {program middle final : Program} {index : SymId} {fields fields' : List Nat}
variable {paths paths' : List (List Nat)} {first second setup : ZipSetup}

theorem append_nil (setup : ZipSetup) : setup.append {} = setup := by
  simp [append]

theorem nil_append (setup : ZipSetup) : ZipSetup.append {} setup = setup := by
  simp [append]

theorem append_assoc (first second third : ZipSetup) :
    (first.append second).append third = first.append (second.append third) := by
  simp [append]

namespace Opens

/-- A leaf is opened into itself. -/
theorem single (program : Program) (index iterator : SymId) :
    ({ components := [(iterator, index)] } : ZipSetup).Opens program program index [] [[]] where
  leaf := .cons .here .nil
  tuple _ h := nomatch h
  value _ h := nomatch h
  new _ h := nomatch h
  width _ h := nomatch h
  apart := .nil

theorem none (program : Program) (index : SymId) :
    ({} : ZipSetup).Opens program program index [] [] where
  leaf := .nil
  tuple _ h := nomatch h
  value _ h := nomatch h
  new _ h := nomatch h
  width _ h := nomatch h
  apart := .nil

/-- Some fields after others. The temporaries of the second part are newer than those of the
first, so only the fields of the index itself could meet. -/
theorem append (hindex : program.HasSymbol index)
    (hfirst : first.Opens program middle index fields paths)
    (hsecond : second.Opens middle final index fields' paths') (hbefore : program.Declares middle)
    (hafter : middle.Declares final) (hfields : fields.Disjoint fields') :
    (first.append second).Opens program final index (fields ++ fields') (paths ++ paths') where
  leaf := by
    refine List.rel_append (hfirst.leaf.imp fun _ _ h ↦ ?_) (hsecond.leaf.imp fun _ _ h ↦ ?_)
    · exact h.mono (List.subset_append_left _ _)
    · exact h.mono (List.subset_append_right _ _)
  tuple store hstore := by
    rcases List.mem_append.mp hstore with hstore | hstore
    · exact (hfirst.tuple store hstore).imp (And.imp_right (List.mem_append_left _))
        (List.mem_append_left _)
    · exact (hsecond.tuple store hstore).imp (And.imp_right (List.mem_append_right _))
        (List.mem_append_right _)
  value store hstore := by
    rcases List.mem_append.mp hstore with hstore | hstore
    · exact List.mem_append_left _ (hfirst.value store hstore)
    · exact List.mem_append_right _ (hsecond.value store hstore)
  new symbol hsymbol := by
    rcases List.mem_append.mp hsymbol with hsymbol | hsymbol
    · exact ⟨(hfirst.new symbol hsymbol).1, (hafter.symbol (hfirst.new symbol hsymbol).2).1⟩
    · exact ⟨fun h ↦ (hsecond.new symbol hsymbol).1 (hbefore.symbol h).1,
        (hsecond.new symbol hsymbol).2⟩
  width store hstore := by
    rcases List.mem_append.mp hstore with hstore | hstore
    · have hold : middle.HasSymbol store.tuple := by
        rcases hfirst.tuple store hstore with ⟨htuple, -⟩ | htuple
        · exact htuple ▸ (hbefore.symbol hindex).1
        · exact (hfirst.new _ htuple).2
      exact hafter.width hold ▸ hfirst.width store hstore
    · exact hsecond.width store hstore
  apart := by
    refine List.pairwise_append.mpr
      ⟨hfirst.apart, hsecond.apart, fun store hstore store' hstore' heq ↦ ?_⟩
    rcases hfirst.tuple store hstore with ⟨htuple, hfield⟩ | htuple <;>
      rcases hsecond.tuple store' hstore' with ⟨htuple', hfield'⟩ | htuple'
    · exact fun hsame ↦ hfields hfield (hsame ▸ hfield')
    · refine absurd (hbefore.symbol hindex).1 ?_
      rw [← htuple, heq]
      exact (hsecond.new _ htuple').1
    · refine absurd hindex ?_
      rw [← htuple', ← heq]
      exact (hfirst.new _ htuple).1
    · refine absurd (hfirst.new _ htuple).2 ?_
      rw [heq]
      exact (hsecond.new _ htuple').1

/-- A field of the index that is a header of its own, opened from a new temporary. -/
theorem nest {inner : SymId} {position : Nat} (hindex : program.HasSymbol index)
    (hbefore : program.Declares middle) (hafter : middle.Declares final)
    (hposition : position < program.width index) (hnew : ¬ program.HasSymbol inner)
    (hinner : final.HasSymbol inner) (h : setup.Opens middle final inner fields paths) :
    ({ components := setup.components
       indexDefs := inner :: setup.indexDefs
       indexStores := setup.indexStores ++ [⟨index, position, inner⟩] } : ZipSetup).Opens
      program final index [position] (paths.map (position :: ·)) where
  leaf := by
    have hstore : (⟨index, position, inner⟩ : IndexStore) ∈
        setup.indexStores ++ [⟨index, position, inner⟩] :=
      List.mem_append_right _ List.mem_cons_self
    refine List.forall₂_map_left_iff.mpr (h.leaf.imp fun path component hpath ↦ ?_)
    exact .into hstore (hpath.mono (List.subset_append_left _ _))
  tuple store hstore := by
    rcases List.mem_append.mp hstore with hstore | hstore
    · refine .inr ?_
      rcases h.tuple store hstore with ⟨htuple, -⟩ | htuple
      · exact htuple ▸ List.mem_cons_self
      · exact List.mem_cons_of_mem _ htuple
    · obtain rfl := List.mem_singleton.mp hstore
      exact .inl ⟨rfl, List.mem_cons_self⟩
  value store hstore := by
    rcases List.mem_append.mp hstore with hstore | hstore
    · exact List.mem_cons_of_mem _ (h.value store hstore)
    · obtain rfl := List.mem_singleton.mp hstore
      exact List.mem_cons_self
  new symbol hsymbol := by
    rcases List.mem_cons.mp hsymbol with rfl | hsymbol
    · exact ⟨hnew, hinner⟩
    · exact ⟨fun hold ↦ (h.new symbol hsymbol).1 (hbefore.symbol hold).1, (h.new symbol hsymbol).2⟩
  width store hstore := by
    rcases List.mem_append.mp hstore with hstore | hstore
    · exact h.width store hstore
    · obtain rfl := List.mem_singleton.mp hstore
      exact (hbefore.trans hafter).width hindex ▸ hposition
  apart := by
    refine List.pairwise_append.mpr
      ⟨h.apart, List.pairwise_singleton .., fun store hstore store' hstore' heq ↦ ?_⟩
    obtain rfl := List.mem_singleton.mp hstore'
    -- The stores of the inner header go to temporaries that the index is older than.
    dsimp only at heq
    refine absurd hindex ?_
    rcases h.tuple store hstore with ⟨htuple, -⟩ | htuple
    · rw [← heq, htuple]
      exact hnew
    · rw [← heq]
      exact fun hold ↦ (h.new _ htuple).1 (hbefore.symbol hold).1

end Opens

end ZipSetup

/-! ### Opening a header -/

variable {program : Program} {block : StmtId} {owner : FnId}

/-- What a loop over the fields of a tuple gathers, if each of its steps opens one field. -/
theorem ensures_openFields (depth : Nat) {index : SymId} {items : List ((TypeId × TypeId) × Nat)}
    {step : ZipSetup → (TypeId × TypeId) × Nat → Pass ZipSetup}
    (hstep : ∀ item ∈ items, ∀ (setup : ZipSetup) (middle : Program), program.Declares middle →
      Ensures (step setup item) middle middle.Declares fun opened final ↦
        ∃ part : ZipSetup, opened = setup.append part ∧ part.Opens middle final index [item.2]
          ((middle.leafPathsTo depth item.1.1).map (item.2 :: ·)))
    (hitems : (items.map Prod.snd).Nodup) (hindex : program.HasSymbol index) (setup : ZipSetup) :
    Ensures (items.foldlM step setup) program program.Declares fun opened final ↦
      ∃ part : ZipSetup, opened = setup.append part ∧
        part.Opens program final index (items.map Prod.snd)
          (items.flatMap fun item ↦ (program.leafPathsTo depth item.1.1).map (item.2 :: ·)) := by
  induction items generalizing program setup with
  | nil => exact .stay ⟨{}, setup.append_nil.symm, .none program index⟩
  | cons item rest ih =>
    rw [List.foldlM_cons]
    rw [List.map_cons, List.nodup_cons] at hitems
    refine Ensures.seq (hstep item List.mem_cons_self setup program (.refl program)) ?_
    rintro _ middle h ⟨part, rfl, hpart⟩
    have hrest := ih (fun other hother setup final h' ↦
      hstep other (List.mem_cons_of_mem _ hother) setup final (h.trans h')) hitems.2
      (h.symbol hindex).1 (setup.append part)
    refine hrest.tagged.mono (fun _ h' ↦ h') ?_
    rintro _ final - ⟨h', others, rfl, hothers⟩
    refine ⟨part.append others, setup.append_assoc part others, ?_⟩
    simp only [h.leafPathsTo] at hothers
    exact hpart.append hindex hothers h h' (List.singleton_disjoint.mpr hitems.1)

/-- The fields of a tuple, numbered together with the fields of a tuple of the same length. -/
theorem flatMap_zipIdx_zip {α β γ : Type} {first : List α} {second : List β}
    (h : first.length = second.length) (f : α → Nat → List γ) :
    ((first.zip second).zipIdx.flatMap fun item ↦ f item.1.1 item.2) =
      first.zipIdx.flatMap fun item ↦ f item.1 item.2 := by
  have hfirst : (first.zip second).map Prod.fst = first := List.map_fst_zip (Nat.le_of_eq h)
  calc ((first.zip second).zipIdx.flatMap fun item ↦ f item.1.1 item.2)
      = ((first.zip second).map Prod.fst).zipIdx.flatMap fun item ↦ f item.1 item.2 := by
        rw [List.zipIdx_map, List.flatMap_map]
        rfl
    _ = first.zipIdx.flatMap fun item ↦ f item.1 item.2 := by rw [hfirst]

theorem ensures_zipSetupTo {depth : Nat} {index iterator : SymId}
    (hindex : program.HasSymbol index) :
    Ensures (zipSetupTo block owner depth index iterator) program program.Declares
      fun setup final ↦ ∃ fields, setup.Opens program final index fields
        (program.leafPathsTo depth (program.symbolType iterator)) := by
  induction depth generalizing program index iterator with
  | zero => exact .stay ⟨[], .single program index iterator⟩
  | succ depth ih =>
    unfold zipSetupTo
    refine ensures_get_bind.mpr ?_
    split
    next hnone =>
      simp only [Program.leafPathsTo, hnone]
      exact .stay ⟨[], .single program index iterator⟩
    next iteratorTypes htypes =>
      dsimp only
      split
      · exact ensures_throw_bind.mpr (.refl program)
      · next hshape =>
        simp only [Bool.or_eq_true, Bool.not_eq_true', bne_iff_ne, not_or, not_not] at hshape
        refine (ensures_openFields depth (fun item hitem setup current hcurrent ↦ ?_) ?_ hindex
          {}).mono (fun _ h ↦ h) ?_
        · -- One field: its component and its index are new, and the rest opens the inner header.
          obtain ⟨⟨iteratorType, type⟩, position⟩ := item
          have hposition : position < program.width index := by
            have hlt := (List.mem_zipIdx' hitem).1
            simp only [List.length_zip, List.length_map] at hlt
            exact Nat.lt_of_lt_of_le hlt (Nat.min_le_right ..)
          refine Ensures.seq declares_readComponent fun component middle h hcomponent ↦ ?_
          refine ensures_modifyGet_bind.mpr (.after (.addSymbol middle _) ?_)
          have hadd := Program.Declares.addSymbol middle
            { name := "_index", kind := .var, type, owner := some owner, flags := { temp := true } }
          have htype := (hadd.symbol hcomponent.1).2.trans hcomponent.2
          refine Ensures.seq (ih (middle.hasSymbol_addSymbol _)) ?_
          rintro inner final h' ⟨fields, hinner⟩
          refine .stay ⟨_, rfl, ?_⟩
          rw [Program.newLocal, htype, (h.trans hadd).leafPathsTo] at hinner
          exact hinner.nest (hcurrent.symbol hindex).1 (h.trans hadd) h'
            (hcurrent.width hindex ▸ hposition)
            (fun hold ↦ middle.not_hasSymbol_addSymbol _ (h.symbol hold).1)
            (h'.symbol (middle.hasSymbol_addSymbol _)).1
        · rw [List.zipIdx_map_snd]
          exact List.nodup_range'
        · rintro _ final - ⟨part, rfl, hpart⟩
          have hpaths := flatMap_zipIdx_zip hshape.2
            fun type position ↦ (program.leafPathsTo depth type).map (position :: ·)
          rw [ZipSetup.nil_append, Program.leafPathsTo, htypes]
          dsimp only
          rw [← hpaths]
          exact ⟨_, hpart⟩

/-- Opening a header gives a component for each leaf, and stores that put the leaves in their
places. -/
theorem opens_zipSetup {index iterator : SymId} {setup : ZipSetup} {final : Program}
    (hindex : program.HasSymbol index)
    (hsetup : zipSetup block index iterator owner program = .ok setup final) :
    program.Declares final ∧ ∃ fields, setup.Opens program final index fields
      (program.leafPaths (program.symbolType iterator)) :=
  (ensures_get_bind.mpr (ensures_zipSetupTo hindex)).of_eq_ok hsetup

end IteratorLowering
