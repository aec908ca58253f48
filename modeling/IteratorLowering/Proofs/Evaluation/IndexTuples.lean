import IteratorLowering.Proofs.Evaluation.Budget
import IteratorLowering.Proofs.Evaluation.Locals
import IteratorLowering.Proofs.Passes.Headers

/-!
# Putting an index tuple together

In each round of a zippered loop the index and its temporaries are declared, the indices of the
components get their values, and stores put these values into the index. Where the index and all
temporaries for its inner tuples are aggregates, and not references to some, their declarations
give each an object of its own (`Spread.declaredAll`), and the stores succeed and leave the
value of every component at the path of its leaf, whatever ran in between and left the variables
for the tuples alone (`assembles_round`).

Nothing is said of a temporary that is a reference. It is declared unset, and a store into it fails.
-/

set_option autoImplicit false
set_option relaxedAutoImplicit false

namespace IteratorLowering

namespace Machine

/-! ### Locals and paths -/

/-- What a value leads to along a path of fields. -/
def follow? (machine : Machine) : Value → List Nat → Option Value
  | value, [] => some value
  | .obj object, position :: path =>
    (machine.heap[object.index]?.bind fun held => held.fields[position]?).bind fun value =>
      machine.follow? value path
  | _, _ :: _ => none

/-- The machine after a store of an index. -/
def assembled (frame : Nat) (machine : Machine) (store : IndexStore) : Machine :=
  match machine.local? frame store.tuple, machine.local? frame store.value with
  | some (.obj object), some value => machine.setField object store.field value
  | _, _ => machine

/-- The machine after the declaration of a variable. -/
def declared (program : Program) (frame : Nat) (machine : Machine) (symbol : SymId) : Machine :=
  let type := program.type (program.symbolType symbol)
  if type.isAggregate then
    let fields := type.fields.map fun field => Eval.fieldDefault (program.type field.type).kind
    let (object, machine) := machine.allocate (program.symbolType symbol) fields.toArray
    machine.setLocal frame symbol (.obj object)
  else machine.setLocal frame symbol (Eval.fieldDefault type.kind)

/-- The declaration of a variable of an aggregate type adds an object. -/
theorem declared_of_isAggregate {program : Program} {symbol : SymId} (frame : Nat)
    (machine : Machine) (h : (program.type (program.symbolType symbol)).isAggregate = true) :
    ∃ fields : Array Value,
      fields.size = (program.type (program.symbolType symbol)).fields.length ∧
        machine.declared program frame symbol =
          (machine.allocate (program.symbolType symbol) fields).2.setLocal frame symbol
            (.obj ⟨machine.heap.size⟩) := by
  refine ⟨_, ?_, if_pos h⟩
  simp

/-- The machine after declarations that run one after the other. -/
def declaredAll (program : Program) (frame : Nat) (symbols : List SymId) (machine : Machine) :
    Machine :=
  { symbols.foldl (declared program frame) machine with steps := machine.steps + symbols.length }

/-- The machine after stores that run one after the other. -/
def assembledAll (frame : Nat) (stores : List IndexStore) (machine : Machine) : Machine :=
  { stores.foldl (assembled frame) machine with steps := machine.steps + stores.length }

section

variable {machine : Machine} {frame : Nat} {symbol other : SymId} {value : Value}

theorem declared_steps (program : Program) (machine : Machine) (steps : Nat) (symbol : SymId) :
    declared program frame { machine with steps } symbol =
      { machine.declared program frame symbol with steps } := by
  unfold declared
  dsimp only
  split <;> rfl

theorem foldl_declared_steps (program : Program) (machine : Machine) (steps : Nat)
    (symbols : List SymId) :
    symbols.foldl (Machine.declared program frame) { machine with steps } =
      { symbols.foldl (Machine.declared program frame) machine with steps } := by
  induction symbols generalizing machine with
  | nil => rfl
  | cons symbol rest ih => rw [List.foldl_cons, declared_steps, ih, List.foldl_cons]

theorem follow?_steps (machine : Machine) (steps : Nat) (value : Value) (path : List Nat) :
    { machine with steps }.follow? value path = machine.follow? value path := by
  induction path generalizing value with
  | nil => cases value <;> rfl
  | cons position path ih => cases value <;> simp only [follow?, ih]

theorem frames_assembled (machine : Machine) (store : IndexStore) :
    (machine.assembled frame store).frames = machine.frames := by
  unfold assembled
  split <;> rfl

theorem assembled_steps (machine : Machine) (steps : Nat) (store : IndexStore) :
    assembled frame { machine with steps } store =
      { machine.assembled frame store with steps } := by
  unfold assembled
  dsimp only [local?]
  split <;> rfl

theorem local?_assembled (machine : Machine) (store : IndexStore) (symbol : SymId) :
    (machine.assembled frame store).local? frame symbol = machine.local? frame symbol := by
  rw [local?, frames_assembled, local?]

end

/-! ### Stores -/

/-- The stores can run: each tuple has an object with room for the field, no two tuples share
theirs, and each value is set. -/
structure Laid (machine : Machine) (frame : Nat) (stores : List IndexStore) : Prop where
  tuple : ∀ store ∈ stores, ∃ object held,
    machine.local? frame store.tuple = some (.obj object) ∧
      machine.heap[object.index]? = some held ∧ store.field < held.fields.size
  unshared : ∀ first ∈ stores, ∀ second ∈ stores,
    machine.local? frame first.tuple = machine.local? frame second.tuple →
      first.tuple = second.tuple
  value : ∀ store ∈ stores, (machine.local? frame store.value).isSome

/-- The field that a store writes holds the value of the store's symbol. -/
def Holds (machine : Machine) (frame : Nat) (store : IndexStore) : Prop :=
  ∃ object held value, machine.local? frame store.tuple = some (.obj object) ∧
    machine.heap[object.index]? = some held ∧ machine.local? frame store.value = some value ∧
      held.fields[store.field]? = some value

variable {program : Program} {machine : Machine} {frame : Nat} {store other : IndexStore}
variable {stores : List IndexStore}

theorem Laid.mono {stores' : List IndexStore} (hsub : stores' ⊆ stores)
    (h : machine.Laid frame stores) : machine.Laid frame stores' where
  tuple store hstore := h.tuple store (hsub hstore)
  unshared first hfirst second hsecond := h.unshared first (hsub hfirst) second (hsub hsecond)
  value store hstore := h.value store (hsub hstore)

theorem evolves_assembled (program : Program) (machine : Machine) (store : IndexStore) :
    machine.Evolves program (machine.assembled frame store) := by
  unfold assembled
  split
  · exact .setField program machine _ _ _
  · exact .refl program machine

/-- Stores can run on whatever is reached from where they can, if their variables are kept. -/
theorem Laid.of_evolves {final : Machine} (h : machine.Laid frame stores)
    (hevolves : machine.Evolves program final)
    (hkept : ∀ store ∈ stores, final.local? frame store.tuple = machine.local? frame store.tuple)
    (hvalue : ∀ store ∈ stores, (final.local? frame store.value).isSome) :
    final.Laid frame stores where
  tuple store hstore := by
    obtain ⟨object, held, htuple, hheld, hfield⟩ := h.tuple store hstore
    obtain ⟨held', hheld', -, hsize⟩ := hevolves.object hheld
    exact ⟨object, held', (hkept store hstore).trans htuple, hheld', hsize ▸ hfield⟩
  unshared first hfirst second hsecond heq := by
    rw [hkept first hfirst, hkept second hsecond] at heq
    exact h.unshared first hfirst second hsecond heq
  value := hvalue

theorem Laid.assembled (h : machine.Laid frame stores) (store : IndexStore) :
    (machine.assembled frame store).Laid frame stores :=
  h.of_evolves (evolves_assembled default machine store)
    (fun _ _ ↦ local?_assembled machine store _)
    fun other hother ↦ (local?_assembled machine store _).symm ▸ h.value other hother

/-- A store leaves its value. -/
theorem Laid.holds (h : machine.Laid frame stores) (hstore : store ∈ stores) :
    (machine.assembled frame store).Holds frame store := by
  obtain ⟨object, held, htuple, hheld, hfield⟩ := h.tuple store hstore
  obtain ⟨value, hvalue⟩ := Option.isSome_iff_exists.mp (h.value store hstore)
  have heq : machine.assembled frame store = machine.setField object store.field value := by
    rw [Machine.assembled, htuple, hvalue]
  refine ⟨object, { held with fields := held.fields.setIfInBounds store.field value }, value,
    (local?_assembled ..).trans htuple, ?_, (local?_assembled ..).trans hvalue, ?_⟩
  · rw [heq, setField, Array.getElem?_modify, if_pos rfl, hheld]
    rfl
  · simp [hfield]

/-- Another store keeps it, unless it goes to the same field of the same tuple. -/
theorem Holds.assembled (h : machine.Holds frame store)
    (hfield : store.tuple = other.tuple → store.field ≠ other.field)
    (hunshared : machine.local? frame store.tuple = machine.local? frame other.tuple →
      store.tuple = other.tuple) :
    (machine.assembled frame other).Holds frame store := by
  obtain ⟨object, held, value, htuple, hheld, hvalue, hholds⟩ := h
  have hlocal := @local?_assembled frame machine other
  unfold Machine.assembled at hlocal ⊢
  split
  next object' value' htuple' hvalue' =>
    simp only [htuple', hvalue'] at hlocal
    by_cases hobject : object'.index = object.index
    · have hsame : object' = object := by
        cases object'; cases object; exact congrArg _ hobject
      subst hsame
      have hne := hfield (hunshared (htuple.trans htuple'.symm))
      refine ⟨object', { held with fields := held.fields.setIfInBounds other.field value' }, value,
        (hlocal _).trans htuple, ?_, (hlocal _).trans hvalue, ?_⟩
      · rw [setField, Array.getElem?_modify, if_pos rfl, hheld]
        rfl
      · rw [Array.getElem?_setIfInBounds_ne hne.symm]
        exact hholds
    · refine ⟨object, held, value, (hlocal _).trans htuple, ?_, (hlocal _).trans hvalue, hholds⟩
      rw [setField, Array.getElem?_modify, if_neg hobject, hheld]
  next => exact ⟨object, held, value, htuple, hheld, hvalue, hholds⟩

theorem Holds.foldl_assembled (h : machine.Holds frame store)
    (hlaid : machine.Laid frame (store :: stores))
    (hapart : ∀ other ∈ stores, store.tuple = other.tuple → store.field ≠ other.field) :
    (stores.foldl (Machine.assembled frame) machine).Holds frame store := by
  induction stores generalizing machine with
  | nil => exact h
  | cons other rest ih =>
    have hother : other ∈ store :: other :: rest := by simp
    have hsub : store :: rest ⊆ store :: other :: rest :=
      List.cons_subset_cons _ (List.subset_cons_self _ _)
    refine ih (h.assembled (hapart other List.mem_cons_self)
      (hlaid.unshared store List.mem_cons_self other hother)) ((hlaid.mono hsub).assembled other)
      fun third hthird ↦ hapart third (List.mem_cons_of_mem _ hthird)

/-- After stores that do not meet, all their values are in place. -/
theorem Laid.foldl_assembled (h : machine.Laid frame stores)
    (hapart : stores.Pairwise fun first second ↦
      first.tuple = second.tuple → first.field ≠ second.field) :
    ∀ store ∈ stores, (stores.foldl (Machine.assembled frame) machine).Holds frame store := by
  induction stores generalizing machine with
  | nil => nofun
  | cons first rest ih =>
    obtain ⟨hfirst, hrest⟩ := List.pairwise_cons.mp hapart
    intro store hstore
    rcases List.mem_cons.mp hstore with rfl | hstore
    · exact (h.holds List.mem_cons_self).foldl_assembled (h.assembled store) hfirst
    · exact ih ((h.mono (List.subset_cons_self _ _)).assembled first) hrest store hstore

theorem local?_foldl_assembled (machine : Machine) (stores : List IndexStore) (symbol : SymId) :
    (stores.foldl (Machine.assembled frame) machine).local? frame symbol =
      machine.local? frame symbol := by
  induction stores generalizing machine with
  | nil => rfl
  | cons store rest ih => rw [List.foldl_cons, ih, local?_assembled]

theorem foldl_assembled_steps (machine : Machine) (steps : Nat) (stores : List IndexStore) :
    stores.foldl (Machine.assembled frame) { machine with steps } =
      { stores.foldl (Machine.assembled frame) machine with steps } := by
  induction stores generalizing machine with
  | nil => rfl
  | cons store rest ih => rw [List.foldl_cons, assembled_steps, ih, List.foldl_cons]

/-- Where stores have left their values, the path to a leaf leads to its value. -/
theorem follow?_of_leads {index leaf : SymId} {path : List Nat}
    (h : ZipSetup.Leads stores index path leaf)
    (hholds : ∀ store ∈ stores, machine.Holds frame store) {value : Value}
    (hvalue : machine.local? frame index = some value) :
    machine.follow? value path = machine.local? frame leaf := by
  induction h generalizing value with
  | here => rw [hvalue]; rfl
  | into hstore _ ih =>
    obtain ⟨object, held, found, htuple, hheld, hfound, hfield⟩ := hholds _ hstore
    obtain rfl := Option.some.inj (htuple.symm.trans hvalue)
    rw [follow?, hheld, Option.bind_some, hfield, Option.bind_some]
    exact ih hfound

/-! ### Declarations -/

/-- The symbol is set, to an object with the fields of its type if that is an aggregate, and to no
object that is not on the heap. -/
structure Bound (machine : Machine) (program : Program) (frame : Nat) (symbol : SymId) : Prop where
  set : (machine.local? frame symbol).isSome
  below : ∀ object, machine.local? frame symbol = some (.obj object) →
    object.index < machine.heap.size
  object : (program.type (program.symbolType symbol)).isAggregate = true →
    ∃ object held, machine.local? frame symbol = some (.obj object) ∧
      machine.heap[object.index]? = some held ∧
        held.fields.size = (program.type (program.symbolType symbol)).fields.length

/-- What a machine in which a symbol was just declared has in common with the one before. -/
structure Declaration (program : Program) (frame : Nat) (symbol : SymId) (machine final : Machine) :
    Prop where
  frames : final.frames.size = machine.frames.size
  other : ∀ {other}, other ≠ symbol → final.local? frame other = machine.local? frame other
  heap : ∀ index < machine.heap.size, final.heap[index]? = machine.heap[index]?
  size : machine.heap.size ≤ final.heap.size
  bound : final.Bound program frame symbol
  new : ∀ object, final.local? frame symbol = some (.obj object) →
    machine.heap.size ≤ object.index

namespace Declaration

variable {symbol : SymId}

theorem of_object {type : TypeId} {fields : Array Value} (hframe : frame < machine.frames.size)
    (hfields : fields.size = (program.type (program.symbolType symbol)).fields.length) :
    Declaration program frame symbol machine
      ((machine.allocate type fields).2.setLocal frame symbol (.obj ⟨machine.heap.size⟩)) := by
  have hself : ((machine.allocate type fields).2.setLocal frame symbol
      (.obj ⟨machine.heap.size⟩)).local? frame symbol = some (.obj ⟨machine.heap.size⟩) :=
    local?_setLocal_self hframe
  refine ⟨Array.size_modify, fun hne ↦ local?_setLocal_of_ne hne, fun index hindex ↦ ?_, ?_,
    ⟨?_, fun object hobject ↦ ?_, fun _ ↦ ⟨_, _, hself, Array.getElem?_push_size, hfields⟩⟩,
    fun object hobject ↦ ?_⟩
  · exact (Array.getElem?_push_lt hindex).trans (Array.getElem?_eq_getElem hindex).symm
  · simp [setLocal, allocate]
  · rw [hself]
    rfl
  · obtain rfl := Value.obj.inj (Option.some.inj (hself.symm.trans hobject))
    simp [setLocal, allocate]
  · obtain rfl := Value.obj.inj (Option.some.inj (hself.symm.trans hobject))
    exact Nat.le_refl _

theorem of_scalar {value : Value} (hframe : frame < machine.frames.size)
    (hvalue : ∀ object, value ≠ .obj object)
    (hscalar : (program.type (program.symbolType symbol)).isAggregate ≠ true) :
    Declaration program frame symbol machine (machine.setLocal frame symbol value) := by
  have hself : (machine.setLocal frame symbol value).local? frame symbol = some value :=
    local?_setLocal_self hframe
  have hnone : ∀ object, (machine.setLocal frame symbol value).local? frame symbol ≠
      some (.obj object) :=
    fun object hobject ↦ hvalue object (Option.some.inj (hself.symm.trans hobject))
  refine ⟨Array.size_modify, fun hne ↦ local?_setLocal_of_ne hne, fun _ _ ↦ rfl, Nat.le_refl _,
    ⟨?_, fun object hobject ↦ absurd hobject (hnone object), fun h ↦ absurd h hscalar⟩,
    fun object hobject ↦ absurd hobject (hnone object)⟩
  rw [hself]
  rfl

end Declaration

theorem fieldDefault_ne_obj (kind : TypeKind) (object : ObjId) :
    Eval.fieldDefault kind ≠ .obj object := by
  cases kind <;> simp [Eval.fieldDefault]

theorem declaration_declared (program : Program) (hframe : frame < machine.frames.size)
    (symbol : SymId) :
    Declaration program frame symbol machine (machine.declared program frame symbol) := by
  unfold declared
  dsimp only
  split
  next => exact .of_object hframe (by simp)
  next hscalar => exact .of_scalar hframe (fieldDefault_ne_obj _) hscalar

namespace Declaration

variable {final : Machine} {symbol other : SymId}

theorem bound_of_ne (h : Declaration program frame symbol machine final) (hne : other ≠ symbol)
    (hbound : machine.Bound program frame other) : final.Bound program frame other where
  set := h.other hne ▸ hbound.set
  below object hlocal :=
    Nat.lt_of_lt_of_le (hbound.below object (h.other hne ▸ hlocal)) h.size
  object haggregate := by
    obtain ⟨object, held, hlocal, hheld, hfields⟩ := hbound.object haggregate
    exact ⟨object, held, (h.other hne).trans hlocal,
      (h.heap _ (hbound.below object hlocal)).trans hheld, hfields⟩

/-- What is declared shares no object with what was there before. -/
theorem eq_of_shared (h : Declaration program frame symbol machine final)
    (hbound : machine.Bound program frame other) {object : ObjId}
    (hsymbol : final.local? frame symbol = some (.obj object))
    (hother : final.local? frame other = some (.obj object)) : other = symbol := by
  by_contra hne
  exact Nat.not_lt_of_ge (h.new object hsymbol) (hbound.below object (h.other hne ▸ hother))

end Declaration

/-- The symbols are bound, and no two of them share an object. -/
structure Spread (machine : Machine) (program : Program) (frame : Nat) (symbols : List SymId) :
    Prop where
  live : frame < machine.frames.size
  bound : ∀ symbol ∈ symbols, machine.Bound program frame symbol
  unshared : ∀ first ∈ symbols, ∀ second ∈ symbols, ∀ object,
    machine.local? frame first = some (.obj object) →
      machine.local? frame second = some (.obj object) → first = second

theorem Spread.mono {symbols symbols' : List SymId} (hsub : symbols' ⊆ symbols)
    (h : machine.Spread program frame symbols) : machine.Spread program frame symbols' where
  live := h.live
  bound symbol hsymbol := h.bound symbol (hsub hsymbol)
  unshared first hfirst second hsecond := h.unshared first (hsub hfirst) second (hsub hsecond)

theorem Spread.declared {symbols : List SymId} (h : machine.Spread program frame symbols)
    (symbol : SymId) :
    (machine.declared program frame symbol).Spread program frame (symbol :: symbols) := by
  have hnew := declaration_declared program h.live symbol
  refine ⟨hnew.frames ▸ h.live, fun other hmem ↦ ?_,
    fun first hfirst second hsecond object hlocal hlocal' ↦ ?_⟩
  · by_cases hother : other = symbol
    · exact hother ▸ hnew.bound
    · exact hnew.bound_of_ne hother (h.bound other ((List.mem_cons.mp hmem).resolve_left hother))
  · rcases List.mem_cons.mp hfirst with rfl | hold <;>
      rcases List.mem_cons.mp hsecond with rfl | hold'
    · rfl
    · exact (hnew.eq_of_shared (h.bound second hold') hlocal hlocal').symm
    · exact hnew.eq_of_shared (h.bound first hold) hlocal' hlocal
    · by_cases hsame : first = symbol
      · exact (hsame ▸ hnew.eq_of_shared (h.bound second hold') (hsame ▸ hlocal) hlocal').symm
      by_cases hsame' : second = symbol
      · exact hsame' ▸ hnew.eq_of_shared (h.bound first hold) (hsame' ▸ hlocal') hlocal
      · exact h.unshared first hold second hold' object (hnew.other hsame ▸ hlocal)
          (hnew.other hsame' ▸ hlocal')

/-- Declarations one after the other give each aggregate an object of its own. -/
theorem Spread.foldl_declared {seen : List SymId} (h : machine.Spread program frame seen)
    (symbols : List SymId) :
    (symbols.foldl (Machine.declared program frame) machine).Spread program frame
      (symbols ++ seen) := by
  induction symbols generalizing machine seen with
  | nil => exact h
  | cons symbol rest ih => exact (ih (h.declared symbol)).mono (by simp)

theorem Spread.declaredAll {seen : List SymId} (h : machine.Spread program frame seen)
    (symbols : List SymId) :
    (machine.declaredAll program frame symbols).Spread program frame (symbols ++ seen) := by
  have h := h.foldl_declared symbols
  exact ⟨h.live, fun symbol hsymbol ↦ ⟨(h.bound symbol hsymbol).set, (h.bound symbol hsymbol).below,
    (h.bound symbol hsymbol).object⟩, h.unshared⟩

/-! ### A whole header -/

section

variable {opened lowered : Program} {index : SymId} {fields : List Nat} {paths : List (List Nat)}
variable {setup : ZipSetup}

/-- The stores of a header can run after its declarations, if the tuples are aggregates. -/
theorem Spread.laid (h : machine.Spread lowered frame (index :: setup.indexDefs))
    (hopens : setup.Opens program opened index fields paths) (hindex : opened.HasSymbol index)
    (hgrows : opened.Grows lowered)
    (haggregate : ∀ store ∈ setup.indexStores,
      (opened.type (opened.symbolType store.tuple)).isAggregate = true) :
    machine.Laid frame setup.indexStores := by
  have hmem : ∀ store ∈ setup.indexStores, store.tuple ∈ index :: setup.indexDefs ∧
      opened.HasSymbol store.tuple := fun store hstore ↦ by
    rcases hopens.tuple store hstore with ⟨htuple, -⟩ | htuple
    · exact ⟨htuple ▸ List.mem_cons_self, htuple ▸ hindex⟩
    · exact ⟨List.mem_cons_of_mem _ htuple, (hopens.new _ htuple).2⟩
  have htuple : ∀ store ∈ setup.indexStores, ∃ object held,
      machine.local? frame store.tuple = some (.obj object) ∧
        machine.heap[object.index]? = some held ∧ store.field < held.fields.size :=
    fun store hstore ↦ by
      obtain ⟨hdeclared, hsymbol⟩ := hmem store hstore
      obtain ⟨hkind, hwidth⟩ := hgrows.isAggregate hsymbol (haggregate store hstore)
      obtain ⟨object, held, hlocal, hheld, hfields⟩ := (h.bound _ hdeclared).object hkind
      exact ⟨object, held, hlocal, hheld, hfields ▸ hwidth ▸ hopens.width store hstore⟩
  refine ⟨htuple, fun first hfirst second hsecond heq ↦ ?_, fun store hstore ↦ ?_⟩
  · obtain ⟨object, -, hlocal, -⟩ := htuple first hfirst
    exact h.unshared _ (hmem first hfirst).1 _ (hmem second hsecond).1 object hlocal
      (heq ▸ hlocal)
  · exact (h.bound _ (List.mem_cons_of_mem _ (hopens.value store hstore))).set

variable {program : Program} {block : StmtId} {owner : FnId} {iterator : SymId} {middle : Machine}

/-- The stores of a header can run after its declarations, and after whatever ran in between, if
that kept the variables of the tuples and set those of the components. -/
theorem laid_of_zipSetup (hindex : program.HasSymbol index)
    (hsetup : zipSetup block index iterator owner program = .ok setup opened)
    (hgrows : opened.Grows lowered)
    (haggregate : ∀ store ∈ setup.indexStores,
      (opened.type (opened.symbolType store.tuple)).isAggregate = true)
    (hspread : machine.Spread lowered frame (index :: setup.indexDefs))
    (hround : machine.Evolves lowered middle)
    (hkept : ∀ store ∈ setup.indexStores,
      middle.local? frame store.tuple = machine.local? frame store.tuple)
    (hset : ∀ store ∈ setup.indexStores, (middle.local? frame store.value).isSome) :
    middle.Laid frame setup.indexStores := by
  obtain ⟨hdeclares, fields, hopens⟩ := opens_zipSetup hindex hsetup
  exact (hspread.laid hopens (hdeclares.symbol hindex).1 hgrows haggregate).of_evolves hround hkept
    hset

/-- Where the stores of a header can run, they put every component's index into the index, at the
path of its leaf. -/
theorem follow?_assembledAll (hindex : program.HasSymbol index)
    (hsetup : zipSetup block index iterator owner program = .ok setup opened)
    (hlaid : middle.Laid frame setup.indexStores) {value : Value}
    (hvalue : middle.local? frame index = some value) :
    List.Forall₂ (fun path component ↦
        (middle.assembledAll frame setup.indexStores).follow? value path =
          middle.local? frame component.2)
      (program.leafPaths (program.symbolType iterator)) setup.components := by
  obtain ⟨-, fields, hopens⟩ := opens_zipSetup hindex hsetup
  have hholds := hlaid.foldl_assembled hopens.apart
  refine hopens.leaf.imp fun path component hleads ↦ ?_
  rw [assembledAll, follow?_steps,
    follow?_of_leads hleads hholds ((local?_foldl_assembled ..).trans hvalue),
    local?_foldl_assembled]

end

end Machine

/-! ### Running the statements -/

/-- The action of a store of an index. -/
def IndexStore.action (store : IndexStore) : Action :=
  .setField store.tuple (.index store.field) (.sym store.value)

namespace Eval

variable {program : Program} {limits : Limits} {execute : Executor} {machine : Machine}
variable {rounds frame : Nat} {symbol : SymId} {value : Value} {store : IndexStore}
variable {stores : List IndexStore}

theorem operand_of_local? (h : machine.local? frame symbol = some value) :
    operand program frame (.sym symbol) machine = .ok value machine :=
  read_of_local? h

theorem objectOf_of_local? {object : ObjId} (h : machine.local? frame symbol = some (.obj object)) :
    objectOf program frame symbol machine = .ok object machine := by
  unfold objectOf
  rw [bind_of_ok (read_of_local? h)]
  rfl

theorem fieldIndex_of_lt {object : ObjId} {held : Object} {position : Nat}
    (hheld : machine.heap[object.index]? = some held) (hposition : position < held.fields.size) :
    fieldIndex program object (.index position) machine = .ok position machine := by
  have hobject : machine.object object = held := by
    rw [Machine.object, Array.getD_eq_getD_getElem?, hheld, Option.getD_some]
  unfold fieldIndex
  rw [bind_of_ok (show (get : Eval Machine) machine = .ok machine machine from rfl), hobject]
  dsimp only
  rw [if_pos hposition]
  rfl

theorem action_define (hsymbol : (program.symbol symbol).isLabel = false) :
    action program limits execute rounds frame (.define symbol) machine =
      .ok .normal (machine.declared program frame symbol) := by
  unfold action Machine.declared defaultValue
  dsimp only
  rw [if_neg (by simp [hsymbol])]
  split <;> rfl

theorem action_store (hlaid : machine.Laid frame stores) (hstore : store ∈ stores) :
    action program limits execute rounds frame store.action machine =
      .ok .normal (machine.assembled frame store) := by
  obtain ⟨object, held, htuple, hheld, hfield⟩ := hlaid.tuple store hstore
  obtain ⟨value, hvalue⟩ := Option.isSome_iff_exists.mp (hlaid.value store hstore)
  unfold IndexStore.action action
  dsimp only
  rw [bind_of_ok (operand_of_local? hvalue), bind_of_ok (objectOf_of_local? htuple),
    bind_of_ok (fieldIndex_of_lt hheld hfield), Machine.assembled, htuple, hvalue]
  rfl

/-- A statement that is an action takes a step. -/
theorem execute_of_action {fuel : Nat} {id : StmtId} {inner : Action} {flow : Flow}
    {final : Machine} (hkind : program.kind id = .action inner)
    (hsteps : machine.steps + 1 ≤ limits.maxSteps)
    (haction : action program limits (Eval.execute program limits fuel) fuel frame inner
      { machine with steps := machine.steps + 1 } = .ok flow final) :
    Eval.execute program limits (fuel + 1) frame id machine = .ok flow final := by
  change (tick limits >>= fun _ ↦
    statement program limits (Eval.execute program limits fuel) fuel frame id) machine = _
  rw [bind_of_ok ((tick_eq limits machine).trans (if_neg (by omega))), statement, hkind]
  exact haction

/-- The declarations of a header run one after the other, each in a step. -/
theorem runList_defines {fuel : Nat} {ids body rest : List StmtId} {symbols : List SymId}
    (hids : List.Forall₂ (fun id symbol ↦ program.kind id = .action (.define symbol)) ids symbols)
    (hlabels : ∀ symbol ∈ symbols, (program.symbol symbol).isLabel = false)
    (hsteps : machine.steps + symbols.length ≤ limits.maxSteps) :
    runList program (Eval.execute program limits (fuel + 1) frame) body (rounds + ids.length)
        (ids ++ rest) machine =
      runList program (Eval.execute program limits (fuel + 1) frame) body rounds rest
        (machine.declaredAll program frame symbols) := by
  induction hids generalizing machine with
  | nil => rfl
  | @cons id symbol ids symbols hkind _ ih =>
    rw [List.length_cons] at hsteps
    have hstep : Eval.execute program limits (fuel + 1) frame id machine =
        .ok .normal { machine.declared program frame symbol with steps := machine.steps + 1 } := by
      refine execute_of_action hkind (by omega) ?_
      rw [action_define (hlabels symbol List.mem_cons_self), Machine.declared_steps]
    rw [List.length_cons, ← Nat.add_assoc, List.cons_append, runList, bind_of_ok hstep]
    refine (ih (fun other hother ↦ hlabels other (List.mem_cons_of_mem _ hother))
      (by dsimp only; omega)).trans ?_
    simp only [Machine.declaredAll, Machine.foldl_declared_steps, List.foldl_cons, List.length_cons,
      Nat.add_assoc, Nat.add_comm 1]

/-- The stores of a header run one after the other, each in a step. -/
theorem runList_stores {fuel : Nat} {ids body rest : List StmtId}
    (hids : List.Forall₂ (fun id store ↦ program.kind id = .action store.action) ids stores)
    (hlaid : machine.Laid frame stores) (hsteps : machine.steps + stores.length ≤ limits.maxSteps) :
    runList program (Eval.execute program limits (fuel + 1) frame) body (rounds + ids.length)
        (ids ++ rest) machine =
      runList program (Eval.execute program limits (fuel + 1) frame) body rounds rest
        (machine.assembledAll frame stores) := by
  induction hids generalizing machine with
  | nil => rfl
  | @cons id store ids stores hkind _ ih =>
    rw [List.length_cons] at hsteps
    have hticked : { machine with steps := machine.steps + 1 }.Laid frame (store :: stores) :=
      ⟨hlaid.tuple, hlaid.unshared, hlaid.value⟩
    have hstep : Eval.execute program limits (fuel + 1) frame id machine =
        .ok .normal { machine.assembled frame store with steps := machine.steps + 1 } := by
      refine execute_of_action hkind (by omega) ?_
      rw [action_store hticked List.mem_cons_self, Machine.assembled_steps]
    have hlaid' : { machine.assembled frame store with steps := machine.steps + 1 }.Laid frame
        stores :=
      have h := (hlaid.assembled store).mono (List.subset_cons_self _ _)
      ⟨h.tuple, h.unshared, h.value⟩
    have hrest := ih hlaid' (by dsimp only; omega)
    rw [List.length_cons, ← Nat.add_assoc, List.cons_append, runList, bind_of_ok hstep]
    refine hrest.trans ?_
    simp only [Machine.assembledAll, Machine.foldl_assembled_steps, List.foldl_cons,
      List.length_cons, Nat.add_assoc, Nat.add_comm 1]

/-- A round of a zippered loop whose index tuples are aggregates puts its index together. Where the
index and its temporaries are declared in the round or bound before it, and no two that are bound
share an object, the declarations run; and after whatever keeps the variables of the tuples and
sets those of the components, the stores run too and leave every component's index at the path of
its leaf. -/
theorem assembles_round {opened lowered : Program} {block : StmtId} {owner : FnId}
    {index iterator : SymId} {setup : ZipSetup} {fuel : Nat} {symbols seen : List SymId}
    {defines stores body : List StmtId} (hindex : program.HasSymbol index)
    (hsetup : zipSetup block index iterator owner program = .ok setup opened)
    (hgrows : opened.Grows lowered)
    (haggregate : ∀ store ∈ setup.indexStores,
      (opened.type (opened.symbolType store.tuple)).isAggregate = true)
    (hseen : machine.Spread lowered frame seen) (hall : index :: setup.indexDefs ⊆ symbols ++ seen)
    (hlabels : ∀ symbol ∈ symbols, (lowered.symbol symbol).isLabel = false)
    (hdefines : List.Forall₂ (fun id symbol ↦ lowered.kind id = .action (.define symbol)) defines
      symbols)
    (hstores : List.Forall₂ (fun id store ↦ lowered.kind id = .action store.action) stores
      setup.indexStores)
    (hsteps : machine.steps + symbols.length ≤ limits.maxSteps) :
    (∀ rounds rest,
      runList lowered (Eval.execute lowered limits (fuel + 1) frame) body (rounds + defines.length)
          (defines ++ rest) machine =
        runList lowered (Eval.execute lowered limits (fuel + 1) frame) body rounds rest
          (machine.declaredAll lowered frame symbols)) ∧
      ∀ middle value, (machine.declaredAll lowered frame symbols).Evolves lowered middle →
        (∀ store ∈ setup.indexStores, middle.local? frame store.tuple =
          (machine.declaredAll lowered frame symbols).local? frame store.tuple) →
        (∀ store ∈ setup.indexStores, (middle.local? frame store.value).isSome) →
        middle.local? frame index = some value →
        middle.steps + setup.indexStores.length ≤ limits.maxSteps →
        ∃ final,
          (∀ rounds rest,
            runList lowered (Eval.execute lowered limits (fuel + 1) frame) body
                (rounds + stores.length) (stores ++ rest) middle =
              runList lowered (Eval.execute lowered limits (fuel + 1) frame) body rounds rest
                final) ∧
          List.Forall₂ (fun path component ↦
              final.follow? value path = middle.local? frame component.2)
            (program.leafPaths (program.symbolType iterator)) setup.components := by
  refine ⟨fun rounds rest ↦ runList_defines hdefines hlabels hsteps,
    fun middle value hround hkept hset hvalue hsteps' ↦ ?_⟩
  have hspread : (machine.declaredAll lowered frame symbols).Spread lowered frame
      (index :: setup.indexDefs) := (hseen.declaredAll symbols).mono hall
  have hlaid : middle.Laid frame setup.indexStores :=
    Machine.laid_of_zipSetup hindex hsetup hgrows haggregate hspread hround hkept hset
  exact ⟨middle.assembledAll frame setup.indexStores,
    fun rounds rest ↦ runList_stores hstores hlaid hsteps',
    Machine.follow?_assembledAll hindex hsetup hlaid hvalue⟩

/-- A loop over an iterator and a pair of iterators. -/
def loopOverThree : Program where
  types := builtinTypes ++ #[
    { name := "_ir_f", kind := .record, flags := { iteratorRecord := true },
      iteratorFn := some ⟨1⟩ },
    { name := "pair", kind := .record, fields := [⟨"first", ⟨5⟩⟩, ⟨"second", ⟨5⟩⟩],
      flags := { tuple := true } },
    { name := "nested", kind := .record, fields := [⟨"first", ⟨5⟩⟩, ⟨"rest", ⟨6⟩⟩],
      flags := { tuple := true } },
    { name := "indices", kind := .record, fields := [⟨"first", .int⟩, ⟨"second", .int⟩],
      flags := { tuple := true } },
    { name := "nestedIndices", kind := .record, fields := [⟨"first", .int⟩, ⟨"rest", ⟨8⟩⟩],
      flags := { tuple := true } }]
  symbols := #[
    { name := "it", kind := .var, type := ⟨7⟩, owner := some ⟨0⟩ },
    { name := "x", kind := .var, type := ⟨9⟩, owner := some ⟨0⟩ }]
  statements := #[
    { kind := .plain [⟨1⟩], bodyOf := some ⟨0⟩, span := .none },
    { kind := .block (some (.forEach ⟨1⟩ ⟨0⟩)) [], parent := some ⟨0⟩, span := .none },
    { kind := .plain [⟨3⟩], bodyOf := some ⟨1⟩, span := .none },
    { kind := .action (.yield (.int 1)), parent := some ⟨2⟩, span := .none }]
  functions := #[{ name := "main", retType := .void, body := ⟨0⟩ }, {
    name := "f"
    retType := .int
    body := ⟨2⟩
    flags := { iterator := true } }]

/-- The header of the loop, opened. -/
def setupOfThree : ZipSetup where
  components := [(⟨2⟩, ⟨3⟩), (⟨6⟩, ⟨7⟩), (⟨8⟩, ⟨9⟩)]
  indexDefs := [⟨3⟩, ⟨5⟩, ⟨7⟩, ⟨9⟩]
  indexStores := [⟨⟨1⟩, 0, ⟨3⟩⟩, ⟨⟨5⟩, 0, ⟨7⟩⟩, ⟨⟨5⟩, 1, ⟨9⟩⟩, ⟨⟨1⟩, 1, ⟨5⟩⟩]

/-- The program when the header is opened. -/
def openedOfThree : Program :=
  (Runs.run (m := EStateM LoweringError Program) (zipSetup ⟨1⟩ ⟨1⟩ ⟨0⟩ ⟨0⟩) loopOverThree).2

/-- The program when the loop is fused. -/
def fusedOfThree : Program :=
  (Runs.run (m := EStateM LoweringError Program) (fuseLoop ⟨1⟩ setupOfThree ⟨0⟩) openedOfThree).2

/-- A machine in `main`. -/
def inMain : Machine := { frames := #[{ function := ⟨0⟩ }] }

/-- The machine when the index of the loop and then its temporaries have been declared. -/
def startedOfThree : Machine :=
  (inMain.declaredAll fusedOfThree 0 [⟨1⟩]).declaredAll fusedOfThree 0 setupOfThree.indexDefs

/-- The machine when the components have their indices. -/
def filledOfThree : Machine :=
  ((startedOfThree.setLocal 0 ⟨3⟩ (.int 1)).setLocal 0 ⟨7⟩ (.int 2)).setLocal 0 ⟨9⟩ (.int 3)


/-- A round of the fused loop puts the indices into the index of the loop, each at its place. -/
theorem assembles_loopOverThree :
    zipSetup ⟨1⟩ ⟨1⟩ ⟨0⟩ ⟨0⟩ loopOverThree = .ok setupOfThree openedOfThree ∧
      fuseLoop ⟨1⟩ setupOfThree ⟨0⟩ openedOfThree = .ok () fusedOfThree ∧
      runList fusedOfThree (Eval.execute fusedOfThree {} 1 0) [] 4 [⟨32⟩, ⟨31⟩, ⟨30⟩, ⟨29⟩]
        (inMain.declaredAll fusedOfThree 0 [⟨1⟩]) = .ok .normal startedOfThree ∧
      filledOfThree.local? 0 ⟨1⟩ = some (.obj ⟨0⟩) ∧
      ∃ final,
        runList fusedOfThree (Eval.execute fusedOfThree {} 1 0) [] 4 [⟨25⟩, ⟨26⟩, ⟨27⟩, ⟨28⟩]
          filledOfThree = .ok .normal final ∧
        final.follow? (.obj ⟨0⟩) [0] = some (.int 1) ∧
        final.follow? (.obj ⟨0⟩) [1, 0] = some (.int 2) ∧
        final.follow? (.obj ⟨0⟩) [1, 1] = some (.int 3) := by
  have hsetup : zipSetup ⟨1⟩ ⟨1⟩ ⟨0⟩ ⟨0⟩ loopOverThree = .ok setupOfThree openedOfThree := by
    unfold openedOfThree
    exact eq_ok_of_run (by decide +kernel)
  have hfuse : fuseLoop ⟨1⟩ setupOfThree ⟨0⟩ openedOfThree = .ok () fusedOfThree := by
    unfold fusedOfThree
    exact eq_ok_of_run (by decide +kernel)
  have hlinked : openedOfThree.WellLinked := by decide +kernel
  have hfused : openedOfThree.Reworks Scope.everything fusedOfThree :=
    ((ensures_fuseLoop trivial (.everything hlinked) trivial).of_eq_ok hfuse).1
  have hnone : inMain.Spread fusedOfThree 0 [] := ⟨by decide, nofun, nofun⟩
  have hdefines : List.Forall₂ (fun id symbol ↦ fusedOfThree.kind id = .action (.define symbol))
      [⟨32⟩, ⟨31⟩, ⟨30⟩, ⟨29⟩] setupOfThree.indexDefs := by decide +kernel
  have hstores : List.Forall₂ (fun id store ↦ fusedOfThree.kind id = .action store.action)
      [⟨25⟩, ⟨26⟩, ⟨27⟩, ⟨28⟩] setupOfThree.indexStores := by decide +kernel
  have hevolves : startedOfThree.Evolves fusedOfThree filledOfThree :=
    ((Machine.Evolves.setLocal ..).trans (.setLocal ..)).trans (.setLocal ..)
  have hvalue : filledOfThree.local? 0 ⟨1⟩ = some (.obj ⟨0⟩) := by decide +kernel
  have hkept : ∀ store ∈ setupOfThree.indexStores,
      filledOfThree.local? 0 store.tuple = startedOfThree.local? 0 store.tuple := by decide +kernel
  have hset : ∀ store ∈ setupOfThree.indexStores,
      (filledOfThree.local? 0 store.value).isSome = true := by decide +kernel
  have hbegin : (inMain.declaredAll fusedOfThree 0 [⟨1⟩]).steps + setupOfThree.indexDefs.length ≤
      ({} : Limits).maxSteps := by decide +kernel
  have hend : filledOfThree.steps + setupOfThree.indexStores.length ≤ ({} : Limits).maxSteps := by
    decide +kernel
  obtain ⟨hdeclared, hround⟩ := assembles_round (by decide) hsetup hfused.grows
    (by decide +kernel) (hnone.declaredAll [⟨1⟩]) (by decide) (by decide +kernel) hdefines hstores
    hbegin
  obtain ⟨final, hstored, hvalues⟩ := hround filledOfThree _ hevolves hkept hset hvalue hend
  have hpaths : loopOverThree.leafPaths (loopOverThree.symbolType ⟨0⟩) = [[0], [1, 0], [1, 1]] := by
    decide +kernel
  simp only [hpaths, setupOfThree, List.forall₂_cons, List.forall₂_nil_left_iff, and_true]
    at hvalues
  obtain ⟨hfirst, hsecond, hthird⟩ := hvalues
  exact ⟨hsetup, hfuse, hdeclared 0 [], hvalue, final, hstored 0 [],
    hfirst.trans (by decide +kernel), hsecond.trans (by decide +kernel),
    hthird.trans (by decide +kernel)⟩

end Eval

end IteratorLowering
