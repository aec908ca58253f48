import IteratorLowering.Proofs.Evaluation.Locals
import IteratorLowering.Proofs.Simulation.Correspondence
import IteratorLowering.Proofs.Simulation.Likeness
import Mathlib.Order.Filter.Basic

/-!
# Machines that correspond

Two machines that run corresponding programs have stacks of the same height, frames made for the
same functions and loops, like values in the variables that are kept, and shown the same. Of the
heaps only the objects that correspond are compared; either may have others.

The second machine may be ahead of the first in one respect: a variable may be declared already
that the first machine is yet to declare. Such variables are listed as `Early`, and while they wait
nothing may come near them (`Early.Waits`): they belong to frames below the `floor`, no reference
leads to them, and the object that was made for such a variable corresponds to none.

Whatever a run does to a machine is done here to both at once: `Like.setLocal`, `Like.setField`,
`Like.allocate`, `Like.push`, `Like.pop`.
-/

set_option autoImplicit false
set_option relaxedAutoImplicit false

theorem Option.Rel.imp {α β : Type} {kind kind' : α → β → Prop} {first : Option α}
    {second : Option β} (himp : ∀ value value', kind value value' → kind' value value')
    (h : Option.Rel kind first second) : Option.Rel kind' first second := by
  cases h with
  | some h => exact .some (himp _ _ h)
  | none => exact .none

theorem Option.Rel.eq_none {α β : Type} {kind : α → β → Prop} {second : Option β}
    (h : Option.Rel kind Option.none second) : second = Option.none := by
  cases h
  rfl

theorem Option.Rel.eq_none' {α β : Type} {kind : α → β → Prop} {first : Option α}
    (h : Option.Rel kind first Option.none) : first = Option.none := by
  cases h
  rfl

namespace IteratorLowering

/-- How far two runs that are compared may go, and what else is compared of them. The second run is
one of a family, and what holds of it holds of all its members from some point on. -/
structure Pace where
  Index : Type
  within : Filter Index
  limits : Limits
  limits' : Index → Limits
  /-- How many rounds the second run needs where the first one has this many. -/
  lasts : Nat → (Index → Nat) → Prop
  steps : Nat → Nat → Prop
  heaps : Nat → Nat → Prop
  /-- The failures that the second run must share. -/
  fails : EvalError → Prop

/-- The object that a variable of an aggregate type starts with. -/
def Program.newObject (program : Program) (id : TypeId) : Object where
  type := id
  fields := ((program.type id).fields.map fun field ↦
    Eval.fieldDefault (program.type field.type).kind).toArray

/-- A variable that the second machine has declared ahead of the first. -/
structure Early where
  depth : Nat
  symbol : SymId
  value : Value

/-- No variable of this name waits at this depth. -/
def Open (early : List Early) (depth : Nat) (symbol : SymId) : Prop :=
  ∀ entry ∈ early, entry.depth = depth → entry.symbol ≠ symbol

/-- Objects of one class with like fields. -/
structure Object.Like (objects : ObjId → ObjId → Prop) (names : SymId → SymId → Prop)
    (object object' : Object) : Prop where
  type : object'.type = object.type
  field : ∀ position : Nat, Option.Rel (Value.Like objects names) object.fields[position]?
    object'.fields[position]?

/-- Corresponding objects are there and are alike. -/
def HeapsLike (objects : ObjId → ObjId → Prop) (names : SymId → SymId → Prop)
    (heap heap' : Array Object) : Prop :=
  ∀ {id id'}, objects id id' → ∃ object object', heap[id.index]? = some object ∧
    heap'[id'.index]? = some object' ∧ Object.Like objects names object object'

namespace Correspondence

variable (c : Correspondence)

/-- Loops that consume corresponding frames. -/
structure Targets (floor depth : Nat) (target target' : YieldTarget) : Prop where
  frame : target'.frame = target.frame
  index : target'.index = c.rename target.index
  loop : c.pairs target.loop target'.loop
  below : target.frame < depth
  above : floor ≤ depth → floor ≤ target.frame

/-- Frames at a depth that were made for the same. -/
structure Origins (floor depth : Nat) (origin origin' : FnId × Option YieldTarget) : Prop where
  function : origin'.1 = origin.1
  yieldTo : Option.Rel (c.Targets floor depth) origin.2 origin'.2

end Correspondence

/-- The object of the variable, if there is one, is new and corresponds to none. -/
def Early.Fresh (c : Correspondence) (objects : ObjId → ObjId → Prop) (heap : Array Object)
    (entry : Early) : Prop :=
  ∀ object, entry.value = .obj object →
    heap[object.index]? = some (c.target.newObject (c.source.symbolType entry.symbol)) ∧
      ∀ other, ¬ objects other object

/-- What a variable starts with. -/
def Early.Starts (c : Correspondence) (entry : Early) : Prop :=
  let type := c.source.type (c.source.symbolType entry.symbol)
  if type.isAggregate then ∃ object, entry.value = .obj object
  else entry.value = Eval.fieldDefault type.kind

/-- The variable waits, untouched, for the other machine to declare it. -/
structure Early.Waits (c : Correspondence) (floor : Nat) (objects : ObjId → ObjId → Prop)
    (machine : Machine) (entry : Early) : Prop where
  below : entry.depth < floor
  unshared : ¬ c.shared entry.symbol
  held : machine.local? entry.depth (c.rename entry.symbol) = some entry.value
  starts : entry.Starts c
  fresh : entry.Fresh c objects machine.heap

/-- Machines that run corresponding programs. -/
structure Machine.Like (c : Correspondence) (pace : Pace) (early : List Early) (floor : Nat)
    (objects : ObjId → ObjId → Prop) (machine machine' : Machine) : Prop where
  oneToOne : Relator.BiUnique objects
  heap : HeapsLike objects c.names machine.heap machine'.heap
  number : ∀ {id id'}, objects id id' → pace.heaps id.index id'.index
  heaps : pace.heaps machine.heap.size machine'.heap.size
  size : machine'.frames.size = machine.frames.size
  origin : ∀ depth, Option.Rel (c.Origins floor depth) (machine.origin? depth)
    (machine'.origin? depth)
  value : ∀ {depth symbol}, c.kept symbol → Open early depth symbol →
    Option.Rel (Value.Like objects c.names) (machine.local? depth symbol)
      (machine'.local? depth (c.rename symbol))
  room : floor ≤ machine.frames.size
  waits : ∀ entry ∈ early, entry.Waits c floor objects machine'
  apart : early.Pairwise fun entry other ↦
    ∀ object, entry.value = .obj object → other.value ≠ .obj object
  shows : machine.ShowsLike objects c.names machine'
  steps : pace.steps machine.steps machine'.steps

section

variable {objects objects' : ObjId → ObjId → Prop} {names : SymId → SymId → Prop}

namespace Object.Like

variable {object object' : Object}

theorem mono (hobjects : objects ≤ objects') (h : Object.Like objects names object object') :
    Object.Like objects' names object object' where
  type := h.type
  field position := (h.field position).imp fun _ _ hvalue ↦ hvalue.mono hobjects le_rfl

theorem size (h : Object.Like objects names object object') :
    object'.fields.size = object.fields.size := by
  have hsize := h.field object.fields.size
  have hsize' := h.field object'.fields.size
  rw [Array.getElem?_eq_none (Nat.le_refl object.fields.size)] at hsize
  rw [Array.getElem?_eq_none (Nat.le_refl object'.fields.size)] at hsize'
  exact Nat.le_antisymm (Array.getElem?_eq_none_iff.mp hsize.eq_none)
    (Array.getElem?_eq_none_iff.mp hsize'.eq_none')

theorem getD (h : Object.Like objects names object object') (position : Nat) :
    Value.Like objects names (object.fields.getD position .nil)
      (object'.fields.getD position .nil) := by
  have hfield := h.field position
  rw [Array.getD_eq_getD_getElem?, Array.getD_eq_getD_getElem?]
  revert hfield
  generalize object.fields[position]? = field, object'.fields[position]? = field'
  intro hfield
  cases hfield with
  | some hvalue => exact hvalue
  | none => exact .nil

theorem setField (h : Object.Like objects names object object') {value value' : Value}
    (hvalue : Value.Like objects names value value') (position : Nat) :
    Object.Like objects names
      { object with fields := object.fields.setIfInBounds position value }
      { object' with fields := object'.fields.setIfInBounds position value' } where
  type := h.type
  field other := by
    simp only [Array.getElem?_setIfInBounds, h.size]
    split
    · split
      · exact .some hvalue
      · exact .none
    · exact h.field other

end Object.Like

/-- The objects that correspond, and one more pair. -/
def link (objects : ObjId → ObjId → Prop) (id id' : ObjId) : ObjId → ObjId → Prop :=
  fun other other' ↦ objects other other' ∨ (other = id ∧ other' = id')

theorem le_link {id id' : ObjId} : objects ≤ link objects id id' := fun _ _ h ↦ .inl h

theorem link_self {id id' : ObjId} : link objects id id' id id' := .inr ⟨rfl, rfl⟩

/-- Two objects that correspond to none may be made to correspond. -/
theorem biUnique_link (h : Relator.BiUnique objects) {id id' : ObjId}
    (hid : ∀ other, ¬ objects id other) (hid' : ∀ other, ¬ objects other id') :
    Relator.BiUnique (link objects id id') := by
  constructor
  · rintro first second other (hfirst | ⟨rfl, rfl⟩) (hsecond | ⟨rfl, hother⟩)
    · exact h.1 hfirst hsecond
    · exact absurd (hother ▸ hfirst) (hid' first)
    · exact absurd hsecond (hid' second)
    · rfl
  · rintro other first second (hfirst | ⟨rfl, rfl⟩) (hsecond | ⟨hother, rfl⟩)
    · exact h.2 hfirst hsecond
    · exact absurd (hother ▸ hfirst) (hid first)
    · exact absurd hsecond (hid second)
    · rfl

end

theorem ObjId.ext {id other : ObjId} (h : id.index = other.index) : id = other := by
  cases id
  cases other
  exact congrArg ObjId.mk h

variable {c : Correspondence} {pace : Pace} {early : List Early} {floor : Nat}
variable {objects objects' : ObjId → ObjId → Prop} {machine machine' : Machine}

namespace Machine.Like

theorem lt_size (h : Like c pace early floor objects machine machine') {id id' : ObjId}
    (hid : objects id id') : id.index < machine.heap.size ∧ id'.index < machine'.heap.size := by
  obtain ⟨object, object', hobject, hobject', -⟩ := h.heap hid
  exact ⟨(Array.getElem?_eq_some_iff.mp hobject).1, (Array.getElem?_eq_some_iff.mp hobject').1⟩

theorem object (h : Like c pace early floor objects machine machine') {id id' : ObjId}
    (hid : objects id id') :
    Object.Like objects c.names (machine.object id) (machine'.object id') := by
  obtain ⟨object, object', hobject, hobject', hlike⟩ := h.heap hid
  rwa [Machine.object, Machine.object, Array.getD_eq_getD_getElem?, Array.getD_eq_getD_getElem?,
    hobject, hobject', Option.getD_some, Option.getD_some]

theorem frame (h : Like c pace early floor objects machine machine') {depth : Nat} {held : Frame}
    (hheld : machine.frames[depth]? = some held) :
    ∃ held', machine'.frames[depth]? = some held' ∧ held'.function = held.function ∧
      Option.Rel (c.Targets floor depth) held.yieldTo held'.yieldTo := by
  have hlt := (Array.getElem?_eq_some_iff.mp hheld).1
  have hheld' := Array.getElem?_eq_getElem (h.size.symm ▸ hlt)
  have horigin := h.origin depth
  rw [Machine.origin?, Machine.origin?, hheld, hheld'] at horigin
  obtain ⟨⟨hfunction, hyield⟩⟩ := horigin
  exact ⟨_, hheld', hfunction, hyield⟩

/-- New heaps, in which more objects correspond. -/
theorem withHeaps (h : Like c pace early floor objects machine machine')
    (hobjects : objects ≤ objects') (hone : Relator.BiUnique objects') {heap heap' : Array Object}
    (hheap : HeapsLike objects' c.names heap heap')
    (hnumber : ∀ {id id'}, objects' id id' → pace.heaps id.index id'.index)
    (hheaps : pace.heaps heap.size heap'.size)
    (hfresh : ∀ entry ∈ early, entry.Fresh c objects' heap') :
    Like c pace early floor objects' { machine with heap := heap }
      { machine' with heap := heap' } where
  oneToOne := hone
  heap := hheap
  number := hnumber
  heaps := hheaps
  size := h.size
  origin := h.origin
  value hkept hopen := (h.value hkept hopen).imp fun _ _ hvalue ↦ hvalue.mono hobjects le_rfl
  room := h.room
  waits entry hentry :=
    { h.waits entry hentry with
      held := (h.waits entry hentry).held
      fresh := hfresh entry hentry }
  apart := h.apart
  shows := ⟨(h.shows.mono hobjects le_rfl).output, h.shows.calls⟩
  steps := h.steps

/-- Both machines write like values into a variable. -/
theorem setLocal (hc : c.Sound) (h : Like c pace early floor objects machine machine') {depth : Nat}
    {symbol : SymId} (hopen : Open early depth symbol) {value value' : Value}
    (hvalue : Value.Like objects c.names value value') :
    Like c pace early floor objects (machine.setLocal depth symbol value)
      (machine'.setLocal depth (c.rename symbol) value') :=
  { h with
    size := by rw [size_setLocal, size_setLocal, h.size]
    room := by rw [size_setLocal]; exact h.room
    origin := fun other ↦ by
      rw [origin?_setLocal, origin?_setLocal]
      exact h.origin other
    value := fun {other symbol'} hkept hopen' ↦ by
      simp only [local?_setLocal, h.size, hc.injective.eq_iff]
      split
      · exact .some hvalue
      · exact h.value hkept hopen'
    waits := fun entry hentry ↦
      { h.waits entry hentry with
        held := by
          rw [local?_setLocal, if_neg]
          · exact (h.waits entry hentry).held
          · exact fun ⟨hdepth, hsymbol, _⟩ ↦
              hopen entry hentry hdepth (hc.injective hsymbol) }
    shows := ⟨h.shows.output, h.shows.calls⟩ }

/-- The first machine writes into a variable that is not kept. -/
theorem setLocal_left (h : Like c pace early floor objects machine machine') {depth : Nat}
    {symbol : SymId} (hsymbol : ¬ c.kept symbol) {value : Value} :
    Like c pace early floor objects (machine.setLocal depth symbol value) machine' :=
  { h with
    size := by rw [size_setLocal, h.size]
    room := by rw [size_setLocal]; exact h.room
    origin := fun other ↦ by
      rw [origin?_setLocal]
      exact h.origin other
    value := fun {other symbol'} hkept hopen' ↦ by
      rw [local?_setLocal, if_neg]
      · exact h.value hkept hopen'
      · rintro ⟨-, rfl, -⟩
        exact hsymbol hkept
    shows := ⟨h.shows.output, h.shows.calls⟩ }

/-- Both machines write like values into a field of corresponding objects. -/
theorem setField (h : Like c pace early floor objects machine machine') {id id' : ObjId}
    (hid : objects id id') {position : Nat} {value value' : Value}
    (hvalue : Value.Like objects c.names value value') :
    Like c pace early floor objects (machine.setField id position value)
      (machine'.setField id' position value') := by
  refine h.withHeaps le_rfl h.oneToOne ?_ h.number ?_ ?_
  · intro other other' hother
    obtain ⟨object, object', hobject, hobject', hlike⟩ := h.heap hother
    have hindex : id.index = other.index ↔ id'.index = other'.index := by
      have hiff := Relator.rel_eq h.oneToOne hid hother
      exact ⟨fun heq ↦ congrArg ObjId.index (hiff.mp (ObjId.ext heq)),
        fun heq ↦ congrArg ObjId.index (hiff.mpr (ObjId.ext heq))⟩
    simp only [Array.getElem?_modify, hobject, hobject', Option.map_some]
    by_cases heq : id.index = other.index
    · rw [if_pos heq, if_pos (hindex.mp heq)]
      exact ⟨_, _, rfl, rfl, hlike.setField hvalue position⟩
    · rw [if_neg heq, if_neg fun heq' ↦ heq (hindex.mpr heq')]
      exact ⟨_, _, rfl, rfl, hlike⟩
  · simpa using h.heaps
  · intro entry hentry object hobject
    obtain ⟨hnew, hnone⟩ := (h.waits entry hentry).fresh object hobject
    refine ⟨?_, hnone⟩
    rw [Array.getElem?_modify, if_neg, hnew]
    exact fun heq ↦ hnone id (ObjId.ext heq ▸ hid)

/-- Both machines make an object. -/
theorem allocate (h : Like c pace early floor objects machine machine')
    (hheaps : pace.heaps (machine.heap.size + 1) (machine'.heap.size + 1)) {type : TypeId}
    {fields fields' : Array Value}
    (hfields : ∀ position : Nat, Option.Rel (Value.Like objects c.names) fields[position]?
      fields'[position]?) :
    Like c pace early floor (link objects ⟨machine.heap.size⟩ ⟨machine'.heap.size⟩)
      (machine.allocate type fields).2 (machine'.allocate type fields').2 := by
  have hid : ∀ other, ¬ objects ⟨machine.heap.size⟩ other := fun other hother ↦
    Nat.lt_irrefl _ (h.lt_size hother).1
  have hid' : ∀ other, ¬ objects other ⟨machine'.heap.size⟩ := fun other hother ↦
    Nat.lt_irrefl _ (h.lt_size hother).2
  refine h.withHeaps le_link (biUnique_link h.oneToOne hid hid') ?_ ?_ ?_ ?_
  · rintro other other' (hother | ⟨rfl, rfl⟩)
    · obtain ⟨object, object', hobject, hobject', hlike⟩ := h.heap hother
      obtain ⟨hlt, hlt'⟩ := h.lt_size hother
      refine ⟨object, object', ?_, ?_, hlike.mono le_link⟩
      · rwa [Array.getElem?_push_lt hlt, ← Array.getElem?_eq_getElem hlt]
      · rwa [Array.getElem?_push_lt hlt', ← Array.getElem?_eq_getElem hlt']
    · exact ⟨_, _, Array.getElem?_push_size, Array.getElem?_push_size, rfl,
        fun position ↦ (hfields position).imp fun _ _ hvalue ↦ hvalue.mono le_link le_rfl⟩
  · rintro other other' (hother | ⟨rfl, rfl⟩)
    · exact h.number hother
    · exact h.heaps
  · simpa using hheaps
  · intro entry hentry object hobject
    obtain ⟨hnew, hnone⟩ := (h.waits entry hentry).fresh object hobject
    have hlt := (Array.getElem?_eq_some_iff.mp hnew).1
    refine ⟨?_, ?_⟩
    · rwa [Array.getElem?_push_lt hlt, ← Array.getElem?_eq_getElem hlt]
    · rintro other (hother | ⟨-, rfl⟩)
      · exact hnone other hother
      · exact Nat.lt_irrefl _ hlt

/-- The first machine makes an object that corresponds to none. -/
theorem allocate_left (h : Like c pace early floor objects machine machine')
    (hheaps : pace.heaps (machine.heap.size + 1) machine'.heap.size) {type : TypeId}
    {fields : Array Value} :
    Like c pace early floor objects (machine.allocate type fields).2 machine' := by
  refine h.withHeaps le_rfl h.oneToOne ?_ h.number (by simpa using hheaps) fun entry hentry ↦
    (h.waits entry hentry).fresh
  intro other other' hother
  obtain ⟨object, object', hobject, hobject', hlike⟩ := h.heap hother
  have hlt := (h.lt_size hother).1
  refine ⟨object, object', ?_, hobject', hlike⟩
  rwa [Array.getElem?_push_lt hlt, ← Array.getElem?_eq_getElem hlt]

/-- The second machine makes an object that corresponds to none. -/
theorem allocate_right (h : Like c pace early floor objects machine machine')
    (hheaps : pace.heaps machine.heap.size (machine'.heap.size + 1)) {type : TypeId}
    {fields : Array Value} :
    Like c pace early floor objects machine (machine'.allocate type fields).2 := by
  refine h.withHeaps le_rfl h.oneToOne ?_ h.number (by simpa using hheaps) ?_
  · intro other other' hother
    obtain ⟨object, object', hobject, hobject', hlike⟩ := h.heap hother
    have hlt := (h.lt_size hother).2
    refine ⟨object, object', hobject, ?_, hlike⟩
    rwa [Array.getElem?_push_lt hlt, ← Array.getElem?_eq_getElem hlt]
  · intro entry hentry object hobject
    obtain ⟨hnew, hnone⟩ := (h.waits entry hentry).fresh object hobject
    have hlt := (Array.getElem?_eq_some_iff.mp hnew).1
    exact ⟨by rwa [Array.getElem?_push_lt hlt, ← Array.getElem?_eq_getElem hlt], hnone⟩

/-- Both machines trace like values. -/
theorem trace (h : Like c pace early floor objects machine machine') {values values' : List Value}
    (hvalues : List.Forall₂ (Value.Like objects c.names) values values') :
    Like c pace early floor objects { machine with output := machine.output ++ values }
      { machine' with output := machine'.output ++ values' } :=
  { h with
    waits := fun entry hentry ↦ { h.waits entry hentry with held := (h.waits entry hentry).held }
    shows := ⟨by simpa using List.rel_append h.shows.output hvalues, h.shows.calls⟩ }

/-- Both machines count a call. -/
theorem countCall (h : Like c pace early floor objects machine machine') (function : FnId) :
    Like c pace early floor objects (machine.countCall function) (machine'.countCall function) :=
  { h with
    waits := fun entry hentry ↦ { h.waits entry hentry with held := (h.waits entry hentry).held }
    shows := by
      refine ⟨h.shows.output, fun other ↦ ?_⟩
      simp only [Machine.callCount, Machine.countCall]
      by_cases hother : other = function
      · subst hother
        rw [FiniteMap.find?_insert_self, FiniteMap.find?_insert_self]
        exact congrArg (· + 1) (h.shows.calls other)
      · rw [FiniteMap.find?_insert_of_ne _ hother, FiniteMap.find?_insert_of_ne _ hother]
        exact h.shows.calls other }

/-- Either machine takes steps. -/
theorem withSteps (h : Like c pace early floor objects machine machine') {steps steps' : Nat}
    (hsteps : pace.steps steps steps') :
    Like c pace early floor objects { machine with steps } { machine' with steps := steps' } :=
  { h with
    waits := fun entry hentry ↦ { h.waits entry hentry with held := (h.waits entry hentry).held }
    shows := ⟨h.shows.output, h.shows.calls⟩
    steps := hsteps }

theorem local?_of_waits {entry : Early} (h : entry.Waits c floor objects machine') :
    entry.depth < machine'.frames.size := lt_size_of_local? h.held

/-- Both machines push frames that were made for the same. -/
theorem push (h : Like c pace early floor objects machine machine') {held held' : Frame}
    (horigin : c.Origins floor machine.frames.size held.origin held'.origin)
    (hvalue : ∀ {symbol}, c.kept symbol → Option.Rel (Value.Like objects c.names)
      (held.locals.find? symbol) (held'.locals.find? (c.rename symbol))) :
    Like c pace early floor objects { machine with frames := machine.frames.push held }
      { machine' with frames := machine'.frames.push held' } :=
  { h with
    size := by simp [h.size]
    room := by
      have hroom := h.room
      simp only [Array.size_push]
      omega
    origin := fun depth ↦ by
      rw [origin?_push rfl, origin?_push rfl, h.size]
      split
      · rename_i heq
        exact .some (heq ▸ horigin)
      · exact h.origin depth
    value := fun {depth symbol} hkept hopen ↦ by
      rw [local?_push rfl, local?_push rfl, h.size]
      split
      · exact hvalue hkept
      · exact h.value hkept hopen
    waits := fun entry hentry ↦
      { h.waits entry hentry with
        held := by
          rw [local?_push rfl, if_neg (local?_of_waits (h.waits entry hentry)).ne]
          exact (h.waits entry hentry).held }
    shows := ⟨h.shows.output, h.shows.calls⟩ }

/-- Both machines take the top frame off the stack. -/
theorem pop (h : Like c pace early floor objects machine machine')
    (hroom : floor + 1 ≤ machine.frames.size) :
    Like c pace early floor objects { machine with frames := machine.frames.pop }
      { machine' with frames := machine'.frames.pop } :=
  { h with
    size := by simp [h.size]
    room := by
      simp only [Array.size_pop]
      omega
    origin := fun depth ↦ by
      rw [origin?_pop rfl, origin?_pop rfl, h.size]
      split
      · exact h.origin depth
      · exact .none
    value := fun {depth symbol} hkept hopen ↦ by
      rw [local?_pop rfl, local?_pop rfl, h.size]
      split
      · exact h.value hkept hopen
      · exact .none
    waits := fun entry hentry ↦
      { h.waits entry hentry with
        held := by
          have hbelow := (h.waits entry hentry).below
          rw [local?_pop rfl, if_pos (by rw [h.size]; omega)]
          exact (h.waits entry hentry).held }
    shows := ⟨h.shows.output, h.shows.calls⟩ }

end Machine.Like

end IteratorLowering
