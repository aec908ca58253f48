import IteratorLowering.Proofs.Evaluation.Evolving

/-!
# Machines whose references lead somewhere

A value may name an object and may name a field of one. It is grounded in a heap that has the object
and the field (`Value.GroundedIn`). A heap only gains objects and never changes their shape, so a
value that is grounded once stays so (`Value.GroundedIn.mono`). References to locals are left out:
they may outlive their frame.

A machine is sound when its stack is within the limits and yields lead down the stack, when its
objects have the fields that their classes declare, and when everything that its locals and fields
hold is grounded (`Machine.Sound`). All but the last follows from what a run keeps anyway, so a
change of a sound machine only has to answer for the values that it writes
(`Machine.Sound.of_evolves`).
-/

set_option autoImplicit false
set_option relaxedAutoImplicit false

namespace IteratorLowering

/-- The heap has a field at a position of an object. -/
def HasField (heap : Array Object) (id : ObjId) (position : Nat) : Prop :=
  ∃ object, heap[id.index]? = some object ∧ position < object.fields.size

/-- The object or field that a value names is on the heap. -/
def Value.GroundedIn (heap : Array Object) : Value → Prop
  | .obj id => id.index < heap.size
  | .ref (.field id position) => HasField heap id position
  | .ref (.slot ..) | .void | .nil | .int _ | .bool _ | .str _ => True

/-- Whether the value names no object and no place. -/
def Value.isScalar : Value → Bool
  | .void | .nil | .int _ | .bool _ | .str _ => true
  | .obj _ | .ref _ => false

/-- What the locals of a frame hold is on the heap. -/
def Frame.GroundedIn (heap : Array Object) (held : Frame) : Prop :=
  ∀ symbol value, held.locals.find? symbol = some value → value.GroundedIn heap

/-- What the fields of an object hold is on the heap. -/
def Object.GroundedIn (heap : Array Object) (object : Object) : Prop :=
  ∀ value ∈ object.fields, value.GroundedIn heap

theorem Value.groundedIn_of_isScalar {heap : Array Object} {value : Value}
    (h : value.isScalar = true) : value.GroundedIn heap := by
  cases value with
  | obj id => cases h
  | ref place => cases h
  | _ => trivial

namespace FiniteMap

variable {Key Value : Type} [DecidableEq Key]

theorem eq_or_find?_of_insert {map : FiniteMap Key Value} {key other : Key} {value found : Value}
    (h : (map.insert key value).find? other = some found) :
    found = value ∨ map.find? other = some found := by
  by_cases hkey : other = key
  · subst hkey
    rw [find?_insert_self] at h
    exact .inl (Option.some.inj h).symm
  · rw [find?_insert_of_ne map hkey] at h
    exact .inr h

end FiniteMap

namespace Machine

variable {program : Program} {limits : Limits} {machine final : Machine}

/-! ### What stays -/

theorem Evolves.live (h : machine.Evolves program final) {frame : Nat}
    (hframe : frame < machine.frames.size) : frame < final.frames.size := by
  rw [h.size_frames]
  exact hframe

theorem Evolves.size_le_heap (h : machine.Evolves program final) :
    machine.heap.size ≤ final.heap.size := by
  by_contra hlt
  obtain ⟨object, hobject, -, -⟩ :=
    h.object (Array.getElem?_eq_getElem (Nat.lt_of_not_le hlt))
  rw [Array.getElem?_eq_none (Nat.le_refl _)] at hobject
  cases hobject

theorem Evolves.hasField (h : machine.Evolves program final) {id : ObjId} {position : Nat}
    (hfield : HasField machine.heap id position) : HasField final.heap id position := by
  obtain ⟨object, hobject, hlt⟩ := hfield
  obtain ⟨object', hobject', -, hsize⟩ := h.object hobject
  exact ⟨object', hobject', hsize ▸ hlt⟩

theorem Evolves.origin (h : machine.Evolves program final) {depth : Nat} {held : Frame}
    (hheld : final.frames[depth]? = some held) :
    ∃ held', machine.frames[depth]? = some held' ∧ held'.yieldTo = held.yieldTo := by
  have hmap := congrArg (fun origins ↦ origins[depth]?) h.frames
  simp only [List.getElem?_map, Array.getElem?_toList, hheld, Option.map_some] at hmap
  obtain ⟨held', hheld', horigin⟩ := Option.map_eq_some_iff.mp hmap.symm
  exact ⟨held', hheld', congrArg Prod.snd horigin⟩

end Machine

section

variable {program : Program} {machine final : Machine}

theorem Value.GroundedIn.mono {value : Value} (hvalue : value.GroundedIn machine.heap)
    (h : machine.Evolves program final) : value.GroundedIn final.heap := by
  cases value with
  | obj id => exact Nat.lt_of_lt_of_le hvalue h.size_le_heap
  | ref place =>
    cases place with
    | slot => trivial
    | field => exact h.hasField hvalue
  | _ => trivial

theorem Frame.GroundedIn.mono {held : Frame} (hheld : held.GroundedIn machine.heap)
    (h : machine.Evolves program final) : held.GroundedIn final.heap :=
  fun symbol value hvalue ↦ (hheld symbol value hvalue).mono h

theorem Object.GroundedIn.mono {object : Object} (hobject : object.GroundedIn machine.heap)
    (h : machine.Evolves program final) : object.GroundedIn final.heap :=
  fun value hvalue ↦ (hobject value hvalue).mono h

end

namespace Machine

/-! ### Sound machines -/

/-- The stack fits the limits, the objects fit their classes, and what is held is there. -/
structure Sound (program : Program) (limits : Limits) (machine : Machine) : Prop where
  depth : machine.frames.size ≤ limits.maxDepth
  /-- Yields lead to a frame further down. -/
  below : ∀ {depth : Nat} {held : Frame} {target : YieldTarget},
    machine.frames[depth]? = some held → held.yieldTo = some target → target.frame < depth
  sized : ∀ {index : Nat} {object : Object}, machine.heap[index]? = some object →
    object.fields.size = (program.type object.type).fields.length
  locals : ∀ {depth : Nat} {held : Frame}, machine.frames[depth]? = some held →
    held.GroundedIn machine.heap
  fields : ∀ {index : Nat} {object : Object}, machine.heap[index]? = some object →
    object.GroundedIn machine.heap

theorem sound_new (program : Program) (limits : Limits) : new.Sound program limits where
  depth := Nat.zero_le _
  below h := by simp [new] at h
  sized h := by simp [new] at h
  locals h := by simp [new] at h
  fields h := by simp [new] at h

variable {program : Program} {limits : Limits} {machine final : Machine}

namespace Sound

/-- A change answers only for what it writes into locals and fields. -/
theorem of_evolves (h : machine.Sound program limits) (hevolves : machine.Evolves program final)
    (hlocals : ∀ {depth : Nat} {held : Frame}, final.frames[depth]? = some held →
      held.GroundedIn final.heap)
    (hfields : ∀ {index : Nat} {object : Object}, final.heap[index]? = some object →
      object.GroundedIn final.heap) : final.Sound program limits where
  depth := hevolves.size_frames ▸ h.depth
  below hheld htarget := by
    obtain ⟨held', hheld', horigin⟩ := hevolves.origin hheld
    exact h.below hheld' (horigin.trans htarget)
  sized {index object} hobject := by
    by_cases hindex : index < machine.heap.size
    · obtain ⟨object', hobject', htype, hsize⟩ :=
        hevolves.object (Array.getElem?_eq_getElem hindex)
      obtain rfl := Option.some.inj (hobject.symm.trans hobject')
      rw [hsize, htype, h.sized (Array.getElem?_eq_getElem hindex)]
    · exact hevolves.new (Nat.le_of_not_lt hindex) hobject
  locals := hlocals
  fields := hfields

/-- A change of the counters and of the traced values. -/
theorem of_same (h : machine.Sound program limits) {calls : FiniteMap FnId Nat}
    {output : Array Value} {steps : Nat} :
    Sound program limits { machine with calls, output, steps } :=
  ⟨h.depth, h.below, h.sized, h.locals, h.fields⟩

theorem setLocal (h : machine.Sound program limits) {frame : Nat} {symbol : SymId} {value : Value}
    (hvalue : value.GroundedIn machine.heap) :
    (machine.setLocal frame symbol value).Sound program limits := by
  refine h.of_evolves (.setLocal program machine frame symbol value) ?_ h.fields
  intro depth held hheld
  simp only [Machine.setLocal, Array.getElem?_modify] at hheld
  by_cases hframe : frame = depth
  · rw [if_pos hframe] at hheld
    obtain ⟨held', hheld', rfl⟩ := Option.map_eq_some_iff.mp hheld
    intro other found hfound
    rcases FiniteMap.eq_or_find?_of_insert hfound with rfl | hfound
    · exact hvalue
    · exact h.locals hheld' other found hfound
  · rw [if_neg hframe] at hheld
    exact h.locals hheld

theorem setField (h : machine.Sound program limits) {id : ObjId} {position : Nat} {value : Value}
    (hvalue : value.GroundedIn machine.heap) :
    (machine.setField id position value).Sound program limits := by
  have hevolves := Evolves.setField program machine id position value
  refine h.of_evolves hevolves (fun hheld ↦ (h.locals hheld).mono hevolves) ?_
  intro index object hobject
  simp only [Machine.setField, Array.getElem?_modify] at hobject
  by_cases hindex : id.index = index
  · rw [if_pos hindex] at hobject
    obtain ⟨object', hobject', rfl⟩ := Option.map_eq_some_iff.mp hobject
    intro written hwritten
    rcases Array.mem_or_eq_of_mem_setIfInBounds hwritten with hwritten | rfl
    · exact ((h.fields hobject') written hwritten).mono hevolves
    · exact hvalue.mono hevolves
  · rw [if_neg hindex] at hobject
    exact (h.fields hobject).mono hevolves

theorem allocate (h : machine.Sound program limits) {type : TypeId} {fields : Array Value}
    (hsize : fields.size = (program.type type).fields.length)
    (hfields : ∀ value ∈ fields, value.GroundedIn machine.heap) :
    (machine.allocate type fields).2.Sound program limits := by
  have hevolves := Evolves.allocate program machine hsize
  refine h.of_evolves hevolves (fun hheld ↦ (h.locals hheld).mono hevolves) ?_
  intro index object hobject
  simp only [Machine.allocate, Array.getElem?_push] at hobject
  by_cases hindex : index = machine.heap.size
  · rw [if_pos hindex] at hobject
    obtain rfl := Option.some.inj hobject
    exact fun value hvalue ↦ (hfields value hvalue).mono hevolves
  · rw [if_neg hindex] at hobject
    exact (h.fields hobject).mono hevolves

/-- A frame for which there is room, and whose yields lead into the stack. -/
theorem push (h : machine.Sound program limits) {held : Frame}
    (hroom : machine.frames.size < limits.maxDepth)
    (htarget : ∀ target ∈ held.yieldTo, target.frame < machine.frames.size)
    (hheld : held.GroundedIn machine.heap) :
    Sound program limits { machine with frames := machine.frames.push held } where
  depth := by rw [Array.size_push]; exact hroom
  sized := h.sized
  fields := h.fields
  below {depth} {_} {target} hframe hyield := by
    simp only [Array.getElem?_push] at hframe
    by_cases hdepth : depth = machine.frames.size
    · rw [if_pos hdepth] at hframe
      obtain rfl := Option.some.inj hframe
      exact hdepth ▸ htarget target hyield
    · rw [if_neg hdepth] at hframe
      exact h.below hframe hyield
  locals {depth} _ hframe := by
    simp only [Array.getElem?_push] at hframe
    by_cases hdepth : depth = machine.frames.size
    · rw [if_pos hdepth] at hframe
      obtain rfl := Option.some.inj hframe
      exact hheld
    · rw [if_neg hdepth] at hframe
      exact h.locals hframe

/-- The frames that are left when one is popped. -/
theorem pop (h : machine.Sound program limits) :
    Sound program limits { machine with frames := machine.frames.pop } where
  depth := by
    have hdepth := h.depth
    rw [Array.size_pop]
    omega
  sized := h.sized
  fields := h.fields
  below hframe hyield := by
    rw [Array.getElem?_pop] at hframe
    split at hframe
    · exact h.below hframe hyield
    · cases hframe
  locals hframe := by
    rw [Array.getElem?_pop] at hframe
    split at hframe
    · exact h.locals hframe
    · cases hframe

/-- A value of a field, or of no field. -/
theorem fieldValue (h : machine.Sound program limits) (id : ObjId) (position : Nat) :
    (machine.fieldValue id position).GroundedIn machine.heap := by
  unfold Machine.fieldValue Machine.object
  rw [Array.getD_eq_getD_getElem?, Array.getD_eq_getD_getElem?]
  cases hobject : machine.heap[id.index]? with
  | none => trivial
  | some object =>
    cases hvalue : object.fields[position]? with
    | none => rw [Option.getD_some, hvalue]; trivial
    | some value =>
      rw [Option.getD_some, hvalue]
      exact h.fields hobject value (Array.mem_of_getElem? hvalue)

end Sound

end Machine

end IteratorLowering
