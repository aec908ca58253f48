import IteratorLowering.Evaluation.Run
import Mathlib.Tactic.Common

/-!
# What a run keeps

Whatever a run does, and whether or not it gives a result, it leaves the stack as high as it was,
with the same calls active; it takes no object off the heap, and neither the class of an object
nor the number of its fields changes; it makes objects with the fields that their classes declare;
and it only adds to the traced values. `machine.Evolves program final` says all of this about a
machine and one that was reached from it. It is a preorder, so that a run is followed step by
step, and a frame that is pushed and popped again is not noticed (`Evolving.withFrame`).
-/

set_option autoImplicit false
set_option relaxedAutoImplicit false

namespace IteratorLowering

/-- What a frame was made for: its function and the loop that its yields go to. -/
def Frame.origin (frame : Frame) : FnId × Option YieldTarget := (frame.function, frame.yieldTo)

namespace Machine

/-- What a machine has in common with one that was reached from it. -/
structure Evolves (program : Program) (machine final : Machine) : Prop where
  frames : final.frames.toList.map Frame.origin = machine.frames.toList.map Frame.origin
  output : machine.output.toList <+: final.output.toList
  steps : machine.steps ≤ final.steps
  object : ∀ {index : Nat} {object : Object}, machine.heap[index]? = some object →
    ∃ object' : Object, final.heap[index]? = some object' ∧ object'.type = object.type ∧
      object'.fields.size = object.fields.size
  new : ∀ {index : Nat} {object : Object}, machine.heap.size ≤ index →
    final.heap[index]? = some object →
      object.fields.size = (program.type object.type).fields.length

namespace Evolves

variable {program : Program} {machine middle final : Machine}

theorem refl (program : Program) (machine : Machine) : machine.Evolves program machine where
  frames := rfl
  output := List.prefix_rfl
  steps := Nat.le_refl _
  object h := ⟨_, h, rfl, rfl⟩
  new hsize h := by
    rw [Array.getElem?_eq_none hsize] at h
    cases h

theorem trans (first : machine.Evolves program middle) (second : middle.Evolves program final) :
    machine.Evolves program final where
  frames := second.frames.trans first.frames
  output := first.output.trans second.output
  steps := Nat.le_trans first.steps second.steps
  object h := by
    obtain ⟨object, hmiddle, htype, hsize⟩ := first.object h
    obtain ⟨object', hfinal, htype', hsize'⟩ := second.object hmiddle
    exact ⟨object', hfinal, htype'.trans htype, hsize'.trans hsize⟩
  new {index object} hsize h := by
    by_cases hindex : middle.heap.size ≤ index
    · exact second.new hindex h
    · have hlt := Nat.lt_of_not_le hindex
      have hmiddle := first.new hsize (Array.getElem?_eq_getElem hlt)
      obtain ⟨object', hfinal, htype, hfields⟩ := second.object (Array.getElem?_eq_getElem hlt)
      obtain rfl := Option.some.inj (h.symm.trans hfinal)
      rw [hfields, htype, hmiddle]

theorem size_frames (h : machine.Evolves program final) :
    final.frames.size = machine.frames.size := by
  simpa using congrArg List.length h.frames

/-- A change of the counters. -/
theorem of_counters (program : Program) (machine : Machine) {calls : FiniteMap FnId Nat}
    {steps : Nat} (hsteps : machine.steps ≤ steps) :
    machine.Evolves program { machine with calls, steps } :=
  { refl program machine with steps := hsteps }

theorem setLocal (program : Program) (machine : Machine) (frame : Nat) (symbol : SymId)
    (value : Value) : machine.Evolves program (machine.setLocal frame symbol value) :=
  { refl program machine with
    frames := by
      refine List.ext_getElem? fun depth ↦ ?_
      simp only [Machine.setLocal, List.getElem?_map, Array.getElem?_toList, Array.getElem?_modify]
      split
      · cases machine.frames[depth]? <;> rfl
      · rfl }

theorem setField (program : Program) (machine : Machine) (id : ObjId) (position : Nat)
    (value : Value) : machine.Evolves program (machine.setField id position value) :=
  { refl program machine with
    object := fun {index object} h ↦ by
      simp only [Machine.setField, Array.getElem?_modify, h, Option.map_some]
      split
      · exact ⟨_, rfl, rfl, Array.size_setIfInBounds ..⟩
      · exact ⟨_, rfl, rfl, rfl⟩
    new := fun {index object} hsize h ↦ by
      rw [Machine.setField, Array.getElem?_eq_none (by simpa using hsize)] at h
      cases h }

theorem allocate (program : Program) (machine : Machine) {type : TypeId} {fields : Array Value}
    (hfields : fields.size = (program.type type).fields.length) :
    machine.Evolves program (machine.allocate type fields).2 :=
  { refl program machine with
    object := fun {index object} h ↦ by
      have hlt := (Array.getElem?_eq_some_iff.mp h).1
      refine ⟨object, ?_, rfl, rfl⟩
      simp only [Machine.allocate, Array.getElem?_push_lt hlt]
      exact Array.getElem?_eq_getElem hlt ▸ h
    new := fun {index object} hsize h ↦ by
      simp only [Machine.allocate, Array.getElem?_push] at h
      split at h
      · cases h
        exact hfields
      · rw [Array.getElem?_eq_none hsize] at h
        cases h }

theorem trace (program : Program) (machine : Machine) (values : List Value) :
    machine.Evolves program { machine with output := machine.output ++ values } :=
  { refl program machine with
    output := by simp }

/-- A frame that is pushed before and popped after leaves the stack as it was. -/
theorem popped {frame : Frame}
    (h : Evolves program { machine with frames := machine.frames.push frame } final) :
    machine.Evolves program { final with frames := final.frames.pop } :=
  { output := h.output
    steps := h.steps
    object := h.object
    new := h.new
    frames := by
      have hframes := congrArg List.dropLast h.frames
      simpa [List.map_dropLast] using hframes }

end Evolves

end Machine

namespace Eval

variable {α β : Type} {program : Program}

/-! ### Sequences and frames -/

section

variable {machine final : Machine} {first : Eval α} {next : α → Eval β}

theorem bind_of_ok {value : α} (h : first machine = .ok value final) :
    (first >>= next) machine = next value final := by
  change EStateM.bind first next machine = _
  unfold EStateM.bind
  rw [h]

theorem bind_of_error {error : EvalError} (h : first machine = .error error final) :
    (first >>= next) machine = .error error final := by
  change EStateM.bind first next machine = _
  unfold EStateM.bind
  rw [h]

variable {held : Frame} {computation : Nat → Eval α}

theorem withFrame_of_ok {value : α} (h : computation machine.frames.size
      { machine with frames := machine.frames.push held } = .ok value final) :
    withFrame held computation machine =
      .ok (value, final.frames.back?.getD held) { final with frames := final.frames.pop } := by
  unfold withFrame
  dsimp only
  rw [h]

theorem withFrame_of_error {error : EvalError} (h : computation machine.frames.size
      { machine with frames := machine.frames.push held } = .error error final) :
    withFrame held computation machine =
      .error error { final with frames := final.frames.pop } := by
  unfold withFrame
  dsimp only
  rw [h]

end

/-! ### Computations that evolve the machine -/

/-- The machine that is left, with a result or without. -/
def left : EStateM.Result EvalError Machine α → Machine
  | .ok _ final => final
  | .error _ final => final

/-- Whatever the machine is, the computation only evolves it. -/
def Evolving (program : Program) (computation : Eval α) : Prop :=
  ∀ machine : Machine, machine.Evolves program (left (computation machine))

namespace Evolving

theorem pure {value : α} : Evolving program (pure value : Eval α) :=
  fun machine ↦ .refl program machine

theorem throw {error : EvalError} : Evolving program (throw error : Eval α) :=
  fun machine ↦ .refl program machine

theorem get : Evolving program (get : Eval Machine) :=
  fun machine ↦ .refl program machine

theorem modifyGet {change : Machine → α × Machine}
    (h : ∀ machine : Machine, machine.Evolves program (change machine).2) :
    Evolving program (modifyGet change : Eval α) :=
  h

theorem modify {change : Machine → Machine}
    (h : ∀ machine : Machine, machine.Evolves program (change machine)) :
    Evolving program (modify change : Eval PUnit) :=
  h

theorem bind {first : Eval α} {next : α → Eval β} (h : Evolving program first)
    (hnext : ∀ value, Evolving program (next value)) : Evolving program (first >>= next) := by
  intro machine
  have hleft := h machine
  cases hfirst : first machine with
  | ok value middle =>
    rw [hfirst] at hleft
    rw [bind_of_ok hfirst]
    exact hleft.trans (hnext value middle)
  | error error middle =>
    rw [hfirst] at hleft
    rw [bind_of_error hfirst]
    exact hleft

theorem withFrame {held : Frame} {computation : Nat → Eval α}
    (h : ∀ depth, Evolving program (computation depth)) :
    Evolving program (withFrame held computation) := by
  intro machine
  have hleft := h machine.frames.size { machine with frames := machine.frames.push held }
  cases hbody : computation machine.frames.size
    { machine with frames := machine.frames.push held } with
  | ok value final =>
    rw [hbody] at hleft
    rw [withFrame_of_ok hbody]
    exact hleft.popped
  | error error final =>
    rw [hbody] at hleft
    rw [withFrame_of_error hbody]
    exact hleft.popped

end Evolving

end Eval

end IteratorLowering
