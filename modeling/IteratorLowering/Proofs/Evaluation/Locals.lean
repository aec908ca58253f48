import IteratorLowering.Proofs.Evaluation.Evolving

/-!
# Frames by their depth

References name a variable by the depth of its frame, and `Machine.local?` reads it there. A write
changes one variable of one frame (`local?_setLocal`) and leaves alone what the frames were made
for (`origin?_setLocal`). A frame that is pushed and popped again leaves all others as they were.
-/

set_option autoImplicit false
set_option relaxedAutoImplicit false

namespace IteratorLowering

namespace Machine

/-- The value of a local of the frame at a depth, if it is set. -/
def local? (machine : Machine) (frame : Nat) (symbol : SymId) : Option Value :=
  machine.frames[frame]?.bind fun held => held.locals.find? symbol

/-- What the frame at a depth was made for. -/
def origin? (machine : Machine) (depth : Nat) : Option (FnId × Option YieldTarget) :=
  machine.frames[depth]?.map Frame.origin

variable {machine final : Machine} {frame depth : Nat} {symbol other : SymId} {value : Value}

theorem local?_setLocal_self (hframe : frame < machine.frames.size) :
    (machine.setLocal frame symbol value).local? frame symbol = some value := by
  simp only [local?, setLocal, Array.getElem?_modify, if_pos, Array.getElem?_eq_getElem hframe,
    Option.map_some, Option.bind_some, FiniteMap.find?_insert_self]

theorem local?_setLocal_of_ne (h : other ≠ symbol) :
    (machine.setLocal frame symbol value).local? frame other = machine.local? frame other := by
  simp only [local?, setLocal, Array.getElem?_modify, if_pos]
  cases machine.frames[frame]? with
  | none => rfl
  | some held => exact held.locals.find?_insert_of_ne h value

theorem local?_of_size_le (h : machine.frames.size ≤ depth) :
    machine.local? depth symbol = none := by
  rw [local?, Array.getElem?_eq_none h, Option.bind_none]

theorem lt_size_of_local? (h : machine.local? frame symbol = some value) :
    frame < machine.frames.size := by
  by_contra hout
  rw [local?_of_size_le (Nat.not_lt.mp hout)] at h
  cases h

theorem local?_setLocal : (machine.setLocal frame symbol value).local? depth other =
    if depth = frame ∧ other = symbol ∧ frame < machine.frames.size then some value
    else machine.local? depth other := by
  by_cases hdepth : depth = frame
  · subst hdepth
    by_cases hother : other = symbol
    · subst hother
      by_cases hframe : depth < machine.frames.size
      · rw [local?_setLocal_self hframe, if_pos ⟨rfl, rfl, hframe⟩]
      · have hsize : machine.frames.size ≤ depth := Nat.not_lt.mp hframe
        rw [if_neg fun h ↦ hframe h.2.2, local?_of_size_le hsize, local?_of_size_le]
        simpa [setLocal] using hsize
    · rw [local?_setLocal_of_ne hother, if_neg fun h ↦ hother h.2.1]
  · rw [if_neg fun h ↦ hdepth h.1]
    simp only [local?, setLocal, Array.getElem?_modify, if_neg (Ne.symm hdepth)]

@[simp] theorem size_setLocal :
    (machine.setLocal frame symbol value).frames.size = machine.frames.size := by
  simp [setLocal]

@[simp] theorem origin?_setLocal :
    (machine.setLocal frame symbol value).origin? depth = machine.origin? depth := by
  simp only [origin?, setLocal, Array.getElem?_modify]
  split
  · cases machine.frames[depth]? <;> rfl
  · rfl

section

variable {frames : Array Frame} {held : Frame}

theorem local?_push (hframes : machine.frames = frames.push held) :
    machine.local? depth symbol = if depth = frames.size then held.locals.find? symbol
      else frames[depth]?.bind fun held => held.locals.find? symbol := by
  rw [local?, hframes, Array.getElem?_push]
  split <;> simp_all

theorem origin?_push (hframes : machine.frames = frames.push held) :
    machine.origin? depth = if depth = frames.size then some held.origin
      else frames[depth]?.map Frame.origin := by
  rw [origin?, hframes, Array.getElem?_push]
  split <;> simp_all

theorem local?_pop (hframes : machine.frames = frames.pop) :
    machine.local? depth symbol = if depth < frames.size - 1
      then frames[depth]?.bind fun held => held.locals.find? symbol else none := by
  rw [local?, hframes, Array.getElem?_pop]
  split <;> rfl

theorem origin?_pop (hframes : machine.frames = frames.pop) :
    machine.origin? depth =
      if depth < frames.size - 1 then frames[depth]?.map Frame.origin else none := by
  rw [origin?, hframes, Array.getElem?_pop]
  split <;> rfl

end

end Machine

namespace Eval

variable {program : Program} {machine last : Machine} {frame : Nat} {symbol : SymId} {value : Value}

theorem read_of_local? (h : machine.local? frame symbol = some value) :
    read program frame symbol machine = .ok value machine := by
  obtain ⟨held, hheld, hfound⟩ := Option.bind_eq_some_iff.mp h
  unfold read
  rw [bind_of_ok (show (get : Eval Machine) machine = .ok machine machine from rfl), hheld]
  dsimp only
  rw [hfound]
  rfl

/-- What is read is the value of the local. -/
theorem local?_of_read (h : read program frame symbol machine = .ok value last) :
    machine.local? frame symbol = some value := by
  unfold read at h
  rw [bind_of_ok (show (get : Eval Machine) machine = .ok machine machine from rfl)] at h
  cases hheld : machine.frames[frame]? with
  | none =>
    rw [hheld] at h
    cases h
  | some held =>
    rw [hheld] at h
    cases hfound : held.locals.find? symbol with
    | none =>
      simp only [hfound] at h
      cases h
    | some found =>
      simp only [hfound] at h
      cases h
      rw [Machine.local?, hheld, Option.bind_some, hfound]

end Eval

end IteratorLowering
