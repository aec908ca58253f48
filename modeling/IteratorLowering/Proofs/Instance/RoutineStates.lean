import IteratorLowering.Proofs.Dispatch.Stepping
import IteratorLowering.Proofs.Evaluation.Hiding

/-!
# Between the parts of a copy or destroy routine

A rebuilt routine goes through the fields of a record in order. Between the runs of the routines
that are registered for the types of fields it changes nothing but its own locals and, in a copy
routine, the object that it returns (`Machine.Within`).

What the registered routines do is their own affair, except that the record and its copy must not be
lost between them. Since the frame of the routine and the copy are hidden, they cannot get at
either: what was filled in stays, and the record is still there unless the argument was made to lead
elsewhere (`Machine.Ready.after_run`, `Machine.Filling.secludes`).
-/

set_option autoImplicit false
set_option relaxedAutoImplicit false

namespace IteratorLowering

namespace Machine

/-! ### What a routine does by itself -/

/-- Nothing but what is hidden has changed, and objects and steps were added. -/
structure Within (hidden : Hidden) (machine final : Machine) : Prop where
  calls : final.calls = machine.calls
  output : final.output = machine.output
  size : final.frames.size = machine.frames.size
  origin : ∀ depth, final.origin? depth = machine.origin? depth
  kept : ∀ {depth symbol}, ¬ hidden.frame depth →
    final.local? depth symbol = machine.local? depth symbol
  object : ∀ {id : ObjId} {held : Object}, ¬ hidden.object id →
    machine.heap[id.index]? = some held → final.heap[id.index]? = some held
  steps : machine.steps ≤ final.steps

variable {hidden : Hidden} {machine middle final now after : Machine} {frame depth : Nat}
variable {free : SymId → Prop} {lowered : Program} {source own : ObjId} {value : Value}

namespace Within

theorem refl (hidden : Hidden) (machine : Machine) : machine.Within hidden machine :=
  ⟨rfl, rfl, rfl, fun _ ↦ rfl, fun _ ↦ rfl, fun _ h ↦ h, Nat.le_refl _⟩

theorem trans (first : machine.Within hidden middle) (second : middle.Within hidden final) :
    machine.Within hidden final where
  calls := second.calls.trans first.calls
  output := second.output.trans first.output
  size := second.size.trans first.size
  origin depth := (second.origin depth).trans (first.origin depth)
  kept h := (second.kept h).trans (first.kept h)
  object hid h := second.object hid (first.object hid h)
  steps := Nat.le_trans first.steps second.steps

/-- Only locals of a hidden frame have changed. -/
theorem of_aside (h : machine.Aside free frame final) (hframe : hidden.frame frame) :
    machine.Within hidden final where
  calls := h.calls
  output := h.output
  size := h.size
  origin := h.origin
  kept hdepth := h.kept (.inl fun heq ↦ hdepth (heq ▸ hframe))
  object _ hheld := h.object hheld
  steps := h.steps

/-- A hidden object is written to. -/
theorem setField (machine : Machine) (hown : hidden.object own) (position : Nat) (value : Value) :
    machine.Within hidden (machine.setField own position value) :=
  { refl hidden machine with
    object := fun {id held} hid hheld ↦ by
      have hne : own.index ≠ id.index := by
        intro heq
        obtain rfl : own = id := congrArg ObjId.mk heq
        exact hid hown
      rw [Machine.setField, Array.getElem?_modify, if_neg hne]
      exact hheld }

end Within

/-- The object that a value leads to is not hidden if the value names nothing that is. -/
theorem Hides.denotes_avoids (h : machine.Hides hidden) (hvalue : value.Avoids hidden)
    (hdenotes : machine.Denotes lowered source value) : ¬ hidden.object source := by
  cases hdenotes with
  | obj => exact hvalue
  | slot _ hlocal =>
    obtain ⟨held, hheld, hfound⟩ := Option.bind_eq_some_iff.mp hlocal
    exact h.local_avoids hheld hvalue.1 hfound
  | field hheld hfield => exact h.objects hheld hvalue _ (Array.mem_of_getElem? hfield)

/-- What a value leads to stays where nothing but what is hidden changes. -/
theorem Denotes.within (h : machine.Denotes lowered source value) (hvalue : value.Avoids hidden)
    (hwithin : machine.Within hidden final) : final.Denotes lowered source value := by
  cases h with
  | obj => exact .obj
  | slot hsymbol hlocal => exact .slot hsymbol ((hwithin.kept hvalue.1).trans hlocal)
  | field hheld hfield => exact .field (hwithin.object hvalue hheld) hfield

/-- A hidden frame may declare variables. -/
theorem Hides.declared {symbol : SymId} (h : machine.Hides hidden) (hframe : hidden.frame frame) :
    (machine.declared lowered frame symbol).Hides hidden := by
  unfold Machine.declared
  dsimp only
  split
  · refine (h.allocate fun value hvalue ↦ ?_).hides.hides_setLocal fun hnot ↦ (hnot hframe).elim
    obtain ⟨field, -, rfl⟩ := List.mem_map.mp (List.mem_toArray.mp hvalue)
    exact Value.avoids_of_isScalar (Eval.isScalar_fieldDefault)
  · exact h.hides_setLocal fun hnot ↦ (hnot hframe).elim

/-! ### The record that is read -/

theorem fieldValue_of_getElem? {held : Object} (h : machine.heap[source.index]? = some held)
    (position : Nat) : machine.fieldValue source position = held.fields.getD position .nil := by
  rw [fieldValue, object_of_getElem? h]

/-- A routine is about to read a field: its formal leads to a record with so many fields, and what
is its own is hidden. -/
structure Ready (lowered : Program) (hidden : Hidden) (frame : Nat) (record : SymId)
    (argument : Value) (source : ObjId) (count : Nat) (now : Machine) : Prop where
  hides : now.Hides hidden
  unnamed : ∀ {symbol}, ¬ hidden.name symbol
  avoids : argument.Avoids hidden
  formal : now.local? frame record = some argument
  denotes : now.Denotes lowered source argument
  held : ∃ held, now.heap[source.index]? = some held ∧ held.fields.size = count

variable {record symbol : SymId} {argument : Value} {count position : Nat}

namespace Ready

theorem within (h : now.Ready lowered hidden frame record argument source count)
    (hwithin : now.Within hidden after) (hides : after.Hides hidden)
    (hlocal : after.local? frame record = now.local? frame record) :
    after.Ready lowered hidden frame record argument source count where
  hides := hides
  unnamed := h.unnamed
  avoids := h.avoids
  formal := hlocal.trans h.formal
  denotes := h.denotes.within h.avoids hwithin
  held := by
    obtain ⟨held, hheld, hsize⟩ := h.held
    exact ⟨held, hwithin.object (h.hides.denotes_avoids h.avoids h.denotes) hheld, hsize⟩

theorem tick (h : now.Ready lowered hidden frame record argument source count) :
    Ready lowered hidden frame record argument source count
      { now with steps := now.steps + 1 } :=
  ⟨(Secludes.of_same h.hides).hides, h.unnamed, h.avoids, h.formal,
    h.denotes.aside (.tick _ frame now), h.held⟩

theorem setLocal (h : now.Ready lowered hidden frame record argument source count)
    (hframe : hidden.frame frame) (hne : symbol ≠ record) :
    (now.setLocal frame symbol value).Ready lowered hidden frame record argument source count :=
  have haside : now.Aside (· = symbol) frame (now.setLocal frame symbol value) := .setLocal rfl
  h.within (.of_aside haside hframe) (h.hides.hides_setLocal fun hnot ↦ (hnot hframe).elim)
    (haside.kept (.inr hne.symm))

theorem declared (h : now.Ready lowered hidden frame record argument source count)
    (hframe : hidden.frame frame) (hne : symbol ≠ record) :
    (now.declared lowered frame symbol).Ready lowered hidden frame record argument source count :=
  have haside : now.Aside (· = symbol) frame (now.declared lowered frame symbol) :=
    .declared lowered rfl
  h.within (.of_aside haside hframe) (h.hides.declared hframe) (haside.kept (.inr hne.symm))

theorem setField (h : now.Ready lowered hidden frame record argument source count)
    (hown : hidden.object own) :
    (now.setField own position value).Ready lowered hidden frame record argument source count :=
  h.within (.setField now hown position value)
    (h.hides.hides_setField fun hnot ↦ (hnot hown).elim) rfl

theorem leadsTo (h : now.Ready lowered hidden frame record argument source count) :
    ∃ held, now.LeadsTo lowered frame record source held ∧ held.fields.size = count := by
  obtain ⟨held, hheld, hsize⟩ := h.held
  exact ⟨held, ⟨⟨argument, h.formal, h.denotes⟩, hheld⟩, hsize⟩

theorem frame_lt (h : now.Ready lowered hidden frame record argument source count) :
    frame < now.frames.size :=
  lt_size_of_local? h.formal

/-- What the record holds stays while the routine declares variables. -/
theorem fieldValue_aside (h : now.Ready lowered hidden frame record argument source count)
    (haside : now.Aside free frame after) (position : Nat) :
    after.fieldValue source position = now.fieldValue source position := by
  obtain ⟨held, hheld, -⟩ := h.held
  rw [fieldValue_of_getElem? hheld, fieldValue_of_getElem? (haside.object hheld)]

theorem fieldValue_avoids (h : now.Ready lowered hidden frame record argument source count)
    (position : Nat) : (now.fieldValue source position).Avoids hidden :=
  h.hides.fieldValue_avoids (h.hides.denotes_avoids h.avoids h.denotes)

/-- A registered routine that is given a value of the record cannot get at what is hidden. The
record is still there, unless the routine made the argument lead elsewhere. -/
theorem after_run {limits : Limits} {callee : FnId} {returned : Value}
    (h : now.Ready lowered hidden frame record argument source count)
    (hframe : hidden.frame frame) (hvalue : value.Avoids hidden)
    (hrun : now.run lowered limits callee [value] = .ok returned after)
    (hkept : after.Denotes lowered source argument) :
    after.Ready lowered hidden frame record argument source count ∧
      now.Secludes hidden after ∧ returned.Avoids hidden := by
  obtain ⟨hsecludes, hreturned⟩ := secludes_of_run h.hides (fun _ _ _ _ ↦ h.unnamed)
    (List.forall_mem_singleton.mpr hvalue) hrun
  have hevolves : now.Evolves lowered (Eval.left (now.run lowered limits callee [value])) :=
    evolves_run
  rw [hrun] at hevolves
  refine ⟨⟨hsecludes.hides, h.unnamed, h.avoids, ?_, hkept, ?_⟩, hsecludes, hreturned⟩
  · rw [Machine.local?, hsecludes.frame hframe]
    exact h.formal
  · obtain ⟨held, hheld, hsize⟩ := h.held
    obtain ⟨held', hheld', -, hsame⟩ := hevolves.object hheld
    exact ⟨held', hheld', hsame.trans hsize⟩

end Ready

/-! ### The copy that is filled in -/

/-- A copy routine has filled in the first fields of its result, an object that is hidden. -/
structure Filling (hidden : Hidden) (frame : Nat) (result : SymId) (own : ObjId) (type : TypeId)
    (count : Nat) (done : List Value) (now : Machine) : Prop where
  hidden : hidden.object own
  result : now.local? frame result = some (.obj own)
  object : ∃ rest, now.heap[own.index]? = some { type, fields := (done ++ rest).toArray } ∧
    (done ++ rest).length = count

variable {result : SymId} {type : TypeId} {done : List Value}

namespace Filling

theorem of_aside (h : now.Filling hidden frame result own type count done)
    (haside : now.Aside (· = symbol) frame after) (hne : symbol ≠ result) :
    after.Filling hidden frame result own type count done where
  hidden := h.hidden
  result := (haside.kept (.inr hne.symm)).trans h.result
  object := by
    obtain ⟨rest, hheld, hcount⟩ := h.object
    exact ⟨rest, haside.object hheld, hcount⟩

theorem tick (h : now.Filling hidden frame result own type count done) :
    Filling hidden frame result own type count done { now with steps := now.steps + 1 } :=
  ⟨h.hidden, h.result, h.object⟩

theorem secludes (h : now.Filling hidden frame result own type count done)
    (hframe : hidden.frame frame) (hsecludes : now.Secludes hidden after) :
    after.Filling hidden frame result own type count done where
  hidden := h.hidden
  result := by
    rw [Machine.local?, hsecludes.frame hframe]
    exact h.result
  object := by
    rw [hsecludes.object h.hidden]
    exact h.object

/-- The next field is filled in. -/
theorem setField (h : now.Filling hidden frame result own type count done)
    (hcount : done.length < count) :
    (now.setField own done.length value).Filling hidden frame result own type count
      (done ++ [value]) where
  hidden := h.hidden
  result := h.result
  object := by
    obtain ⟨rest, hheld, hlength⟩ := h.object
    cases rest with
    | nil =>
      rw [List.append_nil] at hlength
      exact absurd hlength (Nat.ne_of_lt hcount)
    | cons old rest =>
      refine ⟨rest, ?_, ?_⟩
      · rw [Machine.setField, Array.getElem?_modify, if_pos rfl, hheld]
        simp
      · simpa using hlength

end Filling

end Machine

end IteratorLowering
