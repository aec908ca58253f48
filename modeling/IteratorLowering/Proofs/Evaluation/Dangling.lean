import IteratorLowering.Proofs.Evaluation.Limits
import IteratorLowering.Proofs.Evaluation.Locals

/-!
# Stores through dangling references

A reference to a local names its frame by depth. A store through it is rejected where the stack does
not reach that depth, and leaves the machine as it is (`Machine.rejects_iff`); otherwise it writes
that one local of the frame that has the depth now (`Machine.eq_setLocal_of_store`).

Since every frame that is pushed is popped again, a statement or a run rejects afterwards what was
rejected before. So the locals of a call that has ended cannot be written, until another call takes
the depth (`Machine.rejects_and_stores`).
-/

set_option autoImplicit false
set_option relaxedAutoImplicit false

namespace IteratorLowering

namespace Machine

variable {program : Program} {machine final : Machine} {depth : Nat} {symbol : SymId}
variable {value : Value}

/-- Whether stores through references into the frame at a depth fail as such and change nothing. -/
def Rejects (machine : Machine) (depth : Nat) : Prop :=
  ∀ symbol value, Eval.store (.slot depth symbol) value machine =
    .error (.unsupported .danglingStore) machine

theorem store_slot (machine : Machine) (depth : Nat) (symbol : SymId) (value : Value) :
    Eval.store (.slot depth symbol) value machine =
      if depth < machine.frames.size then .ok () (machine.setLocal depth symbol value)
      else .error (.unsupported .danglingStore) machine := by
  change (if depth < machine.frames.size
    then modify fun machine ↦ machine.setLocal depth symbol value
    else Eval.unsupported .danglingStore : Eval Unit) machine = _
  split <;> rfl

theorem rejects_iff : machine.Rejects depth ↔ machine.frames.size ≤ depth := by
  refine ⟨fun h ↦ ?_, fun hsize symbol value ↦ ?_⟩
  · by_contra hlive
    have hstore := h ⟨0⟩ .nil
    rw [store_slot, if_pos (Nat.not_le.mp hlive)] at hstore
    cases hstore
  · rw [store_slot, if_neg (Nat.not_lt.mpr hsize)]

/-- A store that is not rejected sets a local of a frame that is there. -/
theorem eq_setLocal_of_store (h : Eval.store (.slot depth symbol) value machine = .ok () final) :
    depth < machine.frames.size ∧ final = machine.setLocal depth symbol value := by
  rw [store_slot] at h
  split at h
  · rename_i hlive
    cases h
    exact ⟨hlive, rfl⟩
  · cases h

/-! ### What stays rejected -/

theorem Evolves.rejects_iff (h : machine.Evolves program final) :
    final.Rejects depth ↔ machine.Rejects depth := by
  rw [Machine.rejects_iff, Machine.rejects_iff, h.size_frames]

/-- Stores through references into the frame at a depth are rejected just as long as the stack does
not reach the depth. No statement and no run changes that, whatever it ends in, so that the locals
of a call that has ended cannot be written. A store that is not rejected writes the one local of the
frame that has the depth now, and nothing else. -/
theorem rejects_and_stores (machine : Machine) (program : Program) (limits : Limits) (depth : Nat) :
    (machine.Rejects depth ↔ machine.frames.size ≤ depth) ∧
    (∀ fuel frame id,
      (Eval.left (Eval.execute program limits fuel frame id machine)).Rejects depth ↔
        machine.Rejects depth) ∧
    (∀ function args,
      (Eval.left (machine.run program limits function args)).Rejects depth ↔
        machine.Rejects depth) ∧
    ∀ symbol value final, Eval.store (.slot depth symbol) value machine = .ok () final →
      final.heap = machine.heap ∧ final.output = machine.output ∧
        ∀ depth' other, final.local? depth' other =
          if depth' = depth ∧ other = symbol then some value else machine.local? depth' other := by
  refine ⟨rejects_iff, fun fuel frame id ↦ ?_, fun function args ↦ ?_, ?_⟩
  · exact Evolves.rejects_iff (Eval.evolving_execute machine)
  · exact Evolves.rejects_iff evolves_run
  · intro symbol value final hstore
    obtain ⟨hlive, rfl⟩ := eq_setLocal_of_store hstore
    refine ⟨rfl, rfl, fun depth' other ↦ ?_⟩
    simp only [local?_setLocal, hlive, and_true]

/-- A function that is called twice: the first call returns a reference to its local, and the second
one stores through it. -/
def storesLate : Program where
  types := builtinTypes.push { name := "ref int", kind := .ref .int }
  symbols := #[
    { name := "p", kind := .arg, type := ⟨5⟩, owner := some ⟨0⟩ },
    { name := "first", kind := .arg, type := .bool, owner := some ⟨0⟩ },
    { name := "x", kind := .var, type := .int, owner := some ⟨0⟩ },
    { name := "q", kind := .var, type := ⟨5⟩, owner := some ⟨1⟩ }]
  statements := #[
    { kind := .plain [⟨1⟩, ⟨2⟩, ⟨3⟩, ⟨7⟩, ⟨8⟩], bodyOf := some ⟨0⟩, span := .none },
    { kind := .action (.define ⟨2⟩), parent := some ⟨0⟩, span := .none },
    { kind := .action (.assign ⟨2⟩ (.use (.int 1))), parent := some ⟨0⟩, span := .none },
    { kind := .branch (.sym ⟨1⟩) ⟨4⟩ none, parent := some ⟨0⟩, span := .none },
    { kind := .plain [⟨5⟩, ⟨6⟩], parent := some ⟨3⟩, span := .none },
    { kind := .action (.assign ⟨0⟩ (.addressOf ⟨2⟩)), parent := some ⟨4⟩, span := .none },
    { kind := .action (.ret (.sym ⟨0⟩)), parent := some ⟨4⟩, span := .none },
    { kind := .action (.store ⟨0⟩ (.int 5)), parent := some ⟨0⟩, span := .none },
    { kind := .action (.evaluate (.call ⟨2⟩ [.sym ⟨2⟩])), parent := some ⟨0⟩, span := .none },
    { kind := .plain [⟨10⟩, ⟨11⟩, ⟨12⟩], bodyOf := some ⟨1⟩, span := .none },
    { kind := .action (.define ⟨3⟩), parent := some ⟨9⟩, span := .none },
    { kind := .action (.assign ⟨3⟩ (.call ⟨0⟩ [.sym ⟨3⟩, .bool true])), parent := some ⟨9⟩,
      span := .none },
    { kind := .action (.evaluate (.call ⟨0⟩ [.sym ⟨3⟩, .bool false])), parent := some ⟨9⟩,
      span := .none }]
  functions := #[
    { name := "f", formals := [⟨0⟩, ⟨1⟩], retType := ⟨5⟩, body := ⟨0⟩ },
    { name := "main", retType := .void, body := ⟨9⟩ },
    { name := "trace", retType := .void, body := ⟨0⟩, flags := { external := true } }]

/-- The second call has the depth of the first one, so that it writes its own local. -/
example : (Eval.left (new.run storesLate {} ⟨1⟩ [])).output = #[.int 5] := by
  decide +kernel

end Machine

end IteratorLowering
