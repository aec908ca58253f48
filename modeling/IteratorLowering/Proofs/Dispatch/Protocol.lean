import IteratorLowering.Proofs.Dispatch.Running
import IteratorLowering.Proofs.Dispatch.Subtypes

/-!
# Protocol calls reach the runtime class

A protocol call on an instance calls the operation of the class that the object behind the instance
has, if this class is declared below the static type at any depth, and the operation of the static
type otherwise (`Program.Serves`, `invokes_protocolCall`). The declarations may be shared or lead
round in a cycle; all that is asked of the types is that each of them is an iterator's.
-/

set_option autoImplicit false
set_option relaxedAutoImplicit false

namespace IteratorLowering

namespace Program

/-- The type whose operations serve an object of a class that is held with a static type: the class
itself, if it is below the static type. -/
def Serves (program : Program) (static type serving : TypeId) : Prop :=
  program.IsBelow (program.valueType static) type ∧ serving = type ∨
    ¬ program.IsBelow (program.valueType static) type ∧ serving = static

variable {program : Program} {static type : TypeId} {base : FnId} {targets : List (TypeId × FnId)}

/-- A cascade that lists the runtime subtypes reaches the function of the type that serves. -/
theorem exists_serves_reached (behind : TypeId → FnId → Prop) (hbase : behind static base)
    (htargets : ∀ target ∈ targets, behind target.1 target.2)
    (hall : targets.map Prod.fst = program.runtimeSubtypes static) :
    ∃ serving, program.Serves static type serving ∧ behind serving (reached base targets type) := by
  have hmem {other : TypeId} : other ∈ targets.map Prod.fst ↔
      program.IsBelow (program.valueType static) other := by rw [hall, mem_runtimeSubtypes_iff]
  unfold reached
  cases hfound : targets.find? fun target => target.1 = type with
  | none =>
    refine ⟨static, .inr ⟨fun hbelow ↦ ?_, rfl⟩, hbase⟩
    obtain ⟨target, htarget, heq⟩ := List.mem_map.mp (hmem.mpr hbelow)
    exact absurd heq (by simpa using List.find?_eq_none.mp hfound target htarget)
  | some target =>
    have htarget := List.mem_of_find?_eq_some hfound
    have heq : target.1 = type := by simpa using List.find?_some hfound
    refine ⟨type, .inl ⟨hmem.mp (List.mem_map.mpr ⟨target, htarget, heq⟩), rfl⟩, ?_⟩
    exact heq ▸ htargets target htarget

end Program

open Eval Program

/-- A protocol call calls one function, once, on what the instance holds: the operation of the type
that serves the object's class. The result receives what is returned, cast if its type differs, and
nothing else that the program knows is changed, wherever the block is put. -/
theorem invokes_protocolCall {program : Program} {owner : FnId} {op : ProtocolOp}
    {instanceSym : SymId} {result : Option SymId} {static : TypeId}
    (hstatic : program.valueType (program.symbolType instanceSym) = static)
    (hinstance : program.HasSymbol instanceSym)
    (hresult : ∀ symbol ∈ result, program.HasSymbol symbol)
    (hprotocol : ∀ type, type = static ∨ program.IsBelow (program.valueType static) type →
      (program.protocol? type).isSome) :
    ∃ block final, protocolCall owner op instanceSym result program = .ok block final ∧
      ∀ {lowered}, final.Spares (fun id ↦ ¬ program.Has id) lowered →
        ∀ (limits : Limits) (fuel frame : Nat) (machine : Machine) (value : Value) (type : TypeId),
          limits.Covers fuel machine.steps →
            machine.HoldsObject program frame instanceSym value type →
              ∃ serving info, program.Serves static type serving ∧
                program.protocol? serving = some info ∧
                  Invokes program lowered limits frame (info.protocolFn op) value result machine
                    (execute lowered limits fuel frame block machine) := by
  obtain ⟨info, hinfo⟩ := Option.isSome_iff_exists.mp (hprotocol static (.inl rfl))
  obtain ⟨targets, block, final, hrun, hall, htargets, hbuilt⟩ :=
    dispatches_protocolCall hstatic hinstance hresult hinfo fun subtype hmem ↦
      hprotocol subtype (.inr (mem_runtimeSubtypes_iff.mp hmem))
  refine ⟨block, final, hrun, fun hspares limits fuel frame machine value type hfuel hholds ↦ ?_⟩
  obtain ⟨ids, hids, hdispatches⟩ := hbuilt hspares
  obtain ⟨serving, hserves, info', hinfo', hreached⟩ :=
    exists_serves_reached (fun type callee ↦ ∃ info, program.protocol? type = some info ∧
      callee = info.protocolFn op) ⟨info, hinfo, rfl⟩ htargets hall
  refine ⟨serving, info', hserves, hinfo', hreached ▸ ?_⟩
  exact invokes_block hfuel hids fun less hless ↦
    invokes_dispatches hdispatches (hholds.aside hinstance (.tick _ frame machine)) hinstance hless
      hless

/-- Two iterators whose instance classes are subtypes of each other, and an instance that is
declared with the first class. The operations of the first are the functions 2 to 8, those of the
second are the functions 9 to 15. Each of them returns its own number, but function 14, which tells
whether the second has more, returns a truth value. -/
def mutualSubtypes : Program where
  types := builtinTypes ++ #[
    { name := "_ic_first", kind := .heapClass, iteratorFn := some ⟨0⟩, subtypes := [⟨6⟩] },
    { name := "_ic_second", kind := .heapClass, iteratorFn := some ⟨1⟩, subtypes := [⟨4⟩, ⟨5⟩] }]
  symbols := #[
    { name := "it", kind := .var, type := ⟨5⟩ },
    { name := "more", kind := .var, type := .int }]
  statements := (Array.range 16).flatMap fun number ↦ #[
    { kind := .plain [⟨2 * number + 1⟩], span := .none },
    { kind := .action (.ret (.lit (if number = 14 then .bool true else .int (.ofNat number))))
      parent := some ⟨2 * number⟩, span := .none }]
  functions := (Array.range 16).map fun number ↦
    { name := s!"function_{number}", retType := if number = 14 then .bool else .int
      body := ⟨2 * number⟩
      iteratorInfo :=
        if number = 0 then some ⟨⟨5⟩, ⟨5⟩, ⟨2⟩, ⟨3⟩, ⟨4⟩, ⟨5⟩, ⟨6⟩, ⟨7⟩, ⟨8⟩⟩
        else if number = 1 then some ⟨⟨6⟩, ⟨6⟩, ⟨9⟩, ⟨10⟩, ⟨11⟩, ⟨12⟩, ⟨13⟩, ⟨14⟩, ⟨15⟩⟩
        else none }

/-- A machine on which the instance holds an object of the second class. -/
def secondInstance : Machine where
  heap := #[{ type := ⟨6⟩, fields := #[] }]
  frames := #[{ function := ⟨0⟩, locals := .insert .empty ⟨0⟩ (.obj ⟨0⟩) }]

/-- The call reaches function 14 and no other operation of either class, and its truth value is cast
to a number. -/
theorem invokes_mutualSubtypes :
    ∃ block final, protocolCall ⟨0⟩ .hasMore ⟨0⟩ (some ⟨1⟩) mutualSubtypes = .ok block final ∧
      Invokes mutualSubtypes final ⟨20, 9⟩ 0 ⟨14⟩ (.obj ⟨0⟩) (some ⟨1⟩) secondInstance
        (execute final ⟨20, 9⟩ 21 0 block secondInstance) ∧
      (left (execute final ⟨20, 9⟩ 21 0 block secondInstance)).local? 0 ⟨1⟩ =
        some (.int 1) := by
  have hbelow {type : TypeId} : mutualSubtypes.IsBelow ⟨5⟩ type ↔ type ∈ [⟨6⟩, ⟨5⟩] := by
    rw [show ([⟨6⟩, ⟨5⟩] : List TypeId) = mutualSubtypes.runtimeSubtypes ⟨5⟩ by decide +kernel,
      mem_runtimeSubtypes_iff]
    rfl
  have hprotocol : ∀ type : TypeId, type = ⟨5⟩ ∨ mutualSubtypes.IsBelow ⟨5⟩ type →
      (mutualSubtypes.protocol? type).isSome := by
    rintro type (rfl | h)
    · decide +kernel
    · rw [hbelow, List.mem_cons, List.mem_singleton] at h
      rcases h with rfl | rfl <;> decide +kernel
  have hholds : secondInstance.HoldsObject mutualSubtypes 0 ⟨0⟩ (.obj ⟨0⟩) ⟨6⟩ :=
    ⟨by decide, ⟨0⟩, _, .obj, rfl, rfl⟩
  have hresult : ∀ symbol ∈ some (⟨1⟩ : SymId), mutualSubtypes.HasSymbol symbol := by
    rintro _ ⟨⟩
    exact (by decide : 1 < 2)
  obtain ⟨block, final, hrun, hall⟩ := @invokes_protocolCall mutualSubtypes ⟨0⟩ .hasMore ⟨0⟩
    (some ⟨1⟩) ⟨5⟩ rfl (by decide : 0 < 2) hresult hprotocol
  obtain ⟨serving, info, hserves, hinfo, hinvokes⟩ := hall (.refl _ final) ⟨20, 9⟩ 21 0
    secondInstance (.obj ⟨0⟩) ⟨6⟩ ⟨by decide, by decide⟩ hholds
  -- The second class is below the first, so it serves itself.
  obtain ⟨-, rfl⟩ : _ ∧ serving = ⟨6⟩ :=
    hserves.resolve_right fun hnot ↦ hnot.1 (hbelow.mpr List.mem_cons_self)
  have hcallee : info.protocolFn .hasMore = ⟨14⟩ := by
    obtain rfl := Option.some.inj (hinfo.symm.trans
      (show mutualSubtypes.protocol? ⟨6⟩ =
        some ⟨⟨6⟩, ⟨6⟩, ⟨9⟩, ⟨10⟩, ⟨11⟩, ⟨12⟩, ⟨13⟩, ⟨14⟩, ⟨15⟩⟩ from by decide +kernel))
    rfl
  have hmore : (match protocolCall ⟨0⟩ .hasMore ⟨0⟩ (some ⟨1⟩) mutualSubtypes with
      | .ok block final => (left (execute final ⟨20, 9⟩ 21 0 block secondInstance)).local? 0 ⟨1⟩
      | .error .. => none) = some (.int 1) := by decide +kernel
  rw [hrun] at hmore
  exact ⟨block, final, hrun, hcallee ▸ hinvokes, hmore⟩

end IteratorLowering
