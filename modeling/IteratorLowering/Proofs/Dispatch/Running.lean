import IteratorLowering.Proofs.Dispatch.Stepping

/-!
# Running a cascade

A cascade changes nothing but its own variables until it calls a function, and nothing but its own
variables and the result after that. It calls one function, once, with what the instance holds,
unless the steps run out before that (`Eval.Invokes`). Which function that is depends on the class
of the object alone (`Program.reached`, `Eval.invokes_dispatches`).
-/

set_option autoImplicit false
set_option relaxedAutoImplicit false

namespace IteratorLowering

namespace Program

/-- What a variable gets of what a function returned: it is cast where the types differ. -/
def received (program : Program) (callee : FnId) (symbol : SymId) (returned : Value) : Value :=
  if (program.function callee).retType = program.symbolType symbol then returned
  else Eval.castTo (program.type (program.symbolType symbol)).kind returned

/-- The function that a cascade reaches for an object of a class. -/
def reached (base : FnId) (targets : List (TypeId × FnId)) (type : TypeId) : FnId :=
  ((targets.find? fun target => target.1 = type).map Prod.snd).getD base

end Program

namespace Eval

open Machine

variable {program lowered : Program} {limits : Limits} {frame : Nat} {callee : FnId} {value : Value}
variable {result : Option SymId} {machine middle : Machine} {fuel rounds : Nat}

/-! ### Outcomes -/

/-- Statements call a function once on a value, and leave what it returns in the result. They are
cut off if the steps run out before or after the call, and end as the call does if that fails. -/
inductive Invokes (program lowered : Program) (limits : Limits) (frame : Nat) (callee : FnId)
    (value : Value) (result : Option SymId) (machine : Machine) :
    EStateM.Result EvalError Machine Flow → Prop
  | spent {last : Machine}
      (hlast : machine.Aside (fun symbol ↦ ¬ program.HasSymbol symbol) frame last)
      (hsteps : limits.maxSteps < last.steps) :
      Invokes program lowered limits frame callee value result machine
        (.error (.stepLimit limits.maxSteps) last)
  | failed {before last : Machine} {error : EvalError}
      (hbefore : machine.Aside (fun symbol ↦ ¬ program.HasSymbol symbol) frame before)
      (hcall : before.run lowered limits callee [value] = .error error last) :
      Invokes program lowered limits frame callee value result machine (.error error last)
  | cut {before after last : Machine} {returned : Value}
      (hbefore : machine.Aside (fun symbol ↦ ¬ program.HasSymbol symbol) frame before)
      (hcall : before.run lowered limits callee [value] = .ok returned after)
      (hlast : after.Aside (fun symbol ↦ ¬ program.HasSymbol symbol) frame last)
      (hsteps : limits.maxSteps < last.steps) :
      Invokes program lowered limits frame callee value result machine
        (.error (.stepLimit limits.maxSteps) last)
  | done {before after last : Machine} {returned : Value}
      (hbefore : machine.Aside (fun symbol ↦ ¬ program.HasSymbol symbol) frame before)
      (hcall : before.run lowered limits callee [value] = .ok returned after)
      (hlast : after.Aside (fun symbol ↦ ¬ program.HasSymbol symbol ∨ symbol ∈ result) frame last)
      (hresult : ∀ symbol ∈ result,
        last.local? frame symbol = some (lowered.received callee symbol returned)) :
      Invokes program lowered limits frame callee value result machine (.ok .normal last)

namespace Invokes

theorem after {ended : EStateM.Result EvalError Machine Flow}
    (haside : machine.Aside (fun symbol ↦ ¬ program.HasSymbol symbol) frame middle)
    (h : Invokes program lowered limits frame callee value result middle ended) :
    Invokes program lowered limits frame callee value result machine ended := by
  cases h with
  | spent hlast hsteps => exact .spent (haside.trans hlast) hsteps
  | failed hbefore hcall => exact .failed (haside.trans hbefore) hcall
  | cut hbefore hcall hlast hsteps => exact .cut (haside.trans hbefore) hcall hlast hsteps
  | done hbefore hcall hlast hresult => exact .done (haside.trans hbefore) hcall hlast hresult

/-- Nothing is done after the last member of a list. -/
theorem proceed {ended : EStateM.Result EvalError Machine Flow} {run : StmtId → Eval Flow}
    {body : List StmtId}
    (h : Invokes program lowered limits frame callee value result machine ended) :
    Invokes program lowered limits frame callee value result machine
      (resume (Eval.proceed lowered run body [] rounds) ended) := by
  cases h with
  | spent hlast hsteps => exact .spent hlast hsteps
  | failed hbefore hcall => exact .failed hbefore hcall
  | cut hbefore hcall hlast hsteps => exact .cut hbefore hcall hlast hsteps
  | done hbefore hcall hlast hresult =>
    rw [resume, Eval.proceed, runList_nil]
    exact .done hbefore hcall hlast hresult

end Invokes

/-! ### Statements one by one -/

/-- That the steps run out before the call is allowed for. -/
theorem excuses_invokes : Excuses limits (fun symbol ↦ ¬ program.HasSymbol symbol) frame machine
    (Invokes program lowered limits frame callee value result machine) :=
  ⟨.spent⟩

/-- A block is entered within the steps, or nothing is done. -/
theorem invokes_block {id : StmtId} {ids : List StmtId} (hfuel : limits.Covers fuel machine.steps)
    (hkind : lowered.kind id = .plain ids)
    (h : ∀ less, limits.Covers less (machine.steps + 1) →
      Invokes program lowered limits frame callee value result
        { machine with steps := machine.steps + 1 }
        (runList lowered (execute lowered limits less frame) ids less ids
          { machine with steps := machine.steps + 1 })) :
    Invokes program lowered limits frame callee value result machine
      (execute lowered limits fuel frame id machine) :=
  excuses_invokes.block (.refl _ frame machine) hfuel hkind fun less hless ↦
    (h less hless).after (.tick _ frame machine)

/-- The declaration of a variable of the cascade. -/
theorem invokes_declare {id : StmtId} {symbol : SymId} {rest body : List StmtId}
    (hsymbol : program.Temporary lowered symbol)
    (hkind : lowered.kind id = .action (.define symbol)) (hfuel : limits.Covers fuel machine.steps)
    (hrounds : limits.Covers rounds machine.steps)
    (hrest : ∀ {bound rounds}, machine.Aside (· = symbol) frame bound →
      limits.Covers fuel bound.steps → limits.Covers rounds bound.steps →
        Invokes program lowered limits frame callee value result bound
          (runList lowered (execute lowered limits fuel frame) body rounds rest bound)) :
    Invokes program lowered limits frame callee value result machine
      (runList lowered (execute lowered limits fuel frame) body rounds (id :: rest) machine) :=
  excuses_invokes.declare (.refl _ frame machine) hfuel hrounds hsymbol.notLabel hkind
    fun hbound hfuel hrounds ↦ (hrest hbound hfuel hrounds).after (hbound.of_temporary hsymbol)

/-- An assignment to a variable of the cascade. -/
theorem invokes_assign {id : StmtId} {symbol : SymId} {source : Expr} {assigned : Value}
    {rest body : List StmtId} (hsymbol : program.Temporary lowered symbol)
    (hkind : lowered.kind id = .action (.assign symbol source))
    (hframe : frame < machine.frames.size)
    (hsource : ∀ execute, expression lowered limits execute frame source
      { machine with steps := machine.steps + 1 } =
        .ok assigned { machine with steps := machine.steps + 1 })
    (hfuel : limits.Covers fuel machine.steps) (hrounds : limits.Covers rounds machine.steps)
    (hrest : ∀ {bound rounds}, machine.Aside (· = symbol) frame bound →
      bound.local? frame symbol = some assigned → limits.Covers fuel bound.steps →
        limits.Covers rounds bound.steps →
          Invokes program lowered limits frame callee value result bound
            (runList lowered (execute lowered limits fuel frame) body rounds rest bound)) :
    Invokes program lowered limits frame callee value result machine
      (runList lowered (execute lowered limits fuel frame) body rounds (id :: rest) machine) :=
  excuses_invokes.assign (.refl _ frame machine) hfuel hrounds hkind hframe hsource
    fun hbound hlocal hfuel hrounds ↦
      (hrest hbound hlocal hfuel hrounds).after (hbound.of_temporary hsymbol)

/-! ### Calls -/

/-- What a call returned is cast into the result, or the steps run out before that. -/
theorem invokes_cast {held symbol : SymId} {id : StmtId} {body : List StmtId} {returned : Value}
    {before after stored : Machine}
    (hkind : lowered.kind id =
      .action (.assign symbol (.cast (lowered.symbolType symbol) (.sym held))))
    (htype : (lowered.function callee).retType ≠ lowered.symbolType symbol)
    (hbefore : machine.Aside (fun symbol ↦ ¬ program.HasSymbol symbol) frame before)
    (hcall : before.run lowered limits callee [value] = .ok returned after)
    (hstored : after.Aside (fun symbol ↦ ¬ program.HasSymbol symbol) frame stored)
    (hheld : stored.local? frame held = some returned) (hfuel : limits.Covers fuel stored.steps)
    (hrounds : limits.Covers rounds stored.steps) :
    Invokes program lowered limits frame callee value (some symbol) machine
      (runList lowered (execute lowered limits fuel frame) body rounds [id] stored) := by
  have hgoal : Excuses limits (fun symbol ↦ ¬ program.HasSymbol symbol) frame after
      (Invokes program lowered limits frame callee value (some symbol) machine) :=
    ⟨.cut hbefore hcall⟩
  let ticked : Machine := { stored with steps := stored.steps + 1 }
  have hsource (execute : Executor) : expression lowered limits execute frame
      (.cast (lowered.symbolType symbol) (.sym held)) ticked =
        .ok (lowered.received callee symbol returned) ticked := by
    have hoperand : operand lowered frame (.sym held) ticked = .ok returned ticked :=
      operand_of_local? hheld
    refine (bind_of_ok hoperand).trans ?_
    rw [Program.received, if_neg htype]
    rfl
  refine hgoal.assign hstored hfuel hrounds hkind (lt_size_of_local? hheld) hsource
    fun hbound hlocal _ _ ↦ ?_
  rw [runList_nil]
  refine .done hbefore hcall ((hstored.mono .inl).trans (hbound.mono ?_)) fun other hother ↦ ?_
  · rintro _ rfl
    exact .inr rfl
  · obtain rfl := Option.some.inj hother
    exact hlocal

/-- A list that calls a function calls it once, and the result receives what it returns. -/
theorem invokes_callsInto {arg : SymId} {ids body : List StmtId}
    (h : program.CallsInto lowered callee arg result ids)
    (harg : machine.local? frame arg = some value) (hfuel : limits.Covers fuel machine.steps)
    (hrounds : limits.Covers rounds machine.steps) :
    Invokes program lowered limits frame callee value result machine
      (runList lowered (execute lowered limits fuel frame) body rounds ids machine) := by
  have hframe := lt_size_of_local? harg
  cases h with
  | dropped hkind =>
    refine excuses_invokes.call (.refl _ frame machine) hfuel hrounds hkind
      (fun _ _ ↦ show _ = _ >>= fun _ ↦ pure Flow.normal from rfl) harg .failed
      fun hbefore hcall _ _ ↦ .proceed (.done hbefore hcall (.refl _ frame _) ?_)
    exact fun _ hmem ↦ absurd hmem (Option.not_mem_none _)
  | @stored id symbol hkind htype =>
    refine excuses_invokes.call (.refl _ frame machine) hfuel hrounds hkind (fun _ _ ↦ rfl) harg
      .failed fun {before after returned _} hbefore hcall _ _ ↦
        .proceed (.done hbefore hcall (.setLocal (.inr rfl)) fun other hother ↦ ?_)
    obtain rfl := Option.some.inj hother
    rw [Program.received, if_pos htype]
    exact local?_setLocal_self (by rw [size_frames_of_run hcall, hbefore.size]; exact hframe)
  | @converted declare id last held symbol hvalue hne hdeclare hcallKind hlast htype =>
    refine invokes_declare hvalue hdeclare hfuel hrounds
      fun {bound rounds} hbound hfuel hrounds ↦ ?_
    refine excuses_invokes.call (.refl _ frame bound) hfuel hrounds hcallKind (fun _ _ ↦ rfl)
      ((hbound.kept (.inr hne.symm)).trans harg) .failed
      fun {before after returned _} hbefore hcall hfuel hrounds ↦ ?_
    have hsize : frame < after.frames.size := by
      rw [size_frames_of_run hcall, hbefore.size, hbound.size]
      exact hframe
    exact invokes_cast hlast htype hbefore hcall (.setLocal hvalue.new) (local?_setLocal_self hsize)
      hfuel hrounds

/-! ### Tests -/

variable {instanceSym : SymId} {type : TypeId}

/-- A test for a subtype goes on in one of its blocks, by the class of the object. -/
theorem invokes_testsFor {subtype : TypeId} {thenBlock elseBlock : StmtId} {ids body : List StmtId}
    (h : program.TestsFor lowered instanceSym subtype thenBlock elseBlock ids)
    (hholds : machine.HoldsObject program frame instanceSym value type)
    (hinstance : program.HasSymbol instanceSym) (hfuel : limits.Covers fuel machine.steps)
    (hrounds : limits.Covers rounds machine.steps)
    (hnext : ∀ {middle less}, machine.Aside (fun symbol ↦ ¬ program.HasSymbol symbol) frame middle →
      limits.Covers less middle.steps →
        Invokes program lowered limits frame callee value result middle
          (execute lowered limits less frame (if type = subtype then thenBlock else elseBlock)
            middle)) :
    Invokes program lowered limits frame callee value result machine
      (runList lowered (execute lowered limits fuel frame) body rounds ids machine) := by
  obtain @⟨declare, test, branch, flag, hflag, hdeclare, htest, hbranch⟩ := h
  refine invokes_declare hflag hdeclare hfuel hrounds fun {bound rounds} hbound hfuel hrounds ↦ ?_
  replace hbound := hbound.of_temporary hflag
  let ticked : Machine := { bound with steps := bound.steps + 1 }
  have hheld : ticked.HoldsObject program frame instanceSym value type :=
    hholds.aside hinstance (hbound.trans (.tick _ frame bound))
  have hsource (execute : Executor) : expression lowered limits execute frame
      (.hasClass instanceSym subtype) ticked = .ok (.bool (some type == some subtype)) ticked := by
    refine (bind_of_ok (read_of_local? hheld.local_eq)).trans ?_
    exact bind_of_ok (classOf?_of_holdsObject hheld)
  refine invokes_assign hflag htest (lt_size_of_local? hheld.local_eq) hsource hfuel hrounds
    fun {tested rounds} htested hlocal hfuel hrounds ↦ ?_
  replace htested := htested.of_temporary hflag
  refine excuses_invokes.first (.refl _ frame tested) hfuel hrounds fun less _ hless _ _ ↦
    .proceed (.after (.tick _ frame tested) ?_)
  let entered : Machine := { tested with steps := tested.steps + 1 }
  have hentered := (hbound.trans htested).trans (.tick _ frame tested)
  have htruth : truth lowered frame (.sym flag) entered = .ok (some type == some subtype) entered :=
    truth_of_local? hlocal
  have hstatement : statement lowered limits (execute lowered limits less) less frame branch
      entered = execute lowered limits less frame
        (if type = subtype then thenBlock else elseBlock) entered := by
    rw [statement, hbranch]
    refine (bind_of_ok htruth).trans ?_
    by_cases heq : type = subtype <;> simp [heq]
  exact hstatement.symm ▸ hnext hentered hless

theorem castTo_of_denotes {object : ObjId} {kind : TypeKind}
    (h : machine.Denotes program object value) : castTo kind value = value := by
  cases h <;> cases kind <;> rfl

/-- A cast of the instance is the same value. -/
theorem invokes_callsCast {subtype : TypeId} {ids body : List StmtId}
    (h : program.CallsCast lowered instanceSym result subtype callee ids)
    (hholds : machine.HoldsObject program frame instanceSym value type)
    (hinstance : program.HasSymbol instanceSym) (hfuel : limits.Covers fuel machine.steps)
    (hrounds : limits.Covers rounds machine.steps) :
    Invokes program lowered limits frame callee value result machine
      (runList lowered (execute lowered limits fuel frame) body rounds ids machine) := by
  obtain @⟨declare, cast, child, ids, hchild, hdeclare, hcast, hcall⟩ := h
  refine invokes_declare hchild hdeclare hfuel hrounds fun {bound rounds} hbound hfuel hrounds ↦ ?_
  replace hbound := hbound.of_temporary hchild
  let ticked : Machine := { bound with steps := bound.steps + 1 }
  have hheld : ticked.HoldsObject program frame instanceSym value type :=
    hholds.aside hinstance (hbound.trans (.tick _ frame bound))
  have hsource (execute : Executor) : expression lowered limits execute frame
      (.cast subtype (.sym instanceSym)) ticked = .ok value ticked := by
    obtain ⟨object, _, hdenotes, -⟩ := hheld.object
    refine (bind_of_ok (operand_of_local? hheld.local_eq)).trans ?_
    rw [castTo_of_denotes hdenotes]
    rfl
  exact invokes_assign hchild hcast (lt_size_of_local? hheld.local_eq) hsource hfuel hrounds
    fun _ hlocal hfuel hrounds ↦ invokes_callsInto hcall hlocal hfuel hrounds

/-- A cascade calls the function that it reaches for the class of the object. -/
theorem invokes_dispatches {base : FnId} {targets : List (TypeId × FnId)} {ids body : List StmtId}
    (h : program.Dispatches lowered instanceSym result base targets ids)
    (hholds : machine.HoldsObject program frame instanceSym value type)
    (hinstance : program.HasSymbol instanceSym) (hfuel : limits.Covers fuel machine.steps)
    (hrounds : limits.Covers rounds machine.steps) :
    Invokes program lowered limits frame (Program.reached base targets type) value result machine
      (runList lowered (execute lowered limits fuel frame) body rounds ids machine) := by
  induction h generalizing machine fuel rounds body with
  | base hcall => exact invokes_callsInto hcall hholds.local_eq hfuel hrounds
  | @test subtype callee rest thenBlock elseBlock ids thenIds elseIds
      htest hthen hcall helse _ ih =>
    refine invokes_testsFor htest hholds hinstance hfuel hrounds fun {middle less} haside hless ↦ ?_
    have hheld := hholds.aside hinstance haside
    by_cases heq : type = subtype
    · subst heq
      rw [if_pos rfl]
      have hreached : Program.reached base ((type, callee) :: rest) type = callee := by
        simp [Program.reached]
      rw [hreached]
      exact invokes_block hless hthen fun less hless ↦
        invokes_callsCast hcall (hheld.aside hinstance (.tick _ frame middle)) hinstance hless hless
    · rw [if_neg heq]
      have hreached : Program.reached base ((subtype, callee) :: rest) type =
          Program.reached base rest type := by
        simp [Program.reached, Ne.symm heq]
      rw [hreached]
      exact invokes_block hless helse fun less hless ↦
        ih (hheld.aside hinstance (.tick _ frame middle)) hless hless

end Eval

end IteratorLowering
