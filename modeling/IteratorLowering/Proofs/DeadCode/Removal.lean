import IteratorLowering.Proofs.DeadCode.Sound

/-!
# Dead code

`removesDeadCode` says that both passes do what they are for. `removeDeadVariables` goes through as
many rounds as it takes, and when it succeeds every local variable is read; when
`removeDeadExpressions` succeeds, no statement is left that does nothing. Runs that gave a result
give a like one afterwards.

A jump may name any symbol, and a jump to a variable leads to its declaration. Such a jump is no
read, so the declaration may go and the jump then leads nowhere (`not_runsKept_jumpToVariable`).
Runs are kept where jumps lead to labels.
-/

set_option autoImplicit false
set_option relaxedAutoImplicit false

namespace IteratorLowering

namespace Program

/-- Every run that gives a result gives a like one in the second program, with like traces and the
same numbers of calls, under the same limits. -/
def RunsKept (program final : Program) : Prop :=
  ∀ {function}, program.HasFunction function → ∀ {args : List Value},
    (∀ arg ∈ args, arg.isScalar = true) → ∀ {limits value last},
      Machine.new.run program limits function args = .ok value last →
        Outcome.SameUpToObjects (.ok value last) (Machine.new.run final limits function args)

/-- No jump in the function leads to a variable that it declares. -/
def JumpsToLabels (program : Program) (function : FnId) : Prop :=
  ∀ id ∈ program.functionStmts function, ∀ label ∈ (program.kind id).gotoTarget?,
    program.DeclaresIn function label → (program.symbol label).kind ≠ .var

instance (program : Program) (function : FnId) : Decidable (program.JumpsToLabels function) :=
  inferInstanceAs (Decidable (∀ id ∈ _, ∀ label ∈ _, _))

variable {program final : Program} {function : FnId}

/-- What the passes remove is idle where jumps lead to labels. -/
theorem DeadIn.idle {dead : SymId → Prop} {gone : List StmtId} (hlinked : program.WellLinked)
    (hfunction : program.HasFunction function) (halone : program.DeclaresAlone function)
    (hjumps : program.JumpsToLabels function) (hthins : program.Thins dead gone final)
    (hfinal : final.WellLinked) (hdead : program.DeadIn dead function final) :
    Idle dead program final := by
  -- What stands in another function mentions no dead variable.
  have hother {id : StmtId} (hid : final.Stands id) {symbol : SymId} (hsymbol : dead symbol)
      (hmentions : symbol ∈ (program.kind id).symbols) : id ∈ final.functionStmts function := by
    obtain ⟨other, hother, hstands⟩ := hid
    have hother' := (hthins.hasFunction other).mp hother
    have hmem := (hlinked.mem_functionStmts_iff hother').mpr
      (hthins.standsIn hlinked hfinal hstands)
    obtain rfl := halone (hdead.declared hsymbol) hother' (.inr (.inr ⟨id, hmem, hmentions⟩))
    exact (hfinal.mem_functionStmts_iff hother).mpr hstands
  refine ⟨fun {id} hid symbol hreads hsymbol ↦ ?_, fun {id} hid label hlabel hsymbol ↦ ?_,
    fun {other} hknown symbol hret hsymbol ↦ ?_⟩
  · have hreads' := hreads
    rw [(hthins.kind id).reads] at hreads'
    exact hdead.unread hsymbol id (hother hid hsymbol (List.mem_append_right _ hreads')) hreads
  · rw [(hthins.kind id).gotoTarget?] at hlabel
    have hmem := hother hid hsymbol (StmtKind.mem_symbols_of_gotoTarget? hlabel)
    exact hjumps id (hthins.functionStmts_subset hlinked hfinal hfunction hmem) label hlabel
      (hdead.declared hsymbol) (hdead.isVar hsymbol)
  · obtain rfl := halone (hdead.declared hsymbol) hknown (.inr (.inl hret))
    exact hdead.not_retSym hsymbol hret

end Program

variable {program : Program} {function : FnId}

theorem removesDeadCode (hlinked : program.WellLinked) (hcalls : program.CallsKnown)
    (hfunction : program.HasFunction function) (halone : program.DeclaresAlone function) :
    (∀ rounds, (program.functionStmts function).length < rounds →
      removeDeadRounds function rounds 0 program = removeDeadVariables function program) ∧
    (∀ count final, removeDeadVariables function program = .ok count final →
      (∀ symbol, final.DeclaresIn function symbol → (final.symbol symbol).kind = .var →
        symbol ∉ (final.function function).retSym →
          ∃ id ∈ final.functionStmts function, symbol ∈ (final.kind id).reads) ∧
      (program.JumpsToLabels function → program.RunsKept final)) ∧
    ∀ count final, removeDeadExpressions function program = .ok count final →
      (∀ id ∈ final.functionStmts function, final.isIdle id = false) ∧ program.RunsKept final := by
  refine ⟨fun rounds hrounds ↦ ?_, fun count final hrun ↦ ?_, fun count final hrun ↦ ?_⟩
  · exact removeDeadRounds_eq hlinked hfunction hrounds (Nat.lt_succ_self _)
  · have hrounds : Ensures (removeDeadVariables function) program (fun _ ↦ True) fun _ final ↦
        ∃ dead gone, program.Thins dead gone final ∧ final.WellLinked ∧
          program.DeadIn dead function final ∧ final.unreadLocals function = [] := by
      unfold removeDeadVariables
      rw [ensures_get_bind]
      exact ensures_removeDeadRounds hlinked hfunction (Nat.lt_succ_self _)
    obtain ⟨-, dead, gone, hthins, hfinal, hdead, hnone⟩ := hrounds.of_eq_ok hrun
    refine ⟨fun symbol hdeclares hvar hret ↦ ?_, fun hjumps ↦ ?_⟩
    · by_contra hunread
      have hmem := Program.mem_unreadLocals.mpr
        ⟨hdeclares, hvar, hret, fun id hid hread ↦ hunread ⟨id, hid, hread⟩⟩
      rw [hnone] at hmem
      cases hmem
    · intro other hother args hargs limits value last hresult
      exact hthins.run hlinked hfinal hcalls
        (hdead.idle hlinked hfunction halone hjumps hthins hfinal) hother hargs hresult
  · obtain ⟨-, gone, hthins, hfinal, hidle⟩ :=
      (ensures_removeDeadExpressions hlinked hfunction).of_eq_ok hrun
    refine ⟨hidle, fun {other} hother {args} hargs {limits value last} hresult ↦ ?_⟩
    exact hthins.run hlinked hfinal hcalls
      ⟨fun _ _ _ ↦ id, fun _ _ _ ↦ id, fun _ _ _ ↦ id⟩ hother hargs hresult

/-- Two variables, the second of which is only read to set the first, which is not read at all. -/
def deadChain : Program where
  types := builtinTypes
  symbols := #[{ name := "x", kind := .var, type := .int, owner := some ⟨0⟩ },
    { name := "y", kind := .var, type := .int, owner := some ⟨0⟩ }]
  statements := #[
    { kind := .plain [⟨1⟩, ⟨2⟩, ⟨3⟩, ⟨4⟩, ⟨5⟩], bodyOf := some ⟨0⟩, span := .none },
    { kind := .action (.define ⟨0⟩), parent := some ⟨0⟩, span := .none },
    { kind := .action (.define ⟨1⟩), parent := some ⟨0⟩, span := .none },
    { kind := .action (.assign ⟨1⟩ (.use (.int 2))), parent := some ⟨0⟩, span := .none },
    { kind := .action (.assign ⟨0⟩ (.use (.sym ⟨1⟩))), parent := some ⟨0⟩, span := .none },
    { kind := .action (.ret (.int 7)), parent := some ⟨0⟩, span := .none }]
  functions := #[{ name := "main", retType := .int, body := ⟨0⟩ }]

theorem removesDeadCode_chain :
    deadChain.WellLinked ∧ deadChain.CallsKnown ∧ deadChain.HasFunction ⟨0⟩ ∧
      deadChain.DeclaresAlone ⟨0⟩ ∧ deadChain.JumpsToLabels ⟨0⟩ ∧
      ∃ final, removeDeadVariables ⟨0⟩ deadChain = .ok 2 final ∧
        final.functionStmts ⟨0⟩ = [⟨0⟩, ⟨5⟩] ∧ deadChain.RunsKept final := by
  have hlinked : deadChain.WellLinked := by decide
  have hcalls : deadChain.CallsKnown :=
    Program.callsKnown_of_forall (by decide) (by decide) (by decide)
  have hfunction : deadChain.HasFunction ⟨0⟩ := Nat.zero_lt_one
  have halone : deadChain.DeclaresAlone ⟨0⟩ := Program.declaresAlone_of_size_eq_one rfl hfunction
  have hjumps : deadChain.JumpsToLabels ⟨0⟩ := by decide +kernel
  refine ⟨hlinked, hcalls, hfunction, halone, hjumps, _, rfl, rfl, ?_⟩
  exact ((removesDeadCode hlinked hcalls hfunction halone).2.1 2 _ rfl).2 hjumps

/-- A function that jumps over a failure to the declaration of a variable. -/
def jumpToVariable : Program where
  types := builtinTypes
  symbols := #[{ name := "x", kind := .var, type := .int, owner := some ⟨0⟩ }]
  statements := #[
    { kind := .plain [⟨1⟩, ⟨2⟩, ⟨3⟩], bodyOf := some ⟨0⟩, span := .none },
    { kind := .action (.goto ⟨0⟩), parent := some ⟨0⟩, span := .none },
    { kind := .action (.fail "skipped"), parent := some ⟨0⟩, span := .none },
    { kind := .action (.define ⟨0⟩), parent := some ⟨0⟩, span := .none }]
  functions := #[{ name := "main", retType := .void, body := ⟨0⟩ }]

theorem not_runsKept_jumpToVariable :
    jumpToVariable.WellLinked ∧ jumpToVariable.CallsKnown ∧ jumpToVariable.HasFunction ⟨0⟩ ∧
      jumpToVariable.DeclaresAlone ⟨0⟩ ∧
      ∃ final, removeDeadVariables ⟨0⟩ jumpToVariable = .ok 1 final ∧
        ¬ jumpToVariable.RunsKept final := by
  have hfunction : jumpToVariable.HasFunction ⟨0⟩ := Nat.zero_lt_one
  refine ⟨by decide, Program.callsKnown_of_forall (by decide) (by decide) (by decide), hfunction,
    Program.declaresAlone_of_size_eq_one rfl hfunction, _, rfl, fun hkept ↦ ?_⟩
  obtain ⟨objects, -, hlike⟩ := @hkept ⟨0⟩ hfunction [] nofun { maxSteps := 9 } .void _ rfl
  cases hlike

end IteratorLowering
