import IteratorLowering.Proofs.Evaluation.Limits
import IteratorLowering.Proofs.Fragments.Breaking

/-!
# Breaking up confined regions keeps what runs do

A run that ends by itself ends alike after `fragmentConfined`, given enough steps
(`runsMatched_fragmentConfined`). Asked for is that no list mentions a variable before it declares
it later in the same run, that no address is taken of a variable that a region declares, and that
no jump names such a variable.

The last is no idle condition. A jump may name any symbol, and one to a variable leads to its
declaration. When the declaration moves ahead of its run, the jump does not skip the run any more
(`not_runsMatched_jumpToHoisted`).
-/

set_option autoImplicit false
set_option relaxedAutoImplicit false

namespace IteratorLowering

namespace Program

/-- No statement of a run mentions a variable that a later one declares. -/
def DeclaresBeforeUse (program : Program) : List StmtId → Prop
  | [] => True
  | id :: rest =>
    (program.isBoundary id = false → ∀ later ∈ rest.takeWhile (!program.isBoundary ·),
      ∀ symbol ∈ (program.kind later).defined?, symbol ∉ (program.kind id).symbols) ∧
    program.DeclaresBeforeUse rest

/-- Whether a variable is declared in a confined block that is broken up. -/
def Hoisted (program : Program) (symbol : SymId) : Prop :=
  (program.symbol symbol).isLabel = false ∧ ∃ region ∈ program.regions,
    ∃ id ∈ program.walk region, (program.kind id).defined? = some symbol

/-- In every list, every run declares what it uses first. -/
def DeclaresFirst (program : Program) : Prop :=
  ∀ id ∈ program.allStmts, program.DeclaresBeforeUse (program.blockBody id)

/-- No address is taken of a variable that is declared in a region. -/
def HidesHoisted (program : Program) : Prop :=
  ∀ id ∈ program.allStmts, ∀ value ∈ (program.kind id).expression?, ∀ symbol ∈ value.address?,
    ¬ program.Hoisted symbol

/-- No jump names a variable that is declared in a region. -/
def JumpsPastHoisted (program : Program) : Prop :=
  ∀ id ∈ program.allStmts, ∀ label ∈ (program.kind id).gotoTarget?, ¬ program.Hoisted label

/-- Every run that its limits do not cut off ends alike in the second program, with like traces and
the same numbers of calls, if that one may take enough steps. -/
def RunsMatched (program final : Program) : Prop :=
  ∀ {function}, program.HasFunction function → ∀ {args : List Value},
    (∀ arg ∈ args, arg.isScalar = true) → ∀ {limits : Limits},
      (∀ error last, Machine.new.run program limits function args = .error error last →
        error.isOrdinary = true) →
      ∃ steps, ∀ other : Limits, steps ≤ other.maxSteps → limits.maxDepth ≤ other.maxDepth →
        Outcome.SameUpToObjects (Machine.new.run program limits function args)
          (Machine.new.run final other function args)

instance instDecidableDeclaresBeforeUse (program : Program) :
    (ids : List StmtId) → Decidable (program.DeclaresBeforeUse ids)
  | [] => .isTrue trivial
  | _ :: rest =>
    have := instDecidableDeclaresBeforeUse program rest
    inferInstanceAs (Decidable (_ ∧ _))

instance (program : Program) (symbol : SymId) : Decidable (program.Hoisted symbol) :=
  inferInstanceAs (Decidable (_ ∧ ∃ region ∈ _, ∃ id ∈ _, _))

instance (program : Program) : Decidable program.DeclaresFirst :=
  inferInstanceAs (Decidable (∀ id ∈ _, _))

instance (program : Program) : Decidable program.HidesHoisted :=
  inferInstanceAs (Decidable (∀ id ∈ _, ∀ value ∈ _, ∀ symbol ∈ _, _))

instance (program : Program) : Decidable program.JumpsPastHoisted :=
  inferInstanceAs (Decidable (∀ id ∈ _, ∀ label ∈ _, _))

variable {program final : Program} {id : StmtId} {ids ids' run rest : List StmtId}

/-- A run at the front of a list declares what it uses first. -/
theorem DeclaresBeforeUse.of_append (h : program.DeclaresBeforeUse (run ++ rest))
    (hstraight : ∀ id ∈ run, program.isBoundary id = false) :
    (run.Pairwise fun id later ↦
      ∀ symbol ∈ (program.kind later).defined?, symbol ∉ (program.kind id).symbols) ∧
    program.DeclaresBeforeUse rest := by
  induction run with
  | nil => exact ⟨.nil, h⟩
  | cons id run ih =>
    obtain ⟨hid, hrun⟩ := List.forall_mem_cons.mp hstraight
    rw [List.cons_append] at h
    obtain ⟨hfirst, h⟩ := h
    obtain ⟨hpairwise, hrest⟩ := ih h hrun
    refine ⟨List.pairwise_cons.mpr ⟨fun later hlater ↦ hfirst hid later ?_, hpairwise⟩, hrest⟩
    rw [List.takeWhile_append_of_pos fun other hother ↦ by simp [hrun other hother]]
    exact List.mem_append_left _ hlater

/-- A variable that a run declares is no label. -/
theorem isLabel_of_defined? (hstraight : program.isBoundary id = false) {symbol : SymId}
    (hdefined : (program.kind id).defined? = some symbol) :
    (program.symbol symbol).isLabel = false := by
  obtain ⟨inner, hkind, -, -, -, hlabel⟩ := exists_action hstraight
  rw [hkind] at hdefined
  cases inner with
  | define => exact hlabel symbol (congrArg Action.define (Option.some.inj hdefined))
  | _ => cases hdefined

namespace Breaks

variable (h : program.Breaks final)

include h

/-- Lists whose runs were regrouped correspond. -/
theorem members (hregroups : program.Regroups final ids ids')
    (hlinked : program.WellLinked) (hstands : ∀ id ∈ ids, program.Stands id ∧ program.InRegion id)
    (hahead : program.DeclaresBeforeUse ids) :
    (program.regrouping final program.Hoisted).Members ids ids' := by
  induction hregroups with
  | nil => exact .nil
  | keep id more ih =>
    obtain ⟨⟨hid, -⟩, hrest⟩ := List.forall_mem_cons.mp hstands
    exact .cons ⟨rfl, hid⟩ (ih hrest hahead.2)
  | @run run rest rest' fragment hrun hstraight hnew hfragment more ih =>
    obtain ⟨hfirst, hrest⟩ := List.forall_mem_append.mp hstands
    obtain ⟨hpairwise, hlater⟩ := hahead.of_append hstraight
    rw [List.append_cons]
    refine .stretch ?_ (ih hrest hlater)
    exact {
      ne_nil := hrun
      stands := fun id hid ↦ (hfirst id hid).1
      straight := hstraight
      kind := fun id hid ↦
        h.kind_of_not_isBoundary ((hfirst id hid).2.has hlinked) (hstraight id hid)
      hoisted := fun id hid symbol hsymbol ↦
        have ⟨region, hregion, hwalk⟩ := (hfirst id hid).2
        ⟨isLabel_of_defined? (hstraight id hid) hsymbol, region, hregion, id, hwalk, hsymbol⟩
      ahead := hpairwise
      fragment := ⟨fragment, hfragment, rfl⟩ }

/-- The correspondence is sound where the program keeps to what is asked of it. -/
theorem sound (hlinked : program.WellLinked) (hcalls : program.CallsKnown)
    (hfirst : program.DeclaresFirst) (hhides : program.HidesHoisted)
    (hjumps : program.JumpsPastHoisted) :
    (program.regrouping final program.Hoisted).Sound := by
  refine Correspondence.sound_rewriting h.tables hcalls (fun _ ↦ trivial) (fun _ _ _ ↦ trivial)
    (fun hfunction ↦ hlinked.stands_body hfunction) (fun {id} hid ↦ ?_) fun {ids ids'} hstretch ↦ ?_
  · have hlisted := (mem_allStmts_iff hlinked).mpr hid
    have hallows : (program.regrouping final program.Hoisted).Allows (program.kind id) :=
      ⟨fun _ _ ↦ trivial, fun _ _ ↦ trivial, hjumps id hlisted, fun value hvalue ↦
        ⟨fun _ _ ↦ trivial, hhides id hlisted value hvalue, hcalls.callee hid value hvalue⟩⟩
    have hchildren : ∀ child ∈ (program.kind id).children, program.Stands child :=
      fun child hchild ↦ hlinked.stands_child hid hchild
    have hahead := hfirst id hlisted
    have hregion (hinside : program.InRegion id) : ∀ child ∈ (program.kind id).children,
        program.InRegion child := fun child hchild ↦ hinside.child hlinked hchild
    obtain ⟨_, _, hstands⟩ := hid
    have hreshaped := h.kind hstands.has
    change (program.regrouping final program.Hoisted).Kinds _ _
    unfold blockBody at hahead
    generalize program.kind id = kind, final.kind id = kind' at *
    cases hreshaped with
    | same => exact hallows.kinds_self hchildren
    | @block info info' body body' hinside hinfo hbody =>
      have hmembers := h.members hbody hlinked
        (fun child hchild ↦ ⟨hchildren child hchild, hregion hinside child hchild⟩) hahead
      rcases hinfo with rfl | ⟨rfl, rfl⟩
      · exact hallows.block_self hmembers
      · exact .plain rfl rfl hmembers
  · exact ⟨hstretch.ne_nil, hstretch.defined?_ne⟩

end Breaks

theorem runsMatched_of_sound (hsound : (program.regrouping final program.Hoisted).Sound) :
    program.RunsMatched final := by
  intro function hfunction args hargs limits hordinary
  have hsimulates : Eval.Simulates (program.regrouping final program.Hoisted) (.ample limits) :=
    ⟨hsound, Pace.ample_fair limits, fun hlasts hless ↦ Regrouped.stretching hsound hlasts hless⟩
  have hlasts : (Pace.ample limits).lasts (Machine.new.fuel limits)
      fun other ↦ Machine.new.fuel other := fun least ↦
    Limits.eventually_beyond.mpr ⟨least, fun _ hle _ ↦ Nat.le_succ_of_le hle⟩
  obtain ⟨objects, result, hone, -, hresult, hlike, -⟩ :=
    run_like hsimulates trivial trivial hlasts hfunction hargs hordinary
  obtain ⟨steps, hsteps⟩ := Limits.eventually_beyond.mp hresult
  have hnames : (program.regrouping final program.Hoisted).names ≤ Eq :=
    fun _ _ hname ↦ hname.2.symm
  refine ⟨steps, fun other hle hdepth ↦ ⟨objects, hone, ?_⟩⟩
  rw [show Machine.new.run final other function args = result from hsteps other hle hdepth]
  exact hlike.mono le_rfl hnames

/-- A run that gives a result is not matched by one that fails of its own. -/
theorem not_runsMatched {function : FnId} {limits : Limits} {value : Value} {error : EvalError}
    {last last' : Machine} (hfunction : program.HasFunction function)
    (hdone : Machine.new.run program limits function [] = .ok value last)
    (hfails : Machine.new.run final limits function [] = .error error last')
    (hlimit : error.isLimit = false) : ¬ program.RunsMatched final := by
  intro hmatched
  obtain ⟨steps, hsteps⟩ := @hmatched function hfunction [] nofun limits fun error last herror ↦ by
    cases hdone.symm.trans herror
  have hlonger : Machine.new.run final { limits with maxSteps := max limits.maxSteps steps }
      function [] = Machine.new.run final limits function [] :=
    Machine.run_eq_run_of_within ⟨Nat.le_max_left .., Nat.le_refl _⟩ fun error last herror ↦ by
      cases hfails.symm.trans herror
      exact hlimit
  obtain ⟨objects, -, hlike⟩ := hsteps { limits with maxSteps := max limits.maxSteps steps }
    (Nat.le_max_right ..) (Nat.le_refl _)
  rw [hlonger, hdone, hfails] at hlike
  cases hlike

end Program

variable {program final : Program} {count : Nat}

theorem runsMatched_fragmentConfined (hlinked : program.WellLinked) (hcalls : program.CallsKnown)
    (hfirst : program.DeclaresFirst) (hhides : program.HidesHoisted)
    (hjumps : program.JumpsPastHoisted) (hrun : fragmentConfined program = .ok count final) :
    program.RunsMatched final := by
  obtain ⟨-, hbreaks⟩ := (ensures_fragmentConfined hlinked).of_eq_ok hrun
  exact Program.runsMatched_of_sound (hbreaks.sound hlinked hcalls hfirst hhides hjumps)

/-- A confined block that jumps over one of its statements and declares another variable after the
label, before it returns. -/
def jumpInRegion : Program where
  types := builtinTypes
  symbols := #[{ name := "x", kind := .var, type := .int, owner := some ⟨0⟩ },
    { name := "y", kind := .var, type := .int, owner := some ⟨0⟩ },
    { name := "end", kind := .label, type := .void, owner := some ⟨0⟩ }]
  statements := #[
    { kind := .plain [⟨1⟩], bodyOf := some ⟨0⟩, span := .none },
    { kind := .block (some .confined) [⟨2⟩, ⟨3⟩, ⟨4⟩, ⟨5⟩, ⟨6⟩, ⟨7⟩, ⟨8⟩, ⟨9⟩],
      parent := some ⟨0⟩, span := .none },
    { kind := .action (.define ⟨0⟩), parent := some ⟨1⟩, span := .none },
    { kind := .action (.assign ⟨0⟩ (.use (.int 5))), parent := some ⟨1⟩, span := .none },
    { kind := .action (.goto ⟨2⟩), parent := some ⟨1⟩, span := .none },
    { kind := .action (.assign ⟨0⟩ (.use (.int 9))), parent := some ⟨1⟩, span := .none },
    { kind := .action (.define ⟨2⟩), parent := some ⟨1⟩, span := .none },
    { kind := .action .noop, parent := some ⟨1⟩, span := .none },
    { kind := .action (.define ⟨1⟩), parent := some ⟨1⟩, span := .none },
    { kind := .action (.ret (.sym ⟨0⟩)), parent := some ⟨1⟩, span := .none }]
  functions := #[{ name := "main", retType := .int, body := ⟨0⟩ }]

theorem runsMatched_fragmentConfined_jumpInRegion :
    jumpInRegion.WellLinked ∧ jumpInRegion.CallsKnown ∧ jumpInRegion.DeclaresFirst ∧
      jumpInRegion.HidesHoisted ∧ jumpInRegion.JumpsPastHoisted ∧
      jumpInRegion.Hoisted ⟨1⟩ ∧ ∃ final, fragmentConfined jumpInRegion = .ok 1 final ∧
        final.blockBody ⟨1⟩ = [⟨2⟩, ⟨10⟩, ⟨4⟩, ⟨11⟩, ⟨6⟩, ⟨8⟩, ⟨12⟩, ⟨9⟩] ∧
          jumpInRegion.RunsMatched final := by
  have hlinked : jumpInRegion.WellLinked := by decide
  have hcalls : jumpInRegion.CallsKnown :=
    Program.callsKnown_of_forall (by decide) (by decide) (by decide)
  have hfirst : jumpInRegion.DeclaresFirst := by decide +kernel
  have hhides : jumpInRegion.HidesHoisted := by decide +kernel
  have hjumps : jumpInRegion.JumpsPastHoisted := by decide +kernel
  refine ⟨hlinked, hcalls, hfirst, hhides, hjumps, by decide +kernel, _, rfl, rfl, ?_⟩
  exact runsMatched_fragmentConfined hlinked hcalls hfirst hhides hjumps rfl

/-- A confined block that jumps to the declaration of a variable, over a conditional and a
failure. -/
def jumpToHoisted : Program where
  types := builtinTypes
  symbols := #[{ name := "x", kind := .var, type := .int, owner := some ⟨0⟩ }]
  statements := #[
    { kind := .plain [⟨1⟩], bodyOf := some ⟨0⟩, span := .none },
    { kind := .block (some .confined) [⟨2⟩, ⟨3⟩, ⟨5⟩, ⟨6⟩], parent := some ⟨0⟩, span := .none },
    { kind := .action (.goto ⟨0⟩), parent := some ⟨1⟩, span := .none },
    { kind := .branch (.bool true) ⟨4⟩ none, parent := some ⟨1⟩, span := .none },
    { kind := .plain [], parent := some ⟨3⟩, span := .none },
    { kind := .action (.fail "skipped"), parent := some ⟨1⟩, span := .none },
    { kind := .action (.define ⟨0⟩), parent := some ⟨1⟩, span := .none }]
  functions := #[{ name := "main", retType := .void, body := ⟨0⟩ }]

theorem not_runsMatched_jumpToHoisted :
    jumpToHoisted.WellLinked ∧ jumpToHoisted.CallsKnown ∧ jumpToHoisted.DeclaresFirst ∧
      jumpToHoisted.HidesHoisted ∧ ∃ final, fragmentConfined jumpToHoisted = .ok 1 final ∧
        ¬ jumpToHoisted.RunsMatched final := by
  have hfunction : jumpToHoisted.HasFunction ⟨0⟩ := Nat.zero_lt_one
  refine ⟨by decide, Program.callsKnown_of_forall (by decide) (by decide) (by decide),
    by decide +kernel, by decide +kernel, _, rfl, ?_⟩
  exact @Program.not_runsMatched _ _ ⟨0⟩ { maxSteps := 20 } .void (.failed "skipped") _ _ hfunction
    rfl rfl rfl

end IteratorLowering
