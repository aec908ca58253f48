import IteratorLowering.Proofs.ControlFlow.Aligning
import IteratorLowering.Proofs.ControlFlow.Dissolving
import IteratorLowering.Proofs.Evaluation.Limits
import IteratorLowering.Proofs.Simulation.Runs

/-!
# Programs with straightened control flow

Where every statement list of a program is aligned with what became of it, and statements are
otherwise the same (`Program.Straightens`), a run that gives a result gives the same result in the
second program: the same value, the same traces and the same numbers of calls, within the same
limits (`Program.Straightens.resultsKept`).

Results are compared as they are, since the runs make the same objects in the same order.
-/

set_option autoImplicit false
set_option relaxedAutoImplicit false

namespace IteratorLowering

namespace Program

/-- Every run that gives a result gives the same result in the second program, having traced the
same values and made the same calls within the same limits. -/
def ResultsKept (program final : Program) : Prop :=
  ∀ function, program.HasFunction function → ∀ args : List Value,
    (∀ arg ∈ args, arg.isScalar = true) → ∀ limits value last,
      Machine.new.run program limits function args = .ok value last →
        ∃ last', Machine.new.run final limits function args = .ok value last' ∧
          last'.output = last.output ∧
            ∀ callee, last'.callCount callee = last.callCount callee

/-- The second program is the first one with other statement lists that are aligned with those of
the first. -/
structure Straightens (program final : Program) : Prop where
  tables : final = { program with statements := final.statements }
  linked : program.WellLinked
  linked' : final.WellLinked
  calls : program.CallsKnown
  stands : ∀ {id}, final.Stands id → program.Stands id
  withoutBody : ∀ {id}, final.Stands id →
    (final.kind id).withoutBody = (program.kind id).withoutBody
  lists : ∀ {id}, final.Stands id →
    program.Realigned final id (program.blockBody id) (final.blockBody id)

namespace ResultsKept

variable {program middle final : Program}

theorem refl (program : Program) : program.ResultsKept program :=
  fun _ _ _ _ _ _ last hrun ↦ ⟨last, hrun, rfl, fun _ ↦ rfl⟩

theorem trans (h : program.ResultsKept middle) (h' : middle.ResultsKept final)
    (hfunction : ∀ id, program.HasFunction id → middle.HasFunction id) :
    program.ResultsKept final := by
  intro function hknown args hargs limits value last hrun
  obtain ⟨last', hrun', houtput, hcalls⟩ := h function hknown args hargs limits value last hrun
  obtain ⟨last'', hrun'', houtput', hcalls'⟩ :=
    h' function (hfunction function hknown) args hargs limits value last' hrun'
  exact ⟨last'', hrun'', houtput'.trans houtput, fun callee ↦
    (hcalls' callee).trans (hcalls callee)⟩

end ResultsKept

namespace Straightens

variable {program final : Program}

theorem bare (h : program.Straightens final) : final.bare = program.bare := by
  rw [h.tables]
  rfl

theorem sound (h : program.Straightens final) : (Correspondence.aligning program final).Sound := by
  refine Correspondence.sound_rewriting rfl ⟨fun {id} _ value hvalue ↦ ?_, h.calls.slot,
    h.calls.iterator⟩ (fun _ ↦ trivial) (fun _ _ _ ↦ trivial) (fun {function} hfunction ↦ ?_)
    (fun {id} _ ↦ ?_) nofun
  · rw [kind_bare] at hvalue
    cases hvalue
  · have hknown : final.HasFunction function := by
      rw [h.tables]
      exact hfunction
    have hbody : final.bodyOf function = program.bare.bodyOf function := by
      rw [h.tables]
      rfl
    exact hbody ▸ h.linked'.stands_body hknown
  · rw [kind_bare]
    exact Correspondence.Allows.kinds_self ⟨nofun, fun _ _ ↦ trivial, nofun, nofun⟩ nofun

end Straightens

end Program

namespace Eval

open Correspondence

variable {program final : Program} {limits : Limits} {run : Executor} {rounds frame : Nat}

/-! ### What does not look at statements -/

/-- An action that does not yield runs statements in calls only. -/
theorem action_bare (program : Program) {inner : Action} (hyield : ∀ value, inner ≠ .yield value) :
    action program.bare limits run rounds frame inner =
      action program limits run rounds frame inner := by
  cases inner with
  | yield value => exact absurd rfl (hyield value)
  | assign target value => cases value <;> rfl
  | evaluate value => cases value <;> rfl
  | define | store | setField | ret | goto | fail | noop => rfl

/-- No stretches of the lists stand for each other. -/
theorem stretching_aligning {pace : Pace} {run' : pace.Index → Executor} :
    Stretching (aligning program final) pace run run' :=
  ⟨fun h ↦ False.elim h, fun h ↦ False.elim h, fun h ↦ False.elim h, fun h ↦ False.elim h,
    fun h ↦ False.elim h⟩

/-! ### Statements -/

variable {early : List Early} {floor fuel : Nat} {objects : ObjId → ObjId → Prop}
variable {machine machine' : Machine} {reach : ℕ → Nat} {id : StmtId}

theorem truth_eq_bare (h : program.Straightens final) (condition : Operand) :
    truth final frame condition = truth program.bare frame
      (condition.mapSymbols (aligning program final).rename) := by
  rw [← h.bare, show condition.mapSymbols (aligning program final).rename = condition from
    Operand.mapSymbols_id condition]
  rfl

theorem ready_of_floor_le
    (hlike : machine.Like (aligning program final) (.shorter limits) early floor objects machine')
    (hframe : floor ≤ frame) (symbols : List SymId) :
    Ready (aligning program final) early frame symbols :=
  ⟨fun _ _ ↦ trivial, fun symbol _ ↦ open_of_floor_le hlike hframe symbol⟩

section

variable (h : program.Straightens final)
variable (hrun : ∀ {less}, less ≤ fuel → Executing (aligning program final) (.shorter limits)
  (arriving program (execute program limits less)) fun i ↦ execute final limits (reach i))
variable (hreach : (Pace.shorter limits).lasts fuel reach)
variable (hlike :
  machine.Like (aligning program final) (.shorter limits) early floor objects machine')
variable (hframe : floor ≤ frame) (hthere : frame < machine.frames.size)

include h hrun hreach hlike hframe hthere

/-- A list in which jumps that do not arrive fail follows what became of it. -/
theorem follows_list (hid : final.Stands id) :
    Follows (aligning program final) (.shorter limits) early floor objects machine machine'
      (LikeFlow (aligning program final))
      (runList program (execute program limits fuel frame) (program.blockBody id) fuel
        (program.blockBody id) >>= arrive program id)
      fun i ↦ runList final (execute final limits (reach i) frame) (final.blockBody id) (reach i)
        (final.blockBody id) :=
  follows_aligned h.linked hrun hreach (h.lists hid) (h.lists hid).aligned hlike hframe hthere
    hreach

theorem follows_yield {value value' : Value}
    (hvalue : LikeValue (aligning program final) objects value value') :
    Follows (aligning program final) (.shorter limits) early floor objects machine machine'
      (LikeFlow (aligning program final))
      (yieldValue program (execute program limits fuel) fuel frame value)
      fun i ↦ yieldValue final (execute final limits (reach i)) (reach i) frame value' := by
  unfold yieldValue
  apply Follows.get_bind
  obtain ⟨held', hheld', -, hyield⟩ := hlike.frame (Array.getElem?_eq_getElem hthere)
  rw [Array.getElem?_eq_getElem hthere, hheld']
  simp only [Option.bind_some]
  revert hyield
  generalize machine.frames[frame].yieldTo = target, held'.yieldTo = target'
  intro hyield
  cases hyield with
  | none => exact .throw hlike (.other nofun)
  | @some target target' htarget =>
    obtain ⟨heq, hloop⟩ := htarget.loop
    simp only [htarget.frame, htarget.index, heq]
    have habove := htarget.above hframe
    have hbelow : target.frame < machine.frames.size := htarget.below.trans hthere
    apply Follows.bind
      (follows_setLocal h.sound hlike (open_of_floor_le hlike habove target.index) hvalue)
    intro objects₁ middle middle' _ _ hreaches _
    refine .of_refines (shorter_never limits)
      (refines_arrive_bind fun _ (_ : ¬ program.Sees target.loop _) _ _ _ ↦ nofun) ?_
    apply Follows.bind (follows_list h hrun hreach hreaches.like habove
      (hreaches.frames.size ▸ hbelow) hloop)
    intro objects₂ ended ended' flow flow' hreaches hflow
    cases hflow with
    | normal => exact .pure hreaches.like .normal
    | ret => exact .unsupported hreaches.like
    | goto => exact .unsupported hreaches.like

theorem follows_leaf {inner : Action} (hid : final.Stands id)
    (hkind : program.kind id = .action inner) :
    Follows (aligning program final) (.shorter limits) early floor objects machine machine'
      (LikeFlow (aligning program final))
      (action program limits (execute program limits fuel) fuel frame inner >>= arrive program id)
      fun i ↦ action final limits (execute final limits (reach i)) (reach i) frame inner := by
  by_cases hyield : ∃ value, inner = .yield value
  · obtain ⟨value, rfl⟩ := hyield
    refine .of_refines (shorter_never limits) refines_arrive ?_
    have hoperand : Eval.operand final frame value = Eval.operand program.bare frame
        (value.mapSymbols (aligning program final).rename) := by
      rw [← h.bare, show value.mapSymbols (aligning program final).rename = value from
        Operand.mapSymbols_id value]
      rfl
    simp only [action, hoperand]
    apply Follows.bind
      (follows_operand h.sound hlike (ready_of_floor_le hlike hframe value.symbols))
    intro objects' middle middle' found found' hreaches hfound
    exact follows_yield h hrun hreach hreaches.like hframe (hreaches.frames.size ▸ hthere) hfound
  replace hyield : ∀ value, inner ≠ .yield value := fun value heq ↦ hyield ⟨value, heq⟩
  by_cases hlost : ∃ label, inner = .goto label ∧ ¬ program.Sees id label
  · obtain ⟨label, rfl, hsees⟩ := hlost
    rw [action, pure_bind, arrive, if_neg hsees]
    exact .of_error (shorter_never limits) rfl
  have hinner : (aligning program final).Actions inner inner := by
    have hallows : (aligning program final).Allows (.action inner) := by
      refine ⟨fun _ _ ↦ trivial, fun _ _ ↦ trivial, fun label hlabel ↦ ?_, fun value hvalue ↦ ?_⟩
      · cases inner with
        | goto other =>
          cases hlabel
          refine ⟨id, hid, hkind, ?_⟩
          by_contra hsees
          exact hlost ⟨_, rfl, hsees⟩
        | _ => cases hlabel
      · refine ⟨fun _ _ ↦ trivial, fun _ _ ↦ trivial, fun function hfunction ↦ ?_⟩
        refine h.calls.callee (h.stands hid) value ?_ function hfunction
        rwa [hkind]
    cases Allows.kinds_self hallows (List.forall_mem_nil _) with
    | action hinner => exact hinner
  have hfollows := follows_action h.sound (Pace.shorter_fair limits) (hrun le_rfl)
    stretching_aligning hlike hthere hreach hinner
    (fun symbol _ ↦ open_of_floor_le hlike hframe symbol) fun _ _ ↦ hframe
  refine .of_refines (shorter_never limits) refines_arrive
    (.of_refines (shorter_never limits) (refines_action hyield) ?_)
  simp only [← action_bare program hyield, ← action_bare final hyield, h.bare]
  exact hfollows

omit hreach in
/-- A statement inside another one, whose jumps are looked at when they leave the other one. -/
theorem follows_child {child : StmtId} (hid : final.Stands id)
    (hchild : child ∈ (program.kind id).children) (hchild' : child ∈ (final.kind id).children) :
    Follows (aligning program final) (.shorter limits) early floor objects machine machine'
      (LikeFlow (aligning program final))
      (execute program limits fuel frame child >>= arrive program id)
      fun i ↦ execute final limits (reach i) frame child :=
  .of_refines (shorter_never limits) (refines_arrive_arrive (h.linked.parent_of_child hchild) _)
    (.of_refines (shorter_never limits) refines_arrive
      (hrun le_rfl hlike ⟨rfl, h.linked'.stands_child hid hchild'⟩ hframe hthere))

/-- A while loop whose rounds follow one another. -/
theorem follows_while {condition : Operand} {body body' : List StmtId} (hid : final.Stands id)
    (hkind : program.kind id = .block (some (.whileLoop condition)) body)
    (hkind' : final.kind id = .block (some (.whileLoop condition)) body') :
    Follows (aligning program final) (.shorter limits) early floor objects machine machine'
      (LikeFlow (aligning program final))
      (runWhile (truth program frame condition)
        (runList program (execute program limits fuel frame) body fuel body) fuel >>=
          arrive program id)
      fun i ↦ runWhile (truth final frame condition)
        (runList final (execute final limits (reach i) frame) body' (reach i) body') (reach i) := by
  have hbody : program.blockBody id = body := by rw [Program.blockBody, hkind]
  have hbody' : final.blockBody id = body' := by rw [Program.blockBody, hkind']
  subst hbody hbody'
  rw [truth_eq_bare h]
  exact .of_refines (shorter_never limits) refines_arrive_runWhile
    (follows_runWhile h.sound (Pace.shorter_fair limits)
      (ready_of_floor_le hlike hframe condition.symbols)
      (fun hlike hthere ↦ follows_list h hrun hreach hlike hframe hthere hid) hlike hthere hreach)

omit hreach in
theorem follows_for {header : List Operand} (hid : final.Stands id) :
    Follows (aligning program final) (.shorter limits) early floor objects machine machine'
      (LikeFlow (aligning program final))
      (naiveFor program limits (execute program limits fuel) frame id (.forLoop header) >>=
        arrive program id)
      fun i ↦
        naiveFor final limits (execute final limits (reach i)) frame id (.forLoop header) := by
  have hfor := follows_naiveFor h.sound (Pace.shorter_fair limits) (hrun le_rfl) hlike hframe hthere
    ⟨rfl, hid⟩ (fun symbol (_ : symbol ∈ operandSymbols header) ↦ trivial)
  rw [show (BlockInfo.forLoop header).mapSymbols (aligning program final).rename =
    .forLoop header from congrArg BlockInfo.forLoop (map_mapSymbols_id header)] at hfor
  refine .of_refines (shorter_never limits) refines_arrive
    (.of_refines (shorter_never limits) refines_naiveFor (.congr (.of_forall fun i ↦ ?_) hfor))
  rw [show (aligning program final).target = final.bare from h.bare.symm]
  rfl

theorem follows_straightened (hid : final.Stands id) :
    Follows (aligning program final) (.shorter limits) early floor objects machine machine'
      (LikeFlow (aligning program final))
      (statement program limits (execute program limits fuel) fuel frame id >>= arrive program id)
      fun i ↦ statement final limits (execute final limits (reach i)) (reach i) frame id := by
  have hkinds := h.withoutBody hid
  cases hkind : program.kind id with
  | action inner =>
    rw [hkind] at hkinds
    simp only [statement, hkind, StmtKind.eq_action_of_withoutBody hkinds]
    exact follows_leaf h hrun hreach hlike hframe hthere hid hkind
  | branch condition thenBlock elseBlock =>
    rw [hkind] at hkinds
    have hkind' := StmtKind.eq_branch_of_withoutBody hkinds
    simp only [statement, hkind, hkind', bind_assoc, truth_eq_bare h]
    apply Follows.bind
      (follows_truth h.sound hlike (ready_of_floor_le hlike hframe condition.symbols))
    rintro objects' tested tested' _ holds hreaches rfl
    have hthere' : frame < tested.frames.size := hreaches.frames.size ▸ hthere
    have hchild {child : StmtId} (hmem : child ∈ (program.kind id).children) :=
      follows_child h hrun hreaches.like hframe hthere' hid hmem
        (by rwa [hkind'.trans hkind.symm])
    rw [hkind] at hchild
    cases holds with
    | true => exact hchild List.mem_cons_self
    | false =>
      cases elseBlock with
      | some elseBlock => exact hchild (List.mem_cons_of_mem _ (List.mem_singleton_self elseBlock))
      | none =>
        exact .of_refines (shorter_never limits) refines_arrive (.pure hreaches.like .normal)
  | block info body =>
    rw [hkind] at hkinds
    obtain ⟨body', hkind'⟩ := StmtKind.eq_block_of_withoutBody hkinds
    by_cases hinfo : isPlainInfo info = true
    · have hlist := follows_list h hrun hreach hlike hframe hthere hid
      unfold Program.blockBody at hlist
      simp only [hkind, hkind'] at hlist
      simp only [statement_of_plain hkind hinfo, statement_of_plain hkind' hinfo]
      exact hlist
    · rcases info with _ | (header | condition | _ | _ | _)
      · exact absurd rfl hinfo
      · simp only [statement, hkind, hkind']
        exact follows_for h hrun hlike hframe hthere hid
      · simp only [statement, hkind, hkind']
        exact follows_while h hrun hreach hlike hframe hthere hid hkind hkind'
      all_goals exact absurd rfl hinfo

end

/-- Statements follow what became of them, however much fuel there is. -/
theorem executing_straightened (h : program.Straightens final) {lasting : ℕ → Nat}
    (hlasts : (Pace.shorter limits).lasts fuel lasting) :
    Executing (aligning program final) (.shorter limits)
      (arriving program (execute program limits fuel))
      fun i ↦ execute final limits (lasting i) := by
  induction fuel using Nat.strongRecOn generalizing lasting with
  | ind fuel ih =>
    rintro early floor objects machine machine' frame id id' hlike ⟨heq, hid⟩ hframe hthere
    obtain rfl : id' = id := heq
    cases fuel with
    | zero => exact .of_error (shorter_never limits) (bind_of_error rfl)
    | succ fuel =>
      obtain ⟨lasting', hlasts', hsucc⟩ := Pace.shorter_lasts limits fuel hlasts
      have hfuel : ∀ᶠ i in Filter.atTop, execute final limits (lasting i) frame id' machine' =
          execute final limits (lasting' i + 1) frame id' machine' :=
        hsucc.mono fun i hi ↦ by rw [hi]
      refine .congr hfuel ?_
      rw [arriving, show execute program limits (fuel + 1) frame id' = tick limits >>= fun _ ↦
        statement program limits (execute program limits fuel) fuel frame id' from rfl, bind_assoc]
      apply Follows.bind (follows_tick (Pace.shorter_fair limits) hlike)
      intro objects' ticked ticked' _ _ hreaches _
      exact follows_straightened h (fun hless ↦ ih _ (Nat.lt_succ_of_le hless) hlasts') hlasts'
        hreaches.like hframe (hreaches.frames.size ▸ hthere) hid

end Eval

/-! ### Runs -/

/-- Where objects and symbols stand for themselves, like values are the same. -/
theorem Value.Like.eq {value value' : Value} (h : Value.Like Eq Eq value value') :
    value = value' := by
  cases h with
  | obj h => rw [h]
  | ref h =>
    cases h with
    | slot h => rw [h]
    | field h => rw [h]
  | _ => rfl

theorem Program.Straightens.resultsKept {program final : Program} (h : program.Straightens final) :
    program.ResultsKept final := by
  intro function hfunction args hargs limits value last hrun
  have hlike : Eval.LikeValues (.aligning program final) (fun _ _ ↦ False) args args :=
    List.forall₂_same.mpr fun arg harg ↦ .of_isScalar (hargs arg harg)
  have hexecuting : Eval.Executing (.aligning program final) (.shorter limits)
      (Eval.arriving program (Eval.execute program limits (Machine.new.fuel limits)))
      (fun i : ℕ ↦ Eval.execute final limits i) :=
    Eval.executing_straightened h fun least ↦ Filter.eventually_ge_atTop least
  have hsource : Eval.call program limits (Eval.arriving program (Eval.execute program limits
      (Machine.new.fuel limits))) function args Machine.new = .ok value last :=
    Eval.refines_call _ _ _ hrun
  cases Eval.follows_call h.sound (Pace.shorter_fair limits) hexecuting
    (Machine.like_new _ rfl (Nat.le_refl 0)) hfunction hlike with
  | failed hfirst => exact absurd (hfirst.symm.trans hsource) nofun
  | @done found value' ended last' objects hfirst hsecond hreaches hkind =>
    obtain ⟨rfl, rfl⟩ := EStateM.Result.ok.inj (hfirst.symm.trans hsource)
    have hobjects : objects ≤ Eq := fun _ _ hid ↦ (ObjId.ext (hreaches.like.number hid)).symm
    have hnames : (Correspondence.aligning program final).names ≤ Eq := fun _ _ hname ↦ hname.2.symm
    obtain rfl := (hkind.mono hobjects hnames).eq
    have hshows := hreaches.like.shows.mono hobjects hnames
    have hfinal : ∀ᶠ fuel in Filter.atTop, Eval.call final.bare limits
        (Eval.execute final limits fuel) function args Machine.new = .ok found last' := by
      rw [h.bare]
      exact hsecond
    obtain ⟨fuel, hfuel, henough⟩ :=
      (hfinal.and (Filter.eventually_gt_atTop limits.maxSteps)).exists
    have hcovers : limits.Covers fuel Machine.new.steps := ⟨by omega, by omega⟩
    refine ⟨last', (Machine.run_eq_call_execute hcovers).trans hfuel, ?_, hshows.calls⟩
    have houtput := hshows.output.imp fun _ _ hvalue ↦ hvalue.eq
    rw [List.forall₂_eq_eq_eq] at houtput
    exact (Array.toList_inj.mp houtput).symm

end IteratorLowering
