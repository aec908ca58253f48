import IteratorLowering.Proofs.Simulation.Storage

/-!
# Statement lists that follow one another

Statements that always hand on control to the next one are `Straight`. A stretch of straight
statements at the front of a list can be run by itself (`runList_append`), so that two lists follow
each other as soon as their members do and their stretches do (`follows_runList`). The number of
rounds left to the second run is whatever the pace allows where the first has so many.
-/

set_option autoImplicit false
set_option relaxedAutoImplicit false

namespace IteratorLowering

/-- The second run has the limits of the first and keeps step with it. -/
structure Pace.Exact (pace : Pace) : Prop where
  limits : ∀ᶠ i in pace.within, pace.limits' i = pace.limits
  steps : ∀ {steps steps'}, pace.steps steps steps' → steps' = steps
  lasts : ∀ {rounds lasting}, pace.lasts rounds lasting → ∀ᶠ i in pace.within, lasting i = rounds

/-- The second run goes at least as far as the first. -/
structure Pace.Fair (pace : Pace) : Prop where
  tick : ∀ {steps steps'}, pace.steps steps steps' → steps + 1 ≤ pace.limits.maxSteps →
    ∀ᶠ i in pace.within, steps' + 1 ≤ (pace.limits' i).maxSteps
  steps : ∀ {steps steps'}, pace.steps steps steps' → pace.steps (steps + 1) (steps' + 1)
  heaps : ∀ {size size'}, pace.heaps size size' → pace.heaps (size + 1) (size' + 1)
  depth : ∀ᶠ i in pace.within, pace.limits.maxDepth ≤ (pace.limits' i).maxDepth
  lasts : ∀ {rounds lasting}, pace.lasts (rounds + 1) lasting →
    ∃ lasting', pace.lasts rounds lasting' ∧ ∀ᶠ i in pace.within, lasting i = lasting' i + 1
  exact : ∀ {error}, pace.fails error → error.isOrdinary = false → pace.Exact

namespace Eval

variable {α β : Type} {c : Correspondence} {pace : Pace} {early : List Early} {floor frame : Nat}
variable {objects : ObjId → ObjId → Prop} {machine machine' : Machine}

/-! ### Straight stretches -/

/-- Run statements one after the other, whatever they hand on. -/
def runAll (execute : StmtId → Eval Flow) : List StmtId → Eval Unit
  | [] => return
  | id :: rest => do
    let _ ← execute id
    runAll execute rest

/-- What a computation that gives a result has run. -/
theorem exists_of_bind_eq_ok {first : Eval α} {next : α → Eval β} {final : Machine} {value : β}
    (h : (first >>= next) machine = .ok value final) :
    ∃ found middle, first machine = .ok found middle ∧ next found middle = .ok value final := by
  cases hfirst : first machine with
  | ok found middle =>
    rw [bind_of_ok hfirst] at h
    exact ⟨found, middle, rfl, h⟩
  | error error middle =>
    rw [bind_of_error hfirst] at h
    cases h

/-- A result of the computation hands on control to the next statement. -/
def Straight (computation : Eval Flow) : Prop :=
  ∀ machine flow final, computation machine = .ok flow final → flow = .normal

section

variable {program : Program} {execute : StmtId → Eval Flow} {body ids rest : List StmtId}
variable {rounds : Nat}

theorem runAll_append (execute : StmtId → Eval Flow) (ids ids' : List StmtId) :
    runAll execute (ids ++ ids') = runAll execute ids >>= fun _ ↦ runAll execute ids' := by
  induction ids with
  | nil => rfl
  | cons id ids ih =>
    simp only [List.cons_append, runAll, ih, bind_assoc]

/-- A straight stretch at the front of a list is run by itself. -/
theorem runList_append (hstraight : ∀ id ∈ ids, Straight (execute id)) :
    runList program execute body (rounds + ids.length) (ids ++ rest) machine =
      (runAll execute ids >>= fun _ ↦ runList program execute body rounds rest) machine := by
  induction ids generalizing machine with
  | nil => rfl
  | cons id ids ih =>
    cases hrun : execute id machine with
    | ok flow middle =>
      obtain rfl := hstraight id List.mem_cons_self _ _ _ hrun
      have hrest := @ih middle fun other hother ↦ hstraight other (List.mem_cons_of_mem _ hother)
      rw [List.cons_append, List.length_cons, ← Nat.add_assoc, runList, bind_of_ok hrun]
      simp only [runAll, bind_assoc]
      rw [bind_of_ok hrun]
      exact hrest
    | error error middle =>
      rw [List.cons_append, List.length_cons, ← Nat.add_assoc, runList, bind_of_error hrun]
      simp only [runAll, bind_assoc]
      rw [bind_of_error hrun]

/-- Too few rounds for a straight stretch end in it, or where it ends. -/
theorem runList_append_of_lt (hstraight : ∀ id ∈ ids, Straight (execute id))
    (hrounds : rounds < ids.length) :
    ∃ error final, runList program execute body rounds (ids ++ rest) machine = .error error final ∧
      (error = .endlessLoop ∨ runAll execute ids machine = .error error final) := by
  induction ids generalizing machine rounds with
  | nil => cases hrounds
  | cons id ids ih =>
    cases rounds with
    | zero => exact ⟨_, _, rfl, .inl rfl⟩
    | succ rounds =>
      cases hrun : execute id machine with
      | ok flow middle =>
        obtain rfl := hstraight id List.mem_cons_self _ _ _ hrun
        obtain ⟨error, final, hlist, herror⟩ := @ih middle rounds
          (fun other hother ↦ hstraight other (List.mem_cons_of_mem _ hother))
          (Nat.lt_of_succ_lt_succ hrounds)
        refine ⟨error, final, ?_, herror.imp_right fun herror ↦ ?_⟩
        · rw [List.cons_append, runList, bind_of_ok hrun]
          exact hlist
        · rw [runAll, bind_of_ok hrun]
          exact herror
      | error error middle =>
        refine ⟨error, middle, ?_, .inr ?_⟩
        · rw [List.cons_append, runList, bind_of_error hrun]
        · rw [runAll, bind_of_error hrun]

end

/-! ### Lists and loops -/

/-- The flows of corresponding statements. -/
inductive LikeFlow (c : Correspondence) (objects : ObjId → ObjId → Prop) : Flow → Flow → Prop
  | normal : LikeFlow c objects .normal .normal
  | ret {value value' : Value} (h : LikeValue c objects value value') :
      LikeFlow c objects (.ret value) (.ret value')
  | goto {label : SymId} (h : c.jumped label) :
      LikeFlow c objects (.goto label) (.goto (c.rename label))

/-- Corresponding statements that are run by the two executors follow one another, in every frame
from the floor on. -/
def Executing (c : Correspondence) (pace : Pace) (run : Executor) (run' : pace.Index → Executor) :
    Prop :=
  ∀ {early floor objects machine machine' frame id id'},
    Machine.Like c pace early floor objects machine machine' → c.pairs id id' → floor ≤ frame →
      frame < machine.frames.size →
        Follows c pace early floor objects machine machine' (LikeFlow c) (run frame id)
          fun i ↦ run' i frame id'

/-- Stretches that do the same are straight and follow one another. -/
structure Stretching (c : Correspondence) (pace : Pace) (run : Executor)
    (run' : pace.Index → Executor) : Prop where
  straight : ∀ {ids ids'}, c.stretch ids ids' → ∀ frame,
    (∀ id ∈ ids, Straight (run frame id)) ∧ ∀ i, ∀ id ∈ ids', Straight (run' i frame id)
  follows : ∀ {ids ids'}, c.stretch ids ids' →
    ∀ {early floor objects machine machine' frame},
      Machine.Like c pace early floor objects machine machine' → floor ≤ frame →
        frame < machine.frames.size →
          Follows c pace early floor objects machine machine' Any (runAll (run frame) ids)
            fun i ↦ runAll (run' i frame) ids'
  lasts : ∀ {ids ids'}, c.stretch ids ids' → ∀ {rounds lasting},
    pace.lasts (rounds + ids.length) lasting → ∃ lasting', pace.lasts rounds lasting' ∧
      ∀ᶠ i in pace.within, lasting i = lasting' i + ids'.length
  room : ∀ {ids ids'}, c.stretch ids ids' → ∀ {error rounds lasting}, pace.fails error →
    pace.lasts rounds lasting → ∀ᶠ i in pace.within, ids'.length ≤ lasting i
  endless : ∀ {ids ids'}, c.stretch ids ids' → ¬ pace.fails .endlessLoop

/-- Where the first computation has no rounds left, neither has the second, if it matters. -/
theorem Follows.endless {kind : (ObjId → ObjId → Prop) → α → β → Prop}
    {second : pace.Index → Eval β} (hfair : pace.Fair)
    (h : machine.Like c pace early floor objects machine') {lasting : pace.Index → Nat}
    (hlasts : pace.lasts 0 lasting)
    (hsecond : ∀ i, lasting i = 0 → second i machine' = .error .endlessLoop machine') :
    Follows c pace early floor objects machine machine' kind (MonadExcept.throw .endlessLoop)
      second := by
  refine .failed rfl fun hfails ↦ ⟨.endlessLoop, machine', objects, ?_, h.oneToOne, h.number,
    .other nofun, h.shows, h.steps⟩
  filter_upwards [(hfair.exact hfails rfl).lasts hlasts] with i hzero
  exact hsecond i hzero

variable {run : Executor} {run' : pace.Index → Executor} {rounds : Nat}
variable {lasting : pace.Index → Nat}

theorem follows_runList (hc : c.Sound) (hfair : pace.Fair) (hrun : Executing c pace run run')
    (hstretching : Stretching c pace run run') {body body' rest rest' : List StmtId}
    (hbody : c.Members body body') (hrest : c.Members rest rest')
    (h : machine.Like c pace early floor objects machine') (hframe : floor ≤ frame)
    (hthere : frame < machine.frames.size) (hlasts : pace.lasts rounds lasting) :
    Follows c pace early floor objects machine machine' (LikeFlow c)
      (runList c.source (run frame) body rounds rest)
      fun i ↦ runList c.target (run' i frame) body' (lasting i) rest' := by
  -- A stretch takes several rounds at once.
  induction rounds using Nat.strongRecOn
    generalizing objects machine machine' lasting rest rest' with
  | ind rounds ih =>
    cases hrest with
    | nil =>
      simp only [runList_nil]
      exact .pure h .normal
    | @cons id id' rest rest' hpair hrest =>
      cases rounds with
      | zero =>
        refine Follows.endless hfair h hlasts fun i hzero ↦ ?_
        rw [hzero]
        rfl
      | succ rounds =>
        obtain ⟨lasting', hlasts', hsucc⟩ := hfair.lasts hlasts
        have hrounds : ∀ᶠ i in pace.within,
            runList c.target (run' i frame) body' (lasting i) (id' :: rest') machine' =
              runList c.target (run' i frame) body' (lasting' i + 1) (id' :: rest') machine' :=
          hsucc.mono fun i hi ↦ by rw [hi]
        refine .congr hrounds ?_
        apply Follows.bind (hrun h hpair hframe hthere)
        intro objects' middle middle' flow flow' hreaches hflow
        have hthere' : frame < middle.frames.size := hreaches.frames.size ▸ hthere
        cases hflow with
        | normal => exact ih rounds (Nat.lt_succ_self _) hrest hreaches.like hthere' hlasts'
        | ret hvalue => exact .pure hreaches.like (.ret hvalue)
        | @goto label hlabel =>
          have hnext := hc.afterLabel? hlabel hbody
          dsimp only
          revert hnext
          generalize c.source.afterLabel? label body = next,
            c.target.afterLabel? (c.rename label) body' = next'
          intro hnext
          cases hnext with
          | some hnext => exact ih rounds (Nat.lt_succ_self _) hnext hreaches.like hthere' hlasts'
          | none => exact .pure hreaches.like (.goto hlabel)
    | @stretch ids ids' rest rest' hstretch hrest =>
      obtain ⟨hstraight, hstraight'⟩ := hstretching.straight hstretch frame
      have hfollows := hstretching.follows hstretch h hframe hthere
      by_cases hshort : rounds < ids.length
      · obtain ⟨error, final, hlist, herror⟩ :=
          @runList_append_of_lt machine c.source _ body ids rest rounds hstraight hshort
        refine .failed hlist fun hfails ↦ ?_
        have hall := herror.resolve_left fun heq ↦ hstretching.endless hstretch (heq ▸ hfails)
        obtain ⟨hfirst⟩ | ⟨hfirst, hsecond⟩ := hfollows
        · rw [hall] at hfirst
          cases hfirst
        · rw [hall] at hfirst
          cases hfirst
          obtain ⟨error', final', objects', hsecond, hlike⟩ := hsecond hfails
          refine ⟨error', final', objects', ?_, hlike⟩
          filter_upwards [hsecond, hstretching.room hstretch hfails hlasts] with i hsecond hroom
          rw [← Nat.sub_add_cancel hroom, runList_append (hstraight' i), bind_of_error hsecond]
      · obtain ⟨less, rfl⟩ : ∃ less, rounds = less + ids.length :=
          ⟨rounds - ids.length, by omega⟩
        have hless : less < less + ids.length :=
          Nat.lt_add_of_pos_right (List.length_pos_of_ne_nil (hc.stretch_ne_nil hstretch))
        obtain ⟨lasting', hlasts', hsplit⟩ := hstretching.lasts hstretch hlasts
        have hrounds : ∀ᶠ i in pace.within,
            runList c.target (run' i frame) body' (lasting i) (ids' ++ rest') machine' =
              (runAll (run' i frame) ids' >>= fun _ ↦
                runList c.target (run' i frame) body' (lasting' i) rest') machine' :=
          hsplit.mono fun i hi ↦ by rw [hi, runList_append (hstraight' i)]
        refine .congr_left (runList_append hstraight) (.congr hrounds ?_)
        apply Follows.bind hfollows
        intro objects' middle middle' _ _ hreaches _
        exact ih less hless hrest hreaches.like (hreaches.frames.size ▸ hthere) hlasts'

/-! ### While loops -/

theorem follows_runWhile (hc : c.Sound) (hfair : pace.Fair) {condition : Operand}
    (hcondition : Ready c early frame condition.symbols) {round : Eval Flow}
    {round' : pace.Index → Eval Flow}
    (hround : ∀ {objects machine machine'},
      Machine.Like c pace early floor objects machine machine' →
      frame < machine.frames.size →
        Follows c pace early floor objects machine machine' (LikeFlow c) round round')
    (h : machine.Like c pace early floor objects machine') (hthere : frame < machine.frames.size)
    (hlasts : pace.lasts rounds lasting) :
    Follows c pace early floor objects machine machine' (LikeFlow c)
      (runWhile (truth c.source frame condition) round rounds)
      fun i ↦ runWhile (truth c.target frame (condition.mapSymbols c.rename)) (round' i)
        (lasting i) := by
  induction rounds generalizing objects machine machine' lasting with
  | zero =>
    refine Follows.endless hfair h hlasts fun i hzero ↦ ?_
    rw [hzero]
    rfl
  | succ rounds ih =>
    obtain ⟨lasting', hlasts', hsucc⟩ := hfair.lasts hlasts
    have hrounds : ∀ᶠ i in pace.within,
        runWhile (truth c.target frame (condition.mapSymbols c.rename)) (round' i) (lasting i)
          machine' =
        runWhile (truth c.target frame (condition.mapSymbols c.rename)) (round' i)
          (lasting' i + 1) machine' :=
      hsucc.mono fun i hi ↦ by rw [hi]
    refine .congr hrounds ?_
    apply Follows.bind (follows_truth hc h hcondition)
    intro objects' middle middle' holds _ hreaches hholds
    obtain rfl := hholds
    have hthere' : frame < middle.frames.size := hreaches.frames.size ▸ hthere
    split
    · apply Follows.bind (hround hreaches.like hthere')
      intro objects'' final final' flow flow' hreaches' hflow
      cases hflow with
      | normal => exact ih hreaches'.like (hreaches'.frames.size ▸ hthere') hlasts'
      | ret hvalue => exact .pure hreaches'.like (.ret hvalue)
      | goto hlabel => exact .pure hreaches'.like (.goto hlabel)
    · exact .pure hreaches.like .normal

end Eval

end IteratorLowering
