import IteratorLowering.Proofs.DeadCode.Thinning

/-!
# Removing dead code keeps what runs do

A statement that does nothing by itself takes a step, makes an object at most, and writes into a
dead variable at most (`Eval.alone_of_droppable`). So a program and what is left of it after dead
code was removed correspond, with every statement that was taken out as a stretch that nothing
stands for, and a run of the one that gives a result is followed by a run of the other that takes no
more steps (`Program.Thins.run`).
-/

set_option autoImplicit false
set_option relaxedAutoImplicit false

namespace IteratorLowering

namespace Eval

/-! ### Expressions without effect -/

section

variable {α β : Type} {program : Program} {frame : Nat}

theorem Looks.mapM {items : List α} {step : α → Eval β} (h : ∀ item, Looks (step item)) :
    Looks (items.mapM step) := by
  induction items with
  | nil => exact .pure
  | cons item rest ih =>
    rw [List.mapM_cons]
    exact .bind (h item) fun _ ↦ .bind ih fun _ ↦ .pure

theorem looks_ofExcept {result : Except EvalError α} : Looks (ofExcept result) := by
  cases result with
  | ok => exact .pure
  | error => exact .throw

theorem looks_fieldIndex {object : ObjId} {field : FieldRef} :
    Looks (fieldIndex program object field) := by
  unfold fieldIndex
  refine .bind .get fun machine ↦ ?_
  dsimp only
  split
  · exact .pure
  · exact .throw

theorem looks_classOf? {value : Value} : Looks (classOf? program value) := by
  unfold classOf?
  extract_lets rest
  have hrest : ∀ seen, Looks (rest seen) := fun seen ↦ by
    simp only [rest]
    split
    · exact .bind .get fun _ ↦ .pure
    · exact .pure
  split
  · exact .bind looks_load hrest
  · exact hrest _

/-- A pure expression leaves the machine as it is. -/
theorem looks_expression {limits : Limits} {execute : Executor} {value : Expr}
    (h : value.isPure = true) : Looks (expression program limits execute frame value) := by
  cases value with
  | use operand => exact looks_operand
  | prim op args => exact .bind (.mapM fun _ ↦ looks_operand) fun _ ↦ looks_ofExcept
  | call | tableCall | deref => cases h
  | fieldAddress base field =>
    exact .bind looks_objectOf fun _ ↦ .bind looks_fieldIndex fun _ ↦ .pure
  | fieldValue base field =>
    exact .bind looks_objectOf fun _ ↦ .bind looks_fieldIndex fun _ ↦ .bind .get fun _ ↦ .pure
  | cast type operand => exact .bind looks_operand fun _ ↦ .pure
  | hasClass symbol type => exact .bind looks_read fun _ ↦ .bind looks_classOf? fun _ ↦ .pure
  | addressOf symbol => exact .pure

end

/-! ### Statements that do nothing -/

section

variable {c : Correspondence} {pace : Pace} {early : List Early} {floor frame : Nat}
variable {objects : ObjId → ObjId → Prop} {machine machine' middle final : Machine}
variable {dead : SymId → Prop} {limits : Limits} {fuel : Nat} {id : StmtId}

theorem straight_of_droppable {program : Program} (hdrop : (program.kind id).Droppable dead) :
    Straight (execute program limits fuel frame id) := by
  generalize hkind : program.kind id = kind at hdrop
  cases hdrop with
  | _ => exact straight_execute hkind nofun nofun nofun

/-- What the first machine does by itself. -/
structure Alone (c : Correspondence) (pace : Pace) (early : List Early) (floor : Nat)
    (objects : ObjId → ObjId → Prop) (machine final machine' : Machine) : Prop where
  like : final.Like c pace early floor objects machine'
  frames : machine.SameFrames final

theorem Alone.trans (h : Alone c pace early floor objects machine middle machine')
    (h' : Alone c pace early floor objects middle final machine') :
    Alone c pace early floor objects machine final machine' :=
  ⟨h'.like, h.frames.trans h'.frames⟩

/-- A variable that is not kept gets a value. -/
theorem alone_setLocal (h : machine.Like c pace early floor objects machine') {symbol : SymId}
    (hsymbol : ¬ c.kept symbol) (value : Value) :
    Alone c pace early floor objects machine (machine.setLocal frame symbol value) machine' :=
  ⟨h.setLocal_left hsymbol, .setLocal machine frame symbol value⟩

/-- The value that a variable starts with may take an object. -/
theorem alone_defaultValue (h : machine.Like c pace early floor objects machine')
    (hheaps : ∀ {size size'}, pace.heaps size size' → pace.heaps (size + 1) size') {type : TypeId}
    {value : Value} (hrun : defaultValue c.source type machine = .ok value final) :
    Alone c pace early floor objects machine final machine' := by
  rw [defaultValue_eq] at hrun
  split at hrun
  · cases hrun
    exact ⟨h.allocate_left (hheaps h.heaps), .of_eq rfl⟩
  · cases hrun
    exact ⟨h, .refl machine⟩

/-- A statement that does nothing is run by the first machine alone. -/
theorem alone_of_droppable (hdead : ∀ symbol, dead symbol → ¬ c.kept symbol)
    (hsteps : ∀ {steps steps'}, pace.steps steps steps' → pace.steps (steps + 1) steps')
    (hheaps : ∀ {size size'}, pace.heaps size size' → pace.heaps (size + 1) size')
    (h : machine.Like c pace early floor objects machine')
    (hdrop : (c.source.kind id).Droppable dead) {flow : Flow}
    (hrun : execute c.source limits fuel frame id machine = .ok flow final) :
    Alone c pace early floor objects machine final machine' := by
  cases fuel with
  | zero => cases hrun
  | succ fuel =>
    obtain ⟨⟨⟩, ticked, htick, hrun⟩ := exists_of_bind_eq_ok hrun
    have hticked : Alone c pace early floor objects machine ticked machine' := by
      rw [tick_eq] at htick
      split at htick
      · cases htick
      · cases htick
        exact ⟨h.withSteps (hsteps h.steps), .of_eq rfl⟩
    unfold statement at hrun
    generalize c.source.kind id = kind at hdrop hrun
    cases hdrop with
    | @define symbol hsymbol =>
      simp only [action] at hrun
      split at hrun
      · cases hrun
        exact hticked
      · obtain ⟨value, middle, hvalue, hrun⟩ := exists_of_bind_eq_ok hrun
        cases hrun
        have hmade := alone_defaultValue hticked.like hheaps hvalue
        exact hticked.trans (hmade.trans (alone_setLocal hmade.like (hdead symbol hsymbol) value))
    | @assign target expr htarget hpure =>
      obtain ⟨value, middle, hvalue, hrun⟩ := exists_of_bind_eq_ok hrun
      cases hrun
      obtain rfl := looks_expression hpure _ _ _ hvalue
      exact hticked.trans (alone_setLocal hticked.like (hdead target htarget) value)
    | @evaluate expr hpure =>
      obtain ⟨value, middle, hvalue, hrun⟩ := exists_of_bind_eq_ok hrun
      cases hrun
      obtain rfl := looks_expression hpure _ _ _ hvalue
      exact hticked
    | noop =>
      cases hrun
      exact hticked

end

end Eval

/-! ### Programs that were thinned -/

/-- The second run has the same limits and is done no later. -/
def Pace.sooner (limits : Limits) : Pace where
  Index := Unit
  within := ⊤
  limits := limits
  limits' _ := limits
  lasts rounds lasting := rounds ≤ lasting ()
  steps steps steps' := steps' ≤ steps
  heaps _ _ := True
  fails _ := False

theorem Pace.sooner_fair (limits : Limits) : (Pace.sooner limits).Fair where
  tick hsteps hroom := .of_forall fun _ ↦ Nat.le_trans (Nat.succ_le_succ hsteps) hroom
  steps hsteps := Nat.succ_le_succ hsteps
  heaps _ := trivial
  depth := .of_forall fun _ ↦ Nat.le_refl _
  lasts {_ lasting} hlasts :=
    ⟨fun i ↦ lasting i - 1, Nat.le_sub_one_of_lt hlasts, .of_forall fun _ ↦
      (Nat.sub_add_cancel (Nat.one_le_iff_ne_zero.mpr (Nat.ne_zero_of_lt hlasts))).symm⟩
  exact hfails := hfails.elim

namespace Program

variable {dead : SymId → Prop} {gone : List StmtId} {program final : Program}

/-- What is taken for granted of the variables that were removed: nothing that is left reads them
or jumps to them, and no function returns them. -/
structure Idle (dead : SymId → Prop) (program final : Program) : Prop where
  unread : ∀ {id}, final.Stands id → ∀ symbol ∈ (final.kind id).reads, ¬ dead symbol
  label : ∀ {id}, final.Stands id → ∀ label ∈ (final.kind id).gotoTarget?, ¬ dead label
  retSym : ∀ {function}, program.HasFunction function →
    ∀ symbol ∈ (program.function function).retSym, ¬ dead symbol

namespace Thins

/-- How the statements correspond: one that was taken out stands for nothing. -/
def correspondence (dead : SymId → Prop) (program final : Program) : Correspondence :=
  .rewriting program final (fun symbol ↦ ¬ dead symbol) (fun symbol ↦ ¬ dead symbol)
    (fun symbol ↦ ¬ dead symbol) final.Stands
    fun ids ids' ↦ ∃ id, ids = [id] ∧ ids' = [] ∧ (program.kind id).Droppable dead

theorem members (h : program.Thins dead gone final) {body : List StmtId}
    (hbody : ∀ id ∈ body.filter (· ∉ gone), final.Stands id) :
    (correspondence dead program final).Members body (body.filter (· ∉ gone)) := by
  induction body with
  | nil => exact .nil
  | cons id rest ih =>
    by_cases hid : id ∈ gone
    · rw [List.filter_cons_of_neg (by simpa using hid)] at hbody ⊢
      have hstretch : (correspondence dead program final).stretch [id] [] :=
        ⟨id, rfl, rfl, h.droppable id hid⟩
      exact .stretch hstretch (ih hbody)
    · rw [List.filter_cons_of_pos (by simpa using hid)] at hbody ⊢
      obtain ⟨hself, hrest⟩ := List.forall_mem_cons.mp hbody
      exact .cons ⟨rfl, hself⟩ (ih hrest)

theorem sound (h : program.Thins dead gone final) (hlinked : program.WellLinked)
    (hfinal : final.WellLinked) (hcalls : program.CallsKnown) (hidle : Idle dead program final) :
    (correspondence dead program final).Sound := by
  refine Correspondence.sound_rewriting h.tables hcalls (fun hsymbol ↦ hsymbol)
    (fun hfunction ↦ hidle.retSym hfunction) (fun {function} hfunction ↦ ?_) (fun {id} hid ↦ ?_) ?_
  · have hbody := hfinal.stands_body ((h.hasFunction function).mpr hfunction)
    rwa [bodyOf, h.function] at hbody
  · have hkind := h.kind id
    have hallows : (correspondence dead program final).Allows (program.kind id) := by
      have hreads := hidle.unread hid
      rw [hkind.reads] at hreads
      refine ⟨hreads, fun _ _ ↦ trivial, hkind.gotoTarget? ▸ hidle.label hid, fun value hvalue ↦ ?_⟩
      have hsubset := StmtKind.symbols_subset_of_expression? hvalue
      exact ⟨fun symbol hsymbol ↦ hreads symbol (hsubset hsymbol),
        fun symbol hsymbol ↦ hreads symbol (hsubset (Expr.address?_subset hsymbol)),
        fun function hfunction ↦
          hcalls.callee (h.stands hlinked hfinal hid) value hvalue function hfunction⟩
    have hchildren : ∀ child ∈ (final.kind id).children, final.Stands child :=
      fun child hchild ↦ hfinal.stands_child hid hchild
    change (correspondence dead program final).Kinds _ _
    generalize program.kind id = kind, final.kind id = kind' at hkind hallows hchildren
    cases hkind with
    | action inner => exact hallows.kinds_self hchildren
    | branch => exact hallows.kinds_self hchildren
    | @unread target value htarget _ =>
      exact (hallows.value value rfl).kinds_unread (not_not_intro htarget)
    | block info hbody =>
      subst hbody
      exact hallows.block_self (h.members hchildren)
  · rintro _ _ ⟨id, rfl, rfl, hdrop⟩
    refine ⟨List.cons_ne_nil _ _, fun {label} hlabel ↦ ⟨fun other hother hdefined ↦ ?_, by simp⟩⟩
    rw [List.mem_singleton.mp hother] at hdefined
    generalize program.kind id = kind at hdrop hdefined
    cases hdrop with
    | define hdead =>
      cases hdefined
      exact hlabel hdead
    | _ => cases hdefined

theorem simulates (h : program.Thins dead gone final) (hlinked : program.WellLinked)
    (hfinal : final.WellLinked) (hcalls : program.CallsKnown) (hidle : Idle dead program final)
    (limits : Limits) :
    Eval.Simulates (correspondence dead program final) (Pace.sooner limits) := by
  refine ⟨h.sound hlinked hfinal hcalls hidle, Pace.sooner_fair limits, fun _ _ ↦ ?_⟩
  constructor
  · rintro _ _ ⟨id, rfl, rfl, hdrop⟩ frame
    refine ⟨fun other hother ↦ ?_, nofun⟩
    rw [List.mem_singleton.mp hother]
    exact Eval.straight_of_droppable hdrop
  · rintro _ _ ⟨id, rfl, rfl, hdrop⟩ early floor objects machine machine' frame hlike _ _
    cases hrun : Eval.execute program limits _ frame id machine with
    | ok flow last =>
      have hdead : ∀ symbol, dead symbol → ¬ (correspondence dead program final).kept symbol :=
        fun symbol hsymbol hkept ↦ hkept hsymbol
      have halone := Eval.alone_of_droppable hdead (fun hle ↦ Nat.le_succ_of_le hle)
        (fun _ ↦ trivial) hlike hdrop hrun
      exact .done (Eval.bind_of_ok hrun) (.of_forall fun _ ↦ rfl)
        ⟨halone.like, le_rfl, halone.frames⟩ trivial
    | error error last => exact .failed (Eval.bind_of_error hrun) False.elim
  · rintro _ _ ⟨id, rfl, rfl, hdrop⟩ rounds lasting hlasts
    exact ⟨lasting, Nat.le_of_succ_le hlasts, .of_forall fun _ ↦ rfl⟩
  · exact fun _ _ _ _ hfails ↦ hfails.elim
  · exact fun _ hfails ↦ hfails

/-- A run that gives a result gives a like one after dead code was removed. -/
theorem run (h : program.Thins dead gone final) (hlinked : program.WellLinked)
    (hfinal : final.WellLinked) (hcalls : program.CallsKnown) (hidle : Idle dead program final)
    {function : FnId} (hfunction : program.HasFunction function) {args : List Value}
    (hargs : ∀ arg ∈ args, arg.isScalar = true) {limits : Limits} {value : Value} {last : Machine}
    (hrun : Machine.new.run program limits function args = .ok value last) :
    Outcome.SameUpToObjects (.ok value last) (Machine.new.run final limits function args) := by
  have hsimulates := h.simulates hlinked hfinal hcalls hidle limits
  obtain ⟨objects, result, hone, -, hresult, hlike, -⟩ :=
    run_like hsimulates trivial (Nat.le_refl _) (Nat.le_refl _) hfunction hargs
      fun error other herror ↦ by
        have hok : Machine.new.run program limits function args = .error error other := herror
        rw [hrun] at hok
        cases hok
  have hnames : (correspondence dead program final).names ≤ Eq := fun _ _ hname ↦ hname.2.symm
  have hlike : Outcome.Like objects (correspondence dead program final).names
    (Machine.new.run program limits function args) result := hlike
  rw [hrun] at hlike
  obtain rfl : Machine.new.run final limits function args = result :=
    (Filter.eventually_top.mp hresult) ()
  exact ⟨objects, hone, hlike.mono le_rfl hnames⟩

end Thins

end Program

end IteratorLowering
