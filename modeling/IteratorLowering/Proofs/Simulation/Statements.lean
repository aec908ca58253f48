import IteratorLowering.Proofs.Simulation.Lists

/-!
# Statements and calls that follow one another

Calls, expressions, yields, loops and statements of corresponding programs follow one another, as
long as the executors for the statements inside them do. By induction on the fuel, statements do
(`executing_execute`), and so do runs of functions that correspond (`follows_run`).
-/

set_option autoImplicit false
set_option relaxedAutoImplicit false

namespace IteratorLowering

namespace Eval

variable {c : Correspondence} {pace : Pace} {early : List Early} {floor frame : Nat}
variable {objects : ObjId → ObjId → Prop} {machine machine' : Machine}

/-! ### Frames -/

theorem forHeader?_mapSymbols (f : SymId → SymId) (info : BlockInfo) :
    (info.mapSymbols f).forHeader? = info.forHeader?.map fun found ↦ (f found.1, f found.2) := by
  cases info with
  | forLoop header =>
    rcases header with _ | ⟨first, _ | ⟨second, _ | ⟨third, rest⟩⟩⟩
    · rfl
    · cases first <;> rfl
    · cases first <;> cases second <;> rfl
    · cases first <;> cases second <;> rfl
  | _ => rfl

/-- The symbols of a well-formed header stand in it. -/
theorem mem_of_forHeader? {header : List Operand} {index iterator : SymId}
    (h : (BlockInfo.forLoop header).forHeader? = some (index, iterator)) :
    index ∈ operandSymbols header ∧ iterator ∈ operandSymbols header := by
  unfold BlockInfo.forHeader? at h
  split at h
  · rename_i heq
    cases heq
    cases h
    simp [operandSymbols, Operand.symbols]
  · cases h

theorem open_of_floor_le (h : machine.Like c pace early floor objects machine')
    (hframe : floor ≤ frame) (symbol : SymId) : Open early frame symbol := by
  intro entry hentry hdepth
  have := (h.waits entry hentry).below
  omega

theorem bindFormals_like (hc : c.Sound) {formals : List SymId} {args args' : List Value}
    (hargs : LikeValues c objects args args') {symbol : SymId} :
    Option.Rel (Value.Like objects c.names) ((bindFormals formals args).find? symbol)
      ((bindFormals (formals.map c.rename) args').find? (c.rename symbol)) := by
  -- Induction over the formals, with the locals that are there already kept general.
  have hfold (formals : List SymId) {args args' : List Value}
      (hargs : LikeValues c objects args args') {locals locals' : FiniteMap SymId Value}
      (hlocals : ∀ symbol, Option.Rel (Value.Like objects c.names) (locals.find? symbol)
        (locals'.find? (c.rename symbol))) :
      Option.Rel (Value.Like objects c.names)
        (((formals.zip args).foldl (fun locals binding ↦ locals.insert binding.1 binding.2)
          locals).find? symbol)
        ((((formals.map c.rename).zip args').foldl
          (fun locals binding ↦ locals.insert binding.1 binding.2) locals').find?
            (c.rename symbol)) := by
    induction formals generalizing args args' locals locals' with
    | nil => exact hlocals symbol
    | cons formal rest ih =>
      cases hargs with
      | nil => exact hlocals symbol
      | cons hvalue hargs =>
        refine ih hargs fun other ↦ ?_
        by_cases hother : other = formal
        · subst hother
          rw [FiniteMap.find?_insert_self, FiniteMap.find?_insert_self]
          exact .some hvalue
        · rw [FiniteMap.find?_insert_of_ne _ hother,
            FiniteMap.find?_insert_of_ne _ (hc.injective.ne hother)]
          exact hlocals other
  exact hfold formals hargs fun _ ↦ .none

theorem instanceArgs_like {object object' : Object}
    (hobject : Object.Like objects c.names object object') (headerFields : Nat)
    (formals : List SymId) :
    LikeValues c objects (instanceArgs object headerFields formals)
      (instanceArgs object' headerFields (formals.map c.rename)) := by
  unfold instanceArgs LikeValues
  rw [List.length_map, List.forall₂_map_left_iff, List.forall₂_map_right_iff, List.forall₂_same]
  exact fun position _ ↦ hobject.getD (headerFields + position)

theorem follows_checkDepth (hfair : pace.Fair)
    (h : machine.Like c pace early floor objects machine') :
    Follows c pace early floor objects machine machine' Same (checkDepth pace.limits)
      fun i ↦ checkDepth (pace.limits' i) := by
  by_cases hfull : pace.limits.maxDepth ≤ machine.frames.size
  · refine .failed ((checkDepth_eq _ _).trans (if_pos hfull)) fun hfails ↦
      ⟨_, machine', objects, ?_, h.oneToOne, h.number, .other nofun, h.shows, h.steps⟩
    filter_upwards [(hfair.exact hfails rfl).limits] with i hlimits
    rw [hlimits]
    exact (checkDepth_eq _ _).trans (if_pos (h.size.symm ▸ hfull))
  · refine .done ((checkDepth_eq _ _).trans (if_neg hfull)) ?_ ⟨h, le_rfl, .refl machine⟩ rfl
    filter_upwards [hfair.depth] with i hdepth
    exact (checkDepth_eq _ _).trans (if_neg (by rw [h.size]; omega))

theorem follows_tick (hfair : pace.Fair) (h : machine.Like c pace early floor objects machine') :
    Follows c pace early floor objects machine machine' Same (tick pace.limits)
      fun i ↦ tick (pace.limits' i) := by
  have hticked := h.withSteps (hfair.steps h.steps)
  by_cases hspent : pace.limits.maxSteps < machine.steps + 1
  · refine .failed ((tick_eq _ _).trans (if_pos hspent)) fun hfails ↦
      ⟨_, _, objects, ?_, h.oneToOne, h.number, .other nofun, hticked.shows, hticked.steps⟩
    have hexact := hfair.exact hfails rfl
    filter_upwards [hexact.limits] with i hlimits
    rw [hlimits]
    exact (tick_eq _ _).trans (if_pos (hexact.steps h.steps ▸ hspent))
  · refine .done ((tick_eq _ _).trans (if_neg hspent)) ?_ ⟨hticked, le_rfl, .of_eq rfl⟩ rfl
    filter_upwards [hfair.tick h.steps (Nat.not_lt.mp hspent)] with i hroom
    exact (tick_eq _ _).trans (if_neg (Nat.not_lt.mpr hroom))

/-! ### Computations that only look -/

theorem looks_load {program : Program} {place : Place} : Looks (load program place) := by
  cases place with
  | slot frame symbol => exact looks_read
  | field object position => exact .bind .get fun _ ↦ .pure

theorem looks_objectOf {program : Program} {symbol : SymId} :
    Looks (objectOf program frame symbol) := by
  unfold objectOf
  refine .bind looks_read fun value ↦ ?_
  split
  · exact .pure
  · refine .bind looks_load fun seen ↦ ?_
    split
    · exact .pure
    · exact .throw
  · exact .throw

/-- The machine may as well be read after a computation that only looks. -/
theorem get_bind_of_looks {α β : Type} {first : Eval α} {next : Machine → α → Eval β}
    (h : Looks first) : (get >>= fun machine ↦ first >>= next machine) =
      first >>= fun value ↦ get >>= fun machine ↦ next machine value := by
  funext machine
  change (first >>= next machine) machine = _
  cases hfirst : first machine with
  | ok value final =>
    obtain rfl := h machine value final hfirst
    rw [bind_of_ok hfirst, bind_of_ok hfirst]
    rfl
  | error error final => rw [bind_of_error hfirst, bind_of_error hfirst]

/-- A block that is no loop runs its members. -/
theorem statement_of_plain {program : Program} {limits : Limits} {execute : Executor} {rounds : Nat}
    {id : StmtId} {info : Option BlockInfo} {body : List StmtId}
    (hkind : program.kind id = .block info body) (hinfo : isPlainInfo info = true) :
    statement program limits execute rounds frame id =
      runList program (execute frame) body rounds body := by
  unfold statement
  rw [hkind]
  rcases info with _ | (_ | _ | _ | _ | _)
  · rfl
  · exact absurd hinfo Bool.false_ne_true
  · exact absurd hinfo Bool.false_ne_true
  all_goals rfl

/-- An action hands on control, unless it yields, returns or jumps. -/
theorem straight_execute {program : Program} {limits : Limits} {fuel : Nat} {id : StmtId}
    {inner : Action} (hkind : program.kind id = .action inner)
    (hyield : ∀ value, inner ≠ .yield value)
    (hret : ∀ value, inner ≠ .ret value) (hgoto : ∀ label, inner ≠ .goto label) :
    Straight (execute program limits fuel frame id) := by
  intro machine flow final hrun
  cases fuel with
  | zero => cases hrun
  | succ fuel =>
    obtain ⟨⟨⟩, ticked, -, hrun⟩ := exists_of_bind_eq_ok hrun
    simp only [statement, hkind] at hrun
    cases inner with
    | define symbol =>
      simp only [action] at hrun
      split at hrun
      · cases hrun
        rfl
      · obtain ⟨value, middle, -, hrun⟩ := exists_of_bind_eq_ok hrun
        cases hrun
        rfl
    | assign target value =>
      obtain ⟨value, middle, -, hrun⟩ := exists_of_bind_eq_ok hrun
      cases hrun
      rfl
    | store reference value =>
      obtain ⟨stored, middle, -, hrun⟩ := exists_of_bind_eq_ok hrun
      obtain ⟨found, middle, -, hrun⟩ := exists_of_bind_eq_ok hrun
      split at hrun
      · obtain ⟨⟨⟩, middle, -, hrun⟩ := exists_of_bind_eq_ok hrun
        cases hrun
        rfl
      · cases hrun
    | setField base field value =>
      obtain ⟨stored, middle, -, hrun⟩ := exists_of_bind_eq_ok hrun
      obtain ⟨object, middle, -, hrun⟩ := exists_of_bind_eq_ok hrun
      obtain ⟨index, middle, -, hrun⟩ := exists_of_bind_eq_ok hrun
      cases hrun
      rfl
    | evaluate value =>
      obtain ⟨value, middle, -, hrun⟩ := exists_of_bind_eq_ok hrun
      cases hrun
      rfl
    | yield value => exact absurd rfl (hyield value)
    | ret value => exact absurd rfl (hret value)
    | goto label => exact absurd rfl (hgoto label)
    | fail message => cases hrun
    | noop =>
      cases hrun
      rfl

/-! ### Calls and expressions -/

section

variable (hc : c.Sound) (hfair : pace.Fair) {run : Executor} {run' : pace.Index → Executor}
variable (hrun : Executing c pace run run')

include hc hfair hrun

/-- A call runs the body in a frame above the floor. -/
theorem follows_call (h : machine.Like c pace early floor objects machine') {function : FnId}
    (hfunction : c.called function) {args args' : List Value}
    (hargs : LikeValues c objects args args') :
    Follows c pace early floor objects machine machine' (LikeValue c)
      (call c.source pace.limits run function args)
      fun i ↦ call c.target (pace.limits' i) (run' i) function args' := by
  have hfunctions := hc.function hfunction
  unfold call
  apply Follows.bind (follows_countCall h)
  intro objects₁ counted counted' _ _ hreaches _
  replace hargs := hargs.mono hreaches.objects
  have hisIterator : (c.target.function function).isIterator =
      (c.source.function function).isIterator :=
    congrArg FnFlags.iterator hfunctions.flags
  simp only [hisIterator, hfunctions.flags, hfunctions.name, hfunctions.formals]
  by_cases hexternal : (c.source.function function).flags.external = true
  · simp only [if_pos hexternal]
    exact follows_callExternal hreaches.like hargs
  by_cases hiterator : (c.source.function function).isIterator = true
  · simp only [if_neg hexternal, if_pos hiterator]
    exact follows_buildInstance hc hreaches.like hfair.heaps hfunctions.name
      hfunctions.iteratorInfo hargs
  simp only [if_neg hexternal, if_neg hiterator]
  apply Follows.bind (follows_checkDepth hfair hreaches.like)
  intro objects₂ checked checked' _ _ hreaches _
  replace hargs := hargs.mono hreaches.objects
  refine Follows.bind (Follows.withFrame hreaches.like ?_ ?_ fun hpushed hroom ↦
    hrun hpushed hfunctions.body hreaches.like.room hroom) ?_
  · exact ⟨rfl, .none⟩
  · exact fun _ ↦ bindFormals_like hc hargs
  rintro objects₃ final final' ⟨flow, left⟩ ⟨flow', left'⟩ hreaches ⟨hflow, hleft⟩
  dsimp only at hflow hleft ⊢
  cases hflow with
  | ret hvalue => exact .pure hreaches.like hvalue
  | normal =>
    refine .pure hreaches.like ?_
    rw [hfunctions.retSym]
    cases hret : (c.source.function function).retSym with
    | none => exact .void
    | some symbol =>
      have hvalue := hleft (hfunctions.kept symbol hret)
      simp only [Option.map_some, Option.bind_some]
      revert hvalue
      generalize left.locals.find? symbol = value, left'.locals.find? (c.rename symbol) = value'
      intro hvalue
      cases hvalue with
      | some hvalue => exact hvalue
      | none => exact .void
  | goto hlabel =>
    dsimp only
    rw [hc.symbolName (hc.label hlabel)]
    exact .throw hreaches.like (.other (by rintro _ _ ⟨⟩))

theorem follows_expression (h : machine.Like c pace early floor objects machine') {value : Expr}
    (hvalue : c.Evaluates value) (hopen : ∀ symbol ∈ value.symbols, Open early frame symbol) :
    Follows c pace early floor objects machine machine' (LikeValue c)
      (expression c.source pace.limits run frame value)
      fun i ↦ expression c.target (pace.limits' i) (run' i) frame (value.mapSymbols c.rename) := by
  have hready : Ready c early frame value.symbols := ⟨hvalue.reads, hopen⟩
  cases value with
  | use operand => exact follows_operand hc h hready
  | prim op args =>
    apply Follows.bind (follows_operands hc h hready)
    intro objects' final final' values values' hreaches hvalues
    exact follows_ofExcept hreaches.like
      (primitive_like hreaches.like.oneToOne hc.biUnique_names hvalues)
  | call callee args =>
    apply Follows.bind (follows_operands hc h hready)
    intro objects' final final' values values' hreaches hvalues
    exact follows_call hc hfair hrun hreaches.like (hvalue.callee callee rfl) hvalues
  | tableCall slot args =>
    apply Follows.bind (follows_operand hc h hready.left)
    intro objects₁ middle middle' slot slot' hreaches hslot
    apply Follows.bind (follows_tableFunction hc hreaches.like hslot)
    rintro objects₂ middle middle' callee _ hreaches ⟨rfl, hcallee⟩
    apply Follows.bind (follows_operands hc hreaches.like hready.right)
    intro objects₃ final final' values values' hreaches hvalues
    exact follows_call hc hfair hrun hreaches.like hcallee hvalues
  | fieldAddress base field =>
    apply Follows.bind (follows_objectOf hc h hready)
    intro objects₁ middle middle' object object' hreaches hobject
    apply Follows.bind (follows_fieldIndex hc hreaches.like hobject)
    rintro objects₂ final final' _ position hreaches rfl
    exact .pure hreaches.like (.ref (.field (hreaches.objects _ _ hobject)))
  | fieldValue base field =>
    apply Follows.bind (follows_objectOf hc h hready)
    intro objects₁ middle middle' object object' hreaches hobject
    apply Follows.bind (follows_fieldIndex hc hreaches.like hobject)
    rintro objects₂ final final' _ position hreaches rfl
    exact .get_bind (.pure hreaches.like
      ((hreaches.like.object (hreaches.objects _ _ hobject)).getD position))
  | cast type operand =>
    simp only [expression, Expr.mapSymbols, hc.type]
    apply Follows.bind (follows_operand hc h hready)
    intro objects' final final' value value' hreaches hvalue
    exact .pure hreaches.like (castTo_like hvalue)
  | hasClass symbol type =>
    apply Follows.bind (follows_read hc h hready)
    intro objects₁ middle middle' value value' hreaches hvalue
    apply Follows.bind (follows_classOf? hc hreaches.like hvalue)
    rintro objects₂ final final' found _ hreaches rfl
    exact .pure hreaches.like (.bool _)
  | addressOf symbol => exact .pure h (.ref (.slot ⟨hvalue.address symbol rfl, rfl⟩))
  | deref symbol =>
    apply Follows.bind (follows_read hc h hready)
    intro objects₁ middle middle' value value' hreaches hvalue
    cases hvalue with
    | ref hplace => exact follows_load hc hreaches.like hplace
    | _ => exact .throw hreaches.like (.typeMismatch (by constructor <;> assumption))

/-! ### Yields and loops -/

variable (hstretching : Stretching c pace run run') {rounds : Nat} {lasting : pace.Index → Nat}

include hstretching

theorem follows_yieldValue (h : machine.Like c pace early floor objects machine')
    (hframe : floor ≤ frame) (hthere : frame < machine.frames.size)
    (hlasts : pace.lasts rounds lasting) {value value' : Value}
    (hvalue : LikeValue c objects value value') :
    Follows c pace early floor objects machine machine' (LikeFlow c)
      (yieldValue c.source run rounds frame value)
      fun i ↦ yieldValue c.target (run' i) (lasting i) frame value' := by
  unfold yieldValue
  apply Follows.get_bind
  obtain ⟨held', hheld', -, hyield⟩ := h.frame (Array.getElem?_eq_getElem hthere)
  rw [Array.getElem?_eq_getElem hthere, hheld']
  simp only [Option.bind_some]
  revert hyield
  generalize machine.frames[frame].yieldTo = target, held'.yieldTo = target'
  intro hyield
  cases hyield with
  | none => exact .throw h (.other nofun)
  | @some target target' htarget =>
    simp only [htarget.frame, htarget.index]
    have habove := htarget.above hframe
    have hbelow : target.frame < machine.frames.size := htarget.below.trans hthere
    apply Follows.bind
      (follows_setLocal hc h (open_of_floor_le h habove target.index) hvalue)
    intro objects₁ middle middle' _ _ hreaches _
    have hbody := hc.blockBody htarget.loop
    apply Follows.bind (follows_runList hc hfair hrun hstretching hbody hbody hreaches.like habove
      (hreaches.frames.size ▸ hbelow) hlasts)
    intro objects₂ final final' flow flow' hreaches hflow
    cases hflow with
    | normal => exact .pure hreaches.like .normal
    | ret => exact .unsupported hreaches.like
    | goto => exact .unsupported hreaches.like

omit hstretching in
/-- A loop runs its iterator in a frame whose yields lead to the frame of the loop. -/
theorem follows_naiveFor (h : machine.Like c pace early floor objects machine')
    (hframe : floor ≤ frame) (hthere : frame < machine.frames.size) {loop loop' : StmtId}
    (hloop : c.pairs loop loop') {header : List Operand}
    (hheader : c.Reads (operandSymbols header)) :
    Follows c pace early floor objects machine machine' (LikeFlow c)
      (naiveFor c.source pace.limits run frame loop (.forLoop header))
      fun i ↦ naiveFor c.target (pace.limits' i) (run' i) frame loop'
        ((BlockInfo.forLoop header).mapSymbols c.rename) := by
  unfold naiveFor
  rw [forHeader?_mapSymbols]
  cases hfound : (BlockInfo.forLoop header).forHeader? with
  | none => exact .unsupported h
  | some found =>
    obtain ⟨index, iterator⟩ := found
    have hready : Ready c early frame [iterator] :=
      ⟨List.forall_mem_singleton.mpr (hheader iterator (mem_of_forHeader? hfound).2),
        fun symbol _ ↦ open_of_floor_le h hframe symbol⟩
    simp only [Option.map_some, get_bind_of_looks looks_objectOf]
    apply Follows.bind (follows_objectOf hc h hready)
    intro objects₁ found found' object object' hreaches hobject
    apply Follows.get_bind
    have hlike := hreaches.like.object hobject
    simp only [hlike.type, hc.type]
    split
    · exact .unsupported hreaches.like
    cases hiterator : (c.source.type (found.object object).type).iteratorFn with
    | none => exact .unsupported hreaches.like
    | some function =>
      have hfunctions := hc.function (hc.iterator hiterator)
      have hargs := instanceArgs_like hlike
        (c.source.type (found.object object).type).headerFields
        (c.source.function function).formals
      simp only [hfunctions.formals]
      have hsize := hreaches.frames.size
      apply Follows.bind (follows_checkDepth hfair hreaches.like)
      intro objects₂ checked checked' _ _ hreaches _
      replace hargs := hargs.mono hreaches.objects
      replace hsize := hreaches.frames.size.trans hsize
      apply Follows.bind (follows_countCall hreaches.like)
      intro objects₃ counted counted' _ _ hreaches _
      replace hargs := hargs.mono hreaches.objects
      replace hsize := hreaches.frames.size.trans hsize
      refine Follows.bind (Follows.withFrame hreaches.like ?_ ?_ fun hpushed hroom ↦
        hrun hpushed hfunctions.body hreaches.like.room hroom) ?_
      · exact ⟨rfl, .some ⟨rfl, rfl, hloop, hsize ▸ hthere, fun _ ↦ hframe⟩⟩
      · exact fun _ ↦ bindFormals_like hc hargs
      rintro objects₄ final final' ⟨flow, left⟩ ⟨flow', left'⟩ hreaches ⟨hflow, -⟩
      dsimp only at hflow ⊢
      cases hflow with
      | normal => exact .pure hreaches.like .normal
      | ret => exact .pure hreaches.like .normal
      | goto hlabel =>
        dsimp only
        rw [hc.symbolName (hc.label hlabel)]
        exact .throw hreaches.like (.other nofun)

/-! ### Statements -/

/-- An action is followed where its symbols do not wait, and a yield only from the floor on. -/
theorem follows_action (h : machine.Like c pace early floor objects machine')
    (hthere : frame < machine.frames.size) (hlasts : pace.lasts rounds lasting)
    {inner inner' : Action} (hinner : c.Actions inner inner')
    (hopen : ∀ symbol, symbol ∈ inner.reads ∨ symbol ∈ inner.named? → Open early frame symbol)
    (hframe : ∀ value, inner = .yield value → floor ≤ frame) :
    Follows c pace early floor objects machine machine' (LikeFlow c)
      (action c.source pace.limits run rounds frame inner)
      fun i ↦ action c.target (pace.limits' i) (run' i) (lasting i) frame inner' := by
  cases hinner with
  | @unread target value htarget hvalue =>
    apply Follows.bind (follows_expression hc hfair hrun h hvalue fun symbol hsymbol ↦
      hopen symbol (.inl hsymbol))
    intro objects₁ final final' found found' hreaches _
    exact .done rfl (.of_forall fun _ ↦ rfl)
      ⟨hreaches.like.setLocal_left htarget, le_rfl, .setLocal final frame target found⟩ .normal
  | same hreads hnamed hjump hvalue =>
    have hready : Ready c early frame inner.reads :=
      ⟨hreads, fun symbol hsymbol ↦ hopen symbol (.inl hsymbol)⟩
    cases inner with
    | define symbol =>
      have hsymbol := hnamed symbol rfl
      simp only [action, Action.mapSymbols, hc.isLabel hsymbol, hc.symbolType hsymbol]
      split
      · exact .pure h .normal
      · apply Follows.bind (follows_defaultValue hc h hfair.heaps)
        intro objects₁ middle middle' value value' hreaches hvalue
        apply Follows.bind (follows_setLocal hc hreaches.like (hopen symbol (.inr rfl)) hvalue)
        intro objects₂ final final' _ _ hreaches _
        exact .pure hreaches.like .normal
    | assign target value =>
      apply Follows.bind (follows_expression hc hfair hrun h (hvalue value rfl) hready.isOpen)
      intro objects₁ middle middle' value value' hreaches hvalue
      apply Follows.bind (follows_setLocal hc hreaches.like (hopen target (.inr rfl)) hvalue)
      intro objects₂ final final' _ _ hreaches _
      exact .pure hreaches.like .normal
    | store reference value =>
      have hready : Ready c early frame ([reference] ++ value.symbols) := hready
      apply Follows.bind (follows_operand hc h hready.right)
      intro objects₁ middle middle' stored stored' hreaches hstored
      apply Follows.bind (follows_read hc hreaches.like hready.left)
      intro objects₂ middle middle' found found' hreaches hfound
      replace hstored := hstored.mono hreaches.objects le_rfl
      cases hfound with
      | ref hplace =>
        apply Follows.bind (follows_store hc hreaches.like hplace hstored)
        intro objects₃ final final' _ _ hreaches _
        exact .pure hreaches.like .normal
      | _ => exact .throw hreaches.like (.typeMismatch (by constructor <;> assumption))
    | setField base field value =>
      have hready : Ready c early frame ([base] ++ value.symbols) := hready
      apply Follows.bind (follows_operand hc h hready.right)
      intro objects₁ middle middle' stored stored' hreaches hstored
      apply Follows.bind (follows_objectOf hc hreaches.like hready.left)
      intro objects₂ middle middle' object object' hreaches hobject
      replace hstored := hstored.mono hreaches.objects le_rfl
      apply Follows.bind (follows_fieldIndex hc hreaches.like hobject)
      rintro objects₃ middle middle' _ position hreaches rfl
      replace hstored := hstored.mono hreaches.objects le_rfl
      apply Follows.bind
        (follows_setField hreaches.like (hreaches.objects _ _ hobject) hstored)
      intro objects₄ final final' _ _ hreaches _
      exact .pure hreaches.like .normal
    | evaluate value =>
      apply Follows.bind (follows_expression hc hfair hrun h (hvalue value rfl) hready.isOpen)
      intro objects₁ final final' _ _ hreaches _
      exact .pure hreaches.like .normal
    | yield value =>
      apply Follows.bind (follows_operand hc h hready)
      intro objects₁ middle middle' value' value'' hreaches hvalue
      exact follows_yieldValue hc hfair hrun hstretching hreaches.like (hframe value rfl)
        (hreaches.frames.size ▸ hthere) hlasts hvalue
    | ret value =>
      apply Follows.bind (follows_operand hc h hready)
      intro objects₁ final final' value' value'' hreaches hvalue
      exact .pure hreaches.like (.ret hvalue)
    | goto label => exact .pure h (.goto (hjump label rfl))
    | fail message => exact .throw h (.other (by rintro _ _ ⟨⟩))
    | noop => exact .pure h .normal

theorem follows_statement (h : machine.Like c pace early floor objects machine')
    (hframe : floor ≤ frame) (hthere : frame < machine.frames.size)
    (hlasts : pace.lasts rounds lasting) {id id' : StmtId} (hpair : c.pairs id id') :
    Follows c pace early floor objects machine machine' (LikeFlow c)
      (statement c.source pace.limits run rounds frame id)
      fun i ↦ statement c.target (pace.limits' i) (run' i) (lasting i) frame id' := by
  have hkinds := hc.statement hpair
  generalize hkind : c.source.kind id = kind, hkind' : c.target.kind id' = kind' at hkinds
  cases hkinds with
  | action hinner =>
    simp only [statement, hkind, hkind']
    exact follows_action hc hfair hrun hstretching h hthere hlasts hinner
      (fun symbol _ ↦ open_of_floor_le h hframe symbol) fun _ _ ↦ hframe
  | branch hcondition hthen helse =>
    simp only [statement, hkind, hkind']
    apply Follows.bind
      (follows_truth hc h ⟨hcondition, fun symbol _ ↦ open_of_floor_le h hframe symbol⟩)
    rintro objects₁ tested tested' _ holds hreaches rfl
    have hthere' : frame < tested.frames.size := hreaches.frames.size ▸ hthere
    split
    · exact hrun hreaches.like hthen hframe hthere'
    · cases helse with
      | some helse => exact hrun hreaches.like helse hframe hthere'
      | none => exact .pure hreaches.like .normal
  | plain hinfo hinfo' hbody =>
    simp only [statement_of_plain hkind hinfo, statement_of_plain hkind' hinfo']
    exact follows_runList hc hfair hrun hstretching hbody hbody h hframe hthere hlasts
  | whileLoop hcondition hbody =>
    simp only [statement, hkind, hkind']
    exact follows_runWhile hc hfair ⟨hcondition, fun symbol _ ↦ open_of_floor_le h hframe symbol⟩
      (fun h hthere ↦ follows_runList hc hfair hrun hstretching hbody hbody h hframe hthere hlasts)
      h hthere hlasts
  | forLoop hheader hbody =>
    simp only [statement, hkind, hkind']
    exact follows_naiveFor hc hfair hrun h hframe hthere hpair hheader

end

/-! ### Runs -/

/-- Statements that correspond follow one another, however much fuel there is, if the stretches of
corresponding lists do as far as less fuel goes. -/
theorem executing_execute (hc : c.Sound) (hfair : pace.Fair)
    (hstretching : ∀ {fuel lasting}, pace.lasts fuel lasting →
      (∀ {less lasting'}, less < fuel → pace.lasts less lasting' →
        Executing c pace (execute c.source pace.limits less)
          fun i ↦ execute c.target (pace.limits' i) (lasting' i)) →
      Stretching c pace (execute c.source pace.limits fuel)
        fun i ↦ execute c.target (pace.limits' i) (lasting i))
    {fuel : Nat} {lasting : pace.Index → Nat} (hlasts : pace.lasts fuel lasting) :
    Executing c pace (execute c.source pace.limits fuel)
      fun i ↦ execute c.target (pace.limits' i) (lasting i) := by
  induction fuel using Nat.strongRecOn generalizing lasting with
  | ind fuel ih =>
    intro early floor objects machine machine' frame id id' h hpair hframe hthere
    cases fuel with
    | zero =>
      refine Follows.endless hfair h hlasts fun i hzero ↦ ?_
      dsimp only
      rw [hzero]
      rfl
    | succ fuel =>
      obtain ⟨lasting', hlasts', hsucc⟩ := hfair.lasts hlasts
      have hfuel : ∀ᶠ i in pace.within,
          execute c.target (pace.limits' i) (lasting i) frame id' machine' =
            execute c.target (pace.limits' i) (lasting' i + 1) frame id' machine' :=
        hsucc.mono fun i hi ↦ by rw [hi]
      refine .congr hfuel ?_
      apply Follows.bind (follows_tick hfair h)
      intro objects₁ ticked ticked' _ _ hreaches _
      exact follows_statement hc hfair (ih fuel (Nat.lt_succ_self _) hlasts')
        (hstretching hlasts' fun hless hlasts ↦ ih _ (hless.trans (Nat.lt_succ_self _)) hlasts)
        hreaches.like hframe (hreaches.frames.size ▸ hthere) hlasts' hpair

end Eval

end IteratorLowering
