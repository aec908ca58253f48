import IteratorLowering.Proofs.Forwarding.Lists

/-!
# Runs of programs that read the source of a copy

Calls, yields, loops and statements are alike in the two programs as long as the statements that
they run are, so by induction on the fuel all statements are (`Eval.runAlike_execute`). What a run
gives is the same in both programs, and so is the machine that it leaves
(`CopySite.Forwards.run_eq`).
-/

set_option autoImplicit false
set_option relaxedAutoImplicit false

namespace IteratorLowering

variable {site : CopySite} {program final : Program} {limits : Limits} {held : Nat → Prop}
variable {machine last : Machine} {frame : Nat} {id child : StmtId}

namespace Eval

/-- The statement reads variables that agree in the frame, and is the same otherwise. -/
structure Renames (site : CopySite) (program final : Program) (held : Nat → Prop) (frame : Nat)
    (id : StmtId) (rename : SymId → SymId) : Prop where
  agrees : Agrees site program final held frame rename
  rereads : (program.kind id).Rereads rename (final.kind id)
  steady : held frame → ∀ symbol ∈ (program.kind id).fixed, ¬ site.Names symbol

/-- The variable that an action names is not renamed, and is none of the copy's while a frame holds
it. -/
theorem Renames.named {rename : SymId → SymId} {inner : Action} {symbol : SymId}
    (h : Renames site program final held frame id rename) (hkind : program.kind id = .action inner)
    (hsymbol : symbol ∈ inner.named?) :
    rename symbol = symbol ∧ (held frame → ¬ site.Names symbol) := by
  have hfixed : symbol ∈ (program.kind id).fixed := by
    rw [hkind]
    exact List.mem_append_left _ (Option.mem_toList.mpr hsymbol)
  exact ⟨h.rereads.fixed symbol hfixed, fun hframe ↦ h.steady hframe symbol hfixed⟩

/-- A variable that a statement takes the address of is not renamed. -/
theorem Renames.address {rename : SymId → SymId} {value : Expr} {symbol : SymId}
    (h : Renames site program final held frame id rename)
    (hvalue : value ∈ (program.kind id).expression?) (hsymbol : symbol ∈ value.address?) :
    rename symbol = symbol :=
  h.rereads.fixed symbol (List.mem_append_right _
    (StmtKind.address?_subset hvalue (Option.mem_toList.mpr hsymbol)))

section

variable {rounds : Nat} {execute execute' : Executor} (h : site.Forwards program final)
variable (hlinked : program.WellLinked) (hcalls : program.CallsKnown)
variable (hexecute : RunAlike site program execute execute')

include h

theorem exists_renames (hready : site.Ready program held machine frame id) :
    ∃ rename, Renames site program final held frame id rename := by
  have hkind := h.kind id
  split at hkind
  · rename_i hbehind
    have hsteady := h.steady hbehind
    refine ⟨site.forward, agrees_forward h.same (hready.held.mpr hbehind),
      ⟨hkind, fun symbol hmem ↦ ?_⟩,
      fun _ ↦ hsteady⟩
    exact CopySite.forward_of_not_names (hsteady symbol hmem)
  · rename_i hbehind
    exact ⟨_, agrees_id h.same, ⟨hkind.trans (StmtKind.mapSymbols_id _).symm, fun _ _ ↦ rfl⟩,
      fun hframe ↦ absurd (hready.held.mp hframe) hbehind⟩

include hlinked hexecute

/-! ### Calls -/

theorem alike_call (hcopied : machine.Copied site held) {function : FnId}
    (hfunction : program.HasFunction function) {args : List Value}
    (hargs : AllAvoid site.hidden args) :
    Alike site held machine (Value.Avoids site.hidden)
      (call program limits execute function args) (call final limits execute' function args) := by
  unfold call
  rw [Program.function_of_same h.same, buildInstance_of_same h.same]
  apply Alike.bind (alike_countCall hcopied)
  intro _ counted hcounted _ _
  dsimp only
  split
  · exact alike_self hcounted (discreet_callExternal hcounted.hides) keepsFrames_callExternal
  split
  · exact alike_self hcounted (discreet_buildInstance hcounted.hides hargs)
      keepsFrames_buildInstance
  apply Alike.bind (alike_checkDepth hcounted)
  intro _ checked hchecked _ _
  have hheld : ¬ held checked.frames.size := fun hnew ↦
    Nat.lt_irrefl _ (hchecked.lt_size hnew)
  refine Alike.bind (.withFrame hchecked ⟨avoids_bindFormals hargs,
    fun _ hnone ↦ (Option.not_mem_none _ hnone).elim⟩
    fun hpushed ↦ hexecute.alike ⟨hpushed, ?_, by simp, hlinked.stands_body hfunction,
      iff_of_false hheld (h.not_behind_body hlinked hfunction)⟩) ?_
  · -- What a frame that belongs to no loop yields leads nowhere.
    refine .intro (fun horigin ↦ ?_) fun horigin ↦ ?_ <;>
      · rw [Machine.origin?_push rfl, if_pos rfl] at horigin
        cases horigin
  · rintro ⟨flow, left⟩ last hlast _ ⟨hflow, hleft⟩
    cases hflow with
    | ret hvalue => exact .pure hlast hvalue
    | normal =>
      refine .pure hlast ?_
      cases hresult : (program.function function).retSym.bind left.locals.find? with
      | none => trivial
      | some value =>
        obtain ⟨symbol, -, hfound⟩ := Option.bind_eq_some_iff.mp hresult
        exact hleft.locals hfound
    | goto =>
      dsimp only
      rw [Program.symbolName_of_same h.same]
      exact .throw

/-! ### Expressions -/

include hcalls

omit hlinked hexecute in
theorem alike_tableFunction (hcopied : machine.Copied site held) (slot : Value) :
    Alike site held machine program.HasFunction (tableFunction program slot)
      (tableFunction final slot) := by
  rw [tableFunction_of_same h.same]
  unfold tableFunction
  split
  · exact .throw
  · split
    · rename_i function hfunction
      obtain ⟨-, hslot⟩ := Option.ite_none_right_eq_some.mp hfunction
      exact .pure hcopied (hcalls.slot hslot)
    · exact .throw

theorem alike_expression (hcopied : machine.Copied site held) {rename : SymId → SymId}
    (hagrees : Agrees site program final held frame rename) {value : Expr}
    (hcallee : ∀ function ∈ value.callee?, program.HasFunction function)
    (haddress : ∀ symbol ∈ value.address?, rename symbol = symbol ∧ ¬ site.Names symbol) :
    Alike site held machine (Value.Avoids site.hidden)
      (expression program limits execute frame value)
      (expression final limits execute' frame (value.mapSymbols rename)) := by
  cases value with
  | use operand => exact alike_operand hcopied hagrees operand
  | prim op args =>
    apply Alike.bind (alike_operands hcopied hagrees args)
    intro values last hlast _ _
    exact alike_self hlast (discreet_primitive hlast.hides) (.of_looks looks_ofExcept)
  | call callee args =>
    apply Alike.bind (alike_operands hcopied hagrees args)
    intro values last hlast _ hvalues
    exact alike_call h hlinked hexecute hlast (hcallee callee rfl) hvalues
  | tableCall slot args =>
    apply Alike.bind (alike_operand hcopied hagrees slot)
    intro slot last hlast _ _
    apply Alike.bind (alike_tableFunction h hcalls hlast slot)
    intro callee last hlast _ hcallee
    apply Alike.bind (alike_operands hlast hagrees args)
    intro values last hlast _ hvalues
    exact alike_call h hlinked hexecute hlast hcallee hvalues
  | fieldAddress base field =>
    apply Alike.bind (alike_objectOf hcopied hagrees base)
    intro object last hlast _ _
    apply Alike.bind (alike_fieldIndex hlast hagrees)
    intro position last hlast _ _
    exact .pure hlast not_false
  | fieldValue base field =>
    apply Alike.bind (alike_objectOf hcopied hagrees base)
    intro object last hlast _ _
    apply Alike.bind (alike_fieldIndex hlast hagrees)
    intro position last hlast _ _
    exact .get_bind (.pure hlast (hlast.hides.fieldValue_avoids not_false))
  | cast type operand =>
    simp only [expression, Expr.mapSymbols, Program.type_of_same h.same]
    apply Alike.bind (alike_operand hcopied hagrees operand)
    intro value last hlast _ hvalue
    exact .pure hlast (avoids_castTo hvalue)
  | hasClass symbol type =>
    apply Alike.bind (alike_read hcopied hagrees symbol)
    intro value last hlast _ hvalue
    apply Alike.bind (alike_classOf? hlast hagrees hvalue)
    intro found last hlast _ _
    exact .pure hlast trivial
  | addressOf symbol =>
    obtain ⟨hrename, hsymbol⟩ := haddress symbol rfl
    simp only [expression, Expr.mapSymbols, hrename]
    exact .pure hcopied ⟨not_false, hsymbol⟩
  | deref symbol =>
    apply Alike.bind (alike_read hcopied hagrees symbol)
    intro value last hlast _ hvalue
    split
    · exact alike_load hlast hagrees hvalue
    · exact .throw

/-! ### Loops over iterators -/

omit hcalls in
/-- A yield runs the body of the loop that consumes the value. -/
theorem alike_yieldValue (hready : site.Ready program held machine frame id) {value : Value}
    (hvalue : value.Avoids site.hidden) :
    Alike site held machine (site.Leads program id)
      (yieldValue program execute rounds frame value)
      (yieldValue final execute' rounds frame value) := by
  unfold yieldValue
  apply Alike.get_bind
  split
  · exact .throw
  · rename_i target htarget
    obtain ⟨current, hcurrent, hyield⟩ := Option.bind_eq_some_iff.mp htarget
    have horigin : machine.origin? frame = some (current.function, some target) := by
      rw [Machine.origin?, hcurrent, Option.map_some, Frame.origin, hyield]
    obtain ⟨fits, next⟩ := hready.feeds
    have hfits := fits horigin
    apply Alike.bind (alike_setLocal hready.copied hvalue fun hheld ↦
      hfits.index (hfits.held.mp hheld))
    intro _ middle hmiddle hframes _
    have hloop : site.Ready program held machine target.frame target.loop :=
      ⟨hready.copied, next horigin, hfits.below.trans hready.live, hfits.stands, hfits.held⟩
    dsimp only
    apply Alike.bind (alike_members h hlinked hexecute (hloop.after hmiddle hframes))
    intro flow last hlast _ hflow
    cases hflow with
    | normal => exact .pure hlast .normal
    | ret => exact .unsupported
    | goto => exact .unsupported

/-- A loop runs its iterator in a frame whose yields lead to the loop. -/
theorem alike_naiveFor (hready : site.Ready program held machine frame id) {info : BlockInfo}
    (hindex : site.Behind program id → ∀ {index iterator},
      info.forHeader? = some (index, iterator) → ¬ site.Names index) :
    Alike site held machine (site.Leads program id)
      (naiveFor program limits execute frame id info)
      (naiveFor final limits execute' frame id info) := by
  have hcopied := hready.copied
  unfold naiveFor
  rw [Program.type_of_same h.same, Program.function_of_same h.same]
  split
  · exact .unsupported
  rename_i index iterator hheader
  apply Alike.get_bind
  have hobject : Alike site held machine (fun _ ↦ True) (objectOf program frame iterator)
      (objectOf final frame iterator) :=
    alike_objectOf hcopied (agrees_id h.same) iterator
  apply Alike.bind hobject
  intro object found hfound hframes _
  have hready := hready.after hfound hframes
  dsimp only
  split
  · exact .unsupported
  split
  · exact .unsupported
  rename_i function hiterator
  have hfunction := hcalls.iterator hiterator
  have hargs (headerFields : Nat) (formals : List SymId) :
      AllAvoid site.hidden (instanceArgs (machine.object object) headerFields formals) :=
    allAvoid_instanceArgs hcopied.hides not_false
  apply Alike.bind (alike_checkDepth hready.copied)
  intro _ checked hchecked hframes _
  have hready := hready.after hchecked hframes
  apply Alike.bind (alike_countCall hready.copied)
  intro _ counted hcounted hframes _
  have hready := hready.after hcounted hframes
  have hheld : ¬ held counted.frames.size := fun hnew ↦
    Nat.lt_irrefl _ (hcounted.lt_size hnew)
  refine Alike.bind (.withFrame hcounted
    ⟨avoids_bindFormals (hargs _ _), fun _ _ ↦ not_false⟩
    fun hpushed ↦ hexecute.alike ⟨hpushed, hready.feeds_push rfl fun hbehind ↦
      hindex hbehind hheader, by simp, hlinked.stands_body hfunction,
      iff_of_false hheld (h.not_behind_body hlinked hfunction)⟩) ?_
  rintro ⟨flow, left⟩ last hlast _ ⟨hflow, -⟩
  cases hflow with
  | normal => exact .pure hlast .normal
  | ret => exact .pure hlast .normal
  | goto =>
    dsimp only
    rw [Program.symbolName_of_same h.same]
    exact .throw

/-! ### Statements -/

theorem alike_action (hready : site.Ready program held machine frame id) {inner : Action}
    (hkind : program.kind id = .action inner) {rename : SymId → SymId}
    (hrenames : Renames site program final held frame id rename) :
    Alike site held machine (site.Leads program id)
      (action program limits execute rounds frame inner)
      (action final limits execute' rounds frame (inner.mapSymbols rename)) := by
  have hcopied := hready.copied
  have hagrees := hrenames.agrees
  have hnamed {symbol : SymId} (hsymbol : symbol ∈ inner.named?) := hrenames.named hkind hsymbol
  have hexpression {value : Expr} (hvalue : value ∈ inner.expression?) :
      Alike site held machine (Value.Avoids site.hidden)
        (expression program limits execute frame value)
        (expression final limits execute' frame (value.mapSymbols rename)) := by
    have hvalue : value ∈ (program.kind id).expression? := by rwa [hkind]
    exact alike_expression h hlinked hcalls hexecute hcopied hagrees
      (hcalls.callee hready.stands value hvalue) fun symbol hsymbol ↦
        ⟨hrenames.address hvalue hsymbol, h.reserves value hvalue symbol hsymbol⟩
  cases inner with
  | define symbol =>
    obtain ⟨hrename, hsymbol⟩ := hnamed rfl
    simp only [action, Action.mapSymbols, hrename, Program.symbol_of_same h.same,
      Program.symbolType_of_same h.same, defaultValue_of_same h.same]
    split
    · exact .pure hcopied .normal
    · apply Alike.bind (alike_self hcopied (discreet_defaultValue hcopied.hides)
        keepsFrames_defaultValue)
      intro value last hlast _ hvalue
      apply Alike.bind (alike_setLocal hlast hvalue hsymbol)
      intro _ last hlast _ _
      exact .pure hlast .normal
  | assign target value =>
    obtain ⟨hrename, htarget⟩ := hnamed rfl
    simp only [action, Action.mapSymbols, hrename]
    apply Alike.bind (hexpression rfl)
    intro value last hlast _ hvalue
    apply Alike.bind (alike_setLocal hlast hvalue htarget)
    intro _ last hlast _ _
    exact .pure hlast .normal
  | store reference value =>
    apply Alike.bind (alike_operand hcopied hagrees value)
    intro value last hlast _ hvalue
    apply Alike.bind (alike_read hlast hagrees reference)
    intro place last hlast _ hplace
    split
    · apply Alike.bind (alike_store hlast hplace hvalue)
      intro _ last hlast _ _
      exact .pure hlast .normal
    · exact .throw
  | setField base field value =>
    apply Alike.bind (alike_operand hcopied hagrees value)
    intro value last hlast _ hvalue
    apply Alike.bind (alike_objectOf hlast hagrees base)
    intro object last hlast _ _
    apply Alike.bind (alike_fieldIndex hlast hagrees)
    intro position last hlast _ _
    apply Alike.bind (alike_self hlast (discreet_setField hlast.hides not_false hvalue)
      (.modify fun _ ↦ rfl))
    intro _ last hlast _ _
    exact .pure hlast .normal
  | evaluate value =>
    apply Alike.bind (hexpression rfl)
    intro _ last hlast _ _
    exact .pure hlast .normal
  | yield value =>
    apply Alike.bind (alike_operand hcopied hagrees value)
    intro value last hlast hframes hvalue
    exact alike_yieldValue h hlinked hexecute (hready.after hlast hframes) hvalue
  | ret value =>
    apply Alike.bind (alike_operand hcopied hagrees value)
    intro value last hlast _ hvalue
    exact .pure hlast (.ret hvalue)
  | goto label =>
    simp only [action, Action.mapSymbols, (hnamed rfl).1]
    refine .pure hcopied (.goto ⟨id, .refl, ?_⟩)
    rw [hkind]
    rfl
  | fail message => exact .throw
  | noop => exact .pure hcopied .normal

omit hcalls in
theorem alike_branch (hready : site.Ready program held machine frame id) {condition : Operand}
    {thenBlock : StmtId} {elseBlock : Option StmtId}
    (hkind : program.kind id = .branch condition thenBlock elseBlock) {rename : SymId → SymId}
    (hagrees : Agrees site program final held frame rename)
    (hkind' : final.kind id = .branch (condition.mapSymbols rename) thenBlock elseBlock) :
    Alike site held machine (site.Leads program id)
      (statement program limits execute rounds frame id)
      (statement final limits execute' rounds frame id) := by
  have hne : id ≠ site.block := by
    rintro rfl
    have hmembers := h.members
    rw [Program.blockBody, hkind] at hmembers
    exact List.append_ne_nil_of_right_ne_nil _ (List.cons_ne_nil _ _) hmembers.symm
  have hinner {machine : Machine} (hready : site.Ready program held machine frame id)
      {child : StmtId} (hchild : child ∈ (StmtKind.branch condition thenBlock elseBlock).children) :
      Alike site held machine (site.Leads program id) (execute frame child)
        (execute' frame child) := by
    rw [← hkind] at hchild
    exact alike_outward (hlinked.parent_of_child hchild)
      (hexecute.alike (hready.inner hlinked hchild (h.behind_child hlinked hne hchild)))
  unfold statement
  rw [hkind, hkind']
  apply Alike.bind (alike_truth hready.copied hagrees condition)
  intro holds last hlast hframes _
  have hlast := hready.after hlast hframes
  split
  · exact hinner hlast List.mem_cons_self
  · cases elseBlock with
    | some elseBlock => exact hinner hlast (List.mem_cons_of_mem _ (List.mem_singleton_self _))
    | none => exact .pure hlast.copied .normal

theorem alike_statement (hready : site.Ready program held machine frame id) :
    Alike site held machine (site.Leads program id)
      (statement program limits execute rounds frame id)
      (statement final limits execute' rounds frame id) := by
  obtain ⟨rename, hrenames⟩ := exists_renames h hready
  have hagrees := hrenames.agrees
  have hkind' := hrenames.rereads.eq
  have hmembers {machine : Machine} (hready : site.Ready program held machine frame id)
      {info info' : Option BlockInfo} {body : List StmtId}
      (hkind : program.kind id = .block info body) (hkind' : final.kind id = .block info' body) :
      Alike site held machine (site.Leads program id)
        (runList program (execute frame) body rounds body)
        (runList final (execute' frame) body rounds body) := by
    have halike := @alike_members _ _ _ _ _ _ _ rounds _ _ h hlinked hexecute hready
    rwa [Program.blockBody_of_kind hkind, Program.blockBody_of_kind hkind'] at halike
  cases hkind : program.kind id with
  | action inner =>
    rw [hkind] at hkind'
    unfold statement
    rw [hkind, hkind']
    exact alike_action h hlinked hcalls hexecute hready hkind hrenames
  | branch condition thenBlock elseBlock =>
    rw [hkind] at hkind'
    exact alike_branch h hlinked hexecute hready hkind hagrees hkind'
  | block info body =>
    rw [hkind] at hkind'
    rcases info with _ | (header | condition | _ | _ | _)
    · rw [statement_of_plain hkind rfl, statement_of_plain hkind' rfl]
      exact hmembers hready hkind hkind'
    · have hfixed := hrenames.rereads.fixed
      rw [hkind] at hfixed
      have hheader : header.map (Operand.mapSymbols rename) = header :=
        (map_mapSymbols_congr fun symbol hsymbol ↦ hfixed symbol hsymbol).trans
          (map_mapSymbols_id header)
      rw [StmtKind.mapSymbols, Option.map_some, BlockInfo.mapSymbols, hheader] at hkind'
      unfold statement
      rw [hkind, hkind']
      refine alike_naiveFor h hlinked hcalls hexecute hready fun hbehind index iterator hfound ↦ ?_
      have hsteady := h.steady hbehind index
      rw [hkind] at hsteady
      exact hsteady (mem_of_forHeader? hfound).1
    · unfold statement
      rw [hkind, hkind']
      exact alike_runWhile hready (fun hcopied ↦ alike_truth hcopied hagrees condition)
        fun hready ↦ hmembers hready hkind hkind'
    all_goals
      rw [statement_of_plain hkind rfl, statement_of_plain hkind' rfl]
      exact hmembers hready hkind hkind'

end

/-- What a run of the copy leaves. -/
theorem copies_execute (h : site.Forwards program final) {fuel : Nat} {flow : Flow}
    (hrun : execute program limits fuel frame site.copy machine = .ok flow last) :
    flow = .normal ∧ ∃ value, last.local? frame site.target = some value ∧
      last.local? frame site.source = some value := by
  cases fuel with
  | zero => cases hrun
  | succ fuel =>
    obtain ⟨⟨⟩, ticked, -, hrun⟩ := exists_of_bind_eq_ok hrun
    unfold statement at hrun
    rw [h.copy] at hrun
    obtain ⟨value, read, hread, hrun⟩ := exists_of_bind_eq_ok hrun
    cases hrun
    have hsource := local?_of_read hread
    obtain rfl := looks_read _ _ _ hread
    refine ⟨rfl, value, Machine.local?_setLocal_self (Machine.lt_size_of_local? hsource), ?_⟩
    rw [Machine.local?_setLocal_of_ne h.ne.symm, hsource]

theorem runAlike_execute (h : site.Forwards program final) (hlinked : program.WellLinked)
    (hcalls : program.CallsKnown) {fuel : Nat} :
    RunAlike site program (execute program limits fuel) (execute final limits fuel) := by
  refine ⟨?_, copies_execute h⟩
  induction fuel with
  | zero =>
    intro held machine frame id _
    exact .throw
  | succ fuel ih =>
    intro held machine frame id hready
    apply Alike.bind (alike_tick hready.copied)
    intro _ ticked hticked hframes _
    exact alike_statement h hlinked hcalls ⟨ih, copies_execute h⟩ (hready.after hticked hframes)

end Eval

/-- A call on a machine without references to the variables of the copy runs alike. -/
theorem CopySite.Forwards.run_eq (h : site.Forwards program final) (hlinked : program.WellLinked)
    (hcalls : program.CallsKnown) (hhides : machine.Hides site.hidden) {function : FnId}
    (hfunction : program.HasFunction function) {args : List Value}
    (hargs : ∀ arg ∈ args, arg.Avoids site.hidden) :
    machine.run final limits function args = machine.run program limits function args := by
  have hcopied : machine.Copied site fun _ ↦ False := ⟨hhides, False.elim⟩
  exact (Eval.alike_call h hlinked (Eval.runAlike_execute h hlinked hcalls) hcopied hfunction
    hargs).eq

end IteratorLowering
