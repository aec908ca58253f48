import IteratorLowering.Proofs.Simulation.Follows

/-!
# Storage and operations that follow one another

What runs no statement does the same on machines that correspond: a variable that is kept, and
does not wait, is read and written alike, and so are the fields of corresponding objects; default
values are made for both; and a call of an external function shows like values.
-/

set_option autoImplicit false
set_option relaxedAutoImplicit false

namespace IteratorLowering

namespace Eval

variable {c : Correspondence} {pace : Pace} {early : List Early} {floor frame : Nat}
variable {objects : ObjId → ObjId → Prop} {machine machine' : Machine}

/-- The symbols are kept, and none of them waits at the depth. -/
structure Ready (c : Correspondence) (early : List Early) (frame : Nat) (symbols : List SymId) :
    Prop where
  kept : c.Reads symbols
  isOpen : ∀ symbol ∈ symbols, Open early frame symbol

namespace Ready

variable {symbol : SymId} {first second : List SymId}

theorem singleton (h : Ready c early frame [symbol]) :
    c.kept symbol ∧ Open early frame symbol :=
  ⟨h.kept symbol (List.mem_singleton.mpr rfl), h.isOpen symbol (List.mem_singleton.mpr rfl)⟩

theorem left (h : Ready c early frame (first ++ second)) : Ready c early frame first :=
  ⟨fun symbol hsymbol ↦ h.kept symbol (List.mem_append_left _ hsymbol),
    fun symbol hsymbol ↦ h.isOpen symbol (List.mem_append_left _ hsymbol)⟩

theorem right (h : Ready c early frame (first ++ second)) : Ready c early frame second :=
  ⟨fun symbol hsymbol ↦ h.kept symbol (List.mem_append_right _ hsymbol),
    fun symbol hsymbol ↦ h.isOpen symbol (List.mem_append_right _ hsymbol)⟩

end Ready

section

variable (hc : c.Sound) (h : machine.Like c pace early floor objects machine')

include hc h

theorem follows_read {symbol : SymId} (hsymbol : Ready c early frame [symbol]) :
    Follows c pace early floor objects machine machine' (LikeValue c)
      (read c.source frame symbol) fun _ ↦ read c.target frame (c.rename symbol) := by
  obtain ⟨hkept, hopen⟩ := hsymbol.singleton
  have hvalue := h.value hkept hopen
  unfold read
  apply Follows.get_bind
  unfold Machine.local? at hvalue
  cases hheld : machine.frames[frame]? with
  | none =>
    have hsize := Array.getElem?_eq_none_iff.mp hheld
    rw [Array.getElem?_eq_none (h.size ▸ hsize)]
    exact .unsupported h
  | some held =>
    obtain ⟨held', hheld', hfunction, -⟩ := h.frame hheld
    rw [hheld, hheld', Option.bind_some, Option.bind_some] at hvalue
    rw [hheld']
    dsimp only
    revert hvalue
    generalize held.locals.find? symbol = value, held'.locals.find? (c.rename symbol) = value'
    intro hvalue
    cases hvalue with
    | some hvalue => exact .pure h hvalue
    | none =>
      dsimp only
      rw [hc.symbolName (hc.named hkept), hc.functionName, hfunction]
      exact .throw h (.other nofun)

theorem follows_load {place place' : Place} (hplace : Place.Like objects c.names place place') :
    Follows c pace early floor objects machine machine' (LikeValue c)
      (load c.source place) fun _ ↦ load c.target place' := by
  cases hplace with
  | slot hnames =>
    obtain ⟨hshared, rfl⟩ := hnames
    -- No variable that waits is shared.
    refine follows_read hc h ⟨List.forall_mem_singleton.mpr (hc.kept hshared),
      List.forall_mem_singleton.mpr fun entry hentry _ heq ↦ ?_⟩
    exact (h.waits entry hentry).unshared (heq ▸ hshared)
  | field hid => exact .get_bind (.pure h ((h.object hid).getD _))

theorem follows_setLocal {symbol : SymId} (hopen : Open early frame symbol) {value value' : Value}
    (hvalue : LikeValue c objects value value') :
    Follows c pace early floor objects machine machine' (α := PUnit) (β := PUnit) Any
      (modify fun machine ↦ machine.setLocal frame symbol value)
      fun _ ↦ modify fun machine ↦ machine.setLocal frame (c.rename symbol) value' :=
  .modify ⟨h.setLocal hc hopen hvalue, le_rfl, .setLocal machine frame symbol value⟩

omit hc in
theorem follows_setField {id id' : ObjId} (hid : objects id id') {position : Nat}
    {value value' : Value} (hvalue : LikeValue c objects value value') :
    Follows c pace early floor objects machine machine' (α := PUnit) (β := PUnit) Any
      (modify fun machine ↦ machine.setField id position value)
      fun _ ↦ modify fun machine ↦ machine.setField id' position value' :=
  .modify ⟨h.setField hid hvalue, le_rfl, .of_eq rfl⟩

omit hc in
theorem follows_countCall {function : FnId} :
    Follows c pace early floor objects machine machine' (α := PUnit) (β := PUnit) Any
      (modify fun machine ↦ machine.countCall function)
      fun _ ↦ modify fun machine ↦ machine.countCall function :=
  .modify ⟨h.countCall function, le_rfl, .of_eq rfl⟩

theorem follows_store {place place' : Place} (hplace : Place.Like objects c.names place place')
    {value value' : Value} (hvalue : LikeValue c objects value value') :
    Follows c pace early floor objects machine machine' Any
      (store place value) fun _ ↦ store place' value' := by
  cases hplace with
  | slot hnames =>
    obtain ⟨hshared, rfl⟩ := hnames
    apply Follows.get_bind
    rw [h.size]
    split
    · refine follows_setLocal hc h (fun entry hentry _ heq ↦ ?_) hvalue
      exact (h.waits entry hentry).unshared (heq ▸ hshared)
    · exact .unsupported h
  | field hid => exact follows_setField h hid hvalue

theorem follows_objectOf {symbol : SymId} (hsymbol : Ready c early frame [symbol]) :
    Follows c pace early floor objects machine machine' Linked
      (objectOf c.source frame symbol) fun _ ↦ objectOf c.target frame (c.rename symbol) := by
  unfold objectOf
  apply Follows.bind (follows_read hc h hsymbol)
  intro objects' middle middle' value value' hreaches hvalue
  cases hvalue with
  | obj hid => exact .pure hreaches.like hid
  | ref hplace =>
    apply Follows.bind (follows_load hc hreaches.like hplace)
    intro objects' middle middle' value value' hreaches hvalue
    cases hvalue with
    | obj hid => exact .pure hreaches.like hid
    | _ => exact .throw hreaches.like (.typeMismatch (by constructor <;> assumption))
  | _ => exact .throw hreaches.like (.typeMismatch (by constructor))

theorem follows_fieldIndex {id id' : ObjId} (hid : objects id id') {field : FieldRef} :
    Follows c pace early floor objects machine machine' Same
      (fieldIndex c.source id field) fun _ ↦ fieldIndex c.target id' field := by
  have hobject := h.object hid
  unfold fieldIndex
  apply Follows.get_bind
  dsimp only
  rw [hobject.type, hobject.size, hc.type]
  split
  · exact .pure h rfl
  · exact .throw h (.other nofun)

theorem follows_operand {operand : Operand} (hoperand : Ready c early frame operand.symbols) :
    Follows c pace early floor objects machine machine' (LikeValue c)
      (Eval.operand c.source frame operand)
      fun _ ↦ Eval.operand c.target frame (operand.mapSymbols c.rename) := by
  cases operand with
  | sym symbol => exact follows_read hc h hoperand
  | lit value =>
    cases value with
    | int number => exact .pure h (.int number)
    | bool holds => exact .pure h (.bool holds)
    | str text => exact .pure h (.str text)
    | void => exact .pure h .void

theorem follows_operands {operands : List Operand}
    (hoperands : Ready c early frame (operandSymbols operands)) :
    Follows c pace early floor objects machine machine' (LikeValues c)
      (operands.mapM (Eval.operand c.source frame))
      fun _ ↦ (operands.map (Operand.mapSymbols c.rename)).mapM (Eval.operand c.target frame) := by
  induction operands generalizing objects machine machine' with
  | nil => exact .pure h .nil
  | cons operand rest ih =>
    simp only [List.map_cons, List.mapM_cons]
    apply Follows.bind (follows_operand hc h hoperands.left)
    intro objects' middle middle' value value' hreaches hvalue
    apply Follows.bind (ih hreaches.like hoperands.right)
    intro objects'' final final' values values' hreaches' hvalues
    exact .pure hreaches'.like (.cons (hvalue.mono hreaches'.objects le_rfl) hvalues)

theorem follows_truth {condition : Operand} (hcondition : Ready c early frame condition.symbols) :
    Follows c pace early floor objects machine machine' Same
      (truth c.source frame condition)
      fun _ ↦ truth c.target frame (condition.mapSymbols c.rename) := by
  unfold truth
  apply Follows.bind (follows_operand hc h hcondition)
  intro objects' middle middle' value value' hreaches hvalue
  rw [Value.Like.asBool? hvalue]
  split
  · exact .pure hreaches.like rfl
  · exact .throw hreaches.like (.typeMismatch hvalue)

/-! ### Values that are made -/

omit h in
theorem newObject_eq (id : TypeId) : c.target.newObject id = c.source.newObject id := by
  simp only [Program.newObject, hc.type]

omit hc h in
theorem defaultValue_eq (program : Program) (id : TypeId) :
    defaultValue program id =
      if (program.type id).isAggregate then do
        let object ← modifyGet fun machine ↦ machine.allocate id (program.newObject id).fields
        return .obj object
      else return fieldDefault (program.type id).kind :=
  rfl

theorem follows_defaultValue (hheaps : ∀ {size size'}, pace.heaps size size' →
    pace.heaps (size + 1) (size' + 1)) {type : TypeId} :
    Follows c pace early floor objects machine machine' (LikeValue c)
      (defaultValue c.source type) fun _ ↦ defaultValue c.target type := by
  simp only [defaultValue_eq, hc.type, newObject_eq hc]
  split
  · have hfields : ∀ position : Nat, Option.Rel (Value.Like objects c.names)
        (c.source.newObject type).fields[position]?
          (c.source.newObject type).fields[position]? := by
      intro position
      simp only [Program.newObject, List.getElem?_toArray, List.getElem?_map]
      cases (c.source.type type).fields[position]? with
      | none => exact .none
      | some field => exact .some (fieldDefault_like _)
    exact .done rfl (.of_forall fun _ ↦ rfl)
      ⟨h.allocate (hheaps h.heaps) hfields, le_link, .of_eq rfl⟩ (.obj link_self)
  · exact .pure h (fieldDefault_like _)

omit hc in
theorem follows_ofExcept {α β : Type} {kind : (ObjId → ObjId → Prop) → α → β → Prop}
    {first : Except EvalError α} {second : Except EvalError β}
    (hagree : Agree (EvalError.Like objects c.names) (kind objects) first second) :
    Follows c pace early floor objects machine machine' kind (ofExcept first)
      fun _ ↦ ofExcept second := by
  cases hagree with
  | ok hkind => exact .pure h hkind
  | error herror => exact .throw h herror

/-! ### Calls that run no body -/

omit hc in
theorem follows_callExternal {name : String} {args args' : List Value}
    (hargs : LikeValues c objects args args') :
    Follows c pace early floor objects machine machine' (LikeValue c)
      (callExternal name args) fun _ ↦ callExternal name args' := by
  unfold callExternal
  split
  · apply Follows.bind (.modify ⟨h.trace hargs, le_rfl, .of_eq rfl⟩)
    intro objects' final final' _ _ hreaches _
    exact .pure hreaches.like .void
  · exact .unsupported h

omit hc in
theorem follows_fillFields {id id' : ObjId} (hid : objects id id') {position : Nat}
    {values values' : List Value} (hvalues : LikeValues c objects values values') :
    Follows c pace early floor objects machine machine' Any
      (fillFields id position values) fun _ ↦ fillFields id' position values' := by
  induction values generalizing objects position machine machine' values' with
  | nil =>
    cases hvalues
    exact .pure h trivial
  | cons value rest ih =>
    cases hvalues with
    | cons hvalue hrest =>
      apply Follows.bind (follows_setField h hid hvalue)
      intro objects' middle middle' _ _ hreaches _
      exact ih hreaches.like (hreaches.objects _ _ hid) (LikeValues.mono hrest hreaches.objects)

theorem follows_buildInstance (hheaps : ∀ {size size'}, pace.heaps size size' →
    pace.heaps (size + 1) (size' + 1)) {definition definition' : FnDef}
    (hname : definition'.name = definition.name)
    (hinfo : definition'.iteratorInfo = definition.iteratorInfo) {args args' : List Value}
    (hargs : LikeValues c objects args args') :
    Follows c pace early floor objects machine machine' (LikeValue c)
      (buildInstance c.source definition args)
        fun _ ↦ buildInstance c.target definition' args' := by
  unfold buildInstance
  rw [hinfo, hname]
  split
  · exact .unsupported h
  · rename_i info _
    apply Follows.bind (follows_defaultValue hc h hheaps)
    intro objects' middle middle' record record' hreaches hrecord
    cases hrecord with
    | obj hid =>
      simp only [hc.type]
      apply Follows.bind (follows_fillFields hreaches.like hid
        (hargs.mono hreaches.objects))
      intro objects'' final final' _ _ hreaches' _
      exact .pure hreaches'.like (.obj (hreaches'.objects _ _ hid))
    | _ => exact .throw hreaches.like (.typeMismatch (by constructor <;> assumption))

theorem follows_tableFunction {slot slot' : Value} (hslot : LikeValue c objects slot slot') :
    Follows c pace early floor objects machine machine'
      (fun _ function function' ↦ function' = function ∧ c.called function)
      (tableFunction c.source slot) fun _ ↦ tableFunction c.target slot' := by
  unfold tableFunction
  rw [Value.Like.asInt? hslot, hc.table]
  split
  · exact .throw h (.typeMismatch hslot)
  · split
    · rename_i function hfunction
      refine .pure h ⟨rfl, ?_⟩
      split at hfunction
      · exact hc.slot hfunction
      · cases hfunction
    · exact .throw h (.other nofun)

theorem follows_classOf? {value value' : Value} (hvalue : LikeValue c objects value value') :
    Follows c pace early floor objects machine machine' Same
      (classOf? c.source value) fun _ ↦ classOf? c.target value' := by
  unfold classOf?
  extract_lets rest
  have hrest {objects : ObjId → ObjId → Prop} {final final' : Machine}
      (hfinal : final.Like c pace early floor objects final') {seen seen' : Value}
      (hseen : LikeValue c objects seen seen') :
      Follows c pace early floor objects final final' Same (rest seen) fun _ ↦ rest seen' := by
    cases hseen with
    | obj hid =>
      refine .get_bind (.pure hfinal ?_)
      exact congrArg some (hfinal.object hid).type
    | _ => exact .pure hfinal rfl
  cases hvalue with
  | ref hplace =>
    apply Follows.bind (follows_load hc h hplace)
    intro objects' final final' seen seen' hreaches hseen
    exact hrest hreaches.like hseen
  | obj hid => exact hrest h (.obj hid)
  | _ => exact hrest h (by constructor)

end

end Eval

end IteratorLowering
