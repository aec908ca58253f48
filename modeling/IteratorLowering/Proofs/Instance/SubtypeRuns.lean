import IteratorLowering.Proofs.Dispatch.Stepping
import IteratorLowering.Proofs.Instance.SubtypeTests

/-!
# Running the tests for subtypes

The tests for the subtypes of a record look at the class of the object in its first field. The first
subtype with this class gets a new record, each of whose fields is the field of the same name, cast
where the types differ (`SubtypeCase.CopiesByName`), and the instance made from it is returned
(`Eval.Delegates`). If no subtype has the class, nothing but variables of the tests has changed when
the statements after them are reached.
-/

set_option autoImplicit false
set_option relaxedAutoImplicit false

namespace IteratorLowering

/-- The value that a field is copied to. -/
def FieldCopy.value (program : Program) (fields : Array Value) (copy : FieldCopy) : Value :=
  let value := fields.getD copy.source .nil
  if copy.sourceType = copy.targetType then value
  else Eval.castTo (program.type copy.targetType).kind value

namespace SubtypeCase

/-- The fields of a record that is rebuilt as one of a subtype. -/
def fieldsFrom (program : Program) (fields : Array Value) (subtype : SubtypeCase) : Array Value :=
  (subtype.copies.map (FieldCopy.value program fields)).toArray

/-- The fields of rebuilt records are those of the base record with the same names, cast where the
types of the two fields differ. -/
def CopiesByName (program lowered : Program) (base child : TypeId) (subtype : SubtypeCase) : Prop :=
  ∀ (fields : Array Value) {position : Nat} {field : FieldDef},
    (program.type child).field? position = some field →
      ∃ source sourceField, (program.type base).fieldNamed? field.name = some source ∧
        (program.type base).field? source = some sourceField ∧
          (subtype.fieldsFrom lowered fields)[position]? =
            some (if sourceField.type = field.type then fields.getD source .nil
              else Eval.castTo (program.type field.type).kind (fields.getD source .nil))

/-- The fields of a subtype's record are all copied, in turn, from fields that there are. -/
structure Complete (program : Program) (held : Object) (subtype : SubtypeCase) : Prop where
  isAggregate : (program.type subtype.record).isAggregate = true
  targets : subtype.copies.map FieldCopy.target =
    List.range (program.type subtype.record).fields.length
  sources : ∀ copy ∈ subtype.copies, copy.source < held.fields.size

end SubtypeCase

namespace Program.Describes

variable {program lowered : Program} {base child : TypeId} {subtype : SubtypeCase}

theorem targets_eq (h : program.Describes base child subtype) :
    subtype.copies.map FieldCopy.target = List.range (program.type child).fields.length := by
  have htargets : subtype.copies.map FieldCopy.target =
      (program.type child).fields.zipIdx.map Prod.snd := by
    refine List.forall₂_eq_eq_eq ▸ List.forall₂_map_left_iff.mpr (List.forall₂_map_right_iff.mpr ?_)
    exact h.copies.flip.imp fun _ _ hcopy ↦ hcopy.target
  rw [htargets, List.zipIdx_map_snd, List.range_eq_range']

/-- The record of a described subtype can be rebuilt from a record of the base type. -/
theorem complete (h : program.Describes base child subtype) (htypes : lowered.types = program.types)
    (haggregate : (program.type child).isAggregate = true) {held : Object}
    (hsize : held.fields.size = (program.type base).fields.length) :
    subtype.Complete lowered held := by
  have htype : lowered.type subtype.record = program.type child := by
    rw [Program.type, htypes, h.record, ← Program.type]
  refine ⟨by rwa [htype], by rw [htype, h.targets_eq], fun copy hcopy ↦ ?_⟩
  obtain ⟨position, hposition, rfl⟩ := List.mem_iff_getElem.mp hcopy
  have hcopied := h.copies.get (h.copies.length_eq ▸ hposition) hposition
  obtain ⟨sourceField, hsource, -⟩ := hcopied.sourceType
  exact hsize ▸ (List.getElem?_eq_some_iff.mp hsource).1

/-- A rebuilt record has in each field the value of the base record's field of the same name, cast
if the types of the two fields differ. -/
theorem copiesByName (h : program.Describes base child subtype)
    (htypes : lowered.types = program.types) : subtype.CopiesByName program lowered base child := by
  intro fields position field hfield
  obtain ⟨hposition, rfl⟩ := List.getElem?_eq_some_iff.mp hfield
  have hlength := h.copies.length_eq
  rw [List.length_zipIdx] at hlength
  have hcopy : position < subtype.copies.length := hlength ▸ hposition
  have hcopied := h.copies.get (by rwa [List.length_zipIdx]) hcopy
  simp only [List.get_eq_getElem, List.getElem_zipIdx] at hcopied
  obtain ⟨sourceField, hsource, hsourceType⟩ := hcopied.sourceType
  refine ⟨_, sourceField, hcopied.source, hsource, ?_⟩
  have htype (type : TypeId) : lowered.type type = program.type type := by
    rw [Program.type, htypes, ← Program.type]
  rw [SubtypeCase.fieldsFrom, List.getElem?_toArray, List.getElem?_map,
    List.getElem?_eq_getElem hcopy, Option.map_some, FieldCopy.value, hsourceType,
    hcopied.targetType, htype]

end Program.Describes

/-- Writing consecutive fields one by one fills them in. -/
theorem foldl_setIfInBounds (program : Program) (held : Array Value) {copies : List FieldCopy}
    {offset : Nat} {fields : Array Value} (hsize : fields.size = offset + copies.length)
    (htargets : copies.map FieldCopy.target = List.range' offset copies.length) :
    (copies.foldl (fun fields copy ↦ fields.setIfInBounds copy.target (copy.value program held))
      fields).toList = fields.toList.take offset ++ copies.map (FieldCopy.value program held) := by
  induction copies generalizing offset fields with
  | nil =>
    have hlength : fields.toList.length ≤ offset := by simpa using Nat.le_of_eq hsize
    simp [List.take_of_length_le hlength]
  | cons copy rest ih =>
    rw [List.map_cons, List.length_cons, List.range'_succ] at htargets
    obtain ⟨htarget, hrest⟩ := List.cons.inj htargets
    rw [List.length_cons] at hsize
    have hoffset : offset < fields.toList.length := by
      rw [Array.length_toList]
      omega
    rw [List.foldl_cons, ih (by rw [Array.size_setIfInBounds]; omega) hrest, htarget,
      Array.toList_setIfInBounds, List.take_add_one, List.take_set_of_le (Nat.le_refl _),
      List.getElem?_set_self hoffset, List.map_cons, List.append_assoc]
    rfl

namespace Machine

variable {program lowered : Program} {frame : Nat} {start now bound : Machine}
  {target symbol : SymId}
variable {object : ObjId} {type : TypeId} {fields : Array Value} {index : Nat} {value : Value}

/-- A variable holds an object that was added, and otherwise only variables that the program does
not know have changed. -/
structure Fills (start : Machine) (program : Program) (frame : Nat) (target : SymId)
    (object : ObjId) (type : TypeId) (fields : Array Value) (now : Machine) : Prop where
  aside : start.Aside (fun symbol ↦ ¬ program.HasSymbol symbol) frame now
  new : start.heap.size ≤ object.index
  local_eq : now.local? frame target = some (.obj object)
  object : now.heap[object.index]? = some { type, fields }

theorem Fills.bind (h : start.Fills program frame target object type fields now)
    (hbound : now.Aside (· = symbol) frame bound) (hsymbol : program.Temporary lowered symbol)
    (hne : symbol ≠ target) : start.Fills program frame target object type fields bound where
  aside := h.aside.trans (hbound.of_temporary hsymbol)
  new := h.new
  local_eq := (hbound.kept (.inr hne.symm)).trans h.local_eq
  object := hbound.object h.object

theorem Fills.tick (h : start.Fills program frame target object type fields now) :
    start.Fills program frame target object type fields { now with steps := now.steps + 1 } :=
  { h with aside := h.aside.trans (.tick _ frame now) }

theorem Fills.setField (h : start.Fills program frame target object type fields now) :
    start.Fills program frame target object type (fields.setIfInBounds index value)
      (now.setField object index value) where
  aside := h.aside.setField h.new
  new := h.new
  local_eq := h.local_eq
  object := by
    rw [Machine.setField, Array.getElem?_modify, if_pos rfl, h.object]
    rfl

/-- The first field of a record holds an object of a class. -/
def Tagged (machine : Machine) (program : Program) (held : Object) (type : TypeId) : Prop :=
  0 < held.fields.size ∧ ∃ (object : ObjId) (carried : Object),
    machine.Denotes program object (held.fields.getD 0 .nil) ∧
      machine.heap[object.index]? = some carried ∧ carried.type = type

/-- The declaration of a variable of a record type adds a record. -/
theorem fills_declared
    (htype : (lowered.type (lowered.symbolType symbol)).isAggregate = true)
    (hsymbol : program.Temporary lowered symbol) (hframe : frame < now.frames.size)
    (hnow : start.Aside (fun symbol ↦ ¬ program.HasSymbol symbol) frame now) :
    ∃ object fields, fields.size = (lowered.type (lowered.symbolType symbol)).fields.length ∧
      start.Fills program frame symbol object (lowered.symbolType symbol) fields
        (now.declared lowered frame symbol) := by
  obtain ⟨fields, hsize, hdeclared⟩ := declared_of_isAggregate frame now htype
  refine ⟨⟨now.heap.size⟩, fields, hsize, hnow.trans (.declared lowered hsymbol.new),
    hnow.size_heap, ?_, ?_⟩
  · rw [hdeclared]
    exact local?_setLocal_self hframe
  · rw [hdeclared]
    exact Array.getElem?_push_size

end Machine

namespace Eval

open Machine

variable {program lowered : Program} {limits : Limits} {frame fuel rounds : Nat}
variable {start now : Machine} {goal : EStateM.Result EvalError Machine Flow → Prop}
variable {source target : SymId} {object new : ObjId} {held : Object} {type : TypeId}
variable {fields : Array Value} {ids rest body : List StmtId}

/-! ### Copies -/

/-- A field of the new record is written. -/
theorem excuses_setField {id : StmtId} {symbol : SymId} {index : Nat} {value : Value}
    (hgoal : Excuses limits (fun symbol ↦ ¬ program.HasSymbol symbol) frame start goal)
    (hkind : lowered.kind id = .action (.setField target (.index index) (.sym symbol)))
    (hfills : start.Fills program frame target new type fields now)
    (hvalue : now.local? frame symbol = some value) (hindex : index < fields.size)
    (hfuel : limits.Covers fuel now.steps) (hrounds : limits.Covers rounds now.steps)
    (hrest : ∀ {after rounds},
      start.Fills program frame target new type (fields.setIfInBounds index value) after →
        limits.Covers fuel after.steps → limits.Covers rounds after.steps →
          goal (runList lowered (execute lowered limits fuel frame) body rounds rest after)) :
    goal (runList lowered (execute lowered limits fuel frame) body rounds (id :: rest) now) := by
  let ticked : Machine := { now with steps := now.steps + 1 }
  have hticked : start.Fills program frame target new type fields ticked := hfills.tick
  have haction (execute : Executor) (rounds : Nat) : action lowered limits execute rounds frame
      (.setField target (.index index) (.sym symbol)) ticked =
        .ok .normal (ticked.setField new index value) := by
    have hoperand : operand lowered frame (.sym symbol) ticked = .ok value ticked :=
      operand_of_local? hvalue
    refine (bind_of_ok hoperand).trans ((bind_of_ok (objectOf_of_local? hticked.local_eq)).trans ?_)
    exact bind_of_ok (fieldIndex_of_lt hticked.object hindex)
  exact hgoal.member hfills.aside hfuel hrounds hkind haction (Nat.le_refl _) fun _ ↦
    hrest hticked.setField

/-- A field is copied from a record to the new one. -/
theorem excuses_copiesField {copy : FieldCopy}
    (hgoal : Excuses limits (fun symbol ↦ ¬ program.HasSymbol symbol) frame start goal)
    (hcopy : program.CopiesField lowered source target copy ids)
    (hrecord : start.LeadsTo program frame source object held)
    (hsymbol : program.HasSymbol source) (hsource : copy.source < held.fields.size)
    (hfills : start.Fills program frame target new type fields now)
    (htarget : copy.target < fields.size) (hfuel : limits.Covers fuel now.steps)
    (hrounds : limits.Covers rounds now.steps)
    (hrest : ∀ {after rounds}, start.Fills program frame target new type
      (fields.setIfInBounds copy.target (copy.value lowered held.fields)) after →
        limits.Covers fuel after.steps → limits.Covers rounds after.steps →
          goal (runList lowered (execute lowered limits fuel frame) body rounds rest after)) :
    goal (runList lowered (execute lowered limits fuel frame) body rounds (ids ++ rest) now) := by
  have hframe := lt_size_of_local? hfills.local_eq
  have hfield {value : SymId} {bound : Machine} (execute : Executor)
      (hvalue : program.Temporary lowered value) (hne : value ≠ target)
      (hbound : now.Aside (· = value) frame bound) :
      expression lowered limits execute frame (.fieldValue source (.index copy.source)) bound =
        .ok (held.fields.getD copy.source .nil) bound :=
    expression_fieldValue (hrecord.aside hsymbol (hfills.bind hbound hvalue hne).aside) hsource
  cases hcopy with
  | @plain declare read write value hvalue hne hdeclare hread hwrite htype =>
    refine hgoal.declareAssign hfills.aside hfuel hrounds hvalue.notLabel hvalue.new hdeclare hread
      hframe (fun execute hbound ↦ hfield execute hvalue hne hbound)
      fun hbound hlocal hfuel hrounds ↦ ?_
    rw [FieldCopy.value, if_pos htype] at hrest
    exact excuses_setField hgoal hwrite (hfills.bind hbound hvalue hne) hlocal htarget hfuel hrounds
      hrest
  | @cast declare read declareCast convert write value converted
      hvalue hne hdeclare hread hconverted hneCast hapart hdeclareCast hconvert hwrite htype =>
    refine hgoal.declareAssign hfills.aside hfuel hrounds hvalue.notLabel hvalue.new hdeclare hread
      hframe (fun execute hbound ↦ hfield execute hvalue hne hbound)
      fun {middle _} hbound hlocal hfuel hrounds ↦ ?_
    have hmiddle := hfills.bind hbound hvalue hne
    rw [FieldCopy.value, if_neg htype] at hrest
    refine hgoal.declareAssign hmiddle.aside hfuel hrounds hconverted.notLabel hconverted.new
      hdeclareCast hconvert (lt_size_of_local? hlocal)
      (fun _ hbound ↦ bind_of_ok (operand_of_local? ((hbound.kept (.inr hapart)).trans hlocal)))
      fun hbound hlocal hfuel hrounds ↦ ?_
    exact excuses_setField hgoal hwrite (hmiddle.bind hbound hconverted hneCast) hlocal htarget
      hfuel
      hrounds hrest

/-- All fields are copied, one after the other. -/
theorem excuses_copiesFields {copies : List FieldCopy} {parts : List (List StmtId)}
    (hgoal : Excuses limits (fun symbol ↦ ¬ program.HasSymbol symbol) frame start goal)
    (hcopies : List.Forall₂ (program.CopiesField lowered source target) copies parts)
    (hrecord : start.LeadsTo program frame source object held) (hsymbol : program.HasSymbol source)
    (hsources : ∀ copy ∈ copies, copy.source < held.fields.size)
    (hfills : start.Fills program frame target new type fields now)
    (htargets : ∀ copy ∈ copies, copy.target < fields.size) (hfuel : limits.Covers fuel now.steps)
    (hrounds : limits.Covers rounds now.steps)
    (hrest : ∀ {after rounds}, start.Fills program frame target new type
      (copies.foldl (fun fields copy ↦
        fields.setIfInBounds copy.target (copy.value lowered held.fields)) fields) after →
        limits.Covers fuel after.steps → limits.Covers rounds after.steps →
          goal (runList lowered (execute lowered limits fuel frame) body rounds rest after)) :
    goal (runList lowered (execute lowered limits fuel frame) body rounds (parts.flatten ++ rest)
      now) := by
  induction hcopies generalizing now rounds fields with
  | nil => exact hrest hfills hfuel hrounds
  | @cons copy part copies parts hcopy _ ih =>
    rw [List.forall_mem_cons] at hsources htargets
    rw [List.flatten_cons, List.append_assoc]
    refine excuses_copiesField hgoal hcopy hrecord hsymbol hsources.1 hfills htargets.1 hfuel
      hrounds
      fun hafter hfuel hrounds ↦ ih hsources.2 hafter (fun other hother ↦ ?_) hfuel hrounds hrest
    rw [Array.size_setIfInBounds]
    exact htargets.2 other hother

/-! ### Outcomes -/

/-- A machine has a new record, rebuilt from another one as one of a subtype, and otherwise only
variables that the program does not know have changed. -/
structure Rebuilt (program lowered : Program) (frame : Nat) (start : Machine) (held : Object)
    (subtype : SubtypeCase) (before : Machine) (object : ObjId) : Prop where
  aside : start.Aside (fun symbol ↦ ¬ program.HasSymbol symbol) frame before
  new : start.heap.size ≤ object.index
  object : before.heap[object.index]? =
    some { type := subtype.record, fields := subtype.fieldsFrom lowered held.fields }

/-- Statements return the instance that the function of a subtype makes of the rebuilt record, or go
on if there is no subtype. They are cut off if the steps run out before or after the call, and end
as the call does if that fails. -/
inductive Delegates (program lowered : Program) (limits : Limits) (frame : Nat) (returned : TypeId)
    (found : Option SubtypeCase) (held : Object)
    (next : Nat → Machine → EStateM.Result EvalError Machine Flow) (start : Machine) :
    EStateM.Result EvalError Machine Flow → Prop
  | spent {last : Machine}
      (hlast : start.Aside (fun symbol ↦ ¬ program.HasSymbol symbol) frame last)
      (hsteps : limits.maxSteps < last.steps) :
      Delegates program lowered limits frame returned found held next start
        (.error (.stepLimit limits.maxSteps) last)
  | failed {subtype : SubtypeCase} {before last : Machine} {object : ObjId} {error : EvalError}
      (hfound : found = some subtype)
      (hbefore : Rebuilt program lowered frame start held subtype before object)
      (hcall : before.run lowered limits subtype.getIterator [.obj object] = .error error last) :
      Delegates program lowered limits frame returned found held next start (.error error last)
  | cut {subtype : SubtypeCase} {before after last : Machine} {object : ObjId} {made : Value}
      (hfound : found = some subtype)
      (hbefore : Rebuilt program lowered frame start held subtype before object)
      (hcall : before.run lowered limits subtype.getIterator [.obj object] = .ok made after)
      (hlast : after.Aside (fun symbol ↦ ¬ program.HasSymbol symbol) frame last)
      (hsteps : limits.maxSteps < last.steps) :
      Delegates program lowered limits frame returned found held next start
        (.error (.stepLimit limits.maxSteps) last)
  | finished {subtype : SubtypeCase} {before after last : Machine} {object : ObjId} {made : Value}
      (hfound : found = some subtype)
      (hbefore : Rebuilt program lowered frame start held subtype before object)
      (hcall : before.run lowered limits subtype.getIterator [.obj object] = .ok made after)
      (hlast : after.Aside (fun symbol ↦ ¬ program.HasSymbol symbol) frame last) :
      Delegates program lowered limits frame returned found held next start
        (.ok (.ret (castTo (lowered.type returned).kind made)) last)
  | missed {middle : Machine} {rounds : Nat} (hfound : found = none)
      (hmiddle : start.Aside (fun symbol ↦ ¬ program.HasSymbol symbol) frame middle)
      (hrounds : limits.Covers rounds middle.steps) :
      Delegates program lowered limits frame returned found held next start (next rounds middle)

variable {returned : TypeId} {subtype : SubtypeCase} {found : Option SubtypeCase} {record : SymId}
variable {next : Nat → Machine → EStateM.Result EvalError Machine Flow}

/-- What is returned from a member is returned from its list. -/
theorem Delegates.proceed {ended : EStateM.Result EvalError Machine Flow} {run : StmtId → Eval Flow}
    (h : Delegates program lowered limits frame returned (some subtype) held next start ended) :
    Delegates program lowered limits frame returned (some subtype) held next start
      (resume (Eval.proceed lowered run body rest rounds) ended) := by
  generalize hfound : some subtype = found at h
  cases h with
  | spent hlast hsteps => exact .spent hlast hsteps
  | failed hfound hbefore hcall => exact .failed hfound hbefore hcall
  | cut hfound hbefore hcall hlast hsteps => exact .cut hfound hbefore hcall hlast hsteps
  | finished hfound hbefore hcall hlast => exact .finished hfound hbefore hcall hlast
  | missed hnone => exact absurd (hfound.trans hnone) (Option.some_ne_none subtype)

/-- That the steps run out before the call is allowed for. -/
theorem excuses_delegates :
    Excuses limits (fun symbol ↦ ¬ program.HasSymbol symbol) frame start
      (Delegates program lowered limits frame returned found held next start) :=
  ⟨.spent⟩

/-! ### Matches -/

/-- All fields of the new record are filled in. -/
theorem foldl_copies (hcomplete : subtype.Complete lowered held)
    (hsize : fields.size = (lowered.type subtype.record).fields.length) :
    subtype.copies.foldl (fun fields copy ↦
      fields.setIfInBounds copy.target (copy.value lowered held.fields)) fields =
        subtype.fieldsFrom lowered held.fields := by
  have hlength := congrArg List.length hcomplete.targets
  rw [List.length_map, List.length_range] at hlength
  have htargets := hcomplete.targets
  rw [← hlength, List.range_eq_range'] at htargets
  refine Array.toList_inj.mp ?_
  rw [foldl_setIfInBounds lowered held.fields (by rw [hsize, ← hlength, Nat.zero_add]) htargets]
  rfl

/-- The new record is declared and filled in. -/
theorem excuses_rebuilt {declare : StmtId} {parts : List (List StmtId)} {rebuilt : SymId}
    (hgoal : Excuses limits (fun symbol ↦ ¬ program.HasSymbol symbol) frame start goal)
    (hrebuilt : program.Temporary lowered rebuilt)
    (htype : lowered.symbolType rebuilt = subtype.record)
    (hdeclare : lowered.kind declare = .action (.define rebuilt))
    (hcopies : List.Forall₂ (program.CopiesField lowered record rebuilt) subtype.copies parts)
    (hcomplete : subtype.Complete lowered held)
    (hrecord : start.LeadsTo program frame record object held) (hsymbol : program.HasSymbol record)
    (hnow : start.Aside (fun symbol ↦ ¬ program.HasSymbol symbol) frame now)
    (hfuel : limits.Covers fuel now.steps) (hrounds : limits.Covers rounds now.steps)
    (hrest : ∀ {object filled rounds}, start.Fills program frame rebuilt object subtype.record
      (subtype.fieldsFrom lowered held.fields) filled → limits.Covers fuel filled.steps →
        limits.Covers rounds filled.steps →
          goal (runList lowered (execute lowered limits fuel frame) body rounds rest filled)) :
    goal (runList lowered (execute lowered limits fuel frame) body rounds
      (declare :: (parts.flatten ++ rest)) now) := by
  obtain ⟨value, hlocal, -⟩ := (hrecord.aside hsymbol hnow).value
  let ticked : Machine := { now with steps := now.steps + 1 }
  have hbound : ticked.Aside (· = rebuilt) frame _ := .declared lowered rfl
  have hframe : frame < ticked.frames.size := lt_size_of_local? hlocal
  have hticked : start.Aside (fun symbol ↦ ¬ program.HasSymbol symbol) frame ticked :=
    hnow.trans (.tick _ frame now)
  obtain ⟨new, fields, hsize, hfills⟩ :=
    fills_declared (htype ▸ hcomplete.isAggregate) hrebuilt hframe hticked
  rw [htype] at hsize hfills
  refine hgoal.member hnow hfuel hrounds hdeclare (fun _ _ ↦ action_define hrebuilt.notLabel)
    hbound.steps fun rounds hfuel hrounds ↦ ?_
  refine excuses_copiesFields hgoal hcopies hrecord hsymbol hcomplete.sources hfills
    (fun copy hcopy ↦ ?_) hfuel hrounds fun hfilled hfuel hrounds ↦ ?_
  · rw [hsize, ← List.mem_range, ← hcomplete.targets]
    exact List.mem_map_of_mem hcopy
  · rw [foldl_copies hcomplete hsize] at hfilled
    exact hrest hfilled hfuel hrounds

/-- What the function of a subtype made is converted and returned. -/
theorem delegates_returns {before after : Machine} {declare convert last : StmtId}
    {made result : SymId} {value : Value}
    (hbefore : Rebuilt program lowered frame start held subtype before object)
    (hcall : before.run lowered limits subtype.getIterator [.obj object] = .ok value after)
    (hnow : after.Aside (fun symbol ↦ ¬ program.HasSymbol symbol) frame now)
    (hmade : now.local? frame made = some value) (hresult : program.Temporary lowered result)
    (hne : result ≠ made) (hdeclare : lowered.kind declare = .action (.define result))
    (hconvert : lowered.kind convert = .action (.assign result (.cast returned (.sym made))))
    (hlast : lowered.kind last = .action (.ret (.sym result)))
    (hfuel : limits.Covers fuel now.steps) (hrounds : limits.Covers rounds now.steps) :
    Delegates program lowered limits frame returned (some subtype) held next start
      (runList lowered (execute lowered limits fuel frame) body rounds [declare, convert, last]
        now) := by
  have hgoal : Excuses limits (fun symbol ↦ ¬ program.HasSymbol symbol) frame after
      (Delegates program lowered limits frame returned (some subtype) held next start) :=
    ⟨.cut rfl hbefore hcall⟩
  refine hgoal.declareAssign hnow hfuel hrounds hresult.notLabel hresult.new hdeclare hconvert
    (lt_size_of_local? hmade)
    (fun _ hbound ↦ bind_of_ok (operand_of_local? ((hbound.kept (.inr hne.symm)).trans hmade)))
    fun {final rounds} hfinal hlocal hfuel hrounds ↦ ?_
  have hend := hnow.trans (hfinal.of_temporary hresult)
  refine hgoal.first hend hfuel hrounds fun less rounds _ _ _ ↦ ?_
  let ticked : Machine := { final with steps := final.steps + 1 }
  have hoperand : operand lowered frame (.sym result) ticked =
      .ok (castTo (lowered.type returned).kind value) ticked := operand_of_local? hlocal
  have hstatement : statement lowered limits (execute lowered limits less) less frame last ticked =
      .ok (.ret (castTo (lowered.type returned).kind value)) ticked := by
    rw [statement, hlast]
    exact bind_of_ok hoperand
  rw [hstatement]
  exact .finished rfl hbefore hcall (hend.trans (.tick _ frame final))

/-- On a match the record is rebuilt, and what the function of the subtype makes of it is
returned. -/
theorem delegates_rebuilds (h : program.Rebuilds lowered record returned subtype ids)
    (hcomplete : subtype.Complete lowered held)
    (hrecord : start.LeadsTo program frame record object held) (hsymbol : program.HasSymbol record)
    (hnow : start.Aside (fun symbol ↦ ¬ program.HasSymbol symbol) frame now)
    (hfuel : limits.Covers fuel now.steps) (hrounds : limits.Covers rounds now.steps) :
    Delegates program lowered limits frame returned (some subtype) held next start
      (runList lowered (execute lowered limits fuel frame) body rounds ids now) := by
  obtain @⟨declare, declareMade, call, declareResult, convert, last, parts, rebuilt, made, result,
    hrebuilt, htype, hdeclare, hcopies, hmade, hneMade, hdeclareMade, hcall, hresult, hneResult,
    hdeclareResult, hconvert, hlast⟩ := h
  refine excuses_rebuilt excuses_delegates hrebuilt htype hdeclare hcopies hcomplete hrecord hsymbol
    hnow hfuel hrounds fun {object filled rounds} hfilled hfuel hrounds ↦ ?_
  refine excuses_delegates.declare hfilled.aside hfuel hrounds hmade.notLabel hdeclareMade
    fun {ready rounds} hready hfuel hrounds ↦ ?_
  replace hready := hfilled.bind hready hmade hneMade
  have hbefore {before : Machine}
      (h : ready.Aside (fun symbol ↦ ¬ program.HasSymbol symbol) frame before) :
      Rebuilt program lowered frame start held subtype before object :=
    ⟨hready.aside.trans h, hready.new, h.object hready.object⟩
  refine excuses_delegates.call hready.aside hfuel hrounds hcall (fun _ _ ↦ rfl) hready.local_eq
    (fun h hrun ↦ .failed rfl (hbefore h) hrun)
    fun {before after value rounds} h hrun hfuel hrounds ↦ ?_
  have hsize : frame < after.frames.size := by
    rw [size_frames_of_run hrun, h.size]
    exact lt_size_of_local? hready.local_eq
  exact delegates_returns (hbefore h) hrun (.setLocal hmade.new) (local?_setLocal_self hsize)
    hresult
    hneResult hdeclareResult hconvert hlast hfuel hrounds

/-! ### Tests -/

/-- A test goes on in the branch on a match, and with what follows it otherwise. -/
theorem delegates_testsSubtype
    (h : program.TestsSubtype lowered record returned subtype ids)
    (hcomplete : subtype.Complete lowered held)
    (hrecord : start.LeadsTo program frame record object held) (hsymbol : program.HasSymbol record)
    (htagged : start.Tagged program held type)
    (hnow : start.Aside (fun symbol ↦ ¬ program.HasSymbol symbol) frame now)
    (hfuel : limits.Covers fuel now.steps) (hrounds : limits.Covers rounds now.steps)
    (hmatch : type = subtype.discriminator → found = some subtype)
    (hmissed : type ≠ subtype.discriminator → ∀ {after rounds},
      start.Aside (fun symbol ↦ ¬ program.HasSymbol symbol) frame after →
        limits.Covers fuel after.steps → limits.Covers rounds after.steps →
          Delegates program lowered limits frame returned found held next start
            (runList lowered (execute lowered limits fuel frame) body rounds rest after)) :
    Delegates program lowered limits frame returned found held next start
      (runList lowered (execute lowered limits fuel frame) body rounds (ids ++ rest) now) := by
  obtain @⟨declareTag, read, declareFlag, test, branch, thenBlock, thenIds, tag, flag, htag,
    hdeclareTag, hread, hflag, hne, hdeclareFlag, htest, hbranch, hthen, hrebuilds⟩ := h
  obtain ⟨hposition, carrier, carried, hdenotes, hcarried, hclass⟩ := htagged
  obtain ⟨_, hlocal, -⟩ := (hrecord.aside hsymbol hnow).value
  refine excuses_delegates.declareAssign hnow hfuel hrounds htag.notLabel htag.new hdeclareTag hread
    (lt_size_of_local? hlocal) (fun _ hbound ↦ expression_fieldValue
      (hrecord.aside hsymbol (hnow.trans (hbound.of_temporary htag))) hposition)
    fun {tagged rounds} htagged hlocal hfuel hrounds ↦ ?_
  replace htagged := hnow.trans (htagged.of_temporary htag)
  have hsource {bound : Machine} (execute : Executor)
    (hbound : tagged.Aside (· = flag) frame bound) :
      expression lowered limits execute frame (.hasClass tag subtype.discriminator) bound =
        .ok (.bool (some type == some subtype.discriminator)) bound := by
    have haside := htagged.trans (hbound.of_temporary hflag)
    have hholds : bound.HoldsObject program frame tag (held.fields.getD 0 .nil) type :=
      ⟨(hbound.kept (.inr hne.symm)).trans hlocal, carrier, carried, hdenotes.aside haside,
        haside.object hcarried, hclass⟩
    refine (bind_of_ok (read_of_local? hholds.local_eq)).trans ?_
    exact bind_of_ok (classOf?_of_holdsObject hholds)
  refine excuses_delegates.declareAssign htagged hfuel hrounds hflag.notLabel hflag.new hdeclareFlag
    htest (lt_size_of_local? hlocal) hsource fun {tested rounds} htested hlocal hfuel hrounds ↦ ?_
  replace htested := htagged.trans (htested.of_temporary hflag)
  refine excuses_delegates.first htested hfuel hrounds fun less rounds hless hrounds _ ↦ ?_
  let entered : Machine := { tested with steps := tested.steps + 1 }
  have hentered := htested.trans (.tick _ frame tested)
  have htruth : truth lowered frame (.sym flag) entered =
      .ok (some type == some subtype.discriminator) entered := truth_of_local? hlocal
  rw [statement, hbranch]
  dsimp only
  rw [bind_of_ok htruth]
  by_cases heq : type = subtype.discriminator
  · obtain rfl := hmatch heq
    rw [if_pos (by simpa using heq)]
    refine .proceed (excuses_delegates.block hentered hless hthen fun less hless ↦ ?_)
    exact delegates_rebuilds hrebuilds hcomplete hrecord hsymbol
      (hentered.trans (.tick _ frame entered)) hless hless
  · rw [if_neg (by simpa using heq)]
    exact hmissed heq hentered (hfuel.mono (Nat.le_succ _)) hrounds

/-- The tests return the instance of the first subtype that has the class, or go on if there is
none. -/
theorem delegates_testsSubtypes {cases : List SubtypeCase}
    (h : program.TestsSubtypes lowered record returned cases ids)
    (hcomplete : ∀ subtype ∈ cases, subtype.Complete lowered held)
    (hrecord : start.LeadsTo program frame record object held) (hsymbol : program.HasSymbol record)
    (htagged : start.Tagged program held type)
    (hnow : start.Aside (fun symbol ↦ ¬ program.HasSymbol symbol) frame now)
    (hfuel : limits.Covers fuel now.steps) (hrounds : limits.Covers rounds now.steps) :
    Delegates program lowered limits frame returned
      (cases.find? fun subtype => subtype.discriminator = type) held
      (fun rounds middle ↦
        runList lowered (execute lowered limits fuel frame) body rounds rest middle) start
      (runList lowered (execute lowered limits fuel frame) body rounds (ids ++ rest) now) := by
  induction h generalizing now rounds with
  | nil => exact .missed rfl hnow hrounds
  | @cons subtype cases ids later htest _ ih =>
    rw [List.forall_mem_cons] at hcomplete
    rw [List.append_assoc]
    refine delegates_testsSubtype htest hcomplete.1 hrecord hsymbol htagged hnow hfuel hrounds
      (fun heq ↦ ?_) fun hne {after rounds} hafter hfuel hrounds ↦ ?_
    · rw [List.find?_cons_of_pos (by simpa using heq.symm)]
    · rw [List.find?_cons_of_neg (by simpa using Ne.symm hne)]
      exact ih hcomplete.2 hafter hfuel hrounds

end Eval

end IteratorLowering
