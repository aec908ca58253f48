import IteratorLowering.Proofs.DeadCode.Sound
import IteratorLowering.Proofs.Forwarding.CopySites

/-!
# Computations that cannot tell a copy from its source

On a machine where a frame holds a copy (`Machine.Copied`), the target and the source of the copy
have the same value there, and no reference leads to either. So it does not matter which of the two
is read in that frame (`Eval.Agrees`), and a computation of one program and the same computation of
another one that reads the source instead are `Eval.Alike`: they have the same result, a value or an
error, and leave the same machine, where the same frames hold the copy.

Computations are alike piece by piece (`Alike.bind`, `Alike.withFrame`). This module has the pieces
that run no statement.
-/

set_option autoImplicit false
set_option relaxedAutoImplicit false

namespace IteratorLowering

namespace Machine

/-- The given frames hold the copy, and no reference leads to its variables. -/
structure Copied (site : CopySite) (held : Nat → Prop) (machine : Machine) : Prop where
  hides : machine.Hides site.hidden
  same : ∀ {depth : Nat}, held depth → ∃ value, machine.local? depth site.target = some value ∧
    machine.local? depth site.source = some value

variable {site : CopySite} {held held' : Nat → Prop} {machine last : Machine} {frame depth : Nat}
variable {symbol : SymId} {value : Value}

namespace Copied

theorem mono (h : machine.Copied site held') (hheld : ∀ depth, held depth → held' depth) :
    machine.Copied site held :=
  ⟨h.hides, fun hdepth ↦ h.same (hheld _ hdepth)⟩

theorem of_frames (h : machine.Copied site held) (hhides : last.Hides site.hidden)
    (hframes : last.frames = machine.frames) : last.Copied site held := by
  refine ⟨hhides, fun hdepth ↦ ?_⟩
  unfold local?
  rw [hframes]
  exact h.same hdepth

theorem lt_size (h : machine.Copied site held) (hdepth : held depth) :
    depth < machine.frames.size := by
  obtain ⟨value, htarget, -⟩ := h.same hdepth
  exact lt_size_of_local? htarget

theorem secludes (h : last.Copied site held) (hframes : machine.SameFrames last) :
    machine.Secludes site.hidden last :=
  ⟨h.hides, hframes.size, False.elim, False.elim⟩

/-- A frame that holds the copy may write any other variable. -/
theorem setLocal (h : machine.Copied site held) (hvalue : value.Avoids site.hidden)
    (hsymbol : held frame → ¬ site.Names symbol) :
    (machine.setLocal frame symbol value).Copied site held := by
  refine ⟨h.hides.hides_setLocal fun _ ↦ hvalue, fun {depth} hdepth ↦ ?_⟩
  obtain ⟨value', htarget, hsource⟩ := h.same hdepth
  have hother {named : SymId} (hnamed : site.Names named) :
      (machine.setLocal frame symbol value).local? depth named = machine.local? depth named := by
    rw [local?_setLocal, if_neg]
    rintro ⟨rfl, rfl, -⟩
    exact hsymbol hdepth hnamed
  exact ⟨value', (hother (.inl rfl)).trans htarget, (hother (.inr rfl)).trans hsource⟩

theorem push (h : machine.Copied site held) {pushed : Frame} (hpushed : pushed.Avoids site.hidden) :
    Copied site held { machine with frames := machine.frames.push pushed } := by
  refine ⟨h.hides.push hpushed, fun {depth} hdepth ↦ ?_⟩
  have hne := Nat.ne_of_lt (h.lt_size hdepth)
  obtain ⟨value, htarget, hsource⟩ := h.same hdepth
  exact ⟨value, by rwa [local?_push rfl, if_neg hne], by rwa [local?_push rfl, if_neg hne]⟩

/-- The frame that was pushed is popped again. -/
theorem popped (h : machine.Copied site held) {pushed : Frame} (hlast : last.Copied site held)
    (hframes : SameFrames { machine with frames := machine.frames.push pushed } last) :
    Copied site held { last with frames := last.frames.pop } := by
  refine ⟨(h.hides.popped (hlast.secludes hframes)).hides, fun {depth} hdepth ↦ ?_⟩
  have hsize := hframes.size
  rw [Array.size_push] at hsize
  have hlt : depth < last.frames.size - 1 := by
    have := h.lt_size hdepth
    omega
  obtain ⟨value, htarget, hsource⟩ := hlast.same hdepth
  exact ⟨value, by rwa [local?_pop rfl, if_pos hlt], by rwa [local?_pop rfl, if_pos hlt]⟩

end Copied

end Machine

namespace Eval

variable {α β : Type} {site : CopySite} {held : Nat → Prop} {machine : Machine} {frame : Nat}
variable {program final : Program} {limits : Limits}

/-! ### Computations that leave the frames alone -/

/-- A result leaves the frames as they are. -/
def KeepsFrames (computation : Eval α) : Prop :=
  ∀ machine value last, computation machine = .ok value last → last.frames = machine.frames

namespace KeepsFrames

theorem of_looks {computation : Eval α} (h : Looks computation) : KeepsFrames computation := by
  intro machine value last hrun
  rw [h machine value last hrun]

theorem modify {change : Machine → Machine}
    (h : ∀ machine, (change machine).frames = machine.frames) :
    KeepsFrames (modify change : Eval PUnit) := by
  rintro machine _ _ ⟨⟩
  exact h machine

theorem bind {first : Eval α} {next : α → Eval β} (h : KeepsFrames first)
    (hnext : ∀ value, KeepsFrames (next value)) : KeepsFrames (first >>= next) := by
  intro machine value last hrun
  obtain ⟨found, middle, hfirst, hrun⟩ := exists_of_bind_eq_ok hrun
  exact (hnext found _ _ _ hrun).trans (h _ _ _ hfirst)

end KeepsFrames

theorem keepsFrames_defaultValue {type : TypeId} : KeepsFrames (defaultValue program type) := by
  intro machine value last hrun
  rw [defaultValue_eq] at hrun
  split at hrun <;> cases hrun <;> rfl

theorem keepsFrames_fillFields {id : ObjId} {position : Nat} {values : List Value} :
    KeepsFrames (fillFields id position values) := by
  induction values generalizing position with
  | nil => exact .of_looks .pure
  | cons value rest ih => exact .bind (.modify fun _ ↦ rfl) fun _ ↦ ih

theorem keepsFrames_buildInstance {definition : FnDef} {args : List Value} :
    KeepsFrames (buildInstance program definition args) := by
  unfold buildInstance
  split
  · exact .of_looks .throw
  · refine .bind keepsFrames_defaultValue fun record ↦ ?_
    split
    · exact .bind keepsFrames_fillFields fun _ ↦ .of_looks .pure
    · exact .of_looks .throw

theorem keepsFrames_callExternal {name : String} {args : List Value} :
    KeepsFrames (callExternal name args) := by
  unfold callExternal
  split
  · exact .bind (.modify fun _ ↦ rfl) fun _ ↦ .of_looks .pure
  · exact .of_looks .throw

theorem keepsFrames_tick : KeepsFrames (tick limits) := by
  refine .bind (.modify fun _ ↦ rfl) fun _ ↦ .bind (.of_looks .get) fun machine ↦ ?_
  split
  · exact .of_looks .throw
  · exact .of_looks .pure

theorem looks_checkDepth : Looks (checkDepth limits) := by
  refine .bind .get fun machine ↦ ?_
  split
  · exact .throw
  · exact .pure

/-! ### Alike computations -/

/-- The computations have the same result and leave the same machine, with the copy where it was. -/
inductive Alike (site : CopySite) (held : Nat → Prop) (machine : Machine) (kind : α → Prop)
    (first second : Eval α) : Prop
  | done {value : α} {last : Machine} (hfirst : first machine = .ok value last)
      (hsecond : second machine = .ok value last) (hcopied : last.Copied site held)
      (hframes : machine.SameFrames last) (hkind : kind value)
  | failed {error : EvalError} {last : Machine} (hfirst : first machine = .error error last)
      (hsecond : second machine = .error error last)

namespace Alike

variable {kind : α → Prop} {kind' : β → Prop} {first second : Eval α} {next next' : α → Eval β}

theorem eq (h : Alike site held machine kind first second) : second machine = first machine := by
  cases h with
  | done hfirst hsecond => exact hsecond.trans hfirst.symm
  | failed hfirst hsecond => exact hsecond.trans hfirst.symm

theorem of_ok (h : Alike site held machine kind first second) {value : α} {last : Machine}
    (hrun : first machine = .ok value last) :
    last.Copied site held ∧ machine.SameFrames last ∧ kind value := by
  cases h with
  | done hfirst hsecond hcopied hframes hvalue =>
    rw [hfirst] at hrun
    cases hrun
    exact ⟨hcopied, hframes, hvalue⟩
  | failed hfirst hsecond =>
    rw [hfirst] at hrun
    cases hrun

theorem mono (h : Alike site held machine kind first second) {kind' : α → Prop}
    (hkind : ∀ value, kind value → kind' value) : Alike site held machine kind' first second := by
  cases h with
  | done hfirst hsecond hcopied hframes hvalue =>
    exact .done hfirst hsecond hcopied hframes (hkind _ hvalue)
  | failed hfirst hsecond => exact .failed hfirst hsecond

/-- Fewer frames may be told to hold the copy. -/
theorem of_held {held' : Nat → Prop} (h : Alike site held' machine kind first second)
    (hheld : ∀ depth, held depth → held' depth) : Alike site held machine kind first second := by
  cases h with
  | done hfirst hsecond hcopied hframes hvalue =>
    exact .done hfirst hsecond (hcopied.mono hheld) hframes hvalue
  | failed hfirst hsecond => exact .failed hfirst hsecond

theorem of_discreet (h : machine.Copied site held)
    (hdiscreet : Discreet site.hidden machine kind first) (hkeeps : KeepsFrames first)
    (hsame : second machine = first machine) : Alike site held machine kind first second := by
  cases hdiscreet with
  | done hrun hsecludes hkind =>
    have hframes := hkeeps _ _ _ hrun
    exact .done hrun (hsame.trans hrun) (h.of_frames hsecludes.hides hframes) (.of_eq hframes) hkind
  | failed hrun _ => exact .failed hrun (hsame.trans hrun)

theorem pure (h : machine.Copied site held) {value : α} (hkind : kind value) :
    Alike site held machine kind (Pure.pure value) (Pure.pure value) :=
  .done rfl rfl h (.refl machine) hkind

theorem throw {error : EvalError} :
    Alike site held machine kind (MonadExcept.throw error) (MonadExcept.throw error) :=
  .failed rfl rfl

theorem unsupported {situation : Unsupported} :
    Alike site held machine kind (Eval.unsupported situation) (Eval.unsupported situation) :=
  .throw

theorem get_bind {next next' : Machine → Eval β}
    (h : Alike site held machine kind' (next machine) (next' machine)) :
    Alike site held machine kind' (MonadState.get >>= next) (MonadState.get >>= next') := by
  cases h with
  | done hfirst hsecond hcopied hframes hkind => exact .done hfirst hsecond hcopied hframes hkind
  | failed hfirst hsecond => exact .failed hfirst hsecond

theorem bind_of_run (h : Alike site held machine kind first second)
    (hnext : ∀ value last, first machine = .ok value last → last.Copied site held →
      machine.SameFrames last → kind value →
        Alike site held last kind' (next value) (next' value)) :
    Alike site held machine kind' (first >>= next) (second >>= next') := by
  cases h with
  | done hfirst hsecond hcopied hframes hkind =>
    cases hnext _ _ hfirst hcopied hframes hkind with
    | done hfirst' hsecond' hcopied' hframes' hkind' =>
      exact .done ((bind_of_ok hfirst).trans hfirst') ((bind_of_ok hsecond).trans hsecond') hcopied'
        (hframes.trans hframes') hkind'
    | failed hfirst' hsecond' =>
      exact .failed ((bind_of_ok hfirst).trans hfirst') ((bind_of_ok hsecond).trans hsecond')
  | failed hfirst hsecond => exact .failed (bind_of_error hfirst) (bind_of_error hsecond)

theorem bind (h : Alike site held machine kind first second)
    (hnext : ∀ value last, last.Copied site held → machine.SameFrames last → kind value →
      Alike site held last kind' (next value) (next' value)) :
    Alike site held machine kind' (first >>= next) (second >>= next') :=
  bind_of_run h fun value last _ ↦ hnext value last

/-- A body that runs in a frame of its own. -/
theorem withFrame {pushed : Frame} {body body' : Nat → Eval α} (h : machine.Copied site held)
    (hpushed : pushed.Avoids site.hidden)
    (hbody : Machine.Copied site held { machine with frames := machine.frames.push pushed } →
      Alike site held { machine with frames := machine.frames.push pushed } kind
        (body machine.frames.size) (body' machine.frames.size)) :
    Alike site held machine (fun ended ↦ kind ended.1 ∧ ended.2.Avoids site.hidden)
      (Eval.withFrame pushed body) (Eval.withFrame pushed body') := by
  cases hbody (h.push hpushed) with
  | @done value last hfirst hsecond hcopied hframes hkind =>
    refine .done (withFrame_of_ok hfirst) (withFrame_of_ok hsecond) (h.popped hcopied hframes)
      (hframes.popped rfl rfl) ⟨hkind, ?_⟩
    cases hback : last.frames.back? with
    | none => exact hpushed
    | some left =>
      rw [Array.back?_eq_getElem?] at hback
      exact hcopied.hides.frames hback not_false
  | failed hfirst hsecond => exact .failed (withFrame_of_error hfirst) (withFrame_of_error hsecond)

end Alike

/-! ### Reading -/

/-- Reading the renamed variable in a frame of the second program gives what reading the variable
gives in the first. -/
structure Agrees (site : CopySite) (program final : Program) (held : Nat → Prop) (frame : Nat)
    (rename : SymId → SymId) : Prop where
  same : final = { program with statements := final.statements }
  read : ∀ {machine : Machine}, machine.Copied site held → ∀ symbol,
    read final frame (rename symbol) machine = read program frame symbol machine

section

variable (hsame : final = { program with statements := final.statements })

include hsame

theorem read_of_same : read final = read program := by
  rw [hsame]
  rfl

theorem agrees_id : Agrees site program final held frame id where
  same := hsame
  read _ symbol := by rw [read_of_same hsame, id]

/-- In a frame that holds the copy. -/
theorem agrees_forward (hframe : held frame) :
    Agrees site program final held frame site.forward where
  same := hsame
  read {machine} h symbol := by
    rw [read_of_same hsame, CopySite.forward, SymId.replace]
    split
    · rename_i htarget
      subst htarget
      obtain ⟨value, htarget, hsource⟩ := h.same hframe
      rw [read_of_local? hsource, read_of_local? htarget]
    · rfl

theorem load_of_same : load final = load program := by
  rw [hsame]
  rfl

theorem fieldIndex_of_same : fieldIndex final = fieldIndex program := by
  rw [hsame]
  rfl

theorem defaultValue_of_same : defaultValue final = defaultValue program := by
  rw [hsame]
  rfl

theorem buildInstance_of_same : buildInstance final = buildInstance program := by
  rw [hsame]
  rfl

theorem tableFunction_of_same : tableFunction final = tableFunction program := by
  rw [hsame]
  rfl

theorem classOf?_of_same : classOf? final = classOf? program := by
  rw [hsame]
  rfl

end

/-! ### Pieces -/

section

variable (h : machine.Copied site held)

include h

theorem alike_of_looks {kind : α → Prop} {first second : Eval α}
    (hdiscreet : Discreet site.hidden machine kind first) (hlooks : Looks first)
    (hsame : second machine = first machine) : Alike site held machine kind first second :=
  .of_discreet h hdiscreet (.of_looks hlooks) hsame

theorem alike_self {kind : α → Prop} {computation : Eval α}
    (hdiscreet : Discreet site.hidden machine kind computation) (hkeeps : KeepsFrames computation) :
    Alike site held machine kind computation computation :=
  .of_discreet h hdiscreet hkeeps rfl

theorem alike_setLocal {symbol : SymId} {value : Value} (hvalue : value.Avoids site.hidden)
    (hsymbol : held frame → ¬ site.Names symbol) :
    Alike site held machine (fun _ ↦ True)
      (modify fun machine ↦ machine.setLocal frame symbol value)
      (modify fun machine ↦ machine.setLocal frame symbol value) :=
  .done rfl rfl (h.setLocal hvalue hsymbol) (.setLocal machine frame symbol value) trivial

/-- No reference leads to a variable of the copy. -/
theorem alike_store {place : Place} {value : Value} (hplace : (Value.ref place).Avoids site.hidden)
    (hvalue : value.Avoids site.hidden) :
    Alike site held machine (fun _ ↦ True) (store place value) (store place value) := by
  cases place with
  | slot frame symbol =>
    apply Alike.get_bind
    split
    · exact alike_setLocal h hvalue fun _ ↦ hplace.2
    · exact .unsupported
  | field id position =>
    exact alike_self h (discreet_setField h.hides hplace hvalue) (.modify fun _ ↦ rfl)

section

variable {rename : SymId → SymId} (hagrees : Agrees site program final held frame rename)

include hagrees

theorem alike_read (symbol : SymId) :
    Alike site held machine (Value.Avoids site.hidden) (read program frame symbol)
      (read final frame (rename symbol)) :=
  alike_of_looks h (discreet_read h.hides not_false) looks_read (hagrees.read h symbol)

theorem alike_load {place : Place} (hplace : (Value.ref place).Avoids site.hidden) :
    Alike site held machine (Value.Avoids site.hidden) (load program place) (load final place) := by
  rw [load_of_same hagrees.same]
  exact alike_self h (discreet_load h.hides hplace) (.of_looks looks_load)

theorem alike_objectOf (symbol : SymId) :
    Alike site held machine (fun _ ↦ True) (objectOf program frame symbol)
      (objectOf final frame (rename symbol)) := by
  unfold objectOf
  apply Alike.bind (alike_read h hagrees symbol)
  intro value last hlast _ hvalue
  split
  · exact .pure hlast trivial
  · apply Alike.bind (alike_load hlast hagrees hvalue)
    intro seen last hlast _ hseen
    split
    · exact .pure hlast trivial
    · exact .throw
  · exact .throw

theorem alike_fieldIndex {id : ObjId} {field : FieldRef} :
    Alike site held machine (fun _ ↦ True) (fieldIndex program id field)
      (fieldIndex final id field) := by
  rw [fieldIndex_of_same hagrees.same]
  exact alike_self h (discreet_fieldIndex h.hides) (.of_looks looks_fieldIndex)

theorem alike_operand (operand : Operand) :
    Alike site held machine (Value.Avoids site.hidden) (Eval.operand program frame operand)
      (Eval.operand final frame (operand.mapSymbols rename)) := by
  cases operand with
  | sym symbol => exact alike_read h hagrees symbol
  | lit value => cases value <;> exact .pure h trivial

theorem alike_operands (operands : List Operand) :
    Alike site held machine (AllAvoid site.hidden) (operands.mapM (Eval.operand program frame))
      ((operands.map (Operand.mapSymbols rename)).mapM (Eval.operand final frame)) := by
  induction operands generalizing machine with
  | nil => exact .pure h (by intro value hvalue; cases hvalue)
  | cons operand rest ih =>
    rw [List.map_cons, List.mapM_cons, List.mapM_cons]
    apply Alike.bind (alike_operand h hagrees operand)
    intro value last hlast _ hvalue
    apply Alike.bind (ih hlast)
    intro values last hlast _ hvalues
    exact .pure hlast (List.forall_mem_cons.mpr ⟨hvalue, hvalues⟩)

theorem alike_truth (condition : Operand) :
    Alike site held machine (fun _ ↦ True) (truth program frame condition)
      (truth final frame (condition.mapSymbols rename)) := by
  unfold truth
  apply Alike.bind (alike_operand h hagrees condition)
  intro value last hlast _ _
  split
  · exact .pure hlast trivial
  · exact .throw

theorem alike_classOf? {value : Value} (hvalue : value.Avoids site.hidden) :
    Alike site held machine (fun _ ↦ True) (classOf? program value) (classOf? final value) := by
  rw [classOf?_of_same hagrees.same]
  exact alike_self h (discreet_classOf? h.hides hvalue) (.of_looks looks_classOf?)

end

theorem alike_tick : Alike site held machine (fun _ ↦ True) (tick limits) (tick limits) :=
  alike_self h (discreet_tick h.hides) keepsFrames_tick

theorem alike_checkDepth :
    Alike site held machine (fun _ ↦ True) (checkDepth limits) (checkDepth limits) :=
  alike_self h (discreet_checkDepth h.hides) (.of_looks looks_checkDepth)

theorem alike_countCall {function : FnId} :
    Alike site held machine (fun _ ↦ True) (modify fun machine ↦ machine.countCall function)
      (modify fun machine ↦ machine.countCall function) :=
  alike_self h (discreet_countCall h.hides) (.modify fun _ ↦ rfl)

end

end Eval

end IteratorLowering
