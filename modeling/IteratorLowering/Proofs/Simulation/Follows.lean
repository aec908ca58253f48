import IteratorLowering.Proofs.Evaluation.Budget
import IteratorLowering.Proofs.Simulation.Machines

/-!
# Computations that follow one another

`Follows` compares a computation of the first program with a family of computations of the second,
from machines that correspond. If the first gives a result, so does the second from some point of
the family on, the results are related and the machines still correspond. If the first fails in a
way that has to be shared, the second fails alike, having shown the same.

Computations are followed piece by piece (`Follows.bind`), frames that are pushed are popped again
(`Follows.withFrame`), and the pieces that run no statement are followed one by one: reading and
writing, default values, primitive operations, external calls and the making of instances.
-/

set_option autoImplicit false
set_option relaxedAutoImplicit false

namespace IteratorLowering

/-- The same frames are on the stack, whatever their locals hold. -/
structure Machine.SameFrames (machine final : Machine) : Prop where
  size : final.frames.size = machine.frames.size
  origin : ∀ depth, final.origin? depth = machine.origin? depth

namespace Machine.SameFrames

variable {machine middle final : Machine}

theorem refl (machine : Machine) : machine.SameFrames machine := ⟨rfl, fun _ ↦ rfl⟩

theorem trans (h : machine.SameFrames middle) (h' : middle.SameFrames final) :
    machine.SameFrames final :=
  ⟨h'.size.trans h.size, fun depth ↦ (h'.origin depth).trans (h.origin depth)⟩

theorem of_eq (h : final.frames = machine.frames) : machine.SameFrames final :=
  ⟨congrArg Array.size h, fun depth ↦ by rw [origin?, origin?, h]⟩

theorem setLocal (machine : Machine) (frame : Nat) (symbol : SymId) (value : Value) :
    machine.SameFrames (machine.setLocal frame symbol value) :=
  ⟨size_setLocal, fun _ ↦ origin?_setLocal⟩

theorem popped {frames : Array Frame} {held : Frame} (hframes : machine.frames = frames.push held)
    (h : machine.SameFrames final) {base : Machine} (hbase : base.frames = frames) :
    base.SameFrames { final with frames := final.frames.pop } := by
  have hsize := h.size
  rw [hframes, Array.size_push] at hsize
  refine ⟨by simp [hsize, hbase], fun depth ↦ ?_⟩
  rw [origin?_pop rfl]
  split
  · have horigin := h.origin depth
    rw [origin?_push hframes, if_neg (by omega)] at horigin
    rw [← hbase] at horigin
    exact horigin
  · rw [origin?, hbase, Array.getElem?_eq_none (by omega)]
    rfl

end Machine.SameFrames

/-- What the machines that are reached have in common with those at the beginning. -/
structure Reaches (c : Correspondence) (pace : Pace) (early : List Early) (floor : Nat)
    (objects : ObjId → ObjId → Prop) (machine : Machine) (objects' : ObjId → ObjId → Prop)
    (final final' : Machine) : Prop where
  like : final.Like c pace early floor objects' final'
  objects : objects ≤ objects'
  frames : machine.SameFrames final

namespace Eval

/-- The second computation follows the first one. -/
inductive Follows {α β : Type} (c : Correspondence) (pace : Pace) (early : List Early) (floor : Nat)
    (objects : ObjId → ObjId → Prop) (machine machine' : Machine)
    (kind : (ObjId → ObjId → Prop) → α → β → Prop) (first : Eval α)
    (second : pace.Index → Eval β) : Prop
  | done {value : α} {value' : β} {final final' : Machine} {objects' : ObjId → ObjId → Prop}
      (hfirst : first machine = .ok value final)
      (hsecond : ∀ᶠ i in pace.within, second i machine' = .ok value' final')
      (hreaches : Reaches c pace early floor objects machine objects' final final')
      (hkind : kind objects' value value')
  | failed {error : EvalError} {final : Machine} (hfirst : first machine = .error error final)
      (hsecond : pace.fails error → ∃ error' final' objects',
        (∀ᶠ i in pace.within, second i machine' = .error error' final') ∧
          Relator.BiUnique objects' ∧
          (∀ {id id'}, objects' id id' → pace.heaps id.index id'.index) ∧
          EvalError.Like objects' c.names error error' ∧ final.ShowsLike objects' c.names final' ∧
          pace.steps final.steps final'.steps)

/-- Every pair of results will do. -/
def Any {α β : Type} (_objects : ObjId → ObjId → Prop) (_value : α) (_value' : β) : Prop := True

/-- The results are the same. -/
def Same {α : Type} (_objects : ObjId → ObjId → Prop) (value value' : α) : Prop := value' = value

/-- The results are like values. -/
def LikeValue (c : Correspondence) (objects : ObjId → ObjId → Prop) (value value' : Value) : Prop :=
  Value.Like objects c.names value value'

/-- The results are lists of like values. -/
def LikeValues (c : Correspondence) (objects : ObjId → ObjId → Prop) (values values' : List Value) :
    Prop :=
  List.Forall₂ (Value.Like objects c.names) values values'

theorem LikeValues.mono {c : Correspondence} {objects objects' : ObjId → ObjId → Prop}
    {values values' : List Value} (h : LikeValues c objects values values')
    (hobjects : objects ≤ objects') : LikeValues c objects' values values' :=
  List.Forall₂.imp (fun _ _ hvalue ↦ hvalue.mono hobjects le_rfl) h

/-- The results are objects that correspond. -/
def Linked (objects : ObjId → ObjId → Prop) (id id' : ObjId) : Prop := objects id id'

variable {α β γ δ : Type} {c : Correspondence} {pace : Pace} {early : List Early} {floor : Nat}
variable {objects : ObjId → ObjId → Prop} {machine machine' : Machine}

namespace Follows

variable {kind : (ObjId → ObjId → Prop) → α → β → Prop}
variable {kind' : (ObjId → ObjId → Prop) → γ → δ → Prop} {first : Eval α}
variable {second : pace.Index → Eval β}

theorem pure (h : machine.Like c pace early floor objects machine') {value : α} {value' : β}
    (hkind : kind objects value value') :
    Follows c pace early floor objects machine machine' kind (Pure.pure value)
      fun _ ↦ Pure.pure value' :=
  .done rfl (.of_forall fun _ ↦ rfl) ⟨h, le_rfl, .refl machine⟩ hkind

theorem throw (h : machine.Like c pace early floor objects machine') {error error' : EvalError}
    (herror : EvalError.Like objects c.names error error') :
    Follows c pace early floor objects machine machine' kind (MonadExcept.throw error)
      fun _ ↦ MonadExcept.throw error' :=
  .failed rfl fun _ ↦ ⟨error', machine', objects, .of_forall fun _ ↦ rfl, h.oneToOne, h.number,
    herror, h.shows, h.steps⟩

theorem unsupported (h : machine.Like c pace early floor objects machine')
    {situation : Unsupported} :
    Follows c pace early floor objects machine machine' kind (Eval.unsupported situation)
      fun _ ↦ Eval.unsupported situation :=
  .throw h (.other nofun)

theorem modify {change change' : Machine → Machine} {objects' : ObjId → ObjId → Prop}
    (h : Reaches c pace early floor objects machine objects' (change machine) (change' machine')) :
    Follows c pace early floor objects machine machine' (α := PUnit) (β := PUnit) Any
      (modify change) fun _ ↦ modify change' :=
  .done rfl (.of_forall fun _ ↦ rfl) h trivial

theorem get_bind {next : Machine → Eval α} {next' : pace.Index → Machine → Eval β}
    (h : Follows c pace early floor objects machine machine' kind (next machine)
      fun i ↦ next' i machine') :
    Follows c pace early floor objects machine machine' kind (MonadState.get >>= next)
      fun i ↦ MonadState.get >>= next' i := by
  cases h with
  | done hfirst hsecond hreaches hkind => exact .done hfirst hsecond hreaches hkind
  | failed hfirst hsecond => exact .failed hfirst hsecond

/-- What comes second may start with other variables waiting than what came first. -/
theorem bind {early' : List Early} {floor' : Nat} {next : α → Eval γ}
    {next' : pace.Index → β → Eval δ}
    (h : Follows c pace early' floor' objects machine machine' kind first second)
    (hnext : ∀ {objects' final final' value value'},
      Reaches c pace early' floor' objects machine objects' final final' →
        kind objects' value value' →
          Follows c pace early floor objects' final final' kind' (next value)
            fun i ↦ next' i value') :
    Follows c pace early floor objects machine machine' kind' (first >>= next)
      fun i ↦ second i >>= next' i := by
  cases h with
  | done hfirst hsecond hreaches hkind =>
    cases hnext hreaches hkind with
    | done hfirst' hsecond' hreaches' hkind' =>
      refine .done ((bind_of_ok hfirst).trans hfirst') ?_ ⟨hreaches'.like,
        hreaches.objects.trans hreaches'.objects, hreaches.frames.trans hreaches'.frames⟩ hkind'
      filter_upwards [hsecond, hsecond'] with i hsecond hsecond'
      exact (bind_of_ok hsecond).trans hsecond'
    | failed hfirst' hsecond' =>
      refine .failed ((bind_of_ok hfirst).trans hfirst') fun hfails ↦ ?_
      obtain ⟨error', final', objects', hsecond', hlike⟩ := hsecond' hfails
      refine ⟨error', final', objects', ?_, hlike⟩
      filter_upwards [hsecond, hsecond'] with i hsecond hsecond'
      exact (bind_of_ok hsecond).trans hsecond'
  | failed hfirst hsecond =>
    refine .failed (bind_of_error hfirst) fun hfails ↦ ?_
    obtain ⟨error', final', objects', hsecond, hlike⟩ := hsecond hfails
    exact ⟨error', final', objects', hsecond.mono fun i hsecond ↦ bind_of_error hsecond, hlike⟩

/-- The family may be exchanged for one that goes on in the same way from some point on. -/
theorem congr {second' : pace.Index → Eval β} {middle' : Machine}
    (hsecond : ∀ᶠ i in pace.within, second' i machine' = second i middle')
    (h : Follows c pace early floor objects machine middle' kind first second) :
    Follows c pace early floor objects machine machine' kind first second' := by
  cases h with
  | done hfirst hdone hreaches hkind =>
    refine .done hfirst ?_ hreaches hkind
    filter_upwards [hsecond, hdone] with i hsecond hdone
    exact hsecond.trans hdone
  | failed hfirst hfailed =>
    refine .failed hfirst fun hfails ↦ ?_
    obtain ⟨error', final', objects', hfailed, hlike⟩ := hfailed hfails
    refine ⟨error', final', objects', ?_, hlike⟩
    filter_upwards [hsecond, hfailed] with i hsecond hfailed
    exact hsecond.trans hfailed

theorem congr_left {first' : Eval α} (hfirst : first' machine = first machine)
    (h : Follows c pace early floor objects machine machine' kind first second) :
    Follows c pace early floor objects machine machine' kind first' second := by
  cases h with
  | done hdone hsecond hreaches hkind => exact .done (hfirst.trans hdone) hsecond hreaches hkind
  | failed hfailed hsecond => exact .failed (hfirst.trans hfailed) hsecond

/-- The first computation may go ahead by itself. -/
theorem after {γ : Type} {ahead : Eval γ} {next : γ → Eval α} {value : γ} {middle : Machine}
    {objects' : ObjId → ObjId → Prop} (hahead : ahead machine = .ok value middle)
    (hobjects : objects ≤ objects') (hframes : machine.SameFrames middle)
    (h : Follows c pace early floor objects' middle machine' kind (next value) second) :
    Follows c pace early floor objects machine machine' kind (ahead >>= next) second := by
  cases h with
  | done hfirst hsecond hreaches hkind =>
    exact .done ((bind_of_ok hahead).trans hfirst) hsecond
      ⟨hreaches.like, hobjects.trans hreaches.objects, hframes.trans hreaches.frames⟩ hkind
  | failed hfirst hsecond => exact .failed ((bind_of_ok hahead).trans hfirst) hsecond

/-- Bodies that run in frames made for the same. -/
theorem withFrame {held held' : Frame} {body : Nat → Eval α} {body' : pace.Index → Nat → Eval β}
    (h : machine.Like c pace early floor objects machine')
    (horigin : c.Origins floor machine.frames.size held.origin held'.origin)
    (hvalue : ∀ {symbol}, c.kept symbol → Option.Rel (Value.Like objects c.names)
      (held.locals.find? symbol) (held'.locals.find? (c.rename symbol)))
    (hbody : ∀ {pushed pushed'}, pushed.Like c pace early floor objects pushed' →
      machine.frames.size < pushed.frames.size →
        Follows c pace early floor objects pushed pushed' kind (body machine.frames.size)
          fun i ↦ body' i machine.frames.size) :
    Follows c pace early floor objects machine machine'
      (fun objects' ended ended' ↦ kind objects' ended.1 ended'.1 ∧
        ∀ {symbol}, c.kept symbol → Option.Rel (Value.Like objects' c.names)
          (ended.2.locals.find? symbol) (ended'.2.locals.find? (c.rename symbol)))
      (Eval.withFrame held body) fun i ↦ Eval.withFrame held' (body' i) := by
  have hroom := h.room
  cases hbody (h.push horigin hvalue) (by simp) with
  | done hfirst hsecond hreaches hkind =>
    rename_i value value' final final' objects'
    have hsize : final.frames.size = machine.frames.size + 1 := by
      simpa using hreaches.frames.size
    have hsize' := hreaches.like.size.trans hsize
    have hpopped : ∀ᶠ i in pace.within, Eval.withFrame held' (body' i) machine' =
        .ok (value', final'.frames.back?.getD held')
        { final' with frames := final'.frames.pop } := by
      filter_upwards [hsecond] with i hsecond
      rw [← h.size] at hsecond
      exact withFrame_of_ok hsecond
    refine .done (withFrame_of_ok hfirst) hpopped ⟨hreaches.like.pop (by omega),
      hreaches.objects, hreaches.frames.popped rfl rfl⟩ ⟨hkind, fun {symbol} hkept ↦ ?_⟩
    have hopen : Open early machine.frames.size symbol := fun entry hentry hdepth ↦ by
      have := (h.waits entry hentry).below
      omega
    have hleft := hreaches.like.value hkept hopen
    have hback : final.frames.back? = final.frames[machine.frames.size]? := by
      rw [Array.back?_eq_getElem?, hsize, Nat.add_sub_cancel]
    have hback' : final'.frames.back? = final'.frames[machine.frames.size]? := by
      rw [Array.back?_eq_getElem?, hsize', Nat.add_sub_cancel]
    have hlt : machine.frames.size < final.frames.size := by omega
    have hlt' : machine.frames.size < final'.frames.size := by omega
    rw [Machine.local?, Machine.local?, Array.getElem?_eq_getElem hlt,
      Array.getElem?_eq_getElem hlt'] at hleft
    rw [hback, hback', Array.getElem?_eq_getElem hlt, Array.getElem?_eq_getElem hlt']
    exact hleft
  | failed hfirst hsecond =>
    refine .failed (withFrame_of_error hfirst) fun hfails ↦ ?_
    obtain ⟨error', final', objects', hsecond, hone, hnumber, herror, hshows, hsteps⟩ :=
      hsecond hfails
    refine ⟨error', { final' with frames := final'.frames.pop }, objects', ?_, hone, hnumber,
      herror, ⟨hshows.output, hshows.calls⟩, hsteps⟩
    filter_upwards [hsecond] with i hsecond
    rw [← h.size] at hsecond
    exact withFrame_of_error hsecond

end Follows

end Eval

end IteratorLowering
