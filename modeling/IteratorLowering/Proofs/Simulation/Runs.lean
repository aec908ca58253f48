import IteratorLowering.Proofs.Evaluation.Sound
import IteratorLowering.Proofs.Simulation.Statements

/-!
# Runs of programs that correspond

A run of a function on scalar arguments, from a machine that has done nothing yet, is followed by
the run of the corresponding program (`run_like`): from some point of the pace on the second run
ends like the first. What has to be shown for this is that the correspondence is sound, that the
pace is fair, and that the stretches which stand for each other do the same.
-/

set_option autoImplicit false
set_option relaxedAutoImplicit false

namespace IteratorLowering

variable {c : Correspondence} {pace : Pace}

theorem Value.Like.of_isScalar {objects : ObjId → ObjId → Prop} {names : SymId → SymId → Prop}
    {value : Value} (h : value.isScalar = true) : Value.Like objects names value value := by
  cases value with
  | obj object => cases h
  | ref place => cases h
  | _ => constructor

theorem Machine.like_new (c : Correspondence) (hheaps : pace.heaps 0 0) (hsteps : pace.steps 0 0) :
    Machine.new.Like c pace [] 0 (fun _ _ ↦ False) Machine.new where
  oneToOne := ⟨fun _ _ _ h ↦ h.elim, fun _ _ _ h ↦ h.elim⟩
  heap h := h.elim
  number h := h.elim
  heaps := hheaps
  size := rfl
  origin _ := .none
  value _ _ := .none
  room := Nat.zero_le _
  waits _ h := nomatch h
  apart := .nil
  shows := ⟨.nil, fun _ ↦ rfl⟩
  steps := hsteps

namespace Eval

/-- The two programs correspond, and the stretches of their lists do the same. -/
structure Simulates (c : Correspondence) (pace : Pace) : Prop where
  sound : c.Sound
  fair : pace.Fair
  stretching : ∀ {fuel lasting}, pace.lasts fuel lasting →
    (∀ {less lasting'}, less < fuel → pace.lasts less lasting' →
      Executing c pace (execute c.source pace.limits less)
        fun i ↦ execute c.target (pace.limits' i) (lasting' i)) →
    Stretching c pace (execute c.source pace.limits fuel)
      fun i ↦ execute c.target (pace.limits' i) (lasting i)

/-- Where no two stretches stand for each other, nothing is to be shown of them. -/
theorem Simulates.of_no_stretch (hc : c.Sound) (hfair : pace.Fair)
    (hnone : ∀ ids ids', ¬ c.stretch ids ids') : Simulates c pace :=
  ⟨hc, hfair, fun _ _ ↦ ⟨fun h ↦ absurd h (hnone _ _), fun h ↦ absurd h (hnone _ _),
    fun h ↦ absurd h (hnone _ _), fun h ↦ absurd h (hnone _ _), fun h ↦ absurd h (hnone _ _)⟩⟩

end Eval

/-- A run is followed by the run of the corresponding program, unless it fails in a way that need
not be shared. -/
theorem run_like (h : Eval.Simulates c pace) (hheaps : pace.heaps 0 0) (hsteps : pace.steps 0 0)
    (hlasts : pace.lasts (Machine.new.fuel pace.limits) fun i ↦ Machine.new.fuel (pace.limits' i))
    {function : FnId} (hfunction : c.called function) {args : List Value}
    (hargs : ∀ arg ∈ args, arg.isScalar = true)
    (hfails : ∀ error final,
      Machine.new.run c.source pace.limits function args = .error error final →
        pace.fails error) :
    ∃ objects result, Relator.BiUnique objects ∧
      (∀ {id id'}, objects id id' → pace.heaps id.index id'.index) ∧
      (∀ᶠ i in pace.within, Machine.new.run c.target (pace.limits' i) function args = result) ∧
      Outcome.Like objects c.names (Machine.new.run c.source pace.limits function args) result ∧
      pace.steps (Eval.left (Machine.new.run c.source pace.limits function args)).steps
        (Eval.left result).steps := by
  have hlike : List.Forall₂ (Value.Like (fun _ _ ↦ False) c.names) args args :=
    List.forall₂_same.mpr fun arg harg ↦ .of_isScalar (hargs arg harg)
  have hrun : Eval.Executing c pace _ _ :=
    Eval.executing_execute h.sound h.fair h.stretching hlasts
  cases Eval.follows_call h.sound h.fair hrun (Machine.like_new c hheaps hsteps)
      hfunction hlike with
  | @done value value' final final' objects hfirst hsecond hreaches hkind =>
    have hfirst : Machine.new.run c.source pace.limits function args = .ok value final := hfirst
    rw [hfirst]
    exact ⟨objects, .ok value' final', hreaches.like.oneToOne, hreaches.like.number, hsecond,
      .ok hkind hreaches.like.shows, hreaches.like.steps⟩
  | @failed error final hfirst hsecond =>
    have hfirst : Machine.new.run c.source pace.limits function args = .error error final := hfirst
    obtain ⟨error', final', objects, hsecond, hone, hnumber, herror, hshows, hsteps⟩ :=
      hsecond (hfails _ _ hfirst)
    rw [hfirst]
    exact ⟨objects, .error error' final', hone, hnumber, hsecond, .error herror hshows, hsteps⟩

end IteratorLowering
