import IteratorLowering.Evaluation.Run
import Mathlib.Data.List.Forall2
import Mathlib.Logic.Relation
import Mathlib.Logic.Relator

/-!
# Values up to the names of objects and symbols

Two programs that do the same may hand out different objects for the same purpose and may call
their variables by different symbols. `Value.Like objects names` compares values up to both: an
object stands for one that corresponds to it, and a reference to a local for a reference to the
corresponding local of the frame at the same depth. Everything else must be the same.

The relation sees through everything that a program can do with values: conversions
(`Value.Like.asInt?`, `Value.Like.asBool?`), comparison, where the correspondence is one-to-one
(`Value.Like.equal`), and primitive operations (`Eval.primitive_like`). Results of runs are compared
by `Outcome.Like`, which also compares the traced values and the numbers of calls, and likenesses
compose (`Outcome.SameUpToObjects.trans`).
-/

set_option autoImplicit false
set_option relaxedAutoImplicit false

namespace IteratorLowering

section

variable (objects : ObjId → ObjId → Prop) (names : SymId → SymId → Prop)

/-- Corresponding places. -/
inductive Place.Like : Place → Place → Prop
  | slot {depth : Nat} {symbol symbol' : SymId} (h : names symbol symbol') :
      Place.Like (.slot depth symbol) (.slot depth symbol')
  | field {object object' : ObjId} {position : Nat} (h : objects object object') :
      Place.Like (.field object position) (.field object' position)

/-- Values that are the same up to the names of objects and symbols. -/
inductive Value.Like : Value → Value → Prop
  | void : Value.Like .void .void
  | nil : Value.Like .nil .nil
  | int (number : Int64) : Value.Like (.int number) (.int number)
  | bool (holds : Bool) : Value.Like (.bool holds) (.bool holds)
  | str (text : String) : Value.Like (.str text) (.str text)
  | obj {object object' : ObjId} (h : objects object object') :
      Value.Like (.obj object) (.obj object')
  | ref {place place' : Place} (h : Place.Like objects names place place') :
      Value.Like (.ref place) (.ref place')

/-- Failures that are the same up to the value that a message shows. -/
inductive EvalError.Like : EvalError → EvalError → Prop
  | typeMismatch {expected : String} {found found' : Value}
      (h : Value.Like objects names found found') :
      EvalError.Like (.typeMismatch expected found) (.typeMismatch expected found')
  | other {error : EvalError} (h : ∀ expected found, error ≠ .typeMismatch expected found) :
      EvalError.Like error error

/-- Machines that have traced like values and counted the same calls. -/
structure Machine.ShowsLike (machine machine' : Machine) : Prop where
  output : List.Forall₂ (Value.Like objects names) machine.output.toList machine'.output.toList
  calls : ∀ function, machine'.callCount function = machine.callCount function

/-- Runs that end alike: with like results or like failures, and having shown the same. -/
inductive Outcome.Like : EStateM.Result EvalError Machine Value →
    EStateM.Result EvalError Machine Value → Prop
  | ok {value value' : Value} {final final' : Machine}
      (hvalue : Value.Like objects names value value')
      (hshows : Machine.ShowsLike objects names final final') :
      Outcome.Like (.ok value final) (.ok value' final')
  | error {error error' : EvalError} {final final' : Machine}
      (herror : EvalError.Like objects names error error')
      (hshows : Machine.ShowsLike objects names final final') :
      Outcome.Like (.error error final) (.error error' final')

end

variable {objects objects' : ObjId → ObjId → Prop} {names names' : SymId → SymId → Prop}

theorem Place.Like.mono {place place' : Place} (hobjects : objects ≤ objects')
    (hnames : names ≤ names') (h : Place.Like objects names place place') :
    Place.Like objects' names' place place' := by
  cases h with
  | slot h => exact .slot (hnames _ _ h)
  | field h => exact .field (hobjects _ _ h)

namespace Value.Like

variable {value value' other other' : Value}

theorem mono (hobjects : objects ≤ objects') (hnames : names ≤ names')
    (h : Value.Like objects names value value') : Value.Like objects' names' value value' := by
  cases h with
  | obj h => exact .obj (hobjects _ _ h)
  | ref h => exact .ref (h.mono hobjects hnames)
  | _ => constructor

theorem asInt? (h : Value.Like objects names value value') : value'.asInt? = value.asInt? := by
  cases h <;> rfl

theorem asBool? (h : Value.Like objects names value value') : value'.asBool? = value.asBool? := by
  cases h <;> rfl

/-- Like values are equal to like values or both are not. -/
theorem eq_iff (hobjects : Relator.BiUnique objects) (hnames : Relator.BiUnique names)
    (h : Value.Like objects names value value') (h' : Value.Like objects names other other') :
    value = other ↔ value' = other' := by
  cases h with
  | obj h =>
    cases h' with
    | obj h' =>
      simp only [Value.obj.injEq]
      exact Relator.rel_eq hobjects h h'
    | _ => simp
  | ref h =>
    cases h' with
    | ref h' =>
      cases h with
      | slot h =>
        cases h' with
        | slot h' =>
          simp only [Value.ref.injEq, Place.slot.injEq]
          exact and_congr Iff.rfl (Relator.rel_eq hnames h h')
        | field h' => simp
      | field h =>
        cases h' with
        | slot h' => simp
        | field h' =>
          simp only [Value.ref.injEq, Place.field.injEq]
          exact and_congr (Relator.rel_eq hobjects h h') Iff.rfl
    | _ => simp
  | _ => cases h' <;> simp

theorem equal (hobjects : Relator.BiUnique objects) (hnames : Relator.BiUnique names)
    (h : Value.Like objects names value value') (h' : Value.Like objects names other other') :
    value'.equal other' = value.equal other := by
  have heq : (value' == other') = (value == other) :=
    Bool.eq_iff_iff.mpr (by simpa using (h.eq_iff hobjects hnames h').symm)
  unfold Value.equal
  rw [h.asInt?, h'.asInt?, heq]

end Value.Like

namespace Eval

/-! ### Primitive operations -/

/-- Two computations without a machine both give related results or both fail alike. -/
inductive Agree {α β : Type} (errors : EvalError → EvalError → Prop) (kind : α → β → Prop) :
    Except EvalError α → Except EvalError β → Prop
  | ok {value : α} {value' : β} (h : kind value value') : Agree errors kind (.ok value) (.ok value')
  | error {error error' : EvalError} (h : errors error error') :
      Agree errors kind (.error error) (.error error')

theorem Agree.bind {α β γ δ : Type} {errors : EvalError → EvalError → Prop} {kind : α → β → Prop}
    {kind' : γ → δ → Prop} {first : Except EvalError α} {second : Except EvalError β}
    {next : α → Except EvalError γ} {next' : β → Except EvalError δ}
    (h : Agree errors kind first second)
    (hnext : ∀ value value', kind value value' → Agree errors kind' (next value) (next' value')) :
    Agree errors kind' (first >>= next) (second >>= next') := by
  cases h with
  | ok h => exact hnext _ _ h
  | error h => exact .error h

variable {value value' other other' : Value}

theorem intOf_like (h : Value.Like objects names value value') :
    Agree (EvalError.Like objects names) Eq (intOf value) (intOf value') := by
  unfold intOf
  rw [h.asInt?]
  cases value.asInt? with
  | some number => exact .ok rfl
  | none => exact .error (.typeMismatch h)

theorem boolOf_like (h : Value.Like objects names value value') :
    Agree (EvalError.Like objects names) Eq (boolOf value) (boolOf value') := by
  unfold boolOf
  rw [h.asBool?]
  cases value.asBool? with
  | some holds => exact .ok rfl
  | none => exact .error (.typeMismatch h)

theorem onInts_like {combine : Int64 → Int64 → Value}
    (hcombine : ∀ left right, Value.Like objects names (combine left right) (combine left right))
    (h : Value.Like objects names value value') (h' : Value.Like objects names other other') :
    Agree (EvalError.Like objects names) (Value.Like objects names)
      (onInts combine value other) (onInts combine value' other') := by
  refine .bind (intOf_like h) ?_
  rintro left _ rfl
  refine .bind (intOf_like h') ?_
  rintro right _ rfl
  exact .ok (hcombine left right)

/-- A primitive operation does the same to like operands. -/
theorem primitive_like (hobjects : Relator.BiUnique objects) (hnames : Relator.BiUnique names)
    {op : PrimOp} {values values' : List Value}
    (h : List.Forall₂ (Value.Like objects names) values values') :
    Agree (EvalError.Like objects names) (Value.Like objects names)
      (primitive op values) (primitive op values') := by
  have hbool : ∀ {holds : Bool}, Agree (EvalError.Like objects names) (Value.Like objects names)
      (.ok (.bool holds)) (.ok (.bool holds)) := .ok (.bool _)
  have harity {values values' : List Value} (hlength : values.length = values'.length) :
      Agree (EvalError.Like objects names) (Value.Like objects names)
        (.error (.arity op values.length)) (.error (.arity op values'.length)) := by
    rw [hlength]
    exact .error (.other nofun)
  -- The number of operands decides which operation is meant, before its kind does.
  cases h with
  | nil => cases op <;> exact harity rfl
  | @cons first first' _ _ hfirst h =>
    cases h with
    | nil =>
      cases op with
      | not =>
        refine .bind (boolOf_like hfirst) ?_
        rintro holds _ rfl
        exact hbool
      | _ => exact harity rfl
    | @cons second second' _ _ hsecond h =>
      cases h with
      | nil =>
        cases op with
        | not => exact harity rfl
        | add | sub | mul => exact onInts_like (fun _ _ ↦ .int _) hfirst hsecond
        | lt | le | gt | ge => exact onInts_like (fun _ _ ↦ .bool _) hfirst hsecond
        | eq | ne =>
          simp only [primitive, hfirst.equal hobjects hnames hsecond]
          exact hbool
        | and | or =>
          refine .bind (boolOf_like hfirst) ?_
          rintro holds _ rfl
          cases holds
          all_goals first
            | exact hbool
            | refine .bind (boolOf_like hsecond) ?_
              rintro holds _ rfl
              exact hbool
      | cons hthird h =>
        have hlength := h.length_eq
        cases op <;> exact harity (by simp [hlength])

theorem castTo_like {kind : TypeKind} (h : Value.Like objects names value value') :
    Value.Like objects names (castTo kind value) (castTo kind value') := by
  unfold castTo
  split
  · rw [h.asInt?]
    cases value.asInt? with
    | none => exact h
    | some number => exact .int number
  · rw [h.asBool?]
    cases value.asBool? with
    | none => exact h
    | some holds => exact .bool holds
  all_goals exact h

theorem fieldDefault_like (kind : TypeKind) :
    Value.Like objects names (fieldDefault kind) (fieldDefault kind) := by
  cases kind <;> constructor

end Eval

/-! ### Results of runs -/

theorem Value.Like.comp {value value' value'' : Value} (h : Value.Like objects names value value')
    (h' : Value.Like objects' names' value' value'') :
    Value.Like (Relation.Comp objects objects') (Relation.Comp names names') value value'' := by
  cases h with
  | obj h =>
    cases h' with
    | obj h' => exact .obj ⟨_, h, h'⟩
  | ref h =>
    cases h' with
    | ref h' =>
      cases h with
      | slot h =>
        cases h' with
        | slot h' => exact .ref (.slot ⟨_, h, h'⟩)
      | field h =>
        cases h' with
        | field h' => exact .ref (.field ⟨_, h, h'⟩)
  | _ => cases h'; constructor

theorem Value.Like.comp_all {values values' values'' : List Value}
    (h : List.Forall₂ (Value.Like objects names) values values')
    (h' : List.Forall₂ (Value.Like objects' names') values' values'') :
    List.Forall₂ (Value.Like (Relation.Comp objects objects') (Relation.Comp names names'))
      values values'' := by
  induction h generalizing values'' with
  | nil => cases h'; exact .nil
  | cons hvalue _ ih =>
    cases h' with
    | cons hvalue' h' => exact .cons (hvalue.comp hvalue') (ih h')

theorem EvalError.Like.comp {error error' error'' : EvalError}
    (h : EvalError.Like objects names error error')
    (h' : EvalError.Like objects' names' error' error'') :
    EvalError.Like (Relation.Comp objects objects') (Relation.Comp names names') error error'' := by
  cases h with
  | typeMismatch h =>
    cases h' with
    | typeMismatch h' => exact .typeMismatch (h.comp h')
    | other hother => exact absurd rfl (hother _ _)
  | other hother =>
    cases h' with
    | typeMismatch _ => exact absurd rfl (hother _ _)
    | other => exact .other hother

theorem EvalError.Like.mono {error error' : EvalError} (hobjects : objects ≤ objects')
    (hnames : names ≤ names') (h : EvalError.Like objects names error error') :
    EvalError.Like objects' names' error error' := by
  cases h with
  | typeMismatch h => exact .typeMismatch (h.mono hobjects hnames)
  | other hother => exact .other hother

theorem Machine.ShowsLike.mono {machine machine' : Machine} (hobjects : objects ≤ objects')
    (hnames : names ≤ names') (h : machine.ShowsLike objects names machine') :
    machine.ShowsLike objects' names' machine' where
  output := h.output.imp fun _ _ hvalue ↦ hvalue.mono hobjects hnames
  calls := h.calls

theorem Machine.ShowsLike.comp {machine machine' machine'' : Machine}
    (h : machine.ShowsLike objects names machine')
    (h' : machine'.ShowsLike objects' names' machine'') :
    machine.ShowsLike (Relation.Comp objects objects') (Relation.Comp names names') machine'' where
  output := Value.Like.comp_all h.output h'.output
  calls function := (h'.calls function).trans (h.calls function)

namespace Outcome

variable {first second third : EStateM.Result EvalError Machine Value}

theorem Like.comp (h : Outcome.Like objects names first second)
    (h' : Outcome.Like objects' names' second third) :
    Outcome.Like (Relation.Comp objects objects') (Relation.Comp names names') first third := by
  cases h with
  | ok hvalue hshows =>
    cases h' with
    | ok hvalue' hshows' => exact .ok (hvalue.comp hvalue') (hshows.comp hshows')
  | error herror hshows =>
    cases h' with
    | error herror' hshows' => exact .error (herror.comp herror') (hshows.comp hshows')

theorem Like.mono (hobjects : objects ≤ objects') (hnames : names ≤ names')
    (h : Outcome.Like objects names first second) : Outcome.Like objects' names' first second := by
  cases h with
  | ok hvalue hshows => exact .ok (hvalue.mono hobjects hnames) (hshows.mono hobjects hnames)
  | error herror hshows => exact .error (herror.mono hobjects hnames) (hshows.mono hobjects hnames)

/-- Runs that end alike, up to a renaming of the objects that is one-to-one. -/
def SameUpToObjects (first second : EStateM.Result EvalError Machine Value) : Prop :=
  ∃ objects, Relator.BiUnique objects ∧ Outcome.Like objects Eq first second

theorem SameUpToObjects.trans (h : SameUpToObjects first second)
    (h' : SameUpToObjects second third) :
    SameUpToObjects first third := by
  obtain ⟨objects, ⟨hleft, hright⟩, hlike⟩ := h
  obtain ⟨objects', ⟨hleft', hright'⟩, hlike'⟩ := h'
  refine ⟨Relation.Comp objects objects', ⟨?_, ?_⟩, ?_⟩
  · rintro first second last ⟨middle, h, h'⟩ ⟨other, hother, hother'⟩
    obtain rfl := hleft' h' hother'
    exact hleft h hother
  · rintro first second last ⟨middle, h, h'⟩ ⟨other, hother, hother'⟩
    obtain rfl := hright h hother
    exact hright' h' hother'
  · have hcomp := hlike.comp hlike'
    rwa [Relation.eq_comp] at hcomp

end Outcome

end IteratorLowering
