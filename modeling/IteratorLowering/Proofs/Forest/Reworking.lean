import IteratorLowering.Proofs.Forest.Links
import Mathlib.Order.Defs.Unbundled

/-!
# What a pass may touch

A pass works on some statements of a program and leaves the others where they are.
`program.Reworks scope program'` says what a program that is left has in common with the one
before: it is well linked if that one was, no handle is taken back, a statement stays an action or
stays compound, and types, symbols and functions stay what they were (`Program.Grows`). How far
the forest may change is given by a `Scope`, which names the statements that may be moved and the
loops whose headers may change. Actions may be moved by every pass.

The relation is a preorder, so that a pass is followed one update after the other. The lemmas of
the last sections give it for each update of an arena.
-/

set_option autoImplicit false
set_option relaxedAutoImplicit false

namespace IteratorLowering

namespace StmtKind

/-- Whether the statement has no place for nested statements. -/
def isAction : StmtKind → Bool
  | .action _ => true
  | .branch .. | .block .. => false

/-- The header of a for-loop, well formed or not. -/
def loopHeader? : StmtKind → Option (List Operand)
  | .block (some (.forLoop header)) _ => some header
  | _ => none

theorem isSome_loopHeader? (kind : StmtKind) : kind.loopHeader?.isSome = kind.isForLoop := by
  unfold loopHeader? isForLoop
  split <;> simp_all

theorem loopHeader?_eq_none {kind : StmtKind} (h : kind.isForLoop = false) :
    kind.loopHeader? = none := by
  rw [← isSome_loopHeader?] at h
  exact Option.not_isSome_iff_eq_none.mp (by simp [h])

theorem isForLoop_congr {kind kind' : StmtKind} (h : kind'.loopHeader? = kind.loopHeader?) :
    kind'.isForLoop = kind.isForLoop := by
  rw [← isSome_loopHeader?, h, isSome_loopHeader?]

/-- The members of a loop are no part of its header. -/
theorem loopHeader?_block (info : Option BlockInfo) (body body' : List StmtId) :
    (block info body).loopHeader? = (block info body').loopHeader? := by
  rcases info with _ | ⟨_ | _ | _ | _ | _⟩ <;> rfl

theorem isAction_eq_false_of_mem {kind : StmtKind} {child : StmtId} (h : child ∈ kind.children) :
    kind.isAction = false := by
  cases kind with
  | action => cases h
  | branch | block => rfl

theorem isAction_eq_false_of_isForLoop {kind : StmtKind} (h : kind.isForLoop = true) :
    kind.isAction = false := by
  cases kind with
  | action => cases h
  | branch | block => rfl

@[simp] theorem isAction_mapSymbols (f : SymId → SymId) (kind : StmtKind) :
    (kind.mapSymbols f).isAction = kind.isAction := by
  cases kind <;> rfl

@[simp] theorem isForLoop_mapSymbols (f : SymId → SymId) (kind : StmtKind) :
    (kind.mapSymbols f).isForLoop = kind.isForLoop := by
  cases kind with
  | action | branch => rfl
  | block info body => rcases info with _ | ⟨_ | _ | _ | _ | _⟩ <;> rfl

end StmtKind

/-- The statements that a pass may touch. -/
structure Scope where
  /-- The compound statements that may get another place. -/
  moved : StmtId → Prop
  /-- The loops whose headers may change. -/
  marked : StmtId → Prop
  /-- Whether a statement may become the body of a function. -/
  rooting : Prop
  /-- Whether for-loops may be made. -/
  looping : Prop

namespace Scope

/-- The scope with new bodies of functions allowed. -/
def rooted (scope : Scope) : Scope := { scope with rooting := True }

/-- The scope with one more statement that may be moved. -/
def adding (scope : Scope) (block : StmtId) : Scope :=
  { scope with moved := fun id ↦ scope.moved id ∨ id = block }

/-- The scope of a pass that may touch everything but gives no function a new body. -/
def everything : Scope := ⟨fun _ ↦ True, fun _ ↦ True, False, True⟩

/-- The scope of a pass that gives another place to some statements and makes no loop. -/
def only (ids : List StmtId) : Scope := ⟨(· ∈ ids), fun _ ↦ False, False, False⟩

/-- Whether symbols may be replaced everywhere in the tree of a statement. -/
def Renames (scope : Scope) (root : StmtId) : Prop := scope.moved root ∨ ∀ id, scope.marked id

/-- What the first scope allows, the second one allows. -/
structure Le (first second : Scope) : Prop where
  moved : ∀ {id}, first.moved id → second.moved id
  marked : ∀ {id}, first.marked id → second.marked id
  rooting : first.rooting → second.rooting
  looping : first.looping → second.looping

theorem Le.refl (scope : Scope) : scope.Le scope := ⟨id, id, id, id⟩

theorem le_rooted (scope : Scope) : scope.Le scope.rooted := ⟨id, id, fun _ ↦ trivial, id⟩

theorem rooted_le_adding (scope : Scope) (block : StmtId) :
    scope.rooted.Le (scope.adding block).rooted := ⟨.inl, id, id, id⟩

theorem le_adding_rooted (scope : Scope) (block : StmtId) :
    scope.Le (scope.adding block).rooted := ⟨.inl, id, fun _ ↦ trivial, id⟩

theorem only_le_only {ids ids' : List StmtId} (h : ids ⊆ ids') : (only ids).Le (only ids') :=
  ⟨fun hid ↦ h hid, False.elim, False.elim, False.elim⟩

theorem only_le_everything (ids : List StmtId) : (only ids).Le everything :=
  ⟨fun _ ↦ trivial, False.elim, False.elim, False.elim⟩

theorem le_everything_rooted (scope : Scope) : scope.Le everything.rooted :=
  ⟨fun _ ↦ trivial, fun _ ↦ trivial, fun _ ↦ trivial, fun _ ↦ trivial⟩

end Scope

namespace Program

/-- Whether the handle of a symbol has been given out. -/
def HasSymbol (program : Program) (id : SymId) : Prop := id.index < program.symbols.size

/-- Whether the handle of a type has been given out. -/
def HasType (program : Program) (id : TypeId) : Prop := id.index < program.types.size

/-- Whether the handle of a function has been given out. -/
def HasFunction (program : Program) (id : FnId) : Prop := id.index < program.functions.size

/-- Whether the handle of a function has been given out to one that is no iterator. -/
structure IsPlain (program : Program) (function : FnId) : Prop where
  has : program.HasFunction function
  plain : (program.function function).isIterator = false

/-- Nothing but statements and bodies of functions changes about what is there, except that a type
may be given a reference type, a symbol an owner, and a function that is no iterator formals. -/
structure Grows (program program' : Program) : Prop where
  symbol : ∀ {id}, program.HasSymbol id →
    program'.HasSymbol id ∧ program'.symbolType id = program.symbolType id
  type : ∀ {id}, program.HasType id → program'.HasType id ∧
    { program'.type id with refType := none } = { program.type id with refType := none }
  function : ∀ {id}, program.HasFunction id → program'.HasFunction id ∧
    (program'.function id).flags = (program.function id).flags ∧
    ((program.function id).isIterator = true →
      (program'.function id).formals = (program.function id).formals)

namespace Grows

variable {program program' program'' : Program}

theorem refl (program : Program) : program.Grows program :=
  ⟨fun h ↦ ⟨h, rfl⟩, fun h ↦ ⟨h, rfl⟩, fun h ↦ ⟨h, rfl, fun _ ↦ rfl⟩⟩

theorem trans (first : program.Grows program') (second : program'.Grows program'') :
    program.Grows program'' := by
  refine ⟨fun h ↦ ?_, fun h ↦ ?_, fun h ↦ ?_⟩
  · obtain ⟨hthere, htype⟩ := first.symbol h
    exact ⟨(second.symbol hthere).1, (second.symbol hthere).2.trans htype⟩
  · obtain ⟨hthere, hsame⟩ := first.type h
    exact ⟨(second.type hthere).1, (second.type hthere).2.trans hsame⟩
  · obtain ⟨hthere, hflags, hformals⟩ := first.function h
    obtain ⟨hthere', hflags', hformals'⟩ := second.function hthere
    refine ⟨hthere', hflags'.trans hflags, fun hiterator ↦ ?_⟩
    rw [hformals' (by rwa [FnDef.isIterator, hflags]), hformals hiterator]

/-- A change of nothing but the statements. -/
theorem of_statements (program : Program) (statements : Array Stmt) :
    program.Grows { program with statements } :=
  ⟨fun h ↦ ⟨h, rfl⟩, fun h ↦ ⟨h, rfl⟩, fun h ↦ ⟨h, rfl, fun _ ↦ rfl⟩⟩

theorem isIterator (h : program.Grows program') {id : FnId} (hid : program.HasFunction id) :
    (program'.function id).isIterator = (program.function id).isIterator := by
  rw [FnDef.isIterator, (h.function hid).2.1, FnDef.isIterator]

theorem isPlain (h : program.Grows program') {id : FnId} (hid : program.IsPlain id) :
    program'.IsPlain id :=
  ⟨(h.function hid.has).1, (h.isIterator hid.has).trans hid.plain⟩

end Grows

/-- What a program has in common with one that was reached from it within a scope. -/
structure Reworks (scope : Scope) (program program' : Program) : Prop where
  wellLinked : program.WellLinked → program'.WellLinked
  has : ∀ {id}, program.Has id → program'.Has id
  ownerless : ¬ scope.rooting → ∀ {id}, program.Has id → (program.stmt id).bodyOf = none →
    (program'.stmt id).bodyOf = none
  body : ¬ scope.rooting → ∀ {function}, program.HasFunction function →
    program'.bodyOf function = program.bodyOf function
  isAction : ∀ {id}, program.Has id → (program'.kind id).isAction = (program.kind id).isAction
  place : ∀ {id}, program.Has id → (program.kind id).isAction = false → ¬ scope.moved id →
    program'.parent id = program.parent id ∧
      (program'.stmt id).bodyOf = (program.stmt id).bodyOf
  header : ∀ {id}, program.Has id → ¬ scope.marked id →
    (program'.kind id).loopHeader? = (program.kind id).loopHeader?
  isForLoop : ∀ {id}, program.Has id → (program'.kind id).isForLoop = true →
    (program.kind id).isForLoop = true
  no_loop : ¬ scope.looping → ∀ {id}, ¬ program.Has id → (program'.kind id).isForLoop = false
  grows : program.Grows program'

/-- Whether a pass may give a statement another place. -/
def Movable (program : Program) (scope : Scope) (id : StmtId) : Prop :=
  scope.moved id ∨ (program.kind id).isAction = true

/-- Whether a pass may insert a statement somewhere: it is there, it is the body of no function,
and it may be moved. -/
structure Loose (program : Program) (scope : Scope) (id : StmtId) : Prop where
  has : program.Has id
  owner : (program.stmt id).bodyOf = none
  movable : program.Movable scope id

theorem Loose.rooted {program : Program} {scope : Scope} {id : StmtId}
    (h : program.Loose scope id) : program.Loose scope.rooted id :=
  ⟨h.has, h.owner, h.movable⟩

namespace Reworks

variable {scope scope' : Scope} {program program' program'' : Program} {id : StmtId}

theorem refl (scope : Scope) (program : Program) : program.Reworks scope program where
  wellLinked h := h
  has h := h
  ownerless _ _ _ h := h
  body _ _ _ := rfl
  isAction _ := rfl
  place _ _ _ := ⟨rfl, rfl⟩
  header _ _ := rfl
  isForLoop _ h := h
  no_loop _ _ h := by
    rw [Program.kind, stmt_of_not_has h]
    rfl
  grows := .refl program

theorem trans (first : program.Reworks scope program')
    (second : program'.Reworks scope program'') : program.Reworks scope program'' where
  wellLinked := second.wellLinked ∘ first.wellLinked
  has := second.has ∘ first.has
  ownerless hcalm _ h howner :=
    second.ownerless hcalm (first.has h) (first.ownerless hcalm h howner)
  body hcalm _ h :=
    (second.body hcalm (first.grows.function h).1).trans (first.body hcalm h)
  isAction h := (second.isAction (first.has h)).trans (first.isAction h)
  place h haction hmoved := by
    have hsecond := second.place (first.has h) ((first.isAction h).trans haction) hmoved
    have hfirst := first.place h haction hmoved
    exact ⟨hsecond.1.trans hfirst.1, hsecond.2.trans hfirst.2⟩
  header h hmarked := (second.header (first.has h) hmarked).trans (first.header h hmarked)
  isForLoop h := first.isForLoop h ∘ second.isForLoop (first.has h)
  no_loop hlooping id h := by
    by_cases hmiddle : program'.Has id
    · exact eq_false_of_ne_true fun hloop ↦
        Bool.false_ne_true ((first.no_loop hlooping h).symm.trans (second.isForLoop hmiddle hloop))
    · exact second.no_loop hlooping hmiddle
  grows := first.grows.trans second.grows

instance : IsPreorder Program (Reworks scope) where
  refl := refl scope
  trans _ _ _ := trans

theorem mono (hle : scope.Le scope') (h : program.Reworks scope program') :
    program.Reworks scope' program' where
  wellLinked := h.wellLinked
  has := h.has
  ownerless hcalm := h.ownerless fun hrooting ↦ hcalm (hle.rooting hrooting)
  body hcalm := h.body fun hrooting ↦ hcalm (hle.rooting hrooting)
  isAction := h.isAction
  place hid haction hmoved := h.place hid haction fun hid ↦ hmoved (hle.moved hid)
  header hid hmarked := h.header hid fun hid ↦ hmarked (hle.marked hid)
  isForLoop := h.isForLoop
  no_loop hlooping := h.no_loop fun hloop ↦ hlooping (hle.looping hloop)
  grows := h.grows

theorem isForLoop_eq_false (h : program.Reworks scope program') (hid : program.Has id)
    (hloop : (program.kind id).isForLoop = false) : (program'.kind id).isForLoop = false :=
  eq_false_of_ne_true fun hloop' ↦
    Bool.false_ne_true (hloop.symm.trans (h.isForLoop hid hloop'))

theorem movable (h : program.Reworks scope program') (hid : program.Has id)
    (hmovable : program.Movable scope id) : program'.Movable scope id :=
  hmovable.imp_right fun haction ↦ (h.isAction hid).trans haction

theorem loose (h : program.Reworks scope program') (hcalm : ¬ scope.rooting)
    (hloose : program.Loose scope id) : program'.Loose scope id :=
  ⟨h.has hloose.has, h.ownerless hcalm hloose.has hloose.owner,
    h.movable hloose.has hloose.movable⟩

end Reworks

end Program

namespace Scope

/-- A scope without new bodies that allows new statements to be moved and that, with a statement
that may be moved, allows everything nested in it to be moved. -/
structure Fits (scope : Scope) (program : Program) : Prop where
  wellLinked : program.WellLinked
  calm : ¬ scope.rooting
  new : ∀ {id}, ¬ program.Has id → scope.moved id
  closed : ∀ {id child}, scope.moved id → program.parent child = some id →
    (program.kind child).isAction = false → scope.moved child
  marked : ∀ {id}, scope.moved id → scope.marked id

namespace Fits

variable {scope : Scope} {program program' : Program} {id child root : StmtId}

theorem everything (h : program.WellLinked) : Scope.everything.Fits program :=
  ⟨h, id, fun _ ↦ trivial, fun _ _ _ ↦ trivial, fun _ ↦ trivial⟩

/-- A scope still fits after a pass that also moved a statement which now has no parent. -/
theorem afterAdding {block : StmtId} (h : scope.Fits program)
    (hreworks : program.Reworks (scope.adding block).rooted program')
    (hblock : scope.moved block ∨ program'.parent block = none) : scope.Fits program' where
  wellLinked := hreworks.wellLinked h.wellLinked
  calm := h.calm
  new hid := h.new fun hhas ↦ hid (hreworks.has hhas)
  closed {id child} hid hparent hchild := by
    by_contra hmoved
    have hhas : program.Has child := by
      by_contra hnew
      exact hmoved (h.new hnew)
    have hadding : ¬ (scope.adding block).moved child := by
      rintro (hmoved' | rfl)
      · exact hmoved hmoved'
      · rw [hblock.resolve_left hmoved] at hparent
        cases hparent
    have haction := (hreworks.isAction hhas).symm.trans hchild
    have hplace := (hreworks.place hhas haction hadding).1.symm.trans hparent
    exact hmoved (h.closed hid hplace haction)
  marked := h.marked

theorem afterRooted (h : scope.Fits program) (hreworks : program.Reworks scope.rooted program') :
    scope.Fits program' := by
  have hnone : ¬ program'.Has program'.nextStmt := program'.not_has_nextStmt
  refine h.afterAdding (hreworks.mono (scope.rooted_le_adding program'.nextStmt)) (.inr ?_)
  rw [Program.parent, Program.stmt_of_not_has hnone]
  rfl

theorem after (h : scope.Fits program) (hreworks : program.Reworks scope program') :
    scope.Fits program' :=
  h.afterRooted (hreworks.mono scope.le_rooted)

theorem movable_child (h : scope.Fits program) (hid : scope.moved id)
    (hchild : child ∈ (program.kind id).children) : program.Movable scope child := by
  cases haction : (program.kind child).isAction with
  | true => exact .inr haction
  | false => exact .inl (h.closed hid (h.wellLinked.parent_of_child hchild) haction)

theorem movable_member (h : scope.Fits program) (hid : scope.moved id)
    (hchild : child ∈ program.blockBody id) : program.Movable scope child :=
  h.movable_child hid (Program.mem_children_of_mem_blockBody hchild)

/-- The members of a block that may be moved can be inserted elsewhere. -/
theorem loose_child (h : scope.Fits program) (hid : scope.moved id)
    (hchild : child ∈ (program.kind id).children) : program.Loose scope child where
  has := h.wellLinked.has_of_child hchild
  owner := h.wellLinked.ownerless_of_parent (h.wellLinked.parent_of_child hchild)
  movable := h.movable_child hid hchild

/-- Where new statements may be moved and no others, what is below them is new as well. -/
theorem of_new (h : program.WellLinked) (hcalm : ¬ scope.rooting)
    (hmoved : ∀ id, scope.moved id ↔ ¬ program.Has id)
    (hmarked : ∀ id, scope.moved id → scope.marked id) : scope.Fits program where
  wellLinked := h
  calm := hcalm
  new hid := (hmoved _).mpr hid
  closed hid hparent _ :=
    absurd (Program.has_of_mem_children (h.child_of_parent hparent)) ((hmoved _).mp hid)
  marked := hmarked _

/-- What may be moved may be moved later, also if it was made in between. -/
theorem movable_after (h : scope.Fits program) (hreworks : program.Reworks scope program')
    (hid : program.Movable scope id) : program'.Movable scope id := by
  by_cases hhas : program.Has id
  · exact hreworks.movable hhas hid
  · exact .inl (h.new hhas)

/-- With a statement, everything in its tree may be moved. -/
theorem movable_of_mem_preorder (h : scope.Fits program) {depth : Nat}
    (hroot : program.Movable scope root) (hid : id ∈ program.preorder depth root) :
    program.Movable scope id := by
  induction depth generalizing root with
  | zero => exact List.mem_singleton.mp hid ▸ hroot
  | succ depth ih =>
    rcases List.mem_cons.mp hid with rfl | hid
    · exact hroot
    · obtain ⟨child, hchild, hid⟩ := List.mem_flatMap.mp hid
      have haction := StmtKind.isAction_eq_false_of_mem hchild
      exact ih (h.movable_child (hroot.resolve_right (by simp [haction])) hchild) hid

theorem movable_of_mem_walk (h : scope.Fits program) (hroot : scope.moved root)
    (hid : id ∈ program.walk root) : program.Movable scope id :=
  h.movable_of_mem_preorder (.inl hroot) hid

theorem marked_of_mem_walk (h : scope.Fits program) (hroot : scope.Renames root)
    (hid : id ∈ program.walk root) (hloop : (program.kind id).isForLoop = true) :
    scope.marked id := by
  rcases hroot with hroot | hall
  · refine h.marked ((h.movable_of_mem_walk hroot hid).resolve_right ?_)
    simp [StmtKind.isAction_eq_false_of_isForLoop hloop]
  · exact hall id

end Fits

end Scope

end IteratorLowering
