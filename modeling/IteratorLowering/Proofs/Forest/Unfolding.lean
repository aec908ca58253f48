import IteratorLowering.Program.Walk
import IteratorLowering.Proofs.Forest.Arena
import Mathlib.Data.List.Nodup
import Mathlib.Data.List.Perm.Subperm

/-!
# Unfoldings

`program.Unfolds roots ids` says that the trees below the roots are finite and that `ids` lists
them in preorder, one tree after the other. It is what `Program.walk` computes
(`Unfolds.walk_eq`), without a bound on the depth, and the induction that every property of a
walk follows. An unfolding only depends on the children of the statements it lists
(`Unfolds.congr`), so an edit somewhere else leaves it alone.
-/

set_option autoImplicit false
set_option relaxedAutoImplicit false

namespace IteratorLowering

/-- What is before another member of a list without repeats is not also after it. -/
theorem not_sublist_swap {α : Type} {first second : α} {list : List α} (hnodup : list.Nodup)
    (h : [first, second].Sublist list) : ¬ [second, first].Sublist list := by
  induction list with
  | nil => cases h
  | cons head rest ih =>
    obtain ⟨hnot, hnodup⟩ := List.nodup_cons.mp hnodup
    intro hswap
    cases h with
    | cons _ h =>
      cases hswap with
      | cons _ hswap => exact ih hnodup h hswap
      | cons_cons _ _ => exact hnot (h.subset (by simp))
    | cons_cons _ h =>
      cases hswap with
      | cons _ hswap => exact hnot (hswap.subset (by simp))
      | cons_cons _ _ => exact hnot (h.subset (by simp))

namespace Program

/-- The preorder of the trees below some statements. -/
inductive Unfolds (program : Program) : List StmtId → List StmtId → Prop
  | nil : Unfolds program [] []
  | cons {id : StmtId} {rest below after : List StmtId}
      (inside : Unfolds program (program.kind id).children below)
      (beside : Unfolds program rest after) :
      Unfolds program (id :: rest) (id :: (below ++ after))

namespace Unfolds

variable {program program' : Program} {roots roots' ids ids' : List StmtId}

theorem append (first : program.Unfolds roots ids) (second : program.Unfolds roots' ids') :
    program.Unfolds (roots ++ roots') (ids ++ ids') := by
  induction first with
  | nil => exact second
  | cons inside beside _ ih =>
    rw [List.cons_append, List.cons_append, List.append_assoc]
    exact .cons inside ih

theorem singleton {id : StmtId} {below : List StmtId}
    (inside : program.Unfolds (program.kind id).children below) :
    program.Unfolds [id] (id :: below) := by
  simpa using Unfolds.cons inside .nil

theorem of_singleton {id : StmtId} (h : program.Unfolds [id] ids) :
    ∃ below, program.Unfolds (program.kind id).children below ∧ ids = id :: below := by
  obtain _ | ⟨inside, beside⟩ := h
  obtain _ | _ := beside
  exact ⟨_, inside, by simp⟩

theorem subset_of_roots (h : program.Unfolds roots ids) : roots ⊆ ids := by
  induction h with
  | nil => exact List.Subset.refl _
  | cons _ _ _ ih =>
    refine List.cons_subset.mpr ⟨List.mem_cons_self, fun root hroot ↦ ?_⟩
    exact List.mem_cons_of_mem _ (List.mem_append_right _ (ih hroot))

theorem mem_of_child (h : program.Unfolds roots ids) {id child : StmtId} (hid : id ∈ ids)
    (hchild : child ∈ (program.kind id).children) : child ∈ ids := by
  induction h with
  | nil => cases hid
  | @cons root rest below after inside beside ihInside ihBeside =>
    rcases List.mem_cons.mp hid with rfl | hid
    · exact List.mem_cons_of_mem _ (List.mem_append_left _ (inside.subset_of_roots hchild))
    · rcases List.mem_append.mp hid with hid | hid
      · exact List.mem_cons_of_mem _ (List.mem_append_left _ (ihInside hid))
      · exact List.mem_cons_of_mem _ (List.mem_append_right _ (ihBeside hid))

theorem root_or_child (h : program.Unfolds roots ids) {id : StmtId} (hid : id ∈ ids) :
    id ∈ roots ∨ ∃ parent ∈ ids, id ∈ (program.kind parent).children := by
  induction h with
  | nil => cases hid
  | @cons root rest below after inside beside ihInside ihBeside =>
    rcases List.mem_cons.mp hid with rfl | hid
    · exact .inl List.mem_cons_self
    · rcases List.mem_append.mp hid with hid | hid
      · rcases ihInside hid with hchild | ⟨parent, hparent, hchild⟩
        · exact .inr ⟨root, List.mem_cons_self, hchild⟩
        · exact .inr ⟨parent,
            List.mem_cons_of_mem _ (List.mem_append_left _ hparent), hchild⟩
      · rcases ihBeside hid with hroot | ⟨parent, hparent, hchild⟩
        · exact .inl (List.mem_cons_of_mem _ hroot)
        · exact .inr ⟨parent,
            List.mem_cons_of_mem _ (List.mem_append_right _ hparent), hchild⟩

theorem congr (h : program.Unfolds roots ids)
    (hsame : ∀ id ∈ ids, (program'.kind id).children = (program.kind id).children) :
    program'.Unfolds roots ids := by
  induction h with
  | nil => exact .nil
  | @cons root rest below after inside beside ihInside ihBeside =>
    have hroot := hsame root List.mem_cons_self
    refine .cons ?_ ?_
    · rw [hroot]
      exact ihInside fun id hid ↦
        hsame id (List.mem_cons_of_mem _ (List.mem_append_left _ hid))
    · exact ihBeside fun id hid ↦
        hsame id (List.mem_cons_of_mem _ (List.mem_append_right _ hid))

theorem unique (h : program.Unfolds roots ids) (h' : program.Unfolds roots ids') :
    ids = ids' := by
  induction h generalizing ids' with
  | nil => cases h'; rfl
  | cons _ _ ihInside ihBeside =>
    obtain _ | ⟨inside, beside⟩ := h'
    rw [ihInside inside, ihBeside beside]

/-- Every listed statement brings its own tree along. -/
theorem exists_below (h : program.Unfolds roots ids) {id : StmtId} (hid : id ∈ ids) :
    ∃ below, program.Unfolds [id] below ∧ below.Sublist ids := by
  induction h with
  | nil => cases hid
  | @cons root rest below after inside beside ihInside ihBeside =>
    rcases List.mem_cons.mp hid with rfl | hid
    · exact ⟨id :: below, .singleton inside, by simp⟩
    · rcases List.mem_append.mp hid with hid | hid
      · obtain ⟨found, hfound, hsub⟩ := ihInside hid
        exact ⟨found, hfound,
          (hsub.trans (List.sublist_append_left ..)).trans (List.sublist_cons_self ..)⟩
      · obtain ⟨found, hfound, hsub⟩ := ihBeside hid
        exact ⟨found, hfound,
          (hsub.trans (List.sublist_append_right ..)).trans (List.sublist_cons_self ..)⟩

/-- The preorder of copies is the copy of the preorder. -/
theorem map (h : program.Unfolds roots ids) (copy : StmtId → StmtId)
    (hcopy : ∀ id ∈ ids, (program'.kind (copy id)).children =
      (program.kind id).children.map copy) :
    program'.Unfolds (roots.map copy) (ids.map copy) := by
  induction h with
  | nil => exact .nil
  | @cons root rest below after inside beside ihInside ihBeside =>
    rw [List.map_cons, List.map_cons, List.map_append]
    refine .cons ?_ (ihBeside fun id hid ↦
      hcopy id (List.mem_cons_of_mem _ (List.mem_append_right _ hid)))
    rw [hcopy root List.mem_cons_self]
    exact ihInside fun id hid ↦ hcopy id (List.mem_cons_of_mem _ (List.mem_append_left _ hid))

/-! ### The walk -/

theorem flatMap_preorder (h : program.Unfolds roots ids) {depth : Nat}
    (hdepth : ids.length ≤ depth + 1) : roots.flatMap (program.preorder depth) = ids := by
  induction h generalizing depth with
  | nil => rfl
  | @cons root rest below after inside beside ihInside ihBeside =>
    simp only [List.length_cons, List.length_append] at hdepth
    rw [List.flatMap_cons, ihBeside (by omega)]
    cases depth with
    | zero =>
      have hbelow : below = [] := List.eq_nil_of_length_eq_zero (by omega)
      simp [preorder, hbelow]
    | succ depth =>
      have hroom : below.length ≤ depth + 1 := by omega
      simp [preorder, ihInside hroom]

theorem length_le_of_nodup (hnodup : ids.Nodup) (hhas : ∀ id ∈ ids, program.Has id) :
    ids.length ≤ program.statements.size := by
  have hindices : (ids.map StmtId.index).Nodup :=
    hnodup.map fun first second hindex ↦ by
      cases first; cases second; exact congrArg StmtId.mk hindex
  have hsubset : ids.map StmtId.index ⊆ List.range program.statements.size := by
    intro index hindex
    obtain ⟨id, hid, rfl⟩ := List.mem_map.mp hindex
    exact List.mem_range.mpr (hhas id hid)
  simpa using (hindices.subperm hsubset).length_le

theorem walk_eq {root : StmtId} (h : program.Unfolds [root] ids) (hnodup : ids.Nodup)
    (hhas : ∀ id ∈ ids, program.Has id) : program.walk root = ids := by
  have hlength := Nat.le_succ_of_le (length_le_of_nodup hnodup hhas)
  simpa [walk] using h.flatMap_preorder hlength

end Unfolds

/-- A walk only reads the children of statements. -/
theorem walk_congr {program program' : Program}
    (hchildren : ∀ id, (program'.kind id).children = (program.kind id).children)
    (hsize : program'.statements.size = program.statements.size) (root : StmtId) :
    program'.walk root = program.walk root := by
  have hpreorder : ∀ depth, program'.preorder depth = program.preorder depth := by
    intro depth
    induction depth with
    | zero => rfl
    | succ depth ih =>
      funext id
      rw [preorder, preorder, hchildren, ih]
  rw [walk, walk, hsize, hpreorder]

end Program

end IteratorLowering
