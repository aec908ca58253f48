import IteratorLowering.Analysis.IteratorTypes
import IteratorLowering.Proofs.Forest.Handles
import Mathlib.Data.List.Perm.Subperm
import Mathlib.Logic.Relation

/-!
# Declared runtime subtypes

The types below a type are those that are reached over one or more declarations of a subtype that
is not the root class. The declarations may share subtypes or lead round in a cycle. The search of
`Program.runtimeSubtypes` lists each type below its own once and nothing else
(`mem_runtimeSubtypes_iff`, `nodup_runtimeSubtypes`): at each level it finds a type that it had not
found before, so it comes to its end before it comes to its last level.
-/

set_option autoImplicit false
set_option relaxedAutoImplicit false

namespace IteratorLowering

namespace Program

/-- A type declares another one as a runtime subtype. The root class does not count. -/
def HasSubtype (program : Program) (type child : TypeId) : Prop :=
  child ∈ (program.type type).subtypes ∧ child ≠ TypeId.object

/-- A type is below another one, at any depth. -/
def IsBelow (program : Program) (type below : TypeId) : Prop :=
  Relation.TransGen program.HasSubtype type below

variable {program : Program} {depth : Nat} {type child : TypeId}
variable {found middle result : List TypeId}

/-! ### The search -/

/-- One step of the search: what is below a subtype, and the subtype itself, if it is new. -/
def addSubtype (program : Program) (depth : Nat) (found : List TypeId) (child : TypeId) :
    List TypeId :=
  if child = TypeId.object ∨ child ∈ found then found
  else program.addSubtypes depth child (found ++ [child])

theorem addSubtypes_succ (program : Program) (depth : Nat) (type : TypeId) (found : List TypeId) :
    program.addSubtypes (depth + 1) type found =
      (program.type type).subtypes.foldl (program.addSubtype depth) found :=
  rfl

/-- What a search below a type adds to the types that were found before. -/
structure Explores (program : Program) (type : TypeId) (found result : List TypeId) : Prop where
  kept : found ⊆ result
  nodup : found.Nodup → result.Nodup
  below : ∀ {other}, other ∈ result → other ∉ found → program.IsBelow type other
  closed : ∀ {other child}, other ∈ result → other ∉ found → program.HasSubtype other child →
    child ∈ result

namespace Explores

theorem refl (program : Program) (type : TypeId) (found : List TypeId) :
    program.Explores type found found where
  kept := List.Subset.refl found
  nodup h := h
  below h hnot := absurd h hnot
  closed h hnot := absurd h hnot

theorem trans (first : program.Explores type found middle)
    (second : program.Explores type middle result) : program.Explores type found result where
  kept := List.Subset.trans first.kept second.kept
  nodup h := second.nodup (first.nodup h)
  below {other} h hnot := by
    by_cases hmiddle : other ∈ middle
    · exact first.below hmiddle hnot
    · exact second.below h hmiddle
  closed {other _} h hnot hchild := by
    by_cases hmiddle : other ∈ middle
    · exact second.kept (first.closed hmiddle hnot hchild)
    · exact second.closed h hmiddle hchild

/-- A search below a new subtype belongs to the search below the type. -/
theorem of_child (hchild : program.HasSubtype type child) (hnew : child ∉ found)
    (h : program.Explores child (found ++ [child]) result)
    (hall : ∀ {other}, program.HasSubtype child other → other ∈ result) :
    program.Explores type found result where
  kept := List.Subset.trans (List.subset_append_left found [child]) h.kept
  nodup hnodup := h.nodup (by simpa using hnodup.concat hnew)
  below {other} hother hnot := by
    by_cases heq : other = child
    · exact heq ▸ .single hchild
    · exact .head hchild (h.below hother (by simp [hnot, heq]))
  closed {other _} hother hnot hbelow := by
    by_cases heq : other = child
    · exact hall (heq ▸ hbelow)
    · exact h.closed hother (by simp [hnot, heq]) hbelow

end Explores

/-! ### Levels enough -/

theorem subtypes_of_not_has (h : ¬ program.HasType type) : (program.type type).subtypes = [] := by
  rw [type_of_not_has h]
  rfl

/-- The search has levels left for every type of the program that it has not found. -/
structure Roomy (program : Program) (depth : Nat) (found : List TypeId) : Prop where
  nodup : found.Nodup
  room : program.types.size < depth + found.countP (· ∈ program.typeIds)

theorem mem_typeIds : type ∈ program.typeIds ↔ program.HasType type := by
  constructor
  · intro h
    obtain ⟨index, hindex, rfl⟩ := List.mem_map.mp h
    exact List.mem_range.mp hindex
  · intro h
    exact List.mem_map.mpr ⟨type.index, List.mem_range.mpr h, rfl⟩

/-- No more types of the program can be found than there are. -/
theorem countP_typeIds_le (h : found.Nodup) :
    found.countP (· ∈ program.typeIds) ≤ program.types.size := by
  have hsub : found.filter (· ∈ program.typeIds) ⊆ program.typeIds := fun other hother ↦ by
    simpa using (List.mem_filter.mp hother).2
  calc found.countP (· ∈ program.typeIds)
      = (found.filter (· ∈ program.typeIds)).length := List.countP_eq_length_filter
    _ ≤ program.typeIds.length := (List.subperm_of_subset (h.filter _) hsub).length_le
    _ = program.types.size := by simp [typeIds]

theorem Roomy.pos (h : program.Roomy depth found) : depth ≠ 0 := by
  have hroom := h.room
  have hle : found.countP (· ∈ program.typeIds) ≤ program.types.size := countP_typeIds_le h.nodup
  omega

theorem Roomy.of_subset (h : program.Roomy depth found) (hnodup : result.Nodup)
    (hsubset : found ⊆ result) : program.Roomy depth result := by
  refine ⟨hnodup, Nat.lt_of_lt_of_le h.room (Nat.add_le_add_left ?_ depth)⟩
  exact (List.subperm_of_subset h.nodup hsubset).countP_le _

theorem Roomy.mono (h : program.Roomy depth found)
    (hexplores : program.Explores type found result) :
    program.Roomy depth result :=
  h.of_subset (hexplores.nodup h.nodup) hexplores.kept

/-- A level is spent on a type of the program that had not been found. -/
theorem Roomy.descend (h : program.Roomy (depth + 1) found) (hnew : child ∉ found)
    (hhas : program.HasType child) : program.Roomy depth (found ++ [child]) := by
  refine ⟨by simpa using h.nodup.concat hnew, ?_⟩
  have hroom := h.room
  rw [List.countP_append, List.countP_singleton, if_pos (by simpa [mem_typeIds] using hhas)]
  omega

/-! ### What is found -/

/-- A search that has levels enough finds all that is below the type. -/
theorem explores_addSubtypes (h : program.Roomy depth found) :
    program.Explores type found (program.addSubtypes depth type found) ∧
      ∀ {child}, program.HasSubtype type child → child ∈ program.addSubtypes depth type found := by
  induction depth generalizing type found with
  | zero => exact absurd rfl h.pos
  | succ depth ih =>
    have hstep {child : TypeId} {acc : List TypeId} (hacc : program.Roomy (depth + 1) acc)
        (hchild : child ∈ (program.type type).subtypes) :
        program.Explores type acc (program.addSubtype depth acc child) ∧
          (child ≠ TypeId.object → child ∈ program.addSubtype depth acc child) := by
      unfold addSubtype
      split
      next hseen => exact ⟨.refl program type acc, fun hne ↦ hseen.resolve_left hne⟩
      next hnew =>
        rw [not_or] at hnew
        by_cases hhas : program.HasType child
        · obtain ⟨hexplores, hall⟩ := @ih child _ (hacc.descend hnew.2 hhas)
          exact ⟨.of_child ⟨hchild, hnew.1⟩ hnew.2 hexplores hall,
            fun _ ↦ hexplores.kept (by simp)⟩
        · -- Nothing is declared below a type that does not exist.
          have hnone := subtypes_of_not_has hhas
          have hself : program.addSubtypes depth child (acc ++ [child]) = acc ++ [child] := by
            cases depth with
            | zero => rfl
            | succ depth => rw [addSubtypes_succ, hnone, List.foldl_nil]
          rw [hself]
          refine ⟨.of_child ⟨hchild, hnew.1⟩ hnew.2 (.refl program child _) fun hother ↦ ?_,
            fun _ ↦ by simp⟩
          rw [HasSubtype, hnone] at hother
          exact absurd hother.1 List.not_mem_nil
    -- The subtypes are searched one after the other.
    have hfold (children : List TypeId) (hchildren : children ⊆ (program.type type).subtypes)
        {acc : List TypeId} (hacc : program.Roomy (depth + 1) acc) :
        program.Explores type acc (children.foldl (program.addSubtype depth) acc) ∧
          ∀ child ∈ children, child ≠ TypeId.object →
            child ∈ children.foldl (program.addSubtype depth) acc := by
      induction children generalizing acc with
      | nil => exact ⟨.refl program type acc, nofun⟩
      | cons child rest ihRest =>
        rw [List.cons_subset] at hchildren
        obtain ⟨hfirst, hmem⟩ := hstep hacc hchildren.1
        obtain ⟨hrest, hmems⟩ := ihRest hchildren.2 (hacc.mono hfirst)
        rw [List.foldl_cons]
        refine ⟨hfirst.trans hrest, fun other hother hne ↦ ?_⟩
        rcases List.mem_cons.mp hother with rfl | hother
        · exact hrest.kept (hmem hne)
        · exact hmems other hother hne
    obtain ⟨hexplores, hmem⟩ := hfold _ (List.Subset.refl _) h
    rw [addSubtypes_succ]
    exact ⟨hexplores, fun hchild ↦ hmem _ hchild.1 hchild.2⟩

theorem explores_runtimeSubtypes (program : Program) (type : TypeId) :
    program.Explores (program.valueType type) [] (program.runtimeSubtypes type) ∧
      ∀ {child}, program.HasSubtype (program.valueType type) child →
        child ∈ program.runtimeSubtypes type :=
  explores_addSubtypes ⟨List.nodup_nil, by simp⟩

/-- The runtime subtypes are the types below the value type, at any depth. -/
theorem mem_runtimeSubtypes_iff :
    child ∈ program.runtimeSubtypes type ↔ program.IsBelow (program.valueType type) child := by
  obtain ⟨hexplores, hall⟩ := explores_runtimeSubtypes program type
  constructor
  · exact fun h ↦ hexplores.below h List.not_mem_nil
  · intro h
    induction h with
    | single hchild => exact hall hchild
    | tail _ hchild ih => exact hexplores.closed ih List.not_mem_nil hchild

/-- No type is listed twice, however the declarations are shared. -/
theorem nodup_runtimeSubtypes : (program.runtimeSubtypes type).Nodup :=
  (explores_runtimeSubtypes program type).1.nodup List.nodup_nil

end Program

end IteratorLowering
