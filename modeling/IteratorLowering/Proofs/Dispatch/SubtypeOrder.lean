import IteratorLowering.Proofs.Dispatch.Subtypes

/-!
# The order of runtime subtypes

A depth-first search goes through the subtypes that a type declares in the order in which they are
declared. It passes over the root class and over every type that it has seen, and it comes to the
subtypes of a new type before it goes on to the next one (`Program.Searches`). What it comes to, in
the order in which it comes to it, makes a forest, and there is one such forest only
(`Program.Searches.unique`).

The levels of `Program.addSubtypes` are enough for the whole search (`Roomy.exists_searches`), so
`Program.runtimeSubtypes` is the preorder of its forest. Right after each type stands all that is
first found below it: what can be reached from the type without one of the types before it
(`Program.Searches.mem_below_iff`).
-/

set_option autoImplicit false
set_option relaxedAutoImplicit false

namespace IteratorLowering

/-- What a depth-first search has come to: nothing, or a type with what was found below it, and
then what was found beside it. -/
inductive SearchForest where
  | done
  | visit (type : TypeId) (below beside : SearchForest)

namespace SearchForest

/-- The types of a forest in preorder. -/
def types : SearchForest → List TypeId
  | done => []
  | visit type below beside => type :: (below.types ++ beside.types)

/-- The types at the top of a forest. -/
def roots : SearchForest → List TypeId
  | done => []
  | visit type _ beside => type :: beside.roots

/-- A type stands in a forest, after the given types in preorder and with the given forest
below it. -/
inductive Visits : SearchForest → List TypeId → TypeId → SearchForest → Prop where
  | here (type : TypeId) (below beside : SearchForest) :
      Visits (visit type below beside) [] type below
  | inside {type other : TypeId} {below beside found : SearchForest} {before : List TypeId} :
      below.Visits before other found →
        Visits (visit type below beside) (type :: before) other found
  | later {type other : TypeId} {below beside found : SearchForest} {before : List TypeId} :
      beside.Visits before other found →
        Visits (visit type below beside) (type :: (below.types ++ before)) other found

variable {forest below : SearchForest} {before : List TypeId} {type : TypeId}

theorem roots_sublist_types (forest : SearchForest) : forest.roots.Sublist forest.types := by
  induction forest with
  | done => exact .slnil
  | visit type below beside _ ih => exact (ih.trans (List.sublist_append_right _ _)).cons_cons type

theorem exists_visits (h : type ∈ forest.types) :
    ∃ before below, forest.Visits before type below := by
  induction forest with
  | done => exact absurd h List.not_mem_nil
  | visit root below beside ihBelow ihBeside =>
    rcases List.mem_cons.mp h with rfl | h
    · exact ⟨[], below, .here type below beside⟩
    · rcases List.mem_append.mp h with h | h
      · obtain ⟨before, found, hfound⟩ := ihBelow h
        exact ⟨_, found, .inside hfound⟩
      · obtain ⟨before, found, hfound⟩ := ihBeside h
        exact ⟨_, found, .later hfound⟩

/-- All that stands below a type comes right after it. -/
theorem Visits.exists_types_eq (h : forest.Visits before type below) :
    ∃ after, forest.types = before ++ type :: (below.types ++ after) := by
  induction h with
  | here type below beside => exact ⟨beside.types, rfl⟩
  | @inside _ _ _ beside _ _ _ ih =>
    obtain ⟨after, hafter⟩ := ih
    exact ⟨after ++ beside.types, by simp [types, hafter]⟩
  | later _ ih =>
    obtain ⟨after, hafter⟩ := ih
    exact ⟨after, by simp [types, hafter]⟩

end SearchForest

namespace Program

variable {program : Program} {depth : Nat} {type child : TypeId} {forest below : SearchForest}
variable {declared seen before : List TypeId}

/-- The depth-first search through declared subtypes, to any depth: a subtype that is the root
class or that has been seen is passed over, and any other one is followed by what the search finds
below it. -/
inductive Searches (program : Program) : List TypeId → List TypeId → SearchForest → Prop where
  | done (seen : List TypeId) : program.Searches [] seen .done
  | pass {child : TypeId} {rest seen : List TypeId} {forest : SearchForest} :
      child = TypeId.object ∨ child ∈ seen → program.Searches rest seen forest →
        program.Searches (child :: rest) seen forest
  | visit {child : TypeId} {rest seen : List TypeId} {below beside : SearchForest} :
      child ≠ TypeId.object → child ∉ seen →
        program.Searches (program.type child).subtypes (seen ++ [child]) below →
        program.Searches rest (seen ++ child :: below.types) beside →
        program.Searches (child :: rest) seen (.visit child below beside)

/-- A step to a subtype that has not been seen. -/
def StepsOutside (program : Program) (seen : List TypeId) (type child : TypeId) : Prop :=
  program.HasSubtype type child ∧ child ∉ seen

/-- Steps that pass over more types are steps that pass over fewer. -/
theorem steps_of_append {more : List TypeId}
    (h : Relation.ReflTransGen (program.StepsOutside (seen ++ more)) type child) :
    Relation.ReflTransGen (program.StepsOutside seen) type child :=
  h.lift id fun _ _ hstep ↦ ⟨hstep.1, fun hseen ↦ hstep.2 (List.mem_append_left _ hseen)⟩

/-! ### One search -/

namespace Searches

/-- The search has no choice. -/
theorem unique {other : SearchForest} (h : program.Searches declared seen forest)
    (hother : program.Searches declared seen other) : other = forest := by
  induction h generalizing other with
  | done seen => cases hother with | done => rfl
  | pass hpass _ ih =>
    cases hother with
    | pass _ hrest => exact ih hrest
    | visit hobject hnew _ _ => exact absurd hpass (not_or.mpr ⟨hobject, hnew⟩)
  | visit hobject hnew _ _ ihBelow ihBeside =>
    cases hother with
    | pass hpass _ => exact absurd hpass (not_or.mpr ⟨hobject, hnew⟩)
    | visit _ _ hbelow hbeside =>
      obtain rfl := ihBelow hbelow
      obtain rfl := ihBeside hbeside
      rfl

/-- The tops of the forest are declared, and they keep the order of their declarations. -/
theorem roots_sublist (h : program.Searches declared seen forest) :
    forest.roots.Sublist declared := by
  induction h with
  | done seen => exact .slnil
  | pass _ _ ih => exact ih.cons _
  | visit _ _ _ _ _ ih => exact ih.cons_cons _

/-- What the search comes to is new to it. -/
theorem not_mem_seen (h : program.Searches declared seen forest) (hchild : child ∈ forest.types) :
    child ∉ seen := by
  induction h with
  | done seen => exact absurd hchild List.not_mem_nil
  | pass _ _ ih => exact ih hchild
  | visit _ hnew _ _ ihBelow ihBeside =>
    intro hseen
    rcases List.mem_cons.mp hchild with rfl | hchild
    · exact hnew hseen
    · rcases List.mem_append.mp hchild with hchild | hchild
      · exact ihBelow hchild (List.mem_append_left _ hseen)
      · exact ihBeside hchild (List.mem_append_left _ hseen)

/-- A declared subtype is passed over only for a reason. -/
theorem mem_of_declared (h : program.Searches declared seen forest) (hchild : child ∈ declared)
    (hobject : child ≠ TypeId.object) : child ∈ seen ∨ child ∈ forest.types := by
  induction h with
  | done seen => exact absurd hchild List.not_mem_nil
  | pass hpass _ ih =>
    rcases List.mem_cons.mp hchild with rfl | hchild
    · exact .inl (hpass.resolve_left hobject)
    · exact ih hchild
  | visit _ _ _ _ _ ih =>
    rcases List.mem_cons.mp hchild with rfl | hchild
    · exact .inr List.mem_cons_self
    · have := ih hchild
      simp only [SearchForest.types, List.mem_append, List.mem_cons] at this ⊢
      tauto

/-- No subtype of what the search comes to is left out. -/
theorem closed (h : program.Searches declared seen forest) (htype : type ∈ forest.types)
    (hchild : program.HasSubtype type child) : child ∈ seen ∨ child ∈ forest.types := by
  induction h with
  | done seen => exact absurd htype List.not_mem_nil
  | pass _ _ ih => exact ih htype
  | visit _ _ hbelow _ ihBelow ihBeside =>
    simp only [SearchForest.types, List.mem_cons, List.mem_append] at htype ⊢
    rcases htype with rfl | htype | htype
    · have := hbelow.mem_of_declared hchild.1 hchild.2
      simp only [List.mem_append, List.mem_singleton] at this
      tauto
    · have := ihBelow htype
      simp only [List.mem_append, List.mem_singleton] at this
      tauto
    · have := ihBeside htype
      simp only [List.mem_append, List.mem_cons] at this
      tauto

/-- The search comes to a type by steps to subtypes that it had not seen. -/
theorem exists_steps (h : program.Searches declared seen forest) (hchild : child ∈ forest.types) :
    ∃ root ∈ declared, root ≠ TypeId.object ∧ root ∉ seen ∧
      Relation.ReflTransGen (program.StepsOutside seen) root child := by
  induction h with
  | done seen => exact absurd hchild List.not_mem_nil
  | pass _ _ ih =>
    obtain ⟨root, hroot, hrest⟩ := ih hchild
    exact ⟨root, List.mem_cons_of_mem _ hroot, hrest⟩
  | @visit top rest seen below beside hobject hnew _ _ ihBelow ihBeside =>
    rcases List.mem_cons.mp hchild with rfl | hchild
    · exact ⟨child, List.mem_cons_self, hobject, hnew, .refl⟩
    · rcases List.mem_append.mp hchild with hchild | hchild
      · obtain ⟨root, hroot, hne, hroom, hsteps⟩ := ihBelow hchild
        have hnot : root ∉ seen := fun h ↦ hroom (List.mem_append_left _ h)
        exact ⟨top, List.mem_cons_self, hobject, hnew,
          (steps_of_append hsteps).head ⟨⟨hroot, hne⟩, hnot⟩⟩
      · obtain ⟨root, hroot, hne, hroom, hsteps⟩ := ihBeside hchild
        exact ⟨root, List.mem_cons_of_mem _ hroot, hne,
          fun h ↦ hroom (List.mem_append_left _ h), steps_of_append hsteps⟩

/-- Below each type of the forest stands a search of its own, which has seen all that comes
before. -/
theorem of_visits (h : program.Searches declared seen forest)
    (hvisits : forest.Visits before type below) :
    program.Searches (program.type type).subtypes (seen ++ before ++ [type]) below := by
  induction h generalizing before with
  | done seen => cases hvisits
  | pass _ _ ih => exact ih hvisits
  | visit _ _ hbelow _ ihBelow ihBeside =>
    cases hvisits with
    | here => simpa using hbelow
    | inside hinside => simpa using ihBelow hinside
    | later hlater => simpa using ihBeside hlater

/-- What is found below a type is what can be reached from it by steps to subtypes that had not
been seen when the search came to it. -/
theorem mem_below_iff
    (h : program.Searches (program.type type).subtypes (seen ++ [type]) below) :
    child ∈ below.types ↔
      child ≠ type ∧ Relation.TransGen (program.StepsOutside seen) type child := by
  constructor
  · intro hchild
    refine ⟨fun heq ↦ h.not_mem_seen hchild (by simp [heq]), ?_⟩
    obtain ⟨root, hroot, hobject, hnew, hsteps⟩ := h.exists_steps hchild
    refine .head' ⟨⟨hroot, hobject⟩, fun hseen ↦ hnew (List.mem_append_left _ hseen)⟩ ?_
    exact steps_of_append hsteps
  · -- A path that leads away from the type is followed by the search as long as it is new.
    rintro ⟨hne, hsteps⟩
    have hall : child = type ∨ child ∈ below.types := by
      clear hne
      have hstay {other : TypeId} (hnew : other ∉ seen)
          (hother : other ∈ seen ++ [type] ∨ other ∈ below.types) :
          other = type ∨ other ∈ below.types := by
        simp only [List.mem_append, List.mem_singleton] at hother
        tauto
      induction hsteps with
      | single hstep => exact hstay hstep.2 (h.mem_of_declared hstep.1.1 hstep.1.2)
      | tail _ hstep ih =>
        rcases ih with rfl | hbelow
        · exact hstay hstep.2 (h.mem_of_declared hstep.1.1 hstep.1.2)
        · exact hstay hstep.2 (h.closed hbelow hstep.1)
    exact hall.resolve_left hne

end Searches

/-! ### The levels of the search -/

/-- A search that has levels enough goes through the whole forest and adds its types. -/
theorem Roomy.exists_searches (h : program.Roomy depth seen) :
    ∃ forest, program.Searches (program.type type).subtypes seen forest ∧
      program.addSubtypes depth type seen = seen ++ forest.types := by
  induction depth generalizing type seen with
  | zero => exact absurd rfl h.pos
  | succ depth ih =>
    -- Nothing is declared below a type that does not exist, so no level is needed there.
    have hbelow {child : TypeId} {seen : List TypeId} (hseen : program.Roomy (depth + 1) seen)
        (hnew : child ∉ seen) :
        ∃ below, program.Searches (program.type child).subtypes (seen ++ [child]) below ∧
          program.addSubtypes depth child (seen ++ [child]) = seen ++ child :: below.types ∧
          program.Roomy (depth + 1) (seen ++ child :: below.types) := by
      by_cases hhas : program.HasType child
      · have hroomy := hseen.descend hnew hhas
        obtain ⟨below, hsearches, heq⟩ := @ih child _ hroomy
        rw [List.append_assoc, List.singleton_append] at heq
        have hfound := hroomy.mono (@explores_addSubtypes program depth child _ hroomy).1
        rw [heq] at hfound
        exact ⟨below, hsearches, heq, hfound.nodup, by have := hfound.room; omega⟩
      · have hnone := subtypes_of_not_has hhas
        refine ⟨.done, by rw [hnone]; exact .done _, ?_, hseen.of_subset ?_ (by simp)⟩
        · cases depth with
          | zero => rfl
          | succ depth => rw [addSubtypes_succ, hnone]; rfl
        · simpa [SearchForest.types] using hseen.nodup.concat hnew
    suffices hfold : ∀ declared, ∃ forest, program.Searches declared seen forest ∧
        declared.foldl (program.addSubtype depth) seen = seen ++ forest.types from
      addSubtypes_succ program depth type seen ▸ hfold _
    intro declared
    induction declared generalizing seen with
    | nil => exact ⟨.done, .done seen, by simp [SearchForest.types]⟩
    | cons child rest ihRest =>
      rw [List.foldl_cons]
      by_cases hpass : child = TypeId.object ∨ child ∈ seen
      · obtain ⟨forest, hforest, heq⟩ := ihRest h
        exact ⟨forest, .pass hpass hforest, by rw [addSubtype, if_pos hpass, heq]⟩
      · have hnew := not_or.mp hpass
        obtain ⟨below, hsearches, heq, hroomy⟩ := hbelow h hnew.2
        obtain ⟨beside, hbeside, hrest⟩ := ihRest hroomy
        refine ⟨.visit child below beside, .visit hnew.1 hnew.2 hsearches hbeside, ?_⟩
        rw [addSubtype, if_neg hpass, heq, hrest]
        simp [SearchForest.types]

/-- The runtime subtypes of a type are the preorder of the depth-first search from its value type,
which comes to its end and is the only one. Each type below the value type is listed once. Each is
followed by all that is first found below it, which is what can be reached from it without the types
that are listed before it, and the subtypes beside each other keep the order of their
declarations. -/
theorem runtimeSubtypes_eq_preorder (program : Program) (type : TypeId) :
    ∃ forest, program.Searches (program.type (program.valueType type)).subtypes [] forest ∧
      (∀ other, program.Searches (program.type (program.valueType type)).subtypes [] other →
        other = forest) ∧
      program.runtimeSubtypes type = forest.types ∧
      (program.runtimeSubtypes type).Nodup ∧
      (∀ child, child ∈ program.runtimeSubtypes type ↔
        Relation.TransGen (fun other child ↦
            child ∈ (program.type other).subtypes ∧ child ≠ TypeId.object)
          (program.valueType type) child) ∧
      (forest.roots.Sublist (program.type (program.valueType type)).subtypes ∧
        forest.roots.Sublist (program.runtimeSubtypes type)) ∧
      ∀ child ∈ program.runtimeSubtypes type, ∃ before below after,
        forest.Visits before child below ∧
        program.runtimeSubtypes type = before ++ child :: (below.types ++ after) ∧
        (∀ other, other ∈ below.types ↔
          other ≠ child ∧ Relation.TransGen (program.StepsOutside before) child other) ∧
        below.roots.Sublist (program.type child).subtypes ∧ below.roots.Sublist below.types := by
  have hroomy : program.Roomy (program.types.size + 1) [] := ⟨List.nodup_nil, by simp⟩
  obtain ⟨forest, hforest, heq⟩ :=
    @Roomy.exists_searches program _ (program.valueType type) _ hroomy
  have htypes : program.runtimeSubtypes type = forest.types := heq
  refine ⟨forest, hforest, fun _ ↦ hforest.unique, htypes, nodup_runtimeSubtypes,
    fun _ ↦ mem_runtimeSubtypes_iff, ⟨hforest.roots_sublist, ?_⟩, fun child hchild ↦ ?_⟩
  · exact htypes ▸ forest.roots_sublist_types
  · obtain ⟨before, below, hvisits⟩ := SearchForest.exists_visits (htypes ▸ hchild)
    obtain ⟨after, hafter⟩ := hvisits.exists_types_eq
    have hbelow := hforest.of_visits hvisits
    rw [List.nil_append] at hbelow
    exact ⟨before, below, after, hvisits, htypes.trans hafter, fun _ ↦ hbelow.mem_below_iff,
      hbelow.roots_sublist, below.roots_sublist_types⟩

end Program

end IteratorLowering
