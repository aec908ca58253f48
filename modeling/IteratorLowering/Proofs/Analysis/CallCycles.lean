import IteratorLowering.Analysis.CallGraph
import IteratorLowering.Proofs.Forest.Enclosing
import Mathlib.Data.Finset.Card
import Mathlib.Logic.Relation

/-!
# Cycles of direct calls

A function calls another one directly when a statement that stands in it does
(`Program.Calls`). The recursive iterators of a program are the iterators that such calls lead
from and back to, over any number of functions of any kind
(`WellLinked.mem_recursiveIterators_iff`). A call through the function table leads nowhere.

The search of `CallGraph.isRecursive` visits functions that lead to the sought one only, and of
what has left the queue every caller is visited and none is the sought one (`CallGraph.Searching`).
One function that is taken from the queue keeps this (`Searching.step`). As no function is queued
twice, the queue is empty before the fuel is, and what is visited then is closed under callers
(`Searching.finds_iff`).
-/

set_option autoImplicit false
set_option relaxedAutoImplicit false

namespace IteratorLowering

/-- A statement is an assignment of a direct call, or evaluates one for its effect. -/
def StmtKind.CallsDirectly (kind : StmtKind) (callee : FnId) : Prop :=
  (∃ target args, kind = .action (.assign target (.call callee args))) ∨
    ∃ args, kind = .action (.evaluate (.call callee args))

theorem StmtKind.directCallee?_eq_some {kind : StmtKind} {callee : FnId} :
    kind.directCallee? = some callee ↔ kind.CallsDirectly callee := by
  unfold directCallee? CallsDirectly
  split <;> simp_all

/-- A statement of the first function calls the second one directly. -/
def Program.Calls (program : Program) (caller callee : FnId) : Prop :=
  ∃ site, program.StandsIn caller site ∧ (program.kind site).CallsDirectly callee

/-! ### The search -/

namespace CallGraph

variable {graph : CallGraph} {caller callee sought function : FnId} {callers : List FnId}
  {search next : Search}

theorem mem_callers : caller ∈ graph.callers callee ↔
    ∃ call ∈ graph.sites, call.callee = callee ∧ graph.callerOf? call.site = some caller := by
  simp [callers, callSites, and_assoc]

/-- A function calls another one, as the graph has it. -/
def IsCaller (graph : CallGraph) (caller callee : FnId) : Prop := caller ∈ graph.callers callee

/-- All that a search for a function can visit: the function, and the functions that call
anything. -/
def searchable (graph : CallGraph) (sought : FnId) : Finset FnId :=
  (sought :: graph.sites.map CallSite.caller).toFinset

theorem card_searchable_le (graph : CallGraph) (sought : FnId) :
    (graph.searchable sought).card ≤ graph.sites.length + 1 := by
  simpa [searchable] using List.toFinset_card_le (sought :: graph.sites.map CallSite.caller)

theorem IsCaller.mem_searchable (h : graph.IsCaller caller callee) (sought : FnId) :
    caller ∈ graph.searchable sought := by
  obtain ⟨_, _, _, hcaller⟩ := mem_callers.mp h
  obtain ⟨call, hlast, rfl⟩ := Option.map_eq_some_iff.mp hcaller
  have hcall := (List.mem_filter.mp (List.mem_of_getLast? hlast)).1
  exact List.mem_toFinset.mpr (List.mem_cons_of_mem _ (List.mem_map_of_mem hcall))

theorem enqueue_eq_none_iff : enqueue sought search callers = none ↔ sought ∈ callers := by
  induction callers generalizing search with
  | nil => simp [enqueue]
  | cons caller rest ih =>
    unfold enqueue
    split
    next hsought => simp [beq_iff_eq.mp hsought]
    next hsought =>
      have hne : sought ≠ caller := fun h ↦ hsought (by simp [h])
      split <;> simp [ih, hne]

/-- The callers that have not been visited are queued, each of them once. -/
theorem exists_new_of_enqueue (h : enqueue sought search callers = some next) :
    ∃ new : List FnId, next = { queue := search.queue ++ new, visited := search.visited ++ new } ∧
      new.Nodup ∧ ∀ caller, caller ∈ new ↔ caller ∈ callers ∧ caller ∉ search.visited := by
  induction callers generalizing search with
  | nil =>
    obtain rfl := Option.some.inj h
    exact ⟨[], by simp, List.nodup_nil, by simp⟩
  | cons caller rest ih =>
    unfold enqueue at h
    split at h
    next => cases h
    next =>
      split at h
      next hvisited =>
        obtain ⟨new, hnext, hnodup, hmem⟩ := ih h
        refine ⟨new, hnext, hnodup, fun other ↦ ?_⟩
        rw [hmem, List.mem_cons]
        have hseen : caller ∈ search.visited := List.contains_iff_mem.mp hvisited
        constructor
        · exact fun hother ↦ ⟨.inr hother.1, hother.2⟩
        · rintro ⟨rfl | hrest, hnot⟩
          · exact absurd hseen hnot
          · exact ⟨hrest, hnot⟩
      next hvisited =>
        obtain ⟨new, hnext, hnodup, hmem⟩ := ih h
        have hunseen : caller ∉ search.visited := fun hseen ↦
          hvisited (List.contains_iff_mem.mpr hseen)
        refine ⟨caller :: new, by simp [hnext], List.nodup_cons.mpr ⟨?_, hnodup⟩, fun other ↦ ?_⟩
        · exact fun hnew ↦ ((hmem caller).mp hnew).2 (by simp)
        · simp only [List.mem_cons, hmem, List.mem_append, List.not_mem_nil, or_false]
          constructor
          · rintro (rfl | ⟨hrest, hnot⟩)
            · exact ⟨.inl rfl, hunseen⟩
            · exact ⟨.inr hrest, fun hseen ↦ hnot (.inl hseen)⟩
          · rintro ⟨rfl | hrest, hnot⟩
            · exact .inl rfl
            · by_cases heq : other = caller
              · exact .inl heq
              · exact .inr ⟨hrest, fun hor ↦ hor.elim hnot heq⟩

/-- What holds of a search while it goes on. -/
structure Searching (graph : CallGraph) (sought : FnId) (search : Search) : Prop where
  sought_mem : sought ∈ search.visited
  queued : ∀ function ∈ search.queue, function ∈ search.visited
  nodup : search.visited.Nodup
  searchable : ∀ function ∈ search.visited, function ∈ graph.searchable sought
  reaches : ∀ function ∈ search.visited, Relation.ReflTransGen graph.IsCaller function sought
  /-- Every caller of what has left the queue is visited, and is not the sought function. -/
  looked : ∀ function ∈ search.visited, function ∉ search.queue →
    ∀ caller, graph.IsCaller caller function → caller ∈ search.visited ∧ caller ≠ sought

namespace Searching

theorem start (graph : CallGraph) (sought : FnId) :
    graph.Searching sought { queue := [sought], visited := [sought] } where
  sought_mem := List.mem_singleton_self sought
  queued _ h := h
  nodup := List.nodup_singleton sought
  searchable := by
    rintro function hfunction
    obtain rfl := List.mem_singleton.mp hfunction
    exact List.mem_toFinset.mpr List.mem_cons_self
  reaches := by
    rintro function hfunction
    obtain rfl := List.mem_singleton.mp hfunction
    exact .refl
  looked _ h hnot := absurd h hnot

variable {queue visited : List FnId}

/-- The search goes on after the callers of one function have been queued. -/
theorem step (h : graph.Searching sought { queue := function :: queue, visited })
    (hnext : enqueue sought { queue, visited } (graph.callers function) = some next) :
    graph.Searching sought next ∧
      next.queue.length + visited.length = queue.length + next.visited.length := by
  have hsought : sought ∉ graph.callers function := by
    rw [← enqueue_eq_none_iff, hnext]
    exact Option.some_ne_none next
  obtain ⟨new, rfl, hnodup, hmem⟩ := exists_new_of_enqueue hnext
  have hcalls {caller : FnId} (hnew : caller ∈ new) : graph.IsCaller caller function :=
    ((hmem caller).mp hnew).1
  have hfunction : function ∈ visited := h.queued function List.mem_cons_self
  constructor
  · constructor
    case sought_mem => exact List.mem_append_left _ h.sought_mem
    case queued =>
      intro other hother
      rcases List.mem_append.mp hother with hold | hnew
      · exact List.mem_append_left _ (h.queued other (List.mem_cons_of_mem _ hold))
      · exact List.mem_append_right _ hnew
    case nodup =>
      refine List.nodup_append.mpr ⟨h.nodup, hnodup, fun old hold other hother heq ↦ ?_⟩
      exact ((hmem other).mp hother).2 (heq ▸ hold)
    case searchable =>
      intro other hother
      rcases List.mem_append.mp hother with hold | hnew
      · exact h.searchable other hold
      · exact (hcalls hnew).mem_searchable sought
    case reaches =>
      intro other hother
      rcases List.mem_append.mp hother with hold | hnew
      · exact h.reaches other hold
      · exact .head (hcalls hnew) (h.reaches function hfunction)
    case looked =>
      intro other hother hleft caller hcaller
      have hleft' : other ∉ queue ∧ other ∉ new := by simpa using hleft
      have hold := (List.mem_append.mp hother).resolve_right hleft'.2
      by_cases heq : other = function
      · subst heq
        refine ⟨?_, fun h ↦ hsought (h ▸ hcaller)⟩
        by_cases hseen : caller ∈ visited
        · exact List.mem_append_left _ hseen
        · exact List.mem_append_right _ ((hmem caller).mpr ⟨hcaller, hseen⟩)
      · have hlooked := h.looked other hold (by simp [heq, hleft'.1]) caller hcaller
        exact ⟨List.mem_append_left _ hlooked.1, hlooked.2⟩
  · simp only [List.length_append]
    omega

theorem length_visited_le (h : graph.Searching sought search) :
    search.visited.length ≤ (graph.searchable sought).card := by
  rw [← List.toFinset_card_of_nodup h.nodup]
  exact Finset.card_le_card fun function hfunction ↦
    h.searchable function (List.mem_toFinset.mp hfunction)

/-- When nothing is left in the queue, the sought function calls nothing that leads to it. -/
theorem not_transGen (h : graph.Searching sought { queue := [], visited }) :
    ¬ Relation.TransGen graph.IsCaller sought sought := by
  have hclosed {caller : FnId} (hreaches : Relation.TransGen graph.IsCaller caller sought) :
      caller ∈ visited ∧ caller ≠ sought := by
    induction hreaches using Relation.TransGen.head_induction_on with
    | single hcaller => exact h.looked _ h.sought_mem List.not_mem_nil _ hcaller
    | head hcaller _ ih => exact h.looked _ ih.1 List.not_mem_nil _ hcaller
  exact fun hcycle ↦ (hclosed hcycle).2 rfl

/-- With fuel for everything that is queued or can be queued still, the search finds the sought
function if and only if it is on a cycle. -/
theorem finds_iff {fuel : Nat} (h : graph.Searching sought search)
    (hfuel : (graph.searchable sought).card + search.queue.length ≤ fuel + search.visited.length) :
    graph.finds sought fuel search = true ↔ Relation.TransGen graph.IsCaller sought sought := by
  induction fuel generalizing search with
  | zero =>
    have hqueue : search.queue = [] := by
      have hvisited := h.length_visited_le
      exact List.length_eq_zero_iff.mp (by omega)
    obtain ⟨queue, visited⟩ := search
    obtain rfl : queue = [] := hqueue
    simp [finds, h.not_transGen]
  | succ fuel ih =>
    obtain ⟨queue, visited⟩ := search
    cases queue with
    | nil => simp [finds, h.not_transGen]
    | cons function queue =>
      unfold finds
      cases hnext : enqueue sought { queue, visited } (graph.callers function) with
      | none =>
        have hcalls : graph.IsCaller sought function := enqueue_eq_none_iff.mp hnext
        exact iff_of_true rfl
          (.head' hcalls (h.reaches function (h.queued function List.mem_cons_self)))
      | some next =>
        obtain ⟨hsearching, hlength⟩ := h.step hnext
        refine ih hsearching ?_
        simp only [List.length_cons] at hfuel
        omega

end Searching

/-- A function is recursive if one or more calls lead from it back to it. -/
theorem isRecursive_iff : graph.isRecursive function = true ↔
    Relation.TransGen graph.IsCaller function function := by
  refine (Searching.start graph function).finds_iff ?_
  have hcard := graph.card_searchable_le function
  simp only [List.length_singleton]
  omega

end CallGraph

/-! ### The calls of a program -/

namespace Program

variable {program : Program} {caller callee function : FnId}

theorem mem_callGraph_sites {call : CallSite} : call ∈ program.callGraph.sites ↔
    program.HasFunction call.caller ∧ call.site ∈ program.functionStmts call.caller ∧
      (program.kind call.site).CallsDirectly call.callee := by
  rw [← StmtKind.directCallee?_eq_some]
  obtain ⟨caller, site, callee⟩ := call
  simp only [callGraph, callsFrom, List.mem_flatMap, mem_functionIds, List.mem_filterMap,
    Option.map_eq_some_iff, CallSite.mk.injEq]
  constructor
  · rintro ⟨_, hcaller, _, hsite, _, hcallee, rfl, rfl, rfl⟩
    exact ⟨hcaller, hsite, hcallee⟩
  · rintro ⟨hcaller, hsite, hcallee⟩
    exact ⟨caller, hcaller, site, hsite, callee, hcallee, rfl, rfl, rfl⟩

namespace WellLinked

theorem mem_callGraph_sites_iff (h : program.WellLinked) {call : CallSite} :
    call ∈ program.callGraph.sites ↔
      program.StandsIn call.caller call.site ∧
        (program.kind call.site).CallsDirectly call.callee := by
  rw [mem_callGraph_sites]
  constructor
  · rintro ⟨hcaller, hsite, hcalls⟩
    exact ⟨(h.mem_functionStmts_iff hcaller).mp hsite, hcalls⟩
  · rintro ⟨hsite, hcalls⟩
    have hcaller := h.hasFunction_of_standsIn hsite
    exact ⟨hcaller, (h.mem_functionStmts_iff hcaller).mpr hsite, hcalls⟩

/-- A calling statement stands in one function only, which is the one that the graph gives. -/
theorem callerOf?_callGraph (h : program.WellLinked) {call : CallSite}
    (hcall : call ∈ program.callGraph.sites) :
    program.callGraph.callerOf? call.site = some call.caller := by
  have hmem : call ∈ program.callGraph.sites.filter fun other ↦ other.site == call.site :=
    List.mem_filter.mpr ⟨hcall, beq_self_eq_true _⟩
  obtain ⟨last, hlast⟩ :=
    Option.isSome_iff_exists.mp (List.getLast?_isSome.mpr (List.ne_nil_of_mem hmem))
  obtain ⟨hsites, hsite⟩ := List.mem_filter.mp (List.mem_of_getLast? hlast)
  have hstands := (h.mem_callGraph_sites_iff.mp hsites).1
  rw [beq_iff_eq.mp hsite] at hstands
  refine Option.map_eq_some_iff.mpr ⟨last, hlast, ?_⟩
  exact h.standsIn_unique hstands (h.mem_callGraph_sites_iff.mp hcall).1

theorem mem_callers_callGraph (h : program.WellLinked) :
    caller ∈ program.callGraph.callers callee ↔ program.Calls caller callee := by
  rw [CallGraph.mem_callers]
  constructor
  · rintro ⟨call, hcall, rfl, hcaller⟩
    obtain rfl := Option.some.inj ((h.callerOf?_callGraph hcall).symm.trans hcaller)
    exact ⟨call.site, h.mem_callGraph_sites_iff.mp hcall⟩
  · rintro ⟨site, hsite⟩
    have hcall : ⟨caller, site, callee⟩ ∈ program.callGraph.sites :=
      h.mem_callGraph_sites_iff.mpr hsite
    exact ⟨_, hcall, rfl, h.callerOf?_callGraph hcall⟩

theorem hasFunction_of_calls (h : program.WellLinked)
    (hcalls : Relation.TransGen program.Calls caller callee) : program.HasFunction caller := by
  induction hcalls using Relation.TransGen.head_induction_on with
  | single hfirst => exact h.hasFunction_of_standsIn hfirst.choose_spec.1
  | head hfirst _ _ => exact h.hasFunction_of_standsIn hfirst.choose_spec.1

/-- The recursive iterators are the iterators on a cycle of direct calls. -/
theorem mem_recursiveIterators_iff (h : program.WellLinked) :
    function ∈ program.recursiveIterators program.callGraph ↔
      (program.function function).isIterator = true ∧
        Relation.TransGen program.Calls function function := by
  have hcalls : program.callGraph.IsCaller = program.Calls :=
    funext fun _ ↦ funext fun _ ↦ propext h.mem_callers_callGraph
  simp only [recursiveIterators, List.mem_filter, Bool.and_eq_true, CallGraph.isRecursive_iff,
    hcalls, mem_functionIds]
  exact and_iff_right_of_imp fun hiterator ↦ h.hasFunction_of_calls hiterator.2

end WellLinked

end Program

/-! ### A cycle through a helper -/

/-- Two iterators. The first one calls itself through a helper that is no iterator, the second one
through the function table. -/
def cycles : Program where
  types := builtinTypes
  symbols := #[{ name := "x", kind := .var, type := .int, owner := some ⟨1⟩ }]
  statements := #[
    { kind := .plain [⟨1⟩], bodyOf := some ⟨0⟩, span := .none },
    { kind := .branch (.bool true) ⟨2⟩ none, parent := some ⟨0⟩, span := .none },
    { kind := .plain [⟨3⟩], parent := some ⟨1⟩, span := .none },
    { kind := .action (.evaluate (.call ⟨1⟩ [])), parent := some ⟨2⟩, span := .none },
    { kind := .plain [⟨5⟩, ⟨6⟩], bodyOf := some ⟨1⟩, span := .none },
    { kind := .action (.define ⟨0⟩), parent := some ⟨4⟩, span := .none },
    { kind := .action (.assign ⟨0⟩ (.call ⟨0⟩ [])), parent := some ⟨4⟩, span := .none },
    { kind := .plain [⟨8⟩, ⟨9⟩], bodyOf := some ⟨2⟩, span := .none },
    { kind := .action (.evaluate (.call ⟨0⟩ [])), parent := some ⟨7⟩, span := .none },
    { kind := .action (.evaluate (.tableCall (.int 0) [])), parent := some ⟨7⟩, span := .none }]
  functions := #[
    { name := "walk", retType := .int, body := ⟨0⟩, flags := { iterator := true } },
    { name := "helper", retType := .int, body := ⟨4⟩ },
    { name := "restart", retType := .int, body := ⟨7⟩, flags := { iterator := true } }]
  table := { slots := #[⟨2⟩] }

theorem recursiveIterators_cycles : cycles.WellLinked ∧
    cycles.recursiveIterators cycles.callGraph = [⟨0⟩] ∧
      ∀ function : FnId, function ∈ cycles.recursiveIterators cycles.callGraph ↔
        (cycles.function function).isIterator = true ∧
          Relation.TransGen cycles.Calls function function := by
  have hlinked : cycles.WellLinked := by decide
  exact ⟨hlinked, by decide +kernel, fun _ ↦ hlinked.mem_recursiveIterators_iff⟩

end IteratorLowering
