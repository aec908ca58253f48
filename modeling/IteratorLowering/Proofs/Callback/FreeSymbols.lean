import IteratorLowering.Lowering.LoopBody
import IteratorLowering.Proofs.Forest.Visiting
import IteratorLowering.Proofs.Outcome

/-!
# Captured symbols

A statement cannot be moved out of its function if it leaves the function: it returns, or it jumps
to a label that the function does not place (`Program.LeavesBody`). `freeCaptures` stops at the
first statement of this kind (`freeCaptures_eq`). Otherwise it lists what the body captures
(`Program.CapturesExactly`): the symbols that are mentioned and come from outside, each once, in the
order in which they are mentioned first, and of each whether the body may change it.
-/

set_option autoImplicit false
set_option relaxedAutoImplicit false

namespace IteratorLowering

/-! ### First mentions -/

/-- Without the repeats, what a list has of some kind stands in the order of first occurrence. -/
theorem pairwise_eraseDups_filter {α : Type} [DecidableEq α] (keep : α → Bool) (items : List α) :
    (items.filter keep).eraseDups.Pairwise fun first second ↦
      items.idxOf first < items.idxOf second := by
  induction items generalizing keep with
  | nil => exact .nil
  | cons head rest ih =>
    -- Behind the head, what is not the head has moved by one place.
    have hshift {keep : α → Bool} (hhead : keep head = false) :
        (rest.filter keep).eraseDups.Pairwise fun first second ↦
          (head :: rest).idxOf first < (head :: rest).idxOf second := by
      have hne {item : α} (hitem : item ∈ (rest.filter keep).eraseDups) : head ≠ item := by
        rintro rfl
        simp [hhead] at hitem
      refine (ih keep).imp_of_mem fun hfirst hsecond hlt ↦ ?_
      rw [List.idxOf_cons_ne _ (hne hfirst), List.idxOf_cons_ne _ (hne hsecond)]
      exact Nat.succ_lt_succ hlt
    by_cases hkeep : keep head = true
    · rw [List.filter_cons_of_pos hkeep, List.eraseDups_cons, List.filter_filter]
      refine List.pairwise_cons.mpr ⟨fun item hitem ↦ ?_, hshift (by simp)⟩
      have hne : head ≠ item := by
        rintro rfl
        simp at hitem
      rw [List.idxOf_cons_self, List.idxOf_cons_ne _ hne]
      exact Nat.succ_pos _
    · rw [List.filter_cons_of_neg hkeep]
      exact hshift (by simpa using hkeep)

/-- A loop that only checks stops at the first item that does not pass. -/
theorem forM_check {Error State α : Type} {step : α → EStateM Error State PUnit}
    {check : α → Option Error} {state : State}
    (hstep : ∀ item, step item state = (check item).elim (.ok ⟨⟩ state) (.error · state))
    (items : List α) :
    items.forM step state = (items.findSome? check).elim (.ok ⟨⟩ state) (.error · state) := by
  induction items with
  | nil => rfl
  | cons item rest ih =>
    have hitem := hstep item
    rw [List.findSome?_cons]
    cases hcheck : check item with
    | some error =>
      rw [hcheck] at hitem
      exact bind_eq_of_eq_error hitem
    | none =>
      rw [hcheck] at hitem
      exact (bind_eq_of_eq_ok hitem).trans ih

/-! ### Captures -/

/-- Whether a statement assigns a symbol or takes its address. -/
def StmtKind.Changes (kind : StmtKind) (symbol : SymId) : Prop :=
  (∃ value, kind = .action (.assign symbol value)) ∨
    (∃ target, kind = .action (.assign target (.addressOf symbol))) ∨
    kind = .action (.evaluate (.addressOf symbol))

theorem StmtKind.mem_mayChange {kind : StmtKind} {symbol : SymId} :
    symbol ∈ kind.mayChange ↔ kind.Changes symbol := by
  unfold mayChange Changes
  split <;> simp_all [eq_comm]

namespace Program

variable {program : Program} {function : FnId} {id : StmtId} {symbol : SymId}

/-- The symbols that a function's body mentions, in preorder. -/
def mentioned (program : Program) (function : FnId) : List SymId :=
  (program.functionStmts function).flatMap fun id ↦ (program.kind id).symbols

/-- Whether a statement of a function mentions a symbol. -/
def MentionedIn (program : Program) (function : FnId) (symbol : SymId) : Prop :=
  ∃ id ∈ program.functionStmts function, (program.kind id).Mentions symbol

theorem mem_mentioned :
    symbol ∈ program.mentioned function ↔ program.MentionedIn function symbol := by
  simp only [mentioned, List.mem_flatMap, StmtKind.mem_symbols, MentionedIn]

theorem declaresIn_iff :
    program.DeclaresIn function symbol ↔
      ∃ id ∈ program.functionStmts function, program.kind id = .action (.define symbol) := by
  refine exists_congr fun id ↦ and_congr_right fun _ ↦ ?_
  unfold StmtKind.defined?
  split <;> simp_all

theorem contains_definedSymbols :
    (program.definedSymbols (program.bodyOf function)).contains symbol = true ↔
      program.DeclaresIn function symbol := by
  rw [List.contains_iff_mem, mem_definedSymbols]
  rfl

/-- Whether a statement of a function has nowhere to go once it is moved out: it returns, or it
jumps to a label that the function does not place. -/
def LeavesBody (program : Program) (function : FnId) (id : StmtId) : Prop :=
  (∃ value, program.kind id = .action (.ret value)) ∨
    ∃ label, program.kind id = .action (.goto label) ∧ ¬ program.DeclaresIn function label

theorem isSome_extractionFault? :
    (program.extractionFault? (program.definedSymbols (program.bodyOf function)) id).isSome = true ↔
      program.LeavesBody function id := by
  unfold extractionFault? LeavesBody
  split
  next value hkind => simp [hkind]
  next label hkind => simp [hkind, ← contains_definedSymbols]
  next hret hgoto =>
    constructor
    · exact nofun
    · rintro (⟨value, hkind⟩ | ⟨label, hkind, -⟩)
      · exact absurd hkind (hret value)
      · exact absurd hkind (hgoto label)

/-- A list of captures names exactly the symbols that a function's body mentions and that come from
outside, each once and in the order of first mention, and tells which of them the body may
change. -/
structure CapturesExactly (program : Program) (function : FnId) (captures : List Capture) :
    Prop where
  mem : ∀ {symbol}, symbol ∈ captures.map Capture.symbol ↔
    program.MentionedIn function symbol ∧ (program.symbol symbol).isLabel = false ∧
      ¬ program.DeclaresIn function symbol ∧ symbol ∉ (program.function function).formals
  nodup : (captures.map Capture.symbol).Nodup
  ordered : (captures.map Capture.symbol).Pairwise fun first second ↦
    (program.mentioned function).idxOf first < (program.mentioned function).idxOf second
  byReference : ∀ capture ∈ captures, capture.byReference = true ↔
    ∃ id ∈ program.functionStmts function, (program.kind id).Changes capture.symbol

theorem map_symbol_captures :
    (program.captures function).map Capture.symbol = program.freeSymbols function := by
  rw [captures, List.map_map]
  exact List.map_id'' (fun _ ↦ rfl) _

theorem capturesExactly (program : Program) (function : FnId) :
    program.CapturesExactly function (program.captures function) := by
  have hordered : (program.freeSymbols function).Pairwise fun first second ↦
      (program.mentioned function).idxOf first < (program.mentioned function).idxOf second :=
    pairwise_eraseDups_filter _ _
  refine ⟨fun {symbol} ↦ ?_, ?_, ?_, fun capture hcapture ↦ ?_⟩
  · rw [map_symbol_captures, ← contains_definedSymbols, ← mem_mentioned]
    simp [freeSymbols, mentioned, functionStmts, and_comm, and_assoc]
  · rw [map_symbol_captures]
    exact hordered.imp fun hlt heq ↦ absurd (heq ▸ hlt) (Nat.lt_irrefl _)
  · rwa [map_symbol_captures]
  · obtain ⟨symbol, -, rfl⟩ := List.mem_map.mp hcapture
    simp [StmtKind.mem_mayChange]

end Program

variable {program : Program} {function : FnId}

/-- The fault of a statement that leaves the body. -/
def Program.bodyFault? (program : Program) (function : FnId) (id : StmtId) :
    Option LoweringError :=
  (program.extractionFault? (program.definedSymbols (program.bodyOf function)) id).map
    fun fault ↦ .internal fault (program.span id)

/-- The captured symbols are told unless a statement leaves the body. The first one that does is the
fault. -/
theorem freeCaptures_eq (function : FnId) (program : Program) :
    freeCaptures function program =
      ((program.functionStmts function).findSome? (program.bodyFault? function)).elim
        (.ok (program.captures function) program) (.error · program) := by
  change ((program.functionStmts function).forM (_ : StmtId → Pass PUnit) >>= fun _ ↦
    (return program.captures function : Pass (List Capture))) program = _
  have hloop {step : StmtId → Pass PUnit} (hstep : ∀ id, step id program =
      (program.bodyFault? function id).elim (.ok ⟨⟩ program) (.error · program)) :
      ((program.functionStmts function).forM step >>= fun _ ↦
        return program.captures function) program =
        ((program.functionStmts function).findSome? (program.bodyFault? function)).elim
          (.ok (program.captures function) program) (.error · program) := by
    have hchecks := forM_check hstep (program.functionStmts function)
    cases hfound : (program.functionStmts function).findSome? (program.bodyFault? function) with
    | some error =>
      rw [hfound] at hchecks
      exact bind_eq_of_eq_error hchecks
    | none =>
      rw [hfound] at hchecks
      exact bind_eq_of_eq_ok hchecks
  refine hloop fun id ↦ ?_
  rw [Program.bodyFault?]
  cases program.extractionFault? (program.definedSymbols (program.bodyOf function)) id <;> rfl

/-- The search fails if and only if a statement leaves the body. -/
theorem freeCaptures_eq_error_iff :
    (∃ error, freeCaptures function program = .error error program) ↔
      ∃ id ∈ program.functionStmts function, program.LeavesBody function id := by
  have hsome := List.findSome?_isSome_iff (f := program.bodyFault? function)
    (l := program.functionStmts function)
  simp only [Program.bodyFault?, Option.isSome_map, Program.isSome_extractionFault?] at hsome
  rw [← hsome, freeCaptures_eq]
  cases (program.functionStmts function).findSome? (program.bodyFault? function) <;> simp

/-- If no statement leaves the body, the captures are told. -/
theorem freeCaptures_eq_ok (h : ∀ id ∈ program.functionStmts function,
    ¬ program.LeavesBody function id) :
    freeCaptures function program = .ok (program.captures function) program := by
  have heq := freeCaptures_eq function program
  cases hfound : (program.functionStmts function).findSome? (program.bodyFault? function) with
  | some error =>
    rw [hfound] at heq
    obtain ⟨id, hid, hleaves⟩ := freeCaptures_eq_error_iff.mp ⟨error, heq⟩
    exact absurd hleaves (h id hid)
  | none =>
    rw [hfound] at heq
    exact heq

end IteratorLowering
