import IteratorLowering.Proofs.Callback.Closing

/-!
# Closed bodies

When all captures are bound, what has been gathered is put around the members of the body. The loads
then stand before the old statements and the stores behind them, and the old statements have changed
in the captured symbols only (`Program.ClosesBody`). The body mentions no captured symbol any more
(`Program.ClosesBody.unmentioned`), no statement of it leaves it, and it captures nothing
(`Program.ClosesBody.freeCaptures_eq`).

The move fails if the body is no block and there is something to be moved; otherwise `closeBody`
gives a result for every body that captures are told for (`exists_closeBody`).
-/

set_option autoImplicit false
set_option relaxedAutoImplicit false

namespace IteratorLowering

section

variable {kind : StmtKind} {first last : List StmtId}

theorem StmtKind.children_wrap (h : kind.isBlock = true ∨ first = [] ∧ last = []) :
    (kind.mapMembers (first ++ · ++ last)).children = first ++ kind.children ++ last := by
  cases kind with
  | block => rfl
  | action | branch =>
    obtain hblock | ⟨rfl, rfl⟩ := h
    · cases hblock
    · simp [mapMembers]

theorem StmtKind.isBlock_mapSymbols (f : SymId → SymId) :
    (kind.mapSymbols f).isBlock = kind.isBlock := by
  cases kind <;> rfl

theorem StmtKind.symbols_mapMembers (change : List StmtId → List StmtId) :
    (kind.mapMembers change).symbols = kind.symbols := by
  cases kind <;> rfl

theorem StmtKind.mapMembers_id : kind.mapMembers (fun members ↦ members) = kind := by
  cases kind <;> rfl

/-- A statement without members stays what it is. -/
theorem StmtKind.mapMembers_eq_action_iff {change : List StmtId → List StmtId} {action : Action} :
    kind.mapMembers change = .action action ↔ kind = .action action := by
  cases kind <;> simp [mapMembers]

end

namespace Program

variable {start program final : Program} {function : FnId} {entry exit id : StmtId}
variable {bindings : List Binding} {loads stores : List StmtId}

/-- Statements without children are listed one after the other. -/
theorem unfolds_leaves {ids : List StmtId} (h : ∀ id ∈ ids, (program.kind id).children = []) :
    program.Unfolds ids ids := by
  induction ids with
  | nil => exact .nil
  | cons id rest ih =>
    have hinside : program.Unfolds (program.kind id).children [] := by
      rw [h id List.mem_cons_self]
      exact .nil
    exact .cons hinside (ih fun other hother ↦ h other (List.mem_cons_of_mem _ hother))

/-- What a statement of a function becomes when the body is wrapped and symbols are replaced. -/
def wrapped (start : Program) (function : FnId) (rename : SymId → SymId)
    (first last : List StmtId) (id : StmtId) : StmtKind :=
  if id = start.bodyOf function then
    ((start.kind id).mapSymbols rename).mapMembers (first ++ · ++ last)
  else if id ∈ start.functionStmts function then (start.kind id).mapSymbols rename
  else start.kind id

/-- Actions that are put around a body are listed before and behind its old statements. -/
theorem functionStmts_wrapped {rename : SymId → SymId} {first last : List StmtId}
    (hlinked : start.WellLinked) (hfunction : start.HasFunction function)
    (hblock : (start.kind (start.bodyOf function)).isBlock = true ∨ first = [] ∧ last = [])
    (hfinal : final.WellLinked) (hfinalFunction : final.HasFunction function)
    (hbodyOf : final.bodyOf function = start.bodyOf function)
    (hkind : ∀ id ∈ start.functionStmts function,
      final.kind id = start.wrapped function rename first last id)
    (hleaves : ∀ id ∈ first ++ last, (final.kind id).isAction = true) :
    final.functionStmts function =
      start.bodyOf function :: (first ++ (start.functionStmts function).tail ++ last) := by
  obtain ⟨hunfolds, hnodup⟩ := hlinked.unfolds_functionStmts hfunction
  obtain ⟨below, hbelow, hstatements⟩ := hunfolds.of_singleton
  have hold : final.Unfolds (start.kind (start.bodyOf function)).children below := by
    refine hbelow.congr fun id hid ↦ ?_
    have hmem : id ∈ start.functionStmts function := hstatements ▸ List.mem_cons_of_mem _ hid
    have hne : id ≠ start.bodyOf function := by
      rintro rfl
      rw [hstatements] at hnodup
      exact (List.nodup_cons.mp hnodup).1 hid
    rw [hkind id hmem, wrapped, if_neg hne, if_pos hmem, StmtKind.children_mapSymbols]
  have hchildren : (final.kind (start.bodyOf function)).children =
      first ++ (start.kind (start.bodyOf function)).children ++ last := by
    have hmem : start.bodyOf function ∈ start.functionStmts function :=
      hunfolds.subset_of_roots (List.mem_singleton_self _)
    have hrenamed : ((start.kind (start.bodyOf function)).mapSymbols rename).isBlock = true ∨
        first = [] ∧ last = [] := by
      rwa [StmtKind.isBlock_mapSymbols]
    rw [hkind _ hmem, wrapped, if_pos rfl, StmtKind.children_wrap hrenamed,
      StmtKind.children_mapSymbols]
  have haround : final.Unfolds first first ∧ final.Unfolds last last := by
    have hnone : ∀ id ∈ first ++ last, (final.kind id).children = [] := fun id hid ↦ by
      have haction := hleaves id hid
      cases hkind : final.kind id with
      | action => rfl
      | branch | block => simp [hkind, StmtKind.isAction] at haction
    exact ⟨unfolds_leaves fun id hid ↦ hnone id (List.mem_append_left _ hid),
      unfolds_leaves fun id hid ↦ hnone id (List.mem_append_right _ hid)⟩
  have hwhole : final.Unfolds [start.bodyOf function]
      (start.bodyOf function :: (first ++ below ++ last)) := by
    refine .singleton ?_
    rw [hchildren]
    exact (haround.1.append hold).append haround.2
  have hwalk := (hfinal.unfolds_functionStmts hfinalFunction).1
  rw [hbodyOf] at hwalk
  rw [hwalk.unique hwhole, hstatements, List.tail_cons]

/-- The final program has the body of a function closed by some bindings: loads have been put before
the old statements and stores behind them. The old statements are in their places and have changed
in the captured symbols only, and the function has got the formals of the bindings. -/
structure ClosesBody (start : Program) (function : FnId) (bindings : List Binding)
    (loads stores : List StmtId) (final : Program) : Prop where
  linked : final.WellLinked
  enlarges : start.Enlarges final
  functions : final.functions.size = start.functions.size
  definition : ∀ other, final.function other =
    if other = function then
      { start.function function with
        formals := (start.function function).formals ++ bindings.map Binding.formal }
    else start.function other
  binds : ∀ binding ∈ bindings, start.Binds binding final
  nodup : (bindings.flatMap Binding.made).Nodup
  made : ∀ symbol ∈ bindings.flatMap Binding.made,
    ¬ start.HasSymbol symbol ∧ final.HasSymbol symbol
  statements : final.functionStmts function =
    start.bodyOf function :: (loads ++ (start.functionStmts function).tail ++ stores)
  loaded : loads.map final.kind = (bindings.flatMap Binding.loads).map .action
  stored : stores.map final.kind = (bindings.flatMap Binding.stores).map .action
  new : ∀ id ∈ loads ++ stores, ¬ start.Has id
  stmt : ∀ {id}, start.Has id → final.stmt id = { start.stmt id with
    kind := start.wrapped function (Binding.rename bindings) loads stores id }

/-- What has been gathered stays when it is put around the members of a block. -/
theorem Gathers.map_kind_eq {scratch block : StmtId} {members : List StmtId}
    {actions : List Action} (hlinked : program.WellLinked)
    (hscratch : program.kind scratch = .plain members)
    (hactions : members.map program.kind = actions.map .action)
    (hkind : ∀ id, program.Has id → id ≠ block → (program.kind id).isAction = true →
      final.kind id = program.kind id) (hblock : ∀ id ∈ members, id ≠ block) :
    members.map final.kind = actions.map .action := by
  rw [← hactions]
  refine List.map_congr_left fun id hid ↦ ?_
  have hchild : id ∈ (program.kind scratch).children := by rwa [hscratch]
  exact hkind id (hlinked.has_of_child hchild) (hblock id hid) (isAction_of_mem hactions hid)

section

variable (h : start.Bound function entry exit bindings program)
variable (hentry : program.kind entry = .plain loads) (hexit : program.kind exit = .plain stores)
variable (hrelinks : program.Relinks
  (fun id ↦ if id = start.bodyOf function then
      (program.kind id).mapMembers (loads ++ · ++ stores)
    else if id = entry ∨ id = exit then .plain [] else program.kind id)
  (fun id ↦ if id ∈ loads ++ stores then some (start.bodyOf function) else program.parent id)
  final)
include h hentry hexit

/-- What has been gathered is new. -/
theorem Bound.not_has_of_gathered : ∀ id ∈ loads ++ stores, ¬ start.Has id := by
  obtain ⟨members, hmembers, -, hloads⟩ := h.closes.entry.members
  obtain rfl : loads = members := by simpa [StmtKind.plain] using hentry.symm.trans hmembers
  obtain ⟨members, hmembers, -, hstores⟩ := h.closes.exit.members
  obtain rfl : stores = members := by simpa [StmtKind.plain] using hexit.symm.trans hmembers
  exact List.forall_mem_append.mpr ⟨hloads, hstores⟩

include hrelinks

/-- The gathered statements do what they did when they stand around the body. -/
theorem Bound.map_kind_gathered (hbody : start.Has (start.bodyOf function)) :
    loads.map final.kind = (bindings.flatMap Binding.loads).map .action ∧
    stores.map final.kind = (bindings.flatMap Binding.stores).map .action := by
  have hnew := h.not_has_of_gathered hentry hexit
  obtain ⟨members, hmembers, hloads, -⟩ := h.closes.entry.members
  obtain rfl : loads = members := by simpa [StmtKind.plain] using hentry.symm.trans hmembers
  obtain ⟨members, hmembers, hstores, -⟩ := h.closes.exit.members
  obtain rfl : stores = members := by simpa [StmtKind.plain] using hexit.symm.trans hmembers
  have hactions : ∀ id, program.Has id → id ≠ start.bodyOf function →
      (program.kind id).isAction = true → final.kind id = program.kind id := by
    intro id hid hne haction
    have hscratch : ¬ (id = entry ∨ id = exit) := by
      rintro (rfl | rfl)
      · rw [hentry] at haction
        cases haction
      · rw [hexit] at haction
        cases haction
    rw [hrelinks.kind_eq hid, if_neg hne, if_neg hscratch]
  exact ⟨Gathers.map_kind_eq h.closes.linked hentry hloads hactions fun id hid heq ↦
      hnew id (List.mem_append_left _ hid) (heq ▸ hbody),
    Gathers.map_kind_eq h.closes.linked hexit hstores hactions fun id hid heq ↦
      hnew id (List.mem_append_right _ hid) (heq ▸ hbody)⟩

/-- An old statement has been wrapped if it is the body, and it has changed in its symbols. -/
theorem Bound.stmt_wrapped (hmem : start.bodyOf function ∈ start.functionStmts function)
    (hid : start.Has id) : final.stmt id = { start.stmt id with
      kind := start.wrapped function (Binding.rename bindings) loads stores id } := by
  have hkind : program.kind id = if id ∈ start.functionStmts function then
      (start.kind id).mapSymbols (Binding.rename bindings) else start.kind id := by
    rw [Program.kind, h.closes.stmt hid]
    rfl
  have hparent : program.parent id = start.parent id := by
    rw [Program.parent, h.closes.stmt hid, Program.parent]
  have hscratch : ¬ (id = entry ∨ id = exit) := by
    rintro (rfl | rfl)
    · exact h.closes.entry.new hid
    · exact h.closes.exit.new hid
  have hnew : id ∉ loads ++ stores := fun hgathered ↦
    h.not_has_of_gathered hentry hexit id hgathered hid
  rw [hrelinks.stmt (h.closes.has hid), if_neg hnew, hparent, h.closes.stmt hid, if_neg hscratch,
    hkind, wrapped]
  by_cases heq : id = start.bodyOf function
  · simp only [if_pos heq, heq ▸ hmem, if_true]
    rfl
  · simp only [if_neg heq]
    rfl

/-- A body is closed when what has been gathered is put around its members. -/
theorem Bound.closesBody (hlinked : start.WellLinked) (hfunction : start.HasFunction function)
    (hblock : (start.kind (start.bodyOf function)).isBlock = true ∨ loads = [] ∧ stores = [])
    (hfinal : final.WellLinked) : start.ClosesBody function bindings loads stores final := by
  have hbody := hlinked.has_body hfunction
  have hmem : start.bodyOf function ∈ start.functionStmts function :=
    (hlinked.unfolds_functionStmts hfunction).1.subset_of_roots (List.mem_singleton_self _)
  have hhas := (hlinked.unfolds_walk (.root (hlinked.parent_body hfunction)) hbody).2.2
  obtain ⟨hloaded, hstored⟩ := h.map_kind_gathered hentry hexit hrelinks hbody
  have hstmt {id : StmtId} (hid : start.Has id) := h.stmt_wrapped hentry hexit hrelinks hmem hid
  have hfunctions : final.functions = program.functions := hrelinks.functions_eq
  have hdefinition (other : FnId) : final.function other = program.function other := by
    rw [Program.function, hfunctions, Program.function]
  have hrest : program.Enlarges final := by
    obtain ⟨_, rfl⟩ := hrelinks.arenas
    exact .of_eq rfl rfl rfl
  exact {
    linked := hfinal
    enlarges := h.closes.enlarges.trans hrest
    functions := by rw [hfunctions, h.closes.functions]
    definition := fun other ↦ (hdefinition other).trans (h.closes.definition other)
    binds := fun binding hbinding ↦ (h.binds binding hbinding).mono (fun symbol hsymbol ↦
      (h.made symbol (List.mem_flatMap_of_mem hbinding hsymbol)).2) hrest
    nodup := h.nodup
    made := fun symbol hsymbol ↦
      ⟨(h.made symbol hsymbol).1, (hrest.symbol (h.made symbol hsymbol).2).1⟩
    statements := by
      have hkind : ∀ id ∈ start.functionStmts function,
          final.kind id = start.wrapped function (Binding.rename bindings) loads stores id :=
        fun id hid ↦ by rw [Program.kind, hstmt (hhas id hid)]
      refine functionStmts_wrapped hlinked hfunction hblock hfinal ?_ ?_ hkind ?_
      · rw [HasFunction, hfunctions, h.closes.functions]
        exact hfunction
      · exact (bodyOf_congr hfunctions function).trans (h.closes.bodyOf_eq function)
      · exact List.forall_mem_append.mpr ⟨fun id hid ↦ Gathers.isAction_of_mem hloaded hid,
          fun id hid ↦ Gathers.isAction_of_mem hstored hid⟩
    loaded := hloaded
    stored := hstored
    new := h.not_has_of_gathered hentry hexit
    stmt := hstmt }

end

namespace ClosesBody

variable (h : start.ClosesBody function bindings loads stores final)
include h

theorem kind_of_mem (hid : id ∈ start.functionStmts function) (hhas : start.Has id) :
    ∃ change, final.kind id =
      ((start.kind id).mapSymbols (Binding.rename bindings)).mapMembers change := by
  rw [Program.kind, h.stmt hhas]
  by_cases heq : id = start.bodyOf function
  · exact ⟨_, if_pos heq⟩
  · refine ⟨fun members ↦ members, ?_⟩
    rw [StmtKind.mapMembers_id]
    exact (if_neg heq).trans (if_pos hid)

/-- A statement of the closed body belongs to a binding, or it is an old one with replaced
symbols. -/
theorem kind_cases (hlinked : start.WellLinked) (hfunction : start.HasFunction function)
    (hid : id ∈ final.functionStmts function) :
    (∃ binding ∈ bindings, ∃ action ∈ binding.loads ++ binding.stores,
      final.kind id = .action action) ∨
    id ∈ start.functionStmts function ∧ ∃ change, final.kind id =
      ((start.kind id).mapSymbols (Binding.rename bindings)).mapMembers change := by
  have hhas := (hlinked.unfolds_walk (.root (hlinked.parent_body hfunction))
    (hlinked.has_body hfunction)).2.2
  obtain ⟨below, -, hstatements⟩ :=
    (hlinked.unfolds_functionStmts hfunction).1.of_singleton
  have hold (hmem : id ∈ start.functionStmts function) :=
    h.kind_of_mem hmem (hhas id hmem)
  have hgathered {members : List StmtId} {gather : Binding → List Action}
      (hactions : members.map final.kind = (bindings.flatMap gather).map .action)
      (hmem : id ∈ members) :
      ∃ binding ∈ bindings, ∃ action ∈ gather binding, final.kind id = .action action := by
    have haction : final.kind id ∈ (bindings.flatMap gather).map StmtKind.action :=
      hactions ▸ List.mem_map_of_mem hmem
    obtain ⟨action, haction, heq⟩ := List.mem_map.mp haction
    obtain ⟨binding, hbinding, haction⟩ := List.mem_flatMap.mp haction
    exact ⟨binding, hbinding, action, haction, heq.symm⟩
  rw [h.statements, hstatements, List.tail_cons] at hid
  simp only [List.mem_cons, List.mem_append] at hid
  rcases hid with heq | (hload | hbelow) | hstore
  · have hmem : id ∈ start.functionStmts function := hstatements ▸ heq ▸ List.mem_cons_self
    exact .inr ⟨hmem, hold hmem⟩
  · obtain ⟨binding, hbinding, action, haction, hkind⟩ := hgathered h.loaded hload
    exact .inl ⟨binding, hbinding, action, List.mem_append_left _ haction, hkind⟩
  · have hmem : id ∈ start.functionStmts function := hstatements ▸ List.mem_cons_of_mem _ hbelow
    exact .inr ⟨hmem, hold hmem⟩
  · obtain ⟨binding, hbinding, action, haction, hkind⟩ := hgathered h.stored hstore
    exact .inl ⟨binding, hbinding, action, List.mem_append_right _ haction, hkind⟩

/-- The closed body mentions symbols that were made for it, and what the old symbols have been
replaced by. -/
theorem mentioned_cases (hlinked : start.WellLinked) (hfunction : start.HasFunction function)
    {symbol : SymId} (hsymbol : final.MentionedIn function symbol) :
    (∃ binding ∈ bindings, binding.capture.byReference = true ∧ symbol ∈ binding.made) ∨
      ∃ old, start.MentionedIn function old ∧ symbol = Binding.rename bindings old := by
  obtain ⟨id, hid, hsymbol⟩ := hsymbol
  rw [← StmtKind.mem_symbols] at hsymbol
  rcases h.kind_cases hlinked hfunction hid with
    ⟨binding, hbinding, action, haction, hkind⟩ | ⟨hmem, change, hkind⟩
  · left
    rw [hkind] at hsymbol
    cases href : binding.capture.byReference with
    | false => simp [Binding.loads, Binding.stores, href] at haction
    | true =>
      refine ⟨binding, hbinding, href, ?_⟩
      simp only [Binding.loads, Binding.stores, href, if_true, List.cons_append, List.nil_append,
        List.mem_cons, List.not_mem_nil, or_false] at haction
      rcases haction with rfl | rfl | rfl <;>
        simp_all [StmtKind.symbols, StmtKind.named?, StmtKind.reads, Action.named?, Action.reads,
          Expr.symbols, Operand.symbols, Binding.made, or_comm]
  · right
    rw [hkind, StmtKind.symbols_mapMembers, StmtKind.symbols_mapSymbols] at hsymbol
    obtain ⟨old, hold, rfl⟩ := List.mem_map.mp hsymbol
    exact ⟨old, ⟨id, hmem, StmtKind.mem_symbols.mp hold⟩, rfl⟩

/-- What a symbol has been replaced by is no captured symbol. -/
theorem rename_ne {binding : Binding} (hbinding : binding ∈ bindings)
    (hcaptured : start.HasSymbol binding.capture.symbol) (symbol : SymId) :
    Binding.rename bindings symbol ≠ binding.capture.symbol := by
  intro heq
  by_cases hsymbol : ∃ other ∈ bindings, other.capture.symbol = symbol
  · obtain ⟨other, hother, rfl⟩ := hsymbol
    obtain ⟨found, hfound, -, hrename⟩ := Binding.exists_rename_eq hother
    have hmade := List.mem_flatMap_of_mem hfound (h.binds found hfound).inner
    exact (h.made _ hmade).1 (hrename ▸ heq ▸ hcaptured)
  · have hself : Binding.rename bindings symbol = symbol :=
      Binding.rename_of_not_captured fun other hother heq ↦ hsymbol ⟨other, hother, heq⟩
    exact hsymbol ⟨binding, hbinding, heq.symm.trans hself⟩

/-- The closed body mentions no captured symbol. -/
theorem unmentioned (hlinked : start.WellLinked) (hfunction : start.HasFunction function)
    {binding : Binding} (hbinding : binding ∈ bindings)
    (hcaptured : start.HasSymbol binding.capture.symbol) :
    ¬ final.MentionedIn function binding.capture.symbol := by
  intro hmentioned
  rcases h.mentioned_cases hlinked hfunction hmentioned with
    ⟨other, hother, -, hmade⟩ | ⟨old, -, heq⟩
  · exact (h.made _ (List.mem_flatMap_of_mem hother hmade)).1 hcaptured
  · exact h.rename_ne hbinding hcaptured old heq.symm

/-- What the body declares and does not capture, the closed body declares. -/
theorem declaresIn_of_start (hlinked : start.WellLinked) (hfunction : start.HasFunction function)
    {symbol : SymId} (hfree : ∀ binding ∈ bindings, binding.capture.symbol ≠ symbol)
    (hsymbol : start.DeclaresIn function symbol) : final.DeclaresIn function symbol := by
  have hhas := (hlinked.unfolds_walk (.root (hlinked.parent_body hfunction))
    (hlinked.has_body hfunction)).2.2
  obtain ⟨id, hid, hkind⟩ := declaresIn_iff.mp hsymbol
  obtain ⟨below, -, hstatements⟩ :=
    (hlinked.unfolds_functionStmts hfunction).1.of_singleton
  refine declaresIn_iff.mpr ⟨id, ?_, ?_⟩
  · rw [h.statements, hstatements, List.tail_cons]
    rw [hstatements] at hid
    simp only [List.mem_cons, List.mem_append] at hid ⊢
    tauto
  · obtain ⟨change, heq⟩ := h.kind_of_mem hid (hhas id hid)
    rw [heq, hkind, StmtKind.mapMembers_eq_action_iff]
    exact congrArg (StmtKind.action ∘ Action.define) (Binding.rename_of_not_captured hfree)

/-- A local that a capture is loaded into is declared by the closed body. -/
theorem declaresIn_inner {binding : Binding} (hbinding : binding ∈ bindings)
    (href : binding.capture.byReference = true) : final.DeclaresIn function binding.inner := by
  have haction : StmtKind.action (.define binding.inner) ∈ loads.map final.kind := by
    rw [h.loaded]
    exact List.mem_map_of_mem
      (List.mem_flatMap.mpr ⟨binding, hbinding, by simp [Binding.loads, href]⟩)
  obtain ⟨id, hid, hkind⟩ := List.mem_map.mp haction
  refine declaresIn_iff.mpr ⟨id, ?_, hkind⟩
  rw [h.statements]
  exact List.mem_cons_of_mem _ (List.mem_append_left _ (List.mem_append_left _ hid))

theorem formals_eq : (final.function function).formals =
    (start.function function).formals ++ bindings.map Binding.formal := by
  rw [h.definition, if_pos rfl]

section

variable (hlinked : start.WellLinked) (hfunction : start.HasFunction function)
variable (hexact : start.CapturesExactly function (bindings.map Binding.capture))
include hlinked hfunction hexact

omit h hlinked hfunction in
theorem mem_captures_iff {symbol : SymId} :
    (∃ binding ∈ bindings, binding.capture.symbol = symbol) ↔
      start.MentionedIn function symbol ∧ (start.symbol symbol).isLabel = false ∧
        ¬ start.DeclaresIn function symbol ∧ symbol ∉ (start.function function).formals := by
  rw [← hexact.mem]
  simp

/-- No statement of the closed body leaves it. -/
theorem not_leavesBody
    (hstays : ∀ id ∈ start.functionStmts function, ¬ start.LeavesBody function id) :
    ∀ id ∈ final.functionStmts function, ¬ final.LeavesBody function id := by
  intro id hid hleaves
  rcases h.kind_cases hlinked hfunction hid with
    ⟨binding, -, action, haction, hkind⟩ | ⟨hmem, change, hkind⟩
  · have hneither : (∀ value, action ≠ .ret value) ∧ ∀ label, action ≠ .goto label := by
      cases href : binding.capture.byReference with
      | false => simp [Binding.loads, Binding.stores, href] at haction
      | true =>
        simp only [Binding.loads, Binding.stores, href, if_true, List.cons_append,
          List.nil_append, List.mem_cons, List.not_mem_nil, or_false] at haction
        rcases haction with rfl | rfl | rfl <;> simp
    rcases hleaves with ⟨value, hret⟩ | ⟨label, hgoto, -⟩
    · exact hneither.1 value (StmtKind.action.inj (hkind.symm.trans hret))
    · exact hneither.2 label (StmtKind.action.inj (hkind.symm.trans hgoto))
  · rcases hleaves with ⟨value, hret⟩ | ⟨label, hgoto, hplaced⟩
    · rw [hkind, StmtKind.mapMembers_eq_action_iff] at hret
      refine hstays id hmem (.inl ?_)
      rcases hold : start.kind id with inner | _ | _
      · cases inner <;> simp_all [StmtKind.mapSymbols, Action.mapSymbols]
      · simp [hold, StmtKind.mapSymbols] at hret
      · simp [hold, StmtKind.mapSymbols] at hret
    · rw [hkind, StmtKind.mapMembers_eq_action_iff] at hgoto
      obtain ⟨old, hold, rfl⟩ : ∃ old, start.kind id = .action (.goto old) ∧
          label = Binding.rename bindings old := by
        rcases hold : start.kind id with inner | _ | _
        · cases inner <;> simp_all [StmtKind.mapSymbols, Action.mapSymbols]
        · simp [hold, StmtKind.mapSymbols] at hgoto
        · simp [hold, StmtKind.mapSymbols] at hgoto
      have hdeclares : start.DeclaresIn function old := by
        by_contra hnot
        exact hstays id hmem (.inr ⟨old, hold, hnot⟩)
      have hfree : ∀ binding ∈ bindings, binding.capture.symbol ≠ old := fun binding hbinding heq ↦
        ((mem_captures_iff hexact).mp ⟨binding, hbinding, heq⟩).2.2.1 hdeclares
      rw [Binding.rename_of_not_captured hfree] at hplaced
      exact hplaced (h.declaresIn_of_start hlinked hfunction hfree hdeclares)

/-- The closed body captures nothing. -/
theorem captures_eq_nil : final.captures function = [] := by
  have hnone : ∀ symbol, symbol ∉ (final.captures function).map Capture.symbol := by
    intro symbol hsymbol
    obtain ⟨hmentioned, hlabel, hdeclares, hformal⟩ :=
      (final.capturesExactly function).mem.mp hsymbol
    rw [h.formals_eq, List.mem_append, not_or] at hformal
    have hmade {binding : Binding} (hbinding : binding ∈ bindings)
        (hmem : symbol ∈ binding.made) : False := by
      have hnotFormal : symbol ≠ binding.formal := fun heq ↦
        hformal.2 (heq ▸ List.mem_map_of_mem hbinding)
      cases href : binding.capture.byReference with
      | false => simp_all [Binding.made]
      | true =>
        have heq : symbol = binding.inner := by simp_all [Binding.made]
        exact hdeclares (heq ▸ h.declaresIn_inner hbinding href)
    rcases h.mentioned_cases hlinked hfunction hmentioned with
      ⟨binding, hbinding, -, hmem⟩ | ⟨old, hold, rfl⟩
    · exact hmade hbinding hmem
    by_cases hcaptured : ∃ binding ∈ bindings, binding.capture.symbol = old
    · obtain ⟨binding, hbinding, rfl⟩ := hcaptured
      obtain ⟨other, hother, -, hrename⟩ := Binding.exists_rename_eq hbinding
      exact hmade hother (hrename ▸ (h.binds other hother).inner)
    · have hfree : ∀ binding ∈ bindings, binding.capture.symbol ≠ old :=
        fun binding hbinding heq ↦ hcaptured ⟨binding, hbinding, heq⟩
      rw [Binding.rename_of_not_captured hfree] at hlabel hdeclares hformal
      refine hcaptured ((mem_captures_iff hexact).mpr ⟨hold, ?_, ?_, hformal.1⟩)
      · by_contra hnot
        have hthere : start.HasSymbol old := by
          by_contra hout
          exact hnot (by rw [Symbol.isLabel, symbolKind_of_not_has hout]; rfl)
        rw [h.enlarges.isLabel hthere] at hlabel
        exact hnot hlabel
      · exact fun hstart ↦ hdeclares (h.declaresIn_of_start hlinked hfunction hfree hstart)
  have hnil := List.eq_nil_iff_forall_not_mem.mpr hnone
  exact List.map_eq_nil_iff.mp hnil

end

end ClosesBody

/-! ### The whole of it -/

theorem WellLinked.newScratch (h : program.WellLinked) : program.newScratch.2.WellLinked := by
  rw [Program.newScratch]
  exact h.newStmt .none nofun .nil

theorem has_newScratch : program.newScratch.2.Has id ↔ program.Has id ∨ id = program.nextStmt :=
  has_newStmt ..

theorem kind_newScratch (program : Program) (id : StmtId) : program.newScratch.2.kind id =
    if id = program.nextStmt then .plain [] else program.kind id :=
  kind_newStmt ..

theorem stmt_newScratch (hid : program.Has id) : program.newScratch.2.stmt id = program.stmt id :=
  stmt_newStmt_of_not_mem program .none hid nofun

theorem nextStmt_ne_nextStmt_newScratch (program : Program) :
    program.nextStmt ≠ program.newScratch.2.nextStmt :=
  fun heq ↦ program.newScratch.2.not_has_nextStmt (heq ▸ has_newScratch.mpr (.inr rfl))

/-- Two blocks to gather statements in have been made, and nothing has been bound. -/
theorem bound_newScratch (hlinked : start.WellLinked) :
    start.Bound function start.nextStmt start.newScratch.2.nextStmt []
      start.newScratch.2.newScratch.2 where
  closes := {
    linked := hlinked.newScratch.newScratch
    enlarges := .of_eq rfl rfl rfl
    functions := rfl
    definition := fun other ↦ by
      simp only [Progress.of, List.map_nil, List.append_nil]
      by_cases heq : other = function
      · rw [if_pos heq, heq]
        rfl
      · rw [if_neg heq]
        rfl
    has := fun hid ↦ has_newScratch.mpr (.inl (has_newScratch.mpr (.inl hid)))
    stmt := fun {id} hid ↦ by
      have hsame : (start.kind id).mapSymbols (Progress.of []).rename = start.kind id :=
        StmtKind.mapSymbols_id _
      rw [stmt_newScratch (has_newScratch.mpr (.inl hid)), stmt_newScratch hid, hsame, ite_self]
      rfl
    entry := {
      new := start.not_has_nextStmt
      members := ⟨[], by
        rw [kind_newScratch, if_neg (nextStmt_ne_nextStmt_newScratch start), kind_newScratch,
          if_pos rfl], rfl, by simp⟩ }
    exit := {
      new := fun hold ↦ start.newScratch.2.not_has_nextStmt (has_newScratch.mpr (.inl hold))
      members := ⟨[], by rw [kind_newScratch, if_pos rfl], rfl, by simp⟩ } }
  binds := nofun
  nodup := .nil
  made := nofun

end Program

section

variable {start program : Program} {function : FnId}

/-- A loop over steps that all give results gives one. -/
theorem exists_forM_eq_ok {Error State α : Type} {step : α → EStateM Error State PUnit}
    (hstep : ∀ item state, ∃ final, step item state = .ok ⟨⟩ final) (items : List α)
    (state : State) : ∃ final, items.forM step state = .ok ⟨⟩ final := by
  induction items generalizing state with
  | nil => exact ⟨state, rfl⟩
  | cons item rest ih =>
    obtain ⟨middle, hmiddle⟩ := hstep item state
    obtain ⟨final, hfinal⟩ := ih middle
    exact ⟨final, (bind_eq_of_eq_ok hmiddle).trans hfinal⟩

/-- Binding captures always succeeds. -/
theorem exists_bindCaptures (hlinked : start.WellLinked) (hfunction : start.HasFunction function)
    {captures : List Capture} (hsymbols : ∀ capture ∈ captures, start.HasSymbol capture.symbol ∧
      start.HasType (start.symbolType capture.symbol)) {entry exit : StmtId} (hapart : entry ≠ exit)
    {load store : Cursor} (hload : load.function = function) (hentry : load.block = entry)
    (hexit : store.block = exit) (h : start.Bound function entry exit [] program) :
    ∃ bindings bound, (captures.forM fun capture ↦
        (bindCapture load store (start.bodyOf function) capture : Pass Unit)) program =
          .ok ⟨⟩ bound ∧
      bindings.map Binding.capture = captures ∧ start.Bound function entry exit bindings bound := by
  have hensures :=
    Program.ensures_bindCaptures hlinked hfunction hapart hload hentry hexit hsymbols h
  obtain ⟨bound, hrun⟩ := exists_forM_eq_ok (fun capture program ↦ ⟨_, rfl⟩) captures program
  obtain ⟨-, bindings, hmap, hbound⟩ := hensures.of_eq_ok hrun
  exact ⟨bindings, bound, hrun, hmap, hbound⟩

theorem asPass_eq_ok {α : Type} {edit : Edit α} {value : α} {final : Program}
    (h : edit program = .ok value final) : edit.asPass program = .ok value final := by
  rw [Edit.asPass, h]

theorem asPass_eq_error {α : Type} {edit : Edit α} {error : EditError} {final : Program}
    (h : edit program = .error error final) :
    edit.asPass program = .error (.internal (.edit error) .none) final := by
  rw [Edit.asPass, h]

/-- A body that captures are told for is closed over them, unless it is no block and a capture is
passed by reference. -/
theorem closeBody_cases (hlinked : start.WellLinked) (hfunction : start.HasFunction function)
    (hstays : ∀ id ∈ start.functionStmts function, ¬ start.LeavesBody function id)
    (hsymbols : ∀ capture ∈ start.captures function, start.HasSymbol capture.symbol ∧
      start.HasType (start.symbolType capture.symbol)) :
    (∃ bindings loads stores final, bindings.map Binding.capture = start.captures function ∧
      closeBody function start = .ok (start.captures function) final ∧
      start.ClosesBody function bindings loads stores final) ∨
    (start.kind (start.bodyOf function)).isBlock = false ∧
      (∃ capture ∈ start.captures function, capture.byReference = true) ∧
      ∃ final, closeBody function start =
        .error (.internal (.edit (.notABlock (start.bodyOf function))) .none) final := by
  set body := start.bodyOf function
  set opened := start.newScratch.2.newScratch.2
  let load : Cursor := { function, block := start.nextStmt, span := start.span body }
  let store : Cursor := { function, block := start.newScratch.2.nextStmt, span := start.span body }
  obtain ⟨bindings, bound, hrun, hmap, hbound⟩ := exists_bindCaptures hlinked hfunction hsymbols
    (Program.nextStmt_ne_nextStmt_newScratch start) (rfl : load.function = function)
    (rfl : load.block = _) (rfl : store.block = _) (Program.bound_newScratch hlinked)
  have hclose : closeBody function start = (do
      Edit.asPass (Edit.spliceAtHead body start.nextStmt)
      Edit.asPass (Edit.spliceAtTail body start.newScratch.2.nextStmt)
      return start.captures function : Pass (List Capture)) bound :=
    (bind_eq_of_eq_ok (freeCaptures_eq_ok hstays)).trans (bind_eq_of_eq_ok hrun)
  obtain ⟨loads, hentry, hloads, -⟩ := hbound.closes.entry.members
  obtain ⟨stores, hexit, hstores, -⟩ := hbound.closes.exit.members
  have hbody : start.Has body := hlinked.has_body hfunction
  have hisBlock : (bound.kind body).isBlock = (start.kind body).isBlock := by
    have hmem : body ∈ start.functionStmts function :=
      (hlinked.unfolds_functionStmts hfunction).1.subset_of_roots (List.mem_singleton_self _)
    rw [Program.kind, hbound.closes.stmt hbody]
    simp only [if_pos hmem]
    exact StmtKind.isBlock_mapSymbols ..
  by_cases hblock : (start.kind body).isBlock = true ∨ loads = [] ∧ stores = []
  · obtain ⟨middle, final, hhead, htail, hfinal, hrelinks⟩ := Edit.exists_wrap hbound.closes.linked
      hentry hexit (Program.nextStmt_ne_nextStmt_newScratch start)
      (fun heq ↦ hbound.closes.entry.new (heq ▸ hbody))
      (fun heq ↦ hbound.closes.exit.new (heq ▸ hbody)) (hisBlock.symm ▸ hblock)
    refine .inl ⟨bindings, loads, stores, final, hmap, ?_,
      hbound.closesBody hentry hexit hrelinks hlinked hfunction hblock hfinal⟩
    rw [hclose, bind_eq_of_eq_ok (asPass_eq_ok hhead), bind_eq_of_eq_ok (asPass_eq_ok htail)]
    rfl
  · obtain ⟨hnot, hsome⟩ := not_or.mp hblock
    have hreference : ∃ binding ∈ bindings, binding.capture.byReference = true := by
      by_contra hnone
      obtain ⟨hnoLoads, hnoStores⟩ := Binding.gather_eq_nil_of_byValue fun binding hbinding href ↦
        hnone ⟨binding, hbinding, href⟩
      exact hsome ⟨by simpa [Progress.of, hnoLoads] using hloads,
        by simpa [Progress.of, hnoStores] using hstores⟩
    obtain ⟨binding, hbinding, href⟩ := hreference
    have hne : loads ≠ [] := by
      rintro rfl
      have hnone := List.flatMap_eq_nil_iff.mp (List.map_eq_nil_iff.mp hloads.symm) binding hbinding
      simp [Binding.loads, href] at hnone
    have hnotBlock : (start.kind body).isBlock = false := by simpa using hnot
    obtain ⟨final, hfailed⟩ := Edit.exists_failed_spliceAtHead hbound.closes.linked hentry hne
      (hisBlock.trans hnotBlock)
    refine .inr ⟨hnotBlock, ⟨binding.capture, hmap ▸ List.mem_map_of_mem hbinding, href⟩, final, ?_⟩
    rw [hclose, bind_eq_of_eq_error (asPass_eq_error hfailed)]

/-- Captures are exact, and closing a body over them leaves none. The search for captures fails if
and only if a statement leaves the body. Otherwise it tells every symbol that the body mentions and
that comes from outside, once, in the order of first mention, and whether the body may change it.
The body is then closed, unless it is no block and there is something to load: the new formals are
behind the old ones, the loads before the old statements and the stores behind them. It mentions no
captured symbol any more and captures nothing. -/
theorem captures_exactly_and_closes (program : Program) (function : FnId) :
    ((∃ error, freeCaptures function program = .error error program) ↔
      ∃ id ∈ program.functionStmts function, program.LeavesBody function id) ∧
    ((∀ id ∈ program.functionStmts function, ¬ program.LeavesBody function id) →
      ∃ captures, freeCaptures function program = .ok captures program ∧
        program.CapturesExactly function captures ∧
        (program.WellLinked → program.HasFunction function →
          (∀ capture ∈ captures, program.HasSymbol capture.symbol ∧
            program.HasType (program.symbolType capture.symbol)) →
          (∃ bindings loads stores final, bindings.map Binding.capture = captures ∧
            closeBody function program = .ok captures final ∧
            program.ClosesBody function bindings loads stores final ∧
            (∀ capture ∈ captures, ¬ final.MentionedIn function capture.symbol) ∧
            freeCaptures function final = .ok [] final) ∨
          (program.kind (program.bodyOf function)).isBlock = false ∧
            (∃ capture ∈ captures, capture.byReference = true) ∧
            ∃ final, closeBody function program =
              .error (.internal (.edit (.notABlock (program.bodyOf function))) .none) final)) := by
  refine ⟨freeCaptures_eq_error_iff, fun hstays ↦ ⟨program.captures function,
    freeCaptures_eq_ok hstays, program.capturesExactly function, ?_⟩⟩
  intro hlinked hfunction hsymbols
  have hexact := program.capturesExactly function
  refine (closeBody_cases hlinked hfunction hstays hsymbols).imp_left ?_
  rintro ⟨bindings, loads, stores, final, hmap, hrun, hcloses⟩
  rw [← hmap] at hexact
  refine ⟨bindings, loads, stores, final, hmap, hrun, hcloses, fun capture hcapture ↦ ?_, ?_⟩
  · obtain ⟨hsymbol, -⟩ := hsymbols capture hcapture
    rw [← hmap] at hcapture
    obtain ⟨binding, hbinding, rfl⟩ := List.mem_map.mp hcapture
    exact hcloses.unmentioned hlinked hfunction hbinding hsymbol
  · rw [freeCaptures_eq_ok (hcloses.not_leavesBody hlinked hfunction hexact hstays),
      hcloses.captures_eq_nil hlinked hfunction hexact]

end

/-- A function with a formal and a local, the body of which writes one symbol from outside and reads
another one. -/
def writesAndReads : Program where
  types := builtinTypes
  symbols := #[{ name := "x", kind := .arg, type := .int, owner := some ⟨0⟩ },
    { name := "a", kind := .var, type := .int, owner := some ⟨0⟩ },
    { name := "total", kind := .var, type := .int, owner := none },
    { name := "step", kind := .var, type := .int, owner := none }]
  statements := #[
    { kind := .plain [⟨1⟩, ⟨2⟩, ⟨3⟩], parent := none, span := .none, bodyOf := some ⟨0⟩ },
    { kind := .action (.define ⟨1⟩), parent := some ⟨0⟩, span := .none },
    { kind := .action (.assign ⟨2⟩ (.use (.sym ⟨0⟩))), parent := some ⟨0⟩, span := .none },
    { kind := .action (.assign ⟨1⟩ (.prim .add [.sym ⟨2⟩, .sym ⟨3⟩])), parent := some ⟨0⟩,
      span := .none }]
  functions := #[{ name := "body", retType := .void, formals := [⟨0⟩], body := ⟨0⟩ }]

theorem captures_and_closes_writesAndReads :
    freeCaptures ⟨0⟩ writesAndReads = .ok [⟨⟨2⟩, true⟩, ⟨⟨3⟩, false⟩] writesAndReads ∧
    ∃ bindings loads stores final,
      bindings.map Binding.capture = [⟨⟨2⟩, true⟩, ⟨⟨3⟩, false⟩] ∧
      closeBody ⟨0⟩ writesAndReads = .ok [⟨⟨2⟩, true⟩, ⟨⟨3⟩, false⟩] final ∧
      writesAndReads.ClosesBody ⟨0⟩ bindings loads stores final ∧
      freeCaptures ⟨0⟩ final = .ok [] final := by
  obtain ⟨hfails, hcloses⟩ := captures_exactly_and_closes writesAndReads ⟨0⟩
  have hruns :
      freeCaptures ⟨0⟩ writesAndReads = .ok [⟨⟨2⟩, true⟩, ⟨⟨3⟩, false⟩] writesAndReads := rfl
  have hstays : ∀ id ∈ writesAndReads.functionStmts ⟨0⟩, ¬ writesAndReads.LeavesBody ⟨0⟩ id := by
    intro id hid hleaves
    obtain ⟨error, herror⟩ := hfails.mpr ⟨id, hid, hleaves⟩
    rw [hruns] at herror
    cases herror
  obtain ⟨captures, hcaptures, -, hcloses⟩ := hcloses hstays
  rw [hruns] at hcaptures
  cases hcaptures
  have hsymbols : ∀ capture ∈ [(⟨⟨2⟩, true⟩ : Capture), ⟨⟨3⟩, false⟩],
      writesAndReads.HasSymbol capture.symbol ∧
        writesAndReads.HasType (writesAndReads.symbolType capture.symbol) := by
    simp [Program.HasSymbol, Program.HasType, writesAndReads, Program.symbolType, Program.symbol,
      builtinTypes, TypeId.int]
  rcases hcloses (by decide) (Nat.one_pos : 0 < 1) hsymbols with
    ⟨bindings, loads, stores, final, hmap, hrun, hclosed, -, hnone⟩ | ⟨hblock, -⟩
  · exact ⟨hruns, bindings, loads, stores, final, hmap, hrun, hclosed, hnone⟩
  · cases hblock

end IteratorLowering
