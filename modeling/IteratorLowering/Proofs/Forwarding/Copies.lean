import IteratorLowering.Proofs.DeadCode.Removal
import IteratorLowering.Proofs.Forest.Navigation
import IteratorLowering.Proofs.Forwarding.Runs

/-!
# Forwarding copies keeps what runs do

Where `forwardCopies` forwards a copy, the program that it makes reads the source of the copy behind
it and is the same otherwise (`Forwardable.forwards`). Runs of any function then give exactly what
they gave, results, traces, objects and numbers of steps (`Program.runsEqual_forwardCopies`).

The pass does not look at everything that this takes (`Program.KeepsCopies`). A declaration of the
target behind the copy sets it anew (`copyRedeclared`), and a jump over the copy gets
behind it without making it; the pass looks for neither. Nor does it ask whether another function
takes the address of a variable of this one.
-/

set_option autoImplicit false
set_option relaxedAutoImplicit false

namespace IteratorLowering

theorem StmtKind.copy?_eq_some {kind : StmtKind} {target source : SymId} :
    kind.copy? = some (target, source) ↔ kind = .action (.assign target (.use (.sym source))) := by
  unfold copy?
  split <;> simp_all

/-- What is behind a copy gets there by way of the copy, and does not declare its target again. -/
structure CopySite.Lasts (site : CopySite) (program : Program) (function : FnId) : Prop where
  declares : ∀ id ∈ program.functionStmts function, site.Behind program id →
    (program.kind id).defined? ≠ some site.target
  /-- No jump leads over the copy. -/
  passes : ∀ id ∈ program.functionStmts function,
    (∃ member ∈ site.before, program.Under id member) →
      ∀ label ∈ (program.kind id).gotoTarget?, ∀ other ∈ site.later,
        (program.kind other).defined? ≠ some label

instance (site : CopySite) (program : Program) (function : FnId) :
    Decidable (site.Lasts program function) :=
  decidable_of_iff (_ ∧ _) ⟨fun h ↦ ⟨h.1, h.2⟩, fun h ↦ ⟨h.declares, h.passes⟩⟩

namespace Program

/-- The place of a copy in its block. -/
def copySite? (program : Program) (copy : StmtId) : Option CopySite := do
  let (target, source) ← (program.kind copy).copy?
  let block ← program.parent copy
  let members := program.blockBody block
  let position ← members.idxOf? copy
  return ⟨block, members.take position, copy, members.drop (position + 1), target, source⟩

/-- Whether no statement outside of the function takes the address of the variable. -/
def AddressedIn (program : Program) (function : FnId) (symbol : SymId) : Prop :=
  ∀ index < program.statements.size, ⟨index⟩ ∉ program.functionStmts function →
    ∀ value ∈ (program.kind ⟨index⟩).expression?, value.address? ≠ some symbol

instance (program : Program) (function : FnId) (symbol : SymId) :
    Decidable (program.AddressedIn function symbol) :=
  inferInstanceAs (Decidable (∀ index < _, _ → ∀ value ∈ _, _))

/-- What forwarding copies takes for granted of a function. -/
structure KeepsCopies (program : Program) (function : FnId) : Prop where
  jumps : ∀ id ∈ program.functionStmts function, ∀ label ∈ (program.kind id).gotoTarget?,
    (program.symbol label).kind = .label
  formals : ∀ id ∈ program.functionStmts function, ∀ symbol ∈ (program.kind id).defined?,
    (program.symbol symbol).kind ≠ .arg
  alone : ∀ id ∈ program.functionStmts function, ∀ symbol ∈ (program.kind id).symbols,
    program.AddressedIn function symbol
  temps : ∀ copy ∈ program.functionStmts function, ∀ site ∈ program.copySite? copy,
    (program.symbol site.target).flags.temp = true → site.Lasts program function

instance (program : Program) (function : FnId) : Decidable (program.KeepsCopies function) :=
  decidable_of_iff (_ ∧ _ ∧ _ ∧ _) ⟨fun h ↦ ⟨h.1, h.2.1, h.2.2.1, h.2.2.2⟩,
    fun h ↦ ⟨h.jumps, h.formals, h.alone, h.temps⟩⟩

variable {program final : Program} {function : FnId} {statements readers : List StmtId}
variable {id copy : StmtId} {old new symbol target source : SymId}

/-! ### Replacing a symbol in statements -/

theorem replaceSymbolIn_arenas (statements : List StmtId) (old new : SymId) :
    ∃ arena, arena.size = program.statements.size ∧
      program.replaceSymbolIn statements old new = { program with statements := arena } :=
  foldl_mapSymbols_arenas _ _ program

theorem stmt_replaceSymbolIn (h : old ≠ new) (hid : program.Has id) :
    (program.replaceSymbolIn statements old new).stmt id = { program.stmt id with
      kind := if id ∈ statements then (program.kind id).mapSymbols (SymId.replace old new)
        else program.kind id } := by
  refine (stmt_foldl_mapSymbols (SymId.replace old new) statements hid).trans ?_
  by_cases hmem : id ∈ statements
  · obtain ⟨count, hcount⟩ := Nat.exists_add_one_eq.mpr (List.count_pos_iff.mpr hmem)
    rw [← hcount, SymId.iterate_replace h, if_pos hmem]
  · rw [List.count_eq_zero_of_not_mem hmem, Function.iterate_zero, StmtKind.mapSymbols_id,
      if_neg hmem]

theorem has_replaceSymbolIn : (program.replaceSymbolIn statements old new).Has id ↔
    program.Has id := by
  obtain ⟨arena, hsize, heq⟩ := @replaceSymbolIn_arenas program statements old new
  rw [Has, heq, hsize]
  rfl

theorem parent_replaceSymbolIn (h : old ≠ new) (id : StmtId) :
    (program.replaceSymbolIn statements old new).parent id = program.parent id := by
  by_cases hid : program.Has id
  · rw [parent, stmt_replaceSymbolIn h hid, parent]
  · rw [parent, stmt_of_not_has (has_replaceSymbolIn.not.mpr hid), parent, stmt_of_not_has hid]

theorem owner_replaceSymbolIn (h : old ≠ new) (id : StmtId) :
    ((program.replaceSymbolIn statements old new).stmt id).bodyOf = (program.stmt id).bodyOf := by
  by_cases hid : program.Has id
  · rw [stmt_replaceSymbolIn h hid]
  · rw [stmt_of_not_has (has_replaceSymbolIn.not.mpr hid), stmt_of_not_has hid]

theorem kind_replaceSymbolIn (h : old ≠ new) (hstatements : ∀ id ∈ statements, program.Has id)
    (id : StmtId) : (program.replaceSymbolIn statements old new).kind id =
      if id ∈ statements then (program.kind id).mapSymbols (SymId.replace old new)
      else program.kind id := by
  by_cases hid : program.Has id
  · rw [Program.kind, stmt_replaceSymbolIn h hid]
  · rw [Program.kind, stmt_of_not_has (has_replaceSymbolIn.not.mpr hid), Program.kind,
      stmt_of_not_has hid, if_neg fun hmem ↦ hid (hstatements id hmem)]

/-! ### What the pass has looked at -/

theorem mem_assignmentsOf : id ∈ (program.symbolUses function).assignmentsOf symbol ↔
    id ∈ program.functionStmts function ∧ (program.kind id).written? = some symbol := by
  simp [SymbolUses.assignmentsOf, symbolUses]

theorem mem_declarationsOf : id ∈ (program.symbolUses function).declarationsOf symbol ↔
    id ∈ program.functionStmts function ∧ (program.kind id).defined? = some symbol := by
  simp [SymbolUses.declarationsOf, symbolUses]

theorem mem_pinned (hid : id ∈ program.functionStmts function)
    (hsymbol : symbol ∈ (program.kind id).pinned) :
    symbol ∈ (program.symbolUses function).pinned :=
  List.mem_append_left _ (List.mem_flatMap.mpr ⟨id, hid, hsymbol⟩)

theorem copySite?_eq_some (hlinked : program.WellLinked) (hstands : program.Stands copy)
    {site : CopySite} :
    program.copySite? copy = some site ↔ site.copy = copy ∧ site.IsIn program := by
  constructor
  · intro h
    obtain ⟨⟨target, source⟩, hcopy, h⟩ := Option.bind_eq_some_iff.mp h
    obtain ⟨block, hparent, h⟩ := Option.bind_eq_some_iff.mp h
    obtain ⟨position, hposition, h⟩ := Option.bind_eq_some_iff.mp h
    obtain ⟨hlt, hget, -⟩ := List.idxOf?_eq_some_iff.mp hposition
    obtain rfl := Option.some.inj h
    obtain ⟨function, hfunction, hstands⟩ := hstands
    refine ⟨rfl, ⟨function, hfunction, hstands.under (.single hparent) hlinked⟩, ?_,
      StmtKind.copy?_eq_some.mp hcopy⟩
    let members := program.blockBody block
    calc members = members.take position ++ members.drop position :=
          (List.take_append_drop position members).symm
      _ = members.take position ++ copy :: members.drop (position + 1) := by
          rw [List.drop_eq_getElem_cons hlt, hget]
  · rintro ⟨rfl, h⟩
    have hparent := h.parent_member hlinked (List.mem_append_right _ List.mem_cons_self)
    have hnodup := h.members ▸ hlinked.nodup_blockBody site.block
    have hbefore : site.copy ∉ site.before := fun hmem ↦
      (List.nodup_append.mp hnodup).2.2 _ hmem _ List.mem_cons_self rfl
    have hposition : (site.before ++ site.copy :: site.later).idxOf? site.copy =
        some site.before.length := by
      rw [List.idxOf?_eq_some_iff]
      refine ⟨by simp, by simp, fun index hindex heq ↦ hbefore ?_⟩
      rw [← heq, List.getElem_append_left hindex]
      exact List.getElem_mem hindex
    simp [copySite?, StmtKind.copy?_eq_some.mpr h.copy, hparent, h.members, hposition]

/-- What a copy that can be forwarded is like. -/
structure Forwardable (program : Program) (uses : SymbolUses) (site : CopySite) : Prop where
  placed : site.IsIn program
  ne : site.target ≠ site.source
  target : (program.symbol site.target).kind = .var
  temp : (program.symbol site.target).flags.temp = true
  assigned : uses.assignmentsOf site.target = [site.copy]
  pinned : site.target ∉ uses.pinned ∧ site.source ∉ uses.pinned
  /-- The source is assigned in front of the copy, if it is, and not declared behind it. -/
  stable : (program.symbol site.source).kind ≠ .label ∧
    (∀ id ∈ uses.assignmentsOf site.source, id ∈ site.before) ∧
      ((program.symbol site.source).kind = .var →
        ∀ id ∈ uses.declarationsOf site.source, ¬ site.Behind program id)

/-- The pass forwards copies that it can forward, and all that mentions the target stands behind
them. -/
theorem exists_of_forwardingSites? (hlinked : program.WellLinked) {uses : SymbolUses}
    {body : StmtId} (hstands : program.Stands copy)
    (hcopy : (program.kind copy).copy? = some (target, source))
    (h : program.forwardingSites? uses body copy target source = some readers) :
    ∃ site : CopySite, (site.copy = copy ∧ site.target = target ∧ site.source = source) ∧
      program.Forwardable uses site ∧ readers = program.copyReaders body copy target ∧
        ∀ reader ∈ readers, site.Behind program reader := by
  obtain ⟨_, hforwardable, h⟩ := Option.bind_eq_some_iff.mp h
  obtain ⟨block, hparent, h⟩ := Option.bind_eq_some_iff.mp h
  obtain ⟨position, hposition, h⟩ := Option.bind_eq_some_iff.mp h
  obtain ⟨_, hreaders, h⟩ := Option.bind_eq_some_iff.mp h
  obtain ⟨_, hstable, h⟩ := Option.bind_eq_some_iff.mp h
  rw [Option.guard_eq_some'] at hforwardable hreaders hstable
  obtain rfl := Option.some.inj h
  let siblings := program.blockBody block
  let site : CopySite :=
    ⟨block, siblings.take position, copy, siblings.drop (position + 1), target, source⟩
  have hsite : program.copySite? copy = some site := by
    simp [copySite?, hcopy, hparent, hposition, site, siblings]
  obtain ⟨-, hplaced⟩ := (copySite?_eq_some hlinked hstands).mp hsite
  simp only [isForwardable, Bool.and_eq_true, bne_iff_ne, beq_iff_eq, Bool.not_eq_true',
    List.contains_eq_mem, decide_eq_false_iff_not] at hforwardable
  obtain ⟨⟨⟨⟨⟨⟨hne, hvar⟩, htemp⟩, -⟩, hassigned⟩, htarget⟩, hsource⟩ := hforwardable
  refine ⟨site, ⟨rfl, rfl, rfl⟩, ⟨hplaced, hne, hvar, htemp, hassigned, ⟨htarget, hsource⟩, ?_⟩,
    rfl, fun reader hreader ↦ ?_⟩
  · change (program.symbol source).kind ≠ .label ∧
      (∀ id ∈ uses.assignmentsOf source, id ∈ siblings.take position) ∧
        ((program.symbol source).kind = .var →
          ∀ id ∈ uses.declarationsOf source, ¬ site.Behind program id)
    unfold isStable at hstable
    split at hstable
    · rename_i hkind
      rw [List.isEmpty_iff.mp hstable, hkind]
      exact ⟨by decide, List.forall_mem_nil _, fun hvar ↦ absurd hvar (by decide)⟩
    · cases hstable
    · rename_i hkind
      split at hstable
      · rename_i assignment hassignment
        split at hstable
        · rename_i assigned hassigned
          obtain ⟨hlt', hget', -⟩ := List.idxOf?_eq_some_iff.mp hassigned
          rw [hassignment, hkind]
          refine ⟨by decide, fun id hid ↦ ?_, fun _ id hid hbehind ↦ ?_⟩
          · rw [List.mem_singleton.mp hid, ← hget']
            exact List.getElem_mem hlt'
          · obtain ⟨member, hmember, hunder⟩ := hbehind
            have hposition : assigned + 1 ≤ position + 1 := by
              rw [List.length_take] at hlt'
              omega
            have hredeclared :
                program.isRedeclared uses source (siblings.drop (assigned + 1)) = true :=
              List.any_eq_true.mpr ⟨id, hid, List.any_eq_true.mpr
                ⟨member, List.drop_subset_drop_left siblings hposition hmember,
                  isWithin_iff_under.mpr hunder⟩⟩
            rw [hredeclared] at hstable
            cases hstable
        · cases hstable
      · cases hstable
  · have hwithin := List.all_eq_true.mp hreaders reader hreader
    obtain ⟨member, hmember, hunder⟩ := List.any_eq_true.mp hwithin
    exact ⟨member, hmember, isWithin_iff_under.mp hunder⟩

theorem mem_copyReaders : id ∈ program.copyReaders (program.bodyOf function) copy target ↔
    (id ∈ program.functionStmts function ∧ target ∈ (program.kind id).symbols) ∧
      id ≠ copy ∧ (program.kind id).defined? = none := by
  simp [copyReaders, mem_statementsMentioning, functionStmts, StmtKind.mem_symbols]

namespace Forwardable

variable {site : CopySite} (h : program.Forwardable (program.symbolUses function) site)
variable (hlinked : program.WellLinked) (hfunction : program.HasFunction function)
variable (hcopy : site.copy ∈ program.functionStmts function)

include h hlinked hfunction hcopy

theorem mem_functionStmts (hid : site.Behind program id) : id ∈ program.functionStmts function := by
  obtain ⟨member, hmember, hunder⟩ := hid
  exact h.placed.mem_functionStmts hlinked hfunction hcopy
    (List.mem_append_right _ (List.mem_cons_of_mem _ hmember)) hunder

theorem lasts (hkeeps : program.KeepsCopies function) : site.Lasts program function := by
  have hstands := (hlinked.mem_functionStmts_iff hfunction).mp hcopy
  exact hkeeps.temps site.copy hcopy site
    ((copySite?_eq_some hlinked ⟨function, hfunction, hstands⟩).mpr ⟨rfl, h.placed⟩) h.temp

/-- Behind the copy its variables are only read. -/
theorem steady (hkeeps : program.KeepsCopies function) (hid : site.Behind program id) :
    ∀ symbol ∈ (program.kind id).fixed, ¬ site.Names symbol := by
  have hmem := h.mem_functionStmts hlinked hfunction hcopy hid
  intro symbol hsymbol hnames
  rcases List.mem_append.mp hsymbol with hnamed | hpinned
  · rcases StmtKind.mem_named?.mp (Option.mem_toList.mp hnamed) with hdefined | hjump | hwritten
    · rcases hnames with rfl | rfl
      · exact (h.lasts hlinked hfunction hcopy hkeeps).declares id hmem hid hdefined
      · have hstable := h.stable
        cases hkind : (program.symbol site.source).kind with
        | var => exact hstable.2.2 hkind id (mem_declarationsOf.mpr ⟨hmem, hdefined⟩) hid
        | arg => exact hkeeps.formals id hmem site.source hdefined hkind
        | label => exact hstable.1 hkind
    · have hlabel := hkeeps.jumps id hmem symbol hjump
      rcases hnames with rfl | rfl
      · rw [h.target] at hlabel
        cases hlabel
      · exact h.stable.1 hlabel
    · have hassigned := mem_assignmentsOf.mpr ⟨hmem, hwritten⟩
      rcases hnames with rfl | rfl
      · rw [h.assigned] at hassigned
        exact h.placed.not_behind_member hlinked (.inr (List.mem_singleton.mp hassigned)) hid
      · exact h.placed.not_behind_member hlinked (.inl (h.stable.2.1 id hassigned)) hid
  · have hpinned := mem_pinned hmem hpinned
    rcases hnames with rfl | rfl
    · exact h.pinned.1 hpinned
    · exact h.pinned.2 hpinned

omit hlinked hfunction in
theorem reserves (hkeeps : program.KeepsCopies function) : program.Reserves site.hidden := by
  intro id value hvalue symbol hsymbol hnames
  by_cases hmem : id ∈ program.functionStmts function
  · have hpinned := mem_pinned hmem
      (StmtKind.address?_subset hvalue (Option.mem_toList.mpr hsymbol))
    rcases hnames with rfl | rfl
    · exact h.pinned.1 hpinned
    · exact h.pinned.2 hpinned
  · have hhas : program.Has id := by
      by_contra hout
      rw [Program.kind, stmt_of_not_has hout] at hvalue
      cases hvalue
    refine hkeeps.alone site.copy hcopy symbol ?_ id.index hhas hmem value hvalue hsymbol
    rw [h.placed.copy]
    rcases hnames with rfl | rfl
    · exact List.mem_cons_self
    · exact List.mem_cons_of_mem _ (List.mem_singleton_self _)

/-- What the pass does not take for a reader does not mention the target behind the copy. -/
theorem kind_eq (hkeeps : program.KeepsCopies function)
    (hbehind : ∀ reader ∈ program.copyReaders (program.bodyOf function) site.copy site.target,
      site.Behind program reader) (id : StmtId) :
    (program.replaceSymbolIn (program.copyReaders (program.bodyOf function) site.copy site.target)
        site.target site.source).kind id =
      if site.Behind program id then (program.kind id).mapSymbols site.forward
      else program.kind id := by
  have hhas : ∀ reader ∈ program.copyReaders (program.bodyOf function) site.copy site.target,
      program.Has reader := fun reader hreader ↦
    ((hlinked.mem_functionStmts_iff hfunction).mp (mem_copyReaders.mp hreader).1.1).has
  rw [kind_replaceSymbolIn h.ne hhas]
  by_cases hreader : id ∈ program.copyReaders (program.bodyOf function) site.copy site.target
  · rw [if_pos hreader, if_pos (hbehind id hreader)]
    rfl
  rw [if_neg hreader]
  split
  · rename_i hid
    have hmentions : site.target ∉ (program.kind id).symbols := by
      intro hsymbol
      have hmem := h.mem_functionStmts hlinked hfunction hcopy hid
      have hne : id ≠ site.copy := fun heq ↦
        h.placed.not_behind_member hlinked (.inr heq) hid
      obtain ⟨symbol, hdefined⟩ := Option.ne_none_iff_exists'.mp fun hnone ↦
        hreader (mem_copyReaders.mpr ⟨⟨hmem, hsymbol⟩, hne, hnone⟩)
      rw [StmtKind.defined?_eq_some_iff.mp hdefined] at hsymbol
      rw [← List.mem_singleton.mp hsymbol] at hdefined
      exact (h.lasts hlinked hfunction hcopy hkeeps).declares id hmem hid hdefined
    refine ((StmtKind.mapSymbols_congr fun symbol hsymbol ↦ ?_).trans
      (StmtKind.mapSymbols_id _)).symm
    have hne : symbol ≠ site.target := fun heq ↦ hmentions (heq ▸ hsymbol)
    exact if_neg hne
  · rfl

theorem forwards (hkeeps : program.KeepsCopies function)
    (hbehind : ∀ reader ∈ program.copyReaders (program.bodyOf function) site.copy site.target,
      site.Behind program reader) :
    site.Forwards program (program.replaceSymbolIn
      (program.copyReaders (program.bodyOf function) site.copy site.target) site.target
        site.source) where
  toIsIn := h.placed
  same := by
    obtain ⟨arena, -, heq⟩ := @replaceSymbolIn_arenas program
      (program.copyReaders (program.bodyOf function) site.copy site.target) site.target site.source
    rw [heq]
  ne := h.ne
  kind := h.kind_eq hlinked hfunction hcopy hkeeps hbehind
  steady := h.steady hlinked hfunction hcopy hkeeps
  reserves := h.reserves hcopy hkeeps
  passes {member id label} hmember hunder hjump := by
    have hmem := h.placed.mem_functionStmts hlinked hfunction hcopy
      (List.mem_append_left _ hmember) hunder
    have hlasts := h.lasts hlinked hfunction hcopy hkeeps
    exact hlasts.passes id hmem ⟨member, hmember, hunder⟩ label hjump

end Forwardable

namespace Rereading

variable (h : program.Rereading final function)

include h

theorem blockBody (id : StmtId) : final.blockBody id = program.blockBody id := by
  obtain ⟨f, hrereads, -⟩ := h.rereads id
  exact blockBody_of_rereads hrereads

/-- The copy stood there before, though its source may have been another variable. -/
theorem exists_copySite? {site : CopySite} (hsite : final.copySite? copy = some site) :
    ∃ source, program.copySite? copy = some { site with source } := by
  obtain ⟨⟨target, source'⟩, hcopy, hsite⟩ := Option.bind_eq_some_iff.mp hsite
  obtain ⟨block, hparent, hsite⟩ := Option.bind_eq_some_iff.mp hsite
  obtain ⟨position, hposition, hsite⟩ := Option.bind_eq_some_iff.mp hsite
  obtain rfl := Option.some.inj hsite
  obtain ⟨f, hrereads, -⟩ := h.rereads copy
  obtain ⟨source, hkind⟩ := hrereads.exists_copy (StmtKind.copy?_eq_some.mp hcopy)
  rw [h.parent] at hparent
  rw [h.blockBody] at hposition
  refine ⟨source, ?_⟩
  simp [copySite?, StmtKind.copy?_eq_some.mpr hkind, hparent, hposition, h.blockBody]

theorem lasts {site : CopySite} (source : SymId)
    (hlasts : CopySite.Lasts { site with source } program function) :
    site.Lasts final function := by
  refine ⟨fun id hid hbehind ↦ ?_, fun id hid hbefore label hlabel other hother ↦ ?_⟩
  · rw [h.functionStmts] at hid
    rw [CopySite.Behind, h.under] at hbehind
    rw [h.defined?]
    exact hlasts.declares id hid hbehind
  · rw [h.functionStmts] at hid
    rw [h.under] at hbefore
    rw [h.gotoTarget?] at hlabel
    rw [h.defined?]
    exact hlasts.passes id hid hbefore label hlabel other hother

theorem keepsCopies (hkeeps : program.KeepsCopies function) : final.KeepsCopies function where
  jumps id hid label hlabel := by
    rw [h.functionStmts] at hid
    rw [h.gotoTarget?] at hlabel
    rw [symbol_of_same h.same]
    exact hkeeps.jumps id hid label hlabel
  formals id hid symbol hsymbol := by
    rw [h.functionStmts] at hid
    rw [h.defined?] at hsymbol
    rw [symbol_of_same h.same]
    exact hkeeps.formals id hid symbol hsymbol
  alone id hid symbol hmentioned index hindex hout value' hvalue' hsymbol := by
    rw [h.size] at hindex
    rw [h.functionStmts] at hid hout
    obtain ⟨f, hrereads, -⟩ := h.rereads ⟨index⟩
    obtain ⟨value, hvalue, -, haddress⟩ := hrereads.exists_expression? hvalue'
    obtain ⟨other, hother, hmentioned⟩ := h.mentioned hid hmentioned
    exact hkeeps.alone other hother symbol hmentioned index hindex hout value hvalue
      (haddress ▸ hsymbol)
  temps copy hcopy site hsite htemp := by
    obtain ⟨source, hsite⟩ := h.exists_copySite? hsite
    rw [h.functionStmts] at hcopy
    rw [symbol_of_same h.same] at htemp
    exact h.lasts source (hkeeps.temps copy hcopy _ hsite htemp)

end Rereading

/-! ### The pass -/

namespace Forwardable

variable {site : CopySite} (h : program.Forwardable (program.symbolUses function) site)
variable (hcopy : site.copy ∈ program.functionStmts function)

include h hcopy

/-- The copy is in the function, and mentions the source. -/
theorem rereading (hforwards : site.Forwards program (program.replaceSymbolIn readers site.target
      site.source)) :
    program.Rereading (program.replaceSymbolIn readers site.target site.source) function where
  same := hforwards.same
  size := by
    obtain ⟨arena, hsize, heq⟩ :=
      @replaceSymbolIn_arenas program readers site.target site.source
    rw [heq, hsize]
  parent := parent_replaceSymbolIn h.ne
  owner := owner_replaceSymbolIn h.ne
  rereads id := by
    obtain ⟨f, hrereads, hsource⟩ := hforwards.rereads id
    refine ⟨f, hrereads, fun symbol ↦ (hsource symbol).imp_right fun heq ↦ ⟨site.copy, hcopy, ?_⟩⟩
    rw [h.placed.copy, heq]
    exact List.mem_cons_of_mem _ (List.mem_singleton_self _)

end Forwardable

/-- Runs from the beginning give the same in both programs. -/
def RunsEqual (program final : Program) : Prop :=
  ∀ function, program.HasFunction function → ∀ args : List Value,
    (∀ arg ∈ args, arg.isScalar = true) → ∀ limits,
      Machine.new.run final limits function args = Machine.new.run program limits function args

theorem RunsEqual.refl (program : Program) : program.RunsEqual program := fun _ _ _ _ _ ↦ rfl

theorem runsEqual_of_forwards {site : CopySite} (hlinked : program.WellLinked)
    (hcalls : program.CallsKnown) (h : site.Forwards program final) : program.RunsEqual final := by
  intro function hfunction args hargs limits
  have hhides : Machine.new.Hides site.hidden := ⟨False.elim, False.elim, nofun, nofun⟩
  exact h.run_eq hlinked hcalls hhides hfunction fun arg harg ↦
    Value.avoids_of_isScalar (hargs arg harg)

theorem runsEqual_forwardCopy (hlinked : program.WellLinked) (hcalls : program.CallsKnown)
    (hfunction : program.HasFunction function) (hkeeps : program.KeepsCopies function)
    (hid : id ∈ program.functionStmts function) (count : Nat) :
    let result := forwardCopy (program.symbolUses function) (program.bodyOf function)
      (count, program) id
    program.Rereading result.2 function ∧ program.RunsEqual result.2 := by
  have hrefl : program.Rereading program function ∧ program.RunsEqual program :=
    ⟨.refl program function, .refl program⟩
  unfold forwardCopy
  dsimp only
  split
  · exact hrefl
  · rename_i target source hcopy
    split
    · exact hrefl
    · rename_i readers hreaders
      have hstands := (hlinked.mem_functionStmts_iff hfunction).mp hid
      obtain ⟨site, ⟨rfl, rfl, rfl⟩, hforwardable, rfl, hbehind⟩ :=
        exists_of_forwardingSites? hlinked ⟨function, hfunction, hstands⟩ hcopy hreaders
      have hforwards := hforwardable.forwards hlinked hfunction hid hkeeps hbehind
      exact ⟨hforwardable.rereading hid hforwards, runsEqual_of_forwards hlinked hcalls hforwards⟩

/-- Forwarding the copies of a function does not change what runs of any function give. -/
theorem runsEqual_forwardCopies (hlinked : program.WellLinked) (hcalls : program.CallsKnown)
    (hfunction : program.HasFunction function) (hkeeps : program.KeepsCopies function) :
    program.RunsEqual (program.forwardCopies function).2 := by
  -- Induction over the statements that are left, with the program as it has become kept general.
  have hfold (ids : List StmtId) (hids : ids ⊆ program.functionStmts function)
      (result : Nat × Program) (hreads : program.Rereading result.2 function)
      (hruns : program.RunsEqual result.2) :
      program.RunsEqual (ids.foldl
        (forwardCopy (program.symbolUses function) (program.bodyOf function)) result).2 := by
    induction ids generalizing result with
    | nil => exact hruns
    | cons id rest ih =>
      obtain ⟨hid, hrest⟩ := List.cons_subset.mp hids
      obtain ⟨count, now⟩ := result
      have hid : id ∈ now.functionStmts function := hreads.functionStmts function ▸ hid
      have hstep := runsEqual_forwardCopy (hreads.wellLinked hlinked) (hreads.callsKnown hcalls)
        ((hreads.hasFunction function).mpr hfunction) (hreads.keepsCopies hkeeps) hid count
      rw [hreads.symbolUses, hreads.bodyOf] at hstep
      refine ih hrest _ (hreads.trans hstep.1) fun other hother args hargs limits ↦ ?_
      exact (hstep.2 other ((hreads.hasFunction other).mpr hother) args hargs limits).trans
        (hruns other hother args hargs limits)
  exact hfold _ (List.Subset.refl _) (0, program) (.refl program function) (.refl program)

end Program

/-- A temporary that is set to a variable and returned. -/
def copyReturned : Program where
  types := builtinTypes
  symbols := #[{ name := "b", kind := .var, type := .int, owner := some ⟨0⟩ },
    { name := "a", kind := .var, type := .int, flags := { temp := true }, owner := some ⟨0⟩ }]
  statements := #[
    { kind := .plain [⟨1⟩, ⟨2⟩, ⟨3⟩, ⟨4⟩, ⟨5⟩], bodyOf := some ⟨0⟩, span := .none },
    { kind := .action (.define ⟨0⟩), parent := some ⟨0⟩, span := .none },
    { kind := .action (.assign ⟨0⟩ (.use (.int 5))), parent := some ⟨0⟩, span := .none },
    { kind := .action (.define ⟨1⟩), parent := some ⟨0⟩, span := .none },
    { kind := .action (.assign ⟨1⟩ (.use (.sym ⟨0⟩))), parent := some ⟨0⟩, span := .none },
    { kind := .action (.ret (.sym ⟨1⟩)), parent := some ⟨0⟩, span := .none }]
  functions := #[{ name := "main", retType := .int, body := ⟨0⟩ }]

theorem runsEqual_copyReturned :
    copyReturned.WellLinked ∧ copyReturned.CallsKnown ∧ copyReturned.HasFunction ⟨0⟩ ∧
      copyReturned.KeepsCopies ⟨0⟩ ∧ (copyReturned.forwardCopies ⟨0⟩).1 = 1 ∧
        copyReturned.RunsEqual (copyReturned.forwardCopies ⟨0⟩).2 := by
  have hlinked : copyReturned.WellLinked := by decide
  have hcalls : copyReturned.CallsKnown :=
    Program.callsKnown_of_forall (by decide) (by decide) (by decide)
  have hfunction : copyReturned.HasFunction ⟨0⟩ := Nat.zero_lt_one
  have hkeeps : copyReturned.KeepsCopies ⟨0⟩ := by decide +kernel
  exact ⟨hlinked, hcalls, hfunction, hkeeps, rfl,
    Program.runsEqual_forwardCopies hlinked hcalls hfunction hkeeps⟩

/-- The temporary is declared again before it is returned. -/
def copyRedeclared : Program := { copyReturned with
  statements := #[
    { kind := .plain [⟨1⟩, ⟨2⟩, ⟨3⟩, ⟨4⟩, ⟨5⟩, ⟨6⟩], bodyOf := some ⟨0⟩, span := .none },
    { kind := .action (.define ⟨0⟩), parent := some ⟨0⟩, span := .none },
    { kind := .action (.assign ⟨0⟩ (.use (.int 5))), parent := some ⟨0⟩, span := .none },
    { kind := .action (.define ⟨1⟩), parent := some ⟨0⟩, span := .none },
    { kind := .action (.assign ⟨1⟩ (.use (.sym ⟨0⟩))), parent := some ⟨0⟩, span := .none },
    { kind := .action (.define ⟨1⟩), parent := some ⟨0⟩, span := .none },
    { kind := .action (.ret (.sym ⟨1⟩)), parent := some ⟨0⟩, span := .none }] }

/-- Forwarding the copy makes the function return the number that the declaration took away. -/
example :
    let result (program : Program) :=
      match Machine.new.run program {} ⟨0⟩ [] with
      | .ok value _ => some value
      | .error .. => none
    result copyRedeclared = some (.int 0) ∧
      result (copyRedeclared.forwardCopies ⟨0⟩).2 = some (.int 5) := by
  decide +kernel

end IteratorLowering
