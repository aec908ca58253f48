import IteratorLowering.Program.Copy
import IteratorLowering.Program.Tree
import IteratorLowering.Proofs.Simulation.Rewriting

/-!
# What a copy of a tree is

Copying a tree leaves the old statements as they are and makes a new statement for each statement of
the tree. The new statements stand to each other as the old ones do, with symbols replaced
(`Program.CopiedAs`); read as trees they are the same up to the symbols (`CopiedAs.tree_eq`). The
proof follows the unfolding of the tree, and `CopiedAs.cons` is its step: a copied tree goes in
front of a row of copied trees.

A symbol that is declared in the tree gets a clone, unless the map sends it somewhere already
(`SymbolMap.Cloned`). Which symbols get a clone does not depend on the order in which they are
listed, only what the clones are called does.
-/

set_option autoImplicit false
set_option relaxedAutoImplicit false

namespace IteratorLowering

namespace StmtKind

variable {f : SymId → SymId} {image image' : StmtId → StmtId} {kind : StmtKind}

theorem mapStmts_congr (h : ∀ child ∈ kind.children, image child = image' child) :
    kind.mapStmts image = kind.mapStmts image' := by
  cases kind with
  | action inner => rfl
  | branch condition thenBlock elseBlock =>
    obtain ⟨hthen, helse⟩ := List.forall_mem_cons.mp h
    rw [mapStmts, mapStmts, hthen]
    cases elseBlock with
    | none => rfl
    | some elseBlock => rw [Option.map_some, Option.map_some, helse elseBlock (by simp)]
  | block info body => exact congrArg (StmtKind.block info) (List.map_congr_left h)

theorem children_mapStmts : (kind.mapStmts image).children = kind.children.map image := by
  cases kind with
  | action inner => rfl
  | branch condition thenBlock elseBlock => cases elseBlock <;> rfl
  | block info body => rfl

theorem mapSymbols_mapStmts :
    (kind.mapStmts image).mapSymbols f = (kind.mapSymbols f).mapStmts image := by
  cases kind <;> rfl

end StmtKind

namespace StmtTree

mutual

/-- Replace every symbol of the tree. -/
def mapSymbols (f : SymId → SymId) : StmtTree → StmtTree
  | .action span inner => .action span (inner.mapSymbols f)
  | .branch span condition thenTree elseTree =>
    .branch span (condition.mapSymbols f) (thenTree.mapSymbols f) (mapSymbolsOption f elseTree)
  | .block span info members =>
    .block span (info.map (BlockInfo.mapSymbols f)) (mapSymbolsAll f members)

/-- Replace every symbol of the trees. -/
def mapSymbolsAll (f : SymId → SymId) : List StmtTree → List StmtTree
  | [] => []
  | tree :: rest => tree.mapSymbols f :: mapSymbolsAll f rest

/-- Replace every symbol of the tree, if there is one. -/
def mapSymbolsOption (f : SymId → SymId) : Option StmtTree → Option StmtTree
  | none => none
  | some tree => some (tree.mapSymbols f)

end

theorem mapSymbolsAll_eq (f : SymId → SymId) (trees : List StmtTree) :
    mapSymbolsAll f trees = trees.map (mapSymbols f) := by
  induction trees with
  | nil => rfl
  | cons tree rest ih => rw [mapSymbolsAll, ih, List.map_cons]

end StmtTree

namespace Program

variable {program middle final : Program} {f : SymId → SymId} {image image' : StmtId → StmtId}
variable {roots ids : List StmtId}

/-- The listed statements of the first program have copies in the second, which is new otherwise
in nothing. -/
structure CopiedAs (program final : Program) (f : SymId → SymId) (image : StmtId → StmtId)
    (roots ids : List StmtId) : Prop where
  linked : final.WellLinked
  tables : final = { program with statements := final.statements }
  old : ∀ {id}, program.Has id → final.Has id ∧ final.stmt id = program.stmt id
  new : ∀ id ∈ ids, ¬ program.Has (image id) ∧ final.Has (image id)
  kind : ∀ id ∈ ids, final.kind (image id) = ((program.kind id).mapSymbols f).mapStmts image
  span : ∀ id ∈ ids, final.span (image id) = program.span id
  nodup : (roots.map image).Nodup
  detached : ∀ id ∈ roots, final.Detached (image id)

@[simp] theorem span_setParent (program : Program) (id other : StmtId) (parent : Option StmtId) :
    (program.setParent id parent).span other = program.span other := by
  simp only [Program.span, setParent, stmt_modifyStmt]
  split <;> rfl

theorem span_newStmt (program : Program) (kind : StmtKind) (span : Span) (other : StmtId) :
    (program.newStmt kind span).2.span other =
      if other = program.nextStmt then span else program.span other := by
  have hadopt : ∀ (children : List StmtId) (program : Program) (parent : Option StmtId),
      (program.adopt children parent).span other = program.span other := fun children ↦ by
    induction children with
    | nil => exact fun _ _ ↦ rfl
    | cons child rest ih => exact fun _ _ ↦ (ih _ _).trans (span_setParent ..)
  rw [newStmt_eq, hadopt, Program.span, stmt_pushStmt]
  split <;> rfl

namespace CopiedAs

theorem nil (h : program.WellLinked) (f : SymId → SymId) (image : StmtId → StmtId) :
    program.CopiedAs program f image [] [] where
  linked := h
  tables := rfl
  old h := ⟨h, rfl⟩
  new _ h := nomatch h
  kind _ h := nomatch h
  span _ h := nomatch h
  nodup := .nil
  detached _ h := nomatch h

/-- The copies may be named by another function that agrees on them. -/
theorem congr (h : program.CopiedAs final f image roots ids) (hroots : roots ⊆ ids)
    (hclosed : ∀ id ∈ ids, ∀ child ∈ (program.kind id).children, child ∈ ids)
    (hsame : ∀ id ∈ ids, image' id = image id) : program.CopiedAs final f image' roots ids where
  linked := h.linked
  tables := h.tables
  old := h.old
  new id hid := hsame id hid ▸ h.new id hid
  kind id hid := by
    rw [hsame id hid, h.kind id hid]
    refine StmtKind.mapStmts_congr fun child hchild ↦ (hsame child (hclosed id hid child ?_)).symm
    rwa [StmtKind.children_mapSymbols] at hchild
  span id hid := hsame id hid ▸ h.span id hid
  nodup := by
    rw [List.map_congr_left fun id hid ↦ hsame id (hroots hid)]
    exact h.nodup
  detached id hid := hsame id (hroots hid) ▸ h.detached id hid

/-- A statement is made over copies of its children. -/
theorem node {id : StmtId} {below : List StmtId}
    (hbelow : program.Unfolds (program.kind id).children below)
    (h : program.CopiedAs middle f image (program.kind id).children below)
    (himage : image id = middle.nextStmt) :
    program.CopiedAs (middle.newStmt (((program.kind id).mapSymbols f).mapStmts image)
      (program.span id)).2 f image [id] (id :: below) := by
  set kind := ((program.kind id).mapSymbols f).mapStmts image with hkind
  have hchildren : kind.children = (program.kind id).children.map image := by
    rw [hkind, StmtKind.children_mapStmts, StmtKind.children_mapSymbols]
  have hnew : ∀ child ∈ kind.children, ¬ program.Has child ∧ middle.Detached child := by
    rw [hchildren]
    intro child hchild
    obtain ⟨source, hsource, rfl⟩ := List.mem_map.mp hchild
    exact ⟨(h.new source (hbelow.subset_of_roots hsource)).1, h.detached source hsource⟩
  have hne : ∀ other ∈ below, image other ≠ middle.nextStmt := fun other hother heq ↦
    middle.not_has_nextStmt (heq ▸ (h.new other hother).2)
  refine ⟨h.linked.newStmt _ (fun child hchild ↦ (hnew child hchild).2) ?_, ?_,
    fun {other} hother ↦ ?_, List.forall_mem_cons.mpr ⟨?_, fun other hother ↦ ?_⟩,
    List.forall_mem_cons.mpr ⟨?_, fun other hother ↦ ?_⟩,
    List.forall_mem_cons.mpr ⟨?_, fun other hother ↦ ?_⟩, List.nodup_singleton _,
    fun other hother ↦ ?_⟩
  · rw [hchildren]
    exact h.nodup
  · obtain ⟨statements, hstatements⟩ := middle.newStmt_arenas kind (program.span id)
    rw [hstatements, h.tables]
  · obtain ⟨hmiddle, hsame⟩ := h.old hother
    refine ⟨(has_newStmt ..).mpr (.inl hmiddle), ?_⟩
    rw [stmt_newStmt_of_not_mem _ _ hmiddle fun hmem ↦ (hnew other hmem).1 hother, hsame]
  · rw [himage]
    exact ⟨fun hold ↦ middle.not_has_nextStmt (h.old hold).1, (has_newStmt ..).mpr (.inr rfl)⟩
  · exact ⟨(h.new other hother).1, (has_newStmt ..).mpr (.inl (h.new other hother).2)⟩
  · rw [kind_newStmt, if_pos himage]
  · rw [kind_newStmt, if_neg (hne other hother), h.kind other hother]
  · rw [span_newStmt, if_pos himage]
  · rw [span_newStmt, if_neg (hne other hother), h.span other hother]
  · rw [List.mem_singleton.mp hother, himage]
    exact WellLinked.detached_newStmt _ _ fun child hchild ↦ (hnew child hchild).2.has

/-- Copies are made one after the other. -/
theorem append {roots' ids' : List StmtId} (first : program.CopiedAs middle f image roots ids)
    (second : middle.CopiedAs final f image roots' ids') (hroots : roots ⊆ ids)
    (hroots' : roots' ⊆ ids') (hhas : ∀ id ∈ ids', program.Has id) :
    program.CopiedAs final f image (roots ++ roots') (ids ++ ids') := by
  refine ⟨second.linked, ?_, fun {id} hid ↦ ?_,
    List.forall_mem_append.mpr ⟨fun id hid ↦ ?_, fun id hid ↦ ?_⟩,
    List.forall_mem_append.mpr ⟨fun id hid ↦ ?_, fun id hid ↦ ?_⟩,
    List.forall_mem_append.mpr ⟨fun id hid ↦ ?_, fun id hid ↦ ?_⟩, ?_,
    List.forall_mem_append.mpr ⟨fun id hid ↦ ?_, second.detached⟩⟩
  · rw [second.tables, first.tables]
  · obtain ⟨hmiddle, hsame⟩ := first.old hid
    exact ⟨(second.old hmiddle).1, (second.old hmiddle).2.trans hsame⟩
  · exact ⟨(first.new id hid).1, (second.old (first.new id hid).2).1⟩
  · exact ⟨fun hold ↦ (second.new id hid).1 (first.old hold).1, (second.new id hid).2⟩
  · rw [Program.kind, (second.old (first.new id hid).2).2]
    exact first.kind id hid
  · rw [second.kind id hid, Program.kind, (first.old (hhas id hid)).2]
    rfl
  · rw [Program.span, (second.old (first.new id hid).2).2]
    exact first.span id hid
  · rw [second.span id hid, Program.span, (first.old (hhas id hid)).2]
    rfl
  · rw [List.map_append]
    refine List.nodup_append.mpr ⟨first.nodup, second.nodup, ?_⟩
    rintro _ hfirst _ hsecond rfl
    obtain ⟨id, hid, rfl⟩ := List.mem_map.mp hfirst
    obtain ⟨other, hother, heq⟩ := List.mem_map.mp hsecond
    exact (second.new other (hroots' hother)).1 (heq ▸ (first.new id (hroots hid)).2)
  · obtain ⟨hhas, hparent, howner⟩ := first.detached id hid
    obtain ⟨hfinal, hsame⟩ := second.old hhas
    exact ⟨hfinal, (congrArg Stmt.parent hsame).trans hparent,
      (congrArg Stmt.bodyOf hsame).trans howner⟩

end CopiedAs

/-! ### Making the copies -/

theorem Build.bind_run {α β : Type} (first : Build α) (next : α → Build β) (program : Program) :
    (first >>= next) program = next (first program).1 (first program).2 := rfl

theorem Build.get_run (program : Program) :
    (get : Build Program) program = (program, program) := rfl

/-- A statement is copied after its children. -/
theorem copyNode_succ {map : SymbolMap} {depth : Nat} {id : StmtId}
    (h : ((program.kind id).children.mapM (copyNode map depth) : Build (List StmtId)) program =
      ((program.kind id).children.map image, middle)) :
    copyNode map (depth + 1) id program =
      middle.newStmt (((program.kind id).mapSymbols map.resolve).mapStmts image)
        (program.span id) := by
  rw [← StmtKind.mapSymbols_mapStmts]
  generalize hkind : program.kind id = kind at h
  have hsource : (program.stmt id).kind = kind := hkind
  unfold copyNode
  simp only [Build.bind_run, Build.get_run, hsource]
  cases kind with
  | action inner =>
    cases h
    rfl
  | branch condition thenBlock elseBlock =>
    cases elseBlock with
    | none =>
      simp only [StmtKind.children, Option.toList, List.mapM_cons, List.mapM_nil] at h
      injection h with hcopies hmiddle
      injection hcopies with hthen
      change Program.newStmt _ (StmtKind.mapSymbols map.resolve
        (.branch condition (copyNode map depth thenBlock program).1 none)) _ = _
      rw [hthen, ← hmiddle]
      rfl
    | some elseBlock =>
      simp only [StmtKind.children, Option.toList, List.mapM_cons, List.mapM_nil] at h
      injection h with hcopies hmiddle
      injection hcopies with hthen hrest
      injection hrest with helse
      change Program.newStmt _ (StmtKind.mapSymbols map.resolve
        (.branch condition (copyNode map depth thenBlock program).1
          (some (copyNode map depth elseBlock (copyNode map depth thenBlock program).2).1))) _ = _
      rw [hthen, helse, ← hmiddle]
      rfl
  | block info body =>
    change Program.newStmt ((body.mapM (copyNode map depth) : Build (List StmtId)) program).2
      (StmtKind.mapSymbols map.resolve (.block info
        ((body.mapM (copyNode map depth) : Build (List StmtId)) program).1)) _ = _
    rw [show (body.mapM (copyNode map depth) : Build (List StmtId)) program = _ from h]
    rfl

/-- Copying the trees below some statements, one after the other. -/
theorem copyNodes_copied {map : SymbolMap} (hunfolds : program.Unfolds roots ids)
    (hlinked : program.WellLinked) (hnodup : ids.Nodup) (hhas : ∀ id ∈ ids, program.Has id)
    {depth : Nat} (hdepth : ids.length ≤ depth) :
    ∃ image final, (roots.mapM (copyNode map depth) : Build (List StmtId)) program =
      (roots.map image, final) ∧ program.CopiedAs final map.resolve image roots ids := by
  -- The row of trees is the same in every program that has the same statements there.
  suffices h : ∀ current : Program, current.WellLinked → (∀ id ∈ ids, current.Has id) →
      (∀ id ∈ ids, current.stmt id = program.stmt id) → ∃ image final,
        (roots.mapM (copyNode map depth) : Build (List StmtId)) current =
          (roots.map image, final) ∧ current.CopiedAs final map.resolve image roots ids from
    h program hlinked hhas fun _ _ ↦ rfl
  clear hlinked hhas
  induction hunfolds generalizing depth with
  | nil => exact fun current hlinked _ _ ↦ ⟨id, current, rfl, .nil hlinked _ _⟩
  | @cons root rest below after inside beside ihInside ihBeside =>
    intro current hlinked hhas hsame
    obtain ⟨depth, rfl⟩ : ∃ less, depth = less + 1 := ⟨depth - 1, by simp at hdepth; omega⟩
    simp only [List.length_cons, List.length_append] at hdepth
    obtain ⟨hself, hsame⟩ := List.forall_mem_cons.mp hsame
    obtain ⟨hsameInside, hsameBeside⟩ := List.forall_mem_append.mp hsame
    obtain ⟨hroot, hhas⟩ := List.forall_mem_cons.mp hhas
    obtain ⟨hhasInside, hhasBeside⟩ := List.forall_mem_append.mp hhas
    obtain ⟨hnotin, hnodup⟩ := List.nodup_cons.mp hnodup
    obtain ⟨hnodupInside, hnodupBeside, hapart⟩ := List.nodup_append.mp hnodup
    have hinside : current.Unfolds (current.kind root).children below := by
      rw [Program.kind, hself]
      exact inside.congr fun id hid ↦ by rw [Program.kind, hsameInside id hid, Program.kind]
    have hroom : below.length ≤ depth := by omega
    have hroom' : after.length ≤ depth + 1 := by omega
    obtain ⟨image, middle, hcopies, hbelow⟩ :=
      ihInside hnodupInside hroom current hlinked hhasInside hsameInside
    rw [show (program.kind root).children = (current.kind root).children by
      rw [Program.kind, Program.kind, hself]] at hcopies hbelow
    -- The copy of the root comes after the copies of what is below it.
    let withRoot : StmtId → StmtId := fun id ↦ if id ∈ below then image id else middle.nextStmt
    have hwithRoot : ∀ id ∈ below, withRoot id = image id := fun id hid ↦ if_pos hid
    have himage : withRoot root = middle.nextStmt :=
      if_neg fun hmem ↦ hnotin (List.mem_append_left _ hmem)
    rw [List.map_congr_left fun id hid ↦ (hwithRoot id (hinside.subset_of_roots hid)).symm]
      at hcopies
    have hnode := CopiedAs.node hinside (hbelow.congr hinside.subset_of_roots
      (fun id hid child hchild ↦ hinside.mem_of_child hid hchild) hwithRoot) himage
    obtain ⟨image', final, hcopies', hafter⟩ := ihBeside hnodupBeside hroom' _ hnode.linked
      (fun id hid ↦ (hnode.old (hhasBeside id hid)).1)
      fun id hid ↦ (hnode.old (hhasBeside id hid)).2.trans (hsameBeside id hid)
    -- The copies of the rest come after both.
    let joint : StmtId → StmtId := fun id ↦ if id ∈ root :: below then withRoot id else image' id
    have hjoint : ∀ id ∈ root :: below, joint id = withRoot id := fun id hid ↦ if_pos hid
    have hjoint' : ∀ id ∈ after, joint id = image' id := fun id hid ↦ if_neg fun hmem ↦ by
      rcases List.mem_cons.mp hmem with rfl | hmem
      · exact hnotin (List.mem_append_right _ hid)
      · exact hapart id hmem id hid rfl
    have hroot' : [root] ⊆ root :: below := by simp
    refine ⟨joint, final, ?_, (hnode.congr hroot' (fun id hid child hchild ↦ ?_) hjoint).append
      (hafter.congr beside.subset_of_roots (fun id hid child hchild ↦ ?_) hjoint') hroot'
      beside.subset_of_roots hhasBeside⟩
    · have hrest : rest.map joint = rest.map image' :=
        List.map_congr_left fun id hid ↦ hjoint' id (beside.subset_of_roots hid)
      rw [List.mapM_cons, Build.bind_run, copyNode_succ hcopies, Build.bind_run, hcopies',
        List.map_cons, hrest, hjoint root List.mem_cons_self, himage]
      rfl
    · exact (Unfolds.singleton hinside).mem_of_child hid hchild
    · rw [Program.kind, (hnode.old (hhasBeside id hid)).2, hsameBeside id hid] at hchild
      exact beside.mem_of_child hid hchild

/-- Copying one tree. -/
theorem copyNode_copied {map : SymbolMap} {root : StmtId} (hunfolds : program.Unfolds [root] ids)
    (hlinked : program.WellLinked) (hnodup : ids.Nodup) (hhas : ∀ id ∈ ids, program.Has id) :
    ∃ image final, copyNode map program.statements.size root program = (image root, final) ∧
      program.CopiedAs final map.resolve image [root] ids := by
  obtain ⟨image, final, hcopies, hcopied⟩ := copyNodes_copied hunfolds hlinked hnodup hhas
    (Unfolds.length_le_of_nodup hnodup hhas)
  refine ⟨image, final, ?_, hcopied⟩
  rw [List.mapM_cons, Build.bind_run] at hcopies
  injection hcopies with himages hfinal
  injection himages with himage
  exact Prod.ext himage hfinal

/-! ### Copies as trees -/

theorem treeTo_succ (program : Program) (depth : Nat) (id : StmtId) :
    program.treeTo (depth + 1) id =
      match program.kind id with
      | .action inner => .action (program.span id) inner
      | .branch condition thenBlock elseBlock =>
        .branch (program.span id) condition (program.treeTo depth thenBlock)
          (elseBlock.map (program.treeTo depth))
      | .block info body =>
        .block (program.span id) info (body.map (program.treeTo depth)) := rfl

/-- Statements that stand to each other like others, read as trees. -/
theorem Unfolds.treeTo_image (h : program.Unfolds roots ids)
    (hkind : ∀ id ∈ ids,
      final.kind (image id) = ((program.kind id).mapSymbols f).mapStmts image)
    (hspan : ∀ id ∈ ids, final.span (image id) = program.span id) {depth depth' : Nat}
    (hdepth : ids.length ≤ depth) (hdepth' : ids.length ≤ depth') :
    ∀ root ∈ roots, final.treeTo depth' (image root) =
      (program.treeTo depth root).mapSymbols f := by
  induction h generalizing depth depth' with
  | nil => exact nofun
  | @cons root rest below after inside beside ihInside ihBeside =>
    obtain ⟨hroot, hkind⟩ := List.forall_mem_cons.mp hkind
    obtain ⟨hroot', hspan⟩ := List.forall_mem_cons.mp hspan
    obtain ⟨hkindInside, hkindBeside⟩ := List.forall_mem_append.mp hkind
    obtain ⟨hspanInside, hspanBeside⟩ := List.forall_mem_append.mp hspan
    rw [List.length_cons, List.length_append] at hdepth hdepth'
    refine List.forall_mem_cons.mpr
      ⟨?_, ihBeside hkindBeside hspanBeside (by omega) (by omega)⟩
    obtain ⟨depth, rfl⟩ : ∃ less, depth = less + 1 := ⟨depth - 1, by omega⟩
    obtain ⟨depth', rfl⟩ : ∃ less, depth' = less + 1 := ⟨depth' - 1, by omega⟩
    have hchildren := ihInside hkindInside hspanInside
      (show below.length ≤ depth by omega) (show below.length ≤ depth' by omega)
    rw [treeTo_succ, treeTo_succ, hroot, hroot']
    revert hchildren
    generalize program.kind root = kind
    intro hchildren
    cases kind with
    | action inner => rfl
    | branch condition thenBlock elseBlock =>
      obtain ⟨hthen, helse⟩ := List.forall_mem_cons.mp hchildren
      simp only [StmtKind.mapSymbols, StmtKind.mapStmts, StmtTree.mapSymbols, hthen]
      cases elseBlock with
      | none => rfl
      | some elseBlock =>
        rw [Option.map_some, Option.map_some, Option.map_some, helse elseBlock (by simp)]
        rfl
    | block info body =>
      simp only [StmtKind.mapSymbols, StmtKind.mapStmts, StmtTree.mapSymbols,
        StmtTree.mapSymbolsAll_eq, List.map_map]
      exact congrArg (StmtTree.block _ _) (List.map_congr_left hchildren)

end Program

/-! ### Clones of symbols -/

namespace Program

variable {program : Program} {symbol other : SymId}

theorem not_hasSymbol_cloneSymbol : ¬ program.HasSymbol (program.cloneSymbol symbol).1 :=
  Nat.lt_irrefl _

theorem hasSymbol_cloneSymbol : (program.cloneSymbol symbol).2.HasSymbol
    (program.cloneSymbol symbol).1 := by
  simp [HasSymbol, cloneSymbol, addSymbol]

theorem symbol_cloneSymbol : (program.cloneSymbol symbol).2.symbol (program.cloneSymbol symbol).1 =
    { program.symbol symbol with owner := none } := by
  simp [Program.symbol, cloneSymbol, addSymbol]

theorem symbol_cloneSymbol_of_has (h : program.HasSymbol other) :
    (program.cloneSymbol symbol).2.HasSymbol other ∧
      (program.cloneSymbol symbol).2.symbol other = program.symbol other := by
  refine ⟨?_, ?_⟩
  · simp only [HasSymbol, cloneSymbol, addSymbol, Array.size_push] at h ⊢
    omega
  · simp only [Program.symbol, cloneSymbol, addSymbol, Array.getD_eq_getD_getElem?,
      Array.getElem?_push, if_neg (Nat.ne_of_lt h)]

end Program

namespace SymbolMap

/-- Whether a listed symbol is sent nowhere yet. -/
def Misses (map : SymbolMap) (listed : List SymId) (symbol : SymId) : Prop :=
  symbol ∈ listed ∧ map.find? symbol = none

/-- A map sends listed symbols that it missed to clones. Nothing else is new about the map and the
program. -/
structure Cloned (program final : Program) (map map' : SymbolMap) (listed : List SymId) : Prop where
  tables : final = { program with symbols := final.symbols }
  old : ∀ {symbol}, program.HasSymbol symbol →
    final.HasSymbol symbol ∧ final.symbol symbol = program.symbol symbol
  kept : ∀ {symbol}, ¬ map.Misses listed symbol → map'.find? symbol = map.find? symbol
  clone : ∀ {symbol}, map.Misses listed symbol → ∃ clone, map'.find? symbol = some clone ∧
    ¬ program.HasSymbol clone ∧ final.HasSymbol clone ∧
    final.symbol clone = { program.symbol symbol with owner := none }
  distinct : ∀ {symbol other}, map.Misses listed symbol → map.Misses listed other →
    map'.find? symbol = map'.find? other → symbol = other

variable {program final : Program} {map map' : SymbolMap} {listed : List SymId} {symbol : SymId}

namespace Cloned

theorem nil (program : Program) (map : SymbolMap) : Cloned program program map map [] where
  tables := rfl
  old h := ⟨h, rfl⟩
  kept _ := rfl
  clone h := nomatch h.1
  distinct h := nomatch h.1

/-- A symbol that is sent somewhere already gets no clone. -/
theorem skip (h : Cloned program final map map' listed) (hsymbol : map.find? symbol ≠ none) :
    Cloned program final map map' (symbol :: listed) := by
  have hmisses : ∀ {other}, map.Misses (symbol :: listed) other ↔ map.Misses listed other := by
    intro other
    refine ⟨fun ⟨hmem, hnone⟩ ↦ ⟨?_, hnone⟩,
      fun ⟨hmem, hnone⟩ ↦ ⟨List.mem_cons_of_mem _ hmem, hnone⟩⟩
    rcases List.mem_cons.mp hmem with rfl | hmem
    · exact absurd hnone hsymbol
    · exact hmem
  exact ⟨h.tables, h.old, fun hkept ↦ h.kept (mt hmisses.mpr hkept),
    fun hmiss ↦ h.clone (hmisses.mp hmiss),
    fun hmiss hmiss' ↦ h.distinct (hmisses.mp hmiss) (hmisses.mp hmiss')⟩

/-- A symbol that is sent nowhere gets a clone before the others. -/
theorem cons (hsymbol : map.find? symbol = none)
    (hknown : ∀ other ∈ listed, program.HasSymbol other)
    (h : Cloned (program.cloneSymbol symbol).2 final
      (map.insert symbol (program.cloneSymbol symbol).1) map' listed) :
    Cloned program final map map' (symbol :: listed) := by
  set clone := (program.cloneSymbol symbol).1
  set middle := (program.cloneSymbol symbol).2
  let wider : SymbolMap := map.insert symbol clone
  have hself : ¬ wider.Misses listed symbol := fun hmiss ↦ by
    have hnone := hmiss.2
    rw [FiniteMap.find?_insert_self] at hnone
    cases hnone
  have hother : ∀ {other}, other ≠ symbol →
      (wider.Misses listed other ↔ map.Misses (symbol :: listed) other) := by
    intro other hne
    rw [Misses, Misses, FiniteMap.find?_insert_of_ne _ hne, List.mem_cons, or_iff_right hne]
  have hsent : map'.find? symbol = some clone :=
    (h.kept hself).trans (FiniteMap.find?_insert_self ..)
  refine ⟨?_, fun hhas ↦ ?_, fun {other} hkept ↦ ?_, fun {other} hmiss ↦ ?_,
    fun {first second} hfirst hsecond heq ↦ ?_⟩
  · rw [h.tables]
    rfl
  · obtain ⟨hthere, hsame⟩ := (Program.symbol_cloneSymbol_of_has hhas :
      middle.HasSymbol _ ∧ middle.symbol _ = _)
    exact ⟨(h.old hthere).1, (h.old hthere).2.trans hsame⟩
  · have hne : other ≠ symbol := by
      rintro rfl
      exact hkept ⟨List.mem_cons_self, hsymbol⟩
    rw [h.kept (mt (hother hne).mp hkept), FiniteMap.find?_insert_of_ne _ hne]
  · by_cases hne : other = symbol
    · subst hne
      obtain ⟨hthere, hsame⟩ := h.old Program.hasSymbol_cloneSymbol
      exact ⟨clone, hsent, Program.not_hasSymbol_cloneSymbol, hthere,
        hsame.trans Program.symbol_cloneSymbol⟩
    · obtain ⟨found, hfound, hnot, hthere, hsame⟩ := h.clone ((hother hne).mpr hmiss)
      refine ⟨found, hfound, fun hhas ↦ hnot (Program.symbol_cloneSymbol_of_has hhas).1, hthere, ?_⟩
      have hhas := hknown other ((List.mem_cons.mp hmiss.1).resolve_left hne)
      rw [hsame, (Program.symbol_cloneSymbol_of_has hhas).2]
  · have hlater : ∀ {other}, map.Misses (symbol :: listed) other → other ≠ symbol →
        map'.find? other ≠ some clone := by
      intro other hmiss hne hsame
      obtain ⟨found, hfound, hnot, -⟩ := h.clone ((hother hne).mpr hmiss)
      exact hnot (Option.some.inj (hfound.symm.trans hsame) ▸ Program.hasSymbol_cloneSymbol)
    by_cases hone : first = symbol
    · by_contra hne
      exact hlater hsecond (fun h ↦ hne (hone.trans h.symm)) (by rw [← heq, hone, hsent])
    · by_cases htwo : second = symbol
      · exact absurd (by rw [heq, htwo, hsent]) (hlater hfirst hone)
      · exact h.distinct ((hother hone).mpr hfirst) ((hother htwo).mpr hsecond) heq

end Cloned

theorem cloned_cloneMissing (hknown : ∀ symbol ∈ listed, program.HasSymbol symbol) :
    Cloned program (map.cloneMissing listed program).2 map (map.cloneMissing listed program).1
      listed := by
  induction listed generalizing map program with
  | nil => exact .nil program map
  | cons symbol rest ih =>
    obtain ⟨hsymbol, hrest⟩ := List.forall_mem_cons.mp hknown
    unfold cloneMissing
    split
    · rename_i hcontains
      refine (ih hrest).skip fun hnone ↦ ?_
      rw [FiniteMap.contains, hnone] at hcontains
      cases hcontains
    · rename_i hcontains
      have hnone : map.find? symbol = none := by
        rwa [FiniteMap.contains, Option.not_isSome_iff_eq_none] at hcontains
      exact .cons hnone hrest (ih fun other hother ↦
        (Program.symbol_cloneSymbol_of_has (hrest other hother)).1)

end SymbolMap

/-! ### Copies -/

namespace Program

/-- Copy a tree like `copyTree`, with the clones made in the given order. -/
def copyTreeInOrder (order : List SymId) (root : StmtId) (map : SymbolMap) :
    Build (StmtId × SymbolMap) := do
  let program ← get
  let map ← map.cloneMissing order
  let copy ← copyNode map program.statements.size root
  return (copy, map)

/-- The second program has a copy of a tree of the first, and clones of the symbols that are
declared in the tree where the map missed them. It has nothing else that is new. -/
structure IsCopy (program final : Program) (root copy : StmtId) (map map' : SymbolMap) : Prop where
  linked : final.WellLinked
  detached : final.Detached copy
  tree : final.tree copy =
    (program.tree root).mapSymbols fun symbol ↦ (map'.find? symbol).getD symbol
  new : ∀ id ∈ final.walk copy, ¬ program.Has id
  tables : final =
    { program with statements := final.statements, symbols := final.symbols }
  statement : ∀ {id}, program.Has id → final.Has id ∧ final.stmt id = program.stmt id
  symbol : ∀ {symbol}, program.HasSymbol symbol →
    final.HasSymbol symbol ∧ final.symbol symbol = program.symbol symbol
  kept : ∀ {symbol}, ¬ map.Misses (program.definedSymbols root) symbol →
    map'.find? symbol = map.find? symbol
  clone : ∀ {symbol}, map.Misses (program.definedSymbols root) symbol →
    ∃ clone, map'.find? symbol = some clone ∧ ¬ program.HasSymbol clone ∧ final.HasSymbol clone ∧
      final.symbol clone = { program.symbol symbol with owner := none }
  distinct : ∀ {symbol other}, map.Misses (program.definedSymbols root) symbol →
    map.Misses (program.definedSymbols root) other → map'.find? symbol = map'.find? other →
      symbol = other

variable {program : Program} {root : StmtId} {depth : Nat} {order : List SymId}

/-- A tree is copied with the clones in the order in which the symbols are declared. -/
theorem copyTree_eq (root : StmtId) (map : SymbolMap) :
    copyTree root map program =
      copyTreeInOrder (program.definedSymbols root) root map program := by
  unfold copyTree copyTreeInOrder
  simp only [Build.bind_run, Build.get_run]

/-- Copying a tree, with the clones made in any order. -/
theorem copyTreeInOrder_copied (hlinked : program.WellLinked) (hdepth : program.AtDepth root depth)
    (hroot : program.Has root)
    (hknown : ∀ symbol ∈ program.definedSymbols root, program.HasSymbol symbol)
    (horder : order.Perm (program.definedSymbols root)) (map : SymbolMap) :
    ∃ image map' middle final, copyTreeInOrder order root map program =
        ((image root, map'), final) ∧
      SymbolMap.Cloned program middle map map' (program.definedSymbols root) ∧
      middle.CopiedAs final map'.resolve image [root] (program.walk root) := by
  have hcloned : SymbolMap.Cloned program _ map _ order :=
    SymbolMap.cloned_cloneMissing fun symbol hsymbol ↦ hknown symbol (horder.mem_iff.mp hsymbol)
  have hlisted : SymbolMap.Misses map order = SymbolMap.Misses map (program.definedSymbols root) :=
    funext fun symbol ↦ propext (and_congr_left' horder.mem_iff)
  obtain ⟨hunfolds, hnodup, hhas⟩ := hlinked.unfolds_walk hdepth hroot
  generalize hrun : map.cloneMissing order program = cloned at hcloned
  obtain ⟨map', middle⟩ := cloned
  -- The program with the clones has the same statements.
  have htables : middle = { program with symbols := middle.symbols } := hcloned.tables
  have hunfolds' : middle.Unfolds [root] (program.walk root) := by
    rw [htables]
    exact hunfolds.congr fun _ _ ↦ rfl
  have hlinked' : middle.WellLinked := by
    rw [htables]
    exact hlinked.congr (fun _ ↦ rfl) (fun _ ↦ rfl) (fun _ ↦ rfl) rfl
  have hhas' : ∀ id ∈ program.walk root, middle.Has id := by
    rw [htables]
    exact hhas
  have hsize : middle.statements.size = program.statements.size := by rw [htables]
  obtain ⟨image, final, hcopy, hcopied⟩ :=
    @copyNode_copied middle _ map' root hunfolds' hlinked' hnodup hhas'
  refine ⟨image, map', middle, final, ?_, ?_, hcopied⟩
  · unfold copyTreeInOrder
    simp only [Build.bind_run, Build.get_run, hrun, ← hsize, hcopy]
    rfl
  · exact ⟨hcloned.tables, hcloned.old, hlisted ▸ hcloned.kept, hlisted ▸ hcloned.clone,
      hlisted ▸ hcloned.distinct⟩

/-- Copies that are made after clones are copies of what was there before. -/
theorem CopiedAs.kind_image {middle final : Program} {map map' : SymbolMap}
    {image : StmtId → StmtId}
    {roots ids : List StmtId} {listed : List SymId}
    (hcloned : SymbolMap.Cloned program middle map map' listed)
    (hcopied : middle.CopiedAs final map'.resolve image roots ids) :
    ∀ id ∈ ids, final.kind (image id) =
      ((program.kind id).mapSymbols map'.resolve).mapStmts image := by
  have htables := hcloned.tables
  intro id hid
  rw [hcopied.kind id hid, htables]
  rfl

/-- What is made of a tree is its copy. -/
theorem CopiedAs.isCopy {middle final : Program} {map map' : SymbolMap} {image : StmtId → StmtId}
    (hlinked : program.WellLinked) (hdepth : program.AtDepth root depth) (hroot : program.Has root)
    (hcloned : SymbolMap.Cloned program middle map map' (program.definedSymbols root))
    (hcopied : middle.CopiedAs final map'.resolve image [root] (program.walk root)) :
    program.IsCopy final root (image root) map map' := by
  have htables := hcloned.tables
  obtain ⟨hunfolds, hnodup, hhas⟩ := hlinked.unfolds_walk hdepth hroot
  have hstmt : ∀ id, middle.stmt id = program.stmt id := fun id ↦ by
    rw [htables]
    rfl
  have hkind := CopiedAs.kind_image hcloned hcopied
  have hspan : ∀ id ∈ program.walk root, final.span (image id) = program.span id :=
    fun id hid ↦ by rw [hcopied.span id hid, Program.span, hstmt, Program.span]
  have hhasMiddle : ∀ {id}, middle.Has id ↔ program.Has id := fun {id} ↦ by
    rw [htables]
    exact Iff.rfl
  have hdetached := hcopied.detached root (List.mem_singleton_self root)
  have hcopies : final.Unfolds [image root] ((program.walk root).map image) :=
    hunfolds.map image fun id hid ↦ by
      rw [hkind id hid, StmtKind.children_mapStmts, StmtKind.children_mapSymbols]
  obtain ⟨hcopies', -⟩ := hcopied.linked.unfolds_walk (.root hdetached.parent) hdetached.has
  have hwalk := hcopies'.unique hcopies
  have hnew : ∀ id ∈ program.walk root, ¬ program.Has (image id) ∧ final.Has (image id) :=
    fun id hid ↦ ⟨mt hhasMiddle.mpr (hcopied.new id hid).1, (hcopied.new id hid).2⟩
  exact {
    linked := hcopied.linked
    detached := hdetached
    tree := by
      have hsize : (program.walk root).length ≤ program.statements.size :=
        Unfolds.length_le_of_nodup hnodup hhas
      refine hunfolds.treeTo_image hkind hspan hsize (hsize.trans ?_) root
        (List.mem_singleton_self root)
      exact size_le_of_has fun id hid ↦ (hcopied.old (hhasMiddle.mpr hid)).1
    new := by
      rw [hwalk]
      exact List.forall_mem_map.mpr fun id hid ↦ (hnew id hid).1
    tables := by rw [hcopied.tables, htables]
    statement := fun hid ↦ by
      obtain ⟨hfinal, hsame⟩ := hcopied.old (hhasMiddle.mpr hid)
      exact ⟨hfinal, hsame.trans (hstmt _)⟩
    symbol := fun {symbol} hsymbol ↦ by
      rw [hcopied.tables]
      exact hcloned.old hsymbol
    kept := hcloned.kept
    clone := fun hmiss ↦ by
      rw [hcopied.tables]
      exact hcloned.clone hmiss
    distinct := hcloned.distinct }

end Program

end IteratorLowering
