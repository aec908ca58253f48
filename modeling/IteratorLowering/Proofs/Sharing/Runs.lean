import IteratorLowering.Proofs.Sharing.Sites
import Mathlib.Data.Finset.Dedup
import Mathlib.Data.Finset.Card
import Mathlib.Data.List.Pairwise

/-!
# Sharing of generated functions

When loops are lowered with callbacks one after the other (`LoweredTo`), the lowering remembers one
function for every iterator and signature that it has met, and every site calls the one that was
remembered for its iterator and signature (`Remembers`). One more site keeps this
(`Remembers.step`): it adds its function, or none (`CallbackSite.Adds`), and since equivalence of
types is an equivalence relation, the first function that is found is the only one there is to find.
Hence two sites share a function if and only if they are over the same iterator and their loop
bodies take equivalent formals (`share_exactly`).

The slot that a site passes is that of its own wrapper right after the site was lowered
(`CallbackSite.Replaces`), and the wrapper stays in the slot while other loops are lowered. The call
itself may be moved by a loop around it that is lowered later.
-/

set_option autoImplicit false
set_option relaxedAutoImplicit false

namespace IteratorLowering

/-- Loops were lowered to sites, one after the other. -/
inductive LoweredTo : LoweringState → List CallbackSite → LoweringState → Prop
  | nil (state : LoweringState) : LoweredTo state [] state
  | cons {state middle final : LoweringState} {site : CallbackSite} {sites : List CallbackSite}
      (hrun : lowerWithCallback site.block state = .ok () middle)
      (hsite : site.Replaces state.program middle.program) (hrest : LoweredTo middle sites final) :
      LoweredTo state (site :: sites) final

/-- Whether two remembered functions differ, and were made for different iterators or signatures. -/
structure Program.TellsApart (program : Program) (first second : GeneratedIterator) : Prop where
  generated : first.generated ≠ second.generated
  purpose : ¬ (first.iterator = second.iterator ∧
    program.signature first.loopBody = program.signature second.loopBody)

instance (program : Program) : Std.Symm program.TellsApart where
  symm _ _ h := ⟨h.generated.symm, fun hsame ↦ h.purpose ⟨hsame.1.symm, hsame.2.symm⟩⟩

/-- Whether a remembered function is the one to call at a site. -/
structure Program.ServesSite (program : Program) (entry : GeneratedIterator) (site : CallbackSite) :
    Prop where
  iterator : entry.iterator = site.iterator
  callee : entry.generated = site.callee
  signature : program.signature entry.loopBody = program.signature site.loopBody

/-- Whether the functions that were made for a site are still there, and its wrapper in its slot. -/
structure Program.KeepsSite (program : Program) (site : CallbackSite) : Prop where
  slot : program.table.get? site.slot = some site.wrapper
  loopBody : program.HasFunction site.loopBody
  wrapper : program.HasFunction site.wrapper

/-- Whether a remembered function is still there, and was made for one of the sites. -/
structure Program.KeepsEntry (program start : Program) (sites : List CallbackSite)
    (entry : GeneratedIterator) : Prop where
  generated : program.HasFunction entry.generated
  loopBody : program.HasFunction entry.loopBody
  fresh : ¬ start.HasFunction entry.generated
  needed : ∃ site ∈ sites, site.iterator = entry.iterator ∧ site.loopBody = entry.loopBody

/-- Whether a lowering remembers exactly what the sites so far call. -/
structure Remembers (start : Program) (sites : List CallbackSite) (state : LoweringState) :
    Prop where
  linked : state.program.WellLinked
  typed : state.program.WellTyped
  apart : state.program.BundlesApart
  functions : ∀ {function}, start.HasFunction function → state.program.HasFunction function
  entries : ∀ entry ∈ state.context.generated, state.program.KeepsEntry start sites entry
  kept : ∀ site ∈ sites, state.program.KeepsSite site
  wrappers : (sites.map CallbackSite.wrapper).Nodup
  serves : ∀ site ∈ sites, ∃ entry ∈ state.context.generated, state.program.ServesSite entry site
  distinct : state.context.generated.Pairwise state.program.TellsApart
  count : state.context.summary.generatedFunctions = state.context.generated.length

/-! ### One more site -/

namespace CallbackSite

variable {site old : CallbackSite} {state final : LoweringState} {entry other : GeneratedIterator}

/-- What a site adds to the functions that are remembered: the function that it calls, unless that
one was remembered before. -/
structure Adds (site : CallbackSite) (state final : LoweringState)
    (added : List GeneratedIterator) : Prop where
  generated : final.context.generated = state.context.generated ++ added
  count : final.context.summary.generatedFunctions =
    state.context.summary.generatedFunctions + added.length
  distinct : added.Pairwise final.program.TellsApart
  apart : ∀ old ∈ state.context.generated, ∀ entry ∈ added, final.program.TellsApart old entry
  fresh : ∀ entry ∈ added, ¬ state.program.HasFunction entry.generated
  loopBody : ∀ entry ∈ added, entry.loopBody = site.loopBody
  serves : ∀ entry ∈ added, final.program.ServesSite entry site
  served : ∃ entry ∈ final.context.generated, final.program.ServesSite entry site

theorem Shares.exists_added (h : site.Shares state final)
    (hhas : ∀ entry ∈ state.context.generated, state.program.HasFunction entry.generated) :
    ∃ added, site.Adds state final added := by
  cases h with
  | found hentry hiterator hcallee hsignature hcontext =>
    exact ⟨[], {
      generated := by rw [hcontext, List.append_nil]
      count := by rw [hcontext, List.length_nil, Nat.add_zero]
      distinct := .nil
      apart := fun _ _ ↦ List.forall_mem_nil _
      fresh := List.forall_mem_nil _
      loopBody := List.forall_mem_nil _
      serves := List.forall_mem_nil _
      served := ⟨_, hcontext ▸ hentry, hiterator, hcallee, hsignature⟩ }⟩
  | made hnone hcallee hgenerated hcount =>
    refine ⟨_, {
      generated := hgenerated
      count := hcount
      distinct := List.pairwise_singleton _ _
      apart := fun old hold ↦ List.forall_mem_singleton.mpr ⟨fun heq ↦ ?_, hnone old hold⟩
      fresh := List.forall_mem_singleton.mpr hcallee
      loopBody := List.forall_mem_singleton.mpr rfl
      serves := List.forall_mem_singleton.mpr ⟨rfl, rfl, rfl⟩
      served := ⟨_, hgenerated ▸ List.mem_append_right _ (List.mem_singleton_self _),
        rfl, rfl, rfl⟩ }⟩
    have hthere := hhas old hold
    rw [heq] at hthere
    exact hcallee hthere

namespace Follows

theorem hasFunction (h : site.Follows state final) {function : FnId}
    (hfunction : state.program.HasFunction function) : final.program.HasFunction function :=
  (h.signature hfunction).1

theorem keepsSite_self (h : site.Follows state final) : final.program.KeepsSite site :=
  ⟨h.replaces.slot, h.replaces.loopBody.2, h.replaces.wrapper.2⟩

theorem keepsSite (h : site.Follows state final) (hold : state.program.KeepsSite old) :
    final.program.KeepsSite old :=
  ⟨h.slot hold.slot, h.hasFunction hold.loopBody, h.hasFunction hold.wrapper⟩

theorem keepsEntry (h : site.Follows state final) {start : Program} {sites : List CallbackSite}
    (hentry : state.program.KeepsEntry start sites entry) :
    final.program.KeepsEntry start (sites ++ [site]) entry where
  generated := h.hasFunction hentry.generated
  loopBody := h.hasFunction hentry.loopBody
  fresh := hentry.fresh
  needed := by
    obtain ⟨other, hother, hneeded⟩ := hentry.needed
    exact ⟨other, List.mem_append_left _ hother, hneeded⟩

theorem servesSite (h : site.Follows state final)
    (hentry : state.program.HasFunction entry.loopBody)
    (hold : state.program.HasFunction old.loopBody) (hserves : state.program.ServesSite entry old) :
    final.program.ServesSite entry old :=
  ⟨hserves.iterator, hserves.callee,
    (h.signature hentry).2.trans (hserves.signature.trans (h.signature hold).2.symm)⟩

theorem tellsApart (h : site.Follows state final)
    (hentry : state.program.HasFunction entry.loopBody)
    (hother : state.program.HasFunction other.loopBody)
    (happart : state.program.TellsApart entry other) : final.program.TellsApart entry other :=
  ⟨happart.generated, by
    rw [(h.signature hentry).2, (h.signature hother).2]
    exact happart.purpose⟩

end Follows

end CallbackSite

namespace Remembers

variable {start : Program} {sites : List CallbackSite} {state final : LoweringState}
variable {site : CallbackSite}

theorem of_fresh (hlinked : state.program.WellLinked) (htyped : state.program.WellTyped)
    (hapart : state.program.BundlesApart) (hfresh : state.context.generated = [])
    (hcount : state.context.summary.generatedFunctions = 0) :
    Remembers state.program [] state where
  linked := hlinked
  typed := htyped
  apart := hapart
  functions h := h
  entries := by simp [hfresh]
  kept := List.forall_mem_nil _
  wrappers := List.nodup_nil
  serves := List.forall_mem_nil _
  distinct := by simp [hfresh]
  count := by rw [hcount, hfresh, List.length_nil]

/-- One more site keeps what is remembered in order. -/
theorem step (h : Remembers start sites state) (hsite : site.Follows state final) :
    Remembers start (sites ++ [site]) final := by
  obtain ⟨added, hadds⟩ :=
    hsite.shares.exists_added fun entry hentry ↦ (h.entries entry hentry).generated
  have hbody {entry : GeneratedIterator} (hentry : entry ∈ state.context.generated) :=
    (h.entries entry hentry).loopBody
  refine {
    linked := hsite.linked
    typed := hsite.typed
    apart := hsite.apart
    functions := hsite.hasFunction ∘ h.functions
    entries := ?entries
    kept := List.forall_mem_append.mpr
      ⟨fun old hold ↦ hsite.keepsSite (h.kept old hold),
        List.forall_mem_singleton.mpr hsite.keepsSite_self⟩
    wrappers := ?wrappers
    serves := List.forall_mem_append.mpr ⟨?serves, List.forall_mem_singleton.mpr hadds.served⟩
    distinct := ?distinct
    count := by rw [hadds.count, h.count, hadds.generated, List.length_append] }
  case entries =>
    rw [hadds.generated]
    refine List.forall_mem_append.mpr
      ⟨fun entry hentry ↦ hsite.keepsEntry (h.entries entry hentry), fun entry hentry ↦ ?_⟩
    have hserves := hadds.serves entry hentry
    have hloopBody := hadds.loopBody entry hentry
    exact {
      generated := hserves.callee ▸ hsite.callee
      loopBody := hloopBody ▸ hsite.keepsSite_self.loopBody
      fresh := fun hold ↦ hadds.fresh entry hentry (h.functions hold)
      needed := ⟨site, List.mem_append_right _ (List.mem_singleton_self _),
        hserves.iterator.symm, hloopBody.symm⟩ }
  case wrappers =>
    rw [List.map_append, List.map_singleton, List.nodup_append_comm, List.singleton_append,
      List.nodup_cons]
    refine ⟨fun hmem ↦ ?_, h.wrappers⟩
    obtain ⟨old, hold, heq⟩ := List.mem_map.mp hmem
    exact hsite.replaces.wrapper.1 (heq ▸ (h.kept old hold).wrapper)
  case serves =>
    intro old hold
    obtain ⟨entry, hentry, hserves⟩ := h.serves old hold
    exact ⟨entry, hadds.generated ▸ List.mem_append_left _ hentry,
      hsite.servesSite (hbody hentry) (h.kept old hold).loopBody hserves⟩
  case distinct =>
    rw [hadds.generated]
    exact List.pairwise_append.mpr ⟨h.distinct.imp_of_mem fun hfirst hsecond ↦
      hsite.tellsApart (hbody hfirst) (hbody hsecond), hadds.distinct, hadds.apart⟩

/-- The run lemma: all sites of a run are kept in order. -/
theorem exists_sites (h : Remembers start sites state) {blocks : List StmtId}
    (hrun : blocks.forM lowerWithCallback state = .ok () final) :
    ∃ more : List CallbackSite, more.map CallbackSite.block = blocks ∧
      LoweredTo state more final ∧ Remembers start (sites ++ more) final := by
  induction blocks generalizing sites state with
  | nil =>
    cases hrun
    exact ⟨[], rfl, .nil _, (List.append_nil sites).symm ▸ h⟩
  | cons block rest ih =>
    obtain ⟨_, middle, hfirst, hrest⟩ := exists_of_bind_eq_ok hrun
    obtain ⟨site, rfl, hsite⟩ := exists_site h.linked h.typed h.apart
      (fun entry hentry ↦ ⟨(h.entries entry hentry).generated, (h.entries entry hentry).loopBody⟩)
      hfirst
    obtain ⟨more, rfl, hlowered, hremembers⟩ := ih (h.step hsite) hrest
    exact ⟨site :: more, rfl, .cons hfirst hsite.replaces hlowered, by simpa using hremembers⟩

/-- Remembered functions that are equal, or that were made for the same, are the same entry. -/
theorem entry_eq (h : Remembers start sites state) {first second : GeneratedIterator}
    (hfirst : first ∈ state.context.generated) (hsecond : second ∈ state.context.generated)
    (hsame : first.generated = second.generated ∨ (first.iterator = second.iterator ∧
      state.program.signature first.loopBody = state.program.signature second.loopBody)) :
    first = second := by
  by_contra hne
  have happart := h.distinct.forall hfirst hsecond hne
  exact hsame.elim happart.generated happart.purpose

/-- Sites call the same function if they are over the same iterator and their loop bodies have the
same signature. -/
theorem callee_eq_iff (h : Remembers start sites state) {first second : CallbackSite}
    (hfirst : first ∈ sites) (hsecond : second ∈ sites) :
    first.callee = second.callee ↔ first.iterator = second.iterator ∧
      state.program.signature first.loopBody = state.program.signature second.loopBody := by
  obtain ⟨entry, hentry, hserves⟩ := h.serves first hfirst
  obtain ⟨other, hother, hserves'⟩ := h.serves second hsecond
  rw [← hserves.callee, ← hserves'.callee, ← hserves.iterator, ← hserves'.iterator,
    ← hserves.signature, ← hserves'.signature]
  constructor
  · intro hcallee
    obtain rfl := h.entry_eq hentry hother (.inl hcallee)
    exact ⟨rfl, rfl⟩
  · intro hpurpose
    rw [h.entry_eq hentry hother (.inr hpurpose)]

/-- As many functions were made as there are iterators and signatures of loop bodies. -/
theorem card_eq (h : Remembers start sites state) :
    (sites.map fun site ↦ (site.iterator, state.program.signature site.loopBody)).toFinset.card =
      state.context.summary.generatedFunctions := by
  have hnodup : (state.context.generated.map fun entry ↦
      (entry.iterator, state.program.signature entry.loopBody)).Nodup :=
    List.pairwise_map.mpr (h.distinct.imp fun happart heq ↦ happart.purpose (Prod.ext_iff.mp heq))
  rw [h.count, ← List.length_map, ← List.toFinset_card_of_nodup hnodup]
  congr 1
  ext ⟨iterator, signature⟩
  simp only [List.mem_toFinset, List.mem_map, Prod.mk.injEq]
  constructor
  · rintro ⟨site, hsite, rfl, rfl⟩
    obtain ⟨entry, hentry, hserves⟩ := h.serves site hsite
    exact ⟨entry, hentry, hserves.iterator, hserves.signature⟩
  · rintro ⟨entry, hentry, rfl, rfl⟩
    obtain ⟨site, hsite, hiterator, hbody⟩ := (h.entries entry hentry).needed
    exact ⟨site, hsite, hiterator, by rw [hbody]⟩

end Remembers

/-! ### Sharing -/

/-- Whether sites of a run share the functions that were made by iterator and signature, and every
site has a wrapper of its own in the slot that it passes. -/
structure SharedBySignature (state : LoweringState) (sites : List CallbackSite)
    (final : LoweringState) : Prop where
  lowered : LoweredTo state sites final
  /-- Sites share a function if and only if they are over the same iterator and the formals of
  their loop bodies have equivalent types. -/
  callee_eq_iff : ∀ first ∈ sites, ∀ second ∈ sites, first.callee = second.callee ↔
    first.iterator = second.iterator ∧
      List.Forall₂ (fun type other ↦ final.program.equivalentTypes type other = true)
        (final.program.formalTypes first.loopBody) (final.program.formalTypes second.loopBody)
  /-- Signatures are the classes of lists of types that are equivalent place by place. -/
  signature_eq_iff : ∀ first second,
    final.program.signature first = final.program.signature second ↔
    List.Forall₂ (fun type other ↦ final.program.equivalentTypes type other = true)
      (final.program.formalTypes first) (final.program.formalTypes second)
  /-- As many functions are counted as there are pairs of an iterator and a signature. -/
  count : final.context.summary.generatedFunctions = (sites.map fun site ↦
    (site.iterator, final.program.signature site.loopBody)).toFinset.card
  slot : ∀ site ∈ sites, final.program.table.get? site.slot = some site.wrapper
  wrappers : (sites.map CallbackSite.wrapper).Nodup
  new : ∀ site ∈ sites, ¬ state.program.HasFunction site.callee

/-- Types are equivalent if they have the same class, and loops that are lowered one after the
other in a fresh context share the functions that are made if and only if they are over the same
iterator and their loop bodies have equivalent formals. -/
theorem share_exactly {state final : LoweringState} {blocks : List StmtId}
    (hlinked : state.program.WellLinked) (htyped : state.program.WellTyped)
    (hapart : state.program.BundlesApart) (hfresh : state.context.generated = [])
    (hcount : state.context.summary.generatedFunctions = 0)
    (hrun : blocks.forM lowerWithCallback state = .ok () final) :
    (Equivalence fun first second ↦ state.program.equivalentTypes first second = true) ∧
    (Equivalence fun first second ↦ final.program.equivalentTypes first second = true) ∧
    final.program.BundlesApart ∧
    ∃ sites : List CallbackSite, sites.map CallbackSite.block = blocks ∧
      SharedBySignature state sites final := by
  obtain ⟨sites, hblocks, hlowered, h⟩ :=
    (Remembers.of_fresh hlinked htyped hapart hfresh hcount).exists_sites hrun
  rw [List.nil_append] at h
  refine ⟨hapart.equivalence, h.apart.equivalence, h.apart, sites, hblocks, {
    lowered := hlowered
    callee_eq_iff := fun first hfirst second hsecond ↦ ?_
    signature_eq_iff := fun first second ↦ (Program.forall₂_equivalentTypes_iff h.apart).symm
    count := h.card_eq.symm
    slot := fun site hsite ↦ (h.kept site hsite).slot
    wrappers := h.wrappers
    new := fun site hsite ↦ ?_ }⟩
  · rw [h.callee_eq_iff hfirst hsecond, Program.forall₂_equivalentTypes_iff h.apart]
    rfl
  · obtain ⟨entry, hentry, hserves⟩ := h.serves site hsite
    exact hserves.callee ▸ (h.entries entry hentry).fresh

/-- What a lowering remembers, if it succeeds. -/
def Lowering.rememberedFrom (lowering : Lowering Unit) (state : LoweringState) :
    Option (List GeneratedIterator) :=
  match lowering state with
  | .ok _ final => some final.context.generated
  | .error .. => none

theorem Lowering.exists_of_rememberedFrom {lowering : Lowering Unit} {state : LoweringState}
    {generated : List GeneratedIterator} (h : lowering.rememberedFrom state = some generated) :
    ∃ final, lowering state = .ok () final ∧ final.context.generated = generated := by
  unfold Lowering.rememberedFrom at h
  rcases hresult : lowering state with ⟨_, final⟩ | _
  · rw [hresult] at h
    exact ⟨final, rfl, Option.some.inj h⟩
  · rw [hresult] at h
    cases h

/-- A function with three loops over a recursive iterator, one of which writes a local of the
function. -/
def threeLoops : Program where
  types := builtinTypes.push
    { name := "_ir_f", kind := .record, flags := { iteratorRecord := true },
      iteratorFn := some ⟨1⟩ }
  symbols := #[
    { name := "it", kind := .var, type := ⟨5⟩, owner := some ⟨0⟩ },
    { name := "i", kind := .var, type := .int, owner := some ⟨0⟩ },
    { name := "n", kind := .var, type := .int, owner := some ⟨0⟩ },
    { name := "inner", kind := .var, type := ⟨5⟩, owner := some ⟨1⟩ },
    { name := "y", kind := .var, type := .int, owner := some ⟨1⟩ }]
  statements := #[
    { kind := .plain [⟨1⟩, ⟨2⟩, ⟨3⟩, ⟨4⟩, ⟨5⟩, ⟨6⟩, ⟨7⟩], bodyOf := some ⟨0⟩, span := .none },
    { kind := .action (.define ⟨0⟩), parent := some ⟨0⟩, span := .none },
    { kind := .action (.define ⟨1⟩), parent := some ⟨0⟩, span := .none },
    { kind := .action (.define ⟨2⟩), parent := some ⟨0⟩, span := .none },
    { kind := .action (.assign ⟨0⟩ (.call ⟨1⟩ [])), parent := some ⟨0⟩, span := .none },
    { kind := .block (some (.forEach ⟨1⟩ ⟨0⟩)) [], parent := some ⟨0⟩, span := .none },
    { kind := .block (some (.forEach ⟨1⟩ ⟨0⟩)) [⟨8⟩], parent := some ⟨0⟩, span := .none },
    { kind := .block (some (.forEach ⟨1⟩ ⟨0⟩)) [], parent := some ⟨0⟩, span := .none },
    { kind := .action (.assign ⟨2⟩ (.use (.sym ⟨1⟩))), parent := some ⟨6⟩, span := .none },
    { kind := .plain [⟨10⟩, ⟨11⟩, ⟨12⟩, ⟨13⟩, ⟨14⟩], bodyOf := some ⟨1⟩, span := .none },
    { kind := .action (.yield (.int 1)), parent := some ⟨9⟩, span := .none },
    { kind := .action (.define ⟨3⟩), parent := some ⟨9⟩, span := .none },
    { kind := .action (.define ⟨4⟩), parent := some ⟨9⟩, span := .none },
    { kind := .action (.assign ⟨3⟩ (.call ⟨1⟩ [])), parent := some ⟨9⟩, span := .none },
    { kind := .block (some (.forEach ⟨4⟩ ⟨3⟩)) [⟨15⟩], parent := some ⟨9⟩, span := .none },
    { kind := .action (.yield (.sym ⟨4⟩)), parent := some ⟨14⟩, span := .none }]
  functions := #[{ name := "main", retType := .void, body := ⟨0⟩ }, {
    name := "f"
    retType := .int
    body := ⟨9⟩
    flags := { iterator := true }
    iteratorInfo := some ⟨⟨5⟩, ⟨5⟩, ⟨0⟩, ⟨0⟩, ⟨0⟩, ⟨0⟩, ⟨0⟩, ⟨0⟩, ⟨0⟩⟩ }]

/-- The first and the third loop share a function. -/
theorem share_threeLoops :
    threeLoops.WellLinked ∧ threeLoops.WellTyped ∧ threeLoops.BundlesApart ∧
      ∃ final sites,
        [⟨5⟩, ⟨6⟩, ⟨7⟩].forM lowerWithCallback { program := threeLoops, context := {} } =
          .ok () final ∧
        final.context.generated = [⟨⟨1⟩, ⟨4⟩, ⟨2⟩⟩, ⟨⟨1⟩, ⟨7⟩, ⟨5⟩⟩] ∧
        sites.map CallbackSite.block = [⟨5⟩, ⟨6⟩, ⟨7⟩] ∧
        SharedBySignature { program := threeLoops, context := {} } sites final := by
  have hlinked : threeLoops.WellLinked := by decide
  have htyped : threeLoops.WellTyped := by decide
  have hapart : threeLoops.BundlesApart := by decide
  obtain ⟨final, hrun, hgenerated⟩ := Lowering.exists_of_rememberedFrom
    (by decide +kernel : ([⟨5⟩, ⟨6⟩, ⟨7⟩].forM lowerWithCallback : Lowering Unit).rememberedFrom
      { program := threeLoops, context := {} } = some [⟨⟨1⟩, ⟨4⟩, ⟨2⟩⟩, ⟨⟨1⟩, ⟨7⟩, ⟨5⟩⟩])
  obtain ⟨-, -, -, sites, hblocks, hshared⟩ :=
    share_exactly hlinked htyped hapart rfl rfl hrun
  exact ⟨hlinked, htyped, hapart, final, sites, hrun, hgenerated, hblocks, hshared⟩

end IteratorLowering
