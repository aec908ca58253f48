import IteratorLowering.Proofs.Simulation.Rewriting

/-!
# Declarations that are made ahead

A machine may declare a variable before the machine that it is compared with does, as long as
nothing comes near the variable in between. To this end the floor is raised over all frames that are
there (`Machine.Like.raise`), the variable is declared on one side and waits
(`Machine.Like.declare_right`), the other side declares it in its own time and the two are alike
again (`Machine.Like.declare_left`), and at last the floor is lowered to where it was
(`Machine.Like.lower`).
-/

set_option autoImplicit false
set_option relaxedAutoImplicit false

namespace IteratorLowering

namespace Machine

variable {c : Correspondence} {pace : Pace} {early : List Early} {floor frame : Nat}
variable {objects : ObjId → ObjId → Prop} {machine machine' final final' : Machine}

theorem lt_size_of_origin? {depth : Nat} {origin : FnId × Option YieldTarget}
    (h : machine.origin? depth = some origin) : depth < machine.frames.size := by
  obtain ⟨held, hheld, -⟩ := Option.map_eq_some_iff.mp h
  exact (Array.getElem?_eq_some_iff.mp hheld).1

namespace Like

/-- All frames that are there may be taken to be below the floor. -/
theorem raise (h : machine.Like c pace early floor objects machine') :
    machine.Like c pace early machine.frames.size objects machine' :=
  { h with
    origin := fun depth ↦ by
      have horigin := h.origin depth
      cases hdepth : machine.origin? depth with
      | none =>
        rw [hdepth] at horigin
        rw [horigin.eq_none]
        exact .none
      | some origin =>
        have hlt := lt_size_of_origin? hdepth
        rw [hdepth] at horigin
        refine horigin.imp fun _ _ hsame ↦ ⟨hsame.function, hsame.yieldTo.imp fun _ _ htarget ↦ ?_⟩
        exact { htarget with above := fun hle ↦ absurd hlt (Nat.not_lt.mpr hle) }
    room := Nat.le_refl _
    waits := fun entry hentry ↦
      { h.waits entry hentry with
        below := (h.waits entry hentry).below.trans_le h.room
        held := (h.waits entry hentry).held } }

/-- The floor may be lowered to where it was, if the frames are those that were there. -/
theorem lower {floor' : Nat} {objects' : ObjId → ObjId → Prop}
    (hstart : machine.Like c pace early floor objects machine')
    (hframes : machine.SameFrames final) (h : final.Like c pace early floor' objects' final') :
    final.Like c pace early floor objects' final' :=
  { h with
    origin := fun depth ↦ by
      have horigin := h.origin depth
      have hbefore := hstart.origin depth
      rw [hframes.origin] at horigin ⊢
      revert horigin hbefore
      generalize machine.origin? depth = origin, machine'.origin? depth = origin',
        final'.origin? depth = origin''
      intro horigin hbefore
      cases horigin with
      | none => exact .none
      | @some origin origin'' hsame =>
        obtain ⟨function, target⟩ := origin
        obtain ⟨function'', target''⟩ := origin''
        obtain ⟨hfunction, htarget⟩ := hsame
        refine .some ⟨hfunction, ?_⟩
        cases htarget with
        | none => exact .none
        | some htarget =>
          cases hbefore with
          | @some _ origin' hbefore =>
            obtain ⟨function', target'⟩ := origin'
            obtain ⟨-, hbefore⟩ := hbefore
            cases hbefore with
            | some hbefore => exact .some { htarget with above := hbefore.above }
    room := hframes.size ▸ hstart.room
    waits := fun entry hentry ↦
      { h.waits entry hentry with
        below := (hstart.waits entry hentry).below
        held := (h.waits entry hentry).held } }

theorem fieldDefault_ne_obj (kind : TypeKind) (object : ObjId) :
    Eval.fieldDefault kind ≠ .obj object := by
  cases kind <;> simp [Eval.fieldDefault]

/-- The second machine makes what a variable starts with. -/
theorem exists_defaultValue_right (hc : c.Sound)
    (h : machine.Like c pace early floor objects machine')
    (hheaps : ∀ size size', pace.heaps size size') (symbol : SymId)
    (frame : Nat) :
    ∃ value final, Eval.defaultValue c.target (c.source.symbolType symbol) machine' =
        .ok value final ∧ final.frames = machine'.frames ∧
      machine.Like c pace early floor objects final ∧
      Early.Starts c ⟨frame, symbol, value⟩ ∧
      Early.Fresh c objects final.heap ⟨frame, symbol, value⟩ ∧
      ∀ entry ∈ early, ∀ object, entry.value = .obj object → value ≠ .obj object := by
  rw [Eval.defaultValue_eq, hc.type]
  by_cases haggregate : (c.source.type (c.source.symbolType symbol)).isAggregate = true
  · rw [if_pos haggregate]
    refine ⟨_, _, rfl, rfl, h.allocate_right (hheaps _ _), ?_, ?_, ?_⟩
    · rw [Early.Starts, if_pos haggregate]
      exact ⟨_, rfl⟩
    · rintro object hobject
      obtain rfl : _ = object := Value.obj.inj hobject
      refine ⟨Array.getElem?_push_size, fun other hother ↦ ?_⟩
      exact Nat.lt_irrefl _ (h.lt_size hother).2
    · intro entry hentry object hobject hvalue
      obtain ⟨hthere, -⟩ := (h.waits entry hentry).fresh object hobject
      obtain rfl : _ = object := Value.obj.inj hvalue
      exact Nat.lt_irrefl _ (Array.getElem?_eq_some_iff.mp hthere).1
  · rw [if_neg haggregate]
    refine ⟨_, _, rfl, rfl, h, ?_, fun object hobject ↦ absurd hobject (fieldDefault_ne_obj _ _),
      fun _ _ object _ ↦ fieldDefault_ne_obj _ object⟩
    rw [Early.Starts, if_neg haggregate]

/-- The second machine declares a variable ahead. -/
theorem declare_right (hc : c.Sound) (h : machine.Like c pace early floor objects machine')
    (hheaps : ∀ size size', pace.heaps size size') {symbol : SymId}
    (hunshared : ¬ c.shared symbol) (hopen : Open early frame symbol) (hframe : frame < floor) :
    ∃ value made, Eval.defaultValue c.target (c.source.symbolType symbol) machine' =
        .ok value made ∧
      machine.Like c pace (early ++ [⟨frame, symbol, value⟩]) floor objects
        (made.setLocal frame (c.rename symbol) value) := by
  obtain ⟨value, made, hrun, hframes, hlike, hstarts, hfresh, hapart⟩ :=
    h.exists_defaultValue_right hc hheaps symbol frame
  have hthere : frame < made.frames.size := by
    rw [hframes, h.size]
    exact hframe.trans_le h.room
  refine ⟨value, made, hrun, { hlike with
    size := by rw [size_setLocal, hlike.size]
    origin := fun depth ↦ by
      rw [origin?_setLocal]
      exact hlike.origin depth
    value := fun {depth other} hkept hopen' ↦ ?_
    waits := ?_
    apart := ?_
    shows := ⟨hlike.shows.output, hlike.shows.calls⟩ }⟩
  · rw [local?_setLocal, if_neg]
    · exact hlike.value hkept fun entry hentry ↦ hopen' entry (List.mem_append_left _ hentry)
    · rintro ⟨rfl, hsymbol, -⟩
      exact hopen' ⟨depth, symbol, value⟩ (List.mem_append_right _ (List.mem_singleton_self _)) rfl
        (hc.injective hsymbol).symm
  · refine List.forall_mem_append.mpr ⟨fun entry hentry ↦ ?_, fun entry hentry ↦ ?_⟩
    · have hwaits := hlike.waits entry hentry
      refine ⟨hwaits.below, hwaits.unshared, ?_, hwaits.starts, hwaits.fresh⟩
      rw [local?_setLocal, if_neg]
      · exact hwaits.held
      · rintro ⟨hdepth, hsymbol, -⟩
        exact hopen entry hentry hdepth (hc.injective hsymbol)
    · obtain rfl := List.mem_singleton.mp hentry
      exact ⟨hframe, hunshared, local?_setLocal_self hthere, hstarts, hfresh⟩
  · refine List.pairwise_append.mpr ⟨hlike.apart, List.pairwise_singleton _ _, ?_⟩
    intro entry hentry other hother object hobject
    rw [List.mem_singleton.mp hother]
    exact hapart entry hentry object hobject

/-- A variable waits no longer when the first machine sets it to a like value. -/
theorem settle {entry : Early} {later : List Early} {objects' : ObjId → ObjId → Prop}
    {heap : Array Object} {value : Value}
    (h : machine.Like c pace (early ++ entry :: later) floor objects machine')
    (hobjects : objects ≤ objects') (hone : Relator.BiUnique objects')
    (hheap : HeapsLike objects' c.names heap machine'.heap)
    (hheaps : ∀ size size', pace.heaps size size')
    (hfresh : ∀ other ∈ early ++ later, other.Fresh c objects' machine'.heap)
    (hvalue : Value.Like objects' c.names value entry.value) :
    (Machine.setLocal { machine with heap } entry.depth entry.symbol value).Like c pace
      (early ++ later) floor objects' machine' := by
  have hentry := h.waits entry (by simp)
  have hsub : (early ++ later).Sublist (early ++ entry :: later) :=
    (List.sublist_cons_self entry later).append_left early
  have hthere : entry.depth < machine.frames.size := hentry.below.trans_le h.room
  exact {
    oneToOne := hone
    heap := hheap
    number := fun _ ↦ hheaps _ _
    heaps := hheaps _ _
    size := by
      rw [size_setLocal]
      exact h.size
    origin := fun depth ↦ by
      rw [origin?_setLocal]
      exact h.origin depth
    value := fun {depth symbol} hkept hopen ↦ by
      rw [local?_setLocal]
      split
      · rename_i hboth
        obtain ⟨rfl, rfl, -⟩ := hboth
        rw [hentry.held]
        exact .some hvalue
      · rename_i hother
        refine (h.value hkept fun other hmem hdepth ↦ ?_).imp fun _ _ hsame ↦
          hsame.mono hobjects le_rfl
        rcases List.mem_append.mp hmem with hmem | hmem
        · exact hopen other (List.mem_append_left _ hmem) hdepth
        · rcases List.mem_cons.mp hmem with rfl | hmem
          · rintro rfl
            exact hother ⟨hdepth.symm, rfl, hthere⟩
          · exact hopen other (List.mem_append_right _ hmem) hdepth
    room := by
      rw [size_setLocal]
      exact h.room
    waits := fun other hmem ↦
      { h.waits other (hsub.subset hmem) with fresh := hfresh other hmem }
    apart := h.apart.sublist hsub
    shows := ⟨(h.shows.mono hobjects le_rfl).output, h.shows.calls⟩
    steps := h.steps }

theorem newObject_like {names : SymId → SymId → Prop} (program : Program) (id : TypeId) :
    Object.Like objects names (program.newObject id) (program.newObject id) where
  type := rfl
  field position := by
    simp only [Program.newObject, List.getElem?_toArray, List.getElem?_map]
    cases (program.type id).fields[position]? with
    | none => exact .none
    | some field => exact .some (Eval.fieldDefault_like _)

/-- The first machine declares a variable that waits for it. -/
theorem declare_left (hc : c.Sound)
    (hheaps : ∀ size size', pace.heaps size size')
    {entry : Early} {later : List Early}
    (h : machine.Like c pace (early ++ entry :: later) floor objects machine') :
    ∃ value made objects', Eval.defaultValue c.source (c.source.symbolType entry.symbol) machine =
        .ok value made ∧ made.frames = machine.frames ∧ objects ≤ objects' ∧
      (made.setLocal entry.depth entry.symbol value).Like c pace (early ++ later) floor objects'
        machine' := by
  have hentry := h.waits entry (by simp)
  have hsub : early ++ later ⊆ early ++ entry :: later :=
    ((List.sublist_cons_self entry later).append_left early).subset
  have hstarts := hentry.starts
  rw [Eval.defaultValue_eq]
  rw [Early.Starts] at hstarts
  split at hstarts
  · rename_i haggregate
    obtain ⟨object, hobject⟩ := hstarts
    obtain ⟨hthere, hnone⟩ := hentry.fresh object hobject
    rw [if_pos haggregate]
    have hone : Relator.BiUnique (link objects ⟨machine.heap.size⟩ object) :=
      biUnique_link h.oneToOne (fun other hother ↦ Nat.lt_irrefl _ (h.lt_size hother).1) hnone
    refine ⟨_, _, _, rfl, rfl, le_link, h.settle le_link hone ?_ hheaps ?_ ?_⟩
    · rintro other other' (hother | ⟨rfl, rfl⟩)
      · obtain ⟨held, held', hheld, hheld', hlike⟩ := h.heap hother
        have hlt := (h.lt_size hother).1
        refine ⟨held, held', ?_, hheld', hlike.mono le_link⟩
        rwa [Array.getElem?_push_lt hlt, ← Array.getElem?_eq_getElem hlt]
      · rw [Eval.newObject_eq hc] at hthere
        exact ⟨_, _, Array.getElem?_push_size, hthere, newObject_like _ _⟩
    · intro other hmem found hfound
      obtain ⟨hsame, hfree⟩ := (h.waits other (hsub hmem)).fresh found hfound
      refine ⟨hsame, ?_⟩
      rintro linked (hlinked | ⟨-, rfl⟩)
      · exact hfree linked hlinked
      · obtain ⟨-, hlater, hcross⟩ := List.pairwise_append.mp h.apart
        rcases List.mem_append.mp hmem with hmem | hmem
        · exact hcross other hmem entry List.mem_cons_self found hfound hobject
        · exact (List.pairwise_cons.mp hlater).1 other hmem found hobject hfound
    · rw [hobject]
      exact .obj link_self
  · rename_i haggregate
    rw [if_neg haggregate]
    refine ⟨_, _, objects, rfl, rfl, le_rfl, ?_⟩
    refine h.settle le_rfl h.oneToOne h.heap hheaps
      (fun other hmem ↦ (h.waits other (hsub hmem)).fresh) ?_
    rw [hstarts]
    exact Eval.fieldDefault_like _

end Like

end Machine

end IteratorLowering
