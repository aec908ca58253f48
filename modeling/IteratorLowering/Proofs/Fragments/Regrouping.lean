import IteratorLowering.Proofs.Fragments.Ahead
import IteratorLowering.Simplify.Confined
import Mathlib.Order.Filter.AtTopBot.Basic

/-!
# Runs of statements that are regrouped

A straight run of statements may be replaced by its declarations followed by one confined block of
its other statements (`Program.Regrouped`), if nothing in the run mentions a variable before it is
declared there. The block declares nothing, and the declarations are made ahead: they wait while
the statements before them run on both sides, and the two machines agree again once each has been
reached on the first side (`Eval.follows_members`).

The regrouped program takes one step more for every run, so it is given as many steps as it likes
(`Pace.ample`). `Program.regrouping_simulates` puts the pieces together: if every statement that
stands corresponds to itself up to regrouped runs, then runs correspond.
-/

set_option autoImplicit false
set_option relaxedAutoImplicit false

namespace IteratorLowering

/-! ### Any number of steps -/

/-- Limits that go as deep, and from some point on as far as one likes. -/
def Limits.beyond (limits : Limits) : Filter Limits :=
  Filter.comap Limits.maxSteps Filter.atTop ⊓
    Filter.principal {other | limits.maxDepth ≤ other.maxDepth}

theorem Limits.eventually_beyond {limits : Limits} {holds : Limits → Prop} :
    (∀ᶠ other in limits.beyond, holds other) ↔
      ∃ steps, ∀ other : Limits, steps ≤ other.maxSteps → limits.maxDepth ≤ other.maxDepth →
        holds other := by
  rw [beyond, Filter.eventually_inf_principal, Filter.eventually_comap, Filter.eventually_atTop]
  constructor
  · rintro ⟨steps, h⟩
    exact ⟨steps, fun other hsteps ↦ h _ hsteps other rfl⟩
  · rintro ⟨steps, h⟩
    exact ⟨steps, by rintro _ hle other rfl; exact h other hle⟩

/-- The second run may take as many steps as it likes and shares the failures that are the
program's own. -/
def Pace.ample (limits : Limits) : Pace where
  Index := Limits
  within := limits.beyond
  limits := limits
  limits' := id
  lasts _ lasting := ∀ least, ∀ᶠ other in limits.beyond, least ≤ lasting other
  steps _ _ := True
  heaps _ _ := True
  fails error := error.isOrdinary = true

variable {limits : Limits}

/-- What lasts as long as one likes does so after some rounds as well. -/
theorem Pace.ample_lasts {rounds rounds' : Nat} {lasting : Limits → Nat}
    (h : (Pace.ample limits).lasts rounds lasting) (taken : Nat) :
    ∃ lasting' : Limits → Nat, (Pace.ample limits).lasts rounds' lasting' ∧
      ∀ᶠ other in limits.beyond, lasting other = lasting' other + taken := by
  refine ⟨fun other ↦ lasting other - taken, fun least ↦ ?_, ?_⟩
  · exact (h (least + taken)).mono fun other hle ↦ Nat.le_sub_of_add_le hle
  · exact (h taken).mono fun other hle ↦ (Nat.sub_add_cancel hle).symm

theorem Pace.ample_fair (limits : Limits) : (Pace.ample limits).Fair where
  tick _ _ := Limits.eventually_beyond.mpr ⟨_, fun _ hsteps _ ↦ hsteps⟩
  steps _ := trivial
  heaps _ := trivial
  depth := Limits.eventually_beyond.mpr ⟨0, fun _ _ hdepth ↦ hdepth⟩
  lasts hlasts := Pace.ample_lasts hlasts 1
  exact hfails hordinary := by
    rw [show _ = true from hfails] at hordinary
    cases hordinary

/-! ### Regrouped runs -/

namespace Program

/-- Whether a statement declares or places a symbol. -/
def declares (program : Program) (id : StmtId) : Bool := (program.kind id).defined?.isSome

/-- The second list has the declarations of the first, and after them a confined block with its
other statements. -/
structure Regrouped (program final : Program) (hoisted : SymId → Prop) (ids ids' : List StmtId) :
    Prop where
  ne_nil : ids ≠ []
  stands : ∀ id ∈ ids, program.Stands id
  straight : ∀ id ∈ ids, program.isBoundary id = false
  kind : ∀ id ∈ ids, final.kind id = program.kind id
  hoisted : ∀ id ∈ ids, ∀ symbol ∈ (program.kind id).defined?, hoisted symbol
  ahead : ids.Pairwise fun id later ↦
    ∀ symbol ∈ (program.kind later).defined?, symbol ∉ (program.kind id).symbols
  fragment : ∃ fragment,
    final.kind fragment = .block (some .confined) (ids.filter (!program.declares ·)) ∧
      ids' = ids.filter program.declares ++ [fragment]

variable {program : Program} {id : StmtId}

/-- A statement that is no boundary is an action that hands on control. -/
theorem exists_action (h : program.isBoundary id = false) : ∃ inner,
    program.kind id = .action inner ∧ (∀ value, inner ≠ .yield value) ∧
      (∀ value, inner ≠ .ret value) ∧ (∀ label, inner ≠ .goto label) ∧
        ∀ symbol, inner = .define symbol → (program.symbol symbol).isLabel = false := by
  unfold isBoundary isEscape at h
  cases hkind : program.kind id with
  | action inner =>
    rw [hkind] at h
    refine ⟨inner, rfl, ?_, ?_, ?_, by rintro symbol rfl; exact h⟩
    all_goals
      rintro value rfl
      cases h
  | branch | block => simp [hkind] at h

/-- A declaration that is no boundary declares a variable. -/
theorem exists_define (h : program.isBoundary id = false) (hdeclares : program.declares id = true) :
    ∃ symbol, program.kind id = .action (.define symbol) ∧
      (program.symbol symbol).isLabel = false := by
  obtain ⟨inner, hkind, -, -, -, hlabel⟩ := exists_action h
  rw [declares, hkind] at hdeclares
  cases inner with
  | define symbol => exact ⟨symbol, hkind, hlabel symbol rfl⟩
  | _ => cases hdeclares

end Program

namespace Eval

variable {α β : Type} {c : Correspondence} {early : List Early} {floor frame : Nat}
variable {objects : ObjId → ObjId → Prop} {machine machine' start final : Machine}

/-- The floor may be lowered to where it was. -/
theorem Follows.lower {pace : Pace} {floor' : Nat} {kind : (ObjId → ObjId → Prop) → α → β → Prop}
    {first : Eval α} {second : pace.Index → Eval β}
    (hstart : machine.Like c pace early floor objects start)
    (h : Follows c pace early floor' objects machine machine' kind first second) :
    Follows c pace early floor objects machine machine' kind first second := by
  cases h with
  | done hfirst hsecond hreaches hkind =>
    exact .done hfirst hsecond
      ⟨hstart.lower hreaches.frames hreaches.like, hreaches.objects, hreaches.frames⟩ hkind
  | failed hfirst hsecond => exact .failed hfirst hsecond

/-- A list of straight statements hands on control. -/
theorem straight_runList {program : Program} {execute : StmtId → Eval Flow}
    {body ids : List StmtId} {rounds : Nat} (hstraight : ∀ id ∈ ids, Straight (execute id)) :
    Straight (runList program execute body rounds ids) := by
  induction ids generalizing rounds with
  | nil =>
    intro machine flow final hrun
    rw [runList_nil] at hrun
    cases hrun
    rfl
  | cons id ids ih =>
    intro machine flow final hrun
    cases rounds with
    | zero => cases hrun
    | succ rounds =>
      obtain ⟨handed, middle, hfirst, hrest⟩ := exists_of_bind_eq_ok hrun
      obtain rfl := hstraight id List.mem_cons_self _ _ _ hfirst
      exact ih (fun other hother ↦ hstraight other (List.mem_cons_of_mem _ hother)) _ _ _ hrest

/-- A statement that is no boundary is straight in every program that has it so. -/
theorem straight_of_not_isBoundary {program final : Program} {fuel : Nat} {id : StmtId}
    (h : program.isBoundary id = false) (hkind : final.kind id = program.kind id) :
    Straight (execute final limits fuel frame id) := by
  obtain ⟨inner, haction, hyield, hret, hgoto, -⟩ := Program.exists_action h
  exact straight_execute (hkind.trans haction) hyield hret hgoto

/-- A confined block of straight statements is straight. -/
theorem straight_confined {program : Program} {fuel : Nat} {id : StmtId} {body : List StmtId}
    (hkind : program.kind id = .block (some .confined) body)
    (hstraight : ∀ fuel, ∀ other ∈ body, Straight (execute program limits fuel frame other)) :
    Straight (execute program limits fuel frame id) := by
  intro machine flow final hrun
  cases fuel with
  | zero => cases hrun
  | succ fuel =>
    obtain ⟨⟨⟩, ticked, -, hrun⟩ := exists_of_bind_eq_ok hrun
    rw [statement_of_plain hkind rfl] at hrun
    exact straight_runList (hstraight fuel) _ _ _ hrun

/-! ### Declarations ahead -/

/-- A statement takes a step first, if there is one left. -/
theorem execute_succ {program : Program} {fuel : Nat} (id : StmtId)
    (hsteps : machine.steps + 1 ≤ limits.maxSteps) :
    execute program limits (fuel + 1) frame id machine =
      statement program limits (execute program limits fuel) fuel frame id
        { machine with steps := machine.steps + 1 } :=
  bind_of_ok ((tick_eq limits machine).trans (if_neg (Nat.not_lt.mpr hsteps)))

/-- A declaration takes a step and sets its variable to what it starts with. -/
theorem execute_define {program : Program} {fuel : Nat} {id : StmtId} {symbol : SymId}
    (hkind : program.kind id = .action (.define symbol))
    (hlabel : (program.symbol symbol).isLabel = false)
    (hsteps : machine.steps + 1 ≤ limits.maxSteps) {value : Value} {made : Machine}
    (hmade : defaultValue program (program.symbolType symbol)
      { machine with steps := machine.steps + 1 } = .ok value made) :
    execute program limits (fuel + 1) frame id machine =
      .ok .normal (made.setLocal frame symbol value) := by
  rw [execute_succ id hsteps, statement, hkind]
  simp only [action, hlabel, Bool.false_eq_true, if_false]
  rw [bind_of_ok hmade]
  rfl

/-- A confined block of straight statements takes a step and runs one after the other. -/
theorem execute_confined {program : Program} {fuel : Nat} {id : StmtId} {body : List StmtId}
    (hkind : program.kind id = .block (some .confined) body)
    (hstraight : ∀ other ∈ body, Straight (execute program limits fuel frame other))
    (hrounds : body.length ≤ fuel) (hsteps : machine.steps + 1 ≤ limits.maxSteps) :
    runAll (execute program limits (fuel + 1) frame) [id] machine =
      runAll (execute program limits fuel frame) body
        { machine with steps := machine.steps + 1 } := by
  have hfirst := @execute_succ limits frame machine program fuel id hsteps
  have hlist := @runList_append { machine with steps := machine.steps + 1 } program
    (execute program limits fuel frame) body body [] (fuel - body.length) hstraight
  rw [Nat.sub_add_cancel hrounds, List.append_nil, runList_nil] at hlist
  rw [statement_of_plain hkind rfl] at hfirst
  rw [runAll]
  cases hbody : runAll (execute program limits fuel frame) body
      { machine with steps := machine.steps + 1 } with
  | ok value final =>
    rw [bind_of_ok hbody] at hlist
    exact bind_of_ok (hfirst.trans hlist)
  | error error final =>
    rw [bind_of_error hbody] at hlist
    exact bind_of_error (hfirst.trans hlist)

/-- The variables that wait are those that the statements declare, in the same order. -/
def Awaits (program : Program) (frame : Nat) : List StmtId → List Early → Prop :=
  List.Forall₂ fun id entry ↦
    entry.depth = frame ∧ program.kind id = .action (.define entry.symbol)

theorem Awaits.exists_declaration {program : Program} {ids : List StmtId} {entries : List Early}
    (h : Awaits program frame ids entries) {entry : Early} (hentry : entry ∈ entries) :
    ∃ id ∈ ids, program.kind id = .action (.define entry.symbol) := by
  induction h with
  | nil => cases hentry
  | cons hfirst _ ih =>
    rcases List.mem_cons.mp hentry with rfl | hentry
    · exact ⟨_, List.mem_cons_self, hfirst.2⟩
    · obtain ⟨id, hid, hkind⟩ := ih hentry
      exact ⟨id, List.mem_cons_of_mem _ hid, hkind⟩

/-- A declaration that may be made ahead of its turn. -/
def Advances (c : Correspondence) (early : List Early) (frame : Nat) (id : StmtId) : Prop :=
  ∃ symbol, c.source.kind id = .action (.define symbol) ∧
    c.target.kind id = .action (.define (c.rename symbol)) ∧
      (c.source.symbol symbol).isLabel = false ∧ c.named symbol ∧ ¬ c.shared symbol ∧
        Open early frame symbol

/-- The second machine makes a list of declarations, and their variables wait. -/
theorem exists_awaits (hc : c.Sound) {declarations : List StmtId}
    (h : machine.Like c (.ample limits) early floor objects machine') (hframe : frame < floor)
    (hdeclarations : ∀ id ∈ declarations, Advances c early frame id)
    (hdistinct : declarations.Pairwise fun id later ↦ c.source.kind later ≠ c.source.kind id)
    {lasting : Limits → Nat} (hlasts : ∀ least, ∀ᶠ other in limits.beyond, least ≤ lasting other) :
    ∃ entries declared, Awaits c.source frame declarations entries ∧
      (∀ᶠ other in limits.beyond,
        runAll (execute c.target other (lasting other) frame) declarations machine' =
          .ok ⟨⟩ declared) ∧
      machine.Like c (.ample limits) (early ++ entries) floor objects declared := by
  induction declarations generalizing early machine' with
  | nil =>
    refine ⟨[], machine', .nil, .of_forall fun _ ↦ rfl, ?_⟩
    rwa [List.append_nil]
  | cons id declarations ih =>
    obtain ⟨hid, hdeclarations⟩ := List.forall_mem_cons.mp hdeclarations
    obtain ⟨hfirst, hdistinct⟩ := List.pairwise_cons.mp hdistinct
    obtain ⟨symbol, hkind, hkind', hlabel, hnamed, hunshared, hopen⟩ := hid
    have hticked : machine.Like c (.ample limits) early floor objects
        { machine' with steps := machine'.steps + 1 } := h.withSteps trivial
    obtain ⟨value, made, hmade, hlike⟩ :=
      hticked.declare_right hc (fun _ _ ↦ trivial) hunshared hopen hframe
    rw [← hc.symbolType hnamed] at hmade
    rw [← hc.isLabel hnamed] at hlabel
    have hlater : ∀ other ∈ declarations,
        Advances c (early ++ [⟨frame, symbol, value⟩]) frame other := fun other hother ↦ by
      obtain ⟨symbol', hkind', htarget, hlabel', hnamed', hunshared', hopen'⟩ :=
        hdeclarations other hother
      refine ⟨symbol', hkind', htarget, hlabel', hnamed', hunshared', fun entry hentry hdepth ↦ ?_⟩
      rcases List.mem_append.mp hentry with hentry | hentry
      · exact hopen' entry hentry hdepth
      · rw [List.mem_singleton.mp hentry]
        rintro rfl
        exact hfirst other hother (hkind'.trans hkind.symm)
    obtain ⟨entries, declared, hawaits, hrest, hlike⟩ := ih hlike hlater hdistinct
    refine ⟨⟨frame, symbol, value⟩ :: entries, declared, .cons ⟨rfl, hkind⟩ hawaits, ?_, ?_⟩
    · filter_upwards [hrest, hlasts 1,
        Limits.eventually_beyond.mpr ⟨machine'.steps + 1, fun _ hle _ ↦ hle⟩]
        with other hrest hfuel hsteps
      obtain ⟨fuel, hfuel⟩ := Nat.exists_eq_add_of_le' hfuel
      rw [hfuel] at hrest ⊢
      rw [runAll, bind_of_ok (execute_define hkind' hlabel hsteps hmade)]
      exact hrest
    · rwa [List.append_assoc] at hlike

/-! ### Members behind the declarations -/

section

variable (hc : c.Sound) {fuel : Nat} {lasting : Limits → Nat}
variable (hlasts : (Pace.ample limits).lasts fuel lasting)
variable (hrun : Executing c (.ample limits) (execute c.source limits fuel)
  fun other ↦ execute c.target other (lasting other))
variable (hstretching : Stretching c (.ample limits) (execute c.source limits fuel)
  fun other ↦ execute c.target other (lasting other))

include hc hlasts hrun hstretching

/-- A statement that is no boundary is followed where its symbols do not wait, below the floor
too. -/
theorem follows_straight {id : StmtId} (hstraight : c.source.isBoundary id = false)
    (hpair : c.pairs id id)
    (hopen : ∀ symbol ∈ (c.source.kind id).symbols, Open early frame symbol)
    (h : machine.Like c (.ample limits) early floor objects machine')
    (hthere : frame < machine.frames.size) :
    Follows c (.ample limits) early floor objects machine machine' (LikeFlow c)
      (execute c.source limits (fuel + 1) frame id)
      fun other ↦ execute c.target other (lasting other + 1) frame id := by
  obtain ⟨inner, hkind, hyield, -⟩ := Program.exists_action hstraight
  apply Follows.bind (follows_tick (Pace.ample_fair limits) h)
  intro objects' ticked ticked' _ _ hreaches _
  have hkinds := hc.statement hpair
  rw [hkind] at hkinds hopen
  generalize hkind' : c.target.kind id = kind' at hkinds
  cases hkinds with
  | action hinner =>
    simp only [statement, hkind, hkind']
    refine follows_action hc (Pace.ample_fair limits) hrun hstretching hreaches.like
      (hreaches.frames.size ▸ hthere) hlasts hinner (fun symbol hsymbol ↦ hopen symbol ?_)
      fun value hvalue ↦ absurd hvalue (hyield value)
    rcases hsymbol with hreads | hnamed
    · exact List.mem_append_right _ hreads
    · exact List.mem_append_left _ (Option.mem_toList.mpr hnamed)

/-- A run without its declarations follows the run, while the variables that it declares wait. -/
theorem follows_members {ids : List StmtId} {entries : List Early}
    (hbelow : ∀ entry ∈ early, entry.depth ≠ frame)
    (hids : ∀ id ∈ ids, c.source.isBoundary id = false ∧ c.pairs id id)
    (hahead : ids.Pairwise fun id later ↦
      ∀ symbol ∈ (c.source.kind later).defined?, symbol ∉ (c.source.kind id).symbols)
    (hawaits : Awaits c.source frame (ids.filter c.source.declares) entries)
    (h : machine.Like c (.ample limits) (early ++ entries) floor objects machine')
    (hthere : frame < machine.frames.size) :
    Follows c (.ample limits) early floor objects machine machine' Any
      (runAll (execute c.source limits (fuel + 1) frame) ids)
      fun other ↦ runAll (execute c.target other (lasting other + 1) frame)
        (ids.filter (!c.source.declares ·)) := by
  induction ids generalizing entries objects machine machine' with
  | nil =>
    cases hawaits
    rw [List.append_nil] at h
    exact .pure h trivial
  | cons id ids ih =>
    obtain ⟨⟨hstraight, hpair⟩, hids⟩ := List.forall_mem_cons.mp hids
    obtain ⟨hfirst, hahead⟩ := List.pairwise_cons.mp hahead
    cases hdeclares : c.source.declares id with
    | true =>
      obtain ⟨symbol, hkind, hlabel⟩ := Program.exists_define hstraight hdeclares
      rw [List.filter_cons_of_pos hdeclares] at hawaits
      cases hawaits with
      | @cons _ entry _ later hentry hawaits =>
        obtain ⟨rfl, hentry⟩ := hentry
        obtain rfl : symbol = entry.symbol := by
          rw [hkind] at hentry
          cases hentry
          rfl
        rw [List.filter_cons_of_neg (by simp [hdeclares])]
        by_cases hspent : limits.maxSteps < machine.steps + 1
        · exact .failed (bind_of_error (bind_of_error ((tick_eq _ _).trans (if_pos hspent)))) nofun
        have hticked : Machine.Like c (.ample limits) (early ++ entry :: later) floor objects
            { machine with steps := machine.steps + 1 } machine' := h.withSteps trivial
        obtain ⟨value, made, objects', hmade, hframes, hobjects, hlike⟩ :=
          hticked.declare_left hc fun _ _ ↦ trivial
        have hmachine : machine.SameFrames made := .of_eq hframes
        have hsame := hmachine.trans (.setLocal made entry.depth entry.symbol value)
        exact .after (execute_define hkind hlabel (Nat.not_lt.mp hspent) hmade) hobjects hsame
          (ih hids hahead hawaits hlike (hsame.size ▸ hthere))
    | false =>
      rw [List.filter_cons_of_neg (by simp [hdeclares])] at hawaits
      rw [List.filter_cons_of_pos (by simp [hdeclares])]
      have hopen : ∀ symbol ∈ (c.source.kind id).symbols, Open (early ++ entries) frame symbol := by
        intro symbol hsymbol entry hentry hdepth
        rcases List.mem_append.mp hentry with hentry | hentry
        · exact absurd hdepth (hbelow entry hentry)
        · obtain ⟨later, hlater, hkind⟩ := hawaits.exists_declaration hentry
          rintro rfl
          refine hfirst later (List.mem_of_mem_filter hlater) entry.symbol ?_ hsymbol
          rw [hkind]
          rfl
      apply Follows.bind
        (follows_straight hc hlasts hrun hstretching hstraight hpair hopen h hthere)
      intro objects' middle middle' _ _ hreaches _
      exact ih hids hahead hawaits hreaches.like (hreaches.frames.size ▸ hthere)

end

end Eval

namespace Program

variable {program final : Program} {hoisted : SymId → Prop}

/-- Statements stand for themselves, and runs of them for what they were regrouped to. -/
def regrouping (program final : Program) (hoisted : SymId → Prop) : Correspondence :=
  .rewriting program final (fun _ ↦ True) (fun symbol ↦ ¬ hoisted symbol)
    (fun symbol ↦ ¬ hoisted symbol) program.Stands (program.Regrouped final hoisted)

namespace Regrouped

variable {ids ids' : List StmtId} (h : program.Regrouped final hoisted ids ids')

include h

/-- What is not hoisted is not declared in the run, neither before nor after. -/
theorem defined?_ne {label : SymId} (hlabel : ¬ hoisted label) :
    (∀ id ∈ ids, (program.kind id).defined? ≠ some label) ∧
      ∀ id ∈ ids', (final.kind id).defined? ≠ some label := by
  have hids : ∀ id ∈ ids, (program.kind id).defined? ≠ some label :=
    fun id hid hdefined ↦ hlabel (h.hoisted id hid label hdefined)
  refine ⟨hids, fun id hid ↦ ?_⟩
  obtain ⟨fragment, hfragment, rfl⟩ := h.fragment
  rcases List.mem_append.mp hid with hid | hid
  · have hmem := List.mem_of_mem_filter hid
    rw [h.kind id hmem]
    exact hids id hmem
  · rw [List.mem_singleton.mp hid, hfragment]
    simp [StmtKind.defined?]

theorem straight_ids (limits : Limits) (fuel frame : Nat) :
    ∀ id ∈ ids, Eval.Straight (Eval.execute program limits fuel frame id) :=
  fun id hid ↦ Eval.straight_of_not_isBoundary (h.straight id hid) rfl

theorem straight_member (limits : Limits) (fuel frame : Nat) {id : StmtId} (hid : id ∈ ids) :
    Eval.Straight (Eval.execute final limits fuel frame id) :=
  Eval.straight_of_not_isBoundary (h.straight id hid) (h.kind id hid)

theorem straight_ids' (limits : Limits) (fuel frame : Nat) :
    ∀ id ∈ ids', Eval.Straight (Eval.execute final limits fuel frame id) := by
  obtain ⟨fragment, hfragment, rfl⟩ := h.fragment
  intro id hid
  rcases List.mem_append.mp hid with hid | hid
  · exact h.straight_member limits fuel frame (List.mem_of_mem_filter hid)
  · rw [List.mem_singleton.mp hid]
    exact Eval.straight_confined hfragment fun fuel other hother ↦
      h.straight_member limits fuel frame (List.mem_of_mem_filter hother)

/-- What was regrouped does the same, as far as less fuel goes. -/
theorem follows (hc : (program.regrouping final hoisted).Sound) {fuel : Nat}
    {lasting : Limits → Nat} (hlasts : (Pace.ample limits).lasts (fuel + 1) lasting)
    (hstretching : ∀ {lasting'}, (Pace.ample limits).lasts fuel lasting' →
      Eval.Executing (program.regrouping final hoisted) (.ample limits)
          (Eval.execute program limits fuel)
          (fun other ↦ Eval.execute final other (lasting' other)) ∧
        Eval.Stretching (program.regrouping final hoisted) (.ample limits)
          (Eval.execute program limits fuel)
          fun other ↦ Eval.execute final other (lasting' other))
    {early : List Early} {floor frame : Nat} {objects : ObjId → ObjId → Prop}
    {machine machine' : Machine}
    (hlike : machine.Like (program.regrouping final hoisted) (.ample limits) early floor objects
      machine') (hframe : floor ≤ frame) (hthere : frame < machine.frames.size) :
    Eval.Follows (program.regrouping final hoisted) (.ample limits) early floor objects machine
      machine' Eval.Any (Eval.runAll (Eval.execute program limits (fuel + 1) frame) ids)
      fun other ↦ Eval.runAll (Eval.execute final other (lasting other) frame) ids' := by
  obtain ⟨fragment, hfragment, rfl⟩ := h.fragment
  have hdeclarations : ∀ id ∈ ids.filter program.declares,
      Eval.Advances (program.regrouping final hoisted) early frame id := fun id hid ↦ by
    obtain ⟨hmem, hdeclares⟩ := List.mem_filter.mp hid
    obtain ⟨symbol, hkind, hlabel⟩ := exists_define (h.straight id hmem) hdeclares
    refine ⟨symbol, hkind, (h.kind id hmem).trans hkind, hlabel, trivial, not_not_intro ?_,
      Eval.open_of_floor_le hlike hframe symbol⟩
    exact h.hoisted id hmem symbol (by rw [hkind]; rfl)
  have hdistinct : (ids.filter program.declares).Pairwise fun id later ↦
      program.kind later ≠ program.kind id := by
    refine List.Pairwise.imp_of_mem (fun {id later} hid hlater hahead heq ↦ ?_)
      (h.ahead.sublist List.filter_sublist)
    obtain ⟨hmem, hdeclares⟩ := List.mem_filter.mp hid
    obtain ⟨symbol, hkind, -⟩ := exists_define (h.straight id hmem) hdeclares
    rw [heq, hkind] at hahead
    exact hahead symbol rfl (List.mem_cons_self)
  obtain ⟨entries, declared, hawaits, hdeclared, hraised⟩ :=
    Eval.exists_awaits hc hlike.raise hthere hdeclarations hdistinct hlasts
  have hticked : Machine.Like (program.regrouping final hoisted) (.ample limits)
      (early ++ entries) machine.frames.size objects machine
        { declared with steps := declared.steps + 1 } := hraised.withSteps trivial
  obtain ⟨lasting', hlasts', hsplit⟩ :
      ∃ lasting', (Pace.ample limits).lasts fuel lasting' ∧
        ∀ᶠ other in limits.beyond, lasting other = lasting' other + 2 :=
    Pace.ample_lasts hlasts 2
  obtain ⟨hexecuting, hstretching⟩ := hstretching hlasts'
  have hsecond : ∀ᶠ other in limits.beyond,
      Eval.runAll (Eval.execute final other (lasting other) frame)
          (ids.filter program.declares ++ [fragment]) machine' =
        Eval.runAll (Eval.execute final other (lasting' other + 1) frame)
          (ids.filter (!program.declares ·)) { declared with steps := declared.steps + 1 } := by
    filter_upwards [hdeclared, hsplit, hlasts' (ids.filter (!program.declares ·)).length,
      Limits.eventually_beyond.mpr ⟨declared.steps + 1, fun _ hle _ ↦ hle⟩]
      with other hdeclared hsplit hroom hsteps
    rw [Eval.runAll_append]
    refine (Eval.bind_of_ok hdeclared).trans ?_
    rw [hsplit]
    exact Eval.execute_confined hfragment
      (fun id hid ↦ h.straight_member other _ frame (List.mem_of_mem_filter hid))
      (Nat.le_succ_of_le hroom) hsteps
  have hmembers := Eval.follows_members hc hlasts' hexecuting hstretching
    (fun entry hentry ↦ ((hlike.waits entry hentry).below.trans_le hframe).ne)
    (fun id hid ↦ ⟨h.straight id hid, rfl, h.stands id hid⟩) h.ahead hawaits hticked hthere
  exact .lower hlike (.congr hsecond hmembers)

omit h

/-- What was regrouped does the same, however much fuel there is. -/
theorem stretching (hc : (program.regrouping final hoisted).Sound) {fuel : Nat}
    {lasting : Limits → Nat} (hlasts : (Pace.ample limits).lasts fuel lasting)
    (hexecuting : ∀ {less lasting'}, less < fuel → (Pace.ample limits).lasts less lasting' →
      Eval.Executing (program.regrouping final hoisted) (.ample limits)
        (Eval.execute program limits less) fun other ↦ Eval.execute final other (lasting' other)) :
    Eval.Stretching (program.regrouping final hoisted) (.ample limits)
      (Eval.execute program limits fuel)
      fun other ↦ Eval.execute final other (lasting other) := by
  induction fuel using Nat.strongRecOn generalizing lasting with
  | ind fuel ih =>
    refine ⟨fun h frame ↦ ⟨h.straight_ids limits fuel frame,
      fun other ↦ h.straight_ids' other _ frame⟩, ?_, ?_, ?_, fun _ ↦ by rintro ⟨⟩⟩
    · intro ids ids' h early floor objects machine machine' frame hlike hframe hthere
      cases fuel with
      | zero =>
        obtain ⟨id, rest, rfl⟩ := List.exists_cons_of_ne_nil h.ne_nil
        exact .failed rfl (by rintro ⟨⟩)
      | succ fuel =>
        refine h.follows hc hlasts (fun hlasts' ↦ ?_) hlike hframe hthere
        exact ⟨hexecuting (Nat.lt_succ_self _) hlasts', ih fuel (Nat.lt_succ_self _) hlasts'
          fun hless ↦ hexecuting (hless.trans (Nat.lt_succ_self _))⟩
    · intro ids ids' _ rounds lasting hlasts
      exact Pace.ample_lasts hlasts ids'.length
    · intro ids ids' _ error rounds lasting _ hlasts
      exact hlasts ids'.length

end Regrouped

end Program

end IteratorLowering
