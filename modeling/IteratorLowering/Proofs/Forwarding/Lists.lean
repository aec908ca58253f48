import IteratorLowering.Proofs.ControlFlow.Aligning
import IteratorLowering.Proofs.Forwarding.Alike

/-!
# Runs of programs that read the source of a copy

A frame holds a copy while it runs what stands behind the copy. When it comes to the copy it begins
to, and when it leaves the block, or goes back in front of the copy, it no longer has to. What is
behind the copy may run iterators whose yields lead back into the frame, so a statement begins on a
machine on which the frame holds the copy just where the statement is behind it, and likewise for
every frame that consumes what the frame yields, and the loop that it consumes it in
(`CopySite.Ready`).

There every statement is alike in the two programs, by induction on the fuel (`Eval.alike_execute`).
So are runs (`CopySite.Forwards.run_eq`): they do not just have like results, they are the same.
-/

set_option autoImplicit false
set_option relaxedAutoImplicit false

namespace IteratorLowering

variable {site : CopySite} {program final : Program} {limits : Limits} {held held' : Nat → Prop}
variable {machine last : Machine} {frame depth : Nat} {id child : StmtId}

namespace CopySite

/-- The yields of a frame lead to a loop that stands behind the copy just where the frame of the
loop holds it. -/
structure Fits (site : CopySite) (program : Program) (held : Nat → Prop) (depth : Nat)
    (target : YieldTarget) : Prop where
  below : target.frame < depth
  stands : program.Stands target.loop
  held : held target.frame ↔ site.Behind program target.loop
  index : site.Behind program target.loop → ¬ site.Names target.index

/-- What a frame yields leads to a loop that fits, and so on from the frame of the loop. -/
inductive Feeds (site : CopySite) (program : Program) (held : Nat → Prop) (machine : Machine) :
    Nat → Prop
  | intro {depth : Nat}
      (fits : ∀ {function : FnId} {target : YieldTarget},
        machine.origin? depth = some (function, some target) →
          site.Fits program held depth target)
      (next : ∀ {function : FnId} {target : YieldTarget},
        machine.origin? depth = some (function, some target) →
          Feeds site program held machine target.frame) : Feeds site program held machine depth

/-- What a frame yields goes to frames below it only. -/
theorem Feeds.congr (h : site.Feeds program held machine depth)
    (hheld : ∀ below < depth, held' below ↔ held below)
    (horigin : ∀ below ≤ depth, last.origin? below = machine.origin? below) :
    site.Feeds program held' last depth := by
  induction h with
  | intro fits next ih =>
    refine .intro (fun htarget ↦ ?_) fun htarget ↦ ?_
    · rw [horigin _ (Nat.le_refl _)] at htarget
      have hfits := fits htarget
      exact ⟨hfits.below, hfits.stands, (hheld _ hfits.below).trans hfits.held, hfits.index⟩
    · rw [horigin _ (Nat.le_refl _)] at htarget
      have hbelow := (fits htarget).below
      exact ih htarget (fun below hlt ↦ hheld below (hlt.trans hbelow))
        fun below hle ↦ horigin below (hle.trans (Nat.le_of_lt hbelow))

/-- What holds where a statement begins. -/
structure Ready (site : CopySite) (program : Program) (held : Nat → Prop) (machine : Machine)
    (frame : Nat) (id : StmtId) : Prop where
  copied : machine.Copied site held
  feeds : site.Feeds program held machine frame
  live : frame < machine.frames.size
  stands : program.Stands id
  held : held frame ↔ site.Behind program id

namespace Ready

theorem after (h : site.Ready program held machine frame id) (hlast : last.Copied site held)
    (hframes : machine.SameFrames last) : site.Ready program held last frame id where
  copied := hlast
  feeds := h.feeds.congr (fun _ _ ↦ Iff.rfl) fun below _ ↦ hframes.origin below
  live := hframes.size ▸ h.live
  stands := h.stands
  held := h.held

theorem inner (h : site.Ready program held machine frame id) (hlinked : program.WellLinked)
    (hchild : child ∈ (program.kind id).children)
    (hbehind : site.Behind program child ↔ site.Behind program id) :
    site.Ready program held machine frame child where
  copied := h.copied
  feeds := h.feeds
  live := h.live
  stands := hlinked.stands_child h.stands hchild
  held := h.held.trans hbehind.symm

/-- A frame that is pushed for an iterator yields to the loop that pushed it. -/
theorem feeds_push (h : site.Ready program held machine frame id) {pushed : Frame} {index : SymId}
    (hpushed : pushed.yieldTo = some ⟨frame, index, id⟩)
    (hindex : site.Behind program id → ¬ site.Names index) :
    site.Feeds program held { machine with frames := machine.frames.push pushed }
      machine.frames.size := by
  have horigin {function : FnId} {target : YieldTarget}
      (heq : Machine.origin? { machine with frames := machine.frames.push pushed }
        machine.frames.size = some (function, some target)) : target = ⟨frame, index, id⟩ := by
    rw [Machine.origin?_push rfl, if_pos rfl, Frame.origin, hpushed] at heq
    cases heq
    rfl
  refine .intro (fun heq ↦ ?_) fun heq ↦ ?_
  · rw [horigin heq]
    exact ⟨h.live, h.stands, h.held, hindex⟩
  · rw [horigin heq]
    refine h.feeds.congr (fun _ _ ↦ Iff.rfl) fun below hle ↦ ?_
    rw [Machine.origin?_push rfl, if_neg (Nat.ne_of_lt (Nat.lt_of_le_of_lt hle h.live))]
    rfl

end Ready

/-- A jump that leaves a statement stands in it, and no reference that it returns leads to a
variable of the copy. -/
inductive Leads (site : CopySite) (program : Program) (id : StmtId) : Flow → Prop
  | normal : Leads site program id .normal
  | ret {value : Value} (h : value.Avoids site.hidden) : Leads site program id (.ret value)
  | goto {label : SymId} (h : program.JumpsFrom id label) : Leads site program id (.goto label)

theorem Leads.outward {flow : Flow} (h : site.Leads program child flow)
    (hunder : program.Under child id) : site.Leads program id flow := by
  cases h with
  | normal => exact .normal
  | ret h => exact .ret h
  | goto h =>
    obtain ⟨inner, hinner, hjump⟩ := h
    exact .goto ⟨inner, hinner.trans hunder, hjump⟩

namespace Forwards

variable (h : site.Forwards program final)

include h

theorem afterLabel? (label : SymId) (body : List StmtId) :
    final.afterLabel? label body = program.afterLabel? label body :=
  Program.afterLabel?_congr fun id _ ↦ h.defined? id

/-- A jump in the block leads in front of the copy or behind it. -/
theorem before_or_later {label : SymId} {next : List StmtId}
    (hnext : program.afterLabel? label (program.blockBody site.block) = some next) :
    (∃ rest ⊆ site.before, next = rest ++ site.copy :: site.later) ∨
      (next ⊆ site.later ∧ ∃ other ∈ site.later, (program.kind other).defined? = some label) := by
  rw [h.members] at hnext
  obtain ⟨passed, placed, hbody, hplaced, -⟩ := Program.exists_of_afterLabel? hnext
  have hcopy : placed ≠ site.copy := by
    rintro rfl
    rw [h.copy] at hplaced
    cases hplaced
  rcases List.append_eq_append_iff.mp hbody with ⟨between, -, hlater⟩ | ⟨between, hbefore, hlater⟩
  · rcases between with _ | ⟨first, between⟩
    · exact absurd (List.cons.inj hlater).1.symm hcopy
    · have hlater : site.later = between ++ placed :: next := (List.cons.inj hlater).2
      refine .inr ⟨fun other hother ↦ ?_, placed, ?_, hplaced⟩
      · exact hlater ▸ List.mem_append_right _ (List.mem_cons_of_mem _ hother)
      · exact hlater ▸ List.mem_append_right _ List.mem_cons_self
  · rcases between with _ | ⟨first, between⟩
    · exact absurd (List.cons.inj hlater).1 hcopy
    · have hnext : next = between ++ site.copy :: site.later := (List.cons.inj hlater).2
      refine .inl ⟨between, fun other hother ↦ ?_, hnext⟩
      exact hbefore ▸ List.mem_append_right _ (List.mem_cons_of_mem _ hother)

end Forwards

end CopySite

namespace Eval

/-- The statements that two executors run are alike, and after the copy its variables agree. -/
structure RunAlike (site : CopySite) (program : Program) (execute execute' : Executor) : Prop where
  alike : ∀ {held : Nat → Prop} {machine : Machine} {frame : Nat} {id : StmtId},
    site.Ready program held machine frame id →
      Alike site held machine (site.Leads program id) (execute frame id) (execute' frame id)
  copies : ∀ {machine last : Machine} {frame : Nat} {flow : Flow},
    execute frame site.copy machine = .ok flow last →
      flow = .normal ∧ ∃ value, last.local? frame site.target = some value ∧
        last.local? frame site.source = some value

/-- Where a list goes on after one of its members. -/
inductive Continues (program : Program) (body rest : List StmtId) : Flow → List StmtId → Prop
  | normal : Continues program body rest .normal rest
  | goto {label : SymId} {next : List StmtId} (h : program.afterLabel? label body = some next) :
    Continues program body rest (.goto label) next

/-- The members of the block that are left: the frame holds the copy once it has passed it. -/
inductive Stage (site : CopySite) (held : Nat → Prop) (machine : Machine) (frame : Nat)
    (rest : List StmtId) : Prop
  | ahead {front : List StmtId} (hrest : rest = front ++ site.copy :: site.later)
    (hfront : front ⊆ site.before) (hcopied : machine.Copied site held)
  | behind (hrest : rest ⊆ site.later)
    (hcopied : machine.Copied site fun depth ↦ held depth ∨ depth = frame)

theorem Stage.copied {rest : List StmtId} (h : Stage site held machine frame rest) :
    machine.Copied site held := by
  cases h with
  | ahead hrest hfront hcopied => exact hcopied
  | behind hrest hcopied => exact hcopied.mono fun _ ↦ .inl

/-- One of the members of the block: it is run alike, and what it leaves is the stage of the
members that come next. -/
structure Step (site : CopySite) (program : Program) (held : Nat → Prop) (machine : Machine)
    (frame : Nat) (rest : List StmtId) (first second : Eval Flow) : Prop where
  alike : Alike site held machine (site.Leads program site.block) first second
  stage : ∀ {flow : Flow} {last : Machine} {next : List StmtId}, first machine = .ok flow last →
    Continues program (program.blockBody site.block) rest flow next →
      Stage site held last frame next

theorem alike_outward {first second : Eval Flow} (hparent : program.parent child = some id)
    (halike : Alike site held machine (site.Leads program child) first second) :
    Alike site held machine (site.Leads program id) first second :=
  halike.mono fun _ hflow ↦ hflow.outward (.single hparent)

section

variable {rounds : Nat} {execute execute' : Executor} (h : site.Forwards program final)
variable (hlinked : program.WellLinked) (hexecute : RunAlike site program execute execute')

include h

/-! ### Lists -/

theorem alike_proceed {body rest : List StmtId} {flow : Flow} (hlast : last.Copied site held)
    (hflow : site.Leads program id flow)
    (hnext : ∀ {next}, Continues program body rest flow next →
      Alike site held last (site.Leads program id)
        (runList program (execute frame) body rounds next)
        (runList final (execute' frame) body rounds next)) :
    Alike site held last (site.Leads program id)
      (proceed program (execute frame) body rest rounds flow)
      (proceed final (execute' frame) body rest rounds flow) := by
  cases flow with
  | normal => exact hnext .normal
  | ret value => exact .pure hlast hflow
  | goto label =>
    simp only [proceed, h.afterLabel?]
    split
    · rename_i next heq
      exact hnext (.goto heq)
    · exact .pure hlast hflow

include hlinked hexecute

/-- The members of any other block. -/
theorem alike_runList (hne : id ≠ site.block)
    (hready : site.Ready program held machine frame id) {rest : List StmtId}
    (hrest : rest ⊆ program.blockBody id) :
    Alike site held machine (site.Leads program id)
      (runList program (execute frame) (program.blockBody id) rounds rest)
      (runList final (execute' frame) (program.blockBody id) rounds rest) := by
  induction rounds generalizing rest machine with
  | zero =>
    cases rest with
    | nil => exact .pure hready.copied .normal
    | cons member rest => exact .throw
  | succ rounds ih =>
    cases rest with
    | nil => exact .pure hready.copied .normal
    | cons member rest =>
      obtain ⟨hmember, hrest⟩ := List.cons_subset.mp hrest
      have hchild := Program.mem_children_of_mem_blockBody hmember
      have hbehind := h.behind_child hlinked hne hchild
      rw [runList_cons, runList_cons]
      apply Alike.bind (hexecute.alike (hready.inner hlinked hchild hbehind))
      intro flow last hlast hframes hflow
      replace hflow := hflow.outward (.single (hlinked.parent_of_child hchild))
      refine alike_proceed h hlast hflow fun hnext ↦ ih (hready.after hlast hframes) ?_
      cases hnext with
      | normal => exact hrest
      | goto hnext =>
        obtain ⟨before, placed, hbody, -⟩ := Program.exists_of_afterLabel? hnext
        intro other hother
        exact hbody ▸ List.mem_append_right _ (List.mem_cons_of_mem _ hother)

/-- A member in front of the copy jumps to another one or behind its own end, not past the copy. -/
theorem step_ahead (hready : site.Ready program held machine frame site.block)
    {member : StmtId} {front : List StmtId} (hfront : member :: front ⊆ site.before) :
    Step site program held machine frame (front ++ site.copy :: site.later)
      (execute frame member) (execute' frame member) := by
  obtain ⟨hmember, hfront⟩ := List.cons_subset.mp hfront
  have hplace : member ∈ site.before ++ site.copy :: site.later := List.mem_append_left _ hmember
  have hchild := Program.mem_children_of_mem_blockBody (h.members ▸ hplace)
  have halike := hexecute.alike (hready.inner hlinked hchild
    (iff_of_false (h.not_behind_member hlinked (.inl hmember)) (h.not_behind_block hlinked)))
  refine ⟨alike_outward (h.parent_member hlinked hplace) halike, fun hrun hnext ↦ ?_⟩
  obtain ⟨hlast, -, hflow⟩ := halike.of_ok hrun
  cases hnext with
  | normal => exact .ahead rfl hfront hlast
  | goto hnext =>
    rcases h.before_or_later hnext with ⟨front, hfront, rfl⟩ | ⟨-, other, hother, hplaced⟩
    · exact .ahead rfl hfront hlast
    · cases hflow with
      | goto hjump =>
        obtain ⟨inner, hinside, hjump⟩ := hjump
        exact absurd hplaced (h.passes hmember hinside hjump other hother)

/-- After the copy the frame holds it. -/
theorem step_copy (hready : site.Ready program held machine frame site.block) :
    Step site program held machine frame site.later (execute frame site.copy)
      (execute' frame site.copy) := by
  have hplace : site.copy ∈ site.before ++ site.copy :: site.later :=
    List.mem_append_right _ List.mem_cons_self
  have hchild := Program.mem_children_of_mem_blockBody (h.members ▸ hplace)
  have halike := hexecute.alike (hready.inner hlinked hchild
    (iff_of_false (h.not_behind_member hlinked (.inr rfl)) (h.not_behind_block hlinked)))
  refine ⟨alike_outward (h.parent_member hlinked hplace) halike, fun hrun hnext ↦ ?_⟩
  obtain ⟨hlast, -, -⟩ := halike.of_ok hrun
  obtain ⟨rfl, hvalues⟩ := hexecute.copies hrun
  cases hnext
  refine .behind (List.Subset.refl _) ⟨hlast.hides, fun hdepth ↦ ?_⟩
  rcases hdepth with hdepth | rfl
  · exact hlast.same hdepth
  · exact hvalues

/-- A member behind the copy is run while the frame holds it, and may jump to any other one. -/
theorem step_behind (hready : site.Ready program held machine frame site.block)
    (hcopied : machine.Copied site fun depth ↦ held depth ∨ depth = frame) {member : StmtId}
    {rest : List StmtId} (hrest : member :: rest ⊆ site.later) :
    Step site program held machine frame rest (execute frame member) (execute' frame member) := by
  obtain ⟨hmember, hrest⟩ := List.cons_subset.mp hrest
  have hplace := List.mem_append_right site.before (List.mem_cons_of_mem site.copy hmember)
  have hchild := Program.mem_children_of_mem_blockBody (h.members ▸ hplace)
  have hinner : site.Ready program (fun depth ↦ held depth ∨ depth = frame) machine frame
      member := {
    copied := hcopied
    feeds := hready.feeds.congr (fun below hlt ↦ or_iff_left (Nat.ne_of_lt hlt)) fun _ _ ↦ rfl
    live := hready.live
    stands := hlinked.stands_child hready.stands hchild
    held := iff_of_true (.inr rfl) ⟨member, hmember, .refl⟩ }
  have halike := hexecute.alike hinner
  refine ⟨alike_outward (h.parent_member hlinked hplace) (halike.of_held fun _ ↦ .inl),
    fun hrun hnext ↦ ?_⟩
  obtain ⟨hlast, -, -⟩ := halike.of_ok hrun
  cases hnext with
  | normal => exact .behind hrest hlast
  | goto hnext =>
    rcases h.before_or_later hnext with ⟨front, hfront, rfl⟩ | ⟨hnext, -⟩
    · exact .ahead rfl hfront (hlast.mono fun _ ↦ .inl)
    · exact .behind hnext hlast

/-- The members of the block of the copy. -/
theorem alike_runBlock (hready : site.Ready program held machine frame site.block)
    {rest : List StmtId} (hstage : Stage site held machine frame rest) :
    Alike site held machine (site.Leads program site.block)
      (runList program (execute frame) (program.blockBody site.block) rounds rest)
      (runList final (execute' frame) (program.blockBody site.block) rounds rest) := by
  induction rounds generalizing rest machine with
  | zero =>
    cases rest with
    | nil => exact .pure hstage.copied .normal
    | cons member rest => exact .throw
  | succ rounds ih =>
    cases rest with
    | nil => exact .pure hstage.copied .normal
    | cons member rest =>
      have hstep : Step site program held machine frame rest (execute frame member)
          (execute' frame member) := by
        cases hstage with
        | @ahead front hrest hfront _ =>
          rcases front with _ | ⟨first, front⟩
          · obtain ⟨rfl, rfl⟩ : member = site.copy ∧ rest = site.later := List.cons.inj hrest
            exact step_copy h hlinked hexecute hready
          · obtain ⟨rfl, rfl⟩ : member = first ∧ rest = front ++ site.copy :: site.later :=
              List.cons.inj hrest
            exact step_ahead h hlinked hexecute hready hfront
        | behind hrest hcopied => exact step_behind h hlinked hexecute hready hcopied hrest
      rw [runList_cons, runList_cons]
      apply Alike.bind_of_run hstep.alike
      intro flow last hrun hlast hframes hflow
      exact alike_proceed h hlast hflow fun hnext ↦
        ih (hready.after hlast hframes) (hstep.stage hrun hnext)

/-- The members of a block. -/
theorem alike_members (hready : site.Ready program held machine frame id) :
    Alike site held machine (site.Leads program id)
      (runList program (execute frame) (program.blockBody id) rounds (program.blockBody id))
      (runList final (execute' frame) (final.blockBody id) rounds (final.blockBody id)) := by
  rw [h.blockBody]
  by_cases hne : id = site.block
  · subst hne
    exact alike_runBlock h hlinked hexecute hready
      (.ahead h.members (List.Subset.refl _) hready.copied)
  · exact alike_runList h hlinked hexecute hne hready (List.Subset.refl _)

omit h hlinked hexecute in
theorem alike_runWhile {condition condition' : Operand} {round round' : Eval Flow}
    (hready : site.Ready program held machine frame id)
    (htest : ∀ {machine : Machine}, machine.Copied site held →
      Alike site held machine (fun _ ↦ True) (truth program frame condition)
        (truth final frame condition'))
    (hround : ∀ {machine : Machine}, site.Ready program held machine frame id →
      Alike site held machine (site.Leads program id) round round') :
    Alike site held machine (site.Leads program id)
      (runWhile (truth program frame condition) round rounds)
      (runWhile (truth final frame condition') round' rounds) := by
  induction rounds generalizing machine with
  | zero => exact .throw
  | succ rounds ih =>
    apply Alike.bind (htest hready.copied)
    intro holds tested htested hframes _
    have htested := hready.after htested hframes
    split
    · apply Alike.bind (hround htested)
      intro flow last hlast hframes hflow
      cases flow with
      | normal => exact ih (htested.after hlast hframes)
      | ret value => exact .pure hlast hflow
      | goto label => exact .pure hlast hflow
    · exact .pure htested.copied .normal

end

end Eval

end IteratorLowering
