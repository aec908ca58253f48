import IteratorLowering.Proofs.ControlFlow.Splicing
import IteratorLowering.Proofs.Evaluation.Hiding
import IteratorLowering.Proofs.Forest.Navigation
import IteratorLowering.Proofs.Forwarding.Rereading

/-!
# Copies and what comes behind them

A `CopySite` is an assignment of one variable to another and the place where it stands: the block
and the members in front of it and behind it. `CopySite.Forwards` says that a program reads the
source of the copy where another one reads its target, in the members behind the copy and in what is
nested in them, and that this cannot be told: these statements do not write, declare or jump to
either of the two, nothing takes the address of one, and no jump leads over the copy.

This module is about where statements stand. What is nested in a statement is behind the copy just
where the statement is, except for the members of the block (`CopySite.IsIn.behind_child`).
-/

set_option autoImplicit false
set_option relaxedAutoImplicit false

namespace IteratorLowering

/-- A copy in a block. -/
structure CopySite where
  block : StmtId
  before : List StmtId
  copy : StmtId
  later : List StmtId
  target : SymId
  source : SymId
  deriving DecidableEq, Repr

namespace CopySite

variable (site : CopySite)

/-- The two variables of the copy. -/
def Names (symbol : SymId) : Prop := symbol = site.target ∨ symbol = site.source

/-- No reference leads to the variables of the copy, in whatever frame. -/
def hidden : Hidden := ⟨fun _ ↦ False, fun _ ↦ False, site.Names⟩

/-- Whether a statement is a member behind the copy or nested in one. -/
def Behind (program : Program) (id : StmtId) : Prop :=
  ∃ member ∈ site.later, program.Under id member

instance (program : Program) (id : StmtId) : Decidable (site.Behind program id) :=
  inferInstanceAs (Decidable (∃ member ∈ site.later, _))

/-- The variable to read instead of another one. -/
def forward : SymId → SymId := SymId.replace site.target site.source

/-- The copy stands where the site says. -/
structure IsIn (site : CopySite) (program : Program) : Prop where
  stands : program.Stands site.block
  members : program.blockBody site.block = site.before ++ site.copy :: site.later
  copy : program.kind site.copy = .action (.assign site.target (.use (.sym site.source)))

/-- The second program reads the source where the first one reads the target behind the copy. -/
structure Forwards (site : CopySite) (program final : Program) : Prop
    extends site.IsIn program where
  same : final = { program with statements := final.statements }
  ne : site.target ≠ site.source
  kind : ∀ id, final.kind id =
    if site.Behind program id then (program.kind id).mapSymbols site.forward else program.kind id
  /-- Behind the copy its variables are only read. -/
  steady : ∀ {id}, site.Behind program id → ∀ symbol ∈ (program.kind id).fixed, ¬ site.Names symbol
  reserves : program.Reserves site.hidden
  /-- No jump leads over the copy. -/
  passes : ∀ {member id label}, member ∈ site.before → program.Under id member →
    (program.kind id).gotoTarget? = some label →
      ∀ other ∈ site.later, (program.kind other).defined? ≠ some label

end CopySite

/-- Whether a jump in a statement leads to the label. -/
def Program.JumpsFrom (program : Program) (id : StmtId) (label : SymId) : Prop :=
  ∃ inner, program.Under inner id ∧ (program.kind inner).gotoTarget? = some label

theorem CopySite.forward_of_not_names {site : CopySite} {symbol : SymId} (h : ¬ site.Names symbol) :
    site.forward symbol = symbol :=
  if_neg fun htarget ↦ h (.inl htarget)

namespace CopySite

variable {site : CopySite} {program final : Program} {id child member : StmtId}

namespace IsIn

variable (h : site.IsIn program) (hlinked : program.WellLinked)

include h

include hlinked

theorem parent_member (hmember : member ∈ site.before ++ site.copy :: site.later) :
    program.parent member = some site.block :=
  hlinked.parent_of_child (Program.mem_children_of_mem_blockBody (h.members ▸ hmember))

theorem parent_later (hmember : member ∈ site.later) :
    program.parent member = some site.block :=
  h.parent_member hlinked (List.mem_append_right _ (List.mem_cons_of_mem _ hmember))

theorem mem_functionStmts {function : FnId} (hfunction : program.HasFunction function)
    (hcopy : site.copy ∈ program.functionStmts function)
    (hmember : member ∈ site.before ++ site.copy :: site.later) (hunder : program.Under id member) :
    id ∈ program.functionStmts function := by
  rw [hlinked.mem_functionStmts_iff hfunction] at hcopy ⊢
  have hparent := h.parent_member hlinked (List.mem_append_right _ List.mem_cons_self)
  have hblock := hcopy.under (.single hparent) hlinked
  exact hblock.inside (hunder.tail (h.parent_member hlinked hmember))

/-- Outside of the block, a statement is behind the copy if what it is nested in is. -/
theorem behind_child (hne : id ≠ site.block) (hchild : child ∈ (program.kind id).children) :
    site.Behind program child ↔ site.Behind program id := by
  have hparent := hlinked.parent_of_child hchild
  refine ⟨fun ⟨member, hmember, hunder⟩ ↦ ?_, fun ⟨member, hmember, hunder⟩ ↦
    ⟨member, hmember, hunder.head hparent⟩⟩
  rcases hunder.cases_head with rfl | ⟨outer, houter, hunder⟩
  · exact absurd (Option.some.inj (hparent.symm.trans (h.parent_later hlinked hmember))) hne
  · obtain rfl := Option.some.inj (hparent.symm.trans houter)
    exact ⟨member, hmember, hunder⟩

theorem not_behind_block : ¬ site.Behind program site.block := by
  rintro ⟨member, hmember, hunder⟩
  obtain ⟨function, -, hstands⟩ := h.stands
  exact hlinked.not_under_of_parent hstands (h.parent_later hlinked hmember) hunder

/-- The members up to the copy are not behind it. -/
theorem not_behind_member (hmember : member ∈ site.before ∨ member = site.copy) :
    ¬ site.Behind program member := by
  have hnodup := h.members ▸ hlinked.nodup_blockBody site.block
  have hblock : member ∈ site.before ++ site.copy :: site.later := by
    rcases hmember with hmember | rfl
    · exact List.mem_append_left _ hmember
    · exact List.mem_append_right _ List.mem_cons_self
  rintro ⟨other, hother, hunder⟩
  rcases hunder.cases_head with rfl | ⟨outer, houter, hunder⟩
  · obtain ⟨-, htail, hapart⟩ := List.nodup_append.mp hnodup
    rcases hmember with hmember | rfl
    · exact hapart _ hmember _ (List.mem_cons_of_mem _ hother) rfl
    · exact (List.nodup_cons.mp htail).1 hother
  · obtain rfl := Option.some.inj ((h.parent_member hlinked hblock).symm.trans houter)
    exact h.not_behind_block hlinked ⟨other, hother, hunder⟩

theorem not_behind_body {function : FnId} (hfunction : program.HasFunction function) :
    ¬ site.Behind program (program.bodyOf function) := by
  rintro ⟨member, hmember, hunder⟩
  have hroot := hlinked.parent_body hfunction
  rcases hunder.cases_head with heq | ⟨outer, houter, -⟩
  · have hparent := h.parent_later hlinked hmember
    rw [← heq, hroot] at hparent
    cases hparent
  · rw [hroot] at houter
    cases houter

end IsIn

namespace Forwards

variable (h : site.Forwards program final)

include h

theorem rereads (id : StmtId) : ∃ f, (program.kind id).Rereads f (final.kind id) ∧
    ∀ symbol, f symbol = symbol ∨ f symbol = site.source := by
  have hkind := h.kind id
  split at hkind
  · rename_i hbehind
    refine ⟨site.forward, ⟨hkind, fun symbol hsymbol ↦ ?_⟩, fun symbol ↦ ?_⟩
    · exact forward_of_not_names (h.steady hbehind symbol hsymbol)
    · unfold forward SymId.replace
      split
      · exact .inr rfl
      · exact .inl rfl
  · exact ⟨_, ⟨hkind.trans (StmtKind.mapSymbols_id _).symm, fun _ _ ↦ rfl⟩, fun _ ↦ .inl rfl⟩

theorem defined? (id : StmtId) : (final.kind id).defined? = (program.kind id).defined? := by
  obtain ⟨f, hrereads, -⟩ := h.rereads id
  exact hrereads.defined?

theorem blockBody (id : StmtId) : final.blockBody id = program.blockBody id := by
  obtain ⟨f, hrereads, -⟩ := h.rereads id
  exact Program.blockBody_of_rereads hrereads

end Forwards

end CopySite

end IteratorLowering
