import IteratorLowering.Diagnostic.Queue
import Mathlib.Data.List.Nodup
import Mathlib.Tactic.Common

/-!
# What a diagnostic queue has been told

A queue filters by its own contents, so what it holds depends on everything that it was offered. A
`DiagnosticQueue.History` is a queue together with the offers that were made to it since it was
last flushed, each with the queue as it was then. The answers of a queue are taken apart once
(`answers_add`), and every call keeps the books of the history (`History.Balanced.next`).

Whatever the calls are, the queue holds the accepted reports, and among them the one report on the
limit, which stands where the first error came that the limit shut out. The errors that are counted
are the accepted ones, only errors are shut out by the limit, and no two accepted reports say the
same where repeats are dropped. A flush hands out the reports by place, and otherwise in order of
arrival. `History.balanced_ofCalls` is the induction over the calls, and `accounts_ofCalls` says
all of this.

The token for reported errors is backed by an accepted error where no queued warning or note said
the same as the error (`History.hasErrors?_ofCalls`). An error that repeats a warning is dropped,
and nothing backs its token.
-/

set_option autoImplicit false
set_option relaxedAutoImplicit false

namespace IteratorLowering

/-- The spans of the primary labels of a report, in order. -/
def Diagnostic.primarySpans (diagnostic : Diagnostic) : List Span :=
  (diagnostic.labels.filter fun label ↦ label.isPrimary = true).map Label.span

/-- The place of a report in the source. A report without a primary label is at the start. -/
def Diagnostic.place (diagnostic : Diagnostic) : Span := diagnostic.primarySpans.headD ⟨0, 0⟩

/-- What a report says, and where. -/
def Diagnostic.saying (diagnostic : Diagnostic) : DiagnosticCode × Option Span × String :=
  (diagnostic.code, diagnostic.primarySpans.head?, diagnostic.message)

theorem Diagnostic.primarySpan?_eq (diagnostic : Diagnostic) :
    diagnostic.primarySpan? = diagnostic.primarySpans.head? := by
  simp [primarySpan?, primarySpans, List.head?_map, List.head?_filter]

theorem Diagnostic.getD_primarySpan? (diagnostic : Diagnostic) :
    diagnostic.primarySpan?.getD .none = diagnostic.place := by
  rw [primarySpan?_eq, place, List.headD_eq_head?_getD, Span.none]

theorem Diagnostic.isError_iff (diagnostic : Diagnostic) :
    diagnostic.isError = true ↔ diagnostic.severity = .error := by
  simp [isError]

/-- The first span starts before the second one, or at the same place and ends no later. -/
def Span.AtMost (first second : Span) : Prop :=
  first.start < second.start ∨ first.start = second.start ∧ first.stop ≤ second.stop

namespace DiagnosticQueue

variable {queue : DiagnosticQueue} {diagnostic first second : Diagnostic}

theorem sameReport_iff : sameReport first second = true ↔ first.saying = second.saying := by
  simp [sameReport, Diagnostic.saying, Diagnostic.primarySpan?_eq, and_assoc]

theorem isDuplicate_iff : queue.isDuplicate diagnostic = true ↔
    ∃ queued ∈ queue.diagnostics, queued.saying = diagnostic.saying := by
  simp [isDuplicate, sameReport_iff]

theorem inSourceOrder_iff :
    inSourceOrder first second = true ↔ first.place.AtMost second.place := by
  simp [inSourceOrder, Span.AtMost, Diagnostic.getD_primarySpan?]

/-- As many errors have been counted as the limit allows. -/
def Full (queue : DiagnosticQueue) : Prop :=
  0 < queue.config.errorLimit ∧ queue.config.errorLimit ≤ queue.errorCount

instance : Decidable queue.Full := inferInstanceAs (Decidable (_ ∧ _))

theorem limitReached_iff : queue.limitReached = true ↔ queue.Full := by
  simp [limitReached, Full]

/-! ### Offers -/

/-- A report that was offered to a queue. -/
structure Offer where
  queue : DiagnosticQueue
  diagnostic : Diagnostic

namespace Offer

/-- Whether the report was accepted. -/
def accepted (offer : Offer) : Bool := (offer.queue.add offer.diagnostic).1

/-- The report is an error that came after the limit had been reached. -/
def IsShutOut (offer : Offer) : Prop := offer.diagnostic.severity = .error ∧ offer.queue.Full

instance (offer : Offer) : Decidable offer.IsShutOut := inferInstanceAs (Decidable (_ ∧ _))

/-- Whether repeats are dropped and the report says what a queued report says. -/
def Repeats (offer : Offer) : Prop :=
  offer.queue.config.deduplicate = true ∧
    ∃ queued ∈ offer.queue.diagnostics, queued.saying = offer.diagnostic.saying

end Offer

/-- The report on the limit that an offer leaves. -/
def limitReport (queue : DiagnosticQueue) (diagnostic : Diagnostic) : Diagnostic :=
  { code := .tooManyErrors
    severity := .error
    message := s!"aborting due to {queue.config.errorLimit} previous errors"
    labels :=
      [{ span := diagnostic.place, message := "error limit reached here", isPrimary := true }] }

/-- The queue with a report on the limit that an offer leaves. -/
def reportLimit (queue : DiagnosticQueue) (diagnostic : Diagnostic) : DiagnosticQueue :=
  { queue.push (queue.limitReport diagnostic) with limitReported := true }

/-- The queue with a report, which is counted if it is an error. -/
def accept (queue : DiagnosticQueue) (diagnostic : Diagnostic) : DiagnosticQueue :=
  { queue.push diagnostic with
    errorCount := queue.errorCount + if diagnostic.severity = .error then 1 else 0 }

@[simp] theorem diagnostics_reportLimit : (queue.reportLimit diagnostic).diagnostics =
    queue.diagnostics ++ [queue.limitReport diagnostic] := rfl

@[simp] theorem diagnostics_accept :
    (queue.accept diagnostic).diagnostics = queue.diagnostics ++ [diagnostic] := rfl

/-- What a queue can answer to an offer. -/
inductive Answers (queue : DiagnosticQueue) (diagnostic : Diagnostic) :
    Bool × DiagnosticQueue → Prop
  /-- An error beyond the limit, which has been reported. -/
  | silent (hshut : (⟨queue, diagnostic⟩ : Offer).IsShutOut)
      (hreported : queue.limitReported = true) : Answers queue diagnostic (false, queue)
  /-- The first error beyond the limit. -/
  | reported (hshut : (⟨queue, diagnostic⟩ : Offer).IsShutOut)
      (hreported : queue.limitReported = false) :
      Answers queue diagnostic (false, queue.reportLimit diagnostic)
  | repeated (hshut : ¬ (⟨queue, diagnostic⟩ : Offer).IsShutOut)
      (hrepeats : (⟨queue, diagnostic⟩ : Offer).Repeats) :
      Answers queue diagnostic (false, queue)
  | accepted (hshut : ¬ (⟨queue, diagnostic⟩ : Offer).IsShutOut)
      (hrepeats : ¬ (⟨queue, diagnostic⟩ : Offer).Repeats) :
      Answers queue diagnostic (true, queue.accept diagnostic)

theorem answers_add (queue : DiagnosticQueue) (diagnostic : Diagnostic) :
    Answers queue diagnostic (queue.add diagnostic) := by
  have hrepeats : (⟨queue, diagnostic⟩ : Offer).Repeats ↔
      (queue.config.deduplicate && queue.isDuplicate diagnostic) = true := by
    simp [Offer.Repeats, isDuplicate_iff]
  have hcondition : (diagnostic.isError && queue.limitReached) = true ↔
      (⟨queue, diagnostic⟩ : Offer).IsShutOut := by
    rw [Bool.and_eq_true, diagnostic.isError_iff, limitReached_iff, Offer.IsShutOut]
  unfold add
  rw [diagnostic.getD_primarySpan?]
  by_cases hshut : (⟨queue, diagnostic⟩ : Offer).IsShutOut
  · rw [if_pos (hcondition.mpr hshut)]
    by_cases hreported : queue.limitReported = true
    · rw [if_pos hreported]
      exact .silent hshut hreported
    · rw [if_neg hreported]
      exact .reported hshut (Bool.eq_false_iff.mpr hreported)
  · rw [if_neg (hcondition.not.mpr hshut)]
    by_cases hduplicate : (queue.config.deduplicate && queue.isDuplicate diagnostic) = true
    · rw [if_pos hduplicate]
      exact .repeated hshut (hrepeats.mpr hduplicate)
    · rw [if_neg hduplicate]
      have haccepted := Answers.accepted hshut fun h ↦ hduplicate (hrepeats.mp h)
      unfold accept at haccepted
      by_cases herror : diagnostic.severity = .error
      · rw [if_pos herror] at haccepted
        rw [if_pos (diagnostic.isError_iff.mpr herror)]
        exact haccepted
      · rw [if_neg herror] at haccepted
        rw [if_neg (diagnostic.isError_iff.not.mpr herror)]
        exact haccepted

/-! ### Histories -/

/-- A call of a queue. -/
inductive Call where
  | add (diagnostic : Diagnostic)
  | emitError (diagnostic : Diagnostic)
  | flush

/-- A queue and the offers that were made to it since it was last flushed, in order. -/
structure History where
  queue : DiagnosticQueue
  offers : List Offer := []

namespace History

/-- The history after one more offer, which has left a queue. -/
def record (history : History) (diagnostic : Diagnostic) (queue : DiagnosticQueue) : History :=
  { queue, offers := history.offers ++ [⟨history.queue, diagnostic⟩] }

/-- The history after one more call. -/
def next (history : History) : Call → History
  | .add diagnostic => history.record diagnostic (history.queue.add diagnostic).2
  | .emitError diagnostic => history.record diagnostic (history.queue.emitError diagnostic).2
  | .flush => { queue := history.queue.flush.2 }

/-- The history of a new queue that was called in this way. -/
def ofCalls (config : QueueConfig) (calls : List Call) : History :=
  calls.foldl next { queue := withConfig config }

/-- The reports that were accepted, in order. -/
def accepted (history : History) : List Diagnostic :=
  (history.offers.filter Offer.accepted).map Offer.diagnostic

/-- The report on the limit, at the place of the first error that the limit shut out. -/
def limitReport? (history : History) : Option Diagnostic :=
  (history.offers.find? fun offer ↦ offer.IsShutOut).map fun offer ↦
    offer.queue.limitReport offer.diagnostic

/-- The books of a queue agree with what it was offered. -/
structure Balanced (config : QueueConfig) (history : History) : Prop where
  config_eq : history.queue.config = config
  offered : ∀ offer ∈ history.offers, offer.queue.config = config
  /-- The errors that are counted are the accepted ones. -/
  errorCount : history.queue.errorCount =
    history.accepted.countP fun report ↦ report.severity = .error
  limit : 0 < config.errorLimit → history.queue.errorCount ≤ config.errorLimit
  /-- The limit is reported once it has shut out an error, and has been reached then. -/
  limitReported : history.queue.limitReported = history.limitReport?.isSome
  full : history.queue.limitReported = true → history.queue.Full
  /-- Beside the accepted reports, the queue holds at most the report on the limit. -/
  held : ∃ before after, history.accepted = before ++ after ∧
    history.queue.diagnostics = before ++ history.limitReport?.toList ++ after
  distinct : config.deduplicate = true → (history.accepted.map Diagnostic.saying).Nodup

variable {config : QueueConfig} {history : History} {diagnostic : Diagnostic}

@[simp] theorem queue_record {queue : DiagnosticQueue} :
    (history.record diagnostic queue).queue = queue := rfl

theorem accepted_record {queue : DiagnosticQueue} :
    (history.record diagnostic queue).accepted =
      history.accepted ++ if (history.queue.add diagnostic).1 then [diagnostic] else [] := by
  simp only [accepted, record, List.filter_append, List.map_append]
  by_cases h : (history.queue.add diagnostic).1 = true <;> simp [Offer.accepted, h]

theorem limitReport?_record {queue : DiagnosticQueue} :
    (history.record diagnostic queue).limitReport? = history.limitReport?.or
      (if (⟨history.queue, diagnostic⟩ : Offer).IsShutOut
        then some (history.queue.limitReport diagnostic) else none) := by
  simp only [limitReport?, record, List.find?_append, Option.map_or]
  by_cases h : (⟨history.queue, diagnostic⟩ : Offer).IsShutOut <;> simp [h]

namespace Balanced

theorem new (config : QueueConfig) : Balanced config { queue := withConfig config } where
  config_eq := rfl
  offered := by simp
  errorCount := rfl
  limit _ := Nat.zero_le _
  limitReported := rfl
  full := by simp [withConfig]
  held := ⟨[], [], rfl, rfl⟩
  distinct _ := List.nodup_nil

/-- Every accepted report is queued. -/
theorem mem_diagnostics (h : Balanced config history) (hmem : diagnostic ∈ history.accepted) :
    diagnostic ∈ history.queue.diagnostics := by
  obtain ⟨before, after, haccepted, hheld⟩ := h.held
  rw [haccepted] at hmem
  rw [hheld]
  simp only [List.mem_append] at hmem ⊢
  tauto

theorem offered_record (h : Balanced config history) {queue : DiagnosticQueue} :
    ∀ offer ∈ (history.record diagnostic queue).offers, offer.queue.config = config := by
  intro offer hoffer
  simp only [record, List.mem_append, List.mem_singleton] at hoffer
  rcases hoffer with hoffer | rfl
  · exact h.offered offer hoffer
  · exact h.config_eq

/-- An offer that changes nothing. -/
theorem ignored (h : Balanced config history)
    (haccepted : (history.record diagnostic history.queue).accepted = history.accepted)
    (hreport : (history.record diagnostic history.queue).limitReport? = history.limitReport?) :
    Balanced config (history.record diagnostic history.queue) where
  config_eq := h.config_eq
  offered := h.offered_record
  errorCount := by rw [haccepted]; exact h.errorCount
  limit := h.limit
  limitReported := by rw [hreport]; exact h.limitReported
  full := h.full
  held := by rw [haccepted, hreport]; exact h.held
  distinct := by rw [haccepted]; exact h.distinct

/-- The first error beyond the limit, which the queue reports. -/
theorem reported (h : Balanced config history)
    (hshut : (⟨history.queue, diagnostic⟩ : Offer).IsShutOut)
    (hreported : history.queue.limitReported = false)
    (hadded : (history.queue.add diagnostic).1 = false) :
    Balanced config (history.record diagnostic (history.queue.reportLimit diagnostic)) := by
  have hnone : history.limitReport? = none := by
    rw [h.limitReported] at hreported
    simpa using hreported
  have haccepted : (history.record diagnostic (history.queue.reportLimit diagnostic)).accepted =
      history.accepted := by
    simp [accepted_record, hadded]
  have hreport : (history.record diagnostic (history.queue.reportLimit diagnostic)).limitReport? =
      some (history.queue.limitReport diagnostic) := by
    simp [limitReport?_record, hnone, hshut]
  constructor
  case config_eq => exact h.config_eq
  case offered => exact h.offered_record
  case errorCount => rw [haccepted]; exact h.errorCount
  case limit => exact h.limit
  case limitReported => rw [hreport]; rfl
  case full => exact fun _ ↦ hshut.2
  case held =>
    obtain ⟨before, after, hbooked, hheld⟩ := h.held
    exact ⟨history.accepted, [], by simp [haccepted], by simp [hreport, hheld, hnone, hbooked]⟩
  case distinct => rw [haccepted]; exact h.distinct

/-- An accepted report. -/
theorem accept (h : Balanced config history)
    (hshut : ¬ (⟨history.queue, diagnostic⟩ : Offer).IsShutOut)
    (hrepeats : ¬ (⟨history.queue, diagnostic⟩ : Offer).Repeats)
    (hadded : (history.queue.add diagnostic).1 = true) :
    Balanced config (history.record diagnostic (history.queue.accept diagnostic)) := by
  have haccepted : (history.record diagnostic (history.queue.accept diagnostic)).accepted =
      history.accepted ++ [diagnostic] := by
    simp [accepted_record, hadded]
  have hreport : (history.record diagnostic (history.queue.accept diagnostic)).limitReport? =
      history.limitReport? := by
    simp [limitReport?_record, hshut]
  -- An error is accepted only below the limit, and then the limit has not been reported.
  have hbelow (herror : diagnostic.severity = .error) : ¬ history.queue.Full :=
    fun hfull ↦ hshut ⟨herror, hfull⟩
  constructor
  case config_eq => exact h.config_eq
  case offered => exact h.offered_record
  case errorCount =>
    rw [haccepted, List.countP_append, List.countP_singleton, ← h.errorCount]
    simp [DiagnosticQueue.accept, push]
  case limit =>
    intro hpos
    have hlimit := h.limit hpos
    by_cases herror : diagnostic.severity = .error
    · have hroom := hbelow herror
      rw [Full, h.config_eq] at hroom
      simp only [queue_record, DiagnosticQueue.accept, herror, if_true]
      omega
    · simpa [DiagnosticQueue.accept, herror] using hlimit
  case limitReported => rw [hreport]; exact h.limitReported
  case full =>
    intro hreported
    have hfull := h.full hreported
    by_cases herror : diagnostic.severity = .error
    · exact absurd hfull (hbelow herror)
    · simpa [DiagnosticQueue.accept, herror, Full, push] using hfull
  case held =>
    obtain ⟨before, after, hbooked, hheld⟩ := h.held
    exact ⟨before, after ++ [diagnostic], by simp [haccepted, hbooked], by simp [hreport, hheld]⟩
  case distinct =>
    intro hdeduplicate
    have hdifferent : diagnostic.saying ∉ history.accepted.map Diagnostic.saying := by
      intro hmem
      obtain ⟨queued, hqueued, hsaying⟩ := List.mem_map.mp hmem
      exact hrepeats ⟨h.config_eq ▸ hdeduplicate, queued, h.mem_diagnostics hqueued, hsaying⟩
    rw [haccepted, List.map_append, List.map_singleton, List.nodup_append_comm]
    exact List.nodup_cons.mpr ⟨hdifferent, h.distinct hdeduplicate⟩

theorem offer (h : Balanced config history) :
    Balanced config (history.record diagnostic (history.queue.add diagnostic).2) := by
  have hanswers := answers_add history.queue diagnostic
  generalize hanswer : history.queue.add diagnostic = answer at hanswers
  cases hanswers with
  | silent hshut hreported =>
    refine h.ignored (by simp [accepted_record, hanswer]) ?_
    have hsome : history.limitReport?.isSome = true := h.limitReported ▸ hreported
    obtain ⟨report, hreport⟩ := Option.isSome_iff_exists.mp hsome
    simp [limitReport?_record, hreport]
  | reported hshut hreported => exact h.reported hshut hreported (by rw [hanswer])
  | repeated hshut hrepeats =>
    exact h.ignored (by simp [accepted_record, hanswer]) (by simp [limitReport?_record, hshut])
  | accepted hshut hrepeats => exact h.accept hshut hrepeats (by rw [hanswer])

theorem next (h : Balanced config history) (call : Call) : Balanced config (history.next call) := by
  cases call with
  | add diagnostic => exact h.offer
  | emitError diagnostic => exact h.offer
  | flush =>
    have hnew := new config
    rw [← h.config_eq] at hnew
    exact h.config_eq ▸ hnew

end Balanced

theorem balanced_ofCalls (config : QueueConfig) (calls : List Call) :
    Balanced config (ofCalls config calls) := by
  have hrun (history : History) (h : Balanced config history) :
      Balanced config (calls.foldl History.next history) := by
    induction calls generalizing history with
    | nil => exact h
    | cons call rest ih => exact ih _ (h.next call)
  exact hrun _ (.new config)

/-! ### Consequences -/

namespace Balanced

/-- The errors in the queue are the ones that are counted, and the report on the limit. -/
theorem countP_severity (h : Balanced config history) :
    history.queue.diagnostics.countP fun report ↦ report.severity = .error =
      history.queue.errorCount + history.limitReport?.toList.length := by
  obtain ⟨before, after, haccepted, hheld⟩ := h.held
  have hreport : history.limitReport?.toList.countP fun report ↦ report.severity = .error =
      history.limitReport?.toList.length := by
    rw [List.countP_eq_length]
    intro report hmem
    simp only [limitReport?, Option.mem_toList, Option.map_eq_some_iff] at hmem
    obtain ⟨offer, -, rfl⟩ := hmem
    rfl
  rw [h.errorCount, haccepted, hheld]
  simp only [List.countP_append, hreport]
  omega

end Balanced

end History

/-- A report is dropped for two reasons, and the limit is a reason for errors only. -/
theorem Offer.accepted_eq_false_iff (offer : Offer) :
    offer.accepted = false ↔ offer.IsShutOut ∨ offer.Repeats := by
  have hanswers := answers_add offer.queue offer.diagnostic
  unfold accepted
  generalize offer.queue.add offer.diagnostic = answer at hanswers
  cases hanswers with
  | silent hshut _ => simp [hshut]
  | reported hshut _ => simp [hshut]
  | repeated hshut hrepeats => simp [hrepeats]
  | accepted hshut hrepeats => simp [hshut, hrepeats]

namespace History

variable {config : QueueConfig} {history : History} {diagnostic : Diagnostic}

/-- Without a limit and where repeats are kept, every report is queued. -/
theorem Balanced.diagnostics_eq (h : Balanced config history)
    (hdeduplicate : config.deduplicate = false) (hlimit : config.errorLimit = 0) :
    history.queue.diagnostics = history.offers.map Offer.diagnostic := by
  have hreached (offer : Offer) (hoffer : offer ∈ history.offers) :
      ¬ offer.queue.Full := by
    simp [Full, h.offered offer hoffer, hlimit]
  have haccepted : history.accepted = history.offers.map Offer.diagnostic := by
    unfold accepted
    rw [List.filter_eq_self.mpr]
    intro offer hoffer
    rw [← Bool.not_eq_false, offer.accepted_eq_false_iff, Offer.Repeats, h.offered offer hoffer,
      hdeduplicate]
    simp [Offer.IsShutOut, hreached offer hoffer]
  have hnone : history.limitReport? = none := by
    simp only [limitReport?, Option.map_eq_none_iff, List.find?_eq_none]
    intro offer hoffer
    simp [Offer.IsShutOut, hreached offer hoffer]
  obtain ⟨before, after, hbooked, hheld⟩ := h.held
  rw [← haccepted, hbooked, hheld, hnone]
  simp

end History

/-! ### Flushing -/

/-- What a flush hands out, and the queue that it leaves. -/
structure FlushesTo (queue : DiagnosticQueue) (reports : List Diagnostic)
    (final : DiagnosticQueue) : Prop where
  perm : reports.Perm queue.diagnostics
  ordered : reports.Pairwise fun first second ↦ first.place.AtMost second.place
  /-- Reports at one place come out in order of arrival. -/
  stable : ∀ span, (reports.filter fun report ↦ report.place = span) =
    queue.diagnostics.filter fun report ↦ report.place = span
  final_eq : final = withConfig queue.config

theorem atMost_trans {first second third : Span} (h : first.AtMost second)
    (h' : second.AtMost third) : first.AtMost third := by
  unfold Span.AtMost at *
  omega

theorem atMost_total (first second : Span) : first.AtMost second ∨ second.AtMost first := by
  unfold Span.AtMost
  omega

theorem flushesTo_flush (queue : DiagnosticQueue) :
    queue.FlushesTo queue.flush.1 queue.flush.2 := by
  have htrans (first second third : Diagnostic) (h : inSourceOrder first second = true)
      (h' : inSourceOrder second third = true) : inSourceOrder first third = true :=
    inSourceOrder_iff.mpr (atMost_trans (inSourceOrder_iff.mp h) (inSourceOrder_iff.mp h'))
  have htotal (first second : Diagnostic) :
      (inSourceOrder first second || inSourceOrder second first) = true := by
    simp only [Bool.or_eq_true, inSourceOrder_iff]
    exact atMost_total first.place second.place
  have hperm := List.mergeSort_perm queue.diagnostics inSourceOrder
  refine ⟨hperm, ?_, fun span ↦ ?_, rfl⟩
  · exact (List.pairwise_mergeSort htrans htotal queue.diagnostics).imp inSourceOrder_iff.mp
  · -- The reports at one place stand in source order already, so sorting keeps their order.
    let here := queue.diagnostics.filter fun report ↦ report.place = span
    have hordered : here.Pairwise fun first second ↦ inSourceOrder first second = true := by
      rw [List.pairwise_iff_forall_sublist]
      intro first second hsublist
      have hplace (report : Diagnostic) (hmem : report ∈ [first, second]) : report.place = span :=
        of_decide_eq_true (List.mem_filter.mp (hsublist.mem hmem)).2
      rw [inSourceOrder_iff, hplace first (by simp), hplace second (by simp)]
      exact .inr ⟨rfl, Nat.le_refl _⟩
    have hsorted := (List.sublist_mergeSort htrans htotal hordered List.filter_sublist).filter
      fun report ↦ report.place = span
    rw [List.filter_filter] at hsorted
    simp only [Bool.and_self] at hsorted
    exact (hsorted.eq_of_length (hperm.filter _).length_eq.symm).symm

/-! ### All calls -/

/-- What holds of a queue after any calls: its books are balanced, its errors are the counted ones
and the report on the limit, a report is dropped for the limit only if it is an error and otherwise
only if it repeats one, and a flush hands out what is queued, by place. -/
theorem accounts_ofCalls (config : QueueConfig) (calls : List Call) :
    let history := History.ofCalls config calls
    history.Balanced config ∧
      history.queue.diagnostics.countP fun report ↦ report.severity = .error =
        history.queue.errorCount + history.limitReport?.toList.length ∧
      (∀ offer ∈ history.offers, offer.accepted = false ↔
        (offer.diagnostic.severity = .error ∧ offer.queue.Full) ∨ offer.Repeats) ∧
      (config.deduplicate = false → config.errorLimit = 0 →
        history.queue.diagnostics = history.offers.map Offer.diagnostic) ∧
      history.queue.FlushesTo history.queue.flush.1 history.queue.flush.2 := by
  intro history
  have hbalanced : history.Balanced config := History.balanced_ofCalls config calls
  refine ⟨hbalanced, hbalanced.countP_severity, ?_, ?_, flushesTo_flush history.queue⟩
  · intro offer _
    exact offer.accepted_eq_false_iff
  · exact hbalanced.diagnostics_eq

/-- A report at a place of one byte. -/
def reportAt (severity : Severity) (start : Nat) (message : String) : Diagnostic :=
  { code := .parallelInSerial
    severity, message
    labels := [{ span := ⟨start, start + 1⟩, message := "here", isPrimary := true }] }

/-- Offers that come in another order than they stand in the source. The third one repeats the
second, and with a limit of two errors the fifth and the sixth are shut out. -/
def limitedCalls : List Call :=
  [.add (reportAt .error 30 "parallel"), .add (reportAt .warning 20 "slow"),
    .add (reportAt .warning 20 "slow"), .emitError (reportAt .error 20 "parallel"),
    .emitError (reportAt .error 25 "parallel"), .add (reportAt .error 10 "parallel"),
    .add { code := .internalFault, severity := .note }]

/-- The queue keeps four reports, and the report on the limit at the place of the first error that
was shut out. The note has no place and is handed out first, and the two reports at byte 20 stay in
their order. -/
theorem accounts_limitedCalls :
    let history := History.ofCalls { errorLimit := 2 } limitedCalls
    let note : Diagnostic := { code := .internalFault, severity := .note }
    let limit : Diagnostic :=
      { code := .tooManyErrors
        severity := .error
        message := "aborting due to 2 previous errors"
        labels := [{ span := ⟨25, 26⟩, message := "error limit reached here", isPrimary := true }] }
    history.Balanced { errorLimit := 2 } ∧
      history.queue.diagnostics.countP (fun report ↦ report.severity = .error) =
        history.queue.errorCount + history.limitReport?.toList.length ∧
      history.queue.errorCount = 2 ∧ history.limitReport? = some limit ∧
      history.accepted = [reportAt .error 30 "parallel", reportAt .warning 20 "slow",
        reportAt .error 20 "parallel", note] ∧
      history.queue.FlushesTo history.queue.flush.1 history.queue.flush.2 ∧
      history.queue.flush.1 = [note, reportAt .warning 20 "slow", reportAt .error 20 "parallel",
        limit, reportAt .error 30 "parallel"] := by
  intro history note limit
  obtain ⟨hbalanced, hcount, -, -, hflushes⟩ := accounts_ofCalls { errorLimit := 2 } limitedCalls
  have hqueued : history.queue.diagnostics = [reportAt .error 30 "parallel",
      reportAt .warning 20 "slow", reportAt .error 20 "parallel", limit, note] := by decide
  have hsorted : history.queue.flush.1 = [note, reportAt .warning 20 "slow",
      reportAt .error 20 "parallel", limit, reportAt .error 30 "parallel"] := by
    rw [flush, hqueued]
    simp [List.mergeSort, List.MergeSort.Internal.splitInTwo, inSourceOrder,
      Diagnostic.primarySpan?, Span.none, reportAt, note, limit]
  exact ⟨hbalanced, hcount, by decide, by decide, by decide, hflushes, hsorted⟩

/-! ### Tokens -/

/-- The report, if it is a repeat, repeats an error. -/
def Offer.RepeatsErrors (offer : Offer) : Prop :=
  offer.Repeats → ∃ queued ∈ offer.queue.diagnostics,
    queued.saying = offer.diagnostic.saying ∧ queued.severity = .error

namespace History

variable {config : QueueConfig} {history : History} {diagnostic : Diagnostic}

/-- Errors are counted where an error is queued. -/
theorem Balanced.errorCount_pos_iff (h : Balanced config history) :
    0 < history.queue.errorCount ↔
      ∃ queued ∈ history.queue.diagnostics, queued.severity = .error := by
  have hqueued : (∃ queued ∈ history.queue.diagnostics, queued.severity = .error) ↔
      0 < history.queue.diagnostics.countP fun report ↦ report.severity = .error := by
    simp [List.countP_pos_iff]
  rw [hqueued, h.countP_severity]
  constructor
  · omega
  · intro hpos
    by_cases hreport : history.limitReport?.isSome = true
    · have hfull := h.full (h.limitReported.trans hreport)
      exact Nat.lt_of_lt_of_le hfull.1 hfull.2
    · simpa [Option.not_isSome_iff_eq_none.mp hreport] using hpos

/-- Every error that was offered is behind a counted error, unless it repeats reports of which none
is an error. -/
def Backed (history : History) : Prop :=
  ∀ offer ∈ history.offers, offer.diagnostic.severity = .error → offer.RepeatsErrors →
    0 < history.queue.errorCount

theorem Backed.offer (hbacked : history.Backed) (h : Balanced config history) :
    (history.record diagnostic (history.queue.add diagnostic).2).Backed := by
  have hanswers := answers_add history.queue diagnostic
  generalize history.queue.add diagnostic = answer at hanswers
  have hmono : history.queue.errorCount ≤ answer.2.errorCount := by
    cases hanswers with
    | accepted => exact Nat.le_add_right _ _
    | _ => exact Nat.le_refl _
  intro offer hoffer herror hrepeats
  simp only [record, List.mem_append, List.mem_singleton] at hoffer
  rcases hoffer with hoffer | rfl
  · exact Nat.lt_of_lt_of_le (hbacked offer hoffer herror hrepeats) hmono
  · have hshut (hshut : (⟨history.queue, diagnostic⟩ : Offer).IsShutOut) :
        0 < history.queue.errorCount :=
      Nat.lt_of_lt_of_le hshut.2.1 hshut.2.2
    cases hanswers with
    | silent hover _ => exact hshut hover
    | reported hover _ => exact hshut hover
    | repeated _ hrepeated =>
      obtain ⟨queued, hqueued, -, hqueuedError⟩ := hrepeats hrepeated
      exact h.errorCount_pos_iff.mpr ⟨queued, hqueued, hqueuedError⟩
    | accepted =>
      have hseverity : diagnostic.severity = .error := herror
      simp [accept, hseverity]

theorem backed_ofCalls (config : QueueConfig) (calls : List Call) :
    (ofCalls config calls).Backed := by
  have hrun (history : History) (h : Balanced config history) (hbacked : history.Backed) :
      (calls.foldl History.next history).Backed := by
    induction calls generalizing history with
    | nil => exact hbacked
    | cons call rest ih =>
      refine ih _ (h.next call) ?_
      cases call with
      | add diagnostic => exact hbacked.offer h
      | emitError diagnostic => exact hbacked.offer h
      | flush => exact fun offer hoffer ↦ absurd hoffer List.not_mem_nil
  exact hrun _ (.new config) fun offer hoffer ↦ absurd hoffer List.not_mem_nil

/-- After an error was offered the queue has errors, unless the error was dropped as a repeat of
warnings and notes. -/
theorem hasErrors?_ofCalls {calls : List Call} {offer : Offer}
    (hoffer : offer ∈ (ofCalls config calls).offers) (herror : offer.diagnostic.severity = .error)
    (hrepeats : offer.RepeatsErrors) :
    (ofCalls config calls).queue.hasErrors? = some {} ∧
      ∃ queued ∈ (ofCalls config calls).queue.diagnostics, queued.severity = .error := by
  have hpos := backed_ofCalls config calls offer hoffer herror hrepeats
  exact ⟨if_pos hpos, (balanced_ofCalls config calls).errorCount_pos_iff.mp hpos⟩

/-- An error that is reported twice is dropped the second time, and its token is backed by the first
report. -/
theorem hasErrors?_reportedTwice :
    let error := reportAt .error 20 "parallel"
    let history := ofCalls {} [.add (reportAt .warning 30 "slow"), .emitError error,
      .emitError error]
    (history.offers.map Offer.accepted = [true, true, false] ∧ history.queue.errorCount = 1) ∧
      history.queue.hasErrors? = some {} ∧
        ∃ queued ∈ history.queue.diagnostics, queued.severity = .error := by
  intro error history
  have hoffer : history.offers[2]? = some ⟨(ofCalls {} [.add (reportAt .warning 30 "slow"),
      .emitError error]).queue, error⟩ := rfl
  exact ⟨⟨by decide, by decide⟩, hasErrors?_ofCalls (List.mem_of_getElem? hoffer) rfl
    fun _ ↦ ⟨error, by decide, rfl, rfl⟩⟩

/-- An error that says what a queued warning says is dropped, and its token is backed by nothing. -/
example :
    let warning : Diagnostic := { code := .onInSerial, severity := .warning, message := "on" }
    let calls : List Call := [.add warning, .emitError { warning with severity := .error }]
    (ofCalls {} calls).queue.hasErrors? = none ∧
      (ofCalls {} calls).queue.diagnostics = [warning] := by
  decide

end History

end DiagnosticQueue

end IteratorLowering
