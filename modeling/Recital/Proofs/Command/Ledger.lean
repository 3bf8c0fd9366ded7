import Recital.Command.Ledger
import Recital.Playback.Flow
import Recital.Proofs.Policy.Backoff
import Recital.Proofs.Script.Labels

/-!
# Statistics balance

An execution of a command ends in one of five ways: with a result, with a failure of its own, with
the report that it was cancelled, by its time limit, or by the cancellation of its playback.
Whichever it is, it is counted once among the executions of its type and once among the successes,
the failures or the cancellations.

What the totals of a type have to do with each other, and with the executions that they are about,
is said by `Stats.Balanced`.  One more execution keeps it so (`Stats.Balanced.record`), and a reset
starts with no execution at all; so the statistics of every type balance after any executions and
resets, one after the other (`Ledger.balanced_after`).
-/

namespace Recital

/-! ### Executions -/

/-- An execution of a command that has ended. -/
structure Execution where
  /-- The type of the command. -/
  type : String
  /-- How long the execution took. -/
  elapsed : Span
  /-- How it ended. -/
  result : Except Failure Flow

namespace Execution

/-- The command has done its work. -/
def succeeded (e : Execution) : Bool :=
  match e.result with
  | .ok _ => true
  | .error _ => false

/-- The command has failed, or it took longer than allowed. -/
def failed (e : Execution) : Bool :=
  match e.result with
  | .ok _ | .error .cancelled => false
  | .error _ => true

/-- The execution was cancelled. -/
def wasCancelled (e : Execution) : Bool :=
  match e.result with
  | .error .cancelled => true
  | _ => false

/-- The execution took longer than allowed. -/
def wasLate (e : Execution) : Bool :=
  match e.result with
  | .error (.timedOut _) => true
  | _ => false

/-- An execution comes out in one way. -/
lemma one_outcome (e : Execution) :
    (if e.succeeded then 1 else 0) + (if e.failed then 1 else 0) +
      (if e.wasCancelled then 1 else 0) = 1 := by
  obtain ⟨type, elapsed, result⟩ := e
  cases result with
  | ok flow => rfl
  | error failure => cases failure <;> rfl

/-- An execution that was late has failed. -/
lemma late_le_failed (e : Execution) :
    (if e.wasLate then 1 else 0) ≤ if e.failed then 1 else 0 := by
  obtain ⟨type, elapsed, result⟩ := e
  cases result with
  | ok flow => exact Nat.le_refl _
  | error failure =>
    cases failure with
    | timedOut elapsed => exact Nat.le_refl _
    | _ => exact Nat.zero_le _

end Execution

/-! ### The totals of one type -/

namespace Stats

variable {s : Stats} {done : List Execution}

/-- The totals are those of the given executions, and they agree with each other.  Times are added
up however long they get. -/
structure Balanced (s : Stats) (done : List Execution) : Prop where
  executions : s.executions = done.length
  successes : s.successes = done.countP Execution.succeeded
  failures : s.failures = done.countP Execution.failed
  cancellations : s.cancellations = done.countP Execution.wasCancelled
  timeouts : s.timeouts = done.countP Execution.wasLate
  total : s.totalElapsed.nanos = (done.map (·.elapsed.nanos)).sum
  longest : s.maxElapsed.nanos = (done.map (·.elapsed.nanos)).foldl max 0
  /-- Every execution has come out in one of three ways. -/
  outcomes : s.executions = s.successes + s.failures + s.cancellations
  timeouts_le : s.timeouts ≤ s.failures
  longest_le : s.maxElapsed.nanos ≤ s.totalElapsed.nanos
  total_le : s.totalElapsed.nanos ≤ s.executions * s.maxElapsed.nanos
  /-- The average is rounded down to whole nanoseconds, at most a word of them. -/
  average : s.average.nanos = min (s.totalElapsed.nanos / s.executions) (2 ^ 64 - 1)
  average_le : s.average.nanos ≤ s.maxElapsed.nanos

lemma average_eq (s : Stats) :
    s.average.nanos = min (s.totalElapsed.nanos / s.executions) (2 ^ 64 - 1) := by
  unfold Stats.average
  split
  · next hnone => simp [hnone, Span.zero]
  · rw [← Word.wordMax_eq]

/-- No average exceeds the longest time. -/
lemma average_le_of_total (h : s.totalElapsed.nanos ≤ s.executions * s.maxElapsed.nanos) :
    s.average.nanos ≤ s.maxElapsed.nanos := by
  rw [average_eq]
  apply Nat.le_trans (Nat.min_le_left _ _)
  apply Nat.div_le_of_le_mul
  exact h

lemma balanced_empty : Balanced {} [] := by
  constructor <;> decide

/-- The times after one more execution, whatever its result. -/
lemma record_times (s : Stats) (elapsed : Span) (result : Except Failure Flow) :
    (s.record elapsed result).executions = s.executions + 1 ∧
      (s.record elapsed result).totalElapsed.nanos = s.totalElapsed.nanos + elapsed.nanos ∧
      (s.record elapsed result).maxElapsed.nanos = max s.maxElapsed.nanos elapsed.nanos := by
  unfold record
  split <;> exact ⟨rfl, rfl, rfl⟩

/-- The outcomes after one more execution: it is counted once, by its result. -/
lemma record_outcomes (s : Stats) (e : Execution) :
    (s.record e.elapsed e.result).successes = s.successes + (if e.succeeded then 1 else 0) ∧
      (s.record e.elapsed e.result).failures = s.failures + (if e.failed then 1 else 0) ∧
      (s.record e.elapsed e.result).cancellations =
        s.cancellations + (if e.wasCancelled then 1 else 0) ∧
      (s.record e.elapsed e.result).timeouts = s.timeouts + (if e.wasLate then 1 else 0) := by
  obtain ⟨type, elapsed, result⟩ := e
  cases result with
  | ok flow => exact ⟨rfl, rfl, rfl, rfl⟩
  | error failure => cases failure <;> exact ⟨rfl, rfl, rfl, rfl⟩

/-- One more execution keeps the balance. -/
lemma Balanced.record (h : s.Balanced done) (e : Execution) :
    (s.record e.elapsed e.result).Balanced (done ++ [e]) := by
  obtain ⟨hexecutions, htotal, hmax⟩ := s.record_times e.elapsed e.result
  obtain ⟨hsuccesses, hfailures, hcancellations, htimeouts⟩ := s.record_outcomes e
  have hcount : ∀ kind : Execution → Bool,
      (done ++ [e]).countP kind = done.countP kind + if kind e then 1 else 0 := by
    intro kind
    rw [List.countP_append, List.countP_singleton]
  have htotal_le : (s.record e.elapsed e.result).totalElapsed.nanos ≤
      (s.record e.elapsed e.result).executions *
      (s.record e.elapsed e.result).maxElapsed.nanos := by
    rw [htotal, hexecutions, hmax]
    -- Every execution takes at most the new longest time, the earlier ones and this one.
    have hearlier : s.executions * s.maxElapsed.nanos ≤
        s.executions * max s.maxElapsed.nanos e.elapsed.nanos :=
      Nat.mul_le_mul_left _ (Nat.le_max_left _ _)
    calc s.totalElapsed.nanos + e.elapsed.nanos
        ≤ s.executions * max s.maxElapsed.nanos e.elapsed.nanos +
            max s.maxElapsed.nanos e.elapsed.nanos :=
          Nat.add_le_add (Nat.le_trans h.total_le hearlier) (Nat.le_max_right _ _)
      _ = (s.executions + 1) * max s.maxElapsed.nanos e.elapsed.nanos :=
          (Nat.succ_mul _ _).symm
  constructor
  · rw [hexecutions, h.executions, List.length_append, List.length_singleton]
  · rw [hsuccesses, h.successes, hcount]
  · rw [hfailures, h.failures, hcount]
  · rw [hcancellations, h.cancellations, hcount]
  · rw [htimeouts, h.timeouts, hcount]
  · rw [htotal, h.total, List.map_append, List.sum_append, List.map_singleton, List.sum_singleton]
  · rw [hmax, h.longest, List.map_append, List.foldl_append]
    rfl
  · have houtcomes := h.outcomes
    have hone := e.one_outcome
    omega
  · rw [htimeouts, hfailures]
    exact Nat.add_le_add h.timeouts_le e.late_le_failed
  · rw [hmax, htotal]
    apply Nat.max_le.mpr
    have hlongest := h.longest_le
    omega
  · exact htotal_le
  · exact average_eq _
  · exact average_le_of_total htotal_le

end Stats

/-! ### All types -/

namespace Ledger

variable {l : Ledger} {type : String}

/-- What the statistics are kept by. -/
inductive Entry
  /-- An execution has ended. -/
  | execution (e : Execution)
  /-- All statistics are dropped. -/
  | reset

/-- Makes an entry. -/
def enter (l : Ledger) : Entry → Ledger
  | .execution e => l.record e.type e.elapsed e.result
  | .reset => {}

/-- The statistics after some entries, the latest last. -/
def after (entries : List Entry) : Ledger := entries.foldl enter {}

/-- The executions since the last reset. -/
def sinceReset (entries : List Entry) : List Execution :=
  entries.foldl
    (fun done entry =>
      match entry with
      | .execution e => done ++ [e]
      | .reset => [])
    []

/-- An execution counts for its own type only. -/
lemma stats_enter (e : Execution) : (l.enter (.execution e)).stats type =
    if type = e.type then (l.stats type).record e.elapsed e.result else l.stats type := by
  simp only [enter, record, stats, Table.get?_insert]
  split
  · next heq => rw [heq, Option.getD_some]
  · rfl

lemma after_concat (entries : List Entry) (entry : Entry) :
    after (entries ++ [entry]) = (after entries).enter entry := by
  simp [after]

/-- The statistics of a type balance after any executions and resets: they are those of the
executions of the type since the last reset. -/
theorem balanced_after (entries : List Entry) (type : String) :
    ((after entries).stats type).Balanced ((sinceReset entries).filter (·.type = type)) := by
  induction entries using List.reverseRecOn with
  | nil => exact Stats.balanced_empty
  | append_singleton entries entry ih =>
    rw [after_concat]
    cases entry with
    | reset =>
      have hnone : sinceReset (entries ++ [.reset]) = [] := by simp [sinceReset]
      rw [hnone]
      exact Stats.balanced_empty
    | execution e =>
      have hone : sinceReset (entries ++ [.execution e]) = sinceReset entries ++ [e] := by
        simp [sinceReset]
      rw [hone, List.filter_append, List.filter_singleton, stats_enter]
      by_cases htype : type = e.type
      · rw [if_pos htype, decide_eq_true htype.symm]
        exact ih.record e
      · rw [if_neg htype, decide_eq_false (Ne.symm htype), cond_false, List.append_nil]
        exact ih

/-- Without a reset, all executions count. -/
lemma sinceReset_map (done : List Execution) : sinceReset (done.map .execution) = done := by
  induction done using List.reverseRecOn with
  | nil => rfl
  | append_singleton done e ih =>
    rw [List.map_append, sinceReset, List.foldl_append]
    exact congrArg (· ++ [e]) ih

end Ledger

end Recital
