import Mathlib.Data.List.Forall2
import Mathlib.Logic.Basic
import RetiredCommand.Notice

/-!
# One transfer, one delivery, and many in a row

The loop of a transfer turns in five ways, and each is an equation of its own for
`RetiredCommand.Sink.pour`; a line that is offered whole is taken or not, which makes two
for `RetiredCommand.Sink.place`. A delivery is a transfer and what is made of it: a fault
of the transfer is the error, and without one the flush decides. The two equations
that say so (`RetiredCommand.Sink.deliver_of_fault` and
`RetiredCommand.Sink.deliver_of_complete`) are all that anything else needs to know
about `RetiredCommand.Sink.deliver`.

A run makes deliveries one after another, and a delivery knows of the ones before
it only through the sink they have left. So a run is described by its sinks:
`RetiredCommand.Sink.after` is the sink that so many deliveries leave, and the
delivery at place `i` of a run is the one made to the sink after `i` of them
(`RetiredCommand.Sink.getElem?_deliveries`). What holds in every call of a run is
thereby a fact about one delivery, together with an invariant of the sinks, for
which `RetiredCommand.Sink.after_invariant` is the only induction. For two runs side by
side there is one more, `RetiredCommand.Sink.forall₂_deliveries`.
-/

namespace RetiredCommand

/-! ### How a delivery ends -/

namespace Delivery

/-- All of the line was taken: nothing went wrong, or nothing but the flush. -/
def Reached (d : Delivery) : Prop :=
  d.error? = none ∨ ∃ fault, d.error? = some (.flush fault)

/-- The delivery ended before all of the line was taken. -/
def CutShort (d : Delivery) : Prop :=
  ∃ fault, d.error? = some (.write fault)

/-- A delivery ends in one of the two ways and not in both. -/
theorem reached_iff_not_cutShort (d : Delivery) : d.Reached ↔ ¬d.CutShort := by
  rw [Reached, CutShort]
  rcases d.error? with _ | fault | fault <;> simp

/-- Two deliveries that come to the same, whatever their sinks saw on the way. -/
structure SameOutcome (d e : Delivery) : Prop where
  /-- The results are the same. -/
  error : d.error? = e.error?
  /-- The same bytes are taken. -/
  taken : d.taken = e.taken
  /-- The sinks hold equally much afterwards. -/
  total : d.sink.total = e.sink.total

end Delivery

/-! ### The next step -/

/-- A step is a fault or it is not. -/
theorem Step.fail_or_ne (step : Step) :
    (∃ fault, step = .fail fault) ∨ ∀ fault, step ≠ .fail fault := by
  cases step with
  | fail fault => exact .inl ⟨fault, rfl⟩
  | all => exact .inr fun _ => Step.noConfusion
  | accept => exact .inr fun _ => Step.noConfusion

namespace Sink

/-- What holds of every step of the script, and of the one after its end, holds of the next
step. -/
theorem nextWrite_of_forall {P : Step → Prop} {sink : Sink} (hall : P .all)
    (h : ∀ step ∈ sink.writes, P step) : P sink.nextWrite := by
  rw [nextWrite]
  rcases hw : sink.writes with _ | ⟨step, script⟩
  · exact hall
  · exact h step (hw ▸ List.mem_cons_self)

/-! ### The turns of the loop -/

section Turns

variable {sink : Sink} {bytes : Bytes}

theorem pour_nil (sink : Sink) : sink.pour [] = ⟨none, [], [], sink⟩ := by
  rw [pour, if_pos rfl]

/-- Nothing was taken of an offer. -/
theorem pour_of_took_zero (hb : bytes ≠ []) (h : (sink.write bytes).1 = .took 0) :
    sink.pour bytes = ⟨some .nothingTaken, [.write bytes.length (.took 0)], [],
      (sink.write bytes).2⟩ := by
  rw [pour, if_neg hb]
  split <;> simp_all

/-- A part was taken, and the rest is offered. -/
theorem pour_of_took_succ (hb : bytes ≠ []) {n : Nat} (h : (sink.write bytes).1 = .took (n + 1)) :
    sink.pour bytes = ((sink.write bytes).2.pour (bytes.drop (n + 1))).after
      (.write bytes.length (.took (n + 1))) (bytes.take (n + 1)) := by
  rw [pour, if_neg hb]
  split <;> simp_all

/-- The offer was interrupted, and is made again. -/
theorem pour_of_interruption (hb : bytes ≠ []) {fault : Fault}
    (h : (sink.write bytes).1 = .failed fault) (hf : fault.IsInterruption) :
    sink.pour bytes = ((sink.write bytes).2.pour bytes).after
      (.write bytes.length (.failed fault)) [] := by
  rw [pour, if_neg hb]
  split <;> simp_all

/-- The offer failed for another reason. -/
theorem pour_of_fault (hb : bytes ≠ []) {fault : Fault}
    (h : (sink.write bytes).1 = .failed fault) (hf : ¬fault.IsInterruption) :
    sink.pour bytes = ⟨some fault, [.write bytes.length (.failed fault)], [],
      (sink.write bytes).2⟩ := by
  rw [pour, if_neg hb]
  split <;> simp_all

end Turns

variable {sink : Sink} {line : Bytes}

/-! ### A line offered whole -/

/-- The step is a fault: nothing is taken. -/
theorem place_of_fault {fault : Fault} (h : sink.nextWrite = .fail fault) (line : Bytes) :
    sink.place line = ⟨some fault, [.writeAll line.length (.failed fault)], [], sink.refuse⟩ := by
  simp only [place, writeWhole, h]

/-- The step is any other: the whole line is taken, whatever the limit of the step. -/
theorem place_of_not_fault (h : ∀ fault, sink.nextWrite ≠ .fail fault) (line : Bytes) :
    sink.place line =
      ⟨none, [.writeAll line.length (.took line.length)], line, sink.take line⟩ := by
  rcases hn : sink.nextWrite with _ | limit | fault
  · simp only [place, writeWhole, hn, List.take_length]
  · simp only [place, writeWhole, hn, List.take_length]
  · exact absurd hn (h fault)

/-! ### The two ways of offering -/

theorem transfer_of_piecemeal {capacity? : Option Nat} (hs : sink.intake = .piecemeal capacity?)
    (line : Bytes) : sink.transfer line = sink.pour line := by
  simp only [transfer, hs]

theorem transfer_of_whole (hs : sink.intake = .whole) (line : Bytes) :
    sink.transfer line = sink.place line := by
  simp only [transfer, hs]

/-! ### One delivery -/

/-- A transfer that failed is the whole delivery, and its fault is the error. -/
theorem deliver_of_fault {fault : Fault} (h : (sink.transfer line).fault? = some fault) :
    sink.deliver line = ⟨some (.write fault), (sink.transfer line).events,
      (sink.transfer line).taken, (sink.transfer line).sink⟩ := by
  simp only [deliver, h]

/-- A transfer that did not fail is followed by one flush, which decides. -/
theorem deliver_of_complete (h : (sink.transfer line).fault? = none) :
    sink.deliver line = ⟨(sink.transfer line).sink.flush.1.map .flush,
      (sink.transfer line).events ++ [.flush (sink.transfer line).sink.flush.1],
      (sink.transfer line).taken, (sink.transfer line).sink.flush.2⟩ := by
  simp only [deliver, h]

/-- Two deliveries differ as their transfers do, if a flush has no part in the difference. -/
theorem deliver_of_transfer {other : Sink} {f : List Event → List Event} {g : Sink → Sink}
    (hf : ∀ events fault?, f (events ++ [.flush fault?]) = f events ++ [.flush fault?])
    (hg : ∀ s, (g s).flush = (s.flush.1, g s.flush.2))
    (h : other.transfer line = { sink.transfer line with
      events := f (sink.transfer line).events
      sink := g (sink.transfer line).sink }) :
    other.deliver line = { sink.deliver line with
      events := f (sink.deliver line).events
      sink := g (sink.deliver line).sink } := by
  have hsame : (other.transfer line).fault? = (sink.transfer line).fault? := by rw [h]
  rcases hfault : (sink.transfer line).fault? with _ | fault
  · rw [deliver_of_complete hfault, deliver_of_complete (hsame.trans hfault), h]
    simp only [hf, hg]
  · rw [deliver_of_fault hfault, deliver_of_fault (hsame.trans hfault), h]

/-- What was taken in a delivery was taken in its transfer. -/
theorem taken_deliver (sink : Sink) (line : Bytes) :
    (sink.deliver line).taken = (sink.transfer line).taken := by
  rcases h : (sink.transfer line).fault? with _ | fault
  · rw [deliver_of_complete h]
  · rw [deliver_of_fault h]

/-- The error of a delivery is a fault of its transfer, or one of the flush. -/
theorem error?_deliver_eq_write_iff {fault : Fault} :
    (sink.deliver line).error? = some (.write fault) ↔
      (sink.transfer line).fault? = some fault := by
  rcases h : (sink.transfer line).fault? with _ | cause
  · rw [deliver_of_complete h]
    cases (sink.transfer line).sink.flush.1 <;> simp
  · rw [deliver_of_fault h]
    simp

/-- A delivery is cut short exactly if its transfer failed. -/
theorem cutShort_deliver_iff :
    (sink.deliver line).CutShort ↔ (sink.transfer line).fault? ≠ none := by
  rw [Delivery.CutShort, Option.ne_none_iff_exists']
  exact exists_congr fun _ => error?_deliver_eq_write_iff

theorem reached_deliver_iff :
    (sink.deliver line).Reached ↔ (sink.transfer line).fault? = none := by
  rw [Delivery.reached_iff_not_cutShort, cutShort_deliver_iff, not_not]

/-- A line that is offered whole and refused is not flushed. -/
theorem deliver_of_refused (hs : sink.intake = .whole) {fault : Fault}
    (h : sink.nextWrite = .fail fault) (line : Bytes) :
    sink.deliver line =
      ⟨some (.write fault), [.writeAll line.length (.failed fault)], [], sink.refuse⟩ := by
  have ht := transfer_of_whole hs line
  rw [place_of_fault h] at ht
  rw [deliver_of_fault (by rw [ht]), ht]

/-- A line that is offered whole and taken is flushed once. -/
theorem deliver_of_not_refused (hs : sink.intake = .whole)
    (h : ∀ fault, sink.nextWrite ≠ .fail fault) (line : Bytes) :
    sink.deliver line =
      ⟨sink.flush.1.map .flush,
        [.writeAll line.length (.took line.length), .flush sink.flush.1], line,
        (sink.take line).flush.2⟩ := by
  have ht := transfer_of_whole hs line
  rw [place_of_not_fault h] at ht
  rw [deliver_of_complete (by rw [ht]), ht]
  rfl

/-! ### The sinks of a run -/

/-- The sink that so many deliveries of a line in a row leave. -/
def after (sink : Sink) (line : Bytes) : Nat → Sink
  | 0 => sink
  | n + 1 => (sink.deliver line).sink.after line n

/-- The last delivery of a run leaves the sink that the run leaves. -/
theorem sink_deliver_after (sink : Sink) (line : Bytes) (n : Nat) :
    ((sink.after line n).deliver line).sink = sink.after line (n + 1) := by
  induction n generalizing sink with
  | zero => rfl
  | succ n ih => exact ih (sink.deliver line).sink

/-- **What every delivery keeps, a run keeps.** -/
theorem after_invariant {P : Sink → Prop} (hstep : ∀ s, P s → P (s.deliver line).sink)
    (h : P sink) (n : Nat) : P (sink.after line n) := by
  induction n generalizing sink with
  | zero => exact h
  | succ n ih => exact ih (hstep sink h)

theorem length_deliveries (sink : Sink) (line : Bytes) (times : Nat) :
    (sink.deliveries line times).length = times := by
  induction times generalizing sink with
  | zero => rfl
  | succ n ih => rw [deliveries, List.length_cons, ih]

/-- **The deliveries of a run**: the one at place `i` is made to the sink that the
`i` before it have left. -/
theorem getElem?_deliveries {times i : Nat} (h : i < times) :
    (sink.deliveries line times)[i]? = some ((sink.after line i).deliver line) := by
  induction times generalizing sink i with
  | zero => exact absurd h (Nat.not_lt_zero i)
  | succ n ih =>
    cases i with
    | zero => rfl
    | succ i => exact ih (Nat.lt_of_succ_lt_succ h)

/-- A delivery found in a run is known by its place. -/
theorem eq_deliver_of_getElem? {times i : Nat} {d : Delivery}
    (h : (sink.deliveries line times)[i]? = some d) :
    i < times ∧ d = (sink.after line i).deliver line := by
  have hi : i < times := by
    rw [← length_deliveries sink line times]
    exact (List.getElem?_eq_some_iff.mp h).1
  rw [getElem?_deliveries hi] at h
  exact ⟨hi, (Option.some.inj h).symm⟩

theorem exists_eq_deliver_of_mem {times : Nat} {d : Delivery}
    (h : d ∈ sink.deliveries line times) :
    ∃ i, i < times ∧ d = (sink.after line i).deliver line := by
  obtain ⟨i, hi⟩ := List.mem_iff_getElem?.mp h
  exact ⟨i, eq_deliver_of_getElem? hi⟩

/-- The shorter run is the beginning of the longer one. -/
theorem take_deliveries {times i : Nat} (h : i ≤ times) :
    (sink.deliveries line times).take i = sink.deliveries line i := by
  induction i generalizing sink times with
  | zero => rfl
  | succ i ih =>
    obtain ⟨n, rfl⟩ : ∃ n, times = n + 1 := ⟨times - 1, by omega⟩
    rw [deliveries, deliveries, List.take_succ_cons, ih (Nat.le_of_succ_le_succ h)]

/-- **Two runs in lockstep**: sinks that agree make deliveries that agree, and go on
agreeing, so they do all along. -/
theorem forall₂_deliveries {R : Sink → Sink → Prop} {Q : Delivery → Delivery → Prop}
    (hstep : ∀ s t, R s t → Q (s.deliver line) (t.deliver line) ∧
      R (s.deliver line).sink (t.deliver line).sink)
    {other : Sink} (h : R sink other) (times : Nat) :
    List.Forall₂ Q (sink.deliveries line times) (other.deliveries line times) := by
  induction times generalizing sink other with
  | zero => exact .nil
  | succ n ih =>
    obtain ⟨hnow, hnext⟩ := hstep sink other h
    exact .cons hnow (ih hnext)

end Sink

end RetiredCommand
