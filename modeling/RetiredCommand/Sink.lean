import RetiredCommand.Fault
import RetiredCommand.Utf8

/-!
# Sinks

A **sink** is where bytes are sent: a stream, a pipe, a full disk. What a real one
does next cannot be known, so a sink here carries its own future: a finite script
of `RetiredCommand.Step`s, one for each offer that will be made to it, and one of
outcomes for its flushes. When a script has run out, every further step is the
good one. Whatever a stream does to a program in finitely many steps is done by
some sink, and that is all that a statement about every stream needs.

There are two ways of taking bytes in (`RetiredCommand.Intake`). A *piecemeal*
sink takes as much of an offer as the step and its capacity let it, perhaps
nothing at all; a sink that takes a line *whole* takes all of it or refuses it.

Nothing here repeats an offer or gives up: that is the business of whoever makes
the offers, see `RetiredCommand.Sink.deliver`.
-/

namespace RetiredCommand

/-! ### Scripts -/

/-- What a sink does with one offer. -/
inductive Step
  /-- It takes everything. -/
  | all
  /-- It takes so many bytes at most. -/
  | accept (limit : Nat)
  /-- It takes nothing and gives a reason. -/
  | fail (fault : Fault)
  deriving DecidableEq, Repr

/-- What a sink answers to one offer. -/
inductive Reply
  /-- It has taken so many bytes from the front. -/
  | took (count : Nat)
  /-- It has taken nothing, for this reason. -/
  | failed (fault : Fault)
  deriving DecidableEq, Repr

/-- What a step answers to an offer of `offered` bytes while there is room. -/
def Step.reply (offered : Nat) : Step → Reply
  | all => .took offered
  | accept limit => .took (min limit offered)
  | fail fault => .failed fault

/-- The script in which each step stands as often as the number beside it says. -/
def scriptOfRuns {α : Type} (runs : List (α × Nat)) : List α :=
  runs.flatMap fun run => List.replicate run.2 run.1

/-! ### Sinks -/

/-- The ways of taking bytes in. -/
inductive Intake
  /-- As much of each offer as fits, up to `capacity` bytes in all offers
  together. -/
  | piecemeal (capacity : Option Nat)
  /-- A line at a time, and never a part of one. -/
  | whole
  deriving DecidableEq, Repr

/-- A sink: how it takes bytes in, what it will do, and what it holds. -/
structure Sink where
  /-- The way of taking bytes in. -/
  intake : Intake := .piecemeal none
  /-- The steps for the offers to come, the next one first. -/
  writes : List Step := []
  /-- The outcomes of the flushes to come, the next one first: a fault, or none. -/
  flushes : List (Option Fault) := []
  /-- What was taken so far, offer by offer, the last one first. -/
  received : List Bytes := []
  deriving DecidableEq, Repr

namespace Sink

/-- The bytes a sink holds, in the order in which they were taken. -/
def held (sink : Sink) : Bytes :=
  sink.received.reverse.flatten

/-- How many bytes a sink holds. -/
def total (sink : Sink) : Nat :=
  -- the zero is spelled out, as more than one is found once there is algebra in scope
  @List.sum Nat _ ⟨0⟩ (sink.received.map List.length)

theorem length_held (sink : Sink) : sink.held.length = sink.total := by
  rw [held, List.length_flatten, List.map_reverse, List.sum_reverse]
  rfl

/-- The step for the next offer. -/
def nextWrite (sink : Sink) : Step :=
  sink.writes.headD .all

/-- How many of `count` bytes there is room for. -/
def fit (sink : Sink) (count : Nat) : Nat :=
  match sink.intake with
  | .piecemeal (some capacity) => min count (capacity - sink.total)
  | _ => count

/-- The sink after a step in which it took `bytes`. -/
def take (sink : Sink) (bytes : Bytes) : Sink :=
  { sink with writes := sink.writes.tail, received := bytes :: sink.received }

/-- The sink after a step in which it failed. -/
def refuse (sink : Sink) : Sink :=
  { sink with writes := sink.writes.tail }

/-- Offer bytes to a sink, of which it takes as many from the front as the step
and its capacity let it. -/
def write (sink : Sink) (offer : Bytes) : Reply × Sink :=
  match sink.nextWrite.reply offer.length with
  | .took count => (.took (sink.fit count), sink.take (offer.take (sink.fit count)))
  | .failed fault => (.failed fault, sink.refuse)

/-- Offer a line to a sink that takes it whole: unless the step fails, all of it is
taken, whatever limit the step has. -/
def writeWhole (sink : Sink) (line : Bytes) : Reply × Sink :=
  match sink.nextWrite with
  | .fail fault => (.failed fault, sink.refuse)
  | _ => (.took line.length, sink.take line)

/-- Flush a sink. -/
def flush (sink : Sink) : Option Fault × Sink :=
  (sink.flushes.headD none, { sink with flushes := sink.flushes.tail })

/-! ### What one offer does -/

@[simp] theorem held_take (sink : Sink) (bytes : Bytes) :
    (sink.take bytes).held = sink.held ++ bytes := by
  simp [held, take]

@[simp] theorem total_take (sink : Sink) (bytes : Bytes) :
    (sink.take bytes).total = sink.total + bytes.length := by
  rw [← length_held, held_take, List.length_append, length_held]

/-- One offer uses up one step of the script, if there is one left. -/
theorem writes_write (sink : Sink) (offer : Bytes) :
    (sink.write offer).2.writes = sink.writes.tail := by
  unfold write
  split <;> rfl

theorem length_writes_write_le (sink : Sink) (offer : Bytes) :
    (sink.write offer).2.writes.length ≤ sink.writes.length := by
  rw [writes_write, List.length_tail]
  exact Nat.sub_le _ _

/-- A fault is always one of the script's: a script that has run out gives none. -/
theorem length_writes_write_lt {sink : Sink} {offer : Bytes} {fault : Fault}
    (h : (sink.write offer).1 = .failed fault) :
    (sink.write offer).2.writes.length < sink.writes.length := by
  rw [writes_write, List.length_tail]
  match hw : sink.writes with
  | [] => simp [write, nextWrite, hw, Step.reply] at h
  | _ :: _ => simp

end Sink

end RetiredCommand
