import RetiredCommand.Sink

/-!
# Delivering a line

To **deliver** a line to a sink is to offer it until all of it is taken, and then
to flush the sink once. This file says what comes of it, and keeps what the sink
saw on the way.

The offers follow one rule, `RetiredCommand.Sink.pour`. What is left is offered
again after a part was taken, and after an interruption. Anything else ends the
delivery: a fault of another kind, and an offer of which nothing was taken, which
is a fault too since the next offer would be the same. A sink that takes lines
whole is offered the line once, and there its first answer is the last: even an
interruption is not waited out.

A flush is made only for a line that was taken to its last byte, and it is made
once. If it fails then the line has been taken nevertheless; the two ways of
failing are told apart by `RetiredCommand.DeliveryError`.
-/

namespace RetiredCommand

/-! ### Offering until all is taken -/

/-- What a sink sees happen to it. -/
inductive Event
  /-- So many bytes are offered, and it answers. -/
  | write (offered : Nat) (reply : Reply)
  /-- A line of so many bytes is offered whole, and it answers. -/
  | writeAll (offered : Nat) (reply : Reply)
  /-- It is flushed, and that fails or not. -/
  | flush (fault? : Option Fault)
  deriving DecidableEq, Repr

/-- What came of offering bytes until they are taken: the fault that ended it, if
one did, what the sink saw, the bytes it took, and the sink afterwards. -/
structure Transfer where
  /-- The fault that ended it before everything was taken. -/
  fault? : Option Fault
  /-- What the sink saw, in order. -/
  events : List Event
  /-- The bytes that were taken. -/
  taken : Bytes
  /-- The sink afterwards. -/
  sink : Sink
  deriving DecidableEq, Repr

/-- A transfer that came after one more offer, of which `bytes` were taken. -/
def Transfer.after (event : Event) (bytes : Bytes) (t : Transfer) : Transfer :=
  { t with events := event :: t.events, taken := bytes ++ t.taken }

namespace Sink

/-- Offer bytes **piece by piece until all are taken**. Each turn of the loop uses
up a step of the script or takes a byte, so the loop ends. -/
def pour (sink : Sink) (bytes : Bytes) : Transfer :=
  if bytes = [] then ⟨none, [], [], sink⟩
  else
    let next := (sink.write bytes).2
    match h : (sink.write bytes).1 with
    | .took 0 => ⟨some .nothingTaken, [.write bytes.length (.took 0)], [], next⟩
    | .took (n + 1) =>
      (next.pour (bytes.drop (n + 1))).after (.write bytes.length (.took (n + 1)))
        (bytes.take (n + 1))
    | .failed fault =>
      if fault.IsInterruption then
        (next.pour bytes).after (.write bytes.length (.failed fault)) []
      else ⟨some fault, [.write bytes.length (.failed fault)], [], next⟩
termination_by sink.writes.length + bytes.length
decreasing_by
  · -- a part was taken: less is left to offer
    have hw := sink.length_writes_write_le bytes
    have hb : 0 < bytes.length := List.length_pos_iff.mpr (by assumption)
    rw [List.length_drop]
    exact Nat.add_lt_add_of_le_of_lt hw (Nat.sub_lt hb (Nat.succ_pos n))
  · -- an interruption: it was one of the script's, and is used up
    exact Nat.add_lt_add_right (length_writes_write_lt h) _

/-- Offer a line whole, once. -/
def place (sink : Sink) (line : Bytes) : Transfer :=
  let next := (sink.writeWhole line).2
  match (sink.writeWhole line).1 with
  | .took count =>
    ⟨none, [.writeAll line.length (.took count)], line.take count, next⟩
  | .failed fault => ⟨some fault, [.writeAll line.length (.failed fault)], [], next⟩

/-- Offer a line in the way the sink takes bytes in. -/
def transfer (sink : Sink) (line : Bytes) : Transfer :=
  match sink.intake with
  | .piecemeal _ => sink.pour line
  | .whole => sink.place line

end Sink

/-! ### Delivering -/

/-- Why a delivery failed. The sink is the standard error stream. -/
inductive DeliveryError
  /-- Not all of the line was taken. -/
  | write (fault : Fault)
  /-- All of it was taken, and the flush failed. -/
  | flush (fault : Fault)
  deriving DecidableEq, Repr

namespace DeliveryError

/-- The fault behind the error. -/
def fault : DeliveryError → Fault
  | write fault => fault
  | flush fault => fault

/-- The error as a message. -/
def message : DeliveryError → String
  | write fault => "cannot write to stderr: " ++ fault.text
  | flush fault => "cannot flush stderr: " ++ fault.text

end DeliveryError

/-- What came of delivering a line: why it failed, if it did, what the sink saw,
the bytes it took, and the sink afterwards. -/
structure Delivery where
  /-- The error, if there was one. -/
  error? : Option DeliveryError
  /-- What the sink saw, in order. -/
  events : List Event
  /-- The bytes that were taken. -/
  taken : Bytes
  /-- The sink afterwards. -/
  sink : Sink
  deriving DecidableEq, Repr

namespace Sink

/-- Deliver **a line**: offer it, and if all of it was taken, flush. -/
def deliver (sink : Sink) (line : Bytes) : Delivery :=
  let t := sink.transfer line
  match t.fault? with
  | some fault => ⟨some (.write fault), t.events, t.taken, t.sink⟩
  | none =>
    let fault? := t.sink.flush.1
    ⟨fault?.map .flush, t.events ++ [.flush fault?], t.taken, t.sink.flush.2⟩

/-- Deliver a line so many times in a row, each time to the sink that the time
before has left. -/
def deliveries (sink : Sink) (line : Bytes) : Nat → List Delivery
  | 0 => []
  | n + 1 =>
    let d := sink.deliver line
    d :: d.sink.deliveries line n

end Sink

end RetiredCommand
