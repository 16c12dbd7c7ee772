import RetiredCommand.Proofs.Interruption

/-!
# A line offered whole and a line offered in pieces

A sink that takes lines whole is offered a line once, and one that takes them piecemeal
is offered what is left of it until nothing is. This file compares the two ways of
offering, and says where they part.

They do the same to a sink that has no reason to take a part: one without a capacity and
with no limit in any step of its script. Such a sink takes all of a line at the first
offer or fails, and so does the one that takes lines whole, whatever limits its script has.
To take the limits out (`RetiredCommand.Sink.inPieces`) is therefore to get the same run,
with each offer of a whole line seen as one of a piece, as long as the script has no
interruption in it.

An interruption is where they part, for a whole line is not offered again. Each delivery to
such a sink uses up one step, so the delivery at place `i` of a run is decided by the step
at place `i` of the script, and any fault there is its result.
-/

namespace RetiredCommand

/-- A step that takes all of an offer, or fails as it did. -/
def Step.withoutLimit : Step → Step
  | accept _ => all
  | step => step

/-- The event, with an offer of a whole line seen as one of a piece. -/
def Event.ofPiece : Event → Event
  | writeAll offered reply => write offered reply
  | event => event

/-- A delivery of a whole line, and one of its pieces that comes to the same. -/
structure Delivery.SameInPieces (d e : Delivery) : Prop extends d.SameOutcome e where
  /-- The same offers and flushes are seen, those of the whole line as of a piece. -/
  events : d.events.map Event.ofPiece = e.events

namespace Sink

/-- The sink that takes lines piecemeal, without a capacity and without the limits of the
script. -/
def inPieces (sink : Sink) : Sink :=
  { sink with intake := .piecemeal none, writes := sink.writes.map Step.withoutLimit }

variable {sink : Sink} {line : Bytes}

/-! ### One offer -/

theorem nextWrite_inPieces (sink : Sink) :
    sink.inPieces.nextWrite = sink.nextWrite.withoutLimit := by
  rw [nextWrite, nextWrite, inPieces]
  rcases sink.writes with _ | ⟨step, script⟩ <;> rfl

theorem inPieces_take (sink : Sink) (bytes : Bytes) :
    sink.inPieces.take bytes = (sink.take bytes).inPieces := by
  simp only [take, inPieces, List.map_tail]

theorem inPieces_refuse (sink : Sink) : sink.inPieces.refuse = sink.refuse.inPieces := by
  simp only [refuse, inPieces, List.map_tail]

/-- A sink without limits fails at an offer if its step is a fault. -/
theorem write_inPieces_of_fault {fault : Fault} (h : sink.nextWrite = .fail fault)
    (offer : Bytes) : sink.inPieces.write offer = (.failed fault, sink.refuse.inPieces) := by
  have hn := nextWrite_inPieces sink
  rw [h] at hn
  simp only [write, hn, Step.withoutLimit, Step.reply, inPieces_refuse]

/-- Else it takes all of the offer. -/
theorem write_inPieces_of_not_fault (h : ∀ fault, sink.nextWrite ≠ .fail fault)
    (offer : Bytes) :
    sink.inPieces.write offer = (.took offer.length, (sink.take offer).inPieces) := by
  have hn : sink.inPieces.nextWrite = .all := by
    rw [nextWrite_inPieces]
    rcases hw : sink.nextWrite with _ | limit | fault
    · rfl
    · rfl
    · exact absurd hw (h fault)
  have hfit : sink.inPieces.fit offer.length = offer.length := rfl
  simp only [write, hn, Step.reply, hfit, List.take_length, inPieces_take]

/-- **One offer is enough**: unless it is interrupted, a line is taken in pieces as it is
taken whole. -/
theorem pour_inPieces (h : ¬sink.nextWrite.IsInterruption) (hl : line ≠ []) :
    sink.inPieces.pour line =
      { sink.place line with
        events := (sink.place line).events.map Event.ofPiece
        sink := (sink.place line).sink.inPieces } := by
  rcases sink.nextWrite.fail_or_ne with ⟨fault, hfault⟩ | htook
  · have hf : ¬fault.IsInterruption := by
      rw [hfault] at h
      exact h
    have hw := write_inPieces_of_fault hfault line
    rw [pour_of_fault hl (by rw [hw]) hf, place_of_fault hfault, hw]
    rfl
  · have hw := write_inPieces_of_not_fault htook line
    -- the line has a byte to take, and after the offer nothing is left of it
    obtain ⟨n, hn⟩ : ∃ n, line.length = n + 1 :=
      Nat.exists_eq_succ_of_ne_zero (mt List.length_eq_zero_iff.mp hl)
    rw [pour_of_took_succ hl (by rw [hw, hn]), place_of_not_fault htook, hw, ← hn,
      List.drop_length, List.take_length, pour_nil]
    simp [Transfer.after, Event.ofPiece]

/-! ### One delivery -/

/-- A delivery of a whole line and one of its pieces come to the same, and leave sinks that
differ as they did before. -/
theorem deliver_inPieces (hs : sink.intake = .whole) (h : ¬sink.nextWrite.IsInterruption)
    (hl : line ≠ []) : sink.inPieces.deliver line =
      { sink.deliver line with
        events := (sink.deliver line).events.map Event.ofPiece
        sink := (sink.deliver line).sink.inPieces } := by
  have htransfer : sink.inPieces.transfer line =
      { sink.transfer line with
        events := (sink.transfer line).events.map Event.ofPiece
        sink := (sink.transfer line).sink.inPieces } := by
    rw [transfer_of_whole hs]
    exact pour_inPieces h hl
  exact deliver_of_transfer (fun _ _ => List.map_append) (fun _ => rfl) htransfer

/-! ### A run -/

/-- Each line that is offered whole uses up one step of the script. -/
theorem writes_deliver_of_whole (hs : sink.intake = .whole) (line : Bytes) :
    (sink.deliver line).sink.writes = sink.writes.tail := by
  rcases sink.nextWrite.fail_or_ne with ⟨fault, hfault⟩ | htook
  · rw [deliver_of_refused hs hfault]
    rfl
  · rw [deliver_of_not_refused hs htook]
    rfl

theorem writes_after_of_whole (hs : sink.intake = .whole) (hl : line ≠ []) (n : Nat) :
    (sink.after line n).writes = sink.writes.drop n := by
  induction n generalizing sink with
  | zero => rfl
  | succ n ih =>
    rw [after, ih ((intake_deliver hl).trans hs), writes_deliver_of_whole hs, List.drop_tail]

end Sink

/-! ### The notice -/

namespace Notice

/-- **Whole lines and pieces.** If the script of a sink that takes lines whole has no
interruption in it, then a run on it is the run on the piecemeal sink that has neither a
capacity nor limits, offer for offer. Whatever the script, each delivery to a sink that
takes lines whole uses up one step: it takes the line unless that is a fault, and if it is
one, an interruption or not, then it takes nothing, makes no flush, and that fault is the
error. -/
theorem deliveries_whole (sink : Sink) (hs : sink.intake = .whole) (times : Nat) :
    ((∀ step ∈ sink.writes, ¬step.IsInterruption) →
      List.Forall₂ Delivery.SameInPieces (deliveries sink times)
        (deliveries { sink with
          intake := .piecemeal none
          writes := sink.writes.map Step.withoutLimit } times)) ∧
    ∀ (i : Nat) (d : Delivery) (step : Step), (deliveries sink times)[i]? = some d →
      sink.writes[i]?.getD .all = step →
      d.sink.writes = sink.writes.drop (i + 1) ∧
      (d.taken = line ∨ d.taken = []) ∧
      (d.taken = line ↔ ∀ fault, step ≠ .fail fault) ∧
      ∀ fault, step = .fail fault →
        d.taken = [] ∧ d.events = [.writeAll 148 (.failed fault)] ∧
          d.sink.flushes = (sink.after line i).flushes ∧ d.error? = some (.write fault) := by
  have hl := line_ne_nil
  constructor
  · intro hscript
    -- the two sinks differ in this way before each delivery
    refine Sink.forall₂_deliveries (R := fun s t => s.intake = .whole ∧ t = s.inPieces ∧
      ∀ step ∈ s.writes, ¬step.IsInterruption) ?_ ⟨hs, rfl, hscript⟩ times
    rintro s _ ⟨hws, rfl, hsteps⟩
    rw [Sink.deliver_inPieces hws (Sink.nextWrite_of_forall id hsteps) hl]
    refine ⟨⟨⟨rfl, rfl, rfl⟩, rfl⟩, (Sink.intake_deliver hl).trans hws, rfl, ?_⟩
    rw [Sink.writes_deliver_of_whole hws]
    exact fun step hstep => hsteps step (List.mem_of_mem_tail hstep)
  · intro i d step hd hstep
    obtain ⟨hi, rfl⟩ := Sink.eq_deliver_of_getElem? hd
    have hsi := (Sink.intake_after hl sink i).trans hs
    have hwrites := Sink.writes_after_of_whole hs hl i
    have hnext : (sink.after line i).nextWrite = step := by
      rw [Sink.nextWrite, hwrites, List.headD_eq_head?_getD, List.head?_drop, hstep]
    have hused : ((sink.after line i).deliver line).sink.writes = sink.writes.drop (i + 1) := by
      rw [Sink.writes_deliver_of_whole hsi, hwrites, List.tail_drop]
    refine ⟨hused, ?_⟩
    rcases step.fail_or_ne with ⟨fault, rfl⟩ | htook
    · rw [Sink.deliver_of_refused hsi hnext, length_line]
      refine ⟨.inr rfl, ⟨fun hnil => absurd hnil.symm hl, fun h => absurd rfl (h fault)⟩, ?_⟩
      intro cause hcause
      cases Step.fail.inj hcause
      exact ⟨rfl, rfl, rfl, rfl⟩
    · have htaken : ((sink.after line i).deliver line).taken = line := by
        rw [Sink.deliver_of_not_refused hsi (by rwa [hnext])]
      exact ⟨.inl htaken, ⟨fun _ => htook, fun _ => htaken⟩,
        fun fault hfault => absurd hfault (htook fault)⟩

/-- A limit of no bytes does not keep a sink from taking a whole line, and the broken pipe
after it is the same whether the second line is whole or in pieces. An interruption is the
result if the line is whole. -/
theorem deliveries_whole_of_broken_pipe :
    let sink : Sink := {
      intake := .whole
      writes := [.accept 0, .fail (.plain .brokenPipe)] }
    let other : Sink := { intake := .whole, writes := [.fail (.system 4)] }
    (∀ step ∈ sink.writes, ¬step.IsInterruption) ∧
      List.Forall₂ Delivery.SameInPieces (deliveries sink 3)
        (deliveries { writes := [.all, .fail (.plain .brokenPipe)] } 3) ∧
      (sink.deliver line).taken = line ∧
      (other.deliver line).taken = [] ∧
      (other.deliver line).events = [.writeAll 148 (.failed (.system 4))] ∧
      (other.deliver line).error? = some (.write (.system 4)) := by
  intro sink other
  have hscript : ∀ step ∈ sink.writes, ¬step.IsInterruption := by decide
  obtain ⟨hsame, hsteps⟩ := deliveries_whole sink rfl 3
  obtain ⟨-, -, htaken, -⟩ := hsteps 0 (sink.deliver line) (.accept 0) rfl rfl
  obtain ⟨-, -, -, hfault⟩ := (deliveries_whole other rfl 1).2 0 (other.deliver line)
    (.fail (.system 4)) rfl rfl
  obtain ⟨hnothing, hevents, -, herror⟩ := hfault (.system 4) rfl
  exact ⟨hscript, hsame hscript, htaken.mpr (by simp), hnothing, hevents, herror⟩

end Notice

end RetiredCommand
