import RetiredCommand.Proofs.Runs

/-!
# The books of a sink

Where the bytes of a line go, from a single offer up to a whole run. A sink takes
bytes from the front of what it is offered, so what is left to offer is always the
end of the line; and it keeps them in the order in which it took them. The two
facts together are the invariant of the loop, `RetiredCommand.Transfer.Accounts`:
what was taken is the front of what was to be sent, all of it exactly if there was
no fault, and the sink holds what it held before and then that.

A delivery adds a flush, which takes nothing, and a run adds up its deliveries. The
main statement is `RetiredCommand.Notice.deliveries_account`: each delivery starts
at the first byte of the line again, whatever became of the ones before it.
-/

namespace RetiredCommand

namespace Sink

variable {sink : Sink} {offer : Bytes}

/-! ### One offer -/

theorem fit_le (sink : Sink) (count : Nat) : sink.fit count ≤ count := by
  rw [fit]
  split
  · exact Nat.min_le_left _ _
  · exact Nat.le_refl _

/-- There is room for what fits. -/
theorem total_add_fit_le {capacity : Nat} (hs : sink.intake = .piecemeal (some capacity))
    (h : sink.total ≤ capacity) (count : Nat) : sink.total + sink.fit count ≤ capacity := by
  simp only [fit, hs]
  omega

/-- **An offer of which something was taken**, perhaps nothing: it was taken from
the front, and there was room for it. -/
theorem write_of_took {count : Nat} (h : (sink.write offer).1 = .took count) :
    count ≤ offer.length ∧ (sink.write offer).2 = sink.take (offer.take count) ∧
      ∃ limit, count = sink.fit limit := by
  unfold write at h ⊢
  rcases hr : sink.nextWrite.reply offer.length with limit | fault
  · simp only [hr, Reply.took.injEq] at h ⊢
    have hl : limit ≤ offer.length := by
      rcases hn : sink.nextWrite with _ | bound | fault
      · simp only [hn, Step.reply, Reply.took.injEq] at hr
        exact Nat.le_of_eq hr.symm
      · simp only [hn, Step.reply, Reply.took.injEq] at hr
        exact hr ▸ Nat.min_le_right _ _
      · simp [hn, Step.reply] at hr
    exact ⟨h ▸ Nat.le_trans (fit_le sink limit) hl, by rw [h], limit, h.symm⟩
  · simp [hr] at h

/-- **An offer that failed**: the script said so, and nothing was taken. -/
theorem write_of_failed {fault : Fault} (h : (sink.write offer).1 = .failed fault) :
    sink.nextWrite = .fail fault ∧ (sink.write offer).2 = sink.refuse := by
  unfold write at h ⊢
  rcases hn : sink.nextWrite with _ | bound | cause
  · simp [hn, Step.reply] at h
  · simp [hn, Step.reply] at h
  · simp only [hn, Step.reply, Reply.failed.injEq] at h ⊢
    exact ⟨by rw [h], trivial⟩

end Sink

/-- Whether an event is a flush. -/
def Event.IsFlush : Event → Prop
  | flush _ => True
  | _ => False

instance (event : Event) : Decidable event.IsFlush :=
  match event with
  | .flush _ => .isTrue trivial
  | .write _ _ => .isFalse id
  | .writeAll _ _ => .isFalse id

/-! ### A transfer -/

/-- The books of a transfer of `bytes` to `sink`. -/
structure Transfer.Accounts (t : Transfer) (sink : Sink) (bytes : Bytes) : Prop where
  /-- What was taken is the front of what was to be sent. -/
  front : t.taken <+: bytes
  /-- It is all of it exactly if no fault ended the transfer. -/
  complete : t.fault? = none ↔ t.taken = bytes
  /-- The sink holds what was taken after what it held before. -/
  held : t.sink.held = sink.held ++ t.taken
  /-- The sink takes bytes in as it did before. -/
  intake : t.sink.intake = sink.intake
  /-- Offers do not touch the script of the flushes. -/
  flushes : t.sink.flushes = sink.flushes
  /-- A sink that keeps to its capacity goes on doing so. -/
  capacity : ∀ capacity, sink.intake = .piecemeal (some capacity) → sink.total ≤ capacity →
    t.sink.total ≤ capacity

namespace Transfer.Accounts

variable {sink : Sink} {bytes : Bytes} {t : Transfer}

/-- Nothing was to be sent, and nothing was. -/
theorem nil (sink : Sink) : Accounts ⟨none, [], [], sink⟩ sink [] where
  front := List.nil_prefix
  complete := by simp
  held := (List.append_nil _).symm
  intake := rfl
  flushes := rfl
  capacity := fun _ _ h => h

/-- The transfer ended with a fault before anything was taken. -/
theorem stop (sink next : Sink) (hb : bytes ≠ []) (hh : next.held = sink.held)
    (hi : next.intake = sink.intake) (hf : next.flushes = sink.flushes) (fault : Fault)
    (events : List Event) : Accounts ⟨some fault, events, [], next⟩ sink bytes where
  front := List.nil_prefix
  complete := by simpa using hb.symm
  held := by rw [hh, List.append_nil]
  intake := hi
  flushes := hf
  capacity := fun _ _ h => by rwa [← Sink.length_held, hh, Sink.length_held]

/-- A part was taken, and the transfer of the rest is accounted for. -/
theorem part {count : Nat} {event : Event} (h : (sink.write bytes).1 = .took count)
    (ht : t.Accounts (sink.write bytes).2 (bytes.drop count)) :
    (t.after event (bytes.take count)).Accounts sink bytes := by
  obtain ⟨-, hnext, limit, hfit⟩ := Sink.write_of_took h
  rw [hnext] at ht
  refine ⟨?_, ?_, ?_, ht.intake, ht.flushes, fun c hs hc => ?_⟩
  · -- the front of what is left, put after the part, is the front of the whole
    obtain ⟨rest, hrest⟩ := ht.front
    exact ⟨rest, by rw [after, List.append_assoc, hrest, List.take_append_drop]⟩
  · refine ht.complete.trans ?_
    rw [after, ← List.append_cancel_left_eq (bytes.take count), List.take_append_drop]
  · rw [after, ht.held, Sink.held_take, List.append_assoc]
  · refine ht.capacity c hs ?_
    -- what was taken is no longer than what fits
    rw [Sink.total_take, List.length_take]
    have := Sink.total_add_fit_le hs hc limit
    omega

/-- Nothing was taken, and the same bytes were offered again. -/
theorem again {event : Event} {fault : Fault} (h : (sink.write bytes).1 = .failed fault)
    (ht : t.Accounts (sink.write bytes).2 bytes) : (t.after event []).Accounts sink bytes := by
  rw [(Sink.write_of_failed h).2] at ht
  exact ⟨ht.front, ht.complete, ht.held, ht.intake, ht.flushes, ht.capacity⟩

end Transfer.Accounts

namespace Sink

variable {sink : Sink}

/-- The loop keeps its books: **one case for each way a turn of it can go.** -/
theorem accounts_pour (sink : Sink) (bytes : Bytes) :
    (sink.pour bytes).Accounts sink bytes := by
  fun_induction pour sink bytes with
  | case1 sink => exact .nil sink
  | case2 sink bytes hb next h =>
    -- nothing was taken of the offer, which is a fault
    rw [show next = sink.take [] from (write_of_took h).2.1]
    exact .stop sink _ hb ((held_take _ _).trans (List.append_nil _)) rfl rfl _ _
  | case3 sink bytes hb next n h ih => exact .part h ih
  | case4 sink bytes hb next fault h _ ih => exact .again h ih
  | case5 sink bytes hb next fault h _ =>
    rw [show next = sink.refuse from (write_of_failed h).2]
    exact .stop sink sink.refuse hb rfl rfl rfl _ _

/-- A line that is offered whole is taken whole or not at all. -/
theorem accounts_place (sink : Sink) {line : Bytes} (hl : line ≠ [])
    (hs : sink.intake = .whole) : (sink.place line).Accounts sink line := by
  -- such a sink has no capacity to keep to
  have hroom : ∀ capacity, sink.intake ≠ .piecemeal capacity := fun _ hc => by
    rw [hs] at hc
    cases hc
  have htook : ∀ event, Transfer.Accounts ⟨none, [event], line.take line.length, sink.take line⟩
      sink line := fun event => by
    rw [List.take_length]
    exact ⟨List.prefix_rfl, by simp, held_take _ _, rfl, rfl, fun c hc => absurd hc (hroom c)⟩
  rcases hn : sink.nextWrite with _ | limit | fault
  · simpa only [place, writeWhole, hn] using htook _
  · simpa only [place, writeWhole, hn] using htook _
  · simp only [place, writeWhole, hn]
    exact .stop sink sink.refuse hl rfl rfl rfl _ _

theorem accounts_transfer (sink : Sink) {line : Bytes} (hl : line ≠ []) :
    (sink.transfer line).Accounts sink line := by
  rcases hs : sink.intake with capacity | _
  · rw [transfer_of_piecemeal hs]
    exact accounts_pour sink line
  · rw [transfer_of_whole hs]
    exact accounts_place sink hl hs

/-! ### A delivery -/

/-- A flush changes nothing but the script of the flushes. -/
theorem sink_deliver (sink : Sink) (line : Bytes) : ∃ flushes,
    (sink.deliver line).sink = { (sink.transfer line).sink with flushes := flushes } := by
  rcases h : (sink.transfer line).fault? with _ | fault
  · exact ⟨_, by rw [deliver_of_complete h]; rfl⟩
  · exact ⟨_, by rw [deliver_of_fault h]⟩

section Line

variable {line : Bytes} (hl : line ≠ [])

include hl

theorem taken_deliver_front : (sink.deliver line).taken <+: line := by
  rw [taken_deliver]
  exact (accounts_transfer sink hl).front

/-- **A delivery that was not cut short has taken the whole line,** and no other
has. -/
theorem reached_deliver_iff_taken : (sink.deliver line).Reached ↔
    (sink.deliver line).taken = line := by
  rw [reached_deliver_iff, taken_deliver]
  exact (accounts_transfer sink hl).complete

theorem cutShort_deliver_iff_taken : (sink.deliver line).CutShort ↔
    (sink.deliver line).taken.length < line.length := by
  have hfront : (sink.deliver line).taken <+: line := taken_deliver_front hl
  rw [← not_iff_not, ← Delivery.reached_iff_not_cutShort, reached_deliver_iff_taken hl, Nat.not_lt]
  -- a beginning of the line that is as long as the line is the line
  constructor
  · exact fun h => Nat.le_of_eq (congrArg List.length h.symm)
  · exact hfront.eq_of_length_le

theorem held_deliver :
    (sink.deliver line).sink.held = sink.held ++ (sink.deliver line).taken := by
  obtain ⟨flushes, h⟩ := sink_deliver sink line
  rw [h, taken_deliver]
  exact (accounts_transfer sink hl).held

theorem total_deliver :
    (sink.deliver line).sink.total = sink.total + (sink.deliver line).taken.length := by
  rw [← length_held, held_deliver hl, List.length_append, length_held]

theorem intake_deliver : (sink.deliver line).sink.intake = sink.intake := by
  obtain ⟨flushes, h⟩ := sink_deliver sink line
  rw [h]
  exact (accounts_transfer sink hl).intake

theorem total_deliver_le {capacity : Nat} (hs : sink.intake = .piecemeal (some capacity))
    (h : sink.total ≤ capacity) : (sink.deliver line).sink.total ≤ capacity := by
  obtain ⟨flushes, hd⟩ := sink_deliver sink line
  rw [hd]
  exact (accounts_transfer sink hl).capacity capacity hs h

end Line

/-! ### The flush -/

/-- An offer is no flush. -/
theorem not_isFlush_of_mem_pour (sink : Sink) (bytes : Bytes) :
    ∀ event ∈ (sink.pour bytes).events, ¬event.IsFlush := by
  fun_induction pour sink bytes with
  | case1 => simp
  | case2 => simp [Event.IsFlush]
  | case3 sink bytes hb next n h ih =>
    intro event he
    rcases List.mem_cons.mp he with rfl | he
    · exact id
    · exact ih event he
  | case4 sink bytes hb next fault h hf ih =>
    intro event he
    rcases List.mem_cons.mp he with rfl | he
    · exact id
    · exact ih event he
  | case5 => simp [Event.IsFlush]

theorem not_isFlush_of_mem_transfer (sink : Sink) (line : Bytes) :
    ∀ event ∈ (sink.transfer line).events, ¬event.IsFlush := by
  rcases hs : sink.intake with capacity | _
  · rw [transfer_of_piecemeal hs]
    exact not_isFlush_of_mem_pour sink line
  · simp only [transfer_of_whole hs, place]
    split <;> simp [Event.IsFlush]

/-- **A delivery that was not cut short flushes once**: it uses up one step of the
script of the flushes, which gives its error. -/
theorem flush_deliver {line : Bytes} (hl : line ≠ []) (h : (sink.deliver line).Reached) :
    (sink.deliver line).error? = (sink.flushes.headD none).map .flush ∧
      (sink.deliver line).events.filter Event.IsFlush = [.flush (sink.flushes.headD none)] ∧
      (sink.deliver line).sink.flushes = sink.flushes.tail := by
  have hf := (accounts_transfer sink hl).flushes
  rw [deliver_of_complete (reached_deliver_iff.mp h), flush, hf]
  refine ⟨rfl, ?_, rfl⟩
  rw [List.filter_append, List.filter_eq_nil_iff.mpr, List.nil_append]
  · rfl
  · simpa using not_isFlush_of_mem_transfer sink line

/-! ### A run -/

section Run

variable {line : Bytes} (hl : line ≠ [])

include hl

/-- What a sink holds after a run is what it held before, and then what was taken
in each delivery, in order. -/
theorem held_after (sink : Sink) (n : Nat) : (sink.after line n).held =
    sink.held ++ (sink.deliveries line n).flatMap Delivery.taken := by
  induction n generalizing sink with
  | zero => exact (List.append_nil _).symm
  | succ n ih =>
    rw [after, ih, held_deliver hl, deliveries, List.flatMap_cons, List.append_assoc]

theorem intake_after (sink : Sink) (n : Nat) : (sink.after line n).intake = sink.intake :=
  after_invariant (P := fun s => s.intake = sink.intake)
    (fun _ h => (intake_deliver hl).trans h) rfl n

theorem total_after_le {capacity : Nat} (hs : sink.intake = .piecemeal (some capacity))
    (h : sink.total ≤ capacity) (n : Nat) : (sink.after line n).total ≤ capacity :=
  (after_invariant (P := fun s => s.intake = .piecemeal (some capacity) ∧ s.total ≤ capacity)
    (fun _ hP => ⟨(intake_deliver hl).trans hP.1, total_deliver_le hl hP.1 hP.2⟩) ⟨hs, h⟩ n).2

end Run

end Sink

/-! ### The notice -/

namespace Notice

theorem line_ne_nil : line ≠ [] := by
  intro h
  have := length_line
  rw [h] at this
  cases this

/-- **What reaches a sink over a whole run, and what the results say about it.** In
every delivery the bytes taken are the front of the line, from its first byte on.
They are all of it exactly if the delivery was not cut short, and fewer exactly if
it was. They go to the end of what the sink holds, which is thereby what it held at
first and then what each delivery took; it ends with a whole line after a delivery
that was not cut short. A sink of bounded capacity that keeps to it at first, as one that
holds nothing does, never holds more. -/
theorem deliveries_account (sink : Sink) (times : Nat) :
    line = Utf8.encode (message ++ "\n") ∧ line.length = 148 ∧
    (deliveries sink times).length = times ∧
    ∀ (i : Nat) (d : Delivery), (deliveries sink times)[i]? = some d →
      d.taken <+: line ∧
      (d.Reached ↔ d.taken = line) ∧
      (d.CutShort ↔ d.taken.length < line.length) ∧
      d.sink = sink.after line (i + 1) ∧
      d.sink.total = (sink.after line i).total + d.taken.length ∧
      d.sink.held = sink.held ++ ((deliveries sink times).take (i + 1)).flatMap Delivery.taken ∧
      (d.Reached → line <:+ d.sink.held) ∧
      ∀ capacity, sink.intake = .piecemeal (some capacity) → sink.total ≤ capacity →
        d.sink.total ≤ capacity := by
  refine ⟨rfl, length_line, Sink.length_deliveries sink line times, fun i d hd => ?_⟩
  obtain ⟨hi, rfl⟩ := Sink.eq_deliver_of_getElem? hd
  have hl := line_ne_nil
  refine ⟨Sink.taken_deliver_front hl, Sink.reached_deliver_iff_taken hl,
    Sink.cutShort_deliver_iff_taken hl, Sink.sink_deliver_after sink line i,
    Sink.total_deliver hl, ?_, fun hr => ?_, fun capacity hs hc => ?_⟩
  · -- the deliveries up to this one are a run of their own
    rw [Sink.sink_deliver_after, Sink.held_after hl, deliveries, Sink.take_deliveries hi]
  · rw [Sink.held_deliver hl, (Sink.reached_deliver_iff_taken hl).mp hr]
    exact List.suffix_append _ _
  · rw [Sink.sink_deliver_after]
    exact Sink.total_after_le hl hs hc (i + 1)

/-- A sink with room for two hundred bytes takes the first line in two parts, with an
interruption between them, and cannot be flushed; of the second line it has room for
the first fifty-two bytes. -/
theorem deliveries_account_of_narrow_sink :
    let sink : Sink := {
      intake := .piecemeal (some 200)
      writes := [.accept 100, .fail (.system 4)]
      flushes := [some (.plain .brokenPipe)] }
    let first := sink.deliver line
    let second := first.sink.deliver line
    (deliveries sink 2)[0]? = some first ∧ first.Reached ∧ line <:+ first.sink.held ∧
      (deliveries sink 2)[1]? = some second ∧ second.CutShort ∧ second.taken.length = 52 ∧
      second.sink.total = 200 ∧ second.sink.total ≤ 200 := by
  intro sink first second
  have hfirst : (deliveries sink 2)[0]? = some first := rfl
  have hsecond : (deliveries sink 2)[1]? = some second := rfl
  obtain ⟨htaken, hcount⟩ : first.taken = line ∧ second.taken.length = 52 := by decide +kernel
  obtain ⟨-, hlength, -, hcalls⟩ := deliveries_account sink 2
  obtain ⟨-, hreached, -, hafter, hbefore, -, hend, -⟩ := hcalls 0 first hfirst
  obtain ⟨-, -, hcut, -, htotal, -, -, hroom⟩ := hcalls 1 second hsecond
  have hmiddle : first.sink = sink.after line 1 := hafter
  refine ⟨hfirst, hreached.mpr htaken, hend (hreached.mpr htaken), hsecond, hcut.mpr ?_, hcount,
    ?_, hroom 200 rfl (Nat.zero_le _)⟩
  · rw [hcount, hlength]
    decide
  · rw [htotal, ← hmiddle, hbefore, htaken, hlength, hcount]
    rfl

end Notice

end RetiredCommand
