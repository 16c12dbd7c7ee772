import RetiredCommand.Proofs.Accounting

/-!
# Flushes decide nothing but their own outcome

A flush comes after the last byte of a line, and the next line starts anew, so no flush
can change what is offered, what is taken, or whether a line is taken to its end. This
file says so of two runs on sinks that differ in the script of their flushes and in
nothing else: their deliveries agree but for the flushes
(`RetiredCommand.Delivery.AgreeButForFlush`), although the two scripts drift apart.

The other way about, the offers decide which flush is made when. A delivery that was
cut short makes none, and one that was not makes one, so the flushes are used up in step
with the lines that were taken (`RetiredCommand.Sink.flushes_after`): the delivery of the
line that is taken after `k` others meets the step at place `k` of the script.
-/

namespace RetiredCommand

instance (d : Delivery) : Decidable d.Reached :=
  match h : d.error? with
  | none => .isTrue (.inl h)
  | some (.flush fault) => .isTrue (.inr ⟨fault, h⟩)
  | some (.write fault) => .isFalse ((Delivery.reached_iff_not_cutShort d).not_left.mpr ⟨fault, h⟩)

/-! ### Deliveries that differ by a flush -/

/-- An event without the outcome of a flush. -/
def Event.withoutOutcome : Event → Event
  | flush _ => flush none
  | event => event

/-- Two deliveries to sinks whose flushes have nothing to do with each other. -/
structure Delivery.AgreeButForFlush (d e : Delivery) : Prop where
  /-- The same offers are made, and answered alike. -/
  offers : d.events.filter (¬Event.IsFlush ·) = e.events.filter (¬Event.IsFlush ·)
  /-- Flushes are made at the same places, and only their outcomes differ. -/
  events : d.events.map Event.withoutOutcome = e.events.map Event.withoutOutcome
  /-- The same bytes are taken. -/
  taken : d.taken = e.taken
  /-- The sinks hold equally much afterwards. -/
  total : d.sink.total = e.sink.total
  /-- If one is cut short then both are, with the same fault. -/
  error : ∀ fault, d.error? = some (.write fault) ↔ e.error? = some (.write fault)

namespace Sink

variable {sink : Sink} {line : Bytes}

/-- The sink with another script for its flushes. -/
def reflush (sink : Sink) (flushes : List (Option Fault)) : Sink :=
  { sink with flushes := flushes }

/-- The flushes to come do not change what is answered to an offer. -/
theorem write_reflush (sink : Sink) (flushes : List (Option Fault)) (offer : Bytes) :
    (sink.reflush flushes).write offer =
      ((sink.write offer).1, (sink.write offer).2.reflush flushes) := by
  simp only [write, nextWrite, reflush]
  split <;> rfl

/-- Nor do they change a transfer: **one case for each way a turn of it can go.** -/
theorem pour_reflush (sink : Sink) (flushes : List (Option Fault)) (bytes : Bytes) :
    (sink.reflush flushes).pour bytes =
      { sink.pour bytes with sink := (sink.pour bytes).sink.reflush flushes } := by
  fun_induction pour sink bytes with
  | case1 sink => exact pour_nil _
  | case2 sink bytes hb next h =>
    have hw := write_reflush sink flushes bytes
    rw [pour_of_took_zero hb (by rw [hw, h]), hw]
  | case3 sink bytes hb next n h ih =>
    have hw := write_reflush sink flushes bytes
    rw [pour_of_took_succ hb (by rw [hw, h]), hw, ih]
    rfl
  | case4 sink bytes hb next fault h hf ih =>
    have hw := write_reflush sink flushes bytes
    rw [pour_of_interruption hb (by rw [hw, h]) hf, hw, ih]
    rfl
  | case5 sink bytes hb next fault h hf =>
    have hw := write_reflush sink flushes bytes
    rw [pour_of_fault hb (by rw [hw, h]) hf, hw]

theorem transfer_reflush (sink : Sink) (flushes : List (Option Fault)) (line : Bytes) :
    (sink.reflush flushes).transfer line =
      { sink.transfer line with sink := (sink.transfer line).sink.reflush flushes } := by
  have hintake : (sink.reflush flushes).intake = sink.intake := rfl
  rcases hs : sink.intake with capacity? | _
  · simpa only [transfer, hintake, hs] using pour_reflush sink flushes line
  · simp only [transfer, hintake, hs]
    rcases sink.nextWrite.fail_or_ne with ⟨fault, hfault⟩ | htook
    · have hother : (sink.reflush flushes).nextWrite = .fail fault := hfault
      rw [place_of_fault hfault, place_of_fault hother]
      rfl
    · have hother : ∀ fault, (sink.reflush flushes).nextWrite ≠ .fail fault := htook
      rw [place_of_not_fault htook, place_of_not_fault hother]
      rfl

/-- **Deliveries to sinks that differ in their flushes agree but for the flush**, and they
leave sinks that differ in their flushes. -/
theorem deliver_reflush (sink : Sink) (flushes : List (Option Fault)) (line : Bytes) :
    (sink.deliver line).AgreeButForFlush ((sink.reflush flushes).deliver line) ∧
      ∃ others, ((sink.reflush flushes).deliver line).sink =
        (sink.deliver line).sink.reflush others := by
  have ht := transfer_reflush sink flushes line
  rcases h : (sink.transfer line).fault? with _ | fault
  · have hother : ((sink.reflush flushes).transfer line).fault? = none := by rw [ht, h]
    rw [deliver_of_complete h, deliver_of_complete hother, ht]
    refine ⟨⟨?_, ?_, rfl, rfl, fun fault => ?_⟩, _, rfl⟩
    · rw [List.filter_append, List.filter_append]
      rfl
    · rw [List.map_append, List.map_append]
      rfl
    · simp
  · have hother : ((sink.reflush flushes).transfer line).fault? = some fault := by rw [ht, h]
    rw [deliver_of_fault h, deliver_of_fault hother, ht]
    exact ⟨⟨rfl, rfl, rfl, rfl, fun _ => Iff.rfl⟩, _, rfl⟩

/-! ### Which flush is made when -/

/-- A delivery that was cut short makes no flush. -/
theorem flushes_deliver_of_cutShort (hl : line ≠ []) (h : (sink.deliver line).CutShort) :
    (sink.deliver line).sink.flushes = sink.flushes ∧
      ∀ event ∈ (sink.deliver line).events, ¬event.IsFlush := by
  obtain ⟨fault, hfault⟩ := h
  rw [deliver_of_fault (error?_deliver_eq_write_iff.mp hfault)]
  exact ⟨(accounts_transfer sink hl).flushes, not_isFlush_of_mem_transfer sink line⟩

/-- **The flushes are used up in step with the lines that were taken.** -/
theorem flushes_after (hl : line ≠ []) (sink : Sink) (n : Nat) : (sink.after line n).flushes =
    sink.flushes.drop ((sink.deliveries line n).countP Delivery.Reached) := by
  induction n generalizing sink with
  | zero => rfl
  | succ n ih =>
    rw [after, ih, deliveries, List.countP_cons]
    by_cases h : (sink.deliver line).Reached
    · rw [(flush_deliver hl h).2.2, List.drop_tail, if_pos (decide_eq_true h)]
    · have hcut : (sink.deliver line).CutShort := by
        rwa [Delivery.reached_iff_not_cutShort, not_not] at h
      rw [(flushes_deliver_of_cutShort hl hcut).1, if_neg (by simpa using h), Nat.add_zero]

end Sink

/-! ### The notice -/

namespace Notice

/-- **A flush decides nothing but its own outcome.** To give a sink another script for its
flushes changes, in every delivery of a run, neither the offers nor what is taken nor how
much the sink holds nor whether the delivery is cut short and by which fault. The flushes
are made in order, one for each delivery that is not cut short and none for the others:
after `k` such deliveries the next one meets the step at place `k`, or a success if the
script has run out, and that step is its result. -/
theorem deliveries_reflush (sink : Sink) (flushes : List (Option Fault)) (times : Nat) :
    List.Forall₂ Delivery.AgreeButForFlush (deliveries sink times)
        (deliveries { sink with flushes := flushes } times) ∧
      ∀ (i k : Nat) (d : Delivery), (deliveries sink times)[i]? = some d →
        ((deliveries sink times).take i).countP Delivery.Reached = k →
        (d.CutShort → d.sink.flushes = sink.flushes.drop k ∧
          ∀ event ∈ d.events, ¬event.IsFlush) ∧
        (d.Reached → d.sink.flushes = sink.flushes.drop (k + 1) ∧
          d.events.filter Event.IsFlush = [.flush (sink.flushes[k]?.getD none)] ∧
          (sink.flushes[k]?.getD none = none → d.error? = none) ∧
          ∀ fault, sink.flushes[k]?.getD none = some fault → ∃ error,
            d.error? = some error ∧ error = .flush fault ∧
              error.fault.kind = fault.kind ∧ error.fault.code? = fault.code? ∧
              error.message = "cannot flush stderr: " ++ fault.text) := by
  have hl := line_ne_nil
  constructor
  · refine Sink.forall₂_deliveries (R := fun s t => ∃ others, t = s.reflush others) ?_
      ⟨flushes, rfl⟩ times
    rintro s _ ⟨others, rfl⟩
    exact Sink.deliver_reflush s others line
  · intro i k d hd hk
    obtain ⟨hi, rfl⟩ := Sink.eq_deliver_of_getElem? hd
    have hbefore : (sink.after line i).flushes = sink.flushes.drop k := by
      rw [Sink.flushes_after hl, ← Sink.take_deliveries (Nat.le_of_lt hi)]
      exact congrArg (sink.flushes.drop ·) hk
    have hstep : (sink.after line i).flushes.headD none = sink.flushes[k]?.getD none := by
      rw [hbefore, List.headD_eq_head?_getD, List.head?_drop]
    refine ⟨fun hcut => ?_, fun hreached => ?_⟩
    · rw [← hbefore]
      exact Sink.flushes_deliver_of_cutShort hl hcut
    · obtain ⟨herror, hflush, hnext⟩ := Sink.flush_deliver hl hreached
      rw [hstep] at herror hflush
      refine ⟨?_, hflush, fun hnone => ?_, fun fault hfault => ?_⟩
      · rw [hnext, hbefore, List.tail_drop]
      · rw [herror, hnone, Option.map_none]
      · rw [hfault, Option.map_some] at herror
        exact ⟨.flush fault, herror, rfl, rfl, rfl, rfl⟩

/-- The delivery that is cut short leaves the flush that fails to the one after it, and
takes nothing more or less where no flush fails. -/
theorem deliveries_reflush_after_broken_pipe :
    let sink : Sink := {
      writes := [.accept 100, .fail (.plain .brokenPipe)]
      flushes := [some (.system 5)] }
    let first := sink.deliver line
    let second := first.sink.deliver line
    (deliveries sink 2)[0]? = some first ∧ first.CutShort ∧ first.sink.flushes = sink.flushes ∧
      (deliveries sink 2)[1]? = some second ∧ second.Reached ∧
      ((deliveries sink 2).take 1).countP Delivery.Reached = 0 ∧
      second.events.filter Event.IsFlush = [.flush (some (.system 5))] ∧
      List.Forall₂ Delivery.AgreeButForFlush (deliveries sink 2)
        (deliveries { sink with flushes := [] } 2) := by
  intro sink first second
  obtain ⟨hagree, hflushes⟩ := deliveries_reflush sink [] 2
  obtain ⟨hfirst, hsecond⟩ : ¬first.Reached ∧ second.Reached := by decide +kernel
  have hcut : first.CutShort := by rwa [Delivery.reached_iff_not_cutShort, not_not] at hfirst
  have hcount : ((deliveries sink 2).take 1).countP Delivery.Reached = 0 := by
    change [first].countP Delivery.Reached = 0
    simpa using hfirst
  obtain ⟨hkeeps, -⟩ := (hflushes 0 0 first rfl rfl).1 hcut
  obtain ⟨-, hflush, -⟩ := (hflushes 1 0 second rfl hcount).2 hsecond
  exact ⟨rfl, hcut, hkeeps, rfl, hsecond, hcount, hflush, hagree⟩

end Notice

end RetiredCommand
