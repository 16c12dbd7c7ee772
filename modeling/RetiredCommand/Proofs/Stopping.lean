import Mathlib.Data.ENat.BigOperators
import RetiredCommand.Proofs.Flushing
import RetiredCommand.Proofs.Interruption

/-!
# Where a line stops

What stops a line on its way to a sink that takes lines piecemeal: a step that is a fault,
a step that takes nothing, a sink that is full, or the end of the line. The loop meets these
one offer at a time, and this file says, without running it, which of them comes first.

Only the steps that are no interruptions count (`RetiredCommand.Sink.stepAt`). Each of them
has a limit, which may be infinite, and the limits of the steps before a place add up to what
could have been taken there (`RetiredCommand.Sink.allowance`). The transfer stops at the
least place where the step is a fault or takes nothing, or where the allowance has reached
the room in the sink or the size of the line (`RetiredCommand.Sink.StopsAt`). What was
taken is then the least of the line, the room and the allowance.

Whether the step at that place is used up is the delicate point. If the line has been taken
then it is not: it is left for the next line, even if it is a fault. If the sink is full
then it is, and if it is a fault then that is the one reported.
-/

namespace RetiredCommand

/-! ### Limits -/

namespace Step

/-- How many bytes a step takes at most. A fault takes none. -/
def limit : Step → ℕ∞
  | all => ⊤
  | accept limit => limit
  | fail _ => 0

/-- The fault with which a step ends a transfer that it stops: its own, or that nothing
was taken. -/
def stopFault : Step → Fault
  | fail fault => fault
  | _ => .nothingTaken

theorem stopFault_of_not_fail {step : Step} (h : ∀ fault, step ≠ .fail fault) :
    step.stopFault = .nothingTaken := by
  cases step with
  | all => rfl
  | accept limit => rfl
  | fail fault => exact absurd rfl (h fault)

/-- What a step takes of an offer, it takes of what it may. -/
theorem coe_of_reply {step : Step} {offered count : Nat} (h : step.reply offered = .took count) :
    (count : ℕ∞) = min step.limit offered := by
  cases step with
  | all =>
    cases h
    exact (min_top_left _).symm
  | accept limit =>
    cases h
    exact Nat.mono_cast.map_min
  | fail fault => cases h

end Step

/-- What is left of a script once so many of its steps that are no interruptions are used up,
and the interruptions before them. -/
def dropUninterrupted : Nat → List Step → List Step
  | 0, script => script
  | _ + 1, [] => []
  | n + 1, step :: script =>
    if step.IsInterruption then dropUninterrupted (n + 1) script
    else dropUninterrupted n script

theorem dropUninterrupted_zero (script : List Step) : dropUninterrupted 0 script = script := by
  cases script <;> rfl

theorem dropUninterrupted_nil (n : Nat) : dropUninterrupted n [] = [] := by
  cases n <;> rfl

/-- Of the other steps there are that many fewer left. -/
theorem uninterrupted_dropUninterrupted (n : Nat) (script : List Step) :
    uninterrupted (dropUninterrupted n script) = (uninterrupted script).drop n := by
  fun_induction dropUninterrupted n script with
  | case1 script => rfl
  | case2 n => rfl
  | case3 n step script h ih => rw [ih, uninterrupted_cons_of_isInterruption h]
  | case4 n step script h ih => rw [ih, uninterrupted_cons_of_not h, List.drop_succ_cons]

namespace Sink

variable {sink next : Sink}

/-- The step at place `k` of the script without its interruptions. Past the end it is the
good one. -/
def stepAt (sink : Sink) (k : Nat) : Step :=
  (uninterrupted sink.writes)[k]?.getD .all

/-- How many bytes the steps before place `k` take at most. -/
def allowance (sink : Sink) (k : Nat) : ℕ∞ :=
  ∑ j ∈ Finset.range k, (sink.stepAt j).limit

/-- How many bytes there is room for. -/
def room (sink : Sink) : ℕ∞ :=
  match sink.intake with
  | .piecemeal (some capacity) => (capacity - sink.total : Nat)
  | _ => ⊤

/-- Whether a transfer of `size` bytes goes no further than place `k`. -/
def StopsAt (sink : Sink) (size k : Nat) : Prop :=
  (∃ fault, sink.stepAt k = .fail fault) ∨ (sink.stepAt k).limit = 0 ∨
    min sink.room size ≤ sink.allowance k

/-! ### The script and its steps -/

/-- A script has run out, or the next step is its first. -/
theorem writes_eq_nil_or_cons (sink : Sink) :
    sink.writes = [] ∨ sink.writes = sink.nextWrite :: sink.writes.tail := by
  rw [nextWrite]
  cases sink.writes with
  | nil => exact Or.inl rfl
  | cons step script => exact Or.inr rfl

/-- An interruption is always one of the script's. -/
theorem writes_of_isInterruption (h : sink.nextWrite.IsInterruption) :
    sink.writes = sink.nextWrite :: sink.writes.tail := by
  refine sink.writes_eq_nil_or_cons.resolve_left fun hw => ?_
  rw [nextWrite, hw] at h
  exact h

theorem stepAt_zero (h : ¬sink.nextWrite.IsInterruption) : sink.stepAt 0 = sink.nextWrite := by
  rcases sink.writes_eq_nil_or_cons with hw | hw
  · rw [stepAt, nextWrite, hw]
    rfl
  · rw [stepAt, hw, uninterrupted_cons_of_not h]
    rfl

theorem stepAt_succ (h : ¬sink.nextWrite.IsInterruption) (hn : next.writes = sink.writes.tail)
    (k : Nat) : sink.stepAt (k + 1) = next.stepAt k := by
  rw [stepAt, stepAt, hn]
  rcases sink.writes_eq_nil_or_cons with hw | hw
  · rw [hw]
    rfl
  · rw [hw, uninterrupted_cons_of_not h]
    rfl

theorem stepAt_of_isInterruption (h : sink.nextWrite.IsInterruption)
    (hn : next.writes = sink.writes.tail) (k : Nat) : sink.stepAt k = next.stepAt k := by
  rw [stepAt, stepAt, hn, writes_of_isInterruption h, uninterrupted_cons_of_isInterruption h]
  rfl

theorem allowance_zero (sink : Sink) : sink.allowance 0 = 0 :=
  Finset.sum_range_zero _

theorem allowance_succ (h : ¬sink.nextWrite.IsInterruption) (hn : next.writes = sink.writes.tail)
    (k : Nat) : sink.allowance (k + 1) = sink.nextWrite.limit + next.allowance k := by
  rw [allowance, Finset.sum_range_succ', stepAt_zero h, add_comm, allowance]
  simp only [stepAt_succ h hn]

theorem dropUninterrupted_succ (h : ¬sink.nextWrite.IsInterruption) (k : Nat) :
    dropUninterrupted (k + 1) sink.writes = dropUninterrupted k sink.writes.tail := by
  rcases sink.writes_eq_nil_or_cons with hw | hw
  · rw [hw, List.tail_nil, dropUninterrupted_nil, dropUninterrupted_nil]
  · rw [hw, dropUninterrupted, if_neg h, List.tail_cons]

theorem dropUninterrupted_succ_of_isInterruption (h : sink.nextWrite.IsInterruption) (k : Nat) :
    dropUninterrupted (k + 1) sink.writes = dropUninterrupted (k + 1) sink.writes.tail := by
  rw [writes_of_isInterruption h, dropUninterrupted, if_pos h, List.tail_cons]

/-- The steps that are left are the ones from the place on. -/
theorem stepAt_of_writes_eq {m : Nat} (h : next.writes = dropUninterrupted m sink.writes)
    (k : Nat) : next.stepAt k = sink.stepAt (m + k) := by
  rw [stepAt, stepAt, h, uninterrupted_dropUninterrupted, List.getElem?_drop]

/-! ### Room -/

theorem coe_fit (sink : Sink) (count : Nat) :
    (sink.fit count : ℕ∞) = min (count : ℕ∞) sink.room := by
  rcases hs : sink.intake with (_ | capacity) | _
  · simp only [fit, room, hs, min_top_right]
  · simp only [fit, room, hs]
    exact Nat.mono_cast.map_min
  · simp only [fit, room, hs, min_top_right]

/-- What is taken of an offer uses up as much room. -/
theorem room_of_took {offer : Bytes} {count : Nat} (h : (sink.write offer).1 = .took count) :
    sink.room = (sink.write offer).2.room + count := by
  obtain ⟨hle, hnext, limit, hfit⟩ := write_of_took h
  have hlength : (offer.take count).length = count := by
    rw [List.length_take, Nat.min_eq_left hle]
  have hi : (sink.take (offer.take count)).intake = sink.intake := rfl
  rw [hnext, room, room, hi, total_take, hlength]
  rcases hs : sink.intake with (_ | capacity) | _
  · rfl
  · -- what was taken is no more than what there was room for
    simp only [fit, hs] at hfit
    simp only
    rw [← Nat.cast_add]
    exact congrArg _ (by omega)
  · rfl

/-- **How much is taken of an offer**: what the step, the room and the offer allow. -/
theorem coe_of_took {offer : Bytes} {count : Nat} (h : (sink.write offer).1 = .took count) :
    (count : ℕ∞) = min sink.nextWrite.limit (min sink.room offer.length) := by
  have hreply : ∃ part, sink.nextWrite.reply offer.length = .took part ∧ sink.fit part = count := by
    unfold write at h
    rcases hr : sink.nextWrite.reply offer.length with part | fault
    · simp only [hr, Reply.took.injEq] at h
      exact ⟨part, rfl, h⟩
    · simp [hr] at h
  obtain ⟨part, hpart, rfl⟩ := hreply
  rw [coe_fit, Step.coe_of_reply hpart, min_assoc, min_comm sink.room]

/-- A step that takes something of an offer, or nothing, has no fault of its own. -/
theorem stopFault_of_took {offer : Bytes} {count : Nat} (h : (sink.write offer).1 = .took count) :
    sink.nextWrite.stopFault = .nothingTaken := by
  refine Step.stopFault_of_not_fail fun fault hn => ?_
  simp [write, hn, Step.reply] at h

end Sink

/-! ### Parts -/

section Part

variable {part : Nat} {limit rest more : ℕ∞}

/-- A part of a whole is as large as its limit, or it is the whole. -/
theorem eq_limit_or_of_part (h : (part : ℕ∞) = min limit (rest + part)) :
    (part : ℕ∞) = limit ∨ rest = 0 ∧ (part : ℕ∞) ≤ limit := by
  rcases le_total limit (rest + part) with hlimit | hwhole
  · exact Or.inl (h.trans (min_eq_left hlimit))
  · rw [min_eq_right hwhole] at h
    refine Or.inr ⟨?_, h ▸ hwhole⟩
    rw [← nonpos_iff_eq_zero, ← ENat.add_le_add_iff_right (ENat.natCast_ne_top part), zero_add]
    exact le_of_eq h.symm

/-- What is added to the limit reaches the whole exactly if it reaches the rest. -/
theorem add_le_add_iff_of_part (h : (part : ℕ∞) = min limit (rest + part)) :
    rest + part ≤ limit + more ↔ rest ≤ more := by
  rcases eq_limit_or_of_part h with hlimit | ⟨hrest, hle⟩
  · rw [← hlimit, add_comm rest, ENat.add_le_add_iff_left (ENat.natCast_ne_top part)]
  · rw [hrest, zero_add]
    exact iff_of_true (hle.trans le_self_add) zero_le

/-- What of the whole is reached so is the part, and what is reached of the rest. -/
theorem min_add_of_part (h : (part : ℕ∞) = min limit (rest + part)) :
    min (rest + part) (limit + more) = part + min rest more := by
  rcases eq_limit_or_of_part h with hlimit | ⟨hrest, hle⟩
  · rw [← hlimit, add_comm rest, min_add_add_left]
  · rw [hrest, zero_add, min_eq_left (hle.trans le_self_add), min_eq_left zero_le, add_zero]

end Part

/-- The least place moves on by one if all places do and the first is not among them. -/
theorem isLeast_succ {P Q : Nat → Prop} {m : Nat} (h0 : ¬P 0) (hsucc : ∀ k, P (k + 1) ↔ Q k)
    (h : IsLeast {k | Q k} m) : IsLeast {k | P k} (m + 1) := by
  refine ⟨(hsucc m).mpr h.1, fun k hk => ?_⟩
  cases k with
  | zero => exact absurd hk h0
  | succ k => exact Nat.succ_le_succ (h.2 ((hsucc k).mp hk))

/-! ### One transfer -/

/-- A transfer of `bytes` to `sink` that stops at place `m`. -/
structure Transfer.Stops (t : Transfer) (sink : Sink) (bytes : Bytes) (m : Nat) : Prop where
  /-- It is the least place at which such a transfer stops. -/
  least : IsLeast {k | sink.StopsAt bytes.length k} m
  /-- As much was taken as there is, as there is room for, and as the steps before allow. -/
  count : (t.taken.length : ℕ∞) = min (min sink.room bytes.length) (sink.allowance m)
  /-- If all was taken then the step at the place is not used up. -/
  complete : t.fault? = none → t.sink.writes = dropUninterrupted m sink.writes
  /-- Else it is, and the fault is the one it stops with. -/
  fault : ∀ fault, t.fault? = some fault → fault = (sink.stepAt m).stopFault ∧
    t.sink.writes = dropUninterrupted (m + 1) sink.writes

namespace Transfer.Stops

variable {sink next : Sink} {bytes : Bytes} {t : Transfer} {m : Nat}

/-- Nothing was to be sent. -/
theorem nil (sink : Sink) : Stops ⟨none, [], [], sink⟩ sink [] 0 where
  least := ⟨Or.inr (Or.inr (by simp)), fun _ _ => Nat.zero_le _⟩
  count := by simp
  complete := fun _ => (dropUninterrupted_zero sink.writes).symm
  fault := fun _ h => by cases h

/-- The first step stopped it. -/
theorem stop (hn : ¬sink.nextWrite.IsInterruption) (hw : next.writes = sink.writes.tail)
    (hstops : sink.StopsAt bytes.length 0) {fault : Fault}
    (hfault : fault = sink.nextWrite.stopFault) (events : List Event) :
    Stops ⟨some fault, events, [], next⟩ sink bytes 0 where
  least := ⟨hstops, fun _ _ => Nat.zero_le _⟩
  count := by simp [Sink.allowance_zero]
  complete := fun h => by cases h
  fault := fun cause hcause => by
    obtain rfl := Option.some.inj hcause
    rw [Sink.stepAt_zero hn, Sink.dropUninterrupted_succ hn, dropUninterrupted_zero]
    exact ⟨hfault, hw⟩

/-- A part was taken, and the transfer of the rest stops one place earlier. -/
theorem part {count : Nat} (hpos : 0 < count) {event : Event}
    (h : (sink.write bytes).1 = .took count)
    (ht : t.Stops (sink.write bytes).2 (bytes.drop count) m) :
    (t.after event (bytes.take count)).Stops sink bytes (m + 1) := by
  have hn : ¬sink.nextWrite.IsInterruption := Sink.not_isInterruption_of_took h
  have hw : (sink.write bytes).2.writes = sink.writes.tail := Sink.writes_write sink bytes
  have hle : count ≤ bytes.length := (Sink.write_of_took h).1
  -- the room and the bytes left are less by the part, and so is what stops the transfer
  have hwhole : min sink.room bytes.length =
      min (sink.write bytes).2.room (bytes.drop count).length + count := by
    rw [← min_add_add_right, ← Sink.room_of_took h, List.length_drop, ← Nat.cast_add,
      Nat.sub_add_cancel hle]
  have hpart := Sink.coe_of_took h
  rw [hwhole] at hpart
  have hcount : (count : ℕ∞) ≠ 0 := Nat.cast_ne_zero.mpr (Nat.ne_of_gt hpos)
  refine ⟨isLeast_succ ?_ (fun k => ?_) ht.least, ?_, fun hnone => ?_, fun fault hfault => ?_⟩
  · -- the first step takes a part
    rw [Sink.StopsAt, Sink.stepAt_zero hn, Sink.allowance_zero, hwhole]
    rintro (⟨fault, hfault⟩ | hlimit | hfull)
    · rw [hfault, Step.limit, min_eq_left zero_le] at hpart
      exact hcount hpart
    · rw [hlimit, min_eq_left zero_le] at hpart
      exact hcount hpart
    · exact hcount (nonpos_iff_eq_zero.mp (le_add_self.trans hfull))
  · rw [Sink.StopsAt, Sink.StopsAt, Sink.stepAt_succ hn hw, Sink.allowance_succ hn hw, hwhole,
      add_le_add_iff_of_part hpart]
  · rw [after, List.length_append, List.length_take, Nat.min_eq_left hle, Nat.cast_add, ht.count,
      hwhole, Sink.allowance_succ hn hw, min_add_of_part hpart]
  · rw [Sink.dropUninterrupted_succ hn, ← hw]
    exact ht.complete hnone
  · rw [Sink.stepAt_succ hn hw, Sink.dropUninterrupted_succ hn, ← hw]
    exact ht.fault fault hfault

/-- The offer was interrupted and made again, and the transfer stops at the same place. -/
theorem again (hb : bytes ≠ []) {event : Event} {fault : Fault}
    (h : (sink.write bytes).1 = .failed fault) (hf : fault.IsInterruption)
    (hall : t.fault? = none → t.taken = bytes) (ht : t.Stops (sink.write bytes).2 bytes m) :
    (t.after event []).Stops sink bytes m := by
  obtain ⟨hstep, hnext⟩ := Sink.write_of_failed h
  have hn : sink.nextWrite.IsInterruption := by
    rw [hstep]
    exact hf
  rw [hnext] at ht
  have hsteps : ∀ k, sink.stepAt k = sink.refuse.stepAt k := Sink.stepAt_of_isInterruption hn rfl
  have hallowance : ∀ k, sink.allowance k = sink.refuse.allowance k := fun k => by
    simp only [Sink.allowance, hsteps]
  have hstops : ∀ k, sink.StopsAt bytes.length k ↔ sink.refuse.StopsAt bytes.length k := fun k => by
    rw [Sink.StopsAt, hsteps, hallowance]
    rfl
  refine ⟨?_, ?_, fun hnone => ?_, fun cause hcause => ?_⟩
  · simpa only [hstops] using ht.least
  · rw [hallowance]
    exact ht.count
  · -- no bytes are taken before the first step, so that is used up and the interruption with it
    obtain ⟨k, rfl⟩ : ∃ k, m = k + 1 := by
      refine Nat.exists_eq_succ_of_ne_zero fun hm => hb ?_
      have hcount := ht.count
      rw [hm, Sink.allowance_zero, min_eq_right zero_le, hall hnone] at hcount
      exact List.length_eq_zero_iff.mp (Nat.cast_eq_zero.mp hcount)
    rw [Sink.dropUninterrupted_succ_of_isInterruption hn]
    exact ht.complete hnone
  · rw [hsteps, Sink.dropUninterrupted_succ_of_isInterruption hn]
    exact ht.fault cause hcause

end Transfer.Stops

namespace Sink

variable {sink : Sink}

/-- **Every transfer stops at the least place**: one case for each way a turn of the loop
can go. -/
theorem exists_stops_pour (sink : Sink) (bytes : Bytes) :
    ∃ m, (sink.pour bytes).Stops sink bytes m := by
  fun_induction pour sink bytes with
  | case1 sink => exact ⟨0, .nil sink⟩
  | case2 sink bytes hb next h =>
    have hn := not_isInterruption_of_took h
    have htook := coe_of_took h
    refine ⟨0, .stop hn (writes_write sink bytes) ?_ (stopFault_of_took h).symm _⟩
    -- the step takes nothing, or there is nothing that it may take
    rw [StopsAt, stepAt_zero hn, allowance_zero, ← nonpos_iff_eq_zero]
    exact Or.inr (min_le_iff.mp htook.ge)
  | case3 sink bytes hb next n h ih =>
    obtain ⟨m, hm⟩ := ih
    exact ⟨m + 1, .part n.succ_pos h hm⟩
  | case4 sink bytes hb next fault h hf ih =>
    obtain ⟨m, hm⟩ := ih
    exact ⟨m, .again hb h hf (accounts_pour next bytes).complete.mp hm⟩
  | case5 sink bytes hb next fault h hf =>
    obtain ⟨hstep, -⟩ := write_of_failed h
    have hn : ¬sink.nextWrite.IsInterruption := by
      rw [hstep]
      exact hf
    refine ⟨0, .stop hn (writes_write sink bytes) (Or.inl ⟨fault, ?_⟩) ?_ _⟩
    · rw [stepAt_zero hn, hstep]
    · rw [hstep, Step.stopFault]

end Sink

/-! ### The notice -/

namespace Notice

/-- **Where the notice stops.** The transfer of the line stops at the least place of the
uninterrupted script where the step is a fault or takes nothing, or where the limits of the
steps before have reached the room in the sink or the line's length. The least of these three,
the line's length, the room and the limits together, is what is taken. If that is all of the
line then the step at the place is left for the next line, and a flush decides the result. If
not then the step is used up too, no flush is made, and the result is the step's fault, or
that nothing was taken if it has none. -/
theorem deliver_stops (sink : Sink) {capacity? : Option Nat}
    (hs : sink.intake = .piecemeal capacity?) :
    ∃ m n : Nat, IsLeast {k | sink.StopsAt 148 k} m ∧
      (n : ℕ∞) = min 148 (min sink.room (sink.allowance m)) ∧
      (deliver sink).taken = line.take n ∧
      (n = 148 →
        (deliver sink).sink.writes = dropUninterrupted m sink.writes ∧
        (∀ k, (deliver sink).sink.stepAt k = sink.stepAt (m + k)) ∧
        (deliver sink).error? = (sink.flushes.headD none).map .flush ∧
        (deliver sink).events.filter Event.IsFlush = [.flush (sink.flushes.headD none)] ∧
        (deliver sink).sink.flushes = sink.flushes.tail) ∧
      (n ≠ 148 →
        (deliver sink).sink.writes = dropUninterrupted (m + 1) sink.writes ∧
        (deliver sink).sink.flushes = sink.flushes ∧
        (∀ event ∈ (deliver sink).events, ¬event.IsFlush) ∧
        ∃ error fault, (deliver sink).error? = some error ∧ error = .write fault ∧
          error.message = "cannot write to stderr: " ++ fault.text ∧
          (∀ cause, sink.stepAt m = .fail cause → fault = cause) ∧
          ((∀ cause, sink.stepAt m ≠ .fail cause) → fault.kind = .writeZero ∧
            fault.text = "failed to write whole buffer" ∧ fault.code? = none)) := by
  have hl := line_ne_nil
  have hpour : sink.transfer line = sink.pour line := by simp only [Sink.transfer, hs]
  obtain ⟨m, hstops⟩ := Sink.exists_stops_pour sink line
  have hbooks := Sink.accounts_transfer sink hl
  rw [← hpour] at hstops
  obtain ⟨flushes, hsink⟩ := Sink.sink_deliver sink line
  have hwrites : (deliver sink).sink.writes = (sink.transfer line).sink.writes := by
    rw [deliver, hsink]
  have htaken : (deliver sink).taken = (sink.transfer line).taken := Sink.taken_deliver sink line
  -- all of the line was taken exactly if no fault ended the transfer
  have hall : (sink.transfer line).fault? = none ↔ (sink.transfer line).taken.length = 148 := by
    rw [hbooks.complete, ← length_line]
    exact ⟨congrArg _, hbooks.front.eq_of_length⟩
  refine ⟨m, (sink.transfer line).taken.length, ?_, ?_, ?_, fun hn => ?_, fun hn => ?_⟩
  · rw [← length_line]
    exact hstops.least
  · rw [hstops.count, length_line, min_comm sink.room, min_assoc]
    rfl
  · rw [htaken]
    exact List.prefix_iff_eq_take.mp hbooks.front
  · have hnone := hall.mpr hn
    obtain ⟨herror, hevents, hflushes⟩ := Sink.flush_deliver hl (Sink.reached_deliver_iff.mpr hnone)
    have hleft := hwrites.trans (hstops.complete hnone)
    exact ⟨hleft, Sink.stepAt_of_writes_eq hleft, herror, hevents, hflushes⟩
  · obtain ⟨fault, hfault⟩ := Option.ne_none_iff_exists'.mp (mt hall.mp hn)
    obtain ⟨hstep, hleft⟩ := hstops.fault fault hfault
    have herror := Sink.error?_deliver_eq_write_iff.mpr hfault
    obtain ⟨hflushes, hevents⟩ := Sink.flushes_deliver_of_cutShort hl ⟨fault, herror⟩
    refine ⟨hwrites.trans hleft, hflushes, hevents, _, fault, herror, rfl, rfl, ?_, ?_⟩
    · intro cause hcause
      rw [hstep, hcause, Step.stopFault]
    · intro hnot
      rw [hstep, Step.stopFault_of_not_fail hnot]
      exact ⟨rfl, rfl, rfl⟩

/-- A sink with room for a hundred bytes takes thirty, is interrupted, takes what else it has
room for, and breaks. The script's fault is the result, although a sink that is full and does
not break takes nothing. -/
theorem deliver_stops_at_broken_pipe :
    let sink : Sink := {
      intake := .piecemeal (some 200)
      writes := [.accept 30, .fail (.system 4), .all, .fail (.plain .brokenPipe)]
      received := [List.replicate 100 0x20] }
    IsLeast {k | sink.StopsAt 148 k} 2 ∧ sink.room = 100 ∧
      (deliver sink).taken = line.take 100 ∧ (deliver sink).sink.writes = [] ∧
      ∃ error, (deliver sink).error? = some error ∧ error = .write (.plain .brokenPipe) ∧
        error.message = "cannot write to stderr: broken pipe" := by
  intro sink
  have hroom : sink.room = 100 := rfl
  have hfirst : sink.stepAt 0 = .accept 30 := rfl
  have hsecond : sink.stepAt 1 = .all := rfl
  have hallowance : sink.allowance 1 = 30 := by
    rw [Sink.allowance, Finset.sum_range_one, hfirst]
    rfl
  have hleast : IsLeast {k | sink.StopsAt 148 k} 2 := by
    refine ⟨Or.inl ⟨.plain .brokenPipe, rfl⟩, fun k hk => ?_⟩
    match k with
    | 0 => simp [Sink.StopsAt, hfirst, hroom, Sink.allowance_zero, Step.limit] at hk
    | 1 =>
      rcases hk with ⟨fault, hfail⟩ | hnone | hfull
      · exact absurd (hsecond.symm.trans hfail) (by simp)
      · rw [hsecond] at hnone
        exact absurd hnone (by decide)
      · -- thirty bytes are less than the room, and less than the line
        rw [hroom, hallowance] at hfull
        exact absurd hfull (by decide)
    | k + 2 => exact Nat.le_add_left 2 k
  obtain ⟨m, n, hm, hn, htaken, -, hcut⟩ := deliver_stops sink rfl
  obtain rfl := hm.unique hleast
  have hfull : sink.allowance 2 = ⊤ := by
    rw [Sink.allowance, Finset.sum_range_succ, hsecond]
    exact add_top _
  obtain rfl : n = 100 := by
    rw [hroom, hfull, min_top_right, min_eq_right (by decide)] at hn
    exact Nat.cast_inj.mp hn
  obtain ⟨hleft, -, -, error, fault, herror, rfl, hmessage, hcause, -⟩ := hcut (by decide)
  obtain rfl := hcause (.plain .brokenPipe) rfl
  exact ⟨hleast, hroom, htaken, hleft, _, herror, rfl, hmessage⟩

end Notice

end RetiredCommand
