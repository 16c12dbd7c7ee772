import RetiredCommand.Proofs.Exchange
import RetiredCommand.Proofs.Flushing

/-!
# Filling a sink

A **willing** sink takes something of every offer for which it has room, or asks for the
offer again, and its flushes do not fail. All that can stop a line on its way to such a
sink is that there is no more room, so what is taken of a line is what fits, however small
the parts in which it is taken (`RetiredCommand.Sink.pour_of_willing`).

A run of deliveries therefore fills a willing sink exactly. It holds the lines one after
another, up to its capacity; the line that does not fit is cut at the last free byte; and
every line after that has no byte of it taken. None of this depends on the script, and two
runs to willing sinks of the same capacity come to the same
(`RetiredCommand.Notice.deliveries_fill`).
-/

namespace RetiredCommand

/-- Whether a step takes something of whatever is offered, or asks for the offer again. -/
def Step.IsWilling : Step → Prop
  | all => True
  | accept limit => 1 ≤ limit
  | fail fault => fault.IsInterruption

instance (step : Step) : Decidable step.IsWilling :=
  match step with
  | .all => .isTrue trivial
  | .accept limit => inferInstanceAs (Decidable (1 ≤ limit))
  | .fail fault => inferInstanceAs (Decidable fault.IsInterruption)

/-- A sink that has nothing but its capacity to stop a line. -/
structure Sink.IsWilling (sink : Sink) : Prop where
  /-- It takes something of each offer or asks for it again. -/
  writes : ∀ step ∈ sink.writes, step.IsWilling
  /-- It can be flushed. -/
  flushes : ∀ fault? ∈ sink.flushes, fault? = none

namespace Sink

variable {sink : Sink} {line : Bytes}

/-! ### What fits -/

/-- What fits depends on nothing but the capacity and how much the sink holds. -/
theorem fit_congr {other : Sink} (hi : sink.intake = other.intake)
    (ht : sink.total = other.total) (count : Nat) : sink.fit count = other.fit count := by
  rw [fit, fit, hi, ht]

/-- What fits of what fits is all of it. -/
theorem fit_fit (sink : Sink) (count : Nat) : sink.fit (sink.fit count) = sink.fit count := by
  rcases h : sink.intake with (_ | capacity) | _
  · simp only [fit, h]
  · simp only [fit, h]
    omega
  · simp only [fit, h]

/-- If nothing of something fits then nothing of anything does. -/
theorem fit_eq_zero {count : Nat} (hpos : 1 ≤ count) (h : sink.fit count = 0) (more : Nat) :
    sink.fit more = 0 := by
  rcases hi : sink.intake with (_ | capacity) | _ <;> simp only [fit, hi] at h ⊢ <;> omega

/-- Once a part that fits is taken, there fits as much less. -/
theorem fit_add {part : Nat} (h : sink.fit part = part) {bytes : Bytes}
    (hb : bytes.length = part) (rest : Nat) :
    sink.fit (part + rest) = part + (sink.take bytes).fit rest := by
  have hi : (sink.take bytes).intake = sink.intake := rfl
  rcases hs : sink.intake with (_ | capacity) | _
  · simp only [fit, hi, hs]
  · simp only [fit, hi, hs, total_take] at h ⊢
    omega
  · simp only [fit, hi, hs]

/-! ### One offer -/

/-- A willing step that takes a part takes what fits of at least one byte. -/
theorem exists_fit_of_took (hn : sink.nextWrite.IsWilling) {offer : Bytes} (hb : offer ≠ [])
    {count : Nat} (h : (sink.write offer).1 = .took count) :
    ∃ limit, 1 ≤ limit ∧ count = sink.fit limit := by
  have hpos : 1 ≤ offer.length := List.length_pos_iff.mpr hb
  rcases hstep : sink.nextWrite with _ | limit | fault
  · simp only [write, hstep, Step.reply, Reply.took.injEq] at h
    exact ⟨offer.length, hpos, h.symm⟩
  · rw [hstep] at hn
    simp only [write, hstep, Step.reply, Reply.took.injEq] at h
    exact ⟨min limit offer.length, Nat.le_min.mpr ⟨hn, hpos⟩, h.symm⟩
  · simp [write, hstep, Step.reply] at h

/-- What fits of an offer is what was taken of it, and then what fits of the rest. -/
theorem fit_of_took {offer : Bytes} {count : Nat} (h : (sink.write offer).1 = .took count) :
    sink.fit offer.length = count + (sink.write offer).2.fit (offer.drop count).length := by
  obtain ⟨hle, hnext, limit, hfit⟩ := write_of_took h
  have hpart : sink.fit count = count := by rw [hfit, fit_fit]
  have hlength : (offer.take count).length = count := by
    rw [List.length_take, Nat.min_eq_left hle]
  rw [hnext, ← fit_add hpart hlength, List.length_drop, Nat.add_sub_of_le hle]

/-- An offer puts no step into the script. -/
theorem mem_of_mem_writes_write {offer : Bytes} {step : Step}
    (h : step ∈ (sink.write offer).2.writes) : step ∈ sink.writes := by
  rw [writes_write] at h
  exact List.mem_of_mem_tail h

/-- A willing step that fails is an interruption. -/
theorem isInterruption_of_failed (hn : sink.nextWrite.IsWilling) {offer : Bytes} {fault : Fault}
    (h : (sink.write offer).1 = .failed fault) : fault.IsInterruption := by
  rw [(write_of_failed h).1] at hn
  exact hn

/-! ### One delivery -/

/-- **A willing sink takes what fits**, in parts of whatever size, and gives up only for
lack of room. -/
theorem pour_of_willing (sink : Sink) (bytes : Bytes) (hw : ∀ step ∈ sink.writes, step.IsWilling) :
    (sink.pour bytes).taken = bytes.take (sink.fit bytes.length) ∧
      (sink.pour bytes).fault? =
        if sink.fit bytes.length = bytes.length then none else some .nothingTaken := by
  fun_induction pour sink bytes with
  | case1 sink => simp [Nat.le_zero.mp (fit_le sink 0)]
  | case2 sink bytes hb next h =>
    -- nothing was taken, so there is no room for anything
    obtain ⟨limit, hlimit, hzero⟩ := exists_fit_of_took (nextWrite_of_forall trivial hw) hb h
    have hpos : 0 < bytes.length := List.length_pos_iff.mpr hb
    rw [fit_eq_zero hlimit hzero.symm, if_neg (Nat.ne_of_lt hpos)]
    exact ⟨rfl, rfl⟩
  | case3 sink bytes hb next n h ih =>
    obtain ⟨htaken, hfault⟩ := ih fun step hstep => hw step (mem_of_mem_writes_write hstep)
    have hfit : sink.fit bytes.length = n + 1 + next.fit (bytes.drop (n + 1)).length :=
      fit_of_took h
    have hle : n + 1 ≤ bytes.length := (write_of_took h).1
    rw [hfit]
    refine ⟨?_, ?_⟩
    · rw [Transfer.after, htaken, ← List.take_add]
    · -- the whole fits exactly if the rest fits after the part
      have hsame : n + 1 + next.fit (bytes.drop (n + 1)).length = bytes.length ↔
          next.fit (bytes.drop (n + 1)).length = (bytes.drop (n + 1)).length := by
        rw [List.length_drop]
        omega
      rw [if_congr hsame rfl rfl]
      exact hfault
  | case4 sink bytes hb next fault h hf ih =>
    obtain ⟨htaken, hfault⟩ := ih fun step hstep => hw step (mem_of_mem_writes_write hstep)
    rw [show next = sink.refuse from (write_of_failed h).2] at htaken hfault ⊢
    exact ⟨htaken, hfault⟩
  | case5 sink bytes hb next fault h hf =>
    exact absurd (isInterruption_of_failed (nextWrite_of_forall trivial hw) h) hf

section Line

variable {capacity? : Option Nat} (hs : sink.intake = .piecemeal capacity?) (hw : sink.IsWilling)
  (hl : line ≠ [])

include hs hw

theorem taken_deliver_of_willing (line : Bytes) :
    (sink.deliver line).taken = line.take (sink.fit line.length) := by
  rw [taken_deliver, transfer_of_piecemeal hs]
  exact (pour_of_willing sink line hw.writes).1

include hl

/-- The result of a delivery to a willing sink: it fails exactly if the line does not fit,
and then because nothing was taken of an offer. -/
theorem error?_deliver_of_willing : (sink.deliver line).error? =
    if sink.fit line.length = line.length then none else some (.write .nothingTaken) := by
  have hpour := transfer_of_piecemeal hs line
  have hfault := (pour_of_willing sink line hw.writes).2
  rw [← hpour] at hfault
  by_cases hfit : sink.fit line.length = line.length
  · rw [if_pos hfit] at hfault ⊢
    rw [(flush_deliver hl (reached_deliver_iff.mpr hfault)).1]
    -- the next flush is one of the script's, or the good one
    rcases hflushes : sink.flushes with _ | ⟨fault?, flushes⟩
    · rfl
    · rw [List.headD_cons, hw.flushes fault? (hflushes ▸ List.mem_cons_self), Option.map_none]
  · rw [if_neg hfit] at hfault ⊢
    exact error?_deliver_eq_write_iff.mpr hfault

theorem isWilling_deliver : (sink.deliver line).sink.IsWilling where
  writes := fun step hstep => by
    obtain ⟨flushes, h⟩ := sink_deliver sink line
    rw [h] at hstep
    simp only [transfer, hs, writes_pour] at hstep
    exact hw.writes step (List.mem_of_mem_drop hstep)
  flushes := fun fault? hfault => by
    by_cases h : (sink.deliver line).Reached
    · rw [(flush_deliver hl h).2.2] at hfault
      exact hw.flushes fault? (List.mem_of_mem_tail hfault)
    · rw [Delivery.reached_iff_not_cutShort, not_not] at h
      rw [(flushes_deliver_of_cutShort hl h).1] at hfault
      exact hw.flushes fault? hfault

theorem total_deliver_of_willing :
    (sink.deliver line).sink.total = sink.total + sink.fit line.length := by
  rw [total_deliver hl, taken_deliver_of_willing hs hw, List.length_take,
    Nat.min_eq_left (fit_le sink line.length)]

/-! ### A run -/

theorem isWilling_after (n : Nat) :
    (sink.after line n).intake = .piecemeal capacity? ∧ (sink.after line n).IsWilling :=
  after_invariant (P := fun s => s.intake = .piecemeal capacity? ∧ s.IsWilling)
    (fun _ h => ⟨(intake_deliver hl).trans h.1, isWilling_deliver h.1 h.2 hl⟩) ⟨hs, hw⟩ n

/-- **A run fills a willing sink**: it holds the lines that fit, and of the one after them
what fits. -/
theorem total_after_of_willing (h0 : sink.total = 0) (n : Nat) : (sink.after line n).total =
    capacity?.elim (line.length * n) (min · (line.length * n)) := by
  induction n with
  | zero => cases capacity? <;> simp [after, h0]
  | succ n ih =>
    obtain ⟨hsn, hwn⟩ := isWilling_after hs hw hl n
    rw [← sink_deliver_after, total_deliver_of_willing hsn hwn hl, fit, hsn, ih, Nat.mul_succ]
    rcases capacity? with _ | capacity
    · rfl
    · simp only [Option.elim_some]
      omega

end Line

end Sink

/-! ### The notice -/

namespace Notice

/-- **Filling a sink.** A run on a willing sink that holds nothing at first delivers, at
place `i`, what fits of the line after `i` others: all of it and no error if the first
`i + 1` lines are not longer than the capacity, and else the front of it up to the last free
byte, with the fault of an offer of which nothing was taken. What the sink holds is
the lines together or the capacity, whichever is less; without a capacity it is the lines.
So the script does not matter: another willing sink of that capacity sees the same. -/
theorem deliveries_fill (sink : Sink) {capacity? : Option Nat}
    (hs : sink.intake = .piecemeal capacity?) (hempty : sink.held = []) (hw : sink.IsWilling)
    (times : Nat) :
    (∀ (i : Nat) (d : Delivery), (deliveries sink times)[i]? = some d →
      (∀ capacity, capacity? = some capacity →
        (d.error? = none ↔ 148 * (i + 1) ≤ capacity) ∧
        d.taken = line.take (min 148 (capacity - min capacity (148 * i))) ∧
        d.sink.total = min capacity (148 * (i + 1))) ∧
      (capacity? = none → d.error? = none ∧ d.taken = line ∧ d.sink.total = 148 * (i + 1)) ∧
      ∀ error, d.error? = some error → ∃ fault, error = .write fault ∧
        fault.kind = .writeZero ∧ fault.text = "failed to write whole buffer") ∧
    ∀ other : Sink, other.intake = .piecemeal capacity? → other.held = [] → other.IsWilling →
      List.Forall₂ Delivery.SameOutcome (deliveries sink times) (deliveries other times) := by
  have hl := line_ne_nil
  have h0 : ∀ s : Sink, s.held = [] → s.total = 0 := fun s h => by
    rw [← Sink.length_held, h, List.length_nil]
  constructor
  · intro i d hd
    obtain ⟨-, rfl⟩ := Sink.eq_deliver_of_getElem? hd
    obtain ⟨hsi, hwi⟩ := Sink.isWilling_after hs hw hl i
    have hbefore := Sink.total_after_of_willing hs hw hl (h0 sink hempty) i
    have hafter := Sink.total_after_of_willing hs hw hl (h0 sink hempty) (i + 1)
    have herror := Sink.error?_deliver_of_willing hsi hwi hl
    have htaken := Sink.taken_deliver_of_willing hsi hwi line
    rw [length_line] at hbefore hafter herror htaken
    rw [Sink.sink_deliver_after, hafter, htaken, herror]
    refine ⟨?_, ?_, ?_⟩
    · rintro capacity rfl
      have hfit : (sink.after line i).fit 148 = min 148 (capacity - min capacity (148 * i)) := by
        simp only [Sink.fit, hsi, hbefore, Option.elim_some]
      rw [hfit]
      refine ⟨?_, rfl, rfl⟩
      have hiff : min 148 (capacity - min capacity (148 * i)) = 148 ↔
          148 * (i + 1) ≤ capacity := by omega
      simp [hiff]
    · rintro rfl
      have hfit : (sink.after line i).fit 148 = 148 := by simp only [Sink.fit, hsi]
      rw [hfit, if_pos rfl, List.take_of_length_le (Nat.le_of_eq length_line)]
      exact ⟨rfl, rfl, rfl⟩
    · intro error h
      split at h
      · cases h
      · exact ⟨.nothingTaken, (Option.some.inj h).symm, rfl, rfl⟩
  · intro other hso hempty' hwo
    -- both sinks are willing and hold equally much before each delivery
    refine Sink.forall₂_deliveries (R := fun s t =>
      (s.intake = .piecemeal capacity? ∧ s.IsWilling) ∧
        (t.intake = .piecemeal capacity? ∧ t.IsWilling) ∧ s.total = t.total) ?_
      ⟨⟨hs, hw⟩, ⟨hso, hwo⟩, (h0 sink hempty).trans (h0 other hempty').symm⟩ times
    rintro s t ⟨⟨hsi, hws⟩, ⟨hti, hwt⟩, htotal⟩
    have hfit := Sink.fit_congr (hsi.trans hti.symm) htotal line.length
    have hsum : (s.deliver line).sink.total = (t.deliver line).sink.total := by
      rw [Sink.total_deliver_of_willing hsi hws hl, Sink.total_deliver_of_willing hti hwt hl,
        hfit, htotal]
    refine ⟨⟨?_, ?_, hsum⟩, ?_, ?_, hsum⟩
    · rw [Sink.error?_deliver_of_willing hsi hws hl, Sink.error?_deliver_of_willing hti hwt hl,
        hfit]
    · rw [Sink.taken_deliver_of_willing hsi hws, Sink.taken_deliver_of_willing hti hwt, hfit]
    · exact ⟨(Sink.intake_deliver hl).trans hsi, Sink.isWilling_deliver hsi hws hl⟩
    · exact ⟨(Sink.intake_deliver hl).trans hti, Sink.isWilling_deliver hti hwt hl⟩

/-- A sink with room for two hundred bytes that takes a single byte, is interrupted, and then
takes parts across the end of the line has room for fifty-two bytes of the second line, as one
has that takes all it can. -/
theorem deliveries_fill_narrow_sink :
    let sink : Sink := {
      intake := .piecemeal (some 200)
      writes := [.accept 1, .fail (.system 4), .accept 100, .accept 99, .accept 7]
      flushes := [none] }
    let other : Sink := { intake := .piecemeal (some 200) }
    let second := (sink.deliver line).sink.deliver line
    sink.IsWilling ∧ other.IsWilling ∧ (deliveries sink 3)[1]? = some second ∧
      second.error? ≠ none ∧ second.taken = line.take 52 ∧ second.sink.total = 200 ∧
      List.Forall₂ Delivery.SameOutcome (deliveries sink 3) (deliveries other 3) := by
  intro sink other second
  have hsink : sink.IsWilling := ⟨by decide, by decide⟩
  have hother : other.IsWilling := ⟨by decide, by decide⟩
  obtain ⟨hcalls, hsame⟩ := deliveries_fill sink rfl rfl hsink 3
  obtain ⟨hbounded, -, -⟩ := hcalls 1 second rfl
  obtain ⟨hresult, htaken, htotal⟩ := hbounded 200 rfl
  exact ⟨hsink, hother, rfl, fun h => absurd (hresult.mp h) (by decide), htaken, htotal,
    hsame other rfl rfl hother⟩

end Notice

end RetiredCommand
