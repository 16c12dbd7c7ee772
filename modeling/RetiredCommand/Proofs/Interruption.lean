import Mathlib.Data.List.Forall2
import Mathlib.Logic.Relation
import RetiredCommand.Proofs.Accounting

/-!
# Interruptions are not seen

An offer that is interrupted is made again, so an interruption costs a step of the
script and leaves an event behind, and does nothing else. This file makes the
statement about two runs, on sinks whose scripts differ by interruptions anywhere
(`RetiredCommand.AgreeButForInterruptions`), and proves it by way of a third.

The third run is the calm one: `RetiredCommand.Sink.calm` drops the interruptions
from a script, `RetiredCommand.Delivery.calm` drops their events from what was seen.
To calm a sink and then deliver is to deliver and then calm what came of it
(`RetiredCommand.Sink.deliver_calm`). Scripts that agree but for interruptions have
the same calm script, so both runs have the same calm run. The interruptions that one
delivery leaves unread are no trouble here: they are calmed away with the sink.

None of this is true of a sink that takes lines whole, where an interruption is the
answer, nor of a flush, which is made once.
-/

namespace RetiredCommand

/-! ### Scripts that agree but for interruptions -/

/-- Whether a step only says that nothing has happened yet. -/
def Step.IsInterruption : Step → Prop
  | .fail fault => fault.IsInterruption
  | _ => False

instance (step : Step) : Decidable step.IsInterruption :=
  match step with
  | .fail fault => inferInstanceAs (Decidable fault.IsInterruption)
  | .all => .isFalse id
  | .accept _ => .isFalse id

/-- The steps of a script that are no interruptions. -/
def uninterrupted (script : List Step) : List Step :=
  script.filter fun step => ¬step.IsInterruption

/-- One interruption is put somewhere into a script. -/
def InsertsInterruption (script longer : List Step) : Prop :=
  ∃ front fault back, Fault.IsInterruption fault ∧ script = front ++ back ∧
    longer = front ++ .fail fault :: back

/-- Scripts got from each other by putting in interruptions and taking them out, as
many as one likes and wherever one likes. -/
abbrev AgreeButForInterruptions : List Step → List Step → Prop :=
  Relation.EqvGen InsertsInterruption

theorem uninterrupted_cons_of_isInterruption {step : Step} (h : step.IsInterruption)
    (script : List Step) : uninterrupted (step :: script) = uninterrupted script :=
  List.filter_cons_of_neg (by simpa using h)

theorem uninterrupted_cons_of_not {step : Step} (h : ¬step.IsInterruption)
    (script : List Step) : uninterrupted (step :: script) = step :: uninterrupted script :=
  List.filter_cons_of_pos (by simpa using h)

theorem AgreeButForInterruptions.cons {script other : List Step} (step : Step)
    (h : AgreeButForInterruptions script other) :
    AgreeButForInterruptions (step :: script) (step :: other) := by
  induction h with
  | rel script longer h =>
    obtain ⟨front, fault, back, hf, rfl, rfl⟩ := h
    exact .rel _ _ ⟨step :: front, fault, back, hf, rfl, rfl⟩
  | refl script => exact .refl _
  | symm _ _ _ ih => exact .symm _ _ ih
  | trans _ _ _ _ _ ih ih' => exact .trans _ _ _ ih ih'

/-- A script agrees with what is left of it without its interruptions. -/
theorem agreeButForInterruptions_uninterrupted (script : List Step) :
    AgreeButForInterruptions script (uninterrupted script) := by
  induction script with
  | nil => exact .refl _
  | cons step script ih =>
    by_cases h : step.IsInterruption
    · rw [uninterrupted_cons_of_isInterruption h]
      obtain ⟨fault, rfl⟩ : ∃ fault, step = .fail fault := by
        cases step with
        | fail fault => exact ⟨fault, rfl⟩
        | all => exact h.elim
        | accept => exact h.elim
      exact .trans _ _ _ (.symm _ _ (.rel _ _ ⟨[], fault, script, h, rfl, rfl⟩)) ih
    · rw [uninterrupted_cons_of_not h]
      exact ih.cons step

/-- **Scripts agree but for interruptions exactly if their other steps are the same.** -/
theorem agreeButForInterruptions_iff {script other : List Step} :
    AgreeButForInterruptions script other ↔ uninterrupted script = uninterrupted other := by
  constructor
  · intro h
    induction h with
    | rel script longer h =>
      obtain ⟨front, fault, back, hf, rfl, rfl⟩ := h
      rw [uninterrupted, List.filter_append, uninterrupted, List.filter_append]
      have hstep : Step.IsInterruption (.fail fault) := hf
      exact congrArg _ (uninterrupted_cons_of_isInterruption hstep back).symm
    | refl => rfl
    | symm _ _ _ ih => exact ih.symm
    | trans _ _ _ _ _ ih ih' => exact ih.trans ih'
  · intro h
    -- by way of the steps that they have in common
    have hother := agreeButForInterruptions_uninterrupted other
    exact .trans _ _ _ (agreeButForInterruptions_uninterrupted script) (h ▸ .symm _ _ hother)

/-! ### Calming what happens -/

namespace Event

/-- Whether an event is an offer that was interrupted. -/
def IsInterruption : Event → Prop
  | write _ (.failed fault) => fault.IsInterruption
  | _ => False

instance (event : Event) : Decidable event.IsInterruption :=
  match event with
  | .write _ (.failed fault) => inferInstanceAs (Decidable fault.IsInterruption)
  | .write _ (.took _) => .isFalse id
  | .writeAll _ _ => .isFalse id
  | .flush _ => .isFalse id

/-- The events that are no interrupted offers. -/
def uninterrupted (events : List Event) : List Event :=
  events.filter fun event => ¬event.IsInterruption

theorem uninterrupted_cons_of_isInterruption {event : Event} (h : event.IsInterruption)
    (events : List Event) : uninterrupted (event :: events) = uninterrupted events :=
  List.filter_cons_of_neg (by simpa using h)

theorem uninterrupted_cons_of_not {event : Event} (h : ¬event.IsInterruption)
    (events : List Event) : uninterrupted (event :: events) = event :: uninterrupted events :=
  List.filter_cons_of_pos (by simpa using h)

end Event

/-- The sink without the interruptions to come. -/
def Sink.calm (sink : Sink) : Sink :=
  { sink with writes := uninterrupted sink.writes }

theorem Sink.total_calm (sink : Sink) : sink.calm.total = sink.total := rfl

theorem Sink.held_calm (sink : Sink) : sink.calm.held = sink.held := rfl

/-- The transfer as if nothing had been interrupted. -/
def Transfer.calm (t : Transfer) : Transfer :=
  { t with events := Event.uninterrupted t.events, sink := t.sink.calm }

/-- The delivery as if nothing had been interrupted. -/
def Delivery.calm (d : Delivery) : Delivery :=
  { d with events := Event.uninterrupted d.events, sink := d.sink.calm }

/-- An interrupted offer is not part of a calm transfer. -/
theorem Transfer.calm_after_of_isInterruption {event : Event} (h : event.IsInterruption)
    (t : Transfer) : (t.after event []).calm = t.calm := by
  simp only [calm, after, Event.uninterrupted_cons_of_isInterruption h, List.nil_append]

/-- Any other offer is. -/
theorem Transfer.calm_after_of_not {event : Event} (h : ¬event.IsInterruption) (bytes : Bytes)
    (t : Transfer) : (t.after event bytes).calm = t.calm.after event bytes := by
  simp only [calm, after, Event.uninterrupted_cons_of_not h]

namespace Sink

variable {sink : Sink}

/-- An interruption that is used up leaves a sink that is calm in the same way. -/
theorem calm_refuse_of_isInterruption (h : sink.nextWrite.IsInterruption) :
    sink.refuse.calm = sink.calm := by
  rcases hw : sink.writes with _ | ⟨step, script⟩
  · simp only [nextWrite, hw, List.headD_nil] at h
    exact h.elim
  · simp only [nextWrite, hw, List.headD_cons] at h
    simp only [calm, refuse, hw, List.tail_cons, uninterrupted_cons_of_isInterruption h]

/-- An offer of which something was taken was not interrupted. -/
theorem not_isInterruption_of_took {offer : Bytes} {count : Nat}
    (h : (sink.write offer).1 = .took count) : ¬sink.nextWrite.IsInterruption := by
  intro hn
  rcases hw : sink.nextWrite with _ | limit | fault
  · exact (hw ▸ hn : Step.all.IsInterruption)
  · exact (hw ▸ hn : (Step.accept limit).IsInterruption)
  · simp [write, hw, Step.reply] at h

/-- **Calm sinks answer alike**: unless it is an interruption, the next step is the
next one of the calm script too, and it does the same there. -/
theorem write_calm (h : ¬sink.nextWrite.IsInterruption) (offer : Bytes) :
    sink.calm.write offer = ((sink.write offer).1, (sink.write offer).2.calm) := by
  -- a step that is no interruption is not dropped, and neither is the end of the script
  have hstep : sink.calm.nextWrite = sink.nextWrite ∧
      sink.calm.writes.tail = uninterrupted sink.writes.tail := by
    rcases hw : sink.writes with _ | ⟨step, script⟩
    · simp [calm, nextWrite, hw, uninterrupted]
    · simp only [nextWrite, hw, List.headD_cons] at h
      simp [calm, nextWrite, hw, uninterrupted_cons_of_not h]
  have htake : ∀ bytes, sink.calm.take bytes = (sink.take bytes).calm := fun bytes => by
    simp only [take, calm, ← hstep.2]
  have hrefuse : sink.calm.refuse = sink.refuse.calm := by
    simp only [refuse, calm, ← hstep.2]
  rw [write, write, hstep.1]
  split
  · exact congrArg _ (htake _)
  · exact congrArg _ hrefuse

/-- **To calm and then offer is to offer and then calm.** -/
theorem pour_calm (sink : Sink) (bytes : Bytes) :
    sink.calm.pour bytes = (sink.pour bytes).calm := by
  fun_induction pour sink bytes with
  | case1 sink => exact pour_nil sink.calm
  | case2 sink bytes hb next h =>
    have hw := write_calm (not_isInterruption_of_took h) bytes
    rw [pour_of_took_zero hb (by rw [hw, h]), hw]
    rfl
  | case3 sink bytes hb next n h ih =>
    have hw := write_calm (not_isInterruption_of_took h) bytes
    rw [pour_of_took_succ hb (by rw [hw, h]), hw, ih]
    exact (Transfer.calm_after_of_not id _ _).symm
  | case4 sink bytes hb next fault h hf ih =>
    -- the calm sink does not see this offer at all
    obtain ⟨hn, hnext⟩ := write_of_failed h
    have hstep : sink.nextWrite.IsInterruption := by
      rw [hn]
      exact hf
    have hevent : (Event.write bytes.length (.failed fault)).IsInterruption := hf
    rw [Transfer.calm_after_of_isInterruption hevent, ← ih, show next = sink.refuse from hnext,
      calm_refuse_of_isInterruption hstep]
  | case5 sink bytes hb next fault h hf =>
    have hstep : ¬sink.nextWrite.IsInterruption := by
      rw [(write_of_failed h).1]
      exact hf
    have hevent : ¬(Event.write bytes.length (.failed fault)).IsInterruption := hf
    have hw := write_calm hstep bytes
    rw [pour_of_fault hb (by rw [hw, h]) hf, hw, Transfer.calm,
      Event.uninterrupted_cons_of_not hevent]
    rfl

variable {capacity? : Option Nat} {line : Bytes}

theorem transfer_calm (hs : sink.intake = .piecemeal capacity?) (line : Bytes) :
    sink.calm.transfer line = (sink.transfer line).calm := by
  have hc : sink.calm.intake = .piecemeal capacity? := hs
  rw [transfer_of_piecemeal hs, transfer_of_piecemeal hc, pour_calm]

/-- To calm and then deliver is to deliver and then calm: a flush is no offer. -/
theorem deliver_calm (hs : sink.intake = .piecemeal capacity?) (line : Bytes) :
    sink.calm.deliver line = (sink.deliver line).calm := by
  -- the flush comes last, and is seen in both
  have hflush : ∀ events fault?, Event.uninterrupted (events ++ [.flush fault?]) =
      Event.uninterrupted events ++ [.flush fault?] := fun events fault? => by
    rw [Event.uninterrupted, List.filter_append]
    rfl
  exact deliver_of_transfer hflush (fun _ => rfl) (transfer_calm hs line)

/-- **A calm run is the run, calmed.** -/
theorem deliveries_calm (hl : line ≠ []) (hs : sink.intake = .piecemeal capacity?) (times : Nat) :
    sink.calm.deliveries line times = (sink.deliveries line times).map Delivery.calm := by
  induction times generalizing sink with
  | zero => rfl
  | succ n ih =>
    have hnext := ih ((intake_deliver hl).trans hs)
    rw [deliveries, deliveries, List.map_cons, deliver_calm hs, ← hnext]
    rfl

/-- The loop never gives up because of an interruption. -/
theorem not_isInterruption_of_fault?_pour (sink : Sink) (bytes : Bytes) :
    ∀ fault, (sink.pour bytes).fault? = some fault → ¬fault.IsInterruption := by
  fun_induction pour sink bytes with
  | case1 => simp
  | case2 => exact fun _ h => Option.some.inj h ▸ Fault.not_isInterruption_nothingTaken
  | case3 sink bytes hb next n h ih => exact ih
  | case4 sink bytes hb next fault h hf ih => exact ih
  | case5 sink bytes hb next fault h hf => exact fun _ h => Option.some.inj h ▸ hf

end Sink

/-! ### The notice -/

namespace Notice

/-- **Interruptions are not seen.** To put interruptions into the script of a sink or
to take some out changes, in every delivery of a run, neither the error nor what was
taken nor what the sink then holds, and what the sink saw only by the offers that were
interrupted. So no delivery fails with an interruption of an offer. An interruption of
the flush, on the other hand, is the error: the flush is not made again. -/
theorem deliveries_agree (sink : Sink) {capacity? : Option Nat}
    (hs : sink.intake = .piecemeal capacity?) {script : List Step}
    (h : AgreeButForInterruptions sink.writes script) (times : Nat) :
    List.Forall₂
        (fun d e : Delivery => d.error? = e.error? ∧ d.taken = e.taken ∧
          d.sink.total = e.sink.total ∧ d.sink.held = e.sink.held ∧
          Event.uninterrupted d.events = Event.uninterrupted e.events)
        (deliveries sink times) (deliveries { sink with writes := script } times) ∧
      (∀ d ∈ deliveries sink times, ∀ fault, d.error? = some (.write fault) →
        fault.kind ≠ .interrupted) ∧
      ∀ (i : Nat) (d : Delivery) (fault : Fault), (deliveries sink times)[i]? = some d →
        d.Reached → (sink.after line i).flushes.head? = some (some fault) →
        fault.kind = .interrupted →
        d.error? = some (.flush fault) ∧ d.events.filter Event.IsFlush = [.flush (some fault)] ∧
          d.sink.flushes = (sink.after line i).flushes.tail := by
  have hl := line_ne_nil
  refine ⟨?_, ?_, ?_⟩
  · -- both runs, calmed, are the run of the same calm sink
    have hother : ({ sink with writes := script } : Sink).intake = .piecemeal capacity? := hs
    have hcalm : ({ sink with writes := script } : Sink).calm = sink.calm := by
      simp only [Sink.calm, agreeButForInterruptions_iff.mp h]
    have hruns : (deliveries sink times).map Delivery.calm =
        (deliveries { sink with writes := script } times).map Delivery.calm := by
      rw [deliveries, deliveries, ← Sink.deliveries_calm hl hs, ← hcalm]
      exact Sink.deliveries_calm hl hother times
    rw [← List.forall₂_eq_eq_eq, List.forall₂_map_left_iff, List.forall₂_map_right_iff] at hruns
    refine hruns.imp fun d e hde => ?_
    simp only [Delivery.calm, Delivery.mk.injEq] at hde
    obtain ⟨herror, hevents, htaken, hsink⟩ := hde
    refine ⟨herror, htaken, ?_, ?_, hevents⟩
    · rw [← Sink.total_calm d.sink, hsink, Sink.total_calm]
    · rw [← Sink.held_calm d.sink, hsink, Sink.held_calm]
  · -- the sink takes lines piecemeal all along, so it is the loop that has failed
    intro d hd fault hfault
    obtain ⟨i, hi⟩ := List.mem_iff_getElem?.mp hd
    obtain ⟨-, rfl⟩ := Sink.eq_deliver_of_getElem? hi
    have hsi : (sink.after line i).intake = .piecemeal capacity? :=
      (Sink.intake_after hl sink i).trans hs
    have ht := Sink.error?_deliver_eq_write_iff.mp hfault
    simp only [Sink.transfer, hsi] at ht
    exact Sink.not_isInterruption_of_fault?_pour _ _ fault ht
  · intro i d fault hd hreached hflush _
    obtain ⟨-, rfl⟩ := Sink.eq_deliver_of_getElem? hd
    have hnext : (sink.after line i).flushes.headD none = some fault := by
      rw [List.headD_eq_head?_getD, hflush, Option.getD_some]
    simpa only [hnext, Option.map_some] using Sink.flush_deliver hl hreached

/-- A sink that is interrupted before and between the parts of a line, in each of the
three ways of saying so, takes it as one that is not; and the flush that is
interrupted fails. -/
theorem deliveries_agree_on_interrupted_sink :
    let sink : Sink := {
      writes := [.accept 100, .accept 48]
      flushes := [some (.system 4)] }
    let script : List Step := [.fail (.plain .interrupted), .accept 100, .fail (.system 4),
      .fail (.described .interrupted "signal"), .accept 48]
    AgreeButForInterruptions sink.writes script ∧
      (sink.deliver line).taken = line ∧
      (Sink.deliver { sink with writes := script } line).taken = line ∧
      (sink.deliver line).error? = some (.flush (.system 4)) := by
  intro sink script
  have hagree : AgreeButForInterruptions sink.writes script :=
    agreeButForInterruptions_iff.mpr (by decide)
  obtain ⟨hruns, -, hflush⟩ := deliveries_agree sink rfl hagree 1
  have htaken : (sink.deliver line).taken = line := by decide +kernel
  have hreached := (Sink.reached_deliver_iff_taken line_ne_nil).mpr htaken
  obtain ⟨herror, -, -⟩ := hflush 0 (sink.deliver line) (.system 4) rfl hreached rfl
    (by decide +kernel)
  obtain ⟨⟨-, hsame, -⟩, -⟩ := List.forall₂_cons.mp hruns
  exact ⟨hagree, htaken, hsame.symm.trans htaken, herror⟩

end Notice

end RetiredCommand
