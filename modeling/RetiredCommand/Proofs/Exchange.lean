import Mathlib.Algebra.Ring.Nat
import Mathlib.Data.List.Chain
import RetiredCommand.Proofs.Accounting

/-!
# What passes between a line and its sink

A sink that takes lines piecemeal sees a line as a row of offers, and this file says
which rows it can see. The first offer is of the whole line, and each one after it is
of what the one before has left. Only two answers let another offer follow: an
interruption, after which the same bytes are offered, and an answer that takes a part
and leaves some over. So nothing is ever offered that is empty, and the last answer of
a row is what decides: it takes all that was left, or it ends the line with a fault.
`RetiredCommand.Exchange` states the rule for the offers, and
`RetiredCommand.Transfer.Shows` ties them to what comes of a transfer.

A flush follows the offers exactly if they took the whole line, and then it is the last
thing the sink sees, whether it fails or not. So the last event of a delivery, be it an
offer or a flush, tells its result (`RetiredCommand.Notice.deliveries_exchange`). A sink
that takes lines whole sees one offer in place of the row, and the flush after it follows
the same rule.
-/

namespace RetiredCommand

/-! ### Rows of offers -/

/-- How many bytes an answer says were taken. -/
def Reply.count : Reply → Nat
  | took count => count
  | failed _ => 0

/-- An offer as its sink sees it: so many bytes, and the answer. -/
structure Offer where
  /-- How many bytes are offered. -/
  size : Nat
  /-- What is answered. -/
  reply : Reply
  deriving DecidableEq, Repr

namespace Offer

/-- The event of an offer. -/
def event (o : Offer) : Event :=
  .write o.size o.reply

/-- How many bytes of an offer were taken. -/
def count (o : Offer) : Nat :=
  o.reply.count

/-- How many bytes of an offer are left. -/
def left (o : Offer) : Nat :=
  o.size - o.count

/-- Whether another offer follows: it was interrupted, or a part was taken and some
is left over. -/
def GoesOn (o : Offer) : Prop :=
  match o.reply with
  | .took count => 1 ≤ count ∧ count < o.size
  | .failed fault => fault.IsInterruption

/-- The fault with which an offer ends a line. -/
inductive EndsWith : Offer → Fault → Prop
  /-- Nothing was taken. -/
  | nothingTaken (size : Nat) : EndsWith ⟨size, .took 0⟩ .nothingTaken
  /-- It failed, and not because it was interrupted. -/
  | failed (size : Nat) {fault : Fault} (h : ¬fault.IsInterruption) :
      EndsWith ⟨size, .failed fault⟩ fault

/-- No offer goes on of which more was taken than was offered. -/
theorem GoesOn.count_le {o : Offer} (h : o.GoesOn) : o.count ≤ o.size := by
  obtain ⟨size, count | fault⟩ := o
  · exact Nat.le_of_lt h.2
  · exact Nat.zero_le _

end Offer

/-- How many bytes were taken in a row of offers. -/
def takenIn (offers : List Offer) : Nat :=
  (offers.map Offer.count).sum

/-- The rule for a row of offers that is to get `size` bytes across. -/
structure Exchange (size : Nat) (offers : List Offer) : Prop where
  /-- The first offer is of all the bytes, and there is a first offer. -/
  first : offers.head?.map Offer.size = some size
  /-- Each offer is of what the one before it has left. -/
  next : offers.IsChain fun o p => p.size = o.left
  /-- No offer is empty. -/
  pos : ∀ o ∈ offers, 0 < o.size
  /-- No more is taken than is offered. -/
  within : ∀ o ∈ offers, o.count ≤ o.size
  /-- Each offer but the last is interrupted, or takes a part and leaves some over. -/
  goesOn : ∀ o ∈ offers.dropLast, o.GoesOn

namespace Exchange

variable {size : Nat} {o : Offer} {offers : List Offer}

theorem ne_nil (h : Exchange size offers) : offers ≠ [] := by
  rintro rfl
  cases h.first

/-- One offer alone. -/
theorem single (hpos : 0 < o.size) (hle : o.count ≤ o.size) : Exchange o.size [o] where
  first := rfl
  next := List.isChain_singleton o
  pos := by simpa using hpos
  within := by simpa using hle
  goesOn := by simp

/-- An offer that goes on, and then the offers of what it has left. -/
theorem cons (hpos : 0 < o.size) (hgoes : o.GoesOn) (h : Exchange o.left offers) :
    Exchange o.size (o :: offers) where
  first := rfl
  next := by
    refine List.isChain_cons.mpr ⟨fun p hp => ?_, h.next⟩
    have hfirst := h.first
    rw [Option.mem_def.mp hp, Option.map_some] at hfirst
    exact Option.some.inj hfirst
  pos := List.forall_mem_cons.mpr ⟨hpos, h.pos⟩
  within := List.forall_mem_cons.mpr ⟨hgoes.count_le, h.within⟩
  goesOn := by
    rw [List.dropLast_cons_of_ne_nil h.ne_nil]
    exact List.forall_mem_cons.mpr ⟨hgoes, h.goesOn⟩

end Exchange

/-! ### A transfer -/

/-- What a transfer of `size` bytes has to do with the offers that were seen. -/
structure Transfer.Shows (t : Transfer) (size : Nat) (offers : List Offer) : Prop where
  /-- The offers were all that was seen. -/
  events : t.events = offers.map Offer.event
  /-- They followed the rule. -/
  exchange : Exchange size offers
  /-- What was taken in them is what was taken. -/
  taken : takenIn offers = t.taken.length
  /-- If a fault ended the transfer then the last offer ended with it. -/
  last : ∀ fault, t.fault? = some fault → ∃ o, offers.getLast? = some o ∧ o.EndsWith fault

namespace Transfer.Shows

variable {t : Transfer} {o : Offer} {offers : List Offer}

/-- One offer that ended the transfer with a fault. -/
theorem stop {fault : Fault} (hpos : 0 < o.size) (h : o.EndsWith fault) (sink : Sink) :
    Shows ⟨some fault, [o.event], [], sink⟩ o.size [o] := by
  have hcount : o.count = 0 := by cases h <;> rfl
  refine ⟨rfl, .single hpos ?_, ?_, ?_⟩
  · rw [hcount]
    exact Nat.zero_le _
  · exact hcount
  · rintro _ ⟨⟩
    exact ⟨o, rfl, h⟩

/-- An offer that went on, and then the transfer of what it has left. -/
theorem after {bytes : Bytes} (hpos : 0 < o.size) (hgoes : o.GoesOn)
    (hbytes : bytes.length = o.count) (h : t.Shows o.left offers) :
    (t.after o.event bytes).Shows o.size (o :: offers) where
  events := congrArg _ h.events
  exchange := .cons hpos hgoes h.exchange
  taken := by
    have hrest := h.taken
    simp only [takenIn, List.map_cons, List.sum_cons, Transfer.after,
      List.length_append] at hrest ⊢
    omega
  last := fun fault hfault => by
    obtain ⟨p, hp, hends⟩ := h.last fault hfault
    exact ⟨p, by rw [List.getLast?_cons, hp, Option.getD_some], hends⟩

end Transfer.Shows

namespace Sink

variable {sink : Sink} {line : Bytes}

/-- **The loop follows the rule**: one case for each way a turn of it can go. -/
theorem exists_shows_pour (sink : Sink) (bytes : Bytes) (hb : bytes ≠ []) :
    ∃ offers, (sink.pour bytes).Shows bytes.length offers := by
  fun_induction pour sink bytes with
  | case1 => exact absurd rfl hb
  | case2 sink bytes _ next h =>
    have hpos : 0 < bytes.length := List.length_pos_iff.mpr hb
    exact ⟨_, .stop (o := ⟨bytes.length, .took 0⟩) hpos (.nothingTaken _) next⟩
  | case3 sink bytes _ next n h ih =>
    have hpos : 0 < bytes.length := List.length_pos_iff.mpr hb
    have hn : n + 1 ≤ bytes.length := (write_of_took h).1
    have htake : (bytes.take (n + 1)).length = n + 1 := by
      rw [List.length_take, Nat.min_eq_left hn]
    by_cases hrest : bytes.drop (n + 1) = []
    · -- all that was left was taken, and the loop ends
      have honly := Exchange.single (o := ⟨bytes.length, .took (n + 1)⟩) hpos hn
      refine ⟨[⟨bytes.length, .took (n + 1)⟩], ?_⟩
      rw [hrest, pour_nil]
      refine ⟨rfl, honly, ?_, ?_⟩
      · simp [takenIn, Offer.count, Reply.count, Transfer.after, hn]
      · rintro _ ⟨⟩
    · obtain ⟨offers, hoffers⟩ := ih hrest
      have hlt : n + 1 < bytes.length := List.drop_eq_nil_iff.not.mp hrest |> Nat.lt_of_not_le
      rw [List.length_drop] at hoffers
      exact ⟨_, .after (o := ⟨bytes.length, .took (n + 1)⟩) hpos
        ⟨Nat.le_add_left 1 n, hlt⟩ htake hoffers⟩
  | case4 sink bytes _ next fault h hf ih =>
    have hpos : 0 < bytes.length := List.length_pos_iff.mpr hb
    obtain ⟨offers, hoffers⟩ := ih hb
    exact ⟨_, .after (o := ⟨bytes.length, .failed fault⟩) hpos hf rfl hoffers⟩
  | case5 sink bytes _ next fault h hf =>
    have hpos : 0 < bytes.length := List.length_pos_iff.mpr hb
    exact ⟨_, .stop (o := ⟨bytes.length, .failed fault⟩) hpos (.failed _ hf) next⟩

/-- Each offer uses up one step of the script, whatever its answer. -/
theorem writes_pour (sink : Sink) (bytes : Bytes) :
    (sink.pour bytes).sink.writes = sink.writes.drop (sink.pour bytes).events.length := by
  fun_induction pour sink bytes with
  | case1 => rfl
  | case2 sink bytes _ next h => exact (writes_write sink bytes).trans List.drop_one.symm
  | case3 sink bytes _ next n h ih =>
    exact ih.trans (by rw [writes_write, List.drop_tail]; rfl)
  | case4 sink bytes _ next fault h _ ih =>
    exact ih.trans (by rw [writes_write, List.drop_tail]; rfl)
  | case5 sink bytes _ next fault h _ =>
    exact (writes_write sink bytes).trans List.drop_one.symm

/-! ### A delivery -/

/-- What a delivery lets see of itself: the offers of a transfer, and a flush after them
exactly if they took everything. -/
theorem exists_exchange_deliver {capacity? : Option Nat} (hs : sink.intake = .piecemeal capacity?)
    (hl : line ≠ []) : ∃ (offers : List Offer) (flush? : Option (Option Fault)),
      (sink.deliver line).events = offers.map Offer.event ++ (flush?.map Event.flush).toList ∧
      Exchange line.length offers ∧
      (flush?.isSome ↔ takenIn offers = line.length) ∧
      (∀ fault?, flush? = some fault? → (sink.deliver line).error? = fault?.map .flush) ∧
      (flush? = none → ∃ o fault, offers.getLast? = some o ∧ o.EndsWith fault ∧
        (sink.deliver line).error? = some (.write fault)) := by
  obtain ⟨offers, h⟩ := exists_shows_pour sink line hl
  have hpour := transfer_of_piecemeal hs line
  have hbooks := accounts_pour sink line
  rw [← hpour] at h hbooks
  rcases hfault : (sink.transfer line).fault? with _ | fault
  · refine ⟨offers, some (sink.transfer line).sink.flush.1, ?_, h.exchange, ?_, ?_, ?_⟩
    · rw [deliver_of_complete hfault, h.events]
      rfl
    · rw [h.taken, hbooks.complete.mp hfault]
      simp
    · rintro _ ⟨⟩
      rw [deliver_of_complete hfault]
    · rintro ⟨⟩
  · obtain ⟨o, ho, hends⟩ := h.last fault hfault
    refine ⟨offers, none, ?_, h.exchange, ?_, ?_, fun _ => ⟨o, fault, ho, hends, ?_⟩⟩
    · rw [deliver_of_fault hfault, h.events]
      exact (List.append_nil _).symm
    · -- less than the line was taken
      rw [h.taken]
      have hne : (sink.transfer line).taken.length ≠ line.length := fun hlen => by
        have hnone := hbooks.complete.mpr (hbooks.front.eq_of_length hlen)
        rw [hfault] at hnone
        cases hnone
      simpa using hne
    · rintro _ ⟨⟩
    · rw [deliver_of_fault hfault]

/-- A sink that takes lines whole sees one offer of the line, and a flush after it exactly
if the line was taken. -/
theorem exists_reply_deliver (hs : sink.intake = .whole) (line : Bytes) :
    ∃ (reply : Reply) (flush? : Option (Option Fault)),
      (sink.deliver line).events =
        .writeAll line.length reply :: (flush?.map Event.flush).toList ∧
      (flush?.isSome ↔ reply = .took line.length) := by
  rcases sink.nextWrite.fail_or_ne with ⟨fault, hfault⟩ | htook
  · refine ⟨.failed fault, none, ?_, by simp⟩
    rw [deliver_of_refused hs hfault]
    rfl
  · refine ⟨.took line.length, some sink.flush.1, ?_, by simp⟩
    rw [deliver_of_not_refused hs htook]
    rfl

end Sink

/-! ### The notice -/

namespace Notice

/-- **What a sink sees in each delivery of a run.** If it takes lines piecemeal then it
sees a row of offers that follows the rule `Exchange`, and after it at most one flush. The
flush is there exactly if the offers took the whole line, and it decides the result,
whatever its fault: it is not made again. Without it the last offer took nothing or failed,
not by an interruption, and its fault is the error. If the sink takes lines whole then it
sees one offer of the line, and after it a flush exactly if that took the line. -/
theorem deliveries_exchange (sink : Sink) (times : Nat) :
    (∀ capacity?, sink.intake = .piecemeal capacity? → ∀ d ∈ deliveries sink times,
      ∃ (offers : List Offer) (flush? : Option (Option Fault)),
        d.events = offers.map Offer.event ++ (flush?.map Event.flush).toList ∧
        Exchange 148 offers ∧
        (flush?.isSome ↔ takenIn offers = 148) ∧
        (∀ fault?, flush? = some fault? → d.error? = fault?.map .flush) ∧
        (flush? = none → ∃ last fault, offers.getLast? = some last ∧ last.EndsWith fault ∧
          (last.reply = .took 0 → fault.kind = .writeZero) ∧
          d.error? = some (.write fault))) ∧
    (sink.intake = .whole → ∀ d ∈ deliveries sink times,
      ∃ (reply : Reply) (flush? : Option (Option Fault)),
        d.events = .writeAll 148 reply :: (flush?.map Event.flush).toList ∧
        (flush?.isSome ↔ reply = .took 148)) := by
  have hl := line_ne_nil
  constructor
  · intro capacity? hs d hd
    obtain ⟨i, -, rfl⟩ := Sink.exists_eq_deliver_of_mem hd
    have hsi := (Sink.intake_after hl sink i).trans hs
    obtain ⟨offers, flush?, hevents, hoffers, htaken, hflush, hfault⟩ :=
      Sink.exists_exchange_deliver hsi hl
    rw [length_line] at hoffers htaken
    refine ⟨offers, flush?, hevents, hoffers, htaken, hflush, fun hnone => ?_⟩
    obtain ⟨last, fault, hlast, hends, herror⟩ := hfault hnone
    refine ⟨last, fault, hlast, hends, fun hzero => ?_, herror⟩
    cases hends with
    | nothingTaken => rfl
    | failed => cases hzero
  · intro hs d hd
    obtain ⟨i, -, rfl⟩ := Sink.exists_eq_deliver_of_mem hd
    have hsi := (Sink.intake_after hl sink i).trans hs
    simpa only [length_line] using Sink.exists_reply_deliver hsi line

/-- A sink that takes a part of the line, is interrupted, and takes the rest sees three
offers; its flush is interrupted, and not made again. A sink that takes lines whole and is
interrupted sees one offer. -/
theorem deliveries_exchange_of_interrupted_flush :
    let sink : Sink := {
      writes := [.accept 100, .fail (.system 4)]
      flushes := [some (.system 4)] }
    let d := sink.deliver line
    let other : Sink := { intake := .whole, writes := [.fail (.system 4)] }
    d ∈ deliveries sink 2 ∧
      d.events = [.write 148 (.took 100), .write 48 (.failed (.system 4)), .write 48 (.took 48),
        .flush (some (.system 4))] ∧
      ∃ offers, d.events = offers.map Offer.event ++ [.flush (some (.system 4))] ∧
        Exchange 148 offers ∧ takenIn offers = 148 ∧
      ∃ (reply : Reply) (flush? : Option (Option Fault)),
        (other.deliver line).events = .writeAll 148 reply :: (flush?.map Event.flush).toList ∧
        (flush?.isSome ↔ reply = .took 148) := by
  intro sink d other
  have hd : d ∈ deliveries sink 2 := List.mem_cons_self
  obtain ⟨hseen, herror⟩ : d.events = [.write 148 (.took 100), .write 48 (.failed (.system 4)),
      .write 48 (.took 48), .flush (some (.system 4))] ∧
      d.error? = some (.flush (.system 4)) := by decide +kernel
  obtain ⟨offers, flush?, hevents, hoffers, htaken, hflush, hfault⟩ :=
    (deliveries_exchange sink 2).1 none rfl d hd
  have hwhole := (deliveries_exchange other 1).2 rfl (other.deliver line) List.mem_cons_self
  rcases flush? with _ | fault?
  · obtain ⟨-, fault, -, -, -, hwrite⟩ := hfault rfl
    rw [herror] at hwrite
    cases hwrite
  · have hfault? := hflush fault? rfl
    rw [herror] at hfault?
    obtain ⟨fault, rfl, hf⟩ := Option.map_eq_some_iff.mp hfault?.symm
    cases hf
    exact ⟨hd, hseen, offers, hevents, hoffers, htaken.mp rfl, hwhole⟩

/-- The offer of a line that is taken whole is not all that the sink sees of it: there is
the flush. -/
theorem events_of_whole_line :
    let sink : Sink := { intake := .whole }
    let d := sink.deliver line
    d ∈ deliveries sink 1 ∧ d.events = [.writeAll 148 (.took 148), .flush none] ∧
      ¬∃ reply, d.events = [.writeAll 148 reply] := by
  intro sink d
  have hd : d ∈ deliveries sink 1 := List.mem_cons_self
  have hseen : d.events = [.writeAll 148 (.took 148), .flush none] := by
    rw [← length_line]
    exact congrArg Delivery.events (Sink.deliver_of_not_refused rfl (fun _ h => by cases h) line)
  refine ⟨hd, hseen, ?_⟩
  rintro ⟨reply, h⟩
  rw [hseen] at h
  cases h

end Notice

end RetiredCommand
