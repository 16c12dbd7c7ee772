import RetiredCommand.Proofs.Filling
import RetiredCommand.Proofs.Interruption

/-!
# How long a run takes

The loop of a transfer has no bound in it: it goes on after an interruption and after a
part, and a sink may give as many of those as it likes. It ends all the same, because a sink
has finitely many of them to give. Each offer uses up a step of the script, the steps in
order and then the good one (`RetiredCommand.AnsweredBy`). Once the script has run out a
sink takes all that fits, so only one more offer can go on, the one that takes the last room.
`RetiredCommand.Sink.reserve` counts what is left of both: an offer that goes on comes out of
it, and none adds to it. A line costs one offer, its last, and what it takes from the reserve;
so a run of lines costs one offer for each of them and never more than the reserve
(`RetiredCommand.Sink.length_offers_deliveries_add_reserve_le`), and a line that needs two
offers past the script has emptied it, for the lines after it as well.

That the loop ends is a statement of its own, about the loop taken a turn at a time
(`RetiredCommand.Sink.turns_eq_none_iff`): nothing in `RetiredCommand.Sink.turn` says that
there is a last turn.
-/

namespace RetiredCommand

/-! ### The offers that were made -/

/-- The offer that an event is, if it is one. -/
def Event.offer? : Event → Option Offer
  | write size reply => some ⟨size, reply⟩
  | _ => none

/-- The offers that were made in a transfer, in order. -/
def Transfer.offers (t : Transfer) : List Offer :=
  t.events.filterMap Event.offer?

/-- The offers that were made in a delivery, in order. -/
def Delivery.offers (d : Delivery) : List Offer :=
  d.events.filterMap Event.offer?

/-- How many offers of a delivery are made past the end of a script. -/
def Delivery.unscripted (d : Delivery) (script : List Step) : Nat :=
  d.offers.length - script.length

@[simp] theorem Transfer.offers_after (size : Nat) (reply : Reply) (bytes : Bytes) (t : Transfer) :
    (t.after (.write size reply) bytes).offers = ⟨size, reply⟩ :: t.offers := rfl

@[simp] theorem Transfer.offers_mk_nil (fault? : Option Fault) (taken : Bytes) (sink : Sink) :
    (Transfer.mk fault? [] taken sink).offers = [] := rfl

@[simp] theorem Transfer.offers_mk_singleton (fault? : Option Fault) (size : Nat) (reply : Reply)
    (taken : Bytes) (sink : Sink) :
    (Transfer.mk fault? [.write size reply] taken sink).offers = [⟨size, reply⟩] := rfl

/-! ### Steps and the offers that use them up -/

/-- Whether an offer is answered as a step has it: with the fault of the step, or by taking
no more than the step lets a sink take. -/
def Offer.Answers (o : Offer) (step : Step) : Prop :=
  match o.reply with
  | .took count => ∃ limit, step.reply o.size = .took limit ∧ count ≤ limit
  | .failed fault => step = .fail fault

/-- Whether an offer was interrupted. -/
def Offer.IsInterrupted (o : Offer) : Prop :=
  o.event.IsInterruption

instance (o : Offer) : Decidable o.IsInterrupted :=
  inferInstanceAs (Decidable o.event.IsInterruption)

@[simp] theorem Offer.not_isInterrupted_took (size count : Nat) :
    ¬IsInterrupted ⟨size, .took count⟩ := id

@[simp] theorem Offer.isInterrupted_failed (size : Nat) (fault : Fault) :
    IsInterrupted ⟨size, .failed fault⟩ ↔ fault.IsInterruption := Iff.rfl

/-- Whether offers are answered by a script, one by each step of it, in order, and by the
good step once it has run out. -/
def AnsweredBy (script : List Step) (offers : List Offer) : Prop :=
  ∀ (k : Nat) (o : Offer), offers[k]? = some o → o.Answers (script[k]?.getD .all)

namespace AnsweredBy

variable {script : List Step} {o : Offer} {offers more : List Offer}

theorem nil (script : List Step) : AnsweredBy script [] := by
  intro k o h
  cases h

theorem cons (ho : o.Answers (script.headD .all)) (h : AnsweredBy script.tail offers) :
    AnsweredBy script (o :: offers) := by
  intro k p hp
  cases k with
  | zero =>
    obtain rfl := Option.some.inj hp
    rwa [← List.head?_eq_getElem?, ← List.headD_eq_head?_getD]
  | succ k =>
    rw [← List.getElem?_tail]
    exact h k p hp

/-- The offers after some others are answered by what those have left of the script. -/
theorem append (ho : AnsweredBy script offers) (h : AnsweredBy (script.drop offers.length) more) :
    AnsweredBy script (offers ++ more) := by
  intro k p hp
  rcases Nat.lt_or_ge k offers.length with hk | hk
  · rw [List.getElem?_append_left hk] at hp
    exact ho k p hp
  · rw [List.getElem?_append_right hk] at hp
    have hanswers := h _ p hp
    rwa [List.getElem?_drop, Nat.add_sub_of_le hk] at hanswers

end AnsweredBy

namespace Sink

variable {sink : Sink} {bytes line : Bytes}

/-- An offer is answered by the next step. -/
theorem answers_write {offer : Bytes} {reply : Reply} (h : (sink.write offer).1 = reply) :
    Offer.Answers ⟨offer.length, reply⟩ sink.nextWrite := by
  cases reply with
  | took count =>
    unfold write at h
    split at h
    · rename_i limit hlimit
      cases h
      exact ⟨limit, hlimit, fit_le sink limit⟩
    · cases h
  | failed fault => exact (write_of_failed h).1

/-- **The offers of a transfer use up the script in order.** -/
theorem answeredBy_pour (sink : Sink) (bytes : Bytes) :
    AnsweredBy sink.writes (sink.pour bytes).offers := by
  fun_induction pour sink bytes with
  | case1 => exact .nil _
  | case2 sink bytes _ next h => exact .cons (answers_write h) (.nil _)
  | case3 sink bytes _ next n h ih =>
    rw [show next.writes = sink.writes.tail from writes_write sink bytes] at ih
    exact .cons (answers_write h) ih
  | case4 sink bytes _ next fault h hf ih =>
    rw [show next.writes = sink.writes.tail from writes_write sink bytes] at ih
    exact .cons (answers_write h) ih
  | case5 sink bytes _ next fault h hf => exact .cons (answers_write h) (.nil _)

/-- A transfer makes no events but offers. -/
theorem length_offers_pour (sink : Sink) (bytes : Bytes) :
    (sink.pour bytes).offers.length = (sink.pour bytes).events.length := by
  by_cases hb : bytes = []
  · rw [hb, pour_nil]
    rfl
  · obtain ⟨offers, h⟩ := exists_shows_pour sink bytes hb
    rw [Transfer.offers, h.events, List.filterMap_map, List.length_map]
    exact congrArg _ List.filterMap_some

/-! ### The loop, one turn at a time -/

/-- What the loop is left with after one more turn: the sink, and the bytes that it goes on
to offer. Nothing is left if the turn was the last. -/
def turn (sink : Sink) (bytes : Bytes) : Option (Sink × Bytes) :=
  match (sink.write bytes).1 with
  | .took 0 => none
  | .took (n + 1) =>
    if bytes.drop (n + 1) = [] then none
    else some ((sink.write bytes).2, bytes.drop (n + 1))
  | .failed fault => if fault.IsInterruption then some ((sink.write bytes).2, bytes) else none

/-- What the loop is left with after so many turns. -/
def turns : Nat → Sink → Bytes → Option (Sink × Bytes)
  | 0, sink, bytes => some (sink, bytes)
  | n + 1, sink, bytes => (sink.turn bytes).bind fun left => turns n left.1 left.2

/-- The last turn of the loop makes the last offer. -/
theorem length_offers_pour_of_turn_eq_none (hb : bytes ≠ []) (h : sink.turn bytes = none) :
    (sink.pour bytes).offers.length = 1 := by
  rcases hw : (sink.write bytes).1 with (_ | n) | fault
  · rw [pour_of_took_zero hb hw]
    rfl
  · simp only [turn, hw] at h
    have hrest : bytes.drop (n + 1) = [] := by simpa using h
    rw [pour_of_took_succ hb hw, hrest, pour_nil]
    rfl
  · simp only [turn, hw] at h
    have hf : ¬fault.IsInterruption := by simpa using h
    rw [pour_of_fault hb hw hf]
    rfl

/-- Any other turn makes one offer and leaves the rest of them to be made. -/
theorem length_offers_pour_of_turn_eq_some (hb : bytes ≠ []) {next : Sink} {rest : Bytes}
    (h : sink.turn bytes = some (next, rest)) :
    rest ≠ [] ∧ (sink.pour bytes).offers.length = (next.pour rest).offers.length + 1 := by
  rcases hw : (sink.write bytes).1 with (_ | n) | fault
  · simp only [turn, hw] at h
    cases h
  · simp only [turn, hw] at h
    obtain ⟨hrest, hsame⟩ := Option.ite_none_left_eq_some.mp h
    cases hsame
    rw [pour_of_took_succ hb hw]
    exact ⟨hrest, rfl⟩
  · simp only [turn, hw] at h
    obtain ⟨hf, hsame⟩ := Option.ite_none_right_eq_some.mp h
    cases hsame
    rw [pour_of_interruption hb hw hf]
    exact ⟨hb, rfl⟩

/-- **The loop ends**, after as many turns as offers are seen. -/
theorem turns_eq_none_iff (hb : bytes ≠ []) (n : Nat) :
    turns n sink bytes = none ↔ (sink.pour bytes).offers.length ≤ n := by
  induction n generalizing sink bytes with
  | zero =>
    refine iff_of_false (by simp [turns]) ?_
    rcases h : sink.turn bytes with _ | ⟨next, rest⟩
    · have := length_offers_pour_of_turn_eq_none hb h
      omega
    · obtain ⟨-, hlength⟩ := length_offers_pour_of_turn_eq_some hb h
      omega
  | succ n ih =>
    rw [turns]
    rcases h : sink.turn bytes with _ | ⟨next, rest⟩
    · rw [length_offers_pour_of_turn_eq_none hb h]
      exact iff_of_true rfl (Nat.le_add_left 1 n)
    · obtain ⟨hrest, hlength⟩ := length_offers_pour_of_turn_eq_some hb h
      rw [Option.bind_some, ih hrest, hlength, Nat.add_le_add_iff_right]

/-! ### Offers that were not interrupted -/

/-- **No more offers are answered than there are bytes**, the interrupted ones not counted:
each of them takes a byte, but for the last. -/
theorem countP_offers_pour (sink : Sink) (bytes : Bytes) (hb : bytes ≠ []) :
    1 ≤ (sink.pour bytes).offers.countP (¬Offer.IsInterrupted ·) ∧
      (sink.pour bytes).offers.countP (¬Offer.IsInterrupted ·) ≤ bytes.length := by
  fun_induction pour sink bytes with
  | case1 => exact absurd rfl hb
  | case2 sink bytes _ next h =>
    rw [Transfer.offers_mk_singleton, List.countP_cons_of_pos (by simp), List.countP_nil]
    exact ⟨Nat.le_refl 1, List.length_pos_iff.mpr hb⟩
  | case3 sink bytes _ next n h ih =>
    have hle : n + 1 ≤ bytes.length := (write_of_took h).1
    rw [Transfer.offers_after, List.countP_cons_of_pos (by simp)]
    by_cases hrest : bytes.drop (n + 1) = []
    · rw [hrest, pour_nil, Transfer.offers_mk_nil, List.countP_nil]
      omega
    · -- the byte taken here pays for this offer, and the rest for the ones after it
      have hbound := (ih hrest).2
      rw [List.length_drop] at hbound
      omega
  | case4 sink bytes _ next fault h hf ih =>
    rw [Transfer.offers_after, List.countP_cons_of_neg (by simp [hf])]
    exact ih hb
  | case5 sink bytes _ next fault h hf =>
    rw [Transfer.offers_mk_singleton, List.countP_cons_of_pos (by simp [hf]), List.countP_nil]
    exact ⟨Nat.le_refl 1, List.length_pos_iff.mpr hb⟩

/-! ### What a sink has in reserve -/

/-- A script that has run out lets a sink take all that fits. -/
theorem write_of_no_script (hw : sink.writes = []) (offer : Bytes) :
    (sink.write offer).1 = .took (sink.fit offer.length) := by
  simp only [write, nextWrite, hw, List.headD_nil, Step.reply]

/-- How many offers may go on before a sink has nothing more to go on with: one for each step
of its script, and one that takes the last room. -/
def reserve (sink : Sink) : Nat :=
  sink.writes.length + if sink.writes = [] ∧ sink.fit 1 = 0 then 0 else 1

theorem reserve_le (sink : Sink) : sink.reserve ≤ sink.writes.length + 1 := by
  rw [reserve]
  split <;> omega

theorem reserve_of_writes (h : sink.writes ≠ []) : sink.reserve = sink.writes.length + 1 := by
  rw [reserve, if_neg fun hnone => h hnone.1]

theorem reserve_of_room (h : sink.fit 1 ≠ 0) : sink.reserve = sink.writes.length + 1 := by
  rw [reserve, if_neg fun hnone => h hnone.2]

theorem reserve_of_full (hw : sink.writes = []) (h : sink.fit 1 = 0) : sink.reserve = 0 := by
  rw [reserve, if_pos ⟨hw, h⟩, hw, List.length_nil]

/-- Room is only ever used up. -/
theorem fit_write_le (sink : Sink) (offer : Bytes) (count : Nat) :
    (sink.write offer).2.fit count ≤ sink.fit count := by
  rcases h : (sink.write offer).1 with taken | fault
  · have hi : (sink.take (offer.take taken)).intake = sink.intake := rfl
    rw [(write_of_took h).2.1]
    rcases hs : sink.intake with (_ | capacity) | _
    · simp only [fit, hi, hs, Nat.le_refl]
    · simp only [fit, hi, hs, total_take]
      omega
    · simp only [fit, hi, hs, Nat.le_refl]
  · rw [(write_of_failed h).2]
    exact Nat.le_refl _

/-- A step of the script that is used up comes out of the reserve. -/
theorem reserve_write_lt_of_writes (hw : sink.writes ≠ []) (offer : Bytes) :
    (sink.write offer).2.reserve < sink.reserve := by
  have hle := (sink.write offer).2.reserve_le
  have hpos : 0 < sink.writes.length := List.length_pos_iff.mpr hw
  rw [writes_write, List.length_tail] at hle
  rw [reserve_of_writes hw]
  omega

/-- **No offer adds to the reserve.** -/
theorem reserve_write_le (sink : Sink) (offer : Bytes) :
    (sink.write offer).2.reserve ≤ sink.reserve := by
  by_cases hw : sink.writes = []
  · have hnext : (sink.write offer).2.writes = [] := by rw [writes_write, hw, List.tail_nil]
    by_cases hfull : sink.fit 1 = 0
    · have hstill := Nat.le_zero.mp (hfull ▸ fit_write_le sink offer 1)
      rw [reserve_of_full hnext hstill]
      exact Nat.zero_le _
    · have hle := (sink.write offer).2.reserve_le
      rwa [hnext, ← hw, ← reserve_of_room hfull] at hle
  · exact Nat.le_of_lt (reserve_write_lt_of_writes hw offer)

/-- **An offer that goes on comes out of the reserve**: it has used up a step of the script, or
it has taken the last room. -/
theorem reserve_write_lt {offer : Bytes} {reply : Reply} (h : (sink.write offer).1 = reply)
    (hgoes : Offer.GoesOn ⟨offer.length, reply⟩) :
    (sink.write offer).2.reserve < sink.reserve := by
  by_cases hw : sink.writes = []
  · rcases reply with count | fault
    · obtain ⟨hpos, hlt⟩ : 1 ≤ count ∧ count < offer.length := hgoes
      have hnext : (sink.write offer).2.writes = [] := by rw [writes_write, hw, List.tail_nil]
      have hfit := fit_of_took h
      -- without a script a part is taken only where the whole does not fit
      have hall : sink.fit offer.length = count := by
        rw [write_of_no_script hw, Reply.took.injEq] at h
        exact h
      have hleft : 1 ≤ (offer.drop count).length := by
        rw [List.length_drop]
        omega
      have hfull : (sink.write offer).2.fit 1 = 0 := fit_eq_zero hleft (by omega) 1
      have hroom : sink.fit 1 ≠ 0 := fun hzero => by
        have hnone := fit_eq_zero (Nat.le_refl 1) hzero offer.length
        omega
      rw [reserve_of_full hnext hfull, reserve_of_room hroom]
      exact Nat.succ_pos _
    · -- nor does it fail
      have hlt := length_writes_write_lt h
      rw [hw] at hlt
      exact absurd hlt (Nat.not_lt_zero _)
  · exact reserve_write_lt_of_writes hw offer

/-- **The offers of a transfer come out of the reserve**, all but the last: one case for each
way a turn of the loop can go. -/
theorem length_offers_pour_add_reserve_le (sink : Sink) (bytes : Bytes) (hb : bytes ≠ []) :
    (sink.pour bytes).offers.length + (sink.pour bytes).sink.reserve ≤ sink.reserve + 1 := by
  fun_induction pour sink bytes with
  | case1 => exact absurd rfl hb
  | case2 sink bytes _ next h =>
    have hle : next.reserve ≤ sink.reserve := reserve_write_le sink bytes
    simp only [Transfer.offers_mk_singleton, List.length_singleton]
    omega
  | case3 sink bytes _ next n h ih =>
    rw [Transfer.offers_after, List.length_cons]
    by_cases hrest : bytes.drop (n + 1) = []
    · have hle : next.reserve ≤ sink.reserve := reserve_write_le sink bytes
      rw [hrest, pour_nil, Transfer.offers_mk_nil, List.length_nil]
      simp only [Transfer.after]
      omega
    · have hpart : n + 1 < bytes.length := List.drop_eq_nil_iff.not.mp hrest |> Nat.lt_of_not_le
      have hlt : next.reserve < sink.reserve :=
        reserve_write_lt h ⟨Nat.le_add_left 1 n, hpart⟩
      have hrest := ih hrest
      simp only [Transfer.after]
      omega
  | case4 sink bytes _ next fault h hf ih =>
    have hlt : next.reserve < sink.reserve := reserve_write_lt h hf
    have hrest := ih hb
    rw [Transfer.offers_after, List.length_cons]
    simp only [Transfer.after]
    omega
  | case5 sink bytes _ next fault h hf =>
    have hle : next.reserve ≤ sink.reserve := reserve_write_le sink bytes
    simp only [Transfer.offers_mk_singleton, List.length_singleton]
    omega

/-! ### One delivery -/

section Line

variable {capacity? : Option Nat} (hs : sink.intake = .piecemeal capacity?)

include hs

/-- The flush of a delivery is no offer. -/
theorem offers_deliver (line : Bytes) : (sink.deliver line).offers = (sink.pour line).offers := by
  have hpour := transfer_of_piecemeal hs line
  rcases h : (sink.transfer line).fault? with _ | fault
  · rw [deliver_of_complete h, hpour, Delivery.offers, List.filterMap_append]
    exact List.append_nil _
  · rw [deliver_of_fault h, hpour]
    rfl

theorem writes_deliver (line : Bytes) : (sink.deliver line).sink.writes =
    sink.writes.drop (sink.deliver line).offers.length := by
  have hpour := transfer_of_piecemeal hs line
  obtain ⟨flushes, h⟩ := sink_deliver sink line
  rw [offers_deliver hs, length_offers_pour, ← writes_pour, h, hpour]

variable (hl : line ≠ [])

include hl

theorem one_le_length_offers_deliver : 1 ≤ (sink.deliver line).offers.length := by
  rw [offers_deliver hs]
  exact (countP_offers_pour sink line hl).1.trans List.countP_le_length

theorem length_offers_deliver_add_reserve_le : (sink.deliver line).offers.length +
    (sink.deliver line).sink.reserve ≤ sink.reserve + 1 := by
  have hpour := transfer_of_piecemeal hs line
  obtain ⟨flushes, h⟩ := sink_deliver sink line
  rw [offers_deliver hs, h, hpour]
  exact length_offers_pour_add_reserve_le sink line hl

/-! ### A run -/

/-- **The offers of a run come out of the reserve**, all but one for each line. -/
theorem length_offers_deliveries_add_reserve_le (n : Nat) :
    ((sink.deliveries line n).flatMap Delivery.offers).length + (sink.after line n).reserve ≤
      sink.reserve + n := by
  induction n generalizing sink with
  | zero => simp [deliveries, after]
  | succ n ih =>
    have hnow := length_offers_deliver_add_reserve_le hs hl
    have hrest := ih ((intake_deliver hl).trans hs)
    rw [deliveries, List.flatMap_cons, List.length_append, after]
    omega

/-- The script is used up by the offers of a run. -/
theorem writes_after (n : Nat) : (sink.after line n).writes =
    sink.writes.drop ((sink.deliveries line n).flatMap Delivery.offers).length := by
  induction n generalizing sink with
  | zero => rfl
  | succ n ih =>
    rw [after, ih ((intake_deliver hl).trans hs), writes_deliver hs, List.drop_drop, deliveries,
      List.flatMap_cons, List.length_append]

/-- **The offers of a run use up the script in order.** -/
theorem answeredBy_deliveries (n : Nat) :
    AnsweredBy sink.writes ((sink.deliveries line n).flatMap Delivery.offers) := by
  induction n generalizing sink with
  | zero => exact .nil _
  | succ n ih =>
    have hnow := answeredBy_pour sink line
    have hrest := ih ((intake_deliver hl).trans hs)
    rw [← offers_deliver hs] at hnow
    rw [writes_deliver hs] at hrest
    exact hnow.append hrest

/-- No delivery adds to the reserve, for it makes an offer. -/
theorem reserve_deliver_le : (sink.deliver line).sink.reserve ≤ sink.reserve := by
  have hone := one_le_length_offers_deliver hs hl
  have hnow := length_offers_deliver_add_reserve_le hs hl
  omega

theorem reserve_after_le {i j : Nat} (hij : i ≤ j) :
    (sink.after line j).reserve ≤ (sink.after line i).reserve := by
  induction j, hij using Nat.le_induction with
  | base => exact Nat.le_refl _
  | succ j _ ih =>
    rw [← sink_deliver_after]
    exact (reserve_deliver_le ((intake_after hl sink j).trans hs) hl).trans ih

/-! ### Offers past the script -/

theorem unscripted_deliver_le : (sink.deliver line).unscripted sink.writes ≤ 2 := by
  have hnow := length_offers_deliver_add_reserve_le hs hl
  have hle := sink.reserve_le
  rw [Delivery.unscripted]
  omega

/-- A delivery that makes two offers past the script has used up the reserve. -/
theorem reserve_deliver_of_unscripted (h : (sink.deliver line).unscripted sink.writes = 2) :
    (sink.deliver line).sink.reserve = 0 := by
  have hnow := length_offers_deliver_add_reserve_le hs hl
  have hle := sink.reserve_le
  rw [Delivery.unscripted] at h
  omega

/-- **Two offers past the script are made for one line at most**: the lines after it find no
reserve. -/
theorem unscripted_deliver_after_lt {i j : Nat} (hij : i < j)
    (h : ((sink.after line i).deliver line).unscripted (sink.after line i).writes = 2) :
    ((sink.after line j).deliver line).unscripted (sink.after line j).writes < 2 := by
  have hempty := reserve_deliver_of_unscripted ((intake_after hl sink i).trans hs) hl h
  rw [sink_deliver_after] at hempty
  have hle : (sink.after line j).reserve ≤ (sink.after line (i + 1)).reserve :=
    reserve_after_le hs hl hij
  have hnow := length_offers_deliver_add_reserve_le ((intake_after hl sink j).trans hs) hl
  rw [Delivery.unscripted]
  omega

end Line

end Sink

/-! ### The notice -/

namespace Notice

/-- **How long a run takes.** The run makes each of its deliveries, for the loop of each comes
to an end after the offers that are seen and not before. Each offer uses up one step, the
steps of the script in order and then the good one. There is one offer for each step of the
script and for each delivery at most, and one more in the whole run: a delivery makes two
offers past the script at most, and only one delivery does so. In each delivery between one
offer and as many as the line has bytes are not interrupted. -/
theorem deliveries_duration (sink : Sink) {capacity? : Option Nat}
    (hs : sink.intake = .piecemeal capacity?) (times : Nat) :
    (deliveries sink times).length = times ∧
    AnsweredBy sink.writes ((deliveries sink times).flatMap Delivery.offers) ∧
    ((deliveries sink times).flatMap Delivery.offers).length ≤ sink.writes.length + times + 1 ∧
    (∀ (i : Nat) (d : Delivery), (deliveries sink times)[i]? = some d →
      (∀ n, Sink.turns n (sink.after line i) line = none ↔ d.offers.length ≤ n) ∧
      (sink.after line i).writes =
        sink.writes.drop (((deliveries sink times).take i).flatMap Delivery.offers).length ∧
      d.unscripted (sink.after line i).writes ≤ 2 ∧
      1 ≤ d.offers.countP (¬Offer.IsInterrupted ·) ∧
      d.offers.countP (¬Offer.IsInterrupted ·) ≤ 148) ∧
    ∀ (i j : Nat) (d e : Delivery), (deliveries sink times)[i]? = some d →
      (deliveries sink times)[j]? = some e → d.unscripted (sink.after line i).writes = 2 →
      e.unscripted (sink.after line j).writes = 2 → i = j := by
  have hl := line_ne_nil
  have hsi : ∀ i, (sink.after line i).intake = .piecemeal capacity? := fun i =>
    (Sink.intake_after hl sink i).trans hs
  refine ⟨Sink.length_deliveries sink line times, Sink.answeredBy_deliveries hs hl times,
    ?_, ?_, ?_⟩
  · have hrun := Sink.length_offers_deliveries_add_reserve_le hs hl times
    have hle := sink.reserve_le
    rw [deliveries]
    omega
  · intro i d hd
    obtain ⟨hi, rfl⟩ := Sink.eq_deliver_of_getElem? hd
    have hcount := Sink.countP_offers_pour (sink.after line i) line hl
    rw [length_line] at hcount
    refine ⟨fun n => ?_, ?_, Sink.unscripted_deliver_le (hsi i) hl, ?_⟩
    · rw [Sink.turns_eq_none_iff hl, Sink.offers_deliver (hsi i)]
    · -- the deliveries before this one are a run of their own
      rw [deliveries, Sink.take_deliveries (Nat.le_of_lt hi), Sink.writes_after hs hl]
    · rw [Sink.offers_deliver (hsi i)]
      exact hcount
  · intro i j d e hd he hdi hej
    obtain ⟨-, rfl⟩ := Sink.eq_deliver_of_getElem? hd
    obtain ⟨-, rfl⟩ := Sink.eq_deliver_of_getElem? he
    rcases Nat.lt_trichotomy i j with hij | hij | hij
    · exact absurd hej (Nat.ne_of_lt (Sink.unscripted_deliver_after_lt hs hl hij hdi))
    · exact hij
    · exact absurd hdi (Nat.ne_of_lt (Sink.unscripted_deliver_after_lt hs hl hij hej))

/-- A sink with room for two hundred bytes that takes a part and is interrupted makes as many
offers necessary as a sink with two steps may, in two deliveries: the second takes the last
room past the script, and what is left is offered in vain. -/
theorem deliveries_duration_of_narrow_sink :
    let sink : Sink := {
      intake := .piecemeal (some 200)
      writes := [.accept 100, .fail (.system 4)] }
    let first := sink.deliver line
    let second := first.sink.deliver line
    let offers := (deliveries sink 2).flatMap Delivery.offers
    (deliveries sink 2)[0]? = some first ∧ (deliveries sink 2)[1]? = some second ∧
      offers = [⟨148, .took 100⟩, ⟨48, .failed (.system 4)⟩, ⟨48, .took 48⟩, ⟨148, .took 52⟩,
        ⟨96, .took 0⟩] ∧
      offers.length = sink.writes.length + 2 + 1 ∧ offers.length ≤ sink.writes.length + 2 + 1 ∧
      second.unscripted first.sink.writes = 2 ∧ first.unscripted sink.writes ≠ 2 ∧
      Sink.turns 2 first.sink line = none := by
  intro sink first second offers
  obtain ⟨-, -, hbound, hcalls, honce⟩ := deliveries_duration sink rfl 2
  obtain ⟨hfirst, hsecond⟩ : first.offers = [⟨148, .took 100⟩, ⟨48, .failed (.system 4)⟩,
      ⟨48, .took 48⟩] ∧ second.offers = [⟨148, .took 52⟩, ⟨96, .took 0⟩] := by decide +kernel
  obtain ⟨hturns, hwrites, -, -, -⟩ := hcalls 1 second rfl
  have hoffers : offers = first.offers ++ (second.offers ++ []) := rfl
  have hdone : first.sink.writes = [] := by
    have hbefore : ((deliveries sink 2).take 1).flatMap Delivery.offers = first.offers ++ [] := rfl
    rw [hbefore, hfirst] at hwrites
    exact hwrites
  have htwo : second.unscripted first.sink.writes = 2 := by
    rw [Delivery.unscripted, hsecond, hdone]
    rfl
  rw [hfirst, hsecond] at hoffers
  refine ⟨rfl, rfl, hoffers, ?_, hbound, htwo, fun hagain => ?_, ?_⟩
  · rw [hoffers]
    rfl
  · -- two deliveries would do what one may
    exact absurd (honce 0 1 first second rfl rfl hagain htwo) (by decide)
  · exact (hturns 2).mpr (by rw [hsecond]; decide)

end Notice

end RetiredCommand
