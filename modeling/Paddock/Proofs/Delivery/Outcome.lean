import Paddock.Proofs.Delivery.Trace

/-!
# Delivery — outcomes

The outcome of a delivery to a sink is what is left of a course of actions that ends with the return
(`exists_actions`), so whatever is true of all courses is true of deliveries to sinks.

A sink also has a closed form.  `settle` says at once what a sink does with some bytes: how many of
them it takes depends on its capacity only, not on interruptions, chunks or fragments.  One call
keeps to the closed form (`settleRest_write`, `settleRest_flush`), and so does a whole run
(`ofRun_run`).
-/

namespace Paddock

/-! ### Sinks as writers -/

/-- The actions after the last call. -/
def endingOf (event : Event) : Option Fault → List Action
  | none => [.log event, .finish none]
  | some fault => [.finish (some (.write fault))]

/-- Whether an outcome is what is left of some actions up to the return. -/
structure Outcome.IsLeftOf (outcome : Outcome) (trace : List Action) : Prop where
  written : outcome.written = takenIn trace
  flushes : outcome.flushes = trace.countP Action.isFlush
  events : outcome.events = trace.filterMap Action.event?
  returned : trace.getLast? = some (.finish outcome.error?)

namespace Sink

/-- A run makes the calls of a delivery and stops where the delivery does. -/
theorem exists_answers (sink : Sink) (d : Delivery) (seen : List Exchange) (event : Event) :
    ∃ answers exchanges, (sink.run d seen).2 = seen.reverse ++ exchanges ∧
      d.actions event answers =
        exchanges.map .call ++ endingOf event (sink.run d seen).1 := by
  fun_induction run sink d seen with
  | case1 sink seen => exact ⟨[], [], by simp, rfl⟩
  | case2 sink seen fault => exact ⟨[], [], by simp, rfl⟩
  | case3 sink seen ih =>
      obtain ⟨answers, exchanges, hrun, hactions⟩ := ih
      refine ⟨sink.flush :: answers, ⟨.flush, sink.flush⟩ :: exchanges, by simp [hrun], ?_⟩
      rw [Delivery.actions, hactions]
      rfl
  | case4 sink seen current rest ih =>
      obtain ⟨answers, exchanges, hrun, hactions⟩ := ih
      refine ⟨(sink.write current).1 :: answers,
        ⟨.write current, (sink.write current).1⟩ :: exchanges, by simp [hrun], ?_⟩
      rw [Delivery.actions, hactions]
      rfl

/-- **The outcome of a delivery is what is left of its actions.** -/
theorem exists_actions (sink : Sink) (fragments : List (List UInt8)) (event : Event) :
    ∃ answers, (sink.deliver fragments event).IsLeftOf
      ((Delivery.ofFragments fragments).actions event answers) := by
  obtain ⟨answers, exchanges, hrun, hactions⟩ :=
    sink.exists_answers (.ofFragments fragments) [] event
  refine ⟨answers, ?_⟩
  rw [List.reverse_nil, List.nil_append] at hrun
  rw [hactions, ← hrun, deliver]
  obtain ⟨fault?, exchanges⟩ := sink.run (.ofFragments fragments) []
  have hflushes : (exchanges.map Action.call).countP Action.isFlush =
      exchanges.countP (·.request = .flush) := List.countP_map
  have hevents : (exchanges.map Action.call).filterMap Action.event? = [] := by
    simp [List.filterMap_map, Function.comp_def, Action.event?]
  -- what follows the calls hands over nothing and is no flush
  cases fault? with
  | none =>
      exact ⟨by simp [endingOf, Action.taken], by simp [endingOf, hflushes, Action.isFlush],
        by simp [endingOf, hevents, Action.event?], by simp [endingOf]⟩
  | some fault =>
      exact ⟨by simp [endingOf, Action.taken], by simp [endingOf, hflushes, Action.isFlush],
        by simp [endingOf, hevents, Action.event?], by simp [endingOf]⟩

end Sink

/-! ### The closed form -/

/-- Whether a delivery offers at least one byte when it writes. -/
def Delivery.IsReady : Delivery → Prop
  | writing current _ => current ≠ []
  | flushing | delivered | failed _ => True

theorem Delivery.isReady_ofFragments (fragments : List (List UInt8)) :
    (ofFragments fragments).IsReady := by
  rcases ofFragments_cases fragments with ⟨h, -⟩ | ⟨byte, bytes, rest, h, -⟩
  · rw [h]
    trivial
  · rw [h]
    exact List.cons_ne_nil byte bytes

theorem Delivery.isReady_react {d : Delivery} (h : d.IsReady) (answer : Answer) :
    (d.react answer).IsReady := by
  cases d with
  | flushing => cases answer <;> trivial
  | delivered => trivial
  | failed fault => trivial
  | writing current rest =>
      cases answer with
      | accepted count =>
          rw [react]
          split
          · trivial
          · exact isReady_ofFragments _
      | refused fault =>
          rw [react]
          split
          · exact h
          · trivial

/-- How a run ends: its fault, the bytes taken, the number of flushes. -/
structure Settlement where
  fault? : Option Fault
  taken : List UInt8
  flushes : Nat
deriving DecidableEq

/-- How a run ends that some exchange comes before. -/
def Settlement.after (t : Settlement) (e : Exchange) : Settlement where
  fault? := t.fault?
  taken := e.taken ++ t.taken
  flushes := t.flushes + if e.request = .flush then 1 else 0

/-- How a run ended. -/
def Settlement.ofRun (run : Option Fault × List Exchange) : Settlement where
  fault? := run.1
  taken := run.2.flatMap Exchange.taken
  flushes := run.2.countP (·.request = .flush)

namespace Sink

variable (sink : Sink)

/-- Whether there are more bytes than a sink has room for. -/
def overflows (bytes : List UInt8) : Bool := sink.capacity.any (· < bytes.length)

/-- The bytes that a sink has room for. -/
def share (bytes : List UInt8) : List UInt8 := sink.capacity.elim bytes bytes.take

/-- The fault that a full sink ends a delivery with. -/
def fullFault : Fault := sink.onFull.elim .writeZero Subtype.val

/-- What a sink makes of some bytes and a flush. -/
def settle (bytes : List UInt8) : Settlement :=
  if sink.overflows bytes then ⟨some sink.fullFault, sink.share bytes, 0⟩
  else ⟨sink.onFlush, sink.share bytes, 1⟩

/-- What a sink makes of the rest of a delivery. -/
def settleRest : Delivery → Settlement
  | .writing current rest => sink.settle (current ++ rest.flatten)
  | .flushing => sink.settle []
  | .delivered => ⟨none, [], 0⟩
  | .failed fault => ⟨some fault, [], 0⟩

theorem settleRest_ofFragments (fragments : List (List UInt8)) :
    sink.settleRest (.ofFragments fragments) = sink.settle fragments.flatten := by
  rcases Delivery.ofFragments_cases fragments with ⟨h, hflat⟩ | ⟨byte, bytes, rest, h, hflat⟩
  · rw [h, hflat]
    rfl
  · rw [h, hflat]
    rfl

theorem settleRest_flush :
    sink.settleRest .flushing =
      (sink.settleRest (Delivery.flushing.react sink.flush)).after ⟨.flush, sink.flush⟩ := by
  have hroom : sink.overflows [] = false ∧ sink.share [] = [] := by
    rw [overflows, share]
    cases sink.capacity <;> simp
  rw [settleRest, settle, hroom.1, hroom.2, flush]
  cases sink.onFlush <;> rfl

/-- Interruptions do not matter. -/
theorem settleRest_interrupts (n : Nat) (d : Delivery) :
    ({ sink with interrupts := n } : Sink).settleRest d = sink.settleRest d := by
  cases d <;> rfl

/-- A sink without room for anything. -/
theorem settle_full {bytes : List UInt8} (hcapacity : sink.capacity = some 0) (hne : bytes ≠ []) :
    sink.settle bytes = ⟨some sink.fullFault, [], 0⟩ := by
  have hover : sink.overflows bytes = true := by
    simp [overflows, hcapacity, List.length_pos_iff.2 hne]
  rw [settle, if_pos hover, share, hcapacity]
  rfl

/-- Bytes that there is room for can be taken at once. -/
theorem settle_append (front bytes : List UInt8)
    (hroom : ∀ capacity ∈ sink.capacity, front.length ≤ capacity) :
    let next : Sink := { sink with capacity := sink.capacity.map (· - front.length) }
    sink.settle (front ++ bytes) =
      ⟨(next.settle bytes).fault?, front ++ (next.settle bytes).taken,
        (next.settle bytes).flushes⟩ := by
  intro next
  cases hcapacity : sink.capacity with
  | none =>
      simp [settle, overflows, share, hcapacity, next]
  | some capacity =>
      have hle : front.length ≤ capacity := hroom capacity hcapacity
      have hnext : next.capacity = some (capacity - front.length) := by simp [next, hcapacity]
      have hover : sink.overflows (front ++ bytes) = next.overflows bytes := by
        simp only [overflows, hcapacity, hnext, List.length_append, Option.any_some,
          decide_eq_decide]
        omega
      have hshare : sink.share (front ++ bytes) = front ++ next.share bytes := by
        simp only [share, hcapacity, hnext, Option.elim_some]
        rw [List.take_append, List.take_of_length_le hle]
      rw [settle, settle, hover, hshare]
      split <;> rfl

theorem length_admitted_le_capacity (offered : List UInt8) :
    ∀ capacity ∈ sink.capacity, (sink.admitted offered).length ≤ capacity := by
  intro capacity hcapacity
  rw [Option.mem_def] at hcapacity
  simp only [admitted, hcapacity]
  exact List.length_take_le _ _

/-- What is admitted is the share of a chunk, and a chunk of something is something. -/
theorem exists_admitted_eq {offered : List UInt8} (hne : offered ≠ []) :
    ∃ chunk : List UInt8, chunk ≠ [] ∧ sink.admitted offered = sink.share chunk := by
  cases hlimit : sink.maxChunk with
  | none =>
      refine ⟨offered, hne, ?_⟩
      simp only [admitted, share, hlimit]
      cases sink.capacity <;> rfl
  | some n =>
      refine ⟨offered.take n.val, by simp [hne, n.property.ne'], ?_⟩
      simp only [admitted, share, hlimit]
      cases sink.capacity <;> rfl

/-- Only a full sink admits nothing. -/
theorem capacity_of_admitted_eq_nil {offered : List UInt8} (hne : offered ≠ [])
    (h : (sink.admitted offered).length = 0) : sink.capacity = some 0 := by
  obtain ⟨chunk, hchunk, hadmitted⟩ := sink.exists_admitted_eq hne
  rw [List.length_eq_zero_iff, hadmitted, share] at h
  cases hcapacity : sink.capacity with
  | none =>
      rw [hcapacity] at h
      exact absurd h hchunk
  | some capacity =>
      rw [hcapacity, Option.elim_some, List.take_eq_nil_iff] at h
      rw [h.resolve_right hchunk]

/-- **One write keeps to the closed form.** -/
theorem settleRest_write {current : List UInt8} (rest : List (List UInt8)) (hne : current ≠ []) :
    sink.settleRest (.writing current rest) =
      ((sink.write current).2.settleRest
        ((Delivery.writing current rest).react (sink.write current).1)).after
          ⟨.write current, (sink.write current).1⟩ := by
  have hbytes : current ++ rest.flatten ≠ [] := by simp [hne]
  unfold write
  split
  · -- an interruption
    rw [settleRest_interrupts]
    rfl
  · split
    · -- a full sink with a fault of its own
      rename_i fault hcapacity hfull
      have hfault : sink.fullFault = fault.val := by rw [fullFault, hfull, Option.elim_some]
      rw [settleRest, sink.settle_full hcapacity hbytes, hfault, Delivery.react,
        if_neg fault.property]
      rfl
    · rename_i hnot
      by_cases hzero : (sink.admitted current).length = 0
      · -- a full sink that takes nothing
        have hcapacity := sink.capacity_of_admitted_eq_nil hne hzero
        have hfault : sink.fullFault = .writeZero := by
          rw [fullFault]
          cases hfull : sink.onFull with
          | none => rfl
          | some fault => exact absurd hfull (hnot fault hcapacity)
        rw [settleRest, sink.settle_full hcapacity hbytes, hfault, hzero]
        rfl
      · -- a write that takes something there is room for
        have hlength : (current.take (sink.admitted current).length).length =
            (sink.admitted current).length := by
          rw [List.length_take]
          exact Nat.min_eq_left (sink.length_admitted_le current)
        have hsettle := sink.settle_append (current.take (sink.admitted current).length)
          (current.drop (sink.admitted current).length ++ rest.flatten)
          (by rw [hlength]; exact sink.length_admitted_le_capacity current)
        rw [hlength, ← List.append_assoc, List.take_append_drop] at hsettle
        rw [settleRest, hsettle, Delivery.react, if_neg hzero, settleRest_ofFragments]
        rfl

theorem foldl_after (t : Settlement) (seen : List Exchange) :
    seen.foldl Settlement.after t =
      ⟨t.fault?, seen.reverse.flatMap Exchange.taken ++ t.taken,
        t.flushes + seen.countP (·.request = .flush)⟩ := by
  induction seen generalizing t with
  | nil => simp
  | cons e seen ih =>
      rw [List.foldl_cons, ih]
      simp [Settlement.after, List.countP_cons, Nat.add_assoc, Nat.add_comm]

/-- **A whole run keeps to the closed form.** -/
theorem ofRun_run {d : Delivery} (h : d.IsReady) (seen : List Exchange) :
    Settlement.ofRun (sink.run d seen) = seen.foldl Settlement.after (sink.settleRest d) := by
  -- `seen` grows at its front, so the exchange just made is folded in first
  fun_induction run sink d seen with
  | case1 sink seen =>
      rw [foldl_after]
      simp [Settlement.ofRun, settleRest]
  | case2 sink seen fault =>
      rw [foldl_after]
      simp [Settlement.ofRun, settleRest]
  | case3 sink seen ih =>
      rw [ih (Delivery.isReady_react h _), List.foldl_cons, ← settleRest_flush]
  | case4 sink seen current rest ih =>
      rw [ih (Delivery.isReady_react h _), List.foldl_cons, ← sink.settleRest_write rest h]

/-- The outcome of a delivery in closed form. -/
theorem deliver_eq (fragments : List (List UInt8)) (event : Event) :
    sink.deliver fragments event =
      ⟨(sink.settle fragments.flatten).taken, (sink.settle fragments.flatten).flushes,
        (sink.settle fragments.flatten).fault?.map .write,
        (sink.settle fragments.flatten).fault?.elim [event] fun _ => []⟩ := by
  have hrun : Settlement.ofRun (sink.run (.ofFragments fragments) []) =
      sink.settle fragments.flatten :=
    (sink.ofRun_run (Delivery.isReady_ofFragments fragments) []).trans
      (sink.settleRest_ofFragments fragments)
  rw [← hrun, deliver]
  obtain ⟨fault?, exchanges⟩ := sink.run (.ofFragments fragments) []
  cases fault? <;> rfl

theorem deliver_of_overflows {fragments : List (List UInt8)} (event : Event)
    (h : sink.overflows fragments.flatten = true) :
    sink.deliver fragments event =
      ⟨sink.share fragments.flatten, 0, some (.write sink.fullFault), []⟩ := by
  rw [deliver_eq, settle, if_pos h]
  rfl

theorem deliver_of_not_overflows {fragments : List (List UInt8)} (event : Event)
    (h : ¬sink.overflows fragments.flatten = true) :
    sink.deliver fragments event =
      ⟨sink.share fragments.flatten, 1, sink.onFlush.map .write,
        sink.onFlush.elim [event] fun _ => []⟩ := by
  rw [deliver_eq, settle, if_neg h]

theorem written_deliver (fragments : List (List UInt8)) (event : Event) :
    (sink.deliver fragments event).written = sink.share fragments.flatten := by
  by_cases h : sink.overflows fragments.flatten = true
  · rw [sink.deliver_of_overflows event h]
  · rw [sink.deliver_of_not_overflows event h]

theorem share_eq (bytes : List UInt8) :
    sink.share bytes = bytes.take (sink.capacity.elim bytes.length (min · bytes.length)) := by
  rw [share]
  cases sink.capacity with
  | none => exact (List.take_length).symm
  | some capacity => exact List.take_eq_take_min

end Sink

/-! ### Reports -/

/-- **The outcome of delivering a report.**  It does not depend on how the report is cut.  A sink
takes as much of the report as it has room for.  If that is not all, the delivery ends with the
fault of the full sink, without a flush and without an event; otherwise there is one flush, which
decides between success with one event and the fault of the flush.  The run comes to its return. -/
theorem Showcase.deliver_closed_form (s : Showcase) (sink : Sink)
    (cut : Cut (bytesOf s.report.text)) :
    let bytes := bytesOf s.report.text
    let outcome := sink.deliver cut.fragments s.report.delivered
    outcome = s.deliverReport sink ∧
      outcome.written = bytes.take (sink.capacity.elim bytes.length (min · bytes.length)) ∧
      (if sink.capacity.any (· < bytes.length) then
        outcome.error? = some (.write (sink.onFull.elim
          ⟨.writeZero, "failed to write whole buffer"⟩ Subtype.val)) ∧
        outcome.flushes = 0 ∧ outcome.events = []
      else
        outcome.error? = sink.onFlush.map .write ∧ outcome.flushes = 1 ∧
        outcome.events = sink.onFlush.elim [s.report.delivered] fun _ => []) ∧
      s.report.delivered.level = .debug ∧
      s.report.delivered.fields =
        [("horsepower", .int s.engine.horsepower), ("color", .text s.car.color)] ∧
      ∃ answers, outcome.IsLeftOf
        ((Delivery.ofFragments cut.fragments).actions s.report.delivered answers) := by
  intro bytes outcome
  have hflatten : s.report.fragments.flatten = cut.fragments.flatten :=
    s.report.cut.flatten_eq.trans cut.flatten_eq.symm
  have hsame : outcome = s.deliverReport sink := by
    rw [deliverReport, Sink.deliver_eq, hflatten, ← Sink.deliver_eq]
  have hwritten : outcome.written = sink.share bytes := by
    rw [sink.written_deliver, cut.flatten_eq]
  have hover : sink.overflows cut.fragments.flatten = sink.capacity.any (· < bytes.length) := by
    rw [Sink.overflows, cut.flatten_eq]
  refine ⟨hsame, hwritten.trans (sink.share_eq bytes), ?_, rfl, rfl,
    sink.exists_actions cut.fragments s.report.delivered⟩
  rw [← hover]
  split
  · rename_i h
    rw [show outcome = _ from sink.deliver_of_overflows s.report.delivered h]
    exact ⟨rfl, rfl, rfl⟩
  · rename_i h
    rw [show outcome = _ from sink.deliver_of_not_overflows s.report.delivered h]
    exact ⟨rfl, rfl, rfl⟩

/-- **Every delivery of a report is safe,** whatever its writer answers; and a delivery to a sink is
such a delivery. -/
theorem Showcase.delivery_safe (s : Showcase) (cut : Cut (bytesOf s.report.text)) :
    (∀ answers, Delivery.Safe s.report.delivered (bytesOf s.report.text)
      ((Delivery.ofFragments cut.fragments).actions s.report.delivered answers)) ∧
    ∀ sink : Sink, ∃ answers, (sink.deliver cut.fragments s.report.delivered).IsLeftOf
      ((Delivery.ofFragments cut.fragments).actions s.report.delivered answers) := by
  refine ⟨fun answers => ?_, fun sink => sink.exists_actions cut.fragments s.report.delivered⟩
  have hcourse := Delivery.course_actions s.report.delivered answers
    (Delivery.isOpen_ofFragments cut.fragments)
  rw [Delivery.remaining_ofFragments, cut.flatten_eq] at hcourse
  exact hcourse.safe

end Paddock
