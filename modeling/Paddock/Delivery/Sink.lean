import Paddock.Delivery.Basic

/-!
# Delivery — sinks

A sink is a writer with a plan: it interrupts a number of writes first, takes at most so many bytes
a call and so many altogether, and has its failures fixed beforehand.  A full sink fails with its
own fault, or takes nothing when it has none.

`Sink.run` carries a delivery through to its end and keeps every exchange.  It ends because every
interruption uses one up and every other answer brings the delivery nearer to its end.
-/

namespace Paddock

/-- A fault that is not tried again. -/
abbrev LastingFault := { fault : Fault // fault.kind ≠ .interrupted }

/-- A writer with a plan; what is `none` sets no limit or does not fail. -/
structure Sink where
  interrupts : Nat
  maxChunk : Option { n : Nat // 0 < n }
  capacity : Option Nat
  onFull : Option LastingFault
  onFlush : Option Fault

namespace Sink

/-- The sink that takes everything. -/
def unlimited : Sink := ⟨0, none, none, none, none⟩

/-- The sink that takes nothing and fails with a fault. -/
def closed (fault : LastingFault) : Sink := ⟨0, none, some 0, some fault, none⟩

/-- The fault of an interrupted write. -/
def interruption : Fault := ⟨.interrupted, "operation interrupted"⟩

/-- The part of an offer that the limits leave over. -/
def admitted (sink : Sink) (offered : List UInt8) : List UInt8 :=
  let chunk := match sink.maxChunk with
    | none => offered
    | some n => offered.take n.val
  match sink.capacity with
  | none => chunk
  | some n => chunk.take n

/-- The answer to a write, and the sink after it. -/
def write (sink : Sink) (offered : List UInt8) : Answer × Sink :=
  match sink.interrupts with
  | n + 1 => (.refused interruption, { sink with interrupts := n })
  | 0 =>
    match sink.capacity, sink.onFull with
    | some 0, some fault => (.refused fault.val, sink)
    | _, _ =>
      let count := (sink.admitted offered).length
      (.accepted count, { sink with capacity := sink.capacity.map (· - count) })

/-- The answer to a flush. -/
def flush (sink : Sink) : Answer :=
  match sink.onFlush with
  | none => .accepted 0
  | some fault => .refused fault

theorem length_admitted_le (sink : Sink) (offered : List UInt8) :
    (sink.admitted offered).length ≤ offered.length := by
  unfold admitted
  cases sink.maxChunk <;> cases sink.capacity <;> grind

/-- Every answer to a write uses up an interruption or brings the delivery nearer to its end. -/
theorem write_lt (sink : Sink) (current : List UInt8) (rest : List (List UInt8)) :
    (sink.write current).2.interrupts +
        ((Delivery.writing current rest).react (sink.write current).1).pending <
      sink.interrupts + (Delivery.writing current rest).pending := by
  unfold write
  split
  · rename_i n hn
    simp [Delivery.react, interruption, hn]
  · rename_i hn
    split
    · rename_i fault _ _
      simp [Delivery.react, fault.property, Delivery.pending]
    · have := Delivery.pending_react_accepted_lt current rest _ (sink.length_admitted_le current)
      simpa [hn] using this

/-- The fault a delivery ended with, if any, and all exchanges in order; `seen` holds the earlier
ones, the last one first. -/
def run (sink : Sink) (delivery : Delivery) (seen : List Exchange) :
    Option Fault × List Exchange :=
  match delivery with
  | .delivered => (none, seen.reverse)
  | .failed fault => (some fault, seen.reverse)
  | .flushing =>
    run sink (Delivery.flushing.react sink.flush) (⟨.flush, sink.flush⟩ :: seen)
  | .writing current rest =>
    run (sink.write current).2 ((Delivery.writing current rest).react (sink.write current).1)
      (⟨.write current, (sink.write current).1⟩ :: seen)
termination_by sink.interrupts + delivery.pending
decreasing_by
  · unfold flush
    cases sink.onFlush <;> simp [Delivery.react, Delivery.pending]
  · exact sink.write_lt current rest

end Sink

end Paddock
