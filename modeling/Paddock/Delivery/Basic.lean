/-!
# Delivery — sending fragments through a writer

A delivery sends the bytes of its fragments, in order, through a writer that may take less than it
is offered, ask for another try, or fail; after the last byte it flushes once.  The delivery only
reacts: `request?` is the call it waits on and `react` is what an answer makes of it.  Nothing is
assumed of the writer.

An interrupted write is tried again.  A write that takes nothing, and any other failure, ends the
delivery; so does a failed flush, which is never tried again.  An empty fragment makes no call.
-/

namespace Paddock

/-- The cause of a failed call. -/
inductive FaultKind where
  | brokenPipe
  | permissionDenied
  | connectionReset
  | wouldBlock
  | timedOut
  | writeZero
  | unexpectedEof
  | storageFull
  | interrupted
  | other
deriving DecidableEq

/-- The failure of a call. -/
structure Fault where
  kind : FaultKind
  message : String
deriving DecidableEq

/-- The failure of a write that took nothing. -/
def Fault.writeZero : Fault := ⟨.writeZero, "failed to write whole buffer"⟩

/-- A call to a writer. -/
inductive Request where
  | write (offered : List UInt8)
  | flush
deriving DecidableEq

/-- The answer of a writer; for a flush the count means nothing. -/
inductive Answer where
  | accepted (count : Nat)
  | refused (fault : Fault)
deriving DecidableEq

/-- A call with its answer. -/
structure Exchange where
  request : Request
  answer : Answer
deriving DecidableEq

/-- The bytes that changed hands. -/
def Exchange.taken : Exchange → List UInt8
  | ⟨.write offered, .accepted count⟩ => offered.take count
  | _ => []

/-- How far a delivery has come. -/
inductive Delivery where
  | writing (current : List UInt8) (rest : List (List UInt8))
  | flushing
  | delivered
  | failed (fault : Fault)
deriving DecidableEq

namespace Delivery

/-- The delivery of some fragments from their first byte on. -/
def ofFragments : List (List UInt8) → Delivery
  | [] => flushing
  | [] :: rest => ofFragments rest
  | (byte :: bytes) :: rest => writing (byte :: bytes) rest

/-- The call a delivery waits on; none once it has ended. -/
def request? : Delivery → Option Request
  | writing current _ => some (.write current)
  | flushing => some .flush
  | delivered | failed _ => none

/-- What an answer makes of a delivery. -/
def react : Delivery → Answer → Delivery
  | writing current rest, .accepted count =>
    if count = 0 then failed .writeZero else ofFragments (current.drop count :: rest)
  | writing current rest, .refused fault =>
    if fault.kind = .interrupted then writing current rest else failed fault
  | flushing, .accepted _ => delivered
  | flushing, .refused fault => failed fault
  | delivered, _ => delivered
  | failed fault, _ => failed fault

/-- A bound on the calls still to come when none is interrupted. -/
def pending : Delivery → Nat
  | writing current rest => current.length + rest.flatten.length + 2
  | flushing => 1
  | delivered | failed _ => 0

theorem pending_ofFragments_le (fragments : List (List UInt8)) :
    (ofFragments fragments).pending ≤ fragments.flatten.length + 2 := by
  induction fragments with
  | nil => simp [ofFragments, pending]
  | cons fragment rest ih =>
    cases fragment with
    | nil => simpa [ofFragments] using ih
    | cons byte bytes => simp [ofFragments, pending]; omega

/-- Taking something brings a delivery nearer to its end, and so does taking nothing. -/
theorem pending_react_accepted_lt (current : List UInt8) (rest : List (List UInt8)) (count : Nat)
    (h : count ≤ current.length) :
    ((writing current rest).react (.accepted count)).pending < (writing current rest).pending := by
  by_cases hz : count = 0
  · simp [react, hz, pending]
  · have hle := pending_ofFragments_le (current.drop count :: rest)
    simp only [react, hz, if_false, pending, List.flatten_cons, List.length_append,
      List.length_drop] at hle ⊢
    omega

end Delivery

end Paddock
