import Paddock.Proofs.Text.Bytes

/-!
# Delivery — the actions of a delivery

A report is delivered in actions: calls to the writer, then the event, then the return.  `actions`
lists them for a writer that gives some answers, as far as the answers go, and nothing is assumed of
the answers: any of them may be a short write, an interruption or a failure.  A count beyond what
was offered stands for all of it.

Whatever the answers are, the actions follow one `Course`: writes that take something or are tried
again, and then perhaps one exchange that ends the writing.  `course_actions` proves it by induction
on the answers, with one lemma for what an answer does to a delivery (`react_writing`).  All that is
to be said about the order of the actions is read off the course (`Course.safe`).
-/

namespace Paddock

/-- A way to cut bytes into consecutive fragments, which may be empty. -/
structure Cut (bytes : List UInt8) where
  fragments : List (List UInt8)
  flatten_eq : fragments.flatten = bytes

/-- The lines of a report are a way to cut it. -/
def Report.cut (r : Report) : Cut (bytesOf r.text) where
  fragments := r.fragments
  flatten_eq := by rw [fragments, text, bytesOf_join, List.flatMap_def]

/-! ### Exchanges -/

namespace Exchange

/-- The fault that an exchange ends a delivery with, if it does. -/
def fault? : Exchange → Option Fault
  | ⟨.write _, .accepted count⟩ => if count = 0 then some .writeZero else none
  | ⟨.write _, .refused fault⟩ => if fault.kind = .interrupted then none else some fault
  | ⟨.flush, .accepted _⟩ => none
  | ⟨.flush, .refused fault⟩ => some fault

/-- Whether another call may follow: a write took something or is to be tried again. -/
def goesOn (e : Exchange) : Bool := e.request ≠ .flush ∧ e.fault? = none

end Exchange

/-! ### Actions -/

/-- What is done to deliver a report. -/
inductive Action where
  | call (exchange : Exchange)
  | log (event : Event)
  | finish (error? : Option ReportError)
deriving DecidableEq

namespace Action

/-- The bytes that an action handed over. -/
def taken : Action → List UInt8
  | call exchange => exchange.taken
  | log _ | finish _ => []

/-- Whether an action is a call. -/
def isCall : Action → Bool
  | call _ => true
  | log _ | finish _ => false

/-- Whether an action is a flush. -/
def isFlush : Action → Bool
  | call exchange => exchange.request = .flush
  | log _ | finish _ => false

/-- Whether no call may follow an action. -/
def endsCalls : Action → Bool
  | call exchange => !exchange.goesOn
  | log _ | finish _ => true

/-- The event that an action logs. -/
def event? : Action → Option Event
  | log event => some event
  | call _ | finish _ => none

end Action

/-- The bytes handed over in the course of some actions. -/
def takenIn (trace : List Action) : List UInt8 := trace.flatMap Action.taken

namespace Delivery

/-- The actions of a delivery whose writer gives some answers, as far as the answers go. -/
def actions (event : Event) : Delivery → List Answer → List Action
  | delivered, _ => [.log event, .finish none]
  | failed fault, _ => [.finish (some (.write fault))]
  | writing _ _, [] | flushing, [] => []
  | writing current rest, answer :: answers =>
    .call ⟨.write current, answer⟩ :: actions event ((writing current rest).react answer) answers
  | flushing, answer :: answers =>
    .call ⟨.flush, answer⟩ :: actions event (flushing.react answer) answers

theorem actions_delivered (event : Event) (answers : List Answer) :
    delivered.actions event answers = [.log event, .finish none] := by
  cases answers <;> rfl

theorem actions_failed (event : Event) (fault : Fault) (answers : List Answer) :
    (failed fault).actions event answers = [.finish (some (.write fault))] := by
  cases answers <;> rfl

/-! ### The course of a delivery -/

/-- The courses that delivering some bytes can take. -/
inductive Course (event : Event) (bytes : List UInt8) : List Action → Prop where
  | going (writes : List Exchange) (hwrites : ∀ e ∈ writes, e.goesOn = true)
      (htaken : writes.flatMap Exchange.taken <+: bytes) :
      Course event bytes (writes.map .call)
  | stopped (writes : List Exchange) {last : Exchange} {fault : Fault}
      (hwrites : ∀ e ∈ writes, e.goesOn = true)
      (htaken : writes.flatMap Exchange.taken <+: bytes)
      (hflush : last.request = .flush → writes.flatMap Exchange.taken = bytes)
      (hfault : last.fault? = some fault) :
      Course event bytes (writes.map .call ++ [.call last, .finish (some (.write fault))])
  | done (writes : List Exchange) {count : Nat} (hwrites : ∀ e ∈ writes, e.goesOn = true)
      (htaken : writes.flatMap Exchange.taken = bytes) :
      Course event bytes
        (writes.map .call ++ [.call ⟨.flush, .accepted count⟩, .log event, .finish none])

/-- A write that goes on comes before any course. -/
theorem Course.cons {event : Event} {bytes : List UInt8} {trace : List Action} {e : Exchange}
    (he : e.goesOn = true) (h : Course event bytes trace) :
    Course event (e.taken ++ bytes) (.call e :: trace) := by
  have hcons : ∀ {writes : List Exchange}, (∀ x ∈ writes, x.goesOn = true) →
      ∀ x ∈ e :: writes, x.goesOn = true := fun hw => List.forall_mem_cons.2 ⟨he, hw⟩
  cases h with
  | going writes hwrites htaken =>
      exact .going (e :: writes) (hcons hwrites) ((List.prefix_append_right_inj _).2 htaken)
  | stopped writes hwrites htaken hflush hfault =>
      exact .stopped (e :: writes) (hcons hwrites) ((List.prefix_append_right_inj _).2 htaken)
        (fun hlast => congrArg (e.taken ++ ·) (hflush hlast)) hfault
  | done writes hwrites htaken =>
      exact .done (e :: writes) (hcons hwrites) (congrArg (e.taken ++ ·) htaken)

/-- The bytes that a delivery still has to hand over. -/
def remaining : Delivery → List UInt8
  | writing current rest => current ++ rest.flatten
  | flushing | delivered | failed _ => []

/-- Whether a delivery still waits on a call. -/
def isOpen : Delivery → Bool
  | writing _ _ | flushing => true
  | delivered | failed _ => false

/-- A delivery starts with its first byte, or with the flush if there is none. -/
theorem ofFragments_cases (fragments : List (List UInt8)) :
    ofFragments fragments = flushing ∧ fragments.flatten = [] ∨
      ∃ byte bytes rest, ofFragments fragments = writing (byte :: bytes) rest ∧
        fragments.flatten = byte :: bytes ++ rest.flatten := by
  induction fragments with
  | nil => exact .inl ⟨rfl, rfl⟩
  | cons fragment rest ih =>
      cases fragment with
      | nil => exact ih
      | cons byte bytes => exact .inr ⟨byte, bytes, rest, rfl, rfl⟩

theorem remaining_ofFragments (fragments : List (List UInt8)) :
    (ofFragments fragments).remaining = fragments.flatten := by
  rcases ofFragments_cases fragments with ⟨h, hflat⟩ | ⟨byte, bytes, rest, h, hflat⟩
  · rw [h, hflat]
    rfl
  · rw [h, hflat]
    rfl

theorem isOpen_ofFragments (fragments : List (List UInt8)) :
    (ofFragments fragments).isOpen = true := by
  rcases ofFragments_cases fragments with ⟨h, -⟩ | ⟨byte, bytes, rest, h, -⟩
  · rw [h]
    rfl
  · rw [h]
    rfl

/-- What an answer does to a delivery that writes: it goes on with what was not taken, or it fails
and nothing was taken. -/
theorem react_writing (current : List UInt8) (rest : List (List UInt8)) (answer : Answer) :
    let e : Exchange := ⟨.write current, answer⟩
    let next := (writing current rest).react answer
    e.goesOn = true ∧ next.isOpen = true ∧
        e.taken ++ next.remaining = (writing current rest).remaining ∨
      ∃ fault, e.fault? = some fault ∧ next = failed fault := by
  intro e next
  cases answer with
  | accepted count =>
      by_cases hzero : count = 0
      · exact .inr ⟨.writeZero, if_pos hzero, if_pos hzero⟩
      · have hnext : next = ofFragments (current.drop count :: rest) := if_neg hzero
        refine .inl ⟨by simp [e, Exchange.goesOn, Exchange.fault?, hzero], ?_, ?_⟩
        · rw [hnext]
          exact isOpen_ofFragments _
        · rw [hnext, remaining_ofFragments, List.flatten_cons, ← List.append_assoc]
          exact congrArg (· ++ rest.flatten) (List.take_append_drop count current)
  | refused fault =>
      by_cases hretry : fault.kind = .interrupted
      · have hnext : next = writing current rest := if_pos hretry
        refine .inl ⟨by simp [e, Exchange.goesOn, Exchange.fault?, hretry], ?_, ?_⟩
        · rw [hnext]
          rfl
        · rw [hnext]
          rfl
      · exact .inr ⟨fault, if_neg hretry, if_neg hretry⟩

/-- **Every delivery takes one of the courses,** whatever its writer answers. -/
theorem course_actions (event : Event) (answers : List Answer) {d : Delivery}
    (h : d.isOpen = true) : Course event d.remaining (d.actions event answers) := by
  induction answers generalizing d with
  | nil =>
      have hgoing : Course event d.remaining [] :=
        .going [] (by simp) List.nil_prefix
      cases d with
      | writing current rest => exact hgoing
      | flushing => exact hgoing
      | delivered => cases h
      | failed fault => cases h
  | cons answer answers ih =>
      cases d with
      | delivered => cases h
      | failed fault => cases h
      | flushing =>
          cases answer with
          | accepted count =>
              rw [actions, react, actions_delivered]
              exact .done [] (by simp) rfl
          | refused fault =>
              rw [actions, react, actions_failed]
              exact .stopped [] (by simp) List.nil_prefix (fun _ => rfl) rfl
      | writing current rest =>
          rw [actions]
          rcases react_writing current rest answer with ⟨he, hopen, hbytes⟩ | ⟨fault, hfault, hnext⟩
          · -- the invariant: what was taken and what remains make up the bytes
            rw [← hbytes]
            exact (ih hopen).cons he
          · rw [hnext, actions_failed]
            exact .stopped [] (by simp) List.nil_prefix (by simp) hfault

/-! ### The order of the actions -/

/-- What holds of the actions of every delivery of some bytes. -/
structure Safe (event : Event) (bytes : List UInt8) (trace : List Action) : Prop where
  /-- At every moment the bytes handed over are the first ones. -/
  taken_prefix : ∀ before, before <+: trace → takenIn before <+: bytes
  /-- There is one flush at most. -/
  flush_once : trace.countP Action.isFlush ≤ 1
  /-- A flush comes after all the bytes. -/
  flush_after : ∀ before answer after, trace = before ++ .call ⟨.flush, answer⟩ :: after →
    takenIn before = bytes
  /-- No call follows a flush, a write that took nothing, or a fault that is no interruption. -/
  calls_end : trace.Pairwise fun a b => a.endsCalls = true → b.isCall = false
  /-- A delivery that may make no more calls comes to its return. -/
  returns : ∀ a ∈ trace, a.endsCalls = true → ∃ error?, trace.getLast? = some (.finish error?)
  /-- An event is logged after a flush that succeeded. -/
  log_after : ∀ before logged after, trace = before ++ .log logged :: after →
    logged = event ∧ ∃ count, Action.call ⟨.flush, .accepted count⟩ ∈ before
  /-- The return is the last action; it reports success exactly when all the bytes were taken and
  the flush succeeded. -/
  success : ∀ before error? after, trace = before ++ .finish error? :: after →
    after = [] ∧ (error? = none ↔
      takenIn before = bytes ∧ ∃ count, Action.call ⟨.flush, .accepted count⟩ ∈ before)
  /-- A reported fault is the one that the last call ended with. -/
  failure : ∀ before error after, trace = before ++ .finish (some error) :: after →
    ∃ last fault, before.getLast? = some (.call last) ∧ last.fault? = some fault ∧
      error = .write fault

section
variable {event : Event} {bytes : List UInt8} {trace before after : List Action}

@[simp] theorem takenIn_nil : takenIn [] = [] := rfl

@[simp] theorem takenIn_cons (a : Action) (trace : List Action) :
    takenIn (a :: trace) = a.taken ++ takenIn trace := rfl

@[simp] theorem takenIn_append (xs ys : List Action) :
    takenIn (xs ++ ys) = takenIn xs ++ takenIn ys := List.flatMap_append

@[simp] theorem takenIn_map_call (writes : List Exchange) :
    takenIn (writes.map .call) = writes.flatMap Exchange.taken := List.flatMap_map _ _ _

/-- An action that is none of the writes lies behind them. -/
theorem exists_of_append_eq {writes : List Exchange} {tail : List Action} {x : Action}
    (hx : x ∉ writes.map Action.call) (h : writes.map Action.call ++ tail = before ++ x :: after) :
    ∃ between, before = writes.map Action.call ++ between ∧ tail = between ++ x :: after := by
  rcases List.append_eq_append_iff.1 h with ⟨between, hbefore, htail⟩ | ⟨rest, hwrites, hafter⟩
  · exact ⟨between, hbefore, htail⟩
  · cases rest with
    | nil => exact ⟨[], by simpa using hwrites.symm, by simpa using hafter.symm⟩
    | cons y ys =>
        obtain ⟨rfl, -⟩ := List.cons.inj hafter
        exact absurd (by simp [hwrites]) hx

theorem pair_eq_append {α : Type} {a b x : α} {xs ys : List α} (h : [a, b] = xs ++ x :: ys) :
    xs = [] ∧ x = a ∧ ys = [b] ∨ xs = [a] ∧ x = b ∧ ys = [] := by
  match xs with
  | [] => simp_all
  | [_] => simp_all
  | _ :: _ :: _ => simp_all

theorem triple_eq_append {α : Type} {a b c x : α} {xs ys : List α}
    (h : [a, b, c] = xs ++ x :: ys) :
    xs = [] ∧ x = a ∧ ys = [b, c] ∨ xs = [a] ∧ x = b ∧ ys = [c] ∨
      xs = [a, b] ∧ x = c ∧ ys = [] := by
  cases xs with
  | nil => simp_all
  | cons y xs =>
      obtain ⟨rfl, htail⟩ := List.cons.inj h
      rcases pair_eq_append htail with ⟨rfl, hx, hy⟩ | ⟨rfl, hx, hy⟩
      · exact .inr (.inl ⟨rfl, hx, hy⟩)
      · exact .inr (.inr ⟨rfl, hx, hy⟩)

theorem log_notMem (logged : Event) (writes : List Exchange) :
    Action.log logged ∉ writes.map Action.call := by simp

theorem finish_notMem (error? : Option ReportError) (writes : List Exchange) :
    Action.finish error? ∉ writes.map Action.call := by simp

theorem flush_notMem {writes : List Exchange} (h : ∀ e ∈ writes, e.goesOn = true)
    (answer : Answer) : Action.call ⟨.flush, answer⟩ ∉ writes.map Action.call := by
  intro hmem
  obtain ⟨e, he, heq⟩ := List.mem_map.1 hmem
  rw [Action.call.inj heq] at he
  exact absurd (h _ he) (by simp [Exchange.goesOn])

/-- Only what goes on hands bytes over. -/
theorem taken_eq_nil {e : Exchange} (h : e.goesOn = false) : e.taken = [] := by
  obtain ⟨request, answer⟩ := e
  cases request with
  | flush => rfl
  | write offered =>
      cases answer with
      | refused fault => rfl
      | accepted count =>
          have hzero : count = 0 := by
            by_contra hne
            simp [Exchange.goesOn, Exchange.fault?, hne] at h
          rw [hzero]
          rfl

theorem goesOn_of_fault? {e : Exchange} {fault : Fault} (h : e.fault? = some fault) :
    e.goesOn = false := by
  simp [Exchange.goesOn, h]

namespace Course

theorem takenIn_prefix (h : Course event bytes trace) : takenIn trace <+: bytes := by
  cases h with
  | going writes _ htaken => rwa [takenIn_map_call]
  | stopped writes _ htaken _ hfault =>
      have hlast := taken_eq_nil (goesOn_of_fault? hfault)
      simpa [Action.taken, hlast] using htaken
  | @done writes count _ htaken =>
      have hlast : Exchange.taken ⟨.flush, .accepted count⟩ = [] := rfl
      simp [Action.taken, hlast, htaken]

theorem taken_prefix (h : Course event bytes trace) (hbefore : before <+: trace) :
    takenIn before <+: bytes := by
  obtain ⟨after, rfl⟩ := hbefore
  refine List.IsPrefix.trans ?_ h.takenIn_prefix
  rw [takenIn_append]
  exact List.prefix_append _ _

theorem countP_isFlush_writes {writes : List Exchange} (h : ∀ e ∈ writes, e.goesOn = true) :
    (writes.map Action.call).countP Action.isFlush = 0 := by
  rw [List.countP_eq_zero]
  intro a ha hflush
  obtain ⟨⟨request, answer⟩, he, rfl⟩ := List.mem_map.1 ha
  obtain rfl : request = .flush := of_decide_eq_true hflush
  exact flush_notMem h answer ha

theorem flush_once (h : Course event bytes trace) : trace.countP Action.isFlush ≤ 1 := by
  cases h with
  | going writes hwrites _ => simp [countP_isFlush_writes hwrites]
  | @stopped writes last fault hwrites _ _ _ =>
      have hone : [Action.call last].countP Action.isFlush ≤ 1 := List.countP_le_length
      simpa [countP_isFlush_writes hwrites, List.countP_cons, Action.isFlush] using hone
  | @done writes count hwrites _ =>
      simp [countP_isFlush_writes hwrites, Action.isFlush]

theorem flush_after {answer : Answer} (h : Course event bytes trace)
    (htrace : trace = before ++ .call ⟨.flush, answer⟩ :: after) : takenIn before = bytes := by
  cases h with
  | going writes hwrites _ => exact absurd (by simp [htrace]) (flush_notMem hwrites answer)
  | stopped writes hwrites _ hflush _ =>
      obtain ⟨between, rfl, htail⟩ := exists_of_append_eq (flush_notMem hwrites answer) htrace
      rcases pair_eq_append htail with ⟨rfl, hlast, -⟩ | ⟨-, hlast, -⟩
      · rw [List.append_nil, takenIn_map_call]
        exact hflush (by rw [← Action.call.inj hlast])
      · cases hlast
  | done writes hwrites htaken =>
      obtain ⟨between, rfl, htail⟩ := exists_of_append_eq (flush_notMem hwrites answer) htrace
      rcases triple_eq_append htail with ⟨rfl, -, -⟩ | ⟨-, hlast, -⟩ | ⟨-, hlast, -⟩
      · rw [List.append_nil, takenIn_map_call, htaken]
      · cases hlast
      · cases hlast

theorem not_endsCalls_writes {writes : List Exchange} (h : ∀ e ∈ writes, e.goesOn = true) :
    ∀ a ∈ writes.map Action.call, ¬a.endsCalls = true := by
  intro a ha
  obtain ⟨e, he, rfl⟩ := List.mem_map.1 ha
  simp [Action.endsCalls, h e he]

theorem calls_end (h : Course event bytes trace) :
    trace.Pairwise fun a b => a.endsCalls = true → b.isCall = false := by
  have hwrites : ∀ {writes : List Exchange}, (∀ e ∈ writes, e.goesOn = true) →
      ∀ {tail : List Action}, (tail.Pairwise fun a b => a.endsCalls = true → b.isCall = false) →
        (writes.map Action.call ++ tail).Pairwise
          fun a b => a.endsCalls = true → b.isCall = false := by
    intro writes hgo tail htail
    -- nothing is asked of what follows a write that goes on
    have hfirst := not_endsCalls_writes hgo
    refine List.pairwise_append.2 ⟨?_, htail, fun a ha b _ hend => absurd hend (hfirst a ha)⟩
    exact List.Pairwise.imp_of_mem (fun ha _ _ hend => absurd hend (hfirst _ ha))
      (List.pairwise_of_forall fun _ _ => trivial)
  cases h with
  | going writes hgo _ => simpa using hwrites hgo List.Pairwise.nil
  | stopped writes hgo _ _ _ => exact hwrites hgo (by simp [Action.isCall])
  | done writes hgo _ => exact hwrites hgo (by simp [Action.isCall])

theorem returns {a : Action} (h : Course event bytes trace) (ha : a ∈ trace)
    (hend : a.endsCalls = true) : ∃ error?, trace.getLast? = some (.finish error?) := by
  cases h with
  | going writes hwrites _ => exact absurd hend (not_endsCalls_writes hwrites a ha)
  | @stopped writes last fault _ _ _ _ => exact ⟨some (.write fault), by simp⟩
  | done writes _ _ => exact ⟨none, by simp⟩

theorem log_after {logged : Event} (h : Course event bytes trace)
    (htrace : trace = before ++ .log logged :: after) :
    logged = event ∧ ∃ count, Action.call ⟨.flush, .accepted count⟩ ∈ before := by
  cases h with
  | going writes _ _ => exact absurd (by simp [htrace]) (log_notMem logged writes)
  | stopped writes _ _ _ _ =>
      obtain ⟨between, -, htail⟩ := exists_of_append_eq (log_notMem logged writes) htrace
      rcases pair_eq_append htail with ⟨-, hlast, -⟩ | ⟨-, hlast, -⟩
      · cases hlast
      · cases hlast
  | @done writes count _ _ =>
      obtain ⟨between, rfl, htail⟩ := exists_of_append_eq (log_notMem logged writes) htrace
      rcases triple_eq_append htail with ⟨-, hlast, -⟩ | ⟨rfl, hlast, -⟩ | ⟨-, hlast, -⟩
      · cases hlast
      · exact ⟨Action.log.inj hlast, count, by simp⟩
      · cases hlast

theorem success {error? : Option ReportError} (h : Course event bytes trace)
    (htrace : trace = before ++ .finish error? :: after) :
    after = [] ∧ (error? = none ↔
      takenIn before = bytes ∧ ∃ count, Action.call ⟨.flush, .accepted count⟩ ∈ before) := by
  cases h with
  | going writes _ _ => exact absurd (by simp [htrace]) (finish_notMem error? writes)
  | @stopped writes last fault hwrites _ _ hfault =>
      obtain ⟨between, rfl, htail⟩ := exists_of_append_eq (finish_notMem error? writes) htrace
      rcases pair_eq_append htail with ⟨-, hlast, -⟩ | ⟨rfl, hlast, hafter⟩
      · cases hlast
      · refine ⟨hafter, fun hnone => ?_, ?_⟩
        · rw [Action.finish.inj hlast] at hnone
          cases hnone
        · -- the only call that may be a flush ended with a fault
          rintro ⟨-, count, hmem⟩
          rcases List.mem_append.1 hmem with hmem | hmem
          · exact absurd hmem (flush_notMem hwrites _)
          · rw [← Action.call.inj (List.mem_singleton.1 hmem)] at hfault
            cases hfault
  | @done writes count _ htaken =>
      obtain ⟨between, rfl, htail⟩ := exists_of_append_eq (finish_notMem error? writes) htrace
      rcases triple_eq_append htail with ⟨-, hlast, -⟩ | ⟨-, hlast, -⟩ | ⟨rfl, hlast, hafter⟩
      · cases hlast
      · cases hlast
      · refine ⟨hafter, fun _ => ⟨?_, count, by simp⟩, fun _ => Action.finish.inj hlast⟩
        have hflush : Exchange.taken ⟨.flush, .accepted count⟩ = [] := rfl
        simp [Action.taken, hflush, htaken]

theorem failure {error : ReportError} (h : Course event bytes trace)
    (htrace : trace = before ++ .finish (some error) :: after) :
    ∃ last fault, before.getLast? = some (.call last) ∧ last.fault? = some fault ∧
      error = .write fault := by
  cases h with
  | going writes _ _ => exact absurd (by simp [htrace]) (finish_notMem (some error) writes)
  | @stopped writes last fault _ _ _ hfault =>
      obtain ⟨between, rfl, htail⟩ := exists_of_append_eq (finish_notMem (some error) writes) htrace
      rcases pair_eq_append htail with ⟨-, hlast, -⟩ | ⟨rfl, hlast, -⟩
      · cases hlast
      · obtain rfl := Option.some.inj (Action.finish.inj hlast)
        exact ⟨last, fault, by simp, hfault, rfl⟩
  | done writes _ _ =>
      obtain ⟨between, -, htail⟩ := exists_of_append_eq (finish_notMem (some error) writes) htrace
      rcases triple_eq_append htail with ⟨-, hlast, -⟩ | ⟨-, hlast, -⟩ | ⟨-, hlast, -⟩
      · cases hlast
      · cases hlast
      · cases hlast

/-- **Every course is safe.** -/
theorem safe (h : Course event bytes trace) : Safe event bytes trace where
  taken_prefix _ := h.taken_prefix
  flush_once := h.flush_once
  flush_after _ _ _ := h.flush_after
  calls_end := h.calls_end
  returns _ := h.returns
  log_after _ _ _ := h.log_after
  success _ _ _ := h.success
  failure _ _ _ := h.failure

end Course

end

end Delivery

end Paddock
