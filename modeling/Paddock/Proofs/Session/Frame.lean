import Paddock.Session.Step

/-!
# Session — what a step leaves alone

A step names the slot it stores to (`target?`) and the slots it reads (`sources`).  Two facts about
one step carry everything here: it changes the record of its target at most (`get?_run_of_ne`), and
what it stores and shows depends on its sources only (`stored?_congr`).

* A run leaves alone every slot that none of its steps has as its target (`get?_run_of_forall`).
* Steps that fail and steps that only show something can be left out (`run_effective`).
* So can the steps on one slot, as long as none of them carries its record elsewhere: no other slot
  and no other reply shows that they were there (`unseen_of_keepsTo`).

Records are values, so a copy counts as a slot like any other.
-/

namespace Paddock.Session

variable {slots : Slots} {name : String}

/-! ### Targets and sources -/

/-- The slot that a step stores a record to; none for a step that only shows something. -/
def Step.target? : Step → Option String
  | new slot _ | reference slot | newCar slot _ _ _ _ | newShowcase slot _ _ | copy slot _ _
  | put slot _ _ | set slot _ _ | appendColor slot _ => some slot
  | report _ into => some into
  | text _ | program _ | deliver _ _ | quantities _ | outline _ _ | equal _ _ => none

/-- The slots that a step reads. -/
def Step.sources : Step → List String
  | new _ _ | reference _ => []
  | newCar _ engine _ _ _ => [engine]
  | newShowcase _ engine car => [engine, car]
  | copy _ source _ => [source]
  | put slot source _ => [slot, source]
  | set slot _ _ | appendColor slot _ | report slot _ | text slot | program slot | deliver slot _
  | quantities slot | outline slot _ => [slot]
  | equal left right => [left, right]

/-- What a step stores goes to its target. -/
theorem Step.target?_of_stored? {step : Step} {stored : String × Record}
    (h : step.stored? slots = some stored) : step.target? = some stored.1 := by
  cases step with
  | new | reference =>
      cases h
      rfl
  | newCar | newShowcase | copy | put | set | appendColor | report =>
      simp only [stored?, Option.bind_eq_bind, Option.bind_eq_some_iff, Option.pure_def,
        Option.some.injEq] at h
      grind [target?]
  | text | program | deliver | quantities | outline | equal => cases h

/-- What a step stores and shows depends on its sources only. -/
theorem Step.stored?_congr {step : Step} {s t : Slots}
    (h : ∀ source ∈ step.sources, s.get? source = t.get? source) :
    step.stored? s = step.stored? t ∧ step.shown? s = step.shown? t := by
  cases step with
  | new | reference => exact ⟨rfl, rfl⟩
  | newShowcase | put | equal =>
      rw [sources, List.forall_mem_cons, List.forall_mem_singleton] at h
      obtain ⟨h₁, h₂⟩ := h
      simp only [stored?, shown?, Slots.engine?, Slots.car?, h₁, h₂, and_self]
  | newCar | copy | set | appendColor | report | text | program | deliver | quantities | outline =>
      have h₁ := List.forall_mem_singleton.1 h
      simp only [stored?, shown?, Slots.engine?, Slots.showcase?, Slots.report?, h₁, and_self]

/-- A step that stores nothing leaves the slots as they are, and any other replies what it puts
into its target. -/
theorem Step.run_cases (slots : Slots) (step : Step) :
    step.stored? slots = none ∧ step.run slots = (slots, step.shown? slots) ∨
      ∃ target r, step.target? = some target ∧
        step.run slots = (slots.put target r, some (.record r)) := by
  unfold run
  split
  · rename_i target r hstored
    exact .inr ⟨target, r, target?_of_stored? hstored, rfl⟩
  · rename_i hstored
    exact .inl ⟨hstored, rfl⟩

/-- A step changes its target at most. -/
theorem Step.get?_run_of_ne {step : Step} (h : step.target? ≠ some name) :
    (step.run slots).1.get? name = slots.get? name := by
  rcases step.run_cases slots with ⟨-, hrun⟩ | ⟨target, r, htarget, hrun⟩
  · rw [hrun]
  · have hne : name ≠ target := by
      rintro rfl
      exact h htarget
    rw [hrun, slots.get?_put_of_ne hne]

/-- A step without a target, or without a reply, changes nothing. -/
theorem Step.run_eq_self {step : Step} (h : step.target? = none ∨ (step.run slots).2 = none) :
    (step.run slots).1 = slots := by
  rcases step.run_cases slots with ⟨-, hrun⟩ | ⟨target, r, htarget, hrun⟩
  · rw [hrun]
  · rw [htarget, hrun] at h
    rcases h with h | h <;> cases h

/-! ### Entries -/

/-- The slot that an entry of a session stores to; what is no step has none. -/
def targetOf (entry : Option Step) : Option String := entry.bind Step.target?

/-- The slots that an entry of a session reads. -/
def sourcesOf (entry : Option Step) : List String := entry.elim [] Step.sources

/-- The slots after one entry and its reply. -/
def respond (slots : Slots) (entry : Option Step) : Slots × Option Reply :=
  entry.elim (slots, none) (Step.run slots)

theorem run_cons (slots : Slots) (entry : Option Step) (rest : List (Option Step)) :
    run slots (entry :: rest) =
      ((run (respond slots entry).1 rest).1,
        (respond slots entry).2 :: (run (respond slots entry).1 rest).2) := by
  cases entry <;> rfl

theorem run_singleton (slots : Slots) (entry : Option Step) :
    run slots [entry] = ((respond slots entry).1, [(respond slots entry).2]) :=
  run_cons slots entry []

theorem get?_respond_of_ne {entry : Option Step} (h : targetOf entry ≠ some name) :
    (respond slots entry).1.get? name = slots.get? name := by
  cases entry with
  | none => rfl
  | some step => exact Step.get?_run_of_ne h

theorem respond_eq_self {entry : Option Step}
    (h : targetOf entry = none ∨ (respond slots entry).2 = none) :
    (respond slots entry).1 = slots := by
  cases entry with
  | none => rfl
  | some step => exact Step.run_eq_self h

/-- Slots that agree on the sources of an entry give the same reply, and if they agree on some
other slot they still do so afterwards. -/
theorem respond_congr {entry : Option Step} {s t : Slots}
    (h : ∀ source ∈ sourcesOf entry, s.get? source = t.get? source) :
    (respond s entry).2 = (respond t entry).2 ∧
      ∀ other, s.get? other = t.get? other →
        (respond s entry).1.get? other = (respond t entry).1.get? other := by
  cases entry with
  | none => exact ⟨rfl, fun _ hother => hother⟩
  | some step =>
      obtain ⟨hstored, hshown⟩ := Step.stored?_congr h
      rw [respond, respond, Option.elim_some, Option.elim_some, Step.run, Step.run, hstored, hshown]
      cases step.stored? t with
      | none => exact ⟨rfl, fun _ hother => hother⟩
      | some stored =>
          refine ⟨rfl, fun other hother => ?_⟩
          by_cases heq : other = stored.1
          · subst heq
            rw [Slots.get?_put_self, Slots.get?_put_self]
          · rw [Slots.get?_put_of_ne _ heq, Slots.get?_put_of_ne _ heq, hother]

/-! ### Runs -/

/-- A run changes the targets of its steps at most. -/
theorem get?_run_of_forall {steps : List (Option Step)}
    (h : ∀ entry ∈ steps, targetOf entry ≠ some name) :
    (run slots steps).1.get? name = slots.get? name := by
  induction steps generalizing slots with
  | nil => rfl
  | cons entry rest ih =>
      rw [List.forall_mem_cons] at h
      rw [run_cons, ih h.2, get?_respond_of_ne h.1]

/-- The entries of a run, each with its reply. -/
def answered (slots : Slots) (steps : List (Option Step)) : List (Option Step × Option Reply) :=
  steps.zip (run slots steps).2

theorem answered_cons (slots : Slots) (entry : Option Step) (rest : List (Option Step)) :
    answered slots (entry :: rest) =
      (entry, (respond slots entry).2) :: answered (respond slots entry).1 rest := by
  rw [answered, run_cons, List.zip_cons_cons, answered]

/-- Whether an entry stored a record: it has a target and did not fail. -/
def tookEffect (pair : Option Step × Option Reply) : Bool :=
  (targetOf pair.1).isSome && pair.2.isSome

/-- **What fails and what only shows something can be left out.**  The steps that took effect lead
to the same slots by themselves and get the same replies. -/
theorem run_effective (slots : Slots) (steps : List (Option Step)) :
    run slots (((answered slots steps).filter tookEffect).map Prod.fst) =
      ((run slots steps).1, ((answered slots steps).filter tookEffect).map Prod.snd) := by
  induction steps generalizing slots with
  | nil => rfl
  | cons entry rest ih =>
      have hrest := ih (respond slots entry).1
      rw [answered_cons, run_cons, List.filter_cons]
      split
      · rw [List.map_cons, List.map_cons, run_cons, hrest]
      · rename_i heffect
        -- nothing was stored, so the rest starts from the same slots with and without the entry
        have hsame : (respond slots entry).1 = slots := by
          refine respond_eq_self ?_
          rw [tookEffect, Bool.and_eq_true, Decidable.not_and_iff_or_not] at heffect
          simpa using heffect
        rw [hsame] at hrest ⊢
        exact hrest

/-! ### Steps on one slot -/

/-- Whether an entry reads a slot or stores to it. -/
def concerns (name : String) (entry : Option Step) : Bool :=
  targetOf entry = some name || (sourcesOf entry).contains name

/-- Whether what reads a slot stores to that slot or nowhere. -/
def KeepsTo (name : String) (steps : List (Option Step)) : Prop :=
  ∀ entry ∈ steps, name ∈ sourcesOf entry → ∀ target ∈ targetOf entry, target = name

/-- The entries of a run that do not concern a slot, each with its reply. -/
def others (name : String) (slots : Slots) (steps : List (Option Step)) :
    List (Option Step × Option Reply) :=
  (answered slots steps).filter fun pair => !concerns name pair.1

theorem others_cons (slots : Slots) (entry : Option Step) (rest : List (Option Step)) :
    others name slots (entry :: rest) =
      (if concerns name entry then [] else [(entry, (respond slots entry).2)]) ++
        others name (respond slots entry).1 rest := by
  rw [others, answered_cons, List.filter_cons]
  cases concerns name entry <;> rfl

/-- Whether the steps on a slot go unseen: without them the other steps get the same replies and
leave the same records in all other slots. -/
def Unseen (slots : Slots) (name : String) (steps : List (Option Step)) : Prop :=
  (run slots ((others name slots steps).map Prod.fst)).2 = (others name slots steps).map Prod.snd ∧
    ∀ other, other ≠ name →
      (run slots ((others name slots steps).map Prod.fst)).1.get? other =
        (run slots steps).1.get? other

/-- Slots that differ in one slot at most. -/
def AgreeOff (name : String) (s t : Slots) : Prop :=
  ∀ other, other ≠ name → s.get? other = t.get? other

/-- A step on a slot that keeps to it changes nothing elsewhere. -/
theorem AgreeOff.respond_left {s t : Slots} (h : AgreeOff name s t) {entry : Option Step}
    (hconcerns : concerns name entry = true)
    (hkeeps : name ∈ sourcesOf entry → ∀ target ∈ targetOf entry, target = name) :
    AgreeOff name (respond s entry).1 t := by
  intro other hother
  have hne : targetOf entry ≠ some other := by
    intro htarget
    rw [concerns, Bool.or_eq_true, decide_eq_true_eq, List.contains_iff_mem] at hconcerns
    rcases hconcerns with hname | hsource
    · rw [htarget] at hname
      exact hother (Option.some.inj hname)
    · exact hother (hkeeps hsource other htarget)
  rw [get?_respond_of_ne hne, h other hother]

/-- A step that does not concern a slot does not see what is in it. -/
theorem AgreeOff.respond {s t : Slots} (h : AgreeOff name s t) {entry : Option Step}
    (hconcerns : concerns name entry = false) :
    (respond s entry).2 = (respond t entry).2 ∧
      AgreeOff name (respond s entry).1 (respond t entry).1 := by
  have hsources : ∀ source ∈ sourcesOf entry, s.get? source = t.get? source := by
    intro source hsource
    refine h source ?_
    rintro rfl
    simp [concerns, hsource] at hconcerns
  obtain ⟨hreply, hget⟩ := respond_congr hsources
  exact ⟨hreply, fun other hother => hget other (h other hother)⟩

/-- **What is done in one slot is not seen in another,** unless a step carries it there. -/
theorem unseen_of_keepsTo {steps : List (Option Step)} (h : KeepsTo name steps) :
    Unseen slots name steps := by
  -- the run without the steps on the slot may start from slots that differ in it
  suffices key : ∀ s t : Slots, AgreeOff name s t →
      (run t ((others name s steps).map Prod.fst)).2 = (others name s steps).map Prod.snd ∧
        AgreeOff name (run t ((others name s steps).map Prod.fst)).1 (run s steps).1 from
    key slots slots fun _ _ => rfl
  induction steps with
  | nil => exact fun s t hst => ⟨rfl, fun other hother => (hst other hother).symm⟩
  | cons entry rest ih =>
      intro s t hst
      rw [KeepsTo, List.forall_mem_cons] at h
      rw [run_cons, others_cons]
      cases hconcerns : concerns name entry with
      | true => exact ih h.2 _ t (hst.respond_left hconcerns h.1)
      | false =>
          obtain ⟨hreply, hnext⟩ := hst.respond hconcerns
          obtain ⟨hreplies, hfinal⟩ := ih h.2 _ _ hnext
          rw [if_neg (by decide), List.singleton_append, List.map_cons, List.map_cons, run_cons,
            hreplies, hreply]
          exact ⟨rfl, hfinal⟩

/-! ### Independence -/

/-- **Slots hold their records independently.**  From whatever slots a session goes on:
an entry changes the record of its target at most; one that fails changes nothing; leaving out what
fails and what only shows something changes neither the final slots nor any other reply.  After a
step has taken something out of one slot into another, each of the two keeps its record as long as
it is not itself the target of a step, and steps on one of them go unseen in the other. -/
theorem records_independent (slots : Slots) :
    (∀ entry name, targetOf entry ≠ some name →
      (run slots [entry]).1.get? name = slots.get? name) ∧
    (∀ entry, (run slots [entry]).2 = [none] → (run slots [entry]).1 = slots) ∧
    (∀ steps,
      let remaining := (answered slots steps).filter tookEffect
      run slots (remaining.map Prod.fst) = ((run slots steps).1, remaining.map Prod.snd)) ∧
    ∀ (copying : Step) (source target : String), copying.target? = some target →
      source ∈ copying.sources → source ≠ target → ∀ later : List (Option Step),
        let copied := (run slots [some copying]).1
        ((∀ entry ∈ later, targetOf entry ≠ some target) →
          (run copied later).1.get? target = copied.get? target) ∧
        ((∀ entry ∈ later, targetOf entry ≠ some source) →
          (run copied later).1.get? source = slots.get? source) ∧
        ∀ name ∈ [source, target], KeepsTo name later → Unseen copied name later := by
  refine ⟨?_, ?_, run_effective slots, ?_⟩
  · intro entry name h
    rw [run_singleton]
    exact get?_respond_of_ne h
  · intro entry h
    rw [run_singleton, List.singleton_inj] at h
    rw [run_singleton]
    exact respond_eq_self (.inr h)
  · intro copying source target htarget _ hne later copied
    refine ⟨get?_run_of_forall, fun h => ?_, fun name _ => unseen_of_keepsTo⟩
    have hcopied : copied.get? source = slots.get? source := by
      refine get?_run_of_forall (List.forall_mem_singleton.2 fun hsource => hne ?_)
      exact Option.some.inj (hsource.symm.trans htarget)
    rw [get?_run_of_forall h, hcopied]

/-- An engine is copied into a car; afterwards the engine gets another horsepower and the car
another color. -/
theorem records_independent_newCar :
    let slots : Slots := ⟨[("e", .engine ⟨450, .nan⟩)]⟩
    let copying : Step := .newCar "c" "e" 320 1200 "red"
    let change : Step := .set "e" [.horsepower] (.int 1)
    let paint : Step := .appendColor "c" "dish"
    let copied := (run slots [some copying]).1
    copying.target? = some "c" ∧ "e" ∈ copying.sources ∧
      KeepsTo "e" [some change, none, some paint] ∧
      Unseen copied "e" [some change, none, some paint] ∧
      (run copied [some change]).1.get? "e" ≠ slots.get? "e" ∧
      (run copied [some change]).1.get? "c" = copied.get? "c" := by
  intro slots copying change paint copied
  have hkeeps : KeepsTo "e" [some change, none, some paint] := by
    simp [KeepsTo, change, paint, sourcesOf, targetOf, Step.sources, Step.target?]
  have hcopy := (records_independent slots).2.2.2 copying "e" "c" rfl (by decide) (by decide)
  exact ⟨rfl, by decide, hkeeps, (hcopy _).2.2 "e" (by decide) hkeeps, by decide,
    (hcopy _).1 (by decide)⟩

end Paddock.Session
