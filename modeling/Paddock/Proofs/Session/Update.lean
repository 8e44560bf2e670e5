import Paddock.Proofs.Session.Field
import Paddock.Proofs.Session.Frame

/-!
# Session — updates

Three sorts of steps change a part of the record in a slot: one puts a record there, one sets a
scalar, one appends to the color.  An update is where it goes, what it reads and how it changes the
part it finds (`edited?`), so the three are handled as one.

Two updates are independent if neither reads the slot that the other changes and, when they change
the same slot, their paths are apart.  Independent updates can be made in either order: each
succeeds or fails as it would alone (`isSome_edited?_run`), the slots are the same in the end
(`run_step_comm`), and all that is outside the two paths stays as it was (`part?_run_step`).
-/

namespace Paddock

/-! ### Storing twice -/

namespace Slots

variable (slots : Slots)

theorem insert_insert (name : String) (r r' : Record) (entries : List (String × Record)) :
    insert name r' (insert name r entries) = insert name r' entries := by
  induction entries with
  | nil => simp [insert]
  | cons entry rest ih =>
      by_cases h : entry.1 = name
      · simp [insert, h]
      · simp [insert, h, ih]

/-- What was stored first is gone. -/
theorem put_put (name : String) (r r' : Record) :
    (slots.put name r).put name r' = slots.put name r' :=
  congrArg mk (insert_insert name r r' slots.entries)

theorem insert_comm {name other : String} (hne : name ≠ other) (r r' : Record)
    {entries : List (String × Record)} (h : (entries.lookup name).isSome = true) :
    insert other r' (insert name r entries) = insert name r (insert other r' entries) := by
  induction entries with
  | nil => cases h
  | cons entry rest ih =>
      obtain ⟨third, old⟩ := entry
      by_cases hname : third = name
      · simp [insert, hname, hne]
      · have hrest : (rest.lookup name).isSome = true := by
          have hbeq : (name == third) = false := beq_false_of_ne (Ne.symm hname)
          rwa [List.lookup_cons, hbeq] at h
        by_cases hother : third = other
        · simp [insert, hother, Ne.symm hne]
        · simp [insert, hname, hother, ih hrest]

/-- Different slots can be stored to in either order, unless both are new. -/
theorem put_comm {name other : String} (hne : name ≠ other) (r r' : Record)
    (h : (slots.get? name).isSome = true) :
    (slots.put name r).put other r' = (slots.put other r').put name r :=
  congrArg mk (insert_comm hne r r' h)

/-- The part at a path of the record in a slot. -/
def part? (name : String) (path : Path) : Option Part := (slots.get? name).bind (·.part? path)

end Slots

namespace Session

/-! ### Updates -/

/-- A step that changes a part of the record in a slot. -/
inductive Update where
  | put (slot source : String) (path : Path)
  | set (slot : String) (path : Path) (value : Scalar)
  | appendColor (slot suffix : String)

namespace Update

variable {slots : Slots} {u v : Update} {r : Record}

/-- The step that an update is. -/
def step : Update → Step
  | put slot source path => .put slot source path
  | set slot path value => .set slot path value
  | appendColor slot suffix => .appendColor slot suffix

/-- The slot that an update changes. -/
def slot : Update → String
  | put slot _ _ | set slot _ _ | appendColor slot _ => slot

/-- The slot that an update takes its value from, if it takes it from one. -/
def source? : Update → Option String
  | put _ source _ => some source
  | set _ _ _ | appendColor _ _ => none

/-- The path at which an update changes its record.  A record without a color has nothing at the
path `color`. -/
def path (slots : Slots) : Update → Path
  | put _ _ path | set _ path _ => path
  | appendColor slot _ => ((slots.get? slot).bind Record.colorPath?).getD [.color]

/-- The change that an update makes, unless its source is missing. -/
def change? (slots : Slots) : Update → Option (Part → Option Part)
  | put _ source _ => (slots.get? source).map fun r _ => some (.record r)
  | set _ _ value => some fun _ => some (.scalar value)
  | appendColor _ suffix => some (append suffix)

/-- The record that an update leaves in its slot, unless it fails. -/
def edited? (slots : Slots) (u : Update) : Option Record := do
  let r ← slots.get? u.slot
  let change ← u.change? slots
  r.update? (u.path slots) change

theorem stored?_step (slots : Slots) (u : Update) :
    u.step.stored? slots = (u.edited? slots).map (u.slot, ·) := by
  have hlast : ∀ (name : String) (new? : Option Record),
      (new?.bind fun r => some (name, r)) = new?.map (name, ·) :=
    fun _ _ => Option.map_eq_bind.symm
  cases u with
  | put | set =>
      simp only [step, Step.stored?, edited?, change?, slot, path, Option.bind_eq_bind,
        Option.pure_def, Option.map_bind, Option.bind_map, Function.comp_def, Option.bind_some,
        hlast]
  | appendColor name suffix =>
      cases hr : slots.get? name with
      | none =>
          simp only [step, Step.stored?, edited?, slot, hr, Option.bind_eq_bind, Option.bind_none,
            Option.map_none]
      | some r =>
          simp only [step, Step.stored?, edited?, change?, slot, path, hr, Option.bind_eq_bind,
            Option.pure_def, Option.bind_some, hlast]
          -- without a color both fail, one for want of a path and one for want of a field
          cases r <;> rfl

theorem run_step (slots : Slots) (u : Update) :
    u.step.run slots =
      ((u.edited? slots).elim slots (slots.put u.slot), (u.edited? slots).map .record) := by
  rw [Step.run, stored?_step]
  cases u.edited? slots with
  | none => cases u <;> rfl
  | some r => rfl

/-- An update that fails leaves the slots as they are. -/
theorem fst_run_step_of_none (h : u.edited? slots = none) : (u.step.run slots).1 = slots := by
  rw [run_step, h, Option.elim_none]

theorem fst_run_step_of_some (h : u.edited? slots = some r) :
    (u.step.run slots).1 = slots.put u.slot r := by
  rw [run_step, h, Option.elim_some]

theorem isSome_snd_run_step (slots : Slots) (u : Update) :
    (u.step.run slots).2.isSome = (u.edited? slots).isSome := by
  rw [run_step, Option.isSome_map]

theorem edited?_eq (h : slots.get? u.slot = some r) :
    u.edited? slots = (u.change? slots).bind (r.update? (u.path slots)) := by
  rw [edited?, h]
  rfl

/-- An update that succeeds found a record in its slot and changed it at its path. -/
theorem exists_of_edited?_eq_some {new : Record} (h : u.edited? slots = some new) :
    ∃ old change, slots.get? u.slot = some old ∧ u.change? slots = some change ∧
      old.update? (u.path slots) change = some new := by
  cases hold : slots.get? u.slot with
  | none =>
      rw [edited?, hold] at h
      cases h
  | some old =>
      rw [edited?_eq hold, Option.bind_eq_some_iff] at h
      obtain ⟨change, hchange, hnew⟩ := h
      exact ⟨old, change, rfl, hchange, hnew⟩

/-- An update leaves alone what is outside its path, and all other slots. -/
theorem part?_run_step {name : String} {path : Path}
    (h : u.slot = name → (u.path slots).Apart path) :
    (u.step.run slots).1.part? name path = slots.part? name path := by
  cases hnew : u.edited? slots with
  | none => rw [fst_run_step_of_none hnew]
  | some new =>
      rw [fst_run_step_of_some hnew, Slots.part?, Slots.part?]
      by_cases hslot : u.slot = name
      · subst hslot
        obtain ⟨old, change, hold, -, hupdate⟩ := exists_of_edited?_eq_some hnew
        rw [Slots.get?_put_self, hold, Option.bind_some, Option.bind_some,
          Record.part?_update?_of_apart (h rfl) hupdate]
      · rw [slots.get?_put_of_ne (Ne.symm hslot)]

/-! ### Independent updates -/

/-- Neither of two updates reads the slot that the other changes, and in the same slot their paths
are apart. -/
def Independent (slots : Slots) (u v : Update) : Prop :=
  u.source? ≠ some v.slot ∧ v.source? ≠ some u.slot ∧
    (u.slot = v.slot → (u.path slots).Apart (v.path slots))

theorem Independent.symm (h : u.Independent slots v) : v.Independent slots u :=
  ⟨h.2.1, h.1, fun hslot => (h.2.2 hslot.symm).symm⟩

theorem get?_run_step_of_ne {name : String} (h : v.slot ≠ name) :
    (v.step.run slots).1.get? name = slots.get? name := by
  refine Step.get?_run_of_ne fun htarget => h ?_
  cases v <;> exact Option.some.inj htarget

theorem change?_run_step (h : u.source? ≠ some v.slot) :
    u.change? (v.step.run slots).1 = u.change? slots := by
  cases u with
  | put slot source path =>
      have hne : v.slot ≠ source := fun heq => h (congrArg some heq.symm)
      rw [change?, change?, get?_run_step_of_ne hne]
  | set | appendColor => rfl

/-- The color of a record is where its kind has it. -/
theorem colorPath?_congr {r r' : Record} (h : r.kind = r'.kind) : r.colorPath? = r'.colorPath? := by
  cases r <;> cases r' <;> first | rfl | cases h

/-- An independent update leaves the other's path as it is. -/
theorem path_run_step (h : u.Independent slots v) :
    u.path (v.step.run slots).1 = u.path slots := by
  cases u with
  | put | set => rfl
  | appendColor slot suffix =>
      by_cases hslot : v.slot = slot
      · cases hv : v.edited? slots with
        | none => rw [fst_run_step_of_none hv]
        | some new =>
            obtain ⟨old, change, hold, -, hupdate⟩ := exists_of_edited?_eq_some hv
            have hkind := Record.kind_update?_of_apart (h.2.2 hslot.symm).symm hupdate
            subst hslot
            rw [fst_run_step_of_some hv, path, path, Slots.get?_put_self, hold, Option.bind_some,
              Option.bind_some, colorPath?_congr hkind]
      · rw [path, path, get?_run_step_of_ne hslot]

/-- In another slot, an independent update does as it would alone. -/
theorem edited?_run_step_of_ne (h : u.Independent slots v) (hslot : v.slot ≠ u.slot) :
    u.edited? (v.step.run slots).1 = u.edited? slots := by
  rw [edited?, edited?, get?_run_step_of_ne hslot, change?_run_step h.1, path_run_step h]

/-- In the same slot, an independent update starts from what the other left. -/
theorem edited?_run_step_of_eq (h : u.Independent slots v) (hslot : u.slot = v.slot)
    {new : Record} (hv : v.edited? slots = some new) :
    u.edited? (v.step.run slots).1 = (u.change? slots).bind (new.update? (u.path slots)) := by
  have hnew : (v.step.run slots).1.get? u.slot = some new := by
    rw [fst_run_step_of_some hv, hslot, Slots.get?_put_self]
  rw [edited?_eq hnew, change?_run_step h.1, path_run_step h]

/-- **An independent update succeeds or fails as it would alone.** -/
theorem isSome_edited?_run (h : u.Independent slots v) :
    (u.edited? (v.step.run slots).1).isSome = (u.edited? slots).isSome := by
  by_cases hslot : u.slot = v.slot
  · cases hv : v.edited? slots with
    | none => rw [fst_run_step_of_none hv]
    | some new =>
        obtain ⟨old, change, hold, -, hupdate⟩ := exists_of_edited?_eq_some hv
        rw [edited?_run_step_of_eq h hslot hv, edited?_eq (hslot ▸ hold)]
        cases u.change? slots with
        | none => rfl
        | some change' => exact Record.isSome_update?_of_apart (h.2.2 hslot) change' hupdate
  · rw [edited?_run_step_of_ne h (Ne.symm hslot)]

theorem edited?_run_step_of_none (h : u.Independent slots v) (hu : u.edited? slots = none) :
    u.edited? (v.step.run slots).1 = none := by
  rw [← Option.isNone_iff_eq_none, ← Option.not_isSome, isSome_edited?_run h, hu]
  rfl

/-- **Independent updates lead to the same slots in either order.** -/
theorem run_step_comm (h : u.Independent slots v) :
    (v.step.run (u.step.run slots).1).1 = (u.step.run (v.step.run slots).1).1 := by
  cases hu : u.edited? slots with
  | none =>
      rw [fst_run_step_of_none hu, fst_run_step_of_none (edited?_run_step_of_none h hu)]
  | some r =>
      cases hv : v.edited? slots with
      | none =>
          rw [fst_run_step_of_none hv, fst_run_step_of_none (edited?_run_step_of_none h.symm hv)]
      | some s =>
          by_cases hslot : u.slot = v.slot
          · -- both start from one record, and the two results meet in a third
            obtain ⟨old, change, hold, hchange, hr⟩ := exists_of_edited?_eq_some hu
            obtain ⟨old', change', hold', hchange', hs⟩ := exists_of_edited?_eq_some hv
            obtain rfl : old = old' := by
              rw [hslot, hold'] at hold
              exact (Option.some.inj hold).symm
            obtain ⟨both, hboth, hboth'⟩ := Record.update?_diamond (h.2.2 hslot) hr hs
            have hu' : u.edited? (v.step.run slots).1 = some both := by
              rw [edited?_run_step_of_eq h hslot hv, hchange, Option.bind_some, hboth']
            have hv' : v.edited? (u.step.run slots).1 = some both := by
              rw [edited?_run_step_of_eq h.symm hslot.symm hu, hchange', Option.bind_some, hboth]
            rw [fst_run_step_of_some hv', fst_run_step_of_some hu, fst_run_step_of_some hu',
              fst_run_step_of_some hv, hslot, Slots.put_put, Slots.put_put]
          · have hu' : u.edited? (v.step.run slots).1 = some r :=
              (edited?_run_step_of_ne h (Ne.symm hslot)).trans hu
            have hv' : v.edited? (u.step.run slots).1 = some s :=
              (edited?_run_step_of_ne h.symm hslot).trans hv
            obtain ⟨old, -, hold, -, -⟩ := exists_of_edited?_eq_some hu
            rw [fst_run_step_of_some hv', fst_run_step_of_some hu, fst_run_step_of_some hu',
              fst_run_step_of_some hv, slots.put_comm hslot r s (by rw [hold, Option.isSome_some])]

end Update

/-! ### Either order -/

/-- Two updates can change places: either way the slots are the same in the end, each update
succeeds or fails alike, and every part outside the paths of both is as before. -/
structure Interchange (slots : Slots) (u v : Update) : Prop where
  slots_eq : (run slots [some u.step, some v.step]).1 = (run slots [some v.step, some u.step]).1
  outcomes_eq : (run slots [some u.step, some v.step]).2.map Option.isSome =
    ((run slots [some v.step, some u.step]).2.map Option.isSome).reverse
  outside : ∀ name path, (u.slot = name → (u.path slots).Apart path) →
    (v.slot = name → (v.path slots).Apart path) →
    (run slots [some u.step, some v.step]).1.part? name path = slots.part? name path

theorem Update.Independent.interchange {slots : Slots} {u v : Update}
    (h : u.Independent slots v) : Interchange slots u v where
  slots_eq := Update.run_step_comm h
  outcomes_eq := by
    have hu : (u.step.run (v.step.run slots).1).2.isSome = (u.step.run slots).2.isSome := by
      rw [Update.isSome_snd_run_step, Update.isSome_edited?_run h, Update.isSome_snd_run_step]
    have hv : (v.step.run (u.step.run slots).1).2.isSome = (v.step.run slots).2.isSome := by
      rw [Update.isSome_snd_run_step, Update.isSome_edited?_run h.symm, Update.isSome_snd_run_step]
    simp [run, hu, hv]
  outside name path hu hv := by
    have hv' : v.slot = name → (v.path (u.step.run slots).1).Apart path := by
      rwa [Update.path_run_step h.symm]
    exact (Update.part?_run_step hv').trans (Update.part?_run_step hu)

/-- **Independent updates commute.**  In particular, what is done under the engine of a showcase and
what is done under the engine of its car never meet. -/
theorem independent_updates_commute (slots : Slots) (u v : Update) :
    (u.Independent slots v → Interchange slots u v) ∧
      ∀ p q : Path, u.slot = v.slot → u.path slots = .engine :: p →
        v.path slots = .car :: .engine :: q → u.source? ≠ some u.slot → v.source? ≠ some v.slot →
        Interchange slots u v ∧
          (∀ rest, (run slots [some u.step]).1.part? u.slot (.car :: .engine :: rest) =
            slots.part? u.slot (.car :: .engine :: rest)) ∧
          ∀ rest, (run slots [some v.step]).1.part? v.slot (.engine :: rest) =
            slots.part? v.slot (.engine :: rest) := by
  refine ⟨Update.Independent.interchange, fun p q hslot hu hv hsource hsource' => ?_⟩
  have hapart : ∀ p q : Path, Path.Apart (.engine :: p) (.car :: q) :=
    fun p q => Path.apart_cons_cons.2 (.inl (by decide))
  refine ⟨Update.Independent.interchange ⟨hslot ▸ hsource, hslot ▸ hsource', fun _ => ?_⟩,
    fun rest => Update.part?_run_step fun _ => ?_, fun rest => Update.part?_run_step fun _ => ?_⟩
  · rw [hu, hv]
    exact hapart p _
  · rw [hu]
    exact hapart p _
  · rw [hv]
    exact (hapart rest _).symm

/-- Another engine for a showcase and another color for its car, or another torque for the engine of
the car. -/
theorem independent_updates_commute_showcase :
    let slots : Slots := ⟨[("s", .showcase .reference), ("e", .engine ⟨1, .nan⟩)]⟩
    let u : Update := .put "s" "e" [.engine]
    let v : Update := .appendColor "s" "dish"
    let w : Update := .set "s" [.car, .engine, .torque] (.float .nan)
    u.Independent slots v ∧ Interchange slots u v ∧ Interchange slots u w := by
  intro slots u v w
  have h : u.Independent slots v := ⟨by decide, by decide, fun _ => by decide⟩
  have hengines := (independent_updates_commute slots u w).2 [] [.torque] rfl rfl rfl (by decide)
    (by decide)
  exact ⟨h, (independent_updates_commute slots u v).1 h, hengines.1⟩

end Session

end Paddock
