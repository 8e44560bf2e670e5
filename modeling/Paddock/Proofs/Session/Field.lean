import Mathlib.Data.List.Infix
import Paddock.Session.Path

/-!
# Session — laws of fields and paths

A record is its kind and its fields (`eq_of_field?`), and a field takes exactly the values of its
own kind (`isSome_withField?`).  From these two facts come the laws of a field: what is put is what
is got, putting what is there changes nothing, the last value put stays, and different fields do not
meddle.

The same holds along paths.  Two paths are apart if neither leads through the other.  An update at
one path leaves the parts at all paths apart from it alone (`part?_update?_of_apart`), updates at
paths that are apart meet in the same record whichever comes first (`update?_diamond`), and an
update can be undone (`update?_restore`), so an update cannot make another one possible.
-/

namespace Paddock

/-! ### Kinds -/

/-- The kinds of records. -/
inductive RecordKind where
  | engine
  | car
  | showcase
  | report
deriving DecidableEq

/-- The kinds of parts. -/
inductive PartKind where
  | record (kind : RecordKind)
  | scalar (kind : ScalarKind)
deriving DecidableEq

/-- The kind of a record. -/
def Record.kind : Record → RecordKind
  | engine _ => .engine
  | car _ => .car
  | showcase _ => .showcase
  | report _ => .report

/-- The kind of a scalar. -/
def Scalar.kind : Scalar → ScalarKind
  | int _ => .int
  | float _ => .float
  | text _ => .text

/-- The kind of a part. -/
def Part.kind : Part → PartKind
  | record r => .record r.kind
  | scalar s => .scalar s.kind

namespace Record

variable {r r' : Record} {key : Key} {value : Part}

/-! ### One field -/

/-- A record is its kind and its fields. -/
theorem eq_of_field? (hkind : r.kind = r'.kind) (h : ∀ key, r.field? key = r'.field? key) :
    r = r' := by
  cases r with
  | engine e =>
      cases r' with
      | engine e' =>
          obtain ⟨horsepower, torque⟩ := e
          cases h .horsepower
          cases h .torque
          rfl
      | car | showcase | report => cases hkind
  | car c =>
      cases r' with
      | car c' =>
          obtain ⟨maxSpeed, weight, engine, color⟩ := c
          cases h .maxSpeed
          cases h .weight
          cases h .engine
          cases h .color
          rfl
      | engine | showcase | report => cases hkind
  | showcase s =>
      cases r' with
      | showcase s' =>
          obtain ⟨engine, car⟩ := s
          cases h .engine
          cases h .car
          rfl
      | engine | car | report => cases hkind
  | report r =>
      cases r' with
      | report r' =>
          obtain ⟨result, horsepower, torque, color, maxSpeed, weight⟩ := r
          cases h .result
          cases h .horsepower
          cases h .torque
          cases h .color
          cases h .maxSpeed
          cases h .weight
          rfl
      | engine | car | showcase => cases hkind

/-- A field takes the values of its own kind. -/
theorem isSome_withField? (r : Record) (key : Key) (value : Part) :
    (r.withField? key value).isSome = (r.field? key).any (·.kind = value.kind) := by
  cases r <;> cases key <;> first | rfl | (rcases value with (_ | _) | (_ | _) <;> rfl)

theorem kind_withField? (h : r.withField? key value = some r') : r'.kind = r.kind := by
  unfold withField? at h
  split at h <;> cases h <;> rfl

theorem field?_withField?_self (h : r.withField? key value = some r') :
    r'.field? key = some value := by
  unfold withField? at h
  split at h <;> cases h <;> rfl

theorem field?_withField?_of_ne (h : r.withField? key value = some r') {other : Key}
    (hne : other ≠ key) : r'.field? other = r.field? other := by
  unfold withField? at h
  split at h <;> cases h <;> cases other <;> first | rfl | exact absurd rfl hne

/-- A record that differs from another in one field at most is that record with the field put. -/
theorem withField?_eq_some (hvalue : (r.withField? key value).isSome = true)
    (hkind : r'.kind = r.kind) (hself : r'.field? key = some value)
    (hothers : ∀ other, other ≠ key → r'.field? other = r.field? other) :
    r.withField? key value = some r' := by
  obtain ⟨s, hs⟩ := Option.isSome_iff_exists.1 hvalue
  refine hs.trans (congrArg some (eq_of_field? ((kind_withField? hs).trans hkind.symm) ?_))
  intro other
  by_cases hother : other = key
  · rw [hother, field?_withField?_self hs, hself]
  · rw [field?_withField?_of_ne hs hother, hothers other hother]

/-- Putting what is there changes nothing. -/
theorem withField?_field? (h : r.field? key = some value) : r.withField? key value = some r := by
  refine withField?_eq_some ?_ rfl h fun _ _ => rfl
  simp [isSome_withField?, h]

/-- Whether a value can be put depends on its kind only. -/
theorem isSome_withField?_congr {value' : Part} (h : value.kind = value'.kind) :
    (r.withField? key value).isSome = (r.withField? key value').isSome := by
  rw [isSome_withField?, isSome_withField?, h]

/-- The last value put stays. -/
theorem withField?_withField? (h : r.withField? key value = some r') (value' : Part) :
    r'.withField? key value' = r.withField? key value' := by
  have hfits : (r.field? key).any (·.kind = value.kind) = true := by
    rw [← isSome_withField?, h, Option.isSome_some]
  -- the value put first is of the kind of the field, so it decides alike about the second
  have hsome : (r'.withField? key value').isSome = (r.withField? key value').isSome := by
    obtain ⟨old, hold, hkind⟩ := (Option.any_eq_true _ _).1 hfits
    rw [isSome_withField?, isSome_withField?, field?_withField?_self h, hold, Option.any_some,
      Option.any_some, of_decide_eq_true hkind]
  cases hput : r.withField? key value' with
  | none =>
      rw [hput, Option.isSome_none] at hsome
      exact Option.isNone_iff_eq_none.1 (by simpa using hsome)
  | some s =>
      refine withField?_eq_some (hsome.trans (by rw [hput, Option.isSome_some])) ?_
        (field?_withField?_self hput) fun other hother => ?_
      · rw [kind_withField? hput, kind_withField? h]
      · rw [field?_withField?_of_ne hput hother, field?_withField?_of_ne h hother]

/-- Different fields can be put in either order. -/
theorem withField?_comm {r₁ r₂ : Record} {key₁ key₂ : Key} {value₁ value₂ : Part}
    (hne : key₁ ≠ key₂) (h₁ : r.withField? key₁ value₁ = some r₁)
    (h₂ : r.withField? key₂ value₂ = some r₂) :
    ∃ both, r₁.withField? key₂ value₂ = some both ∧ r₂.withField? key₁ value₁ = some both := by
  have hfits : (r₁.withField? key₂ value₂).isSome = true := by
    rw [isSome_withField?, field?_withField?_of_ne h₁ hne.symm, ← isSome_withField?, h₂,
      Option.isSome_some]
  obtain ⟨both, hboth⟩ := Option.isSome_iff_exists.1 hfits
  refine ⟨both, hboth, withField?_eq_some ?_ ?_ ?_ fun other hother => ?_⟩
  · rw [isSome_withField?, field?_withField?_of_ne h₂ hne, ← isSome_withField?, h₁,
      Option.isSome_some]
  · rw [kind_withField? hboth, kind_withField? h₁, kind_withField? h₂]
  · rw [field?_withField?_of_ne hboth hne, field?_withField?_self h₁]
  · by_cases hother₂ : other = key₂
    · rw [hother₂, field?_withField?_self hboth, field?_withField?_self h₂]
    · rw [field?_withField?_of_ne hboth hother₂, field?_withField?_of_ne h₁ hother,
        field?_withField?_of_ne h₂ hother₂]

end Record

/-! ### Paths -/

/-- Neither of two paths leads through the other. -/
def Path.Apart (p q : Path) : Prop := ¬p <+: q ∧ ¬q <+: p

namespace Path

instance (p q : Path) : Decidable (p.Apart q) := inferInstanceAs (Decidable (_ ∧ _))

theorem Apart.symm {p q : Path} (h : p.Apart q) : q.Apart p := ⟨h.2, h.1⟩

theorem not_apart_nil_left (p : Path) : ¬Apart [] p := fun h => h.1 List.nil_prefix

theorem not_apart_nil_right (p : Path) : ¬Apart p [] := fun h => h.2 List.nil_prefix

theorem apart_cons_cons {key₁ key₂ : Key} {p q : Path} :
    Apart (key₁ :: p) (key₂ :: q) ↔ key₁ ≠ key₂ ∨ Apart p q := by
  simp only [Apart, List.cons_prefix_cons]
  grind

end Path

namespace Part

variable {part part' : Part} {key : Key} {path : Path} {change : Part → Option Part}

/-- An update below the whole changes one field of a record. -/
theorem update?_cons_eq_some_iff :
    part.update? change (key :: path) = some part' ↔
      ∃ r field field' r', part = record r ∧ r.field? key = some field ∧
        field.update? change path = some field' ∧ r.withField? key field' = some r' ∧
        part' = record r' := by
  cases part with
  | scalar s => simp [update?]
  | record r =>
      simp only [update?, Option.bind_eq_bind, Option.bind_eq_some_iff, Option.pure_def,
        Option.some.injEq, record.injEq]
      grind

/-- Below the whole, a part keeps its kind. -/
theorem kind_update?_cons (h : part.update? change (key :: path) = some part') :
    part'.kind = part.kind := by
  obtain ⟨r, field, field', r', rfl, -, -, hput, rfl⟩ := update?_cons_eq_some_iff.1 h
  rw [kind, kind, Record.kind_withField? hput]

/-- **An update leaves the parts at other paths alone.** -/
theorem part?_update?_of_apart {other : Path} (hapart : path.Apart other)
    (h : part.update? change path = some part') : part'.part? other = part.part? other := by
  induction path generalizing part part' other with
  | nil => exact absurd hapart (Path.not_apart_nil_left other)
  | cons key path ih =>
      cases other with
      | nil => exact absurd hapart (Path.not_apart_nil_right _)
      | cons key' other =>
          obtain ⟨r, field, field', r', rfl, hfield, hupdate, hput, rfl⟩ :=
            update?_cons_eq_some_iff.1 h
          rw [part?, part?]
          by_cases hkey : key' = key
          · subst hkey
            have hbelow := (Path.apart_cons_cons.1 hapart).resolve_left (not_not_intro rfl)
            rw [Record.field?_withField?_self hput, hfield, Option.bind_some, Option.bind_some,
              ih hbelow hupdate]
          · rw [Record.field?_withField?_of_ne hput hkey]

/-- **An update can be undone** by putting back the part that was at its path. -/
theorem update?_restore (h : part.update? change path = some part') :
    part'.update? (fun _ => part.part? path) path = some part := by
  induction path generalizing part part' with
  | nil => rfl
  | cons key path ih =>
      obtain ⟨r, field, field', r', rfl, hfield, hupdate, hput, rfl⟩ := update?_cons_eq_some_iff.1 h
      refine update?_cons_eq_some_iff.2
        ⟨r', field', field, r, rfl, Record.field?_withField?_self hput, ?_, ?_, rfl⟩
      · rw [part?, hfield, Option.bind_some]
        exact ih hupdate
      · rw [Record.withField?_withField? hput, Record.withField?_field? hfield]

/-- **Updates at paths that are apart meet,** whichever comes first. -/
theorem update?_diamond {p q : Path} (hapart : p.Apart q) {part₁ part₂ : Part}
    {change₁ change₂ : Part → Option Part} (h₁ : part.update? change₁ p = some part₁)
    (h₂ : part.update? change₂ q = some part₂) :
    ∃ both, part₁.update? change₂ q = some both ∧ part₂.update? change₁ p = some both := by
  induction p generalizing part part₁ part₂ q with
  | nil => exact absurd hapart (Path.not_apart_nil_left q)
  | cons key₁ p ih =>
      cases q with
      | nil => exact absurd hapart (Path.not_apart_nil_right _)
      | cons key₂ q =>
          obtain ⟨r, field₁, new₁, r₁, rfl, hfield₁, hupdate₁, hput₁, rfl⟩ :=
            update?_cons_eq_some_iff.1 h₁
          obtain ⟨_, field₂, new₂, r₂, hr, hfield₂, hupdate₂, hput₂, rfl⟩ :=
            update?_cons_eq_some_iff.1 h₂
          obtain rfl := record.inj hr
          by_cases hkey : key₁ = key₂
          · -- the updates meet inside the field, and its kind stays, so they meet in the record
            subst hkey
            have hbelow := (Path.apart_cons_cons.1 hapart).resolve_left (not_not_intro rfl)
            obtain rfl : field₁ = field₂ := Option.some.inj (hfield₁.symm.trans hfield₂)
            obtain ⟨new, hnew₁, hnew₂⟩ := ih hbelow hupdate₁ hupdate₂
            have hkind : new.kind = new₁.kind := by
              cases q with
              | nil => exact absurd hbelow (Path.not_apart_nil_right p)
              | cons key q => exact kind_update?_cons hnew₁
            obtain ⟨s, hs⟩ : ∃ s, r.withField? key₁ new = some s := by
              rw [← Option.isSome_iff_exists, Record.isSome_withField?_congr hkind, hput₁,
                Option.isSome_some]
            exact ⟨record s,
              update?_cons_eq_some_iff.2 ⟨r₁, new₁, new, s, rfl,
                Record.field?_withField?_self hput₁, hnew₁,
                (Record.withField?_withField? hput₁ new).trans hs, rfl⟩,
              update?_cons_eq_some_iff.2 ⟨r₂, new₂, new, s, rfl,
                Record.field?_withField?_self hput₂, hnew₂,
                (Record.withField?_withField? hput₂ new).trans hs, rfl⟩⟩
          · obtain ⟨s, hs₁, hs₂⟩ := Record.withField?_comm hkey hput₁ hput₂
            exact ⟨record s,
              update?_cons_eq_some_iff.2 ⟨r₁, field₂, new₂, s, rfl,
                (Record.field?_withField?_of_ne hput₁ (Ne.symm hkey)).trans hfield₂, hupdate₂, hs₁,
                rfl⟩,
              update?_cons_eq_some_iff.2 ⟨r₂, field₁, new₁, s, rfl,
                (Record.field?_withField?_of_ne hput₂ hkey).trans hfield₁, hupdate₁, hs₂, rfl⟩⟩

end Part

/-! ### Updates of records -/

namespace Record

variable {r r' : Record} {path : Path} {change : Part → Option Part}

theorem update?_eq_some_iff :
    r.update? path change = some r' ↔ (Part.record r).update? change path = some (.record r') := by
  rw [update?, Option.bind_eq_some_iff]
  constructor
  · rintro ⟨_ | _, hpart, hr⟩
    · exact hpart.trans (congrArg (some ∘ Part.record) (Option.some.inj hr))
    · cases hr
  · exact fun h => ⟨_, h, rfl⟩

theorem part?_update?_of_apart {other : Path} (hapart : path.Apart other)
    (h : r.update? path change = some r') : r'.part? other = r.part? other :=
  Part.part?_update?_of_apart hapart (update?_eq_some_iff.1 h)

/-- A record keeps its kind under an update at a path that is apart from some other. -/
theorem kind_update?_of_apart {other : Path} (hapart : path.Apart other)
    (h : r.update? path change = some r') : r'.kind = r.kind := by
  cases path with
  | nil => exact absurd hapart (Path.not_apart_nil_left other)
  | cons key path =>
      have hkind := Part.kind_update?_cons (update?_eq_some_iff.1 h)
      rwa [Part.kind, Part.kind, PartKind.record.injEq] at hkind

theorem update?_diamond {p q : Path} (hapart : p.Apart q) {r₁ r₂ : Record}
    {change₁ change₂ : Part → Option Part} (h₁ : r.update? p change₁ = some r₁)
    (h₂ : r.update? q change₂ = some r₂) :
    ∃ both, r₁.update? q change₂ = some both ∧ r₂.update? p change₁ = some both := by
  obtain ⟨both, hboth₁, hboth₂⟩ :=
    Part.update?_diamond hapart (update?_eq_some_iff.1 h₁) (update?_eq_some_iff.1 h₂)
  cases q with
  | nil => exact absurd hapart (Path.not_apart_nil_right p)
  | cons key q =>
      obtain ⟨-, -, -, s, -, -, -, -, rfl⟩ := Part.update?_cons_eq_some_iff.1 hboth₁
      exact ⟨s, update?_eq_some_iff.2 hboth₁, update?_eq_some_iff.2 hboth₂⟩

/-- **An update decides nothing about another** at a path that is apart. -/
theorem isSome_update?_of_apart {p q : Path} (hapart : p.Apart q) (change₁ : Part → Option Part)
    {change₂ : Part → Option Part} (h : r.update? q change₂ = some r') :
    (r'.update? p change₁).isSome = (r.update? p change₁).isSome := by
  rw [Bool.eq_iff_iff, Option.isSome_iff_exists, Option.isSome_iff_exists]
  constructor
  · -- undoing the update at `q` brings the other one back to the old record
    rintro ⟨s, hs⟩
    have hundo := update?_eq_some_iff.2 (Part.update?_restore (update?_eq_some_iff.1 h))
    obtain ⟨both, -, hboth⟩ := update?_diamond hapart hs hundo
    exact ⟨both, hboth⟩
  · rintro ⟨s, hs⟩
    obtain ⟨both, -, hboth⟩ := update?_diamond hapart hs h
    exact ⟨both, hboth⟩

end Record

end Paddock
