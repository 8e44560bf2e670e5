import Mathlib.Data.List.Forall2
import Paddock.Proofs.Binary.Zero
import Paddock.Proofs.Session.Field

/-!
# Record — comparing field by field

`scalars` lists the scalar fields of a record, those of the records inside it included.  Records of
one kind have the same fields, so two of them are compared by comparing these lists entry by entry
(`Fieldwise`).  A relation of scalars that is symmetric or transitive gives one of records, and a
record is related to itself exactly if each of its scalars is.

* Numeric equality is the comparison by `Scalar.equal` (`equal?_eq_some_iff`).  Among scalars only
  NaN differs from itself, so numeric equality is a partial equivalence of records, and the records
  that equal themselves are those without a NaN.
* Sameness is the comparison by `Scalar.Alike` (`eq_iff_alike`), which looks at bits and at
  characters, with all NaNs alike.
-/

namespace Paddock

/-! ### Numbers -/

namespace Binary

variable {f : Format} {x y z : Binary f}

theorem equal_comm (x y : Binary f) : x.equal y = y.equal x := by
  rw [Bool.eq_iff_iff, equal_eq_true_iff, equal_eq_true_iff]
  exact exists_congr fun position => and_comm

theorem equal_trans (hxy : x.equal y = true) (hyz : y.equal z = true) : x.equal z = true := by
  obtain ⟨position, hx, hy⟩ := equal_eq_true_iff.1 hxy
  obtain ⟨position', hy', hz⟩ := equal_eq_true_iff.1 hyz
  obtain rfl : position = position' := Option.some.inj (hy.symm.trans hy')
  exact equal_eq_true_iff.2 ⟨position, hx, hz⟩

/-- NaN is the one number that differs from itself. -/
theorem equal_self_iff : x.equal x = true ↔ x ≠ nan := by
  rw [equal_eq_true_iff]
  constructor
  · rintro ⟨position, hx, -⟩ rfl
    cases hx
  · intro h
    obtain ⟨position, hx⟩ := exists_position?_eq h
    exact ⟨position, hx, hx⟩

end Binary

/-! ### Scalars -/

namespace Scalar

variable {a b c : Scalar}

/-- Numeric equality of scalars: NaN equals nothing, and the two zeros are equal. -/
def Equal : Scalar → Scalar → Prop
  | int m, int n => m = n
  | float x, float y => x.equal y = true
  | text s, text t => s = t
  | _, _ => False

@[simp] theorem equal_int {m n : Int32} : Equal (int m) (int n) ↔ m = n := Iff.rfl

@[simp] theorem equal_float {x y : Single} : Equal (float x) (float y) ↔ x.equal y = true := Iff.rfl

@[simp] theorem equal_text {s t : String} : Equal (text s) (text t) ↔ s = t := Iff.rfl

theorem Equal.symm (h : a.Equal b) : b.Equal a := by
  cases a with
  | int m =>
      cases b with
      | int n => exact Eq.symm h
      | float | text => cases h
  | float x =>
      cases b with
      | float y => exact (Binary.equal_comm y x).trans h
      | int | text => cases h
  | text s =>
      cases b with
      | text t => exact Eq.symm h
      | int | float => cases h

theorem Equal.trans (hab : a.Equal b) (hbc : b.Equal c) : a.Equal c := by
  cases b with
  | int n =>
      cases a with
      | int m => exact equal_int.1 hab ▸ hbc
      | float | text => cases hab
  | float y =>
      cases a with
      | float x =>
          cases c with
          | float z => exact Binary.equal_trans hab hbc
          | int | text => cases hbc
      | int | text => cases hab
  | text t =>
      cases a with
      | text s => exact equal_text.1 hab ▸ hbc
      | int | float => cases hab

theorem equal_self_iff : a.Equal a ↔ a ≠ float .nan := by
  cases a <;> simp [Binary.equal_self_iff]

/-- Whether two scalars are stored alike: numbers of the floating-point kind by the bits of any
patterns that encode them, with all NaNs alike, and texts character by character. -/
def Alike : Scalar → Scalar → Prop
  | int m, int n => m = n
  | float x, float y =>
    ∀ u v : BitVec 32, x = .ofBits u → y = .ofBits v → Binary.Alike (f := .single) u v
  | text s, text t => s.toList = t.toList
  | _, _ => False

theorem alike_iff : a.Alike b ↔ a = b := by
  cases a <;> cases b <;> simp only [Alike, reduceCtorEq, int.injEq, float.injEq, text.injEq,
    String.toList_inj]
  rename_i x y
  constructor
  · intro h
    have hf : 0 < Format.single.fractionBits := by decide
    have halike := h x.toBits y.toBits (Binary.ofBits_toBits hf x).symm
      (Binary.ofBits_toBits hf y).symm
    rwa [← Binary.ofBits_eq_iff, Binary.ofBits_toBits hf, Binary.ofBits_toBits hf] at halike
  · rintro rfl u v hu hv
    exact Binary.ofBits_eq_iff.1 (hu.symm.trans hv)

end Scalar

/-! ### The scalars of a record -/

/-- Labelled scalars that stand in the same order are related one by one. -/
abbrev Related (R : Scalar → Scalar → Prop) (xs ys : List (String × Scalar)) : Prop :=
  List.Forall₂ (fun a b : String × Scalar => R a.2 b.2) xs ys

/-- The scalars of an engine with their labels. -/
def Engine.scalars (e : Engine) : List (String × Scalar) :=
  [("horsepower", .int e.horsepower), ("torque", .float e.torque)]

/-- The scalars of a car, those of its engine included. -/
def Car.scalars (c : Car) : List (String × Scalar) :=
  [("max_speed", .int c.maxSpeed), ("weight", .int c.weight)] ++ c.engine.scalars ++
    [("color", .text c.color)]

/-- The scalars of both parts of a showcase. -/
def Showcase.scalars (s : Showcase) : List (String × Scalar) := s.engine.scalars ++ s.car.scalars

/-- The scalars of a report. -/
def Report.scalars (r : Report) : List (String × Scalar) :=
  [ ("result", .float r.result), ("horsepower", .int r.horsepower), ("torque", .float r.torque),
    ("color", .text r.color), ("max_speed", .int r.maxSpeed), ("weight", .int r.weight) ]

section

variable {R : Scalar → Scalar → Prop}

theorem Engine.related_scalars {e e' : Engine} : Related R e.scalars e'.scalars ↔
    R (.int e.horsepower) (.int e'.horsepower) ∧ R (.float e.torque) (.float e'.torque) := by
  simp [Related, scalars]

theorem Car.related_scalars {c c' : Car} : Related R c.scalars c'.scalars ↔
    R (.int c.maxSpeed) (.int c'.maxSpeed) ∧ R (.int c.weight) (.int c'.weight) ∧
      Related R c.engine.scalars c'.engine.scalars ∧ R (.text c.color) (.text c'.color) := by
  simp [Related, scalars, Engine.scalars, and_assoc]

theorem Showcase.related_scalars {s s' : Showcase} : Related R s.scalars s'.scalars ↔
    Related R s.engine.scalars s'.engine.scalars ∧ Related R s.car.scalars s'.car.scalars := by
  simp [Related, scalars, Car.scalars, Engine.scalars, and_assoc]

theorem Report.related_scalars {r r' : Report} : Related R r.scalars r'.scalars ↔
    R (.float r.result) (.float r'.result) ∧ R (.int r.horsepower) (.int r'.horsepower) ∧
      R (.float r.torque) (.float r'.torque) ∧ R (.text r.color) (.text r'.color) ∧
      R (.int r.maxSpeed) (.int r'.maxSpeed) ∧ R (.int r.weight) (.int r'.weight) := by
  simp [Related, scalars]

end

namespace Record

variable {x y z : Record} {R : Scalar → Scalar → Prop}

/-- The scalars of a record at any depth, in order. -/
def scalars : Record → List (String × Scalar)
  | engine e => e.scalars
  | car c => c.scalars
  | showcase s => s.scalars
  | report r => r.scalars

/-- Two records are of one kind, and related scalar by scalar. -/
def Fieldwise (R : Scalar → Scalar → Prop) (x y : Record) : Prop :=
  x.kind = y.kind ∧ Related R x.scalars y.scalars

namespace Fieldwise

theorem symm (hR : ∀ a b, R a b → R b a) (h : Fieldwise R x y) : Fieldwise R y x :=
  ⟨h.1.symm, .flip (h.2.imp fun (a b : String × Scalar) => hR a.2 b.2)⟩

theorem trans (hR : ∀ a b c, R a b → R b c → R a c) (hxy : Fieldwise R x y)
    (hyz : Fieldwise R y z) : Fieldwise R x z := by
  refine ⟨hxy.1.trans hyz.1, ?_⟩
  have hys := hxy.2
  have hzs := hyz.2
  generalize x.scalars = xs at hys ⊢
  generalize y.scalars = ys at hys hzs
  generalize z.scalars = zs at hzs ⊢
  induction hys generalizing zs with
  | nil => exact hzs
  | cons hab _ ih =>
      cases hzs with
      | cons hbc hrest => exact .cons (hR _ _ _ hab hbc) (ih _ hrest)

theorem self_iff : Fieldwise R x x ↔ ∀ a ∈ x.scalars, R a.2 a.2 :=
  (and_iff_right rfl).trans List.forall₂_same

end Fieldwise

end Record

/-! ### Sameness -/

theorem Engine.eq_of_related {e e' : Engine} (h : Related (· = ·) e.scalars e'.scalars) :
    e = e' := by
  obtain ⟨horsepower, torque⟩ := e
  obtain ⟨hhorsepower, htorque⟩ := related_scalars.1 h
  cases hhorsepower
  cases htorque
  rfl

theorem Car.eq_of_related {c c' : Car} (h : Related (· = ·) c.scalars c'.scalars) : c = c' := by
  obtain ⟨maxSpeed, weight, engine, color⟩ := c
  obtain ⟨hspeed, hweight, hengine, hcolor⟩ := related_scalars.1 h
  cases hspeed
  cases hweight
  cases Engine.eq_of_related hengine
  cases hcolor
  rfl

theorem Showcase.eq_of_related {s s' : Showcase} (h : Related (· = ·) s.scalars s'.scalars) :
    s = s' := by
  obtain ⟨engine, car⟩ := s
  obtain ⟨hengine, hcar⟩ := related_scalars.1 h
  cases Engine.eq_of_related hengine
  cases Car.eq_of_related hcar
  rfl

theorem Report.eq_of_related {r r' : Report} (h : Related (· = ·) r.scalars r'.scalars) :
    r = r' := by
  obtain ⟨result, horsepower, torque, color, maxSpeed, weight⟩ := r
  obtain ⟨hresult, hhorsepower, htorque, hcolor, hspeed, hweight⟩ := related_scalars.1 h
  cases hresult
  cases hhorsepower
  cases htorque
  cases hcolor
  cases hspeed
  cases hweight
  rfl

/-- **A record is its kind and its scalars,** as they are stored. -/
theorem Record.eq_iff_alike {x y : Record} : x = y ↔ Fieldwise Scalar.Alike x y := by
  constructor
  · rintro rfl
    exact Fieldwise.self_iff.2 fun a _ => Scalar.alike_iff.2 rfl
  · rintro ⟨hkind, halike⟩
    have h : Related (· = ·) x.scalars y.scalars := halike.imp fun _ _ => Scalar.alike_iff.1
    cases x <;> cases y <;> cases hkind
    · exact congrArg engine (Engine.eq_of_related h)
    · exact congrArg car (Car.eq_of_related h)
    · exact congrArg showcase (Showcase.eq_of_related h)
    · exact congrArg report (Report.eq_of_related h)

/-! ### Numeric equality -/

theorem Engine.equal_iff_related {e e' : Engine} :
    e.equal e' = true ↔ Related Scalar.Equal e.scalars e'.scalars := by
  simp [equal, related_scalars]

theorem Car.equal_iff_related {c c' : Car} :
    c.equal c' = true ↔ Related Scalar.Equal c.scalars c'.scalars := by
  simp [equal, related_scalars, Engine.equal_iff_related, and_assoc]

theorem Showcase.equal_iff_related {s s' : Showcase} :
    s.equal s' = true ↔ Related Scalar.Equal s.scalars s'.scalars := by
  simp [equal, related_scalars, Engine.equal_iff_related, Car.equal_iff_related]

theorem Report.equal_iff_related {r r' : Report} :
    r.equal r' = true ↔ Related Scalar.Equal r.scalars r'.scalars := by
  simp [equal, related_scalars, and_assoc]

namespace Record

variable {x y z : Record}

/-- **Numeric equality is decided field by field.**  It compares records of one kind, and they are
equal if all their scalars are. -/
theorem equal?_eq_some_iff {answer : Bool} : x.equal? y = some answer ↔
    x.kind = y.kind ∧ (answer = true ↔ Related Scalar.Equal x.scalars y.scalars) := by
  have hanswer : ∀ {b : Bool} {p : Prop}, (b = true ↔ p) →
      (some b = some answer ↔ (answer = true ↔ p)) := by
    intro b p hb
    rw [← hb, Option.some.injEq, Bool.eq_iff_iff]
    exact Iff.comm
  cases x with
  | engine e =>
      cases y with
      | engine e' => exact (hanswer Engine.equal_iff_related).trans (and_iff_right rfl).symm
      | car | showcase | report => simp [equal?, kind]
  | car c =>
      cases y with
      | car c' => exact (hanswer Car.equal_iff_related).trans (and_iff_right rfl).symm
      | engine | showcase | report => simp [equal?, kind]
  | showcase s =>
      cases y with
      | showcase s' => exact (hanswer Showcase.equal_iff_related).trans (and_iff_right rfl).symm
      | engine | car | report => simp [equal?, kind]
  | report r =>
      cases y with
      | report r' => exact (hanswer Report.equal_iff_related).trans (and_iff_right rfl).symm
      | engine | car | showcase => simp [equal?, kind]

theorem equal?_eq_some_true_iff : x.equal? y = some true ↔ Fieldwise Scalar.Equal x y := by
  rw [equal?_eq_some_iff]
  exact and_congr_right fun _ => ⟨fun h => h.1 rfl, fun h => iff_of_true rfl h⟩

theorem isSome_equal?_iff : (x.equal? y).isSome = true ↔ x.kind = y.kind := by
  simp only [Option.isSome_iff_exists, equal?_eq_some_iff, exists_and_left, and_iff_left_iff_imp]
  intro
  by_cases h : Related Scalar.Equal x.scalars y.scalars
  · exact ⟨true, iff_of_true rfl h⟩
  · exact ⟨false, iff_of_false Bool.false_ne_true h⟩

theorem equal?_comm (x y : Record) : x.equal? y = y.equal? x := by
  have hflip : ∀ {x y : Record}, Fieldwise Scalar.Equal x y → Fieldwise Scalar.Equal y x :=
    fun h => h.symm fun _ _ => Scalar.Equal.symm
  refine Option.ext fun answer => ?_
  rw [equal?_eq_some_iff, equal?_eq_some_iff, @eq_comm _ x.kind]
  refine and_congr_right fun hkind => iff_congr Iff.rfl ?_
  exact ⟨fun h => (hflip ⟨hkind.symm, h⟩).2, fun h => (hflip ⟨hkind, h⟩).2⟩

theorem length_scalars_congr (h : x.kind = y.kind) : x.scalars.length = y.scalars.length := by
  cases x <;> cases y <;> first | rfl | cases h

theorem differ?_eq_some_iff {answer : Bool} :
    x.differ? y = some answer ↔ x.equal? y = some !answer := by
  simp [differ?, Option.map_eq_some_iff, Bool.not_eq_eq_eq_not]

/-- Records of one kind differ exactly if two scalars at the same place do. -/
theorem differ?_eq_some_true_iff : x.differ? y = some true ↔
    x.kind = y.kind ∧ ∃ pair ∈ x.scalars.zip y.scalars, ¬pair.1.2.Equal pair.2.2 := by
  rw [differ?_eq_some_iff, equal?_eq_some_iff]
  refine and_congr_right fun hkind => ?_
  rw [Related, List.forall₂_iff_zip, and_iff_right (length_scalars_congr hkind)]
  simp

/-- A record equals itself exactly if none of its numbers is stored as a NaN. -/
theorem equal?_self_iff : x.equal? x = some true ↔
    ∀ label (bits : BitVec 32), (label, Scalar.float (.ofBits bits)) ∈ x.scalars →
      ¬Binary.IsNaNPattern (f := .single) bits := by
  simp only [equal?_eq_some_true_iff, Fieldwise.self_iff, Scalar.equal_self_iff,
    ← Binary.ofBits_eq_nan_iff]
  constructor
  · intro h label bits hmem hnan
    exact h _ hmem (congrArg Scalar.float hnan)
  · rintro h ⟨label, a⟩ hmem rfl
    have hbits : Binary.ofBits (Binary.nan : Single).toBits = .nan :=
      Binary.ofBits_toBits (by decide) _
    exact h label (Binary.nan : Single).toBits (by rwa [hbits]) hbits

/-- **Numeric equality of records is a partial equivalence.**  It compares records of one kind, and
equals scalar by scalar; it is symmetric and transitive; to differ is not to be equal, which is to
differ in some scalar; and a record equals itself exactly if none of its numbers, at any depth, is
stored as a NaN. -/
theorem equality_partial_equivalence (x y z : Record) :
    ((x.equal? y).isSome = true ↔ x.kind = y.kind) ∧
      (x.equal? y = some true ↔ Fieldwise Scalar.Equal x y) ∧
      x.equal? y = y.equal? x ∧
      (x.equal? y = some true → y.equal? z = some true → x.equal? z = some true) ∧
      (∀ answer, x.differ? y = some answer ↔ x.equal? y = some !answer) ∧
      (x.differ? y = some true ↔
        x.kind = y.kind ∧ ∃ pair ∈ x.scalars.zip y.scalars, ¬pair.1.2.Equal pair.2.2) ∧
      (x.equal? x = some true ↔
        ∀ label (bits : BitVec 32), (label, Scalar.float (.ofBits bits)) ∈ x.scalars →
          ¬Binary.IsNaNPattern (f := .single) bits) := by
  refine ⟨isSome_equal?_iff, equal?_eq_some_true_iff, equal?_comm x y, fun hxy hyz => ?_,
    fun answer => differ?_eq_some_iff, differ?_eq_some_true_iff, equal?_self_iff⟩
  rw [equal?_eq_some_true_iff] at *
  exact hxy.trans (fun _ _ _ => Scalar.Equal.trans) hyz

end Record

end Paddock
