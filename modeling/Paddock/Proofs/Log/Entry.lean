import Paddock.Proofs.Log.Layout

/-!
# Log — the entries of a setting

An `Entry` is a directive without spans and fields as it is written: `LEVEL`, `TARGET` or
`TARGET=LEVEL`.  It has a target, which is empty for a level alone, and a verbosity, which is every
level for a target alone.  An entry is valid when its level is one, its target begins like a target,
and none of the signs that divide a setting or a directive stands in the target.

Valid entries are read as what they say (`Valid.directive_text`), and nothing else is read as a
directive without spans and fields (`exists_entry`).
-/

namespace Paddock

/-- A directive without spans and fields, as it is written. -/
inductive Entry where
  /-- `LEVEL`. -/
  | level (word : List Char)
  /-- `TARGET`. -/
  | target (name : List Char)
  /-- `TARGET=LEVEL`. -/
  | bound (name word : List Char)
deriving DecidableEq

namespace Entry

/-- The text of an entry. -/
def text : Entry → List Char
  | level word => word
  | target name => name
  | bound name word => name ++ '=' :: word

/-- The target of an entry; a level alone has the empty one. -/
def name : Entry → String
  | level _ => ""
  | target name => String.ofList name
  | bound name _ => String.ofList name

/-- The verbosity of an entry, if its level is one; a target alone is for every level. -/
def verbosity? : Entry → Option Verbosity
  | level word => Verbosity.ofText? word
  | target _ => some (.upTo .trace)
  | bound _ word => Directive.verbosityOf? word

/-- Whether the signs that divide settings and directives are not in a target. -/
def IsName (cs : List Char) : Prop := ∀ c ∈ cs, c ≠ ',' ∧ Layout.endsTarget c = false

/-- Whether an entry is well-formed.  A level alone has no plus sign, and a target alone is no level
and may have blanks at its ends. -/
def Valid : Entry → Prop
  | level word => (Verbosity.ofText? word).isSome = true ∧ word.head? ≠ some '+'
  | target name =>
    IsName name ∧ Layout.Begins (trim name) ∧ Verbosity.ofText? name = none
  | bound name word =>
    IsName name ∧ Layout.Begins name ∧ (Directive.verbosityOf? word).isSome = true

-- goes through the text, not through all characters
instance : DecidablePred IsName := fun cs => List.decidableBAll _ cs

instance : DecidablePred Valid
  | level _ => inferInstanceAs (Decidable (_ ∧ _))
  | target _ => inferInstanceAs (Decidable (_ ∧ _ ∧ _))
  | bound _ _ => inferInstanceAs (Decidable (_ ∧ _ ∧ _))

variable {e : Entry}

/-- All characters of a word for a level can begin a target, except for a plus sign. -/
theorem startsTarget_of_mem {word : List Char} {v : Verbosity}
    (h : Verbosity.ofText? word = some v) {c : Char} (hc : c ∈ word) :
    c = '+' ∨ Layout.startsTarget c = true := by
  rcases Verbosity.mem_of_ofText? h hc with hplus | hdigit | hletter
  · exact .inl hplus
  · exact .inr (Layout.startsTarget_of_isDigit hdigit)
  · exact .inr (Layout.startsTarget_of_isLetter hletter)

theorem isName_of_ofText? {word : List Char} {v : Verbosity}
    (h : Verbosity.ofText? word = some v) : IsName word := by
  intro c hc
  rcases startsTarget_of_mem h hc with rfl | hstarts
  · decide
  · refine ⟨?_, Layout.endsTarget_of_startsTarget hstarts⟩
    rintro rfl
    cases hstarts

theorem begins_of_ofText? {word : List Char} {v : Verbosity} (h : Verbosity.ofText? word = some v)
    (hplus : word.head? ≠ some '+') : Layout.Begins word := by
  obtain ⟨c, rest, rfl⟩ := List.exists_cons_of_ne_nil (Verbosity.ne_nil_of_ofText? h)
  refine ⟨c, rest, rfl, (startsTarget_of_mem h List.mem_cons_self).resolve_left ?_⟩
  rintro rfl
  exact hplus rfl

/-- What stands after the equals sign has no signs. -/
theorem isName_of_verbosityOf? {word : List Char} {v : Verbosity}
    (h : Directive.verbosityOf? word = some v) : IsName word := by
  rw [Directive.verbosityOf?] at h
  split_ifs at h with hempty
  · rw [List.isEmpty_iff.1 hempty]
    intro c hc
    cases hc
  · exact isName_of_ofText? h

/-- A valid entry stands between commas: it is no empty text and holds no comma itself. -/
theorem Valid.text_ne_nil (h : e.Valid) : e.text ≠ [] := by
  cases e with
  | level word =>
      obtain ⟨v, hv⟩ := Option.isSome_iff_exists.1 h.1
      exact Verbosity.ne_nil_of_ofText? hv
  | target name =>
      rintro rfl
      obtain ⟨-, ⟨c, rest, htrim, -⟩, -⟩ := h
      cases htrim
  | bound name word => exact List.append_ne_nil_of_right_ne_nil _ (List.cons_ne_nil _ _)

theorem Valid.comma_notMem_text (h : e.Valid) : ',' ∉ e.text := by
  intro hmem
  cases e with
  | level word =>
      obtain ⟨v, hv⟩ := Option.isSome_iff_exists.1 h.1
      exact (isName_of_ofText? hv ',' hmem).1 rfl
  | target name => exact (h.1 ',' hmem).1 rfl
  | bound name word =>
      obtain ⟨v, hv⟩ := Option.isSome_iff_exists.1 h.2.2
      rcases List.mem_append.1 hmem with hname | hword
      · exact (h.1 ',' hname).1 rfl
      · rcases List.mem_cons.1 hword with hequals | hword
        · exact absurd hequals (by decide)
        · exact (isName_of_verbosityOf? hv ',' hword).1 rfl

/-! ### Letter case -/

/-- An entry with its level in small letters. -/
def lowerLevel : Entry → Entry
  | level word => level (word.map Char.toLower)
  | target name => target name
  | bound name word => bound name (word.map Char.toLower)

@[simp] theorem name_lowerLevel (e : Entry) : e.lowerLevel.name = e.name := by
  cases e <;> rfl

@[simp] theorem verbosity?_lowerLevel (e : Entry) : e.lowerLevel.verbosity? = e.verbosity? := by
  cases e with
  | level word => exact Verbosity.ofText?_map_toLower word
  | target name => rfl
  | bound name word =>
      rw [lowerLevel, verbosity?, verbosity?, Directive.verbosityOf?, Directive.verbosityOf?,
        List.isEmpty_map, Verbosity.ofText?_map_toLower]

/-- The letter case of the level does not make an entry valid or invalid. -/
theorem valid_lowerLevel_iff (e : Entry) : e.lowerLevel.Valid ↔ e.Valid := by
  have hv := verbosity?_lowerLevel e
  cases e with
  | level word =>
      rw [lowerLevel, Valid, Valid, Verbosity.ofText?_map_toLower, Ne, head?_map_toLower_eq_plus]
  | target name => exact Iff.rfl
  | bound name word =>
      rw [lowerLevel, verbosity?, verbosity?] at hv
      rw [lowerLevel, Valid, Valid, hv]

/-! ### Reading entries -/

/-- **A valid entry is read as the directive it writes.** -/
theorem Valid.directive_text (h : e.Valid) :
    ∃ v, e.verbosity? = some v ∧ Directive.ofText? e.text = some (.plain e.name v) := by
  cases e with
  | level word =>
      obtain ⟨hsome, hplus⟩ := h
      obtain ⟨v, hv⟩ := Option.isSome_iff_exists.1 hsome
      refine ⟨v, hv, ?_⟩
      rw [text, Directive.ofText?_word (begins_of_ofText? hv hplus).trim
        fun c hc => (isName_of_ofText? hv c hc).2, Directive.ofWord, hv]
      rfl
  | target name =>
      obtain ⟨hname, hbegins, hnone⟩ := h
      refine ⟨_, rfl, ?_⟩
      rw [text, Directive.ofText?_word hbegins fun c hc => (hname c hc).2, Directive.ofWord, hnone]
      rfl
  | bound name word =>
      obtain ⟨hname, hbegins, hsome⟩ := h
      obtain ⟨v, hv⟩ := Option.isSome_iff_exists.1 hsome
      refine ⟨v, hv, ?_⟩
      obtain ⟨zs, hzs⟩ := exists_trim_append_cons name word hbegins.isBlank
        (show isBlank '=' = false by decide)
      have hlayout := Layout.ofText?_bound hbegins (fun c hc => (hname c hc).2) zs
      rw [← hzs] at hlayout
      rw [text, Directive.ofText?_of_bound hlayout, takeBytes?_append, dropBytes?_equals]
      simp only [Option.bind_some, hv, Option.map_some]
      rfl

/-- A level behind an equals sign is one only if no blanks stand in front of the target: they would
shift the cut to the left of the equals sign. -/
theorem eq_nil_of_verbosityOf? {front name rest word : List Char} {v : Verbosity}
    (hdrop : dropBytes? (byteCount name + 1) (front ++ (name ++ '=' :: rest)) = some word)
    (h : Directive.verbosityOf? word = some v) : front = [] := by
  by_contra hne
  have hpos := byteCount_pos hne
  obtain ⟨before, heq, hcount⟩ := exists_of_dropBytes? hdrop
  have hequals : '=' ∈ word := by
    rw [← List.append_assoc] at heq
    rcases List.append_eq_append_iff.1 heq with ⟨more, hbefore, hword⟩ | ⟨more, -, hword⟩
    · have hmore : more = [] := by
        by_contra hmore
        have := byteCount_pos hmore
        rw [hbefore, byteCount_append, byteCount_append] at hcount
        omega
      rw [hmore, List.nil_append] at hword
      rw [← hword]
      exact List.mem_cons_self
    · rw [hword]
      exact List.mem_append_right _ List.mem_cons_self
  cases (isName_of_verbosityOf? h '=' hequals).2

theorem exists_entry_of_bare {cs : List Char} (hcomma : ',' ∉ cs)
    (hbegins : Layout.Begins (trim cs)) (hends : ∀ c ∈ trim cs, Layout.endsTarget c = false) :
    ∃ e : Entry, e.Valid ∧ e.text = cs ∧
      ∃ v, e.verbosity? = some v ∧ Directive.ofWord cs = .plain e.name v := by
  obtain ⟨front, back, hfront, hback, hcs⟩ := exists_trim_eq cs
  have hname : IsName cs := by
    intro c hc
    refine ⟨fun hc' => hcomma (hc' ▸ hc), ?_⟩
    rw [hcs, List.mem_append, List.mem_append] at hc
    rcases hc with hc | hc | hc
    · exact Layout.endsTarget_of_isBlank (hfront c hc)
    · exact hends c hc
    · exact Layout.endsTarget_of_isBlank (hback c hc)
  have hplus : cs.head? ≠ some '+' := by
    intro hhead
    obtain ⟨c, rest, htrim, hc⟩ := hbegins
    rw [hcs, htrim] at hhead
    cases front with
    | nil =>
        obtain rfl : c = '+' := Option.some.inj hhead
        cases hc
    | cons d front =>
        obtain rfl : d = '+' := Option.some.inj hhead
        cases hfront '+' List.mem_cons_self
  cases hword : Verbosity.ofText? cs with
  | some v =>
      exact ⟨level cs, ⟨Option.isSome_iff_exists.2 ⟨v, hword⟩, hplus⟩, rfl, v, hword, by
        rw [Directive.ofWord, hword]; rfl⟩
  | none =>
      exact ⟨target cs, ⟨hname, hbegins, hword⟩, rfl, _, rfl, by
        rw [Directive.ofWord, hword]; rfl⟩

theorem exists_entry_of_bound {cs name rest : List Char} {d : Directive} (hcomma : ',' ∉ cs)
    (htrim : trim cs = name ++ '=' :: rest) (hbegins : Layout.Begins name)
    (hends : ∀ c ∈ name, Layout.endsTarget c = false) (h : Directive.ofText? cs = some d) :
    ∃ e : Entry, e.Valid ∧ e.text = cs ∧
      ∃ v, e.verbosity? = some v ∧ d = .plain e.name v := by
  have hlayout := Layout.ofText?_bound hbegins hends rest
  rw [← htrim] at hlayout
  obtain ⟨front, back, -, -, hcs⟩ := exists_trim_eq cs
  rw [htrim] at hcs
  rw [Directive.ofText?_of_bound hlayout, Option.bind_eq_some_iff] at h
  obtain ⟨name', hname', h⟩ := h
  obtain ⟨v, hv, rfl⟩ := Option.map_eq_some_iff.1 h
  obtain ⟨word, hdrop, hword⟩ := Option.bind_eq_some_iff.1 hv
  have hcs' : cs = front ++ (name ++ '=' :: (rest ++ back)) := by
    rw [hcs, List.append_assoc, List.cons_append]
  obtain rfl := eq_nil_of_verbosityOf? (hcs' ▸ hdrop) hword
  rw [List.nil_append] at hcs'
  subst hcs'
  rw [takeBytes?_append] at hname'
  rw [dropBytes?_equals] at hdrop
  obtain rfl := Option.some.inj hname'
  obtain rfl := Option.some.inj hdrop
  refine ⟨bound name (rest ++ back), ⟨fun c hc => ⟨?_, hends c hc⟩, hbegins,
    Option.isSome_iff_exists.2 ⟨v, hword⟩⟩, rfl, v, hword, rfl⟩
  rintro rfl
  exact hcomma (List.mem_append_left _ hc)

/-- **A directive without spans and fields is read from a valid entry.** -/
theorem exists_entry {cs : List Char} {target : String} {v : Verbosity} (hcomma : ',' ∉ cs)
    (h : Directive.ofText? cs = some (.plain target v)) :
    ∃ e : Entry, e.Valid ∧ e.text = cs ∧ e.name = target ∧ e.verbosity? = some v := by
  have hsome : ∃ layout, Layout.ofText? (trim cs) = some layout := by
    rw [Directive.ofText?] at h
    obtain ⟨layout, hlayout, -⟩ := Option.bind_eq_some_iff.1 h
    exact ⟨layout, hlayout⟩
  obtain ⟨layout, hlayout⟩ := hsome
  have hentry : ∃ e : Entry, e.Valid ∧ e.text = cs ∧
      ∃ v', e.verbosity? = some v' ∧ Directive.plain target v = .plain e.name v' := by
    rcases Layout.ofText?_cases hlayout with
      hrich | ⟨rfl, hbegins, hends⟩ | ⟨name, rest, htrim, hbegins, hends, -⟩
    · rcases Directive.isSome_of_isRich hlayout hrich h with hspan | hfield
      · cases hspan
      · cases hfield
    · rw [Directive.ofText?_of_bare hlayout] at h
      rw [← Option.some.inj h]
      exact exists_entry_of_bare hcomma hbegins hends
    · exact exists_entry_of_bound hcomma htrim hbegins hends h
  obtain ⟨e, hvalid, htext, v', hv', hplain⟩ := hentry
  obtain ⟨hname, -, -, hv⟩ := Directive.mk.inj hplain
  exact ⟨e, hvalid, htext, hname.symm, hv ▸ hv'⟩

/-- **What is read as a directive without spans and fields are the valid entries.** -/
theorem ofText?_eq_plain_iff {cs : List Char} {target : String} {v : Verbosity}
    (hcomma : ',' ∉ cs) :
    Directive.ofText? cs = some (.plain target v) ↔
      ∃ e : Entry, e.Valid ∧ e.text = cs ∧ e.name = target ∧ e.verbosity? = some v := by
  refine ⟨exists_entry hcomma, ?_⟩
  rintro ⟨e, hvalid, rfl, rfl, hv⟩
  obtain ⟨v', hv', htext⟩ := hvalid.directive_text
  rw [htext, Option.some.inj (hv.symm.trans hv')]

end Entry

end Paddock
