import Mathlib.Data.List.Nodup
import Paddock.Log.Filter
import Paddock.Proofs.Log.Entry

/-!
# Log — which directive decides

A filter goes through the directives that apply to an event and keeps the more specific one at every
step.  What it has kept is one of those it has seen, and none of them has a longer target
(`IsLongest.moreSpecific`), so the same holds of the one that decides (`isLongest_deciding?`).

A setting of valid entries lets through what the filter of their directives does
(`enables_setting`).  Two prefixes of one text that are equally long are equal, so among entries
with distinct targets only one has the longest prefix, wherever it stands (`enables_filter_iff`).
-/

namespace Paddock

/-! ### The longest target -/

namespace Filter

variable {ds : List Directive} {best : Option Directive} {event : Event}

/-- What is kept of some directives: nothing of none, and else one with the longest target. -/
def IsLongest (ds : List Directive) : Option Directive → Prop
  | none => ds = []
  | some d => d ∈ ds ∧ ∀ d' ∈ ds, d'.target.length ≤ d.target.length

/-- A directive gives way to one that is as specific by its target or more so, and to no other. -/
theorem length_le_of_yieldsTo {d later : Directive} (h : d.yieldsTo later = true) :
    d.target.length ≤ later.target.length := by
  rw [Directive.yieldsTo] at h
  split_ifs at h with heq
  · exact heq.le
  · exact (of_decide_eq_true h).le

theorem length_le_of_not_yieldsTo {d later : Directive} (h : ¬d.yieldsTo later = true) :
    later.target.length ≤ d.target.length := by
  rw [Directive.yieldsTo] at h
  split_ifs at h with heq
  · exact heq.ge
  · exact Nat.le_of_not_lt fun hlt => h (decide_eq_true hlt)

/-- One step keeps a longest target. -/
theorem IsLongest.moreSpecific (h : IsLongest ds best) (d : Directive) :
    IsLongest (ds ++ [d]) (moreSpecific best d) := by
  cases best with
  | none =>
      obtain rfl : ds = [] := h
      refine ⟨List.mem_singleton_self d, fun d' hd' => ?_⟩
      rw [List.mem_singleton.1 hd']
  | some b =>
      obtain ⟨hmem, hmax⟩ := h
      rw [Filter.moreSpecific]
      split_ifs with hyields
      · have hle := length_le_of_yieldsTo hyields
        refine ⟨List.mem_append_right _ (List.mem_singleton_self d), fun d' hd' => ?_⟩
        rcases List.mem_append.1 hd' with hd' | hd'
        · exact (hmax d' hd').trans hle
        · rw [List.mem_singleton.1 hd']
      · have hle := length_le_of_not_yieldsTo hyields
        refine ⟨List.mem_append_left _ hmem, fun d' hd' => ?_⟩
        rcases List.mem_append.1 hd' with hd' | hd'
        · exact hmax d' hd'
        · rw [List.mem_singleton.1 hd']
          exact hle

/-- All steps together keep a longest target. -/
theorem IsLongest.foldl (h : IsLongest ds best) (rest : List Directive) :
    IsLongest (ds ++ rest) (rest.foldl Filter.moreSpecific best) := by
  induction rest generalizing ds best with
  | nil => rwa [List.append_nil]
  | cons d rest ih =>
      have hstep := ih (h.moreSpecific d)
      rwa [List.append_assoc, List.singleton_append] at hstep

/-- **The directive that decides is one of those that apply, and none of them has a longer
target.** -/
theorem isLongest_deciding? (filter : Filter) (event : Event) :
    IsLongest (filter.filter (·.applies event)) (filter.deciding? event) := by
  have hnone : IsLongest [] none := rfl
  exact hnone.foldl _

theorem enables_iff (filter : Filter) (event : Event) :
    filter.enables event = true ↔
      ∃ d, filter.deciding? event = some d ∧ d.verbosity.shows event.level = true := by
  rw [enables]
  cases filter.deciding? event with
  | none => simp
  | some d => simp

/-- A directive that does not apply makes no difference. -/
theorem enables_insert {d : Directive} (h : ¬d.applies event = true) (front back : Filter) :
    enables (front ++ d :: back) event = enables (front ++ back) event := by
  have hskip : (d :: back).filter (·.applies event) = back.filter (·.applies event) :=
    List.filter_cons_of_neg h
  rw [enables, enables, deciding?, deciding?, List.filter_append, List.filter_append, hskip]

/-- A filter for all events up to a level drops the events beyond it. -/
theorem enables_everything {level : Level} (h : level.rank < event.level.rank) :
    (everything level).enables event = false := by
  have hdecides : (everything level).deciding? event = some (.plain "" (.upTo level)) := rfl
  rw [enables, hdecides]
  exact decide_eq_false (Nat.not_le_of_lt h)

/-! ### Settings -/

/-- Whether a text can stand between commas. -/
def IsPiece (text : List Char) : Prop := text ≠ [] ∧ ',' ∉ text

instance : DecidablePred IsPiece := fun _ => inferInstanceAs (Decidable (_ ∧ _))

/-- The setting of some texts. -/
def written (texts : List (List Char)) : String := String.ofList (joinPieces ',' texts)

/-- A setting is read text by text. -/
theorem ofText?_written {texts : List (List Char)} (h : ∀ text ∈ texts, IsPiece text) :
    ofText? (written texts) = (texts.mapM Directive.ofText?).bind fun directives =>
      if directives.isEmpty then some (everything .error) else some directives := by
  have hpieces : (pieces ',' (written texts).toList).filter (!·.isEmpty) = texts := by
    rw [written, String.toList_ofList]
    cases texts with
    | nil => rfl
    | cons text rest =>
        rw [pieces_joinPieces (List.cons_ne_nil _ _) fun t ht => (h t ht).2, List.filter_eq_self]
        intro t ht
        rw [List.isEmpty_eq_false_iff.2 (h t ht).1]
        rfl
  rw [ofText?, hpieces]
  rfl

/-- **One malformed directive spoils a setting.** -/
theorem ofSetting_written_malformed {texts : List (List Char)} {text : List Char}
    (hpieces : ∀ t ∈ texts, IsPiece t) (hmem : text ∈ texts) (h : Directive.ofText? text = none) :
    ofSetting (some (written texts)) = everything .warn := by
  have hmapM : texts.mapM Directive.ofText? = none := by
    obtain ⟨front, back, rfl⟩ := List.append_of_mem hmem
    rw [List.mapM_append, List.mapM_cons, h]
    cases front.mapM Directive.ofText? with
    | none => rfl
    | some ds => rfl
  rw [ofSetting, Option.bind_some, ofText?_written hpieces, hmapM]
  rfl

end Filter

namespace Entry

variable {entries : List Entry} {event : Event} {e : Entry}

/-- The directive of an entry, if its level is one. -/
def directive? (e : Entry) : Option Directive := e.verbosity?.map (.plain e.name)

/-- The filter of some entries. -/
def filter (entries : List Entry) : Filter := entries.filterMap directive?

theorem mem_filter_iff {d : Directive} :
    d ∈ filter entries ↔ ∃ e ∈ entries, ∃ v, e.verbosity? = some v ∧ d = .plain e.name v := by
  rw [filter, List.mem_filterMap]
  refine exists_congr fun e => and_congr_right fun _ => ?_
  rw [directive?, Option.map_eq_some_iff]
  exact exists_congr fun v => and_congr_right fun _ => eq_comm

theorem mapM_text (hvalid : ∀ e ∈ entries, e.Valid) :
    (entries.map text).mapM Directive.ofText? = some (filter entries) := by
  induction entries with
  | nil => rfl
  | cons e entries ih =>
      obtain ⟨v, hv, htext⟩ := (hvalid e List.mem_cons_self).directive_text
      have hhead : filter (e :: entries) = .plain e.name v :: filter entries :=
        List.filterMap_cons_some (by rw [directive?, hv, Option.map_some])
      rw [List.map_cons, List.mapM_cons, htext, hhead,
        ih fun e' he' => hvalid e' (List.mem_cons_of_mem _ he')]
      rfl

theorem isPiece_of_mem_map (hvalid : ∀ e ∈ entries, e.Valid) {t : List Char}
    (ht : t ∈ entries.map text) : Filter.IsPiece t := by
  obtain ⟨e, he, rfl⟩ := List.mem_map.1 ht
  exact ⟨(hvalid e he).text_ne_nil, (hvalid e he).comma_notMem_text⟩

/-- The setting of some entries. -/
def setting (entries : List Entry) : String := Filter.written (entries.map text)

/-- **A setting of valid entries lets through what their filter does.**  Without entries the setting
lets errors through and the filter nothing, which is the same for all other events. -/
theorem enables_setting (hvalid : ∀ e ∈ entries, e.Valid)
    (hlevel : Level.error.rank < event.level.rank) :
    (Filter.ofSetting (some (setting entries))).enables event = (filter entries).enables event := by
  rw [Filter.ofSetting, Option.bind_some, setting,
    Filter.ofText?_written fun t => isPiece_of_mem_map hvalid, mapM_text hvalid, Option.bind_some]
  split_ifs with hempty
  · rw [Option.getD_some, Filter.enables_everything hlevel, List.isEmpty_iff.1 hempty]
    rfl
  · rw [Option.getD_some]

/-! ### The entry that decides -/

/-- Whether an entry has the longest target of those entries whose target a text begins with. -/
def HasLongestPrefix (entries : List Entry) (text : String) (e : Entry) : Prop :=
  e ∈ entries ∧ e.name.toList <+: text.toList ∧
    ∀ e' ∈ entries, e'.name.toList <+: text.toList → e'.name.length ≤ e.name.length

instance (entries : List Entry) (text : String) : DecidablePred (HasLongestPrefix entries text) :=
  fun _ => inferInstanceAs (Decidable (_ ∧ _ ∧ ∀ e' ∈ entries, _ → _))

theorem applies_plain_iff {name : String} {v : Verbosity} :
    (Directive.plain name v).applies event = true ↔ name.toList <+: event.target.toList := by
  simp [Directive.applies, Directive.plain]

/-- Two prefixes of one text are equal if none is longer than the other. -/
theorem eq_of_isPrefix {name name' text : String} (h : name.toList <+: text.toList)
    (h' : name'.toList <+: text.toList) (hlength : name.length = name'.length) : name = name' := by
  rw [← String.length_toList, ← String.length_toList] at hlength
  have hstarts := List.prefix_of_prefix_length_le h h' hlength.le
  exact String.toList_inj.1 (hstarts.eq_of_length hlength)

/-- Of entries with distinct targets only one has the longest prefix. -/
theorem HasLongestPrefix.unique {e' : Entry} {text : String} (hdistinct : (entries.map name).Nodup)
    (h : HasLongestPrefix entries text e) (h' : HasLongestPrefix entries text e') : e = e' := by
  obtain ⟨he, hstarts, hmax⟩ := h
  obtain ⟨he', hstarts', hmax'⟩ := h'
  have hlength := Nat.le_antisymm (hmax' e he hstarts) (hmax e' he' hstarts')
  exact List.inj_on_of_nodup_map hdistinct he he' (eq_of_isPrefix hstarts hstarts' hlength)

theorem plain_mem_applying {v : Verbosity} (he : e ∈ entries)
    (hstarts : e.name.toList <+: event.target.toList) (hv : e.verbosity? = some v) :
    Directive.plain e.name v ∈ (filter entries).filter (·.applies event) :=
  List.mem_filter.2 ⟨mem_filter_iff.2 ⟨e, he, v, hv, rfl⟩, applies_plain_iff.2 hstarts⟩

/-- The directive that decides is that of an entry with the longest prefix. -/
theorem exists_of_deciding? (hvalid : ∀ e ∈ entries, e.Valid) {d : Directive}
    (h : (filter entries).deciding? event = some d) :
    ∃ e, HasLongestPrefix entries event.target e ∧
      ∃ v, e.verbosity? = some v ∧ d = .plain e.name v := by
  have hlongest := Filter.isLongest_deciding? (filter entries) event
  rw [h] at hlongest
  obtain ⟨hmem, hmax⟩ := hlongest
  obtain ⟨hmem, happlies⟩ := List.mem_filter.1 hmem
  obtain ⟨e, he, v, hv, rfl⟩ := mem_filter_iff.1 hmem
  refine ⟨e, ⟨he, applies_plain_iff.1 happlies, fun e' he' hstarts' => ?_⟩, v, hv, rfl⟩
  obtain ⟨v', hv', -⟩ := (hvalid e' he').directive_text
  exact hmax _ (plain_mem_applying he' hstarts' hv')

/-- Some directive decides if there is an entry with a prefix. -/
theorem deciding?_ne_none {v : Verbosity} (he : e ∈ entries)
    (hstarts : e.name.toList <+: event.target.toList) (hv : e.verbosity? = some v) :
    (filter entries).deciding? event ≠ none := by
  intro hnone
  have hlongest := Filter.isLongest_deciding? (filter entries) event
  rw [hnone] at hlongest
  exact List.ne_nil_of_mem (plain_mem_applying he hstarts hv) hlongest

/-- **Of entries with distinct targets the one with the longest prefix decides.** -/
theorem enables_filter_iff (hvalid : ∀ e ∈ entries, e.Valid)
    (hdistinct : (entries.map name).Nodup) :
    (filter entries).enables event = true ↔ ∃ e, HasLongestPrefix entries event.target e ∧
      ∃ v, e.verbosity? = some v ∧ v.shows event.level = true := by
  rw [Filter.enables_iff]
  constructor
  · rintro ⟨d, hd, hshows⟩
    obtain ⟨e, he, v, hv, rfl⟩ := exists_of_deciding? hvalid hd
    exact ⟨e, he, v, hv, hshows⟩
  · rintro ⟨e, he, v, hv, hshows⟩
    obtain ⟨d, hd⟩ := Option.ne_none_iff_exists'.1 (deciding?_ne_none he.1 he.2.1 hv)
    obtain ⟨e', he', v', hv', rfl⟩ := exists_of_deciding? hvalid hd
    obtain rfl := he.unique hdistinct he'
    obtain rfl := Option.some.inj (hv.symm.trans hv')
    exact ⟨_, hd, hshows⟩

theorem hasLongestPrefix_congr {entries' : List Entry} (h : ∀ e, e ∈ entries ↔ e ∈ entries')
    (text : String) (e : Entry) :
    HasLongestPrefix entries text e ↔ HasLongestPrefix entries' text e := by
  simp only [HasLongestPrefix, h]

/-- The order of entries does not count. -/
theorem enables_filter_perm {entries' : List Entry} (hvalid : ∀ e ∈ entries, e.Valid)
    (hdistinct : (entries.map name).Nodup) (h : entries.Perm entries') :
    (filter entries').enables event = (filter entries).enables event := by
  have hmem : ∀ e, e ∈ entries ↔ e ∈ entries' := fun e => h.mem_iff
  have hvalid' : ∀ e ∈ entries', e.Valid := fun e he => hvalid e ((hmem e).2 he)
  have hdistinct' : (entries'.map name).Nodup := (h.map name).nodup_iff.1 hdistinct
  rw [Bool.eq_iff_iff, enables_filter_iff hvalid hdistinct, enables_filter_iff hvalid' hdistinct']
  exact exists_congr fun e => and_congr_left fun _ => (hasLongestPrefix_congr hmem _ e).symm

/-- The letter case of levels does not count. -/
theorem filter_lowerLevel (entries : List Entry) :
    filter (entries.map lowerLevel) = filter entries := by
  rw [filter, filter, List.filterMap_map]
  refine List.filterMap_congr fun e _ => ?_
  rw [Function.comp, directive?, directive?, name_lowerLevel, verbosity?_lowerLevel]

/-- An entry whose target is no prefix does not count. -/
theorem enables_filter_insert (h : ¬e.name.toList <+: event.target.toList)
    (front back : List Entry) :
    (filter (front ++ e :: back)).enables event = (filter (front ++ back)).enables event := by
  rw [filter, filter, List.filterMap_append, List.filterMap_append, List.filterMap_cons]
  split
  · rfl
  · rename_i d hd
    obtain ⟨v, -, rfl⟩ := Option.map_eq_some_iff.1 hd
    exact Filter.enables_insert (mt applies_plain_iff.1 h) _ _

end Entry

end Paddock
