import Paddock.Proofs.Log.Decision
import Paddock.Proofs.Supercar.Exit

/-!
# Supercar — when the log line is shown

A run with an open output raises one event.  Its level is `debug`, so a setting shows it if the
entry with the longest target under which it was raised is for `debug` or `trace`.  Neither the
order of the entries nor the letter case of their levels nor entries about other targets matter, and
one malformed directive hides it.
-/

namespace Paddock

/-- What shows the events of level `debug`. -/
theorem Verbosity.shows_debug_iff {v : Verbosity} :
    v.shows .debug = true ↔ v = .upTo .debug ∨ v = .upTo .trace := by
  cases v with
  | off => decide
  | upTo level => cases level <;> decide

namespace Supercar

open Entry

variable (arguments : List String)

/-- The target of the one event of a run. -/
def logTarget : String := "race_models::models::vehicle::core::showcase"

/-- Two settings alike about the one event of a run make no difference. -/
theorem run_pipe_congr {setting setting' : Option String}
    (h : (Filter.ofSetting setting).enables Showcase.reference.report.delivered =
      (Filter.ofSetting setting').enables Showcase.reference.report.delivered) :
    run setting arguments .pipe = run setting' arguments .pipe := by
  rw [run_pipe, run_pipe, h]

theorem logLine_mem_stderr_iff {setting : Option String} :
    logLine ∈ (run setting arguments .pipe).stderr ↔
      (Filter.ofSetting setting).enables Showcase.reference.report.delivered = true := by
  rw [run_pipe]
  dsimp only
  split_ifs with h <;> simp [h]

/-! ### Settings of entries -/

variable {entries entries' front back : List Entry} {e : Entry}

theorem enables_delivered (hvalid : ∀ e ∈ entries, e.Valid) :
    (Filter.ofSetting (some (setting entries))).enables Showcase.reference.report.delivered =
      (filter entries).enables Showcase.reference.report.delivered :=
  enables_setting hvalid (show Level.error.rank < Level.debug.rank by decide)

theorem logLine_mem_stderr_setting_iff (hvalid : ∀ e ∈ entries, e.Valid)
    (hdistinct : (entries.map name).Nodup) :
    logLine ∈ (run (some (setting entries)) arguments .pipe).stderr ↔
      ∃ e, HasLongestPrefix entries logTarget e ∧
        (e.verbosity? = some (.upTo .debug) ∨ e.verbosity? = some (.upTo .trace)) := by
  rw [logLine_mem_stderr_iff, enables_delivered hvalid, enables_filter_iff hvalid hdistinct]
  refine exists_congr fun e => and_congr_right fun _ => ?_
  constructor
  · rintro ⟨v, hv, hshows⟩
    rcases Verbosity.shows_debug_iff.1 hshows with rfl | rfl
    · exact .inl hv
    · exact .inr hv
  · rintro (hv | hv)
    · exact ⟨_, hv, Verbosity.shows_debug_iff.2 (.inl rfl)⟩
    · exact ⟨_, hv, Verbosity.shows_debug_iff.2 (.inr rfl)⟩

theorem run_setting_perm (hvalid : ∀ e ∈ entries, e.Valid) (hdistinct : (entries.map name).Nodup)
    (h : entries.Perm entries') :
    run (some (setting entries')) arguments .pipe =
      run (some (setting entries)) arguments .pipe := by
  have hvalid' : ∀ e ∈ entries', e.Valid := fun e he => hvalid e (h.mem_iff.2 he)
  refine run_pipe_congr arguments ?_
  rw [enables_delivered hvalid, enables_delivered hvalid', enables_filter_perm hvalid hdistinct h]

theorem run_setting_lowerLevel (hvalid : ∀ e ∈ entries, e.Valid)
    (h : entries'.map lowerLevel = entries.map lowerLevel) :
    run (some (setting entries')) arguments .pipe =
      run (some (setting entries)) arguments .pipe := by
  have hvalid' : ∀ e ∈ entries', e.Valid := by
    intro e' he'
    have hmem : e'.lowerLevel ∈ entries.map lowerLevel := h ▸ List.mem_map_of_mem he'
    obtain ⟨e, he, heq⟩ := List.mem_map.1 hmem
    exact (valid_lowerLevel_iff e').1 (heq ▸ (valid_lowerLevel_iff e).2 (hvalid e he))
  refine run_pipe_congr arguments ?_
  rw [enables_delivered hvalid, enables_delivered hvalid', ← filter_lowerLevel entries', h,
    filter_lowerLevel]

theorem run_setting_insert (hvalid : ∀ e ∈ front ++ back, e.Valid) (he : e.Valid)
    (h : ¬e.name.toList <+: logTarget.toList) :
    run (some (setting (front ++ e :: back))) arguments .pipe =
      run (some (setting (front ++ back))) arguments .pipe := by
  have hvalid' : ∀ e' ∈ front ++ e :: back, e'.Valid := by
    intro e' he'
    rcases List.mem_cons.1 (List.perm_middle.mem_iff.1 he') with rfl | he'
    · exact he
    · exact hvalid e' he'
  refine run_pipe_congr arguments ?_
  rw [enables_delivered hvalid, enables_delivered hvalid']
  exact enables_filter_insert h front back

/-- A setting falls back to warnings if one directive is malformed. -/
theorem ofSetting_insert_malformed (hvalid : ∀ e ∈ front ++ back, e.Valid) {bad : List Char}
    (hpiece : Filter.IsPiece bad) (h : Directive.ofText? bad = none) :
    Filter.ofSetting (some (Filter.written (front.map text ++ bad :: back.map text))) =
      Filter.everything .warn := by
  refine Filter.ofSetting_written_malformed (fun t ht => ?_)
    (List.mem_append_right _ List.mem_cons_self) h
  rcases List.mem_cons.1 (List.perm_middle.mem_iff.1 ht) with rfl | ht
  · exact hpiece
  · rw [← List.map_append] at ht
    exact isPiece_of_mem_map hvalid ht

/-- **The log line is shown if the longest prefix is for `debug` or `trace`.**  The entries of a
setting are the directives without spans and fields.  Of valid entries with distinct targets the one
whose target is the longest prefix of the target of the event decides whether the line is shown, so
that the order of the entries, the letter case of their levels and entries about other targets do
not matter.  One malformed directive anywhere among them hides the line, since the filter is then
the one for warnings. -/
theorem logLine_decided_by_longest_target (entries : List Entry) (hvalid : ∀ e ∈ entries, e.Valid)
    (hdistinct : (entries.map Entry.name).Nodup) :
    (∀ (text : List Char) (target : String) (v : Verbosity), ',' ∉ text →
      (Directive.ofText? text = some (.plain target v) ↔
        ∃ e : Entry, e.Valid ∧ e.text = text ∧ e.name = target ∧ e.verbosity? = some v)) ∧
    (logLine ∈ (run (some (setting entries)) arguments .pipe).stderr ↔
      ∃ e, HasLongestPrefix entries logTarget e ∧
        (e.verbosity? = some (.upTo .debug) ∨ e.verbosity? = some (.upTo .trace))) ∧
    (∀ entries', entries.Perm entries' →
      run (some (setting entries')) arguments .pipe =
        run (some (setting entries)) arguments .pipe) ∧
    (∀ entries', entries'.map lowerLevel = entries.map lowerLevel →
      run (some (setting entries')) arguments .pipe =
        run (some (setting entries)) arguments .pipe) ∧
    (∀ front back e, entries = front ++ back → e.Valid → ¬e.name.toList <+: logTarget.toList →
      run (some (setting (front ++ e :: back))) arguments .pipe =
        run (some (setting entries)) arguments .pipe) ∧
    (∀ front back bad, entries = front ++ back → Filter.IsPiece bad →
      Directive.ofText? bad = none →
      Filter.ofSetting (some (Filter.written (front.map text ++ bad :: back.map text))) =
          Filter.everything .warn ∧
        (run (some (Filter.written (front.map text ++ bad :: back.map text)))
          arguments .pipe).stderr = []) := by
  refine ⟨fun text target v hcomma => ofText?_eq_plain_iff hcomma,
    logLine_mem_stderr_setting_iff arguments hvalid hdistinct,
    fun entries' hperm => run_setting_perm arguments hvalid hdistinct hperm,
    fun entries' hlower => run_setting_lowerLevel arguments hvalid hlower, ?_, ?_⟩
  · rintro front back e rfl he hstarts
    exact run_setting_insert arguments hvalid he hstarts
  · rintro front back bad rfl hpiece hbad
    have hfilter := ofSetting_insert_malformed hvalid hpiece hbad
    refine ⟨hfilter, ?_⟩
    have hlevel : Level.warn.rank < Level.debug.rank := by decide
    rw [run_pipe, hfilter, Filter.enables_everything hlevel]
    rfl

/-- The entries of `off,race=3,race_models=DEBUG,elsewhere`. -/
def nestedEntries : List Entry :=
  [.level "off".toList, .bound "race".toList "3".toList, .bound "race_models".toList "DEBUG".toList,
    .target "elsewhere".toList]

/-- Of three entries whose targets are prefixes the longest decides, in both orders, and a malformed
directive between them hides the line. -/
theorem logLine_decided_by_longest_target_nested :
    ((∀ e ∈ nestedEntries, e.Valid) ∧ (nestedEntries.map Entry.name).Nodup) ∧
    logLine ∈ (run (some "off,race=3,race_models=DEBUG,elsewhere") [] .pipe).stderr ∧
    run (some "elsewhere,race_models=DEBUG,race=3,off") [] .pipe =
      run (some "off,race=3,race_models=DEBUG,elsewhere") [] .pipe ∧
    (run (some "off,race=3,!,race_models=DEBUG,elsewhere") [] .pipe).stderr = [] := by
  have hvalid : ∀ e ∈ nestedEntries, e.Valid := by decide +kernel
  have hdistinct : (nestedEntries.map Entry.name).Nodup := by decide +kernel
  obtain ⟨-, hshown, hperm, -, -, hbad⟩ :=
    logLine_decided_by_longest_target [] nestedEntries hvalid hdistinct
  refine ⟨⟨hvalid, hdistinct⟩, hshown.2 ?_, hperm nestedEntries.reverse ?_, ?_⟩
  · exact ⟨.bound "race_models".toList "DEBUG".toList, by decide +kernel, .inl (by decide +kernel)⟩
  · exact nestedEntries.reverse_perm.symm
  · exact (hbad (nestedEntries.take 2) (nestedEntries.drop 2) ['!'] rfl (by decide)
      (by decide +kernel)).2

end Supercar

end Paddock
