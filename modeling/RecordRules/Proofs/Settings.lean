import RecordRules.Proofs.Outcome
import RecordRules.Proofs.Rule.Making
import RecordRules.Script.Reading

/-!
# Settings that can be worked with

Settings are **usable** (`Settings.Usable`) if trees may have a level, if a cache that is enabled
has room for an entry, and if the name for combined rules is one that a rule can have.

Those that a script gives are usable, whatever is missing in its dictionary or is of another type
(`Settings.usable_of_settingsOf`): the first two are checked, and a blank name gives way to the
default. JSON text is not looked at in this way. Its settings are what its fields say, and they
are usable exactly if a script that says the same would get them (`Settings.usable_iff_of_ofJson`).
-/

namespace RecordRules

open Json (Value Numeral)

namespace Settings

variable {settings : Settings}

/-- **The settings can be worked with.** -/
structure Usable (settings : Settings) : Prop where
  /-- Trees may have a level. -/
  depth : 1 ≤ settings.maxDepth
  /-- A cache that is enabled has room for an entry. -/
  capacity : settings.cacheEnabled = true → 1 ≤ settings.cacheCapacity
  /-- There is a character in the name for combined rules that is no blank. -/
  named : ∃ c ∈ settings.combinedRuleName.toList, Text.isBlank c = false

/-- The name of usable settings passes its check. -/
theorem Usable.checkName_eq_ok (h : settings.Usable) :
    Rule.checkName settings.combinedRuleName = .ok () :=
  Rule.checkName_eq_ok_iff.mpr h.named

/-- **The defaults are usable.** -/
theorem usable_default : ({} : Settings).Usable where
  depth := by decide
  capacity _ := by decide
  named := ⟨'C', by decide, by decide⟩

/-! ## Settings of a script -/

/-- A name that is not blank is kept, and a blank one is none. -/
theorem nonBlank_nameOr {default : String} {name : Option String}
    (h : ∃ c ∈ default.toList, Text.isBlank c = false) :
    ∃ c ∈ (Script.nameOr default name).toList, Text.isBlank c = false := by
  unfold Script.nameOr
  split
  · exact h
  · next name =>
    split
    · exact h
    · next hblank => exact Rule.checkName_eq_ok_iff.mp (if_neg hblank)

/-- **The settings that a script gives are usable.** -/
theorem usable_of_settingsOf {entries : Script.Entries}
    (h : Script.settingsOf entries = .ok settings) : settings.Usable := by
  obtain ⟨name, -, h⟩ := Except.bind_eq_ok_iff.mp h
  obtain ⟨filter, -, h⟩ := Except.bind_eq_ok_iff.mp h
  split at h
  · cases h
  · next hdepth =>
    split at h
    · cases h
    · next hcapacity =>
      obtain rfl := Except.ok.inj h
      refine ⟨Nat.one_le_iff_ne_zero.mpr hdepth, fun henabled => ?_,
        nonBlank_nameOr usable_default.named⟩
      refine Nat.one_le_iff_ne_zero.mpr fun hzero => hcapacity ?_
      exact Bool.and_eq_true_iff.mpr ⟨decide_eq_true hzero, henabled⟩

/-! ## The same from a script -/

/-- **The dictionary that says what the settings are.** -/
def toEntries (settings : Settings) : Script.Entries :=
  [(some "cache_enabled", .truth settings.cacheEnabled),
    (some "cache_capacity", .integer settings.cacheCapacity),
    (some "combined_rule_name", .text settings.combinedRuleName),
    (some "require_non_empty_record", .truth settings.requireNonEmptyRecord),
    (some "max_depth", .integer settings.maxDepth),
    (some "log_filter", settings.logFilter.elim .nothing .text)]

/-- A count below 2⁶⁴ is a count in a script. -/
theorem countOf?_natCast {n : ℕ} (h : n < Numeral.wordCount) :
    Script.countOf? (.integer n) = some n := by
  have hfits : (decide (0 ≤ (n : ℤ)) && decide ((n : ℤ).toNat < Numeral.wordCount)) = true := by
    rw [Bool.and_eq_true_iff, decide_eq_true_iff, decide_eq_true_iff, Int.toNat_natCast]
    exact ⟨Int.natCast_nonneg n, h⟩
  rw [Script.countOf?, if_pos hfits, Int.toNat_natCast]

/-- **What a script gets for its dictionary**: the settings, with the default for a blank name,
unless a count is zero that must not be. -/
theorem settingsOf_toEntries (hcapacity : settings.cacheCapacity < Numeral.wordCount)
    (hdepth : settings.maxDepth < Numeral.wordCount) :
    Script.settingsOf settings.toEntries
      = if settings.maxDepth = 0 then .error (.invalidArgument .zeroDepth)
        else if settings.cacheCapacity = 0 && settings.cacheEnabled then
          .error (.invalidArgument .zeroCapacity)
        else .ok { settings with
          combinedRuleName := Script.nameOr ({} : Settings).combinedRuleName
            (some settings.combinedRuleName) } := by
  have hfilter : (Script.Value.dict settings.toEntries).textField "log_filter"
      = .ok settings.logFilter := by
    obtain ⟨_, _, _, _, _, filter⟩ := settings
    cases filter <;> rfl
  have hname : (Script.Value.dict settings.toEntries).textField "combined_rule_name"
      = .ok (some settings.combinedRuleName) := rfl
  have hc : (Script.Entries.get? "cache_capacity" settings.toEntries).bind Script.countOf?
      = some settings.cacheCapacity := countOf?_natCast hcapacity
  have hd : (Script.Entries.get? "max_depth" settings.toEntries).bind Script.countOf?
      = some settings.maxDepth := countOf?_natCast hdepth
  have he : (Script.Entries.get? "cache_enabled" settings.toEntries).bind Script.truthOf?
      = some settings.cacheEnabled := rfl
  have hr : ((Script.Entries.get? "require_non_empty_record" settings.toEntries).or
      (Script.Entries.get? "require_data" settings.toEntries)).bind Script.truthOf?
      = some settings.requireNonEmptyRecord := rfl
  unfold Script.settingsOf
  dsimp only
  rw [hname, hc, hd, he, hr, hfilter]
  rfl

/-- **Usable settings are those that a script gets** when it asks for them. -/
theorem usable_iff_settingsOf (hcapacity : settings.cacheCapacity < Numeral.wordCount)
    (hdepth : settings.maxDepth < Numeral.wordCount) :
    settings.Usable ↔ Script.settingsOf settings.toEntries = .ok settings := by
  refine ⟨fun h => ?_, usable_of_settingsOf⟩
  have hzero : ¬ settings.maxDepth = 0 := Nat.one_le_iff_ne_zero.mp h.depth
  have hroom : ¬ (decide (settings.cacheCapacity = 0) && settings.cacheEnabled) = true := by
    intro hfull
    obtain ⟨hnone, henabled⟩ := Bool.and_eq_true_iff.mp hfull
    exact Nat.one_le_iff_ne_zero.mp (h.capacity henabled) (of_decide_eq_true hnone)
  have hname : Script.nameOr ({} : Settings).combinedRuleName (some settings.combinedRuleName)
      = settings.combinedRuleName := by
    have hblank : ¬ Text.isBlankText settings.combinedRuleName = true := by
      intro hblank
      obtain ⟨c, hc, hvisible⟩ := h.named
      exact Bool.false_ne_true (hvisible.symm.trans (List.all_eq_true.mp hblank c hc))
    exact if_neg hblank
  rw [settingsOf_toEntries hcapacity hdepth, if_neg hzero, if_neg hroom, hname]

/-! ## Settings of JSON text -/

/-- A count of JSON text is below 2⁶⁴. -/
theorem lt_of_count? {v : Value} {n : ℕ} (h : count? v = some n) : n < Numeral.wordCount := by
  cases v with
  | number numeral =>
    rw [count?, Numeral.toCount?] at h
    split at h
    · cases h
    · dsimp only at h
      split at h
      · next hlt => exact Option.some.inj h ▸ hlt
      · cases h
  | _ => cases h

/-- So is a field that is a count, if its default is. -/
theorem lt_of_fieldOr? {default n : ℕ} {field : Option Value}
    (hdefault : default < Numeral.wordCount) (h : fieldOr? default count? field = some n) :
    n < Numeral.wordCount := by
  cases field with
  | none => exact Option.some.inj h ▸ hdefault
  | some v => exact lt_of_count? h

/-- **The counts of settings of JSON text** are below 2⁶⁴. -/
theorem counts_lt_of_ofJson {json : String} (h : ofJson json = .ok settings) :
    settings.cacheCapacity < Numeral.wordCount ∧ settings.maxDepth < Numeral.wordCount := by
  obtain ⟨v, -, hv⟩ := Option.bind_eq_some_iff.mp (Error.decoded_eq_ok_iff.mp h)
  obtain ⟨fields, -, hv⟩ := Option.bind_eq_some_iff.mp hv
  split at hv
  · obtain ⟨enabled, -, hv⟩ := Option.bind_eq_some_iff.mp hv
    obtain ⟨capacity, hcapacity, hv⟩ := Option.bind_eq_some_iff.mp hv
    obtain ⟨name, -, hv⟩ := Option.bind_eq_some_iff.mp hv
    obtain ⟨required, -, hv⟩ := Option.bind_eq_some_iff.mp hv
    obtain ⟨depth, hdepth, hv⟩ := Option.bind_eq_some_iff.mp hv
    obtain ⟨filter, -, hv⟩ := Option.bind_eq_some_iff.mp hv
    obtain rfl := Option.some.inj hv
    exact ⟨lt_of_fieldOr? (by decide) hcapacity, lt_of_fieldOr? (by decide) hdepth⟩
  · cases hv

/-- **Settings of JSON text are usable** exactly if a script could get them, too. -/
theorem usable_iff_of_ofJson {json : String} (h : ofJson json = .ok settings) :
    settings.Usable ↔ Script.settingsOf settings.toEntries = .ok settings :=
  usable_iff_settingsOf (counts_lt_of_ofJson h).1 (counts_lt_of_ofJson h).2

end Settings

end RecordRules
