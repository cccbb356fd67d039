import SnippetAudit.Settings.Text

/-!
Sound settings: those in which nothing is out of order. A text is accepted for settings if and only
if the settings in it are sound, and so are the defaults.
-/

namespace SnippetAudit

/-- Weights that do not rise from any severity to a milder one. -/
structure Weights.Sound (weights : Weights) : Prop where
  high : weights.high ≤ weights.critical
  medium : weights.medium ≤ weights.high
  low : weights.low ≤ weights.medium
  info : weights.info ≤ weights.low

/-- Thresholds that keep the two for decisions apart and that lines can stay below. -/
structure Thresholds.Sound (thresholds : Thresholds) : Prop where
  complexity : thresholds.complexityMedium < thresholds.complexityHigh
  share : 0.0 ≤ thresholds.documentationMinShare ∧ thresholds.documentationMinShare ≤ 100.0
  lineLength : 0 < thresholds.maxLineLength

structure Settings.Sound (settings : Settings) : Prop where
  thresholds : settings.thresholds.Sound
  weights : settings.weights.Sound
  inputBytes : 0 < settings.limits.maxInputBytes

namespace Settings

variable {settings : Settings} {thresholds : Thresholds} {weights : Weights} {limits : Limits}
  {text : String}

theorem descends_toList_iff : descends weights.toList = true ↔ weights.Sound := by
  simp only [Weights.toList, Severity.all, List.map_cons, List.map_nil, Weights.of, descends,
    Bool.and_eq_true, decide_eq_true_eq, and_true]
  exact ⟨fun ⟨high, medium, low, info⟩ => ⟨high, medium, low, info⟩,
    fun ⟨high, medium, low, info⟩ => ⟨high, medium, low, info⟩⟩

theorem problemOfWeights?_eq_none_iff : problemOfWeights? weights = none ↔ weights.Sound := by
  rw [problemOfWeights?, ← descends_toList_iff]
  split <;> simp_all

theorem problemOfThresholds?_eq_none_iff :
    problemOfThresholds? thresholds = none ↔ thresholds.Sound := by
  rw [problemOfThresholds?]
  split
  · rename_i tangled
    exact ⟨nofun, fun sound => absurd sound.complexity (Nat.not_lt.mpr tangled)⟩
  · rename_i apart
    split
    · rename_i outside
      refine ⟨nofun, fun sound => ?_⟩
      simp [sound.share] at outside
    · rename_i within
      simp only [Bool.not_eq_true', Bool.not_eq_false, Bool.and_eq_true, decide_eq_true_eq]
        at within
      split
      · rename_i none'
        exact ⟨nofun, fun sound => absurd none' (Nat.ne_of_gt sound.lineLength)⟩
      · rename_i some'
        exact ⟨fun _ => ⟨Nat.lt_of_not_le apart, within, Nat.pos_of_ne_zero some'⟩, fun _ => rfl⟩

theorem problemOfLimits?_eq_none_iff :
    problemOfLimits? limits = none ↔ 0 < limits.maxInputBytes := by
  rw [problemOfLimits?, Nat.pos_iff_ne_zero]
  split <;> simp_all

theorem problem?_eq_none_iff : settings.problem? = none ↔ settings.Sound := by
  rw [problem?, Option.or_eq_none_iff, Option.or_eq_none_iff, problemOfThresholds?_eq_none_iff,
    problemOfWeights?_eq_none_iff, problemOfLimits?_eq_none_iff]
  exact ⟨fun ⟨thresholds, weights, inputBytes⟩ => ⟨thresholds, weights, inputBytes⟩,
    fun ⟨thresholds, weights, inputBytes⟩ => ⟨thresholds, weights, inputBytes⟩⟩

/-- The defaults pass their own check. -/
theorem sound_default : Sound {} :=
  problem?_eq_none_iff.mp (by decide +kernel)

/-- A text is accepted if and only if the settings in it are sound. -/
theorem ofText_eq_ok_iff :
    ofText text = .ok settings ↔ ofToml? text = some settings ∧ settings.Sound := by
  rw [ofText]
  split
  · rename_i malformed
    rw [malformed]
    exact ⟨nofun, nofun⟩
  · rename_i held read
    rw [read, Option.some_inj, ← problem?_eq_none_iff]
    split
    · rename_i problem invalid
      refine ⟨nofun, ?_⟩
      rintro ⟨rfl, valid⟩
      rw [invalid] at valid
      cases valid
    · rename_i valid
      constructor
      · rintro ⟨⟩
        exact ⟨rfl, valid⟩
      · rintro ⟨rfl, -⟩
        rfl

/-- The settings of a text, and the defaults if there are none in it or they are not sound. -/
def orDefault (text : String) : Settings :=
  match ofText text with
  | .ok settings => settings
  | .error _ => {}

theorem sound_orDefault (text : String) : (orDefault text).Sound := by
  rw [orDefault]
  split
  · exact (ofText_eq_ok_iff.mp ‹_›).2
  · exact sound_default

end Settings

end SnippetAudit
