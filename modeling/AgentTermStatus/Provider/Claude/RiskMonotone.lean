import AgentTermStatus.Provider.Claude.Risk

namespace AgentTermStatus

open Lib

/-!
# Risk of a longer command

A command that contains another one contains every pattern of the other, but the classifier
answers with the first pattern of its list, and the list is not ordered by severity: a milder
pattern that comes earlier hides a more severe one.

`classify_append_iff` — more text does not lower the risk exactly if none of the patterns listed
before the first one that is severe enough occurs in the longer command (`SevereFirst`).
-/

/-- How severe a level is. -/
def RiskLevel.severity : RiskLevel → Nat
  | .unknown  => 0
  | .low      => 1
  | .medium   => 2
  | .high     => 3
  | .critical => 4

namespace RiskClassifier

/-- The text around a command keeps the patterns it contains. -/
theorem contains_append {command pattern : String} (before after : String)
    (h : contains command pattern = true) :
    contains (before ++ command ++ after) pattern = true := by
  simp only [contains, decide_eq_true_eq] at h ⊢
  rw [String.toList_append, String.toList_append]
  exact h.trans ⟨before.toList, after.toList, rfl⟩

/-- The command contains the pattern, which is at least that severe there. -/
def severeIn (command : String) (severity : Nat) (p : String × RiskLevel) : Bool :=
  contains command p.1 && severity ≤ (levelOf command p.1 p.2).severity

/-- No pattern that is listed before the first one severe enough occurs in the command. -/
def SevereFirst (r : RiskClassifier) (command : String) (severity : Nat) : Prop :=
  ∀ p ∈ r.patterns.takeWhile fun p => !severeIn command severity p, contains command p.1 = false

/-- A command with some pattern is rated at least that severe exactly if no milder pattern comes
    first. -/
theorem severe_iff_severeFirst (r : RiskClassifier) (command : String) (severity : Nat)
    (h : r.classify command ≠ none) :
    (∃ level, r.classify command = some level ∧ severity ≤ level.severity) ↔
      r.SevereFirst command severity := by
  rw [ne_eq, classify_eq_none_iff] at h
  simp only [classify_eq_find?, SevereFirst]
  generalize r.patterns = patterns at h ⊢
  induction patterns with
  | nil => exact absurd (by simp) h
  | cons p patterns ih =>
    by_cases hp : contains command p.1 = true
    · -- the first pattern counts, so it must be severe enough itself
      by_cases hsevere : severity ≤ (levelOf command p.1 p.2).severity
      · simp [severeIn, hp, hsevere]
      · simp [severeIn, hp, hsevere]
    · have hp : contains command p.1 = false := Bool.not_eq_true _ |>.mp hp
      have hrest : ¬ ∀ q ∈ patterns, contains command q.1 = false := by
        rwa [List.forall_mem_cons, and_iff_right hp] at h
      simpa [severeIn, hp] using ih hrest

/-- A command has some pattern if a part of it has. -/
theorem classify_append_ne_none {r : RiskClassifier} {command : String} {level : RiskLevel}
    (h : r.classify command = some level) (before after : String) :
    r.classify (before ++ command ++ after) ≠ none := by
  intro hnone
  rw [classify_eq_none_iff] at hnone
  have hall : r.classify command = none := by
    rw [classify_eq_none_iff]
    intro p hp
    by_contra hcontains
    rw [Bool.not_eq_false] at hcontains
    exact absurd (contains_append before after hcontains) (by simp [hnone p hp])
  exact absurd (h.symm.trans hall) (by simp)

/-- **When more text does not lower the risk.** For every command that is classified, and every
    text before and after it: the whole is rated at least as severe if and only if none of the
    patterns listed before the first one that is as severe in it occurs in it. -/
theorem classify_append_iff (before command after : String) {level : RiskLevel}
    (h : new.classify command = some level) :
    (∃ level', new.classify (before ++ command ++ after) = some level' ∧
        level.severity ≤ level'.severity) ↔
      new.SevereFirst (before ++ command ++ after) level.severity :=
  severe_iff_severeFirst new _ _ (classify_append_ne_none h before after)

/-- A change of owner before the creation of a file system hides it. -/
theorem chown_hides_mkfs :
    ¬ ∀ (before command after : String) (level : RiskLevel), new.classify command = some level →
      ∃ level', new.classify (before ++ command ++ after) = some level' ∧
        level.severity ≤ level'.severity := by
  intro hall
  have hmkfs : new.classify "mkfs.ext4 /dev/sda" = some .critical := by decide +kernel
  have hchown : new.classify ("chown me /dev/sda; " ++ "mkfs.ext4 /dev/sda" ++ "") =
      some .medium := by decide +kernel
  obtain ⟨level', hlevel', hle⟩ := hall "chown me /dev/sda; " "mkfs.ext4 /dev/sda" "" _ hmkfs
  obtain rfl := Option.some.inj (hchown.symm.trans hlevel')
  exact absurd hle (by decide)

/-- A privileged removal is no less risky than the removal. -/
theorem classify_append_sudo :
    ∃ level', new.classify ("sudo " ++ "rm -rf /srv" ++ " && ls") = some level' ∧
      RiskLevel.high.severity ≤ level'.severity :=
  (classify_append_iff "sudo " "rm -rf /srv" " && ls" (by decide +kernel)).mpr
    (by unfold SevereFirst; decide +kernel)

end RiskClassifier

end AgentTermStatus
