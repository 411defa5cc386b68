import AgentTermStatus.Core
import AgentTermStatus.Lib.Text

namespace AgentTermStatus

open Lib

/-!
# The risk classifier

`RiskClassifier.classify` goes through a list of patterns and answers with the level of the
first one the command contains; for a download it looks once more at what becomes of it.
-/

/-- The patterns, the first one that occurs counts. -/
structure RiskClassifier where
  patterns : List (String × RiskLevel)

namespace RiskClassifier

/-- The classifier of the adapter. -/
def new : RiskClassifier where
  patterns := [
    ("rm -rf", .high),
    ("rm -r ", .high),
    ("rmdir ", .medium),
    ("git push --force", .high),
    ("git push -f", .high),
    ("git reset --hard", .high),
    ("terraform apply", .high),
    ("terraform destroy", .high),
    ("kubectl delete", .high),
    ("kubectl apply -f", .medium),
    ("docker rm -f", .high),
    ("docker system prune", .high),
    ("npm publish", .medium),
    ("yarn publish", .medium),
    ("DROP TABLE", .critical),
    ("DELETE FROM", .critical),
    ("sudo ", .high),
    ("chmod 777", .high),
    ("chown ", .medium),
    ("> /dev/", .high),
    ("dd if=", .high),
    ("mkfs.", .critical),
    (":()\x7b :|:& \x7d;:", .critical),
    ("curl ", .medium),
    ("wget ", .medium)]

/-- The level of a command that contains the pattern. -/
def levelOf (command pattern : String) (level : RiskLevel) : RiskLevel :=
  if pattern = "curl " then
    if contains command "| sh" || contains command "| bash" || contains command "install.sh" then
      .high
    else level
  else if pattern = "wget " then
    if contains command "| sh" || contains command "| bash" then .high else level
  else level

/-- The level of the first pattern of a list the command contains. -/
def firstMatch (command : String) : List (String × RiskLevel) → Option RiskLevel
  | [] => none
  | (pattern, level) :: patterns =>
      if contains command pattern then some (levelOf command pattern level)
      else firstMatch command patterns

/-- The risk level of a command. -/
def classify (r : RiskClassifier) (command : String) : Option RiskLevel :=
  firstMatch command r.patterns

/-- Classification looks up the first pattern the command contains. -/
theorem classify_eq_find? (r : RiskClassifier) (command : String) :
    r.classify command =
      (r.patterns.find? fun p => contains command p.1).map fun p => levelOf command p.1 p.2 := by
  unfold classify
  induction r.patterns with
  | nil => rfl
  | cons p patterns ih =>
    rw [firstMatch, List.find?_cons]
    by_cases h : contains command p.1 = true
    · rw [if_pos h, h]
      rfl
    · rw [if_neg h, ih, Bool.not_eq_true _ |>.mp h]

/-- A command is not classified exactly when it contains no pattern. -/
theorem classify_eq_none_iff (r : RiskClassifier) (command : String) :
    r.classify command = none ↔ ∀ p ∈ r.patterns, contains command p.1 = false := by
  rw [classify_eq_find?, Option.map_eq_none_iff, List.find?_eq_none]
  simp only [Bool.not_eq_true]

end RiskClassifier

end AgentTermStatus
