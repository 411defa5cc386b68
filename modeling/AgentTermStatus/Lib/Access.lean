import Mathlib.Data.Nat.Bitwise

namespace AgentTermStatus.Lib

/-!
# Who may do what with a file

A file or a directory has an owner, a group, and nine permission bits.  A `Site` is a directory, if
it exists, with what is at one name in it, if there is something; who may put another directory in
its place depends on the directories above it, and stays the same.  What users do to it are calls
(`FileCall`) that succeed as far as the permissions let them (`Site.call`).

* `FileNode.Private` — nobody but the owner has any permission;
* `Site.Owned`, `Site.Sealed` — the directory is a user's own, and private besides;
* `Owned.call_dir` — nobody else changes the permissions of a directory, unless they may move it;
* `Sealed.call`, `Sealed.not_reaches` — nobody else changes a sealed site in any way, unless they
  may move it, or reaches what is in it.
-/

/-- The owner of a file or directory, the members of its group, and the permission bits. -/
structure FileNode (υ : Type*) where
  owner : υ
  members : υ → Bool
  mode : Nat

/-- What a permission is for; to search a directory is to execute it. -/
inductive Permission
  | search
  | write
  | read
  deriving DecidableEq

/-- Its bit among the three of a class. -/
def Permission.bit : Permission → Nat
  | .search => 0
  | .write  => 1
  | .read   => 2

theorem Permission.bit_lt (p : Permission) : p.bit < 3 := by
  cases p <;> decide

namespace FileNode
variable {υ : Type*} [DecidableEq υ]

/-- The owner goes by the first class of bits, the members of the group by the second, everyone else
    by the third. -/
def Allows (i : FileNode υ) (u : υ) (p : Permission) : Prop :=
  if u = i.owner then i.mode.testBit (6 + p.bit) = true
  else if i.members u then i.mode.testBit (3 + p.bit) = true
  else i.mode.testBit p.bit = true

instance (i : FileNode υ) (u : υ) (p : Permission) : Decidable (i.Allows u p) := by
  unfold Allows
  infer_instance

omit [DecidableEq υ] in
/-- No permission for the group or for others. -/
def Private (i : FileNode υ) : Prop := i.mode &&& 63 = 0

instance (i : FileNode υ) : Decidable i.Private := inferInstanceAs (Decidable (_ = _))

omit [DecidableEq υ] in
/-- The last six bits of a private mode are clear. -/
theorem Private.testBit {i : FileNode υ} (h : i.Private) {k : Nat} (hk : k < 6) :
    i.mode.testBit k = false := by
  have hand : (i.mode &&& 63).testBit k = (0 : Nat).testBit k := congrArg (·.testBit k) h
  rw [Nat.testBit_and, Nat.zero_testBit, show (63 : Nat) = 2 ^ 6 - 1 from rfl,
    Nat.testBit_two_pow_sub_one, decide_eq_true hk, Bool.and_true] at hand
  exact hand

/-- What is private allows nothing to others. -/
theorem Private.not_allows {i : FileNode υ} (h : i.Private) {u : υ} (hu : u ≠ i.owner)
    (p : Permission) : ¬ i.Allows u p := by
  have hlt := p.bit_lt
  rw [Allows, if_neg hu]
  split
  · rw [h.testBit (by omega)]
    exact Bool.false_ne_true
  · rw [h.testBit (by omega)]
    exact Bool.false_ne_true

end FileNode

/-! ### A directory and a name in it -/

/-- A directory and what is at a name in it, each if it exists. -/
structure Site (υ : Type*) where
  dir : Option (FileNode υ)
  entry : Option (FileNode υ)
  /-- Who may rename and remove the directory, as the directories above it have it. -/
  mayMove : υ → Bool

/-- A system call. -/
inductive FileCall (υ : Type*)
  /-- Create the directory. -/
  | makeDir (members : υ → Bool) (mode : Nat)
  /-- Change the permissions of the directory. -/
  | chmodDir (mode : Nat)
  /-- Rename or remove the directory, with another one and what is in it in its place, or none. -/
  | replaceDir (dir entry : Option (FileNode υ))
  /-- Put something at the name. -/
  | place (members : υ → Bool) (mode : Nat)
  /-- Change the permissions of what is at the name. -/
  | chmodEntry (mode : Nat)
  /-- Remove what is at the name. -/
  | unlink

namespace Site
variable {υ : Type*} [DecidableEq υ]

/-- The user may use the directory for something. -/
def Lets (s : Site υ) (u : υ) (p : Permission) : Prop := ∃ d ∈ s.dir, d.Allows u p

instance (s : Site υ) (u : υ) (p : Permission) : Decidable (s.Lets u p) :=
  inferInstanceAs (Decidable (∃ d ∈ s.dir, _))

/-- The user reaches what is at the name, and may do something with it. -/
def Reaches (s : Site υ) (u : υ) (p : Permission) : Prop :=
  s.Lets u .search ∧ ∃ e ∈ s.entry, e.Allows u p

/-- The call is permitted. -/
def Permits (s : Site υ) (u : υ) : FileCall υ → Prop
  | .makeDir _ _  => s.dir = none
  | .chmodDir _   => ∃ d ∈ s.dir, u = d.owner
  | .replaceDir _ _ => s.mayMove u = true
  | .place _ _    => s.Lets u .search ∧ s.Lets u .write ∧ s.entry = none
  | .chmodEntry _ => s.Lets u .search ∧ ∃ e ∈ s.entry, u = e.owner
  | .unlink       => s.Lets u .search ∧ s.Lets u .write ∧ s.entry ≠ none

instance (s : Site υ) (u : υ) : (c : FileCall υ) → Decidable (s.Permits u c)
  | .makeDir _ _  => decidable_of_iff (s.dir.isNone = true) Option.isNone_iff_eq_none
  | .chmodDir _   => inferInstanceAs (Decidable (∃ d ∈ s.dir, _))
  | .replaceDir _ _ => inferInstanceAs (Decidable (_ = true))
  | .place _ _    =>
    haveI := decidable_of_iff (s.entry.isNone = true) Option.isNone_iff_eq_none
    inferInstanceAs (Decidable (_ ∧ _ ∧ _))
  | .chmodEntry _ => inferInstanceAs (Decidable (_ ∧ ∃ e ∈ s.entry, _))
  | .unlink       =>
    haveI := decidable_of_iff (s.entry.isNone = true) Option.isNone_iff_eq_none
    inferInstanceAs (Decidable (_ ∧ _ ∧ _))

/-- What a call does. -/
def perform (s : Site υ) (u : υ) : FileCall υ → Site υ
  | .makeDir members mode => { s with dir := some ⟨u, members, mode⟩ }
  | .chmodDir mode        => { s with dir := s.dir.map fun d => { d with mode } }
  | .replaceDir dir entry => { s with dir, entry }
  | .place members mode   => { s with entry := some ⟨u, members, mode⟩ }
  | .chmodEntry mode      => { s with entry := s.entry.map fun e => { e with mode } }
  | .unlink               => { s with entry := none }

/-- What becomes of a call; one that is not permitted changes nothing. -/
def call (s : Site υ) (u : υ) (c : FileCall υ) : Site υ :=
  if s.Permits u c then s.perform u c else s

/-- The directory is the user's own. -/
def Owned (s : Site υ) (u : υ) : Prop := ∃ d ∈ s.dir, d.owner = u

/-- The directory is the user's own, and private. -/
def Sealed (s : Site υ) (u : υ) : Prop := ∃ d ∈ s.dir, d.owner = u ∧ d.Private

variable {s : Site υ} {u v : υ}

/-- Others may not use a sealed directory. -/
theorem Sealed.not_lets (h : s.Sealed u) (hv : v ≠ u) (p : Permission) : ¬ s.Lets v p := by
  obtain ⟨d, hd, rfl, hprivate⟩ := h
  rintro ⟨d', hd', hallows⟩
  obtain rfl : d = d' := Option.mem_unique hd hd'
  exact hprivate.not_allows hv p hallows

/-- **Nobody else reaches what is in a sealed directory.** -/
theorem Sealed.not_reaches (h : s.Sealed u) (hv : v ≠ u) (p : Permission) : ¬ s.Reaches v p :=
  fun hreaches => h.not_lets hv .search hreaches.1

/-- No call changes who may move the directory. -/
@[simp] theorem call_mayMove (s : Site υ) (u : υ) (c : FileCall υ) :
    (s.call u c).mayMove = s.mayMove := by
  rw [call]
  split
  · cases c <;> rfl
  · rfl

/-- **Nobody else changes the directory** who may not move it. -/
theorem Owned.call_dir (h : s.Owned u) (hv : v ≠ u) (hmove : s.mayMove v = false)
    (c : FileCall υ) : (s.call v c).dir = s.dir := by
  obtain ⟨d, hd, rfl⟩ := h
  rw [call]
  split
  · next hpermits =>
    cases c with
    | makeDir members mode =>
      have hnone : s.dir = none := hpermits
      rw [hnone] at hd
      exact absurd hd (Option.not_mem_none d)
    | chmodDir mode =>
      obtain ⟨d', hd', howner⟩ := hpermits
      obtain rfl : d = d' := Option.mem_unique hd hd'
      exact absurd howner hv
    | replaceDir dir entry =>
      have hmay : s.mayMove v = true := hpermits
      exact absurd (hmay.symm.trans hmove) (by simp)
    | place | chmodEntry | unlink => rfl
  · rfl

/-- **Nobody else changes what is sealed** who may not move it. -/
theorem Sealed.call (h : s.Sealed u) (hv : v ≠ u) (hmove : s.mayMove v = false)
    (c : FileCall υ) : s.call v c = s := by
  rw [Site.call, if_neg]
  intro hpermits
  cases c with
  | makeDir members mode =>
    obtain ⟨d, hd, -⟩ := h
    have hnone : s.dir = none := hpermits
    rw [hnone] at hd
    exact absurd hd (Option.not_mem_none d)
  | chmodDir mode =>
    obtain ⟨d, hd, rfl, -⟩ := h
    obtain ⟨d', hd', howner⟩ := hpermits
    obtain rfl : d = d' := Option.mem_unique hd hd'
    exact hv howner
  | replaceDir dir entry =>
    have hmay : s.mayMove v = true := hpermits
    exact absurd (hmay.symm.trans hmove) (by simp)
  | place | chmodEntry | unlink => exact h.not_lets hv _ hpermits.1

end Site

end AgentTermStatus.Lib
