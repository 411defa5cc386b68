import Mathlib.Logic.Function.Basic

namespace AgentTermStatus.Lib

/-!
# A directory on a disk that can lose power

Names lead to files, and files have a content.  Programs see one version of both and the disk has
another one: what a program changes reaches the disk when the file is synced, or whenever the system
writes it back, entry by entry and file by file in any order.  When power is lost the version on the
disk is what remains.

* `Disk.Leads` — the file is what a name leads to, as programs see it or on the disk;
* `Disk.Intact` — what a name leads to has reached the disk, and is of some kind, now and after a
  loss of power;
* `Disk.Intact.write`, `Disk.Intact.rename_to`, … — what each operation has to respect to keep a
  name intact.  A file renamed to the name must have been synced before.
-/

/-- The entries of a directory and the contents of its files, as programs see them and on the
    disk; files from `next` on are not in use. -/
structure Disk (ν β : Type*) where
  dir : ν → Option Nat
  diskDir : ν → Option Nat
  data : Nat → List β
  diskData : Nat → List β
  next : Nat

namespace Disk

section
variable {ν β : Type*}

/-! ### Operations -/

/-- A file with another content. -/
def write (d : Disk ν β) (f : Nat) (content : List β) : Disk ν β :=
  { d with data := Function.update d.data f content }

/-- A file written back to the disk. -/
def sync (d : Disk ν β) (f : Nat) : Disk ν β :=
  { d with diskData := Function.update d.diskData f (d.data f) }

/-- What remains when power is lost. -/
def powerLoss (d : Disk ν β) : Disk ν β := { d with dir := d.diskDir, data := d.diskData }

/-- What a program reads under a name. -/
def read (d : Disk ν β) (n : ν) : Option (List β) := (d.dir n).map d.data

/-- What the disk has under a name. -/
def onDisk (d : Disk ν β) (n : ν) : Option (List β) := (d.diskDir n).map d.diskData

/-- A name leads to the file, as programs see it or on the disk. -/
def Leads (d : Disk ν β) (n : ν) (f : Nat) : Prop := d.dir n = some f ∨ d.diskDir n = some f

/-- Every file that a name leads to is in use. -/
def InUse (d : Disk ν β) : Prop := ∀ n f, d.Leads n f → f < d.next

@[simp] theorem data_write_self (d : Disk ν β) (f : Nat) (content : List β) :
    (d.write f content).data f = content := Function.update_self ..
theorem data_write_of_ne {f g : Nat} (h : g ≠ f) (d : Disk ν β) (content : List β) :
    (d.write f content).data g = d.data g := Function.update_of_ne h ..
@[simp] theorem diskData_sync_self (d : Disk ν β) (f : Nat) : (d.sync f).diskData f = d.data f :=
  Function.update_self ..
theorem diskData_sync_of_ne {f g : Nat} (h : g ≠ f) (d : Disk ν β) :
    (d.sync f).diskData g = d.diskData g := Function.update_of_ne h ..

variable [DecidableEq ν]

/-- A new empty file under a name. -/
def create (d : Disk ν β) (n : ν) : Disk ν β :=
  { d with
    dir := Function.update d.dir n (some d.next)
    data := Function.update d.data d.next []
    diskData := Function.update d.diskData d.next []
    next := d.next + 1 }

/-- A name removed. -/
def unlink (d : Disk ν β) (n : ν) : Disk ν β :=
  { d with dir := Function.update d.dir n none }

/-- What a name leads to moved to another one, in the place of what that led to. -/
def rename (d : Disk ν β) (n m : ν) : Disk ν β :=
  { d with dir := Function.update (Function.update d.dir n none) m (d.dir n) }

/-- An entry written back to the disk. -/
def flushEntry (d : Disk ν β) (n : ν) : Disk ν β :=
  { d with diskDir := Function.update d.diskDir n (d.dir n) }

@[simp] theorem dir_create_self (d : Disk ν β) (n : ν) : (d.create n).dir n = some d.next :=
  Function.update_self ..
theorem dir_create_of_ne {n m : ν} (h : m ≠ n) (d : Disk ν β) : (d.create n).dir m = d.dir m :=
  Function.update_of_ne h ..
@[simp] theorem data_create_self (d : Disk ν β) (n : ν) : (d.create n).data d.next = [] :=
  Function.update_self ..
theorem data_create_of_ne {d : Disk ν β} {f : Nat} (h : f ≠ d.next) (n : ν) :
    (d.create n).data f = d.data f := Function.update_of_ne h ..
theorem diskData_create_of_ne {d : Disk ν β} {f : Nat} (h : f ≠ d.next) (n : ν) :
    (d.create n).diskData f = d.diskData f := Function.update_of_ne h ..
@[simp] theorem dir_unlink_self (d : Disk ν β) (n : ν) : (d.unlink n).dir n = none :=
  Function.update_self ..
theorem dir_unlink_of_ne {n m : ν} (h : m ≠ n) (d : Disk ν β) : (d.unlink n).dir m = d.dir m :=
  Function.update_of_ne h ..
@[simp] theorem dir_rename_self (d : Disk ν β) (n m : ν) : (d.rename n m).dir m = d.dir n :=
  Function.update_self ..
theorem dir_rename_of_ne {n m k : ν} (h : k ≠ n) (h' : k ≠ m) (d : Disk ν β) :
    (d.rename n m).dir k = d.dir k := by
  show Function.update (Function.update d.dir n none) m (d.dir n) k = d.dir k
  rw [Function.update_of_ne h', Function.update_of_ne h]
@[simp] theorem diskDir_flushEntry_self (d : Disk ν β) (n : ν) :
    (d.flushEntry n).diskDir n = d.dir n := Function.update_self ..
theorem diskDir_flushEntry_of_ne {n m : ν} (h : m ≠ n) (d : Disk ν β) :
    (d.flushEntry n).diskDir m = d.diskDir m := Function.update_of_ne h ..

/-! ### What names lead to -/

/-- A new file has one name only. -/
theorem leads_create {d : Disk ν β} {n m : ν} {f : Nat} (h : (d.create n).Leads m f) :
    d.Leads m f ∨ m = n ∧ f = d.next := by
  rcases h with h | h
  · by_cases hm : m = n
    · subst hm
      rw [dir_create_self, Option.some.injEq] at h
      exact Or.inr ⟨rfl, h.symm⟩
    · rw [dir_create_of_ne hm] at h
      exact Or.inl (Or.inl h)
  · exact Or.inl (Or.inr h)

/-- Removing a name leads nowhere new. -/
theorem leads_unlink {d : Disk ν β} {n m : ν} {f : Nat} (h : (d.unlink n).Leads m f) :
    d.Leads m f := by
  rcases h with h | h
  · by_cases hm : m = n
    · rw [hm, dir_unlink_self] at h
      exact absurd h (by simp)
    · rw [dir_unlink_of_ne hm] at h
      exact Or.inl h
  · exact Or.inr h

/-- After a rename only the new name leads elsewhere. -/
theorem leads_rename {d : Disk ν β} {n m k : ν} {f : Nat} (h : (d.rename n m).Leads k f) :
    d.Leads k f ∨ k = m ∧ d.dir n = some f := by
  rcases h with h | h
  · by_cases hm : k = m
    · subst hm
      rw [dir_rename_self] at h
      exact Or.inr ⟨rfl, h⟩
    · -- any other name leads where it leads when the old one is removed
      have hdir : (d.rename n m).dir k = (d.unlink n).dir k := Function.update_of_ne hm ..
      rw [hdir] at h
      exact Or.inl (leads_unlink (Or.inl h))
  · exact Or.inl (Or.inr h)

/-- Writing an entry back leads nowhere new. -/
theorem leads_flushEntry {d : Disk ν β} {n m : ν} {f : Nat} (h : (d.flushEntry n).Leads m f) :
    d.Leads m f := by
  rcases h with h | h
  · exact Or.inl h
  · by_cases hm : m = n
    · subst hm
      rw [diskDir_flushEntry_self] at h
      exact Or.inl h
    · rw [diskDir_flushEntry_of_ne hm] at h
      exact Or.inr h

omit [DecidableEq ν] in
/-- A loss of power leads nowhere new. -/
theorem leads_powerLoss {d : Disk ν β} {n : ν} {f : Nat} (h : d.powerLoss.Leads n f) :
    d.Leads n f := Or.inr (h.elim id id)

/-! ### Files in use -/

theorem InUse.create {d : Disk ν β} (h : d.InUse) (n : ν) : (d.create n).InUse := by
  intro m f hlead
  rcases leads_create hlead with hlead | ⟨-, rfl⟩
  · exact Nat.lt_succ_of_lt (h m f hlead)
  · exact Nat.lt_succ_self _

/-- No other name leads to a new file. -/
theorem InUse.not_leads_next {d : Disk ν β} (h : d.InUse) {n m : ν} (hm : m ≠ n) :
    ¬ (d.create n).Leads m d.next := by
  intro hlead
  rcases leads_create hlead with hlead | ⟨heq, -⟩
  · exact Nat.lt_irrefl _ (h m d.next hlead)
  · exact hm heq

theorem InUse.rename {d : Disk ν β} (h : d.InUse) (n m : ν) : (d.rename n m).InUse := by
  intro k f hlead
  rcases leads_rename hlead with hlead | ⟨-, hdir⟩
  · exact h k f hlead
  · exact h n f (Or.inl hdir)

theorem InUse.unlink {d : Disk ν β} (h : d.InUse) (n : ν) : (d.unlink n).InUse :=
  fun m f hlead => h m f (leads_unlink hlead)

theorem InUse.flushEntry {d : Disk ν β} (h : d.InUse) (n : ν) : (d.flushEntry n).InUse :=
  fun m f hlead => h m f (leads_flushEntry hlead)

omit [DecidableEq ν] in
theorem InUse.powerLoss {d : Disk ν β} (h : d.InUse) : d.powerLoss.InUse :=
  fun m f hlead => h m f (leads_powerLoss hlead)

/-! ### What is read -/

omit [DecidableEq ν] in
theorem read_write {d : Disk ν β} {n : ν} {f : Nat} (hf : ¬ d.Leads n f) (content : List β) :
    (d.write f content).read n = d.read n := by
  refine Option.map_congr fun g hg => data_write_of_ne (fun heq => ?_) d content
  rw [heq] at hg
  exact hf (Or.inl hg)

theorem read_create {d : Disk ν β} (huse : d.InUse) {n m : ν} (hm : n ≠ m) :
    (d.create m).read n = d.read n := by
  rw [read, dir_create_of_ne hm]
  exact Option.map_congr fun g hg => data_create_of_ne (Nat.ne_of_lt (huse n g (Or.inl hg))) m

theorem read_unlink {n m : ν} (hm : n ≠ m) (d : Disk ν β) : (d.unlink m).read n = d.read n := by
  rw [read, dir_unlink_of_ne hm]
  rfl

theorem read_rename_to {d : Disk ν β} {n m : ν} {f : Nat} (hf : d.dir m = some f) :
    (d.rename m n).read n = some (d.data f) := by
  rw [read, dir_rename_self, hf]
  rfl

/-! ### Names that are intact -/

/-- What the name leads to has reached the disk; and what programs read under it, and would read
    after a loss of power, is of some kind. -/
structure Intact (d : Disk ν β) (n : ν) (P : Option (List β) → Prop) : Prop where
  settled : ∀ f, d.Leads n f → d.data f = d.diskData f
  read : P (d.read n)
  onDisk : P (d.onDisk n)

variable {d : Disk ν β} {n m : ν} {P Q : Option (List β) → Prop}

omit [DecidableEq ν] in
/-- What is of one kind is of every wider one. -/
theorem Intact.mono (h : d.Intact n P) (hPQ : ∀ c, P c → Q c) : d.Intact n Q :=
  ⟨h.settled, hPQ _ h.read, hPQ _ h.onDisk⟩

omit [DecidableEq ν] in
/-- A program may write to any file that the name does not lead to. -/
theorem Intact.write (h : d.Intact n P) {f : Nat} (hf : ¬ d.Leads n f) (content : List β) :
    (d.write f content).Intact n P := by
  have hdata : ∀ g, d.Leads n g → (d.write f content).data g = d.data g := by
    intro g hg
    refine data_write_of_ne (fun heq => ?_) d content
    rw [heq] at hg
    exact hf hg
  refine ⟨fun g hg => (hdata g hg).trans (h.settled g hg), ?_, h.onDisk⟩
  rw [read_write hf]
  exact h.read

omit [DecidableEq ν] in
/-- Any file may be written back. -/
theorem Intact.sync (h : d.Intact n P) (f : Nat) : (d.sync f).Intact n P := by
  have hdata : ∀ g, d.Leads n g → (d.sync f).diskData g = d.diskData g := by
    intro g hg
    by_cases hgf : g = f
    · subst hgf
      exact (diskData_sync_self d g).trans (h.settled g hg)
    · exact diskData_sync_of_ne hgf d
  refine ⟨fun g hg => (h.settled g hg).trans (hdata g hg).symm, h.read, ?_⟩
  have hread : (d.sync f).onDisk n = d.onDisk n :=
    Option.map_congr fun g hg => hdata g (Or.inr hg)
  rw [hread]
  exact h.onDisk

/-- A new file may be made under any other name. -/
theorem Intact.create (h : d.Intact n P) (huse : d.InUse) (hm : n ≠ m) :
    (d.create m).Intact n P := by
  have hne : ∀ g, d.Leads n g → g ≠ d.next := fun g hg => Nat.ne_of_lt (huse n g hg)
  have hlead : ∀ g, (d.create m).Leads n g → d.Leads n g := fun g hg =>
    (leads_create hg).resolve_right fun heq => hm heq.1
  have hdata : ∀ g, d.Leads n g → (d.create m).data g = d.data g :=
    fun g hg => data_create_of_ne (hne g hg) m
  have hdisk : ∀ g, d.Leads n g → (d.create m).diskData g = d.diskData g :=
    fun g hg => diskData_create_of_ne (hne g hg) m
  refine ⟨fun g hg => ?_, ?_, ?_⟩
  · rw [hdata g (hlead g hg), hdisk g (hlead g hg)]
    exact h.settled g (hlead g hg)
  · rw [read_create huse hm]
    exact h.read
  · have hread : (d.create m).onDisk n = d.onDisk n :=
      Option.map_congr fun g hg => hdisk g (Or.inr hg)
    rw [hread]
    exact h.onDisk

/-- Any other name may be removed. -/
theorem Intact.unlink (h : d.Intact n P) (hm : n ≠ m) : (d.unlink m).Intact n P := by
  refine ⟨fun g hg => h.settled g (leads_unlink hg), ?_, h.onDisk⟩
  rw [read_unlink hm]
  exact h.read

/-- **Installing.** A file of the right kind that has reached the disk may be renamed to the
    name. -/
theorem Intact.rename_to (h : d.Intact n P) {f : Nat} (hf : d.dir m = some f)
    (hsynced : d.data f = d.diskData f) (hP : P (some (d.data f))) :
    (d.rename m n).Intact n P := by
  refine ⟨fun g hg => ?_, ?_, h.onDisk⟩
  · rcases leads_rename hg with hg | ⟨-, hg⟩
    · exact h.settled g hg
    · obtain rfl := Option.some.inj (hf.symm.trans hg)
      exact hsynced
  · rw [read_rename_to hf]
    exact hP

/-- Any entry may be written back. -/
theorem Intact.flushEntry (h : d.Intact n P) (m : ν) : (d.flushEntry m).Intact n P := by
  refine ⟨fun g hg => h.settled g (leads_flushEntry hg), h.read, ?_⟩
  by_cases hm : n = m
  · -- what programs read has reached the disk already
    subst hm
    have hread : (d.flushEntry n).onDisk n = d.read n := by
      rw [Disk.onDisk, diskDir_flushEntry_self]
      exact Option.map_congr fun g hg => (h.settled g (Or.inl hg)).symm
    rw [hread]
    exact h.read
  · rw [Disk.onDisk, diskDir_flushEntry_of_ne hm]
    exact h.onDisk

omit [DecidableEq ν] in
/-- Power may be lost. -/
theorem Intact.powerLoss (h : d.Intact n P) : d.powerLoss.Intact n P :=
  ⟨fun _ _ => rfl, h.onDisk, h.onDisk⟩

end

end Disk

end AgentTermStatus.Lib
