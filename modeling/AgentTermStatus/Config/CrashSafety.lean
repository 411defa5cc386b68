import AgentTermStatus.Config.AtomicWrite

namespace AgentTermStatus

open Lib

/-!
# A file written in one piece is never half written

Any number of writers of one target run at the same time, and the power may be lost.  What holds in
between is that the target, the backup and the temporary files of the writers are different files,
and that a temporary file has reached the disk as a whole before it is renamed to the target.

* `WriteLayout` — the files are different ones, and the target is intact; one lemma for each
  operation of the disk;
* `WriteInv`, `writeInv_step` — all that holds in between, and that a step keeps it;
* `atomicWrite_all_or_nothing` — the target always has its original content or one that a writer has
  installed as a whole.
-/

/-! ### The files -/

/-- The name is that of a temporary file which neither the target nor the backup leads to. -/
structure IsTemp (kind : SafeWrite) (target : String) (d : Disk String UInt8) (t : String)
    (f : Nat) : Prop where
  name : isTempName t = true
  entry : d.dir t = some f
  notTarget : ¬ d.Leads target f
  notBackup : ¬ d.Leads (backupName kind target) f

/-- The files of the writers, the target and the backup are different ones, and the target is
    intact. -/
structure WriteLayout (kind : SafeWrite) (target : String) (P : Option (List UInt8) → Prop)
    (s : WriteSystem) : Prop where
  inUse : s.disk.InUse
  intact : s.disk.Intact target P
  apart : ∀ f, s.disk.Leads target f → ¬ s.disk.Leads (backupName kind target) f
  temp : ∀ k t f, (s.writer k).stage.temp = some (t, f) → IsTemp kind target s.disk t f
  own : ∀ j k t t' f, (s.writer j).stage.temp = some (t, f) →
    (s.writer k).stage.temp = some (t', f) → j = k
  backup : ∀ k b, (s.writer k).stage.backup = some b →
    b < s.disk.next ∧ ¬ s.disk.Leads target b ∧ ∀ j t, (s.writer j).stage.temp ≠ some (t, b)

namespace WriteLayout

section
variable {kind : SafeWrite} {target : String} {P : Option (List UInt8) → Prop} {s : WriteSystem}

/-- The system with another disk. -/
abbrev withDisk (s : WriteSystem) (d : Disk String UInt8) : WriteSystem := { s with disk := d }

/-- The system with a writer at another stage. -/
abbrev withStage (s : WriteSystem) (k : Nat) (stage : WriteStage) : WriteSystem :=
  { s with writer := Function.update s.writer k ((s.writer k).goto stage) }

theorem writer_withStage_self (s : WriteSystem) (k : Nat) (stage : WriteStage) :
    (withStage s k stage).writer k = (s.writer k).goto stage := Function.update_self ..

theorem writer_withStage_of_ne {j k : Nat} (hjk : j ≠ k) (s : WriteSystem) (stage : WriteStage) :
    (withStage s k stage).writer j = s.writer j := Function.update_of_ne hjk ..

/-- Where a writer is now: at the new stage, or where it was. -/
theorem stage_withStage (s : WriteSystem) (k : Nat) (stage : WriteStage) (j : Nat) :
    ((withStage s k stage).writer j).stage = if j = k then stage else (s.writer j).stage := by
  by_cases hjk : j = k
  · subst hjk
    rw [writer_withStage_self, if_pos rfl]
    rfl
  · rw [writer_withStage_of_ne hjk, if_neg hjk]

/-- What a writer has to write stays the same. -/
theorem content_withStage (s : WriteSystem) (k : Nat) (stage : WriteStage) (j : Nat) :
    ((withStage s k stage).writer j).content = (s.writer j).content := by
  by_cases hjk : j = k
  · subst hjk
    rw [writer_withStage_self]
    rfl
  · rw [writer_withStage_of_ne hjk]

theorem mono (h : WriteLayout kind target P s) {Q : Option (List UInt8) → Prop}
    (hPQ : ∀ c, P c → Q c) : WriteLayout kind target Q s :=
  ⟨h.inUse, h.intact.mono hPQ, h.apart, h.temp, h.own, h.backup⟩

/-- A writer may go on to any stage with files of its own. -/
theorem goto (h : WriteLayout kind target P s) (k : Nat) {stage : WriteStage}
    (htemp : ∀ t f, stage.temp = some (t, f) → IsTemp kind target s.disk t f ∧
      (∀ j t', (s.writer j).stage.temp = some (t', f) → j = k) ∧
      ∀ j, (s.writer j).stage.backup ≠ some f)
    (hbackup : ∀ b, stage.backup = some b → b < s.disk.next ∧ ¬ s.disk.Leads target b ∧
      ∀ j t, (s.writer j).stage.temp ≠ some (t, b)) :
    WriteLayout kind target P (withStage s k stage) := by
  refine ⟨h.inUse, h.intact, h.apart, fun j t f hj => ?_, fun j j' t t' f hj hj' => ?_,
    fun j b hj => ?_⟩
  · rw [stage_withStage] at hj
    split at hj
    · exact (htemp t f hj).1
    · exact h.temp j t f hj
  · rw [stage_withStage] at hj hj'
    split at hj <;> split at hj'
    · next heq heq' => rw [heq, heq']
    · next heq _ => exact heq ▸ ((htemp t f hj).2.1 j' t' hj').symm
    · next _ heq => exact heq ▸ (htemp t' f hj').2.1 j t hj
    · exact h.own j j' t t' f hj hj'
  · rw [stage_withStage] at hj
    split at hj
    · obtain ⟨hlt, htarget, hothers⟩ := hbackup b hj
      refine ⟨hlt, htarget, fun j' t hj' => ?_⟩
      rw [stage_withStage] at hj'
      split at hj'
      · -- no stage has both
        cases stage <;> simp [WriteStage.temp, WriteStage.backup] at hj hj'
      · exact hothers j' t hj'
    · obtain ⟨hlt, htarget, hothers⟩ := h.backup j b hj
      refine ⟨hlt, htarget, fun j' t hj' => ?_⟩
      rw [stage_withStage] at hj'
      split at hj'
      · exact (htemp t b hj').2.2 j hj
      · exact hothers j' t hj'

/-- A writer may go on with the files it has. -/
theorem goto_same (h : WriteLayout kind target P s) (k : Nat) {stage : WriteStage}
    (htemp : ∀ x, stage.temp = some x → (s.writer k).stage.temp = some x)
    (hbackup : ∀ b, stage.backup = some b → (s.writer k).stage.backup = some b) :
    WriteLayout kind target P (withStage s k stage) := by
  refine h.goto k (fun t f hnew => ?_) fun b hnew => h.backup k b (hbackup b hnew)
  have hk := htemp _ hnew
  exact ⟨h.temp k t f hk, fun j t' hj => h.own j k t' t f hj hk,
    fun j hj => (h.backup j f hj).2.2 k t hk⟩

/-- The temporary files that are left when a writer gives its own up are those of the others. -/
theorem temp_of_withStage {k : Nat} {stage : WriteStage} (hnone : stage.temp = none) {j : Nat}
    {x : String × Nat} (hj : ((withStage s k stage).writer j).stage.temp = some x) :
    j ≠ k ∧ (s.writer j).stage.temp = some x := by
  rw [stage_withStage] at hj
  split at hj
  · rw [hnone] at hj
    exact absurd hj (by simp)
  · next hjk => exact ⟨hjk, hj⟩

/-- A temporary file is not the backup. -/
theorem temp_ne_backup (h : WriteLayout kind target P s) {k : Nat} {t : String} {f : Nat}
    (hk : (s.writer k).stage.temp = some (t, f)) : t ≠ backupName kind target :=
  ne_of_isTempName (h.temp k t f hk).name (isTempName_backupName kind target)

/-- A temporary file is older than a file that is made. -/
theorem temp_ne_next (h : WriteLayout kind target P s) {k : Nat} {t : String} {f : Nat}
    (hk : (s.writer k).stage.temp = some (t, f)) : f ≠ s.disk.next :=
  Nat.ne_of_lt (h.inUse t f (Or.inl (h.temp k t f hk).entry))

/-- The temporary files of two writers have different names. -/
theorem own_name (h : WriteLayout kind target P s) {j k : Nat} (hjk : j ≠ k) {t t' : String}
    {f g : Nat} (hj : (s.writer j).stage.temp = some (t', g))
    (hk : (s.writer k).stage.temp = some (t, f)) : t' ≠ t ∧ g ≠ f := by
  have hfile : g ≠ f := by
    rintro rfl
    exact hjk (h.own j k t' t g hj hk)
  refine ⟨?_, hfile⟩
  rintro rfl
  have hentry := (h.temp j t' g hj).entry
  exact hfile (Option.some.inj (hentry.symm.trans (h.temp k t' f hk).entry))

/-- Any file may be written that is no temporary file and that the target does not lead to, or a
    writer's own temporary file. -/
theorem write (h : WriteLayout kind target P s) {f : Nat} (hf : ¬ s.disk.Leads target f)
    (content : List UInt8) : WriteLayout kind target P (withDisk s (s.disk.write f content)) :=
  ⟨h.inUse, h.intact.write hf content, h.apart,
    fun k t g hk => ⟨(h.temp k t g hk).name, (h.temp k t g hk).entry, (h.temp k t g hk).notTarget,
      (h.temp k t g hk).notBackup⟩, h.own, h.backup⟩

/-- Any file may be written back. -/
theorem sync (h : WriteLayout kind target P s) (f : Nat) :
    WriteLayout kind target P (withDisk s (s.disk.sync f)) :=
  ⟨h.inUse, h.intact.sync f, h.apart,
    fun k t g hk => ⟨(h.temp k t g hk).name, (h.temp k t g hk).entry, (h.temp k t g hk).notTarget,
      (h.temp k t g hk).notBackup⟩, h.own, h.backup⟩

/-- Any entry may be written back. -/
theorem flushEntry (h : WriteLayout kind target P s) (n : String) :
    WriteLayout kind target P (withDisk s (s.disk.flushEntry n)) := by
  refine ⟨h.inUse.flushEntry n, h.intact.flushEntry n, fun f hf hb => ?_, fun k t f hk => ?_, h.own,
    fun k b hk => ?_⟩
  · exact h.apart f (Disk.leads_flushEntry hf) (Disk.leads_flushEntry hb)
  · have htemp := h.temp k t f hk
    exact ⟨htemp.name, htemp.entry, fun hf => htemp.notTarget (Disk.leads_flushEntry hf),
      fun hf => htemp.notBackup (Disk.leads_flushEntry hf)⟩
  · obtain ⟨hlt, htarget, hothers⟩ := h.backup k b hk
    exact ⟨hlt, fun hf => htarget (Disk.leads_flushEntry hf), hothers⟩

/-- A file may be made under any name but the target's and those of temporary files in use. -/
theorem create (h : WriteLayout kind target P s) {n : String} (hn : target ≠ n)
    (htemp : ∀ k t f, (s.writer k).stage.temp = some (t, f) → t ≠ n) :
    WriteLayout kind target P (withDisk s (s.disk.create n)) := by
  have hold : ∀ f, (s.disk.create n).Leads target f → s.disk.Leads target f :=
    fun f hf => (Disk.leads_create hf).resolve_right fun heq => hn heq.1
  refine ⟨h.inUse.create n, h.intact.create h.inUse hn, fun f hf hb => ?_, fun k t f hk => ?_,
    h.own, fun k b hk => ?_⟩
  · rcases Disk.leads_create hb with hb | ⟨-, rfl⟩
    · exact h.apart f (hold f hf) hb
    · exact Nat.lt_irrefl _ (h.inUse _ _ (hold _ hf))
  · have ht := h.temp k t f hk
    have hlt : f < s.disk.next := h.inUse t f (Or.inl ht.entry)
    refine ⟨ht.name, (Disk.dir_create_of_ne (htemp k t f hk) _).trans ht.entry,
      fun hf => ht.notTarget (hold f hf), fun hb => ?_⟩
    rcases Disk.leads_create hb with hb | ⟨-, rfl⟩
    · exact ht.notBackup hb
    · exact Nat.lt_irrefl _ hlt
  · obtain ⟨hlt, htarget, hothers⟩ := h.backup k b hk
    exact ⟨Nat.lt_succ_of_lt hlt, fun hf => htarget (hold b hf), hothers⟩

/-- Any name may be removed but the target's and those of temporary files in use. -/
theorem unlink (h : WriteLayout kind target P s) {n : String} (hn : target ≠ n)
    (htemp : ∀ k t f, (s.writer k).stage.temp = some (t, f) → t ≠ n) :
    WriteLayout kind target P (withDisk s (s.disk.unlink n)) := by
  refine ⟨h.inUse.unlink n, h.intact.unlink hn, fun f hf hb => ?_, fun k t f hk => ?_, h.own,
    fun k b hk => ?_⟩
  · exact h.apart f (Disk.leads_unlink hf) (Disk.leads_unlink hb)
  · have ht := h.temp k t f hk
    exact ⟨ht.name, (Disk.dir_unlink_of_ne (htemp k t f hk) _).trans ht.entry,
      fun hf => ht.notTarget (Disk.leads_unlink hf), fun hf => ht.notBackup (Disk.leads_unlink hf)⟩
  · obtain ⟨hlt, htarget, hothers⟩ := h.backup k b hk
    exact ⟨hlt, fun hf => htarget (Disk.leads_unlink hf), hothers⟩

/-- A temporary file that no writer has any more may be renamed to the target, if it has reached the
    disk and is of the right kind. -/
theorem rename (h : WriteLayout kind target P s) {n : String} {f : Nat}
    (hn : IsTemp kind target s.disk n f) (htarget : isTempName target = false)
    (htemp : ∀ k t, (s.writer k).stage.temp ≠ some (t, f))
    (hbackup : ∀ k, (s.writer k).stage.backup ≠ some f)
    (hsynced : s.disk.data f = s.disk.diskData f) (hP : P (some (s.disk.data f))) :
    WriteLayout kind target P (withDisk s (s.disk.rename n target)) := by
  have hother : ∀ m g, m ≠ target → (s.disk.rename n target).Leads m g → s.disk.Leads m g :=
    fun m g hm hg => (Disk.leads_rename hg).resolve_right fun heq => hm heq.1
  have htarget' : ∀ g, (s.disk.rename n target).Leads target g → s.disk.Leads target g ∨ g = f := by
    intro g hg
    rcases Disk.leads_rename hg with hg | ⟨-, hg⟩
    · exact Or.inl hg
    · exact Or.inr (Option.some.inj (hg.symm.trans hn.entry))
  refine ⟨h.inUse.rename n target, h.intact.rename_to hn.entry hsynced hP, fun g hg hb => ?_,
    fun k t g hk => ?_, h.own, fun k b hk => ?_⟩
  · have hb := hother _ _ (backupName_ne kind target) hb
    rcases htarget' g hg with hg | rfl
    · exact h.apart g hg hb
    · exact hn.notBackup hb
  · have ht := h.temp k t g hk
    have hgf : g ≠ f := fun heq => htemp k t (heq ▸ hk)
    have htn : t ≠ n := by
      rintro rfl
      exact hgf (Option.some.inj (ht.entry.symm.trans hn.entry))
    have htt : t ≠ target := ne_of_isTempName ht.name htarget
    refine ⟨ht.name, (Disk.dir_rename_of_ne htn htt _).trans ht.entry, fun hg => ?_,
      fun hb => ht.notBackup (hother _ _ (backupName_ne kind target) hb)⟩
    exact (htarget' g hg).elim ht.notTarget hgf
  · obtain ⟨hlt, hnot, hothers⟩ := h.backup k b hk
    refine ⟨hlt, fun hg => ?_, hothers⟩
    rcases htarget' b hg with hg | rfl
    · exact hnot hg
    · exact hbackup k hk

/-- The process of a writer may end. -/
theorem kill (h : WriteLayout kind target P s) (k : Nat) :
    WriteLayout kind target P
      { s with writer := Function.update s.writer k (s.writer k).kill } := by
  obtain ⟨htemp, hbackup, -, hcontent⟩ := FileWriter.kill_stage (s.writer k)
  have hgoto : (s.writer k).kill = (s.writer k).goto (s.writer k).kill.stage := by
    rw [FileWriter.goto, ← hcontent]
  rw [hgoto]
  refine h.goto_same k (fun x hx => ?_) fun b hb => ?_
  · rw [htemp] at hx
    exact absurd hx (by simp)
  · rw [hbackup] at hb
    exact absurd hb (by simp)

/-- Power may be lost, if it ends the writers. -/
theorem powerLoss (h : WriteLayout kind target P s) :
    WriteLayout kind target P ⟨s.disk.powerLoss, fun k => (s.writer k).kill⟩ := by
  refine ⟨h.inUse.powerLoss, h.intact.powerLoss, fun f hf hb => ?_, fun k t f hk => ?_,
    fun j k t t' f hj _ => ?_, fun k b hk => ?_⟩
  · exact h.apart f (Disk.leads_powerLoss hf) (Disk.leads_powerLoss hb)
  · rw [(FileWriter.kill_stage _).1] at hk
    exact absurd hk (by simp)
  · rw [(FileWriter.kill_stage _).1] at hj
    exact absurd hj (by simp)
  · rw [(FileWriter.kill_stage _).2.1] at hk
    exact absurd hk (by simp)

end

end WriteLayout

/-! ### What a step keeps -/

/-- Everything that holds between the steps, given what has been installed so far; `calm` is that no
    power has been lost. -/
structure WriteInv (kind : SafeWrite) (target : String) (original : Option (List UInt8))
    (contents : Nat → List UInt8) (calm : Prop) (out : List (Nat × List UInt8))
    (s : WriteSystem) : Prop where
  layout : WriteLayout kind target (· ∈ original :: out.map fun i => some i.2) s
  content : ∀ k, (s.writer k).content = contents k
  written : ∀ k, Written s.disk (contents k) (s.writer k).stage
  yes : ∀ k, (s.writer k).stage.hasInstalled = some true → (k, contents k) ∈ out
  no : ∀ k, (s.writer k).stage.hasInstalled = some false → ∀ i ∈ out, i.1 ≠ k
  last : calm → s.disk.read target = (out.map fun i => some i.2).getLastD original
  mine : ∀ i ∈ out, i.2 = contents i.1
  once : (out.map Prod.fst).Nodup

section
variable {kind : SafeWrite} {target : String} {original : Option (List UInt8)}
  {contents : Nat → List UInt8} {calm : Prop} {out : List (Nat × List UInt8)} {s : WriteSystem}

open WriteLayout

/-- The temporary files still have what they had, if the move leaves those of the other writers. -/
theorem WriteInv.written_withStage (h : WriteInv kind target original contents calm out s) (k : Nat)
    {d : Disk String UInt8} {stage : WriteStage} (hwritten : Written d (contents k) stage)
    (hothers : ∀ j ≠ k, ∀ t f, (s.writer j).stage.temp = some (t, f) →
      d.data f = s.disk.data f ∧
        (d.diskData f = s.disk.diskData f ∨ d.diskData f = s.disk.data f)) (j : Nat) :
    Written d (contents j) ((withStage (withDisk s d) k stage).writer j).stage := by
  rw [stage_withStage]
  split
  · next hjk =>
    subst hjk
    exact hwritten
  · next hjk => exact (h.written j).frame (hothers j hjk)

/-- A writer's move that installs nothing. -/
theorem WriteInv.move (h : WriteInv kind target original contents calm out s) (k : Nat)
    {d : Disk String UInt8} {stage : WriteStage}
    (hlayout : WriteLayout kind target (· ∈ original :: out.map fun i => some i.2)
      (withStage (withDisk s d) k stage))
    (hwritten : Written d (contents k) stage)
    (hothers : ∀ j ≠ k, ∀ t f, (s.writer j).stage.temp = some (t, f) →
      d.data f = s.disk.data f ∧
        (d.diskData f = s.disk.diskData f ∨ d.diskData f = s.disk.data f))
    (hinstalled : stage.hasInstalled = (s.writer k).stage.hasInstalled)
    (hread : d.read target = s.disk.read target) :
    WriteInv kind target original contents calm out (withStage (withDisk s d) k stage) := by
  have hsame : ∀ j, ((withStage (withDisk s d) k stage).writer j).stage.hasInstalled =
      (s.writer j).stage.hasInstalled := by
    intro j
    rw [stage_withStage]
    split
    · next hjk =>
      subst hjk
      exact hinstalled
    · rfl
  refine ⟨hlayout, fun j => ?_, h.written_withStage k hwritten hothers,
    fun j hj => h.yes j ((hsame j).symm.trans hj), fun j hj => h.no j ((hsame j).symm.trans hj),
    fun hcalm => hread.trans (h.last hcalm), h.mine, h.once⟩
  exact (content_withStage (withDisk s d) k stage j).trans (h.content j)

/-- A writer goes on, and the disk stays as it is. -/
theorem WriteInv.goto (h : WriteInv kind target original contents calm out s) (k : Nat)
    {stage : WriteStage} (htemp : ∀ x, stage.temp = some x → (s.writer k).stage.temp = some x)
    (hbackup : ∀ b, stage.backup = some b → (s.writer k).stage.backup = some b)
    (hwritten : Written s.disk (contents k) stage)
    (hinstalled : stage.hasInstalled = (s.writer k).stage.hasInstalled) :
    WriteInv kind target original contents calm out (withStage s k stage) :=
  h.move k (h.layout.goto_same k htemp hbackup) hwritten (fun _ _ _ _ _ => ⟨rfl, Or.inl rfl⟩)
    hinstalled rfl

/-- A writer writes to a file that neither the target leads to nor another writer has. -/
theorem WriteInv.write (h : WriteInv kind target original contents calm out s) (k : Nat) {f : Nat}
    {content : List UInt8} {stage : WriteStage} (hnot : ¬ s.disk.Leads target f)
    (hfree : ∀ j ≠ k, ∀ t, (s.writer j).stage.temp ≠ some (t, f))
    (hlayout : WriteLayout kind target (· ∈ original :: out.map fun i => some i.2)
      (withStage (withDisk s (s.disk.write f content)) k stage))
    (hwritten : Written (s.disk.write f content) (contents k) stage)
    (hinstalled : stage.hasInstalled = (s.writer k).stage.hasInstalled) :
    WriteInv kind target original contents calm out
      (withStage (withDisk s (s.disk.write f content)) k stage) := by
  refine h.move k hlayout hwritten (fun j hjk t g hj => ?_) hinstalled (Disk.read_write hnot _)
  have hgf : g ≠ f := by
    rintro rfl
    exact hfree j hjk t hj
  exact ⟨Disk.data_write_of_ne hgf _ _, Or.inl rfl⟩

/-- A writer makes a file that is not the target. -/
theorem WriteInv.create (h : WriteInv kind target original contents calm out s) (k : Nat)
    {n : String} {stage : WriteStage} (hn : target ≠ n)
    (hlayout : WriteLayout kind target (· ∈ original :: out.map fun i => some i.2)
      (withStage (withDisk s (s.disk.create n)) k stage))
    (hwritten : Written (s.disk.create n) (contents k) stage)
    (hinstalled : stage.hasInstalled = (s.writer k).stage.hasInstalled) :
    WriteInv kind target original contents calm out
      (withStage (withDisk s (s.disk.create n)) k stage) := by
  refine h.move k hlayout hwritten (fun j _ t f hj => ?_) hinstalled
    (Disk.read_create h.layout.inUse hn)
  have hold := h.layout.temp_ne_next hj
  exact ⟨Disk.data_create_of_ne hold _, Or.inl (Disk.diskData_create_of_ne hold _)⟩

/-- A writer removes a name that is not the target. -/
theorem WriteInv.unlink (h : WriteInv kind target original contents calm out s) (k : Nat)
    {n : String} {stage : WriteStage} (hn : target ≠ n)
    (hlayout : WriteLayout kind target (· ∈ original :: out.map fun i => some i.2)
      (withStage (withDisk s (s.disk.unlink n)) k stage))
    (hwritten : Written (s.disk.unlink n) (contents k) stage)
    (hinstalled : stage.hasInstalled = (s.writer k).stage.hasInstalled) :
    WriteInv kind target original contents calm out
      (withStage (withDisk s (s.disk.unlink n)) k stage) :=
  h.move k hlayout hwritten (fun _ _ _ _ _ => ⟨rfl, Or.inl rfl⟩) hinstalled (Disk.read_unlink hn _)

/-- A backup that is there is emptied, and the writer copies to it. -/
theorem WriteInv.truncateBackup (h : WriteInv kind target original contents calm out s) {k : Nat}
    {src b : Nat} (hw : (s.writer k).stage = .openBackup src)
    (hb : s.disk.dir (backupName kind target) = some b) :
    WriteInv kind target original contents calm out
      (withStage (withDisk s (s.disk.write b [])) k (.copying src b 0)) := by
  have hlay := h.layout
  have hnot : ¬ s.disk.Leads target b := fun hf => hlay.apart b hf (Or.inl hb)
  have hfree : ∀ j t, (s.writer j).stage.temp ≠ some (t, b) :=
    fun j t hj => (hlay.temp j t b hj).notBackup (Or.inl hb)
  refine h.write k hnot (fun j _ => hfree j) ((hlay.write hnot []).goto k (fun t f hx => ?_)
    fun b' hb' => ?_) trivial (by rw [hw]; rfl)
  · exact absurd hx (by simp [WriteStage.temp])
  · obtain rfl : b = b' := Option.some.inj hb'
    exact ⟨hlay.inUse _ _ (Or.inl hb), hnot, hfree⟩

/-- A backup is made, and the writer copies to it. -/
theorem WriteInv.createBackup (h : WriteInv kind target original contents calm out s) {k : Nat}
    {src : Nat} (hw : (s.writer k).stage = .openBackup src) :
    WriteInv kind target original contents calm out
      (withStage (withDisk s (s.disk.create (backupName kind target))) k
        (.copying src s.disk.next 0)) := by
  have hlay := h.layout
  have hne := (backupName_ne kind target).symm
  have hmade := hlay.create hne fun j t f hj => hlay.temp_ne_backup hj
  refine h.create k hne (hmade.goto k (fun t f hx => ?_) fun b hb => ?_) trivial (by rw [hw]; rfl)
  · exact absurd hx (by simp [WriteStage.temp])
  · obtain rfl : s.disk.next = b := Option.some.inj hb
    exact ⟨Nat.lt_succ_self _, hlay.inUse.not_leads_next hne,
      fun j t hj => hlay.temp_ne_next hj rfl⟩

/-- A piece of the target is copied to the backup. -/
theorem WriteInv.copy (h : WriteInv kind target original contents calm out s) {k : Nat}
    {src b offset : Nat} (offset' : Nat) (content : List UInt8)
    (hw : (s.writer k).stage = .copying src b offset) :
    WriteInv kind target original contents calm out
      (withStage (withDisk s (s.disk.write b content)) k (.copying src b offset')) := by
  have hk : (s.writer k).stage.backup = some b := by rw [hw]; rfl
  obtain ⟨-, hnot, hfree⟩ := h.layout.backup k b hk
  refine h.write k hnot (fun j _ => hfree j) ((h.layout.write hnot content).goto_same k
    (fun x hx => ?_) fun b' hb' => hk.trans hb') trivial (by rw [hw]; rfl)
  exact absurd hx (by simp [WriteStage.temp])

/-- A temporary file is made under a free name, and the writer has it for its own. -/
theorem WriteInv.makeTemp (h : WriteInv kind target original contents calm out s)
    (htarget : isTempName target = false) {k : Nat} {name : String}
    (hw : (s.writer k).stage = .newTemp) (hname : isTempName name = true)
    (hfree : s.disk.dir name = none) :
    WriteInv kind target original contents calm out
      (withStage (withDisk s (s.disk.create name)) k
        (.writing name s.disk.next (s.writer k).content)) := by
  have hlay := h.layout
  have htargetne : target ≠ name := (ne_of_isTempName hname htarget).symm
  have hbackupne : backupName kind target ≠ name :=
    (ne_of_isTempName hname (isTempName_backupName kind target)).symm
  have hmade := hlay.create htargetne (fun j t f hj => by
    rintro rfl
    rw [(hlay.temp j t f hj).entry] at hfree
    exact absurd hfree (by simp))
  refine h.create k htargetne (hmade.goto k (fun t f hx => ?_) fun b hb => ?_) ?_ (by rw [hw]; rfl)
  · obtain ⟨rfl, rfl⟩ : name = t ∧ s.disk.next = f := by simpa [WriteStage.temp] using hx
    refine ⟨⟨hname, Disk.dir_create_self .., hlay.inUse.not_leads_next htargetne,
      hlay.inUse.not_leads_next hbackupne⟩, fun j t' hj => ?_, fun j hj => ?_⟩
    · exact absurd rfl (hlay.temp_ne_next hj)
    · exact Nat.lt_irrefl _ (hlay.backup j _ hj).1
  · exact absurd hb (by simp [WriteStage.backup])
  · show (s.disk.create name).data s.disk.next ++ (s.writer k).content = contents k
    rw [Disk.data_create_self, List.nil_append]
    exact h.content k

/-- A piece of the content is written to the temporary file. -/
theorem WriteInv.writeTemp (h : WriteInv kind target original contents calm out s) {k : Nat}
    {t : String} {f : Nat} {rest : List UInt8} (n : Nat)
    (hw : (s.writer k).stage = .writing t f rest) :
    WriteInv kind target original contents calm out
      (withStage (withDisk s (s.disk.write f (s.disk.data f ++ rest.take n))) k
        (.writing t f (rest.drop n))) := by
  have hk : (s.writer k).stage.temp = some (t, f) := by rw [hw]; rfl
  have hnot := (h.layout.temp k t f hk).notTarget
  refine h.write k hnot (fun j hjk t' hj => hjk (h.layout.own j k t' t f hj hk))
    ((h.layout.write hnot _).goto_same k (fun x hx => hk.trans hx) fun b hb => ?_) ?_
    (by rw [hw]; rfl)
  · exact absurd hb (by simp [WriteStage.backup])
  · have hwritten := h.written k
    rw [hw] at hwritten
    show (s.disk.write f _).data f ++ rest.drop n = contents k
    rw [Disk.data_write_self, List.append_assoc, List.take_append_drop]
    exact hwritten

/-- The temporary file is synced; then its content is on the disk. -/
theorem WriteInv.syncTemp (h : WriteInv kind target original contents calm out s) {k : Nat}
    {t : String} {f : Nat} (hw : (s.writer k).stage = .syncing t f) :
    WriteInv kind target original contents calm out
      (withStage (withDisk s (s.disk.sync f)) k (.persisting t f)) := by
  have hk : (s.writer k).stage.temp = some (t, f) := by rw [hw]; rfl
  refine h.move k ((h.layout.sync f).goto_same k (fun x hx => hk.trans hx) fun b hb => ?_) ?_
    (fun j hjk t' g hj => ⟨rfl, Or.inl (Disk.diskData_sync_of_ne ?_ _)⟩) (by rw [hw]; rfl) rfl
  · exact absurd hb (by simp [WriteStage.backup])
  · have hwritten := h.written k
    rw [hw] at hwritten
    exact ⟨hwritten, (Disk.diskData_sync_self ..).trans hwritten⟩
  · rintro rfl
    exact hjk (h.layout.own j k t' t g hj hk)

/-- The temporary file is renamed to the target: the writer has installed its content. -/
theorem WriteInv.install (h : WriteInv kind target original contents calm out s)
    (htarget : isTempName target = false) {k : Nat} {t : String} {f : Nat}
    (hw : (s.writer k).stage = .persisting t f) :
    WriteInv kind target original contents calm (out ++ [(k, (s.writer k).content)])
      (withStage (withDisk s (s.disk.rename t target)) k .removeBackup) := by
  have hlay := h.layout
  have hk : (s.writer k).stage.temp = some (t, f) := by rw [hw]; rfl
  obtain ⟨hdata, hdisk⟩ : s.disk.data f = contents k ∧ s.disk.diskData f = contents k := by
    have hwritten := h.written k
    rw [hw] at hwritten
    exact hwritten
  have hnotyet : ∀ i ∈ out, i.1 ≠ k := h.no k (by rw [hw]; rfl)
  rw [h.content k]
  refine ⟨?_, fun j => ?_, h.written_withStage k trivial fun _ _ _ _ _ => ⟨rfl, Or.inl rfl⟩,
    fun j hj => ?_, fun j hj => ?_, fun _ => ?_, fun i hi => ?_, ?_⟩
  · have hgone : WriteLayout kind target
        (· ∈ original :: (out ++ [(k, contents k)]).map fun i => some i.2)
        (withStage s k .removeBackup) := by
      refine (hlay.mono fun c hc => ?_).goto_same k (fun x hx => ?_) fun b hb => ?_
      · rw [List.map_append, ← List.cons_append]
        exact List.mem_append_left _ hc
      · exact absurd hx (by simp [WriteStage.temp])
      · exact absurd hb (by simp [WriteStage.backup])
    refine hgone.rename (hlay.temp k t f hk) htarget (fun j t' hj => ?_) (fun j hj => ?_)
      (hdata.trans hdisk.symm) ?_
    · obtain ⟨hjk, hj⟩ := temp_of_withStage rfl hj
      exact (hlay.own_name hjk hj hk).2 rfl
    · rw [stage_withStage] at hj
      split at hj
      · exact absurd hj (by simp [WriteStage.backup])
      · exact (hlay.backup j f hj).2.2 k t hk
    · show some (s.disk.data f) ∈ _
      rw [hdata]
      simp
  · exact (content_withStage (withDisk s (s.disk.rename t target)) k .removeBackup j).trans
      (h.content j)
  · rw [stage_withStage] at hj
    split at hj
    · next hjk =>
      subst hjk
      simp
    · exact List.mem_append_left _ (h.yes j hj)
  · rw [stage_withStage] at hj
    split at hj
    · exact absurd hj (by simp [WriteStage.hasInstalled])
    · next hjk =>
      intro i hi
      rcases List.mem_append.mp hi with hi | hi
      · exact h.no j hj i hi
      · rw [List.mem_singleton.mp hi]
        exact Ne.symm hjk
  · show (s.disk.rename t target).read target = _
    rw [Disk.read_rename_to (hlay.temp k t f hk).entry, hdata]
    simp
  · rcases List.mem_append.mp hi with hi | hi
    · exact h.mine i hi
    · rw [List.mem_singleton.mp hi]
  · rw [List.map_append, List.nodup_append]
    refine ⟨h.once, by simp, fun a ha b hb => ?_⟩
    obtain ⟨i, hi, rfl⟩ := List.mem_map.mp ha
    obtain rfl : b = k := by simpa using hb
    exact hnotyet i hi

/-- The backup is removed, and the writer returns. -/
theorem WriteInv.removeBackup (h : WriteInv kind target original contents calm out s) {k : Nat}
    (hw : (s.writer k).stage = .removeBackup) :
    WriteInv kind target original contents calm out
      (withStage (withDisk s (s.disk.unlink (backupName kind target))) k (.returned (.ok ()))) := by
  have hne := (backupName_ne kind target).symm
  have hgone := h.layout.unlink hne fun j t f hj => h.layout.temp_ne_backup hj
  refine h.unlink k hne (hgone.goto_same k (fun x hx => ?_) fun b hb => ?_) trivial
    (by rw [hw]; rfl)
  · exact absurd hx (by simp [WriteStage.temp])
  · exact absurd hb (by simp [WriteStage.backup])

/-- A temporary file is dropped; the other writers have theirs under other names. -/
theorem WriteInv.drop (h : WriteInv kind target original contents calm out s)
    (htarget : isTempName target = false) {k : Nat} {t : String} {f : Nat} {e : AtomicWriteError}
    (hw : (s.writer k).stage = .dropping t f e) :
    WriteInv kind target original contents calm out
      (withStage (withDisk s (s.disk.unlink t)) k (.returned (.error e))) := by
  have hlay := h.layout
  have hk : (s.writer k).stage.temp = some (t, f) := by rw [hw]; rfl
  have hne : target ≠ t := (ne_of_isTempName (hlay.temp k t f hk).name htarget).symm
  -- first the writer gives its file up, then the name goes
  have hgone : WriteLayout kind target (· ∈ original :: out.map fun i => some i.2)
      (withStage s k (.returned (.error e))) := by
    refine hlay.goto_same k (fun x hx => ?_) fun b hb => ?_
    · exact absurd hx (by simp [WriteStage.temp])
    · exact absurd hb (by simp [WriteStage.backup])
  refine h.unlink k hne (hgone.unlink hne fun j t' g hj => ?_) trivial (by rw [hw]; rfl)
  obtain ⟨hjk, hj⟩ := temp_of_withStage rfl hj
  exact (hlay.own_name hjk hj hk).1

/-- **Step lemma,** for a system call. -/
theorem WriteInv.writerMove (h : WriteInv kind target original contents calm out s)
    (htarget : isTempName target = false) (k : Nat) {d : Disk String UInt8} {stage : WriteStage}
    {installed : List (List UInt8)}
    (hmove : WriterMove kind target s.disk (s.writer k) d stage installed) :
    WriteInv kind target original contents calm (out ++ installed.map fun content => (k, content))
      (withStage (withDisk s d) k stage) := by
  -- only a rename installs something
  cases hmove with
  | goto stage htemp hbackup hwritten hinstalled =>
    rw [List.map_nil, List.append_nil]
    have hw := h.written k
    rw [← h.content k] at hw
    exact h.goto k htemp hbackup (h.content k ▸ hwritten hw) hinstalled
  | truncateBackup original b hw hb =>
    rw [List.map_nil, List.append_nil]
    exact h.truncateBackup hw hb
  | createBackup original hw =>
    rw [List.map_nil, List.append_nil]
    exact h.createBackup hw
  | copy original b offset offset' content hw =>
    rw [List.map_nil, List.append_nil]
    exact h.copy offset' content hw
  | makeTemp name hw hname hfree =>
    rw [List.map_nil, List.append_nil]
    exact h.makeTemp htarget hw hname hfree
  | write t f rest n hw =>
    rw [List.map_nil, List.append_nil]
    exact h.writeTemp n hw
  | sync t f hw =>
    rw [List.map_nil, List.append_nil]
    exact h.syncTemp hw
  | install t f hw => exact h.install htarget hw
  | removeBackup hw =>
    rw [List.map_nil, List.append_nil]
    exact h.removeBackup hw
  | drop t f e hw =>
    rw [List.map_nil, List.append_nil]
    exact h.drop htarget hw

/-- A step in which writers only end, or stay as they are with what they have written. -/
theorem WriteInv.halt (h : WriteInv kind target original contents calm out s)
    {d : Disk String UInt8} {writer : Nat → FileWriter}
    (hlayout : WriteLayout kind target (· ∈ original :: out.map fun i => some i.2) ⟨d, writer⟩)
    (hwriter : ∀ j, writer j = (s.writer j).kill ∨
      writer j = s.writer j ∧ Written d (contents j) (s.writer j).stage)
    (hread : calm → d.read target = s.disk.read target) :
    WriteInv kind target original contents calm out ⟨d, writer⟩ := by
  have hinstalled : ∀ j b, (writer j).stage.hasInstalled = some b →
      (s.writer j).stage.hasInstalled = some b := by
    intro j b hj
    rcases hwriter j with heq | ⟨heq, -⟩
    · rw [heq] at hj
      exact FileWriter.hasInstalled_of_kill hj
    · rw [heq] at hj
      exact hj
  refine ⟨hlayout, fun j => ?_, fun j => ?_, fun j hj => h.yes j (hinstalled j _ hj),
    fun j hj => h.no j (hinstalled j _ hj), fun hcalm => (hread hcalm).trans (h.last hcalm), h.mine,
    h.once⟩
  · show (writer j).content = contents j
    rcases hwriter j with heq | ⟨heq, -⟩
    · rw [heq, (FileWriter.kill_stage _).2.2.2]
      exact h.content j
    · rw [heq]
      exact h.content j
  · show Written d (contents j) (writer j).stage
    rcases hwriter j with heq | ⟨heq, hwritten⟩
    · rw [heq]
      exact (FileWriter.kill_stage _).2.2.1 _ _
    · rw [heq]
      exact hwritten

/-- **Step lemma.** Every step keeps what holds in between. -/
theorem writeInv_step (htarget : isTempName target = false) (step : WriteStep)
    (hcalm : calm → step ≠ .powerLoss) (h : WriteInv kind target original contents calm out s) :
    WriteInv kind target original contents calm (out ++ (writeStep kind target s step).2)
      (writeStep kind target s step).1 := by
  cases step with
  | call k outcome =>
    obtain ⟨d, stage, installed, hstep, hmove⟩ :=
      writer_step_move kind target s.disk (s.writer k) outcome
    simp only [writeStep, hstep]
    exact h.writerMove htarget k hmove
  | kill k =>
    simp only [writeStep, List.append_nil]
    refine h.halt (h.layout.kill k) (fun j => ?_) fun _ => rfl
    by_cases hjk : j = k
    · subst hjk
      exact Or.inl (Function.update_self ..)
    · exact Or.inr ⟨Function.update_of_ne hjk .., h.written j⟩
  | flushEntry name =>
    simp only [writeStep, List.append_nil]
    exact h.halt (h.layout.flushEntry name)
      (fun j => Or.inr ⟨rfl, (h.written j).frame fun _ _ _ => ⟨rfl, Or.inl rfl⟩⟩) fun _ => rfl
  | flushData file =>
    simp only [writeStep, List.append_nil]
    refine h.halt (h.layout.sync file) (fun j => Or.inr ⟨rfl, (h.written j).frame fun t f _ => ?_⟩)
      fun _ => rfl
    refine ⟨rfl, ?_⟩
    by_cases hf : f = file
    · subst hf
      exact Or.inr (Disk.diskData_sync_self ..)
    · exact Or.inl (Disk.diskData_sync_of_ne hf _)
  | powerLoss =>
    simp only [writeStep, List.append_nil]
    exact h.halt h.layout.powerLoss (fun _ => Or.inl rfl) fun hc => absurd rfl (hcalm hc)

end

/-! ### Runs -/

/-- A directory before the writers begin: the target is on the disk, and the backup, if there is
    one, is another file. -/
structure ReadyToWrite (kind : SafeWrite) (d : Disk String UInt8) (target : String) : Prop where
  inUse : d.InUse
  settled : ∀ f, d.Leads target f → d.data f = d.diskData f
  onDisk : d.onDisk target = d.read target
  apart : ∀ f, d.Leads target f → ¬ d.Leads (backupName kind target) f

/-- Before anything happens. -/
theorem writeInv_start {kind : SafeWrite} {target : String} {d : Disk String UInt8}
    (hd : ReadyToWrite kind d target) (contents : Nat → List UInt8) (calm : Prop) :
    WriteInv kind target (d.read target) contents calm [] (.start d contents) := by
  refine ⟨⟨hd.inUse, ⟨hd.settled, List.mem_cons_self, ?_⟩, hd.apart, fun k t f hk => ?_,
    fun j k t t' f hj _ => ?_, fun k b hk => ?_⟩, fun _ => rfl, fun _ => trivial, fun k hk => ?_,
    fun k _ i hi => ?_, fun _ => rfl, fun i hi => ?_, List.nodup_nil⟩
  · show d.onDisk target ∈ _
    rw [hd.onDisk]
    exact List.mem_cons_self
  · exact absurd hk (by simp [WriteSystem.start, WriteStage.temp])
  · exact absurd hj (by simp [WriteSystem.start, WriteStage.temp])
  · exact absurd hk (by simp [WriteSystem.start, WriteStage.backup])
  · exact absurd hk (by simp [WriteSystem.start, WriteStage.hasInstalled])
  · exact absurd hi (by simp)
  · exact absurd hi (by simp)

/-- **No file is ever half written.** Take any directory, any number of writers of
    one target with any contents, and any run of them: their system calls in any order, each of them
    failing or not, writers being killed, entries and files written back in any order and power
    being lost at any time.  Then the target reads as it did before, or as the whole content of a
    writer that has renamed its file to it, and would do so after a loss of power; if no power was
    lost it is the last of these.  A writer does this at most once: it has done so if it returns
    success, and has not if it returns an error. -/
theorem atomicWrite_all_or_nothing (kind : SafeWrite) (target : String)
    (htarget : isTempName target = false) (d : Disk String UInt8)
    (hd : ReadyToWrite kind d target) (contents : Nat → List UInt8) (steps : List WriteStep) :
    let after := exec (writeStep kind target) (.start d contents) steps
    let installed := trace (writeStep kind target) (.start d contents) steps
    after.disk.read target ∈ d.read target :: installed.map (fun i => some i.2) ∧
    after.disk.onDisk target ∈ d.read target :: installed.map (fun i => some i.2) ∧
    (WriteStep.powerLoss ∉ steps →
      after.disk.read target = (installed.map fun i => some i.2).getLastD (d.read target)) ∧
    (∀ i ∈ installed, i.2 = contents i.1) ∧ (installed.map Prod.fst).Nodup ∧
    ∀ k, ((after.writer k).stage = .returned (.ok ()) → (k, contents k) ∈ installed) ∧
      ∀ e, (after.writer k).stage = .returned (.error e) → ∀ i ∈ installed, i.1 ≠ k := by
  intro after installed
  have hsteps : Along (writeStep kind target)
      (fun _ step => WriteStep.powerLoss ∉ steps → step ≠ .powerLoss) (.start d contents)
      steps := by
    refine ((along_of_forall (C := fun _ _ => True) (fun _ _ => trivial) _ steps).and_of_mem
      fun step hstep hcalm => ?_).mono fun _ _ h => h.2
    rintro rfl
    exact hcalm hstep
  have hinv := Along.trace_inv
    (fun out s => WriteInv kind target (d.read target) contents (WriteStep.powerLoss ∉ steps) out s)
    (fun out s step hstep h => writeInv_step htarget step hstep h) hsteps
    (writeInv_start hd contents _)
  rw [List.nil_append] at hinv
  refine ⟨hinv.layout.intact.read, hinv.layout.intact.onDisk, hinv.last, hinv.mine, hinv.once,
    fun k => ⟨fun hk => hinv.yes k ?_, fun e hk => hinv.no k ?_⟩⟩
  · exact congrArg WriteStage.hasInstalled hk
  · exact congrArg WriteStage.hasInstalled hk

/-- A directory with one file, which is on the disk. -/
def oneFile (name : String) (content : List UInt8) : Disk String UInt8 where
  dir := fun n => if n = name then some 0 else none
  diskDir := fun n => if n = name then some 0 else none
  data := fun _ => content
  diskData := fun _ => content
  next := 1

/-- A directory with one file is ready for writers of that file. -/
theorem readyToWrite_oneFile (kind : SafeWrite) (name : String) (content : List UInt8) :
    ReadyToWrite kind (oneFile name content) name := by
  have hlead : ∀ n f, (oneFile name content).Leads n f → n = name ∧ f = 0 := by
    rintro n f (hf | hf) <;>
    · by_cases hn : n = name
      · simp [oneFile, hn] at hf
        exact ⟨hn, hf.symm⟩
      · simp [oneFile, hn] at hf
  refine ⟨fun n f hf => ?_, fun _ _ => rfl, rfl, fun f _ hb => ?_⟩
  · rw [(hlead n f hf).2]
    exact Nat.one_pos
  · exact backupName_ne kind name (hlead _ f hb).1

/-- A writer that loses power before it renames its file, and another one that begins later. -/
def powerLossRun : List WriteStep :=
  [.call 0 .done, .call 0 .done, .call 0 (.failed "denied"), .call 0 (.made ".tmpAb3xYz"),
    .call 0 (.moved 1), .powerLoss, .call 1 .done]

/-- Two writers of a configuration, the first of which loses power. -/
theorem atomicWrite_all_or_nothing_config :
    (exec (writeStep .atomicWrite "config.yaml")
      (.start (oneFile "config.yaml" [1]) fun _ => [2, 3]) powerLossRun).disk.read "config.yaml" ∈
      some [1] :: (trace (writeStep .atomicWrite "config.yaml")
        (.start (oneFile "config.yaml" [1]) fun _ => [2, 3]) powerLossRun).map fun i => some i.2 :=
  (atomicWrite_all_or_nothing .atomicWrite "config.yaml" (by decide) (oneFile "config.yaml" [1])
    (readyToWrite_oneFile .atomicWrite "config.yaml" [1]) (fun _ => [2, 3]) powerLossRun).1

end AgentTermStatus
