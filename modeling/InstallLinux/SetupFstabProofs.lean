import InstallLinux.SetupFormatLoopProofs

/-! # The boot table — an append after every format, whatever came of it

    `_format` partitions, makes a file system, asks `blkid` for its UUID and
    appends a line to `/etc/fstab`.  No command is checked, and nothing takes
    the line of an earlier format away.

    * `formatStep_sound_iff`: one call leaves the appended lines good iff
      `$partition` ends with a file system `blkid` reports and no file system
      of an earlier line goes down (`Clean`);
    * `formatStep_unsound`: no later call repairs a line, UUIDs being fresh;
    * `fstab_sound_iff` carries both through every sequence of runs of the two
      scripts. -/

namespace SetupFstab

open ShellText ShellRun SetupMountPrompt SetupFormatLoop

/-! ## The machine -/

/-- The lines of `/etc/fstab`; the last two kinds are the ones `_format`
    appends. -/
inductive FstabLine where
  | other (text : Text)
  /-- `#$drivename - /dev/$drive - added by Puget Systems` -/
  | comment (drivename drive : Text)
  /-- `UUID=$uuid $mount ext4 defaults 0 0` -/
  | entry (uuid mount : Text)

/-- What the two scripts read and leave behind. -/
structure Disk where
  /-- the UUID of the file system on a device, if there is one -/
  fs : Text → Option Text
  fstab : List FstabLine
  /-- the completion flag `mount.sh` -/
  flag : Bool

/-- What `mkfs` comes to. -/
inductive Mkfs where
  | made (uuid : Text)
  | failed (keeps : Bool)

/-- What the commands of one `_format` come to. -/
structure Outcome where
  /-- the devices of the disk whose file systems are still there after the two
      calls of `sfdisk`; all of them when both fail -/
  sfdiskKeeps : Text → Bool
  mkfs : Mkfs
  blkid : Bool

/-- The disk itself and its partitions. -/
def OnDisk (device drive : Text) : Prop :=
  device = drive ∨ PartitionOf device drive

instance (device drive : Text) : Decidable (OnDisk device drive) :=
  inferInstanceAs (Decidable (_ ∨ _))

/-- The two calls of `sfdisk --force /dev/$drive`. -/
def sfdisk (drive : Text) (keeps : Text → Bool) (fs : Text → Option Text) :
    Text → Option Text :=
  fun device => if OnDisk device drive ∧ keeps device = false then none
    else fs device

/-- `mkfs -t ext4 /dev/$partition`. -/
def mkfs (partition : Text) (result : Mkfs) (fs : Text → Option Text) :
    Text → Option Text :=
  fun device =>
    if device = partition then
      match result with
      | .made uuid => some uuid
      | .failed true => fs device
      | .failed false => none
    else fs device

/-- `blkid -s UUID -o value /dev/$partition`. -/
def blkid (partition : Text) (works : Bool) (fs : Text → Option Text) : Text :=
  if works then (fs partition).getD [] else []

/-- `_format`. -/
def formatStep (st : Disk) (c : FormatCall × Outcome) : Disk :=
  -- no exit status is looked at: every command runs
  let fs := mkfs c.1.partition c.2.mkfs
    (sfdisk c.1.drive c.2.sfdiskKeeps st.fs)
  let uuid := blkid c.1.partition c.2.blkid fs
  { st with
    fs := fs
    fstab := st.fstab
      ++ [.comment c.1.drivename c.1.drive, .entry uuid c.1.mount] }

/-- One start of a script: the disks left after the root drive removal, what
    `read` takes from the operator, and what the commands do. -/
structure Session (σ : Type) where
  script : Script
  /-- somebody has removed the flag since the last start -/
  unflag : Bool
  probe : Text → Smart
  array : List Text
  answers : List Text
  dirs : σ
  outcome : Nat → Outcome

variable {σ : Type}

/-- The calls of `_format` in a list of actions. -/
def formatCalls (actions : List Action) : List FormatCall :=
  actions.filterMap (fun a =>
    match a with
    | .prompted _ _ => none
    | .format call => some call)

def Session.main (D : Dirs σ) (r : Session σ) : MainRun :=
  mainRun D r.script r.probe r.array r.answers r.dirs

/-- The flag as the script finds it. -/
def Session.flagged (st : Disk) (r : Session σ) : Bool :=
  st.flag && !r.unflag

/-- The calls of `_format` in a start of a script; `mount.sh` leaves at once
    when its flag is there. -/
def Session.calls (D : Dirs σ) (st : Disk) (r : Session σ) :
    List (FormatCall × Outcome) :=
  if r.script = .mount ∧ r.flagged st = true then []
  else (formatCalls (r.main D).actions).mapIdx (fun i c => (c, r.outcome i))

/-- Only `mount.sh` writes the flag, at its end. -/
def Session.flagAfter (D : Dirs σ) (st : Disk) (r : Session σ) : Bool :=
  match r.script with
  | .mount => r.flagged st || (r.main D).finished
  | .standalone => r.flagged st

/-- A start of a script. -/
def runScript (D : Dirs σ) (st : Disk) (r : Session σ) : Disk :=
  { run formatStep st (r.calls D st) with flag := r.flagAfter D st }

/-! ## The property -/

/-- Every appended line has a UUID, that of some file system. -/
def Sound (st : Disk) : Prop :=
  ∀ uuid mount, .entry uuid mount ∈ st.fstab →
    uuid ≠ [] ∧ ∃ device, st.fs device = some uuid

/-- What is assumed of a successful `mkfs`: its UUID is not empty and not that
    of an earlier line. -/
def Fresh (st : Disk) (c : FormatCall × Outcome) : Prop :=
  ∀ uuid, c.2.mkfs = .made uuid →
    uuid ≠ [] ∧ ∀ mount, .entry uuid mount ∉ st.fstab

/-- The file system on a device outlives the call. -/
def Survives (c : FormatCall × Outcome) (device : Text) : Prop :=
  (OnDisk device c.1.drive → c.2.sfdiskKeeps device = true)
    ∧ (device = c.1.partition → c.2.mkfs = .failed true)

/-- `$partition` carries a file system with a UUID when `blkid` is asked: a
    new one, or the one that was there before. -/
def Formatted (st : Disk) (c : FormatCall × Outcome) : Prop :=
  (∃ uuid, c.2.mkfs = .made uuid)
    ∨ Survives c c.1.partition
      ∧ ∃ uuid, st.fs c.1.partition = some uuid ∧ uuid ≠ []

/-- The call appends a good line and spares the file systems of the earlier
    ones. -/
structure Clean (st : Disk) (c : FormatCall × Outcome) : Prop where
  answered : c.2.blkid = true
  formatted : Formatted st c
  spared : ∀ uuid mount, .entry uuid mount ∈ st.fstab →
    ∃ device, st.fs device = some uuid ∧ Survives c device

/-! ## One call -/

/-- The file systems after a call. -/
def fsAfter (st : Disk) (c : FormatCall × Outcome) : Text → Option Text :=
  mkfs c.1.partition c.2.mkfs (sfdisk c.1.drive c.2.sfdiskKeeps st.fs)

theorem formatStep_fs (st : Disk) (c : FormatCall × Outcome) :
    (formatStep st c).fs = fsAfter st c := rfl

/-- What is left behind `sfdisk` was there and outlives it. -/
theorem sfdisk_eq_some {drive device uuid : Text} {keeps : Text → Bool}
    {fs : Text → Option Text} :
    sfdisk drive keeps fs device = some uuid
      ↔ fs device = some uuid ∧ (OnDisk device drive → keeps device = true) := by
  rw [sfdisk]
  by_cases hgone : OnDisk device drive ∧ keeps device = false
  · rw [if_pos hgone]
    refine iff_of_false (fun h => nomatch h) ?_
    rintro ⟨-, hkeeps⟩
    rw [hkeeps hgone.1] at hgone
    exact nomatch hgone.2
  · rw [if_neg hgone]
    refine (and_iff_left ?_).symm
    intro hon
    by_contra hno
    exact hgone ⟨hon, Bool.eq_false_iff.mpr hno⟩

/-- **AFTER A CALL**: a file system is the new one or one that survives. -/
theorem fsAfter_eq_some {st : Disk} {c : FormatCall × Outcome}
    {device uuid : Text} :
    fsAfter st c device = some uuid
      ↔ (device = c.1.partition ∧ c.2.mkfs = .made uuid)
        ∨ (st.fs device = some uuid ∧ Survives c device) := by
  simp only [fsAfter, mkfs, Survives]
  by_cases hdev : device = c.1.partition
  · rw [if_pos hdev]
    cases hmk : c.2.mkfs with
    | made made =>
        simp only [Option.some.injEq, Mkfs.made.injEq]
        constructor
        · intro h
          exact Or.inl ⟨hdev, h⟩
        · rintro (⟨-, h⟩ | ⟨-, -, h⟩)
          · exact h
          · exact nomatch h hdev
    | failed keeps =>
        -- a failed `mkfs` leaves what `sfdisk` has left, or nothing
        cases keeps with
        | true =>
            simp only [sfdisk_eq_some]
            constructor
            · rintro ⟨hfs, hkeeps⟩
              exact Or.inr ⟨hfs, hkeeps, fun _ => trivial⟩
            · rintro (⟨-, h⟩ | ⟨hfs, hkeeps, -⟩)
              · exact nomatch h
              · exact ⟨hfs, hkeeps⟩
        | false =>
            refine iff_of_false (fun h => nomatch h) ?_
            rintro (⟨-, h⟩ | ⟨-, -, h⟩)
            · exact nomatch h
            · exact nomatch h hdev
  · rw [if_neg hdev, sfdisk_eq_some]
    constructor
    · rintro ⟨hfs, hkeeps⟩
      exact Or.inr ⟨hfs, hkeeps, fun h => absurd h hdev⟩
    · rintro (⟨h, -⟩ | ⟨hfs, hkeeps, -⟩)
      · exact absurd h hdev
      · exact ⟨hfs, hkeeps⟩

/-- The entries of after are those of before and the new one. -/
theorem mem_formatStep {st : Disk} {c : FormatCall × Outcome}
    {uuid mount : Text} :
    .entry uuid mount ∈ (formatStep st c).fstab
      ↔ .entry uuid mount ∈ st.fstab
        ∨ (uuid = blkid c.1.partition c.2.blkid (fsAfter st c)
          ∧ mount = c.1.mount) := by
  show .entry uuid mount ∈ st.fstab ++ _ ↔ _
  rw [List.mem_append]
  refine or_congr_right ?_
  simp [fsAfter]

/-- `blkid` prints something iff it works and finds a UUID. -/
theorem blkid_ne_nil {partition : Text} {works : Bool}
    {fs : Text → Option Text} :
    blkid partition works fs ≠ []
      ↔ works = true ∧ ∃ uuid, fs partition = some uuid ∧ uuid ≠ [] := by
  rw [blkid]
  cases works with
  | false => simp
  | true => cases hfs : fs partition <;> simp

/-- The new line is good iff `blkid` answers for a file system. -/
theorem newLine_iff {st : Disk} {c : FormatCall × Outcome} (hc : Fresh st c) :
    blkid c.1.partition c.2.blkid (fsAfter st c) ≠ []
      ↔ c.2.blkid = true ∧ Formatted st c := by
  rw [blkid_ne_nil]
  refine and_congr_right (fun _ => ?_)
  constructor
  · rintro ⟨uuid, hfs, hne⟩
    rcases fsAfter_eq_some.mp hfs with ⟨-, hmade⟩ | ⟨hold, hsurvives⟩
    · exact Or.inl ⟨uuid, hmade⟩
    · exact Or.inr ⟨hsurvives, uuid, hold, hne⟩
  · rintro (⟨uuid, hmade⟩ | ⟨hsurvives, uuid, hold, hne⟩)
    · exact ⟨uuid, fsAfter_eq_some.mpr (Or.inl ⟨rfl, hmade⟩), (hc uuid hmade).1⟩
    · exact ⟨uuid, fsAfter_eq_some.mpr (Or.inr ⟨hold, hsurvives⟩), hne⟩

/-- The file system of an earlier line is there after the call iff it outlives
    it. -/
theorem oldLine_iff {st : Disk} {c : FormatCall × Outcome} (hc : Fresh st c)
    {uuid mount : Text} (h : .entry uuid mount ∈ st.fstab) :
    (∃ device, fsAfter st c device = some uuid)
      ↔ ∃ device, st.fs device = some uuid ∧ Survives c device := by
  constructor
  · rintro ⟨device, hfs⟩
    rcases fsAfter_eq_some.mp hfs with ⟨-, hmade⟩ | hold
    · -- a fresh UUID is on no earlier line
      exact absurd h ((hc uuid hmade).2 mount)
    · exact ⟨device, hold⟩
  · rintro ⟨device, hold⟩
    exact ⟨device, fsAfter_eq_some.mpr (Or.inr hold)⟩

/-- **ONE CALL**: from a good table the table stays good iff the call is
    clean. -/
theorem formatStep_sound_iff (st : Disk) (c : FormatCall × Outcome)
    (hst : Sound st) (hc : Fresh st c) :
    Sound (formatStep st c) ↔ Clean st c := by
  constructor
  · intro hafter
    have hnew := (hafter _ _ (mem_formatStep.mpr (Or.inr ⟨rfl, rfl⟩))).1
    obtain ⟨hanswered, hformatted⟩ := (newLine_iff hc).mp hnew
    refine ⟨hanswered, hformatted, ?_⟩
    intro uuid mount h
    exact (oldLine_iff hc h).mp
      (hafter uuid mount (mem_formatStep.mpr (Or.inl h))).2
  · intro hclean uuid mount h
    rcases mem_formatStep.mp h with hold | ⟨rfl, -⟩
    · exact ⟨(hst uuid mount hold).1,
        (oldLine_iff hc hold).mpr (hclean.spared uuid mount hold)⟩
    · have hne := (newLine_iff hc).mpr ⟨hclean.answered, hclean.formatted⟩
      obtain ⟨hworks, uuid, hfs, -⟩ := blkid_ne_nil.mp hne
      refine ⟨hne, c.1.partition, ?_⟩
      rw [formatStep_fs, hfs, blkid, if_pos hworks, hfs]
      rfl

/-- A bad line stays bad. -/
theorem formatStep_unsound (st : Disk) (c : FormatCall × Outcome)
    (hst : ¬ Sound st) (hc : Fresh st c) : ¬ Sound (formatStep st c) := by
  intro hafter
  refine hst ?_
  -- the old lines are all still there, and their file systems were before
  intro uuid mount h
  obtain ⟨hne, hdevice⟩ := hafter uuid mount (mem_formatStep.mpr (Or.inl h))
  obtain ⟨device, hfs, -⟩ := (oldLine_iff hc h).mp hdevice
  exact ⟨hne, device, hfs⟩

/-! ## All runs -/

/-- Every call of a start meets the condition. -/
def InSession (D : Dirs σ) (ok : Disk → FormatCall × Outcome → Prop)
    (st : Disk) (r : Session σ) : Prop :=
  AllSteps formatStep ok st (r.calls D st)

/-- Every call of every start meets the condition. -/
def InRuns (D : Dirs σ) (ok : Disk → FormatCall × Outcome → Prop)
    (st : Disk) (sessions : List (Session σ)) : Prop :=
  AllSteps (runScript D) (InSession D ok) st sessions

/-- **ONE START**: from a good table the table stays good iff every call is
    clean. -/
theorem runScript_sound_iff (D : Dirs σ) (st : Disk) (r : Session σ)
    (hst : Sound st) (hr : InSession D Fresh st r) :
    Sound (runScript D st r) ↔ InSession D Clean st r :=
  run_good_iff formatStep_sound_iff formatStep_unsound _ st hst hr

theorem runScript_unsound (D : Dirs σ) (st : Disk) (r : Session σ)
    (hst : ¬ Sound st) (hr : InSession D Fresh st r) :
    ¬ Sound (runScript D st r) :=
  run_stays_bad formatStep_unsound _ st hst hr

/-- **THE BOOT TABLE**: from a table without appended lines, the table is good
    after every run of every sequence iff every call of `_format` in it is
    clean. -/
theorem fstab_sound_iff (D : Dirs σ) (st : Disk) (sessions : List (Session σ))
    (hst : ∀ uuid mount, .entry uuid mount ∉ st.fstab)
    (hfresh : InRuns D Fresh st sessions) :
    (∀ front back, sessions = front ++ back →
        Sound (run (runScript D) st front))
      ↔ InRuns D Clean st sessions := by
  have hstart : Sound st := fun uuid mount h => absurd h (hst uuid mount)
  have hlaw := run_good_iff (runScript_sound_iff D) (runScript_unsound D)
  constructor
  · intro hall
    exact (hlaw sessions st hstart hfresh).mp
      (hall sessions [] (List.append_nil _).symm)
  · rintro hclean front back rfl
    have hfresh' := (allSteps_append.mp hfresh).1
    exact (hlaw front st hstart hfresh').mpr (allSteps_append.mp hclean).1

/-! ### One disk, formatted once -/

/-- `standalone_mount.sh` on `sda`, confirmed and mounted at `/data`. -/
def oneFormat (result : Mkfs) : Session (List Text) where
  script := .standalone
  unflag := false
  probe := fun _ => ⟨[], [], [], [], [], [], []⟩
  array := ["sda".toList]
  answers := ["Y".toList, "/data".toList]
  dirs := []
  outcome := fun _ => ⟨fun _ => false, result, true⟩

/-- Nothing formatted yet. -/
def blankDisk : Disk := ⟨fun _ => none, [], false⟩

def sdaCall : FormatCall :=
  ⟨"sda".toList, "sda1".toList, [], "/data".toList⟩

theorem oneFormat_calls (result : Mkfs) :
    (oneFormat result).calls listDirs blankDisk
      = [(sdaCall, ⟨fun _ => false, result, true⟩)] :=
  rfl

/-- What holds of the one call holds of the run. -/
theorem inRuns_oneFormat {ok : Disk → FormatCall × Outcome → Prop}
    {result : Mkfs}
    (h : ok blankDisk (sdaCall, ⟨fun _ => false, result, true⟩)) :
    InRuns listDirs ok blankDisk [oneFormat result] := by
  refine allSteps_cons.mpr ⟨?_, allSteps_nil⟩
  rw [InSession, oneFormat_calls]
  exact allSteps_cons.mpr ⟨h, allSteps_nil⟩

/-- The UUIDs of two file systems. -/
def twoUuids : Nat → Text
  | 0 => "u1".toList
  | _ => "u2".toList

/-- The script on two disks, both confirmed. -/
def twoFormats : Session (List Text) where
  script := .standalone
  unflag := false
  probe := fun _ => ⟨[], [], [], [], [], [], []⟩
  array := ["sda".toList, "sdb".toList]
  answers := ["Y".toList, "/data".toList, "Y".toList, "/backup".toList]
  dirs := []
  outcome := fun n => ⟨fun _ => false, .made (twoUuids n), true⟩

def sdbCall : FormatCall :=
  ⟨"sdb".toList, "sdb1".toList, [], "/backup".toList⟩

theorem twoFormats_calls :
    twoFormats.calls listDirs blankDisk
      = [(sdaCall, ⟨fun _ => false, .made (twoUuids 0), true⟩),
        (sdbCall, ⟨fun _ => false, .made (twoUuids 1), true⟩)] :=
  rfl

/-- The second UUID is not that of the line the first call appends. -/
theorem fresh_twoFormats : InRuns listDirs Fresh blankDisk [twoFormats] := by
  refine allSteps_cons.mpr ⟨?_, allSteps_nil⟩
  rw [InSession, twoFormats_calls]
  refine allSteps_cons.mpr ⟨?_, allSteps_cons.mpr ⟨?_, allSteps_nil⟩⟩
  · intro uuid h
    rw [← Mkfs.made.inj h]
    exact ⟨by decide, fun _ h' => absurd h' List.not_mem_nil⟩
  · intro uuid h
    rw [← Mkfs.made.inj h]
    refine ⟨by decide, fun mount h' => ?_⟩
    rcases mem_formatStep.mp h' with h' | ⟨huuid, -⟩
    · exact absurd h' List.not_mem_nil
    · exact absurd huuid (by decide)

/-- The law for two formats that succeed. -/
theorem fstab_sound_twoFormats :
    (∀ front back, [twoFormats] = front ++ back →
        Sound (run (runScript listDirs) blankDisk front))
      ↔ InRuns listDirs Clean blankDisk [twoFormats] :=
  fstab_sound_iff listDirs blankDisk [twoFormats]
    (fun _ _ h => absurd h List.not_mem_nil) fresh_twoFormats

/-- `mkfs` fails, `blkid` prints nothing, and the line `UUID= /data ext4` is
    appended. -/
theorem fstab_not_sound :
    ¬ ∀ (σ : Type) (D : Dirs σ) (st : Disk) (sessions : List (Session σ)),
        (∀ uuid mount, .entry uuid mount ∉ st.fstab) →
        InRuns D Fresh st sessions →
        ∀ front back, sessions = front ++ back →
          Sound (run (runScript D) st front) := by
  intro hall
  have hfresh : InRuns listDirs Fresh blankDisk [oneFormat (.failed false)] :=
    inRuns_oneFormat (fun uuid h => nomatch h)
  have hsound := hall (List Text) listDirs blankDisk
    [oneFormat (.failed false)] (fun _ _ h => nomatch h) hfresh
    [oneFormat (.failed false)] [] rfl
  have hline : FstabLine.entry [] "/data".toList
      ∈ (run (runScript listDirs) blankDisk
          [oneFormat (.failed false)]).fstab :=
    List.mem_cons_of_mem _ List.mem_cons_self
  exact (hsound [] _ hline).1 rfl

end SetupFstab
