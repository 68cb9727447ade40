import InstallLinux.SetupSystemDiskProofs

/-! # The unattended RAID step — index zero of whatever is left

    `vizgen_automation.sh` removes the EFI disks from the array like the other
    scripts, then takes `${array[0]}` and the suffix `1` without a look: an
    empty array gives the empty disk, and a disk whose name ends in a digit
    has no such partition.  `mount.sh` guards the first case by a length test
    and has an arm for the second.

    * `head_array` says what the first element of the array is;
    * `autoRaid_formats_iff` is the law of all disk lists: the step formats the
      first spare disk iff there is one, the removal loop leaves its name in
      front, and it does not end in a digit. -/

namespace SetupAutoRaid

open ShellText ShellRun SetupRootDrive SetupFormatLoop SetupSystemDisk

/-- The commands of the step. -/
inductive Command where
  /-- `echo input | sfdisk --force device` -/
  | sfdisk (input device : Text)
  | mkfs (device : Text)
  | blkid (device : Text)
  | mkdir (path : Text)

/-- The device `sfdisk` is given. -/
def Command.disk? : Command → Option Text
  | .sfdisk _ device => some device
  | .mkfs _ => none
  | .blkid _ => none
  | .mkdir _ => none

/-- The device `mkfs` is given. -/
def Command.formatted? : Command → Option Text
  | .sfdisk _ _ => none
  | .mkfs device => some device
  | .blkid _ => none
  | .mkdir _ => none

/-- The device `blkid` is given. -/
def Command.asked? : Command → Option Text
  | .sfdisk _ _ => none
  | .mkfs _ => none
  | .blkid device => some device
  | .mkdir _ => none

/-- The device `sfdisk` or `mkfs` writes to. -/
def Command.writes? : Command → Option Text
  | .sfdisk _ device => some device
  | .mkfs device => some device
  | .blkid _ => none
  | .mkdir _ => none

/-- What the step has done: its commands, and the lines of `/etc/fstab`. -/
structure AutoRaid where
  commands : List Command
  fstab : List Text

def dev (name : Text) : Text := "/dev/".toList ++ name

/-- The step on the disks `lsblk` lists; `blkid` tells the UUID of a device. -/
def autoRaid (rootcheck : Text → Bool) (blkid : Text → Text)
    (names fstab : List Text) : AutoRaid :=
  let call := vizgenFormat (rootRemoval rootcheck names)
  let uuid := blkid (dev call.partition)
  { commands :=
      [.sfdisk "label: gpt".toList (dev call.drive),
       .sfdisk ";".toList (dev call.drive),
       .mkfs (dev call.partition),
       .blkid (dev call.partition),
       .mkdir call.mount]
    fstab := fstab
      ++ ["#Broadcom 9560 - ".toList ++ dev call.drive
            ++ " - added automatically via Puget Systems automation".toList,
          "UUID=".toList ++ uuid ++ " /raid ext4 defaults 0 0".toList] }

/-- The first disk without `/boot/efi`. -/
def firstSpare (efi : Text → Bool) (names : List Text) : Option Text :=
  names.find? (fun d => !efi d)

/-- The first spare disk is given to both calls of `sfdisk` and its first
    partition to `mkfs` and to `blkid`, once each and with no other call of
    them; without a spare disk the step writes nowhere. -/
structure FormatsSpare (efi : Text → Bool) (names fstab : List Text)
    (r : AutoRaid) : Prop where
  disk : ∀ d, firstSpare efi names = some d →
    r.commands.filterMap Command.disk? = [dev d, dev d]
  formatted : ∀ d, firstSpare efi names = some d →
    r.commands.filterMap Command.formatted? = [dev (firstPartition d)]
  asked : ∀ d, firstSpare efi names = some d →
    r.commands.filterMap Command.asked? = [dev (firstPartition d)]
  nothing : firstSpare efi names = none →
    r.commands.filterMap Command.writes? = [] ∧ r.fstab = fstab

/-! ## Index zero -/

/-- `${array[0]}`: the first name the removals do not cut away, as they leave
    it. -/
theorem head_array (disks : DiskList) (efi : Text → Bool) :
    (rootRemoval efi disks.names).headD []
      = ((disks.names.map (cutOut (disks.names.filter efi))).find?
          (fun name => name ≠ [])).getD [] := by
  rw [rootRemoval, run_removeRoot, List.headD_eq_head?_getD,
    List.head?_filter]

/-- Where no name is inside another it is the first spare disk. -/
theorem find_cutOut (disks : DiskList) (efi : Text → Bool)
    (hnone : NoneInside disks.names) :
    (disks.names.map (cutOut (disks.names.filter efi))).find?
        (fun name => name ≠ [])
      = firstSpare efi disks.names := by
  rw [← List.head?_filter, ← run_removeRoot]
  show (rootRemoval efi disks.names).head? = _
  rw [rootRemoval_exact disks (hnone.separated efi), List.head?_filter]
  rfl

theorem find_getD_eq_iff {names : List Text} {d : Text} (hd : d ≠ []) :
    (names.find? (fun name => name ≠ [])).getD [] = d
      ↔ names.find? (fun name => name ≠ []) = some d := by
  cases names.find? (fun name => name ≠ []) with
  | none => exact iff_of_false (fun h => hd h.symm) (fun h => nomatch h)
  | some w => exact Option.some_inj.symm

/-- The suffix `1` is the kernel's for a name without a digit at its end. -/
theorem append_one_eq_iff (d : Text) :
    d ++ "1".toList = firstPartition d ↔ endsInDigit d = false := by
  rw [firstPartition, List.append_cancel_left_eq, separator]
  cases endsInDigit d <;> decide

theorem dev_inj {a b : Text} : dev a = dev b ↔ a = b :=
  List.append_right_inj _

/-- **ONE RUN**: it formats the spare disk iff that disk is at index zero and
    its name takes the suffix `1`. -/
theorem formatsSpare_iff (disks : DiskList) (efi : Text → Bool)
    (blkid : Text → Text) (fstab : List Text) :
    FormatsSpare efi disks.names fstab (autoRaid efi blkid disks.names fstab)
      ↔ ∃ d, firstSpare efi disks.names = some d
        ∧ (rootRemoval efi disks.names).headD [] = d
        ∧ endsInDigit d = false := by
  constructor
  · intro h
    cases hspare : firstSpare efi disks.names with
    | none =>
        -- the commands do not depend on there being a disk
        exact absurd (h.nothing hspare).1 (by simp [autoRaid, Command.writes?])
    | some d =>
        obtain ⟨hdisk, -⟩ := List.cons.inj (h.disk d hspare)
        obtain ⟨hpart, -⟩ := List.cons.inj (h.formatted d hspare)
        have hhead : (rootRemoval efi disks.names).headD [] = d :=
          dev_inj.mp hdisk
        have hone : (rootRemoval efi disks.names).headD [] ++ "1".toList
            = firstPartition d := dev_inj.mp hpart
        rw [hhead, append_one_eq_iff] at hone
        exact ⟨d, rfl, hhead, hone⟩
  · rintro ⟨d, hspare, hhead, hdigit⟩
    have hdisk : (vizgenFormat (rootRemoval efi disks.names)).drive = d := hhead
    have hpart : (vizgenFormat (rootRemoval efi disks.names)).partition
        = firstPartition d := by
      rw [← (append_one_eq_iff d).mpr hdigit, ← hhead]
      rfl
    refine ⟨?_, ?_, ?_, ?_⟩
    · intro e he
      obtain rfl := Option.some.inj (hspare.symm.trans he)
      show [dev _, dev _] = [dev d, dev d]
      rw [hdisk]
    · intro e he
      obtain rfl := Option.some.inj (hspare.symm.trans he)
      show [dev _] = [dev (firstPartition d)]
      rw [hpart]
    · intro e he
      obtain rfl := Option.some.inj (hspare.symm.trans he)
      show [dev _] = [dev (firstPartition d)]
      rw [hpart]
    · intro hnone
      exact nomatch hspare.symm.trans hnone

theorem firstSpare_ne_nil (disks : DiskList) {efi : Text → Bool} {d : Text}
    (h : firstSpare efi disks.names = some d) : d ≠ [] :=
  (disks.named d (List.mem_of_find?_eq_some h)).1

/-- **THE UNATTENDED STEP**: it formats the first spare disk iff there is one,
    its name is the first that cutting out the names of the EFI disks leaves,
    and it does not end in a digit; where no name is inside another the second
    condition is always met. -/
theorem autoRaid_formats_iff (disks : DiskList) (efi : Text → Bool)
    (blkid : Text → Text) (fstab : List Text) :
    (FormatsSpare efi disks.names fstab (autoRaid efi blkid disks.names fstab)
      ↔ ∃ d, firstSpare efi disks.names = some d
        ∧ (disks.names.map (cutOut (disks.names.filter efi))).find?
            (fun name => name ≠ []) = some d
        ∧ endsInDigit d = false)
    ∧ (NoneInside disks.names →
      (FormatsSpare efi disks.names fstab
          (autoRaid efi blkid disks.names fstab)
        ↔ ∃ d, firstSpare efi disks.names = some d
          ∧ endsInDigit d = false)) := by
  have hlaw : FormatsSpare efi disks.names fstab
        (autoRaid efi blkid disks.names fstab)
      ↔ ∃ d, firstSpare efi disks.names = some d
        ∧ (disks.names.map (cutOut (disks.names.filter efi))).find?
            (fun name => name ≠ []) = some d
        ∧ endsInDigit d = false := by
    rw [formatsSpare_iff]
    refine exists_congr fun d => and_congr_right ?_
    intro hspare
    rw [head_array, find_getD_eq_iff (firstSpare_ne_nil disks hspare)]
  refine ⟨hlaw, ?_⟩
  intro hnone
  rw [hlaw, find_cutOut disks efi hnone]
  exact exists_congr fun d => and_congr_right fun hspare => and_iff_right hspare

/-! ### A machine with one disk -/

/-- The only disk, which carries `/boot/efi`. -/
def oneDisk : DiskList where
  names := ["nvme0n1".toList]
  named := isDiskName_of_all rfl
  nodup := by decide

/-- The system disk and a spare one. -/
def twoDisks : DiskList where
  names := ["nvme0n1".toList, "sda".toList]
  named := isDiskName_of_all rfl
  nodup := by decide

/-- The law for the system disk and a spare one. -/
theorem autoRaid_formats_sda :
    FormatsSpare (fun d => d == "nvme0n1".toList) twoDisks.names []
        (autoRaid (fun d => d == "nvme0n1".toList) (fun _ => []) twoDisks.names
          [])
      ↔ ∃ d, firstSpare (fun d => d == "nvme0n1".toList) twoDisks.names = some d
        ∧ endsInDigit d = false := by
  have hnone : NoneInside twoDisks.names := by
    rintro a ha b hb hin
    simp only [twoDisks, List.mem_cons, List.not_mem_nil, or_false] at ha hb
    rcases ha with rfl | rfl <;> rcases hb with rfl | rfl <;>
      first | rfl | exact absurd hin (by decide)
  exact (autoRaid_formats_iff twoDisks (fun d => d == "nvme0n1".toList)
    (fun _ => []) []).2 hnone

/-- There is no spare disk, and the step formats `/dev/` and `/dev/1` and adds
    two lines to `/etc/fstab`. -/
theorem autoRaid_one_disk :
    ¬ ∀ (disks : DiskList) (efi : Text → Bool) (blkid : Text → Text)
        (fstab : List Text),
        FormatsSpare efi disks.names fstab
          (autoRaid efi blkid disks.names fstab) := by
  intro hall
  have h := (hall oneDisk (fun _ => true) (fun _ => []) []).nothing rfl
  exact absurd h.1 (by simp [autoRaid, Command.writes?])

end SetupAutoRaid
