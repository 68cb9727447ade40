import InstallLinux.SetupFormatLoopProofs

/-! # The system disk — recognised by a mount point it may not have

    The scripts mean to take the root drive out of the array, but what they
    test for is a row of `lsblk -o NAME,MOUNTPOINT` whose second field is
    `/boot/efi`.  Two things can go wrong: the disk with the root file system
    carries no EFI partition at all, or it does and the row has one more field
    in front, the bar of the tree drawing.

    * `rootcheck_eq_showsEfi` says which trees the pipeline recognises;
    * `array_eq` says what the removals leave of the names;
    * `writes_of_hits` and `hits_of_writes`: the disks a run can write to are
      the ones a name of the array hits;
    * `safe_iff` is the law, for every machine and in the plain form it takes
      when no name is inside another one. -/

namespace SetupSystemDisk

open ShellText ShellRun SetupRootDrive SetupMountPrompt SetupFormatLoop

/-! ## Block devices -/

/-- A block device, its mount point if any, and what is built on it. -/
inductive Device where
  | mk (name type mountpoint : Text) (children : List Device)

def Device.name : Device → Text
  | .mk name _ _ _ => name

def Device.type : Device → Text
  | .mk _ type _ _ => type

def Device.mountpoint : Device → Text
  | .mk _ _ mountpoint _ => mountpoint

mutual
/-- The device or something on it is mounted at `/` or at `/boot`. -/
def holdsSystem : Device → Bool
  | .mk _ _ mountpoint children =>
      mountpoint = "/".toList || mountpoint = "/boot".toList
        || anyHoldsSystem children

def anyHoldsSystem : List Device → Bool
  | [] => false
  | d :: rest => holdsSystem d || anyHoldsSystem rest
end

/-! ## What `lsblk` prints -/

def efiPath : Text := "/boot/efi".toList

/-- The fields of a row; the drawing puts a bar in front for every level that
    goes on below, and a mount point ends at its first blank. -/
def rowFields (bars : Nat) (branch name mountpoint : Text) : List Text :=
  List.replicate bars ['│'] ++ (branch ++ name) :: splitWords mountpoint

mutual
/-- The rows of a device, and of what is on it with `below` bars. -/
def rowsFrom (bars below : Nat) (branch : Text) : Device → List (List Text)
  | .mk name _ mountpoint children =>
      rowFields bars branch name mountpoint :: childRows below children

def childRows (bars : Nat) : List Device → List (List Text)
  | [] => []
  | d :: rest =>
      rowsFrom bars (if rest.isEmpty then bars else bars + 1)
          (if rest.isEmpty then ['└', '─'] else ['├', '─']) d
        ++ childRows bars rest
end

/-- `awk '$2 == "/boot/efi"'`. -/
def efiRow (fields : List Text) : Bool :=
  decide (fields[1]? = some efiPath)

/-- `[ ! -z "$rootcheck" ]` for a disk. -/
def rootcheck (d : Device) : Bool :=
  (rowsFrom 0 0 [] d).any efiRow

/-- The mount point as `awk` reads it. -/
def atEfi (mountpoint : Text) : Bool :=
  decide ((splitWords mountpoint).head? = some efiPath)

mutual
/-- `/boot/efi` is mounted from the device, or from something reached from it
    through last children only. -/
def showsEfi : Device → Bool
  | .mk _ _ mountpoint children => atEfi mountpoint || anyShowsEfi children

/-- Of the other children only the row of their own counts. -/
def anyShowsEfi : List Device → Bool
  | [] => false
  | d :: rest =>
      (if rest.isEmpty then showsEfi d else atEfi d.mountpoint)
        || anyShowsEfi rest
end

theorem efiRow_unbarred (branch name mountpoint : Text) :
    efiRow (rowFields 0 branch name mountpoint) = atEfi mountpoint := by
  show decide ((splitWords mountpoint)[0]? = some efiPath) = _
  rw [atEfi, List.head?_eq_getElem?]

/-- Behind a bar the second field is a bar or a name. -/
theorem efiRow_barred (bars : Nat) {branch : Text} (name mountpoint : Text)
    (hbranch : branch = ['└', '─'] ∨ branch = ['├', '─']) :
    efiRow (rowFields (bars + 1) branch name mountpoint) = false := by
  have hne : ∀ (c : Char) (t : Text), c ≠ '/' →
      decide (some (c :: t) = some efiPath) = false := by
    intro c t hc
    refine decide_eq_false ?_
    intro h
    exact hc (List.cons.inj (Option.some.inj h)).1
  cases bars with
  | zero =>
      rcases hbranch with rfl | rfl
      · exact hne _ _ (by decide)
      · exact hne _ _ (by decide)
  | succ bars => exact hne _ _ (by decide)

mutual
/-- No row behind a bar is found. -/
theorem rowsFrom_barred (bars below : Nat) {branch : Text}
    (hbranch : branch = ['└', '─'] ∨ branch = ['├', '─']) :
    ∀ d : Device, (rowsFrom (bars + 1) (below + 1) branch d).any efiRow = false
  | .mk name _ mountpoint children => by
      rw [rowsFrom, List.any_cons, efiRow_barred bars name mountpoint hbranch,
        childRows_barred below children, Bool.or_false]

theorem childRows_barred (bars : Nat) :
    ∀ children : List Device,
      (childRows (bars + 1) children).any efiRow = false
  | [] => rfl
  | d :: rest => by
      rw [childRows, List.any_append, childRows_barred bars rest,
        Bool.or_false]
      -- the last child keeps the bars, the others add one below
      cases rest with
      | nil => exact rowsFrom_barred bars bars (Or.inl rfl) d
      | cons e rest => exact rowsFrom_barred bars (bars + 1) (Or.inr rfl) d
end

/-- A child with others below it shows its own row only. -/
theorem rowsFrom_open (branch : Text) (d : Device) :
    (rowsFrom 0 1 branch d).any efiRow = atEfi d.mountpoint := by
  cases d with
  | mk name type mountpoint children =>
      rw [rowsFrom, List.any_cons, efiRow_unbarred,
        childRows_barred 0 children, Bool.or_false]
      rfl

mutual
/-- **THE PIPELINE**: which trees are recognised. -/
theorem rowsFrom_efi (branch : Text) :
    ∀ d : Device, (rowsFrom 0 0 branch d).any efiRow = showsEfi d
  | .mk name _ mountpoint children => by
      rw [rowsFrom, List.any_cons, efiRow_unbarred, childRows_efi children,
        showsEfi]

theorem childRows_efi :
    ∀ children : List Device,
      (childRows 0 children).any efiRow = anyShowsEfi children
  | [] => rfl
  | d :: rest => by
      rw [childRows, List.any_append, childRows_efi rest, anyShowsEfi]
      cases rest with
      | nil =>
          simp only [List.isEmpty_nil, if_true]
          rw [rowsFrom_efi _ d]
      | cons e rest =>
          simp only [List.isEmpty_cons, Bool.false_eq_true, if_false]
          rw [Nat.zero_add, rowsFrom_open _ d]
end

/-- **THE ROOT CHECK**: it asks whether the disk shows its EFI mount point. -/
theorem rootcheck_eq_showsEfi (d : Device) : rootcheck d = showsEfi d :=
  rowsFrom_efi [] d

/-! ## The three scripts on a machine -/

/-- The devices at the top level that `awk '$2 == "disk"'` lets through. -/
def diskDevices (devices : List Device) : List Device :=
  devices.filter (fun d => d.type = "disk".toList)

/-- What `lsblk` reports of a machine; a kernel name starts with a letter. -/
structure Machine where
  devices : List Device
  named : ∀ d ∈ diskDevices devices, IsDiskName d.name
  lettered : ∀ d ∈ diskDevices devices,
    ∃ c t, d.name = c :: t ∧ c.isDigit = false
  nodup : ((diskDevices devices).map Device.name).Nodup

def Machine.disks (m : Machine) : List Device := diskDevices m.devices

/-- `array=($drive)`. -/
def Machine.list (m : Machine) : DiskList where
  names := m.disks.map Device.name
  named := by
    intro name hname
    obtain ⟨d, hd, rfl⟩ := List.mem_map.mp hname
    exact m.named d hd
  nodup := m.nodup

/-- The root check of the loop, by name; `lsblk` prints nothing for a name
    that is no device. -/
def Machine.rootcheck (m : Machine) (name : Text) : Bool :=
  m.disks.any (fun d => decide (d.name = name) && SetupSystemDisk.rootcheck d)

/-- The array after the removal loop. -/
def Machine.array (m : Machine) : List Text :=
  rootRemoval m.rootcheck m.list.names

/-- The format commands of `vizgen_automation.sh`, which asks nobody;
    `${array[0]}` is empty for an empty array. -/
def vizgenFormat (array : List Text) : FormatCall where
  drive := array.headD []
  partition := array.headD [] ++ "1".toList
  drivename := "Broadcom 9560".toList
  mount := "/raid".toList

/-- `sfdisk` or `mkfs` is given the disk or one of its partitions. -/
def Writes (call : FormatCall) (disk : Text) : Prop :=
  call.Touches disk ∨ call.partition = disk

/-- The disks of the running system are left alone. -/
def Spares (m : Machine) (call : FormatCall) : Prop :=
  ∀ d ∈ m.disks, holdsSystem d = true → ¬ Writes call d.name

/-- No run of the three scripts writes to a disk of the running system. -/
def Safe (m : Machine) : Prop :=
  (∀ (script : Script) (probe : Text → Smart) (σ : Type) (D : Dirs σ)
      (answers : List Text) (fs : σ) (call : FormatCall),
      .format call ∈ (mainRun D script probe m.array answers fs).actions →
      Spares m call)
    ∧ Spares m (vizgenFormat m.array)

/-- By its name the loop checks the disk. -/
theorem rootcheck_name (m : Machine) {d : Device} (hd : d ∈ m.disks) :
    m.rootcheck d.name = rootcheck d := by
  rw [Machine.rootcheck]
  rw [Bool.eq_iff_iff, List.any_eq_true]
  constructor
  · rintro ⟨e, he, h⟩
    rw [Bool.and_eq_true, decide_eq_true_eq] at h
    rw [List.inj_on_of_nodup_map m.nodup hd he h.1.symm]
    exact h.2
  · intro h
    refine ⟨d, hd, ?_⟩
    rw [h, decide_eq_true rfl]
    rfl

/-- On names that are not inside one another, a disk is off the array iff its
    EFI mount point shows. -/
theorem mem_array_iff (m : Machine) (hnone : NoneInside m.list.names)
    {d : Device} (hd : d ∈ m.disks) :
    d.name ∈ m.array ↔ showsEfi d = false := by
  have hname : d.name ∈ m.list.names := List.mem_map.mpr ⟨d, hd, rfl⟩
  rw [Machine.array, rootRemoval_exact m.list (hnone.separated _),
    List.mem_filter, rootcheck_name m hd, rootcheck_eq_showsEfi]
  simp [hname]

/-- Where no name is inside another the array holds listed names only. -/
theorem array_subset (m : Machine) (hnone : NoneInside m.list.names) :
    ∀ name ∈ m.array, name ∈ m.list.names := by
  intro name hname
  rw [Machine.array, rootRemoval_exact m.list (hnone.separated _)] at hname
  exact (List.mem_filter.mp hname).1

/-- A partition is not the disk's when it belongs to another listed name. -/
theorem not_partition_of_prefix {names : List Text} (hnone : NoneInside names)
    {w disk partition : Text} (hw : w ∈ names) (hdisk : disk ∈ names)
    (hne : w ≠ disk) (hpre : w <+: partition) :
    ¬ PartitionOf partition disk ∧ partition ≠ disk := by
  -- two names that begin one text: one is inside the other
  have hno : ¬ disk <+: partition := by
    intro h
    rcases List.prefix_or_prefix_of_prefix hpre h with h | h
    · exact hne (hnone w hw disk hdisk h.isInfix).symm
    · exact hne (hnone disk hdisk w hw h.isInfix)
  constructor
  · rintro ⟨number, -, -, heq⟩
    exact hno ⟨_, heq.symm⟩
  · intro heq
    exact hno (heq ▸ List.prefix_rfl)

/-- A partition's name is longer than its disk's. -/
theorem partitionOf_length {partition disk : Text}
    (h : PartitionOf partition disk) : disk.length < partition.length := by
  obtain ⟨number, hne, -, rfl⟩ := h
  have hpos := List.length_pos_iff.mpr hne
  simp only [List.length_append]
  omega

/-! ## The law of every machine -/

/-- The names of the disks whose EFI mount point shows. -/
def Machine.shown (m : Machine) : List Text :=
  (m.disks.filter showsEfi).map Device.name

/-- A name after the names of those disks have been cut out of it in turn. -/
def Machine.left (m : Machine) (name : Text) : Text := cutOut m.shown name

/-- A disk formatted under the first name is the second one, or the partition
    its arm names is that disk or on it. -/
def Hits (name disk : Text) : Prop :=
  name = disk
    ∨ HasArm name ∧ (PartitionOf (name ++ armSuffix name) disk
      ∨ name ++ armSuffix name = disk)

/-- No name that is left hits the disk, and the first one does not with the
    partition of the automatic run either. -/
structure Clear (m : Machine) (disk : Text) : Prop where
  prompted : ∀ name ∈ m.list.names, m.left name ≠ [] →
    ¬ Hits (m.left name) disk
  automatic : ∀ first,
    (m.list.names.map m.left).find? (fun name => name ≠ []) = some first →
    ¬ Writes (vizgenFormat [first]) disk

/-- The array is what the removals leave of the names. -/
theorem array_eq (m : Machine) :
    m.array = (m.list.names.map m.left).filter (fun name => name ≠ []) := by
  have hshown : m.list.names.filter m.rootcheck = m.shown := by
    show (m.disks.map Device.name).filter m.rootcheck = _
    rw [List.filter_map]
    refine congrArg _ (List.filter_congr ?_)
    intro d hd
    show m.rootcheck d.name = showsEfi d
    rw [rootcheck_name m hd, rootcheck_eq_showsEfi]
  rw [Machine.array, rootRemoval, run_removeRoot m.list, hshown]
  rfl

/-- Every name of it is left of a listed one. -/
theorem mem_array (m : Machine) {w : Text} :
    w ∈ m.array ↔ ∃ name ∈ m.list.names, m.left name = w ∧ w ≠ [] := by
  rw [array_eq, List.mem_filter, List.mem_map, decide_eq_true_eq]
  constructor
  · rintro ⟨⟨name, hname, hleft⟩, hne⟩
    exact ⟨name, hname, hleft, hne⟩
  · rintro ⟨name, hname, hleft, hne⟩
    exact ⟨⟨name, hname, hleft⟩, hne⟩

/-- Either script can be brought to write where a name of the array hits. -/
theorem writes_of_hits (script : Script) {array : List Text}
    {w disk : Text} (hw : w ∈ array) (hhits : Hits w disk) :
    ∃ (answers fs : List Text) (call : FormatCall), Writes call disk
      ∧ .format call ∈ (mainRun listDirs script
        (fun _ => ⟨[], [], [], [], [], [], []⟩) array answers fs).actions := by
  obtain ⟨answers, fs, v, call, -, hdrive, hpart, hcall⟩ :=
    mainRun_reaches script (fun _ => ⟨[], [], [], [], [], [], []⟩) hw
  refine ⟨answers, fs, call, ?_, hcall⟩
  rcases hhits with heq | ⟨harm, hhits⟩
  · exact Or.inl (Or.inl (hdrive.trans heq).symm)
  · rw [nameDrive_partition, if_pos harm] at hpart
    rcases hhits with hof | heq
    · exact Or.inl (Or.inr (hpart ▸ hof))
    · exact Or.inr (hpart.trans heq)

/-- A call that writes to a disk does so by a name of the array. -/
theorem hits_of_writes {array : List Text} {call : FormatCall} {disk : Text}
    (hdrive : call.drive ∈ array) (hpart : FromArm array call.partition)
    (hdisk : disk ≠ []) (hwrites : Writes call disk) :
    ∃ w ∈ array, Hits w disk := by
  rcases hwrites with (heq | hof) | heq
  · exact ⟨call.drive, hdrive, Or.inl heq.symm⟩
  · rcases hpart with hnil | ⟨w, hw, harm, hpart⟩
    · rw [hnil] at hof
      exact absurd (partitionOf_length hof) (Nat.not_lt_zero _)
    · exact ⟨w, hw, Or.inr ⟨harm, Or.inl (hpart ▸ hof)⟩⟩
  · rcases hpart with hnil | ⟨w, hw, harm, hpart⟩
    · exact absurd (heq.symm.trans hnil) hdisk
    · exact ⟨w, hw, Or.inr ⟨harm, Or.inr (hpart.symm.trans heq)⟩⟩

/-- With nothing left the automatic run writes to no disk. -/
theorem noWrite_vizgen_nil {disk : Text}
    (hletter : ∃ c t, disk = c :: t ∧ c.isDigit = false) :
    ¬ Writes (vizgenFormat []) disk := by
  obtain ⟨c, t, rfl, hc⟩ := hletter
  rintro ((h | h) | h)
  · exact nomatch h
  · have := partitionOf_length h
    simp [vizgenFormat] at this
  · -- the partition is `1`, and no name begins with a digit
    have hone : '1' = c := (List.cons.inj h).1
    rw [← hone] at hc
    exact absurd hc (by decide)

/-- The unattended run spares a disk iff its first name does. -/
theorem spares_vizgen_iff (m : Machine) {d : Device} (hd : d ∈ m.disks) :
    ¬ Writes (vizgenFormat m.array) d.name
      ↔ ∀ first, (m.list.names.map m.left).find? (fun name => name ≠ [])
          = some first → ¬ Writes (vizgenFormat [first]) d.name := by
  rw [← List.head?_filter, ← array_eq]
  cases m.array with
  | nil =>
      refine iff_of_true (noWrite_vizgen_nil (m.lettered d hd)) ?_
      intro first h
      exact nomatch h
  | cons w rest =>
      constructor
      · intro hno first h
        rw [← Option.some.inj h]
        exact hno
      · intro hall
        exact hall w rfl

/-- **EVERY MACHINE**: the three scripts spare the disks of the running system
    iff nothing that is left of the names hits one of them. -/
theorem safe_iff_clear (m : Machine) :
    Safe m ↔ ∀ d ∈ m.disks, holdsSystem d = true → Clear m d.name := by
  constructor
  · intro hsafe d hd hsystem
    refine ⟨?_, (spares_vizgen_iff m hd).mp (hsafe.2 d hd hsystem)⟩
    intro name hname hne hhits
    obtain ⟨answers, fs, call, hwrites, hcall⟩ := writes_of_hits .mount
      ((mem_array m).mpr ⟨name, hname, rfl, hne⟩) hhits
    exact hsafe.1 _ _ _ _ _ _ call hcall d hd hsystem hwrites
  · intro hclear
    constructor
    · -- a bad write goes back to a name of the array, that to a listed one
      intro script probe σ D answers fs call hcall d hd hsystem hwrites
      have hdrive := mainLoop_drive D script probe m.array _ _ _ _ hcall
      have hpart := mainRun_fromArm D script probe hcall
      obtain ⟨w, hw, hhits⟩ :=
        hits_of_writes hdrive hpart (m.named d hd).1 hwrites
      obtain ⟨name, hname, rfl, hne⟩ := (mem_array m).mp hw
      exact (hclear d hd hsystem).prompted name hname hne hhits
    · intro d hd hsystem
      exact (spares_vizgen_iff m hd).mpr (hclear d hd hsystem).automatic

/-! ## Names that are not inside one another -/

/-- **REMOVED MEANS SPARED**: a disk off the array is hit by no name of it. -/
theorem clear_of_removed (m : Machine) (hnone : NoneInside m.list.names)
    {d : Device} (hd : d ∈ m.disks) (hoff : d.name ∉ m.array) :
    Clear m d.name := by
  have hname : d.name ∈ m.list.names := List.mem_map.mpr ⟨d, hd, rfl⟩
  have hother : ∀ w ∈ m.array, w ≠ d.name := by
    rintro w hw rfl
    exact hoff hw
  have hsub := array_subset m hnone
  constructor
  · intro name hlisted hne hhits
    have hw : m.left name ∈ m.array :=
      (mem_array m).mpr ⟨name, hlisted, rfl, hne⟩
    have hspared := not_partition_of_prefix hnone (hsub _ hw) hname
      (hother _ hw) (List.prefix_append (m.left name) (armSuffix (m.left name)))
    rcases hhits with heq | ⟨-, hof | heq⟩
    · exact hother _ hw heq
    · exact hspared.1 hof
    · exact hspared.2 heq
  · intro first hfirst
    rw [← List.head?_filter, ← array_eq] at hfirst
    have hw : first ∈ m.array := List.mem_of_head? hfirst
    have hspared := not_partition_of_prefix hnone (hsub _ hw) hname
      (hother _ hw) (List.prefix_append first "1".toList)
    rintro ((heq | hof) | heq)
    · exact hother _ hw heq.symm
    · exact hspared.1 hof
    · exact hspared.2 heq

/-- **THE SYSTEM DISK**: every run of the three scripts spares the disks of the
    running system iff nothing that the removals leave of the names hits one of
    them.  On names that are not inside one another this means that each of
    these disks shows its EFI mount point. -/
theorem safe_iff (m : Machine) :
    (Safe m ↔ ∀ d ∈ m.disks, holdsSystem d = true → Clear m d.name)
      ∧ (NoneInside m.list.names →
        (Safe m ↔ ∀ d ∈ m.disks, holdsSystem d = true → showsEfi d = true)) := by
  refine ⟨safe_iff_clear m, fun hnone => ?_⟩
  rw [safe_iff_clear m]
  constructor
  · intro hclear d hd hsystem
    by_contra hshows
    have hmem : d.name ∈ m.array :=
      (mem_array_iff m hnone hd).mpr (Bool.eq_false_iff.mpr hshows)
    obtain ⟨name, hname, hleft, hne⟩ := (mem_array m).mp hmem
    exact (hclear d hd hsystem).prompted name hname (hleft ▸ hne)
      (Or.inl hleft)
  · intro hshown d hd hsystem
    refine clear_of_removed m hnone hd ?_
    intro hmem
    have hno := (mem_array_iff m hnone hd).mp hmem
    rw [hshown d hd hsystem] at hno
    exact nomatch hno

/-! ### Two layouts -/

/-- A disk of two partitions, the first one mounted as given and the second
    one at `/`. -/
def systemDisk (name first : Text) : Device :=
  .mk name "disk".toList []
    [.mk (name ++ ['1']) "part".toList first [],
     .mk (name ++ ['2']) "part".toList "/".toList []]

/-- A machine with that disk only. -/
def oneDisk (first : Text) : Machine where
  devices := [systemDisk "sda".toList first]
  named := by
    intro d hd
    have hnames : ∀ name ∈ ["sda".toList], IsDiskName name :=
      isDiskName_of_all rfl
    rw [List.mem_singleton.mp hd]
    exact hnames "sda".toList List.mem_cons_self
  lettered := by
    intro d hd
    rw [List.mem_singleton.mp hd]
    exact ⟨'s', ['d', 'a'], rfl, rfl⟩
  nodup := List.nodup_singleton _

/-- A disk of one partition, mounted as given. -/
def dataDisk (name point : Text) : Device :=
  .mk name "disk".toList []
    [.mk (name ++ "p1".toList) "part".toList point []]

/-- The system on `sda`, two more disks, and an NVMe disk in use. -/
def threeData : List Device :=
  [systemDisk "sda".toList efiPath, dataDisk "sdb".toList [],
    dataDisk "sdc".toList [], dataDisk "nvme0n1".toList "/data".toList]

def threeDataNames : List Text :=
  ["sda".toList, "sdb".toList, "sdc".toList, "nvme0n1".toList]

theorem threeData_mem {P : Text → Prop} (h : ∀ name ∈ threeDataNames, P name) :
    ∀ d ∈ diskDevices threeData, P d.name := by
  intro d hd
  exact h d.name (List.mem_map_of_mem (f := Device.name) hd)

def fourDisks : Machine where
  devices := threeData
  named := threeData_mem (isDiskName_of_all rfl)
  lettered := by
    refine threeData_mem (P := fun name => ∃ c t, name = c :: t ∧ c.isDigit = false)
      ?_
    simp only [threeDataNames, List.forall_mem_cons]
    exact ⟨⟨'s', _, rfl, rfl⟩, ⟨'s', _, rfl, rfl⟩, ⟨'s', _, rfl, rfl⟩,
      ⟨'n', _, rfl, rfl⟩, fun _ hd => absurd hd List.not_mem_nil⟩
  nodup := by decide

/-- The law where the system disk carries `/boot/efi` and is one of four. -/
theorem safe_fourDisks :
    Safe fourDisks ↔ ∀ d ∈ fourDisks.disks,
      holdsSystem d = true → showsEfi d = true :=
  (safe_iff fourDisks).2 (by
    show NoneInside threeDataNames
    unfold NoneInside
    decide)

/-- Legacy boot: without `/boot/efi` the only disk, with the root file system
    on it, is the one the automatic run formats. -/
theorem oneDisk_not_safe : ¬ ∀ m : Machine, Safe m := by
  intro hall
  refine (hall (oneDisk "/boot".toList)).2
    (systemDisk "sda".toList "/boot".toList) List.mem_cons_self rfl ?_
  exact Or.inl (Or.inl rfl)

end SetupSystemDisk
