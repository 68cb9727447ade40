import InstallLinux.SetupFormatLoopProofs
import InstallLinux.ShellCounterProofs

/-! # Drive names — one counter too few

    The main loop of `mount.sh` and `standalone_mount.sh` gives every disk a
    default mount point: the label of the arm that names it and the value of a
    shell counter.  Two things go wrong with the counters.

    * the arm for `hpt*` takes the counter of the NVMe disks and the label of
      the RAID volumes, which have a counter of their own
      (`defaultMounts_nodup_iff`);
    * the counting pass of `mount.sh` does not ask for `HPT`, so a disk can be
      counted as an SSD and named as a RAID volume (`classNumbered_iff`).

    Both passes are runs of counters handed out item by item: `nameDrive_arm`
    and `countDrive_counter` are the simulations, the values follow from the
    general laws of such runs. -/

namespace SetupDriveNames

open ShellText ShellRun ShellCounter SetupFormatLoop

/-! ## Arms and counters -/

/-- The assignments to `$drivemount` in the main loop. -/
inductive Arm where
  | raid
  | ssd
  | hdd
  | nvme
  | hpt
  deriving DecidableEq

/-- The counters of the scripts. -/
inductive Counter where
  | s
  | h
  | n
  | r
  | hp
  deriving DecidableEq

def counters (v : Vars) : Counter → Option Nat
  | .s => v.s
  | .h => v.h
  | .n => v.n
  | .r => v.r
  | .hp => v.hp

def Arm.label : Arm → Text
  | .raid => "raid".toList
  | .ssd => "ssd".toList
  | .hdd => "hdd".toList
  | .nvme => "nvme".toList
  | .hpt => "raid".toList

/-- The counter an arm reads and advances. -/
def Arm.counter : Arm → Counter
  | .raid => .r
  | .ssd => .s
  | .hdd => .h
  | .nvme => .n
  | .hpt => .n

section Passes

variable (script : Script) (probe : Text → Smart)

/-- The arm that names a disk whose name matches one of the three patterns. -/
def armOf (drive : Text) : Arm :=
  if "sd".toList <+: drive then
    if (probe drive).rpm = [] then
      if isRaid script (probe drive) then .raid else .ssd
    else .hdd
  else if "nvme".toList <+: drive then .nvme
  else .hpt

/-- The counter the main loop reads and advances for it. -/
def counterOf (drive : Text) : Counter :=
  (armOf script probe drive).counter

/-- The counter the counting pass advances for it. -/
def countedAs (drive : Text) : Counter :=
  if "sd".toList <+: drive then
    if (probe drive).rpm = [] then
      if raidCard (probe drive) then .r else .s
    else .h
  else if "nvme".toList <+: drive then .n
  else .hp

/-- The values of `$drivemount` in a run of the main loop. -/
def mounts (v : Vars) (drives : List Text) : List Text :=
  (visits (nameDrive script probe) v drives).map
    (fun w => (nameDrive script probe w.1 w.2).drivemount)

/-- The same, from the counters the script enters the loop with. -/
def defaultMounts (drives : List Text) : List Text :=
  mounts script probe (startVars script probe drives) drives

variable {script probe} {v : Vars} {drive : Text}

/-! ## The passes as counters handed out -/

/-- **SIMULATION**, first arm: an `sd*` disk takes the label and the counter. -/
theorem nameSd_arm (hsd : "sd".toList <+: drive) :
    (nameSd script (probe drive) v drive).drivemount
        = labelled (armOf script probe drive).label
            (counters v (counterOf script probe drive))
      ∧ counters (nameSd script (probe drive) v drive)
        = tick bump (counterOf script probe) (counters v) drive := by
  rw [nameSd, tick, counterOf, armOf, if_pos hsd, if_pos hsd]
  split
  · split
    · refine ⟨rfl, ?_⟩
      funext c
      cases c <;> rfl
    · refine ⟨rfl, ?_⟩
      funext c
      cases c <;> rfl
  · refine ⟨rfl, ?_⟩
    funext c
    cases c <;> rfl

/-- **ONE PASS**: a named disk takes the label of its arm and the value of the
    arm's counter, which moves on. -/
theorem nameDrive_arm (harm : HasArm drive) :
    (nameDrive script probe v drive).drivemount
        = labelled (armOf script probe drive).label
            (counters v (counterOf script probe drive))
      ∧ counters (nameDrive script probe v drive)
        = tick bump (counterOf script probe) (counters v) drive := by
  rw [nameDrive, nameHpt, nameNvme]
  by_cases hsd : "sd".toList <+: drive
  · rw [if_neg (not_hpt_of_sd hsd), if_neg (not_nvme_of_sd hsd)]
    exact nameSd_arm hsd
  · have hskip : nameSd script (probe drive) v drive = v := by
      rw [nameSd, if_neg hsd]
    rw [hskip, tick, counterOf, armOf, if_neg hsd]
    by_cases hnvme : "nvme".toList <+: drive
    · rw [if_neg (not_hpt_of_nvme hnvme), if_pos hnvme, if_pos hnvme]
      refine ⟨rfl, ?_⟩
      funext c
      cases c <;> rfl
    · have hhpt : "hpt".toList <+: drive :=
        (harm.resolve_left hsd).resolve_left hnvme
      rw [if_pos hhpt, if_neg hnvme, if_neg hnvme]
      refine ⟨rfl, ?_⟩
      funext c
      cases c <;> rfl

/-- The counting pass hands out the next value of a counter. -/
theorem countDrive_counter (harm : HasArm drive) :
    counters (countDrive probe v drive)
      = tick bump (countedAs probe) (counters v) drive := by
  rw [countDrive, tick, countedAs]
  by_cases hsd : "sd".toList <+: drive
  · rw [if_neg (not_hpt_of_sd hsd), if_neg (not_nvme_of_sd hsd), if_pos hsd,
      if_pos hsd]
    funext c
    split
    · split <;> cases c <;> rfl
    · cases c <;> rfl
  · rw [if_neg hsd, if_neg hsd]
    by_cases hnvme : "nvme".toList <+: drive
    · rw [if_neg (not_hpt_of_nvme hnvme), if_pos hnvme, if_pos hnvme]
      funext c
      cases c <;> rfl
    · have hhpt : "hpt".toList <+: drive :=
        (harm.resolve_left hsd).resolve_left hnvme
      rw [if_pos hhpt, if_neg hnvme, if_neg hnvme]
      funext c
      cases c <;> rfl

/-- A run of the main loop hands out the counters' values. -/
theorem mounts_eq {drives : List Text} (harm : ∀ d ∈ drives, HasArm d) :
    mounts script probe v drives
      = (handed bump (counterOf script probe) (counters v) drives).map
        (fun p => labelled (armOf script probe p.1).label p.2) := by
  induction drives generalizing v with
  | nil => rfl
  | cons d rest ih =>
      obtain ⟨hmount, hcounters⟩ :=
        @nameDrive_arm script probe v d (harm d List.mem_cons_self)
      have hrest := ih (v := nameDrive script probe v d)
        (fun e he => harm e (List.mem_cons_of_mem _ he))
      rw [hcounters] at hrest
      rw [handed_cons, List.map_cons, ← hrest, ← hmount]
      rfl

/-- The counting pass is a run of counters. -/
theorem counters_foldl_countDrive {drives : List Text}
    (harm : ∀ d ∈ drives, HasArm d) :
    counters (drives.foldl (countDrive probe) v)
      = run (tick bump (countedAs probe)) (counters v) drives := by
  induction drives generalizing v with
  | nil => rfl
  | cons d rest ih =>
      rw [List.foldl_cons, ih (fun e he => harm e (List.mem_cons_of_mem _ he)),
        countDrive_counter (harm d List.mem_cons_self), run_cons]

/-! ## The values of a counter -/

/-- The values a counter enters the main loop with. -/
def IsStart (x : Option Nat) : Prop :=
  x = none ∨ x = some 0

/-- An empty counter counts from one, after the bare label. -/
theorem bump_iterate_none (k : Nat) :
    bump^[k] none = if k = 0 then none else some k := by
  induction k with
  | zero => rfl
  | succ k ih =>
      rw [Function.iterate_succ_apply', ih]
      cases k <;> rfl

theorem bump_iterate_some (m k : Nat) : bump^[k] (some m) = some (m + k) := by
  induction k with
  | zero => rfl
  | succ k ih => rw [Function.iterate_succ_apply', ih, bump, Nat.add_assoc]

/-- After the first value a counter counts, whatever it started with. -/
theorem bump_iterate_start {x : Option Nat} (hx : IsStart x) (k : Nat) :
    bump^[k] x = if k = 0 then x else some k := by
  rcases hx with rfl | rfl
  · exact bump_iterate_none k
  · rw [bump_iterate_some, Nat.zero_add]
    split
    · rename_i hk
      rw [hk]
    · rfl

/-- Two counters meet at the same number of steps, at the start only if they
    start alike. -/
theorem bump_iterate_eq_iff {x y : Option Nat} (hx : IsStart x)
    (hy : IsStart y) (i j : Nat) :
    bump^[i] x = bump^[j] y ↔ i = j ∧ (i = 0 → x = y) := by
  rw [bump_iterate_start hx, bump_iterate_start hy]
  by_cases hi : i = 0
  · by_cases hj : j = 0
    · simp [hi, hj]
    · rw [if_pos hi, if_neg hj]
      refine iff_of_false ?_ (fun h => hj (h.1 ▸ hi))
      rcases hx with rfl | rfl
      · exact fun h => nomatch h
      · exact fun h => hj (Option.some.inj h).symm
  · by_cases hj : j = 0
    · rw [if_neg hi, if_pos hj]
      refine iff_of_false ?_ (fun h => hi (h.1 ▸ hj))
      rcases hy with rfl | rfl
      · exact fun h => nomatch h
      · exact fun h => hi (Option.some.inj h)
    · simp [hi, hj]

/-- No value of a counter comes twice. -/
theorem bump_injective {x : Option Nat} (hx : IsStart x) :
    Function.Injective (fun i => bump^[i] x) :=
  fun i j h => ((bump_iterate_eq_iff hx hx i j).mp h).1

/-- The main loop starts from values that never repeat. -/
theorem isStart_startVars (drives : List Text) (c : Counter) :
    IsStart (counters (startVars script probe drives) c) := by
  have hnumbered : ∀ x, IsStart (numbered x) := by
    intro x
    cases x with
    | none => exact Or.inl rfl
    | some k =>
        rw [numbered]
        split
        · exact Or.inr rfl
        · exact Or.inl rfl
  cases script with
  | mount => cases c <;> exact hnumbered _
  | standalone => cases c <;> exact Or.inl rfl

/-- The counting pass numbers the counters it has moved on at least twice. -/
theorem startVars_mount {drives : List Text} (harm : ∀ d ∈ drives, HasArm d)
    (c : Counter) :
    counters (startVars .mount probe drives) c
      = if 1 < uses (countedAs probe) c drives then some 0 else none := by
  have hcount : counters (startVars .mount probe drives) c
      = numbered (counters (drives.foldl (countDrive probe) Vars.unset) c) := by
    cases c <;> rfl
  have hunset : counters Vars.unset c = none := by
    cases c <;> rfl
  rw [hcount, counters_foldl_countDrive harm, run_tick, hunset,
    bump_iterate_none]
  by_cases h : uses (countedAs probe) c drives = 0
  · rw [if_pos h, h]
    rfl
  · rw [if_neg h, numbered]

/-! ## Labels -/

/-- A name gives its label and number back. -/
theorem labelled_eq_iff {a b : Arm} {x y : Option Nat} :
    labelled a.label x = labelled b.label y
      ↔ a.label = b.label ∧ x = y := by
  have hhead : ∀ (a : Arm) (x : Option Nat),
      (labelled a.label x).head? = a.label.head? := by
    intro a x
    cases x with
    | none => rfl
    | some k => cases a <;> rfl
  have hlabel : ∀ a b : Arm, a.label.head? = b.label.head? →
      a.label = b.label := by
    intro a b
    cases a <;> cases b <;> decide
  constructor
  · intro h
    have hab : a.label = b.label := by
      refine hlabel a b ?_
      rw [← hhead a x, h, hhead b y]
    refine ⟨hab, ?_⟩
    rw [hab] at h
    cases x with
    | none =>
        cases y with
        | none => rfl
        | some n =>
            have hnil := List.self_eq_append_right.mp h
            exact absurd hnil Nat.toDigits_ne_nil
    | some m =>
        cases y with
        | none =>
            have hnil := List.append_right_eq_self.mp h
            exact absurd hnil Nat.toDigits_ne_nil
        | some n =>
            exact congrArg some (toDigits_injective (List.append_cancel_left h))
  · rintro ⟨hab, rfl⟩
    rw [hab]

/-! ## Collisions -/

theorem counterOf_eq_r : counterOf script probe drive = .r
    ↔ armOf script probe drive = .raid := by
  rw [counterOf]
  cases armOf script probe drive <;> decide

/-- Only `hpt*` disks take the last arm. -/
theorem armOf_eq_hpt (harm : HasArm drive) :
    armOf script probe drive = .hpt ↔ "hpt".toList <+: drive := by
  rw [armOf]
  by_cases hsd : "sd".toList <+: drive
  · rw [if_pos hsd]
    refine iff_of_false ?_ (not_hpt_of_sd hsd)
    split_ifs <;> decide
  · rw [if_neg hsd]
    by_cases hnvme : "nvme".toList <+: drive
    · rw [if_pos hnvme]
      exact iff_of_false (by decide) (not_hpt_of_nvme hnvme)
    · rw [if_neg hnvme]
      exact iff_of_true rfl ((harm.resolve_left hsd).resolve_left hnvme)

/-- Two different arms share a label only as `raid`. -/
theorem label_eq_cases {a b : Arm} (h : a.label = b.label) :
    a = b ∨ (a = .raid ∧ b = .hpt) ∨ (a = .hpt ∧ b = .raid) := by
  cases a <;> cases b <;> revert h <;> decide

/-- Every `hpt*` disk comes after at least as many NVMe and `hpt*` disks as
    there are RAID volumes; or it is the first of these, and the counters of
    the two start differently. -/
def HptApart (script : Script) (probe : Text → Smart) (differ : Prop)
    (drives : List Text) : Prop :=
  ∀ front d back, drives = front ++ d :: back → "hpt".toList <+: d →
    uses (armOf script probe) .raid drives
        ≤ uses (counterOf script probe) .n front
      ∨ uses (counterOf script probe) .n front = 0 ∧ differ

theorem uses_r (drives : List Text) :
    uses (counterOf script probe) .r drives
      = uses (armOf script probe) .raid drives := by
  refine List.countP_congr ?_
  intro d _
  rw [decide_eq_true_eq, decide_eq_true_eq, counterOf_eq_r]

/-- A RAID volume and an `hpt*` disk take different values iff that disk stands
    apart. -/
theorem no_clash {drives : List Text} (harm : ∀ d ∈ drives, HasArm d)
    {c : Counter → Option Nat} (hstart : ∀ k, IsStart (c k))
    (hapart : HptApart script probe (c .r ≠ c .n) drives) {d e : Text}
    {x : Option Nat} (hd : armOf script probe d = .raid)
    (he : armOf script probe e = .hpt)
    (hdx : (d, x) ∈ handed bump (counterOf script probe) c drives)
    (hex : (e, x) ∈ handed bump (counterOf script probe) c drives) :
    False := by
  obtain ⟨front, back, hsplit, hx⟩ := (mem_handed bump _).mp hdx
  obtain ⟨front', back', hsplit', hx'⟩ := (mem_handed bump _).mp hex
  have hkd : counterOf script probe d = .r := counterOf_eq_r.mpr hd
  have hke : counterOf script probe e = .n := by
    rw [counterOf, he]
    rfl
  rw [hkd] at hx
  rw [hke] at hx'
  have hlt : uses (counterOf script probe) .r front
      < uses (armOf script probe) .raid drives := by
    rw [← uses_r]
    exact (lt_uses_iff _).mpr ⟨front, d, back, hsplit, hkd, rfl⟩
  obtain ⟨hij, hzero⟩ :=
    (bump_iterate_eq_iff (hstart .r) (hstart .n) _ _).mp (hx.symm.trans hx')
  have hmem : e ∈ drives := by
    rw [hsplit']
    exact List.mem_append_right _ List.mem_cons_self
  rcases hapart front' e back' hsplit'
    ((armOf_eq_hpt (harm e hmem)).mp he) with hle | ⟨hnone, hne⟩
  · omega
  · exact hne (hzero (hij.trans hnone))

/-- **COLLISIONS**: from counters that start unset or at zero, the default
    mount points are distinct iff every `hpt*` disk stands apart. -/
theorem mounts_nodup_iff {drives : List Text}
    (harm : ∀ d ∈ drives, HasArm d) (hstart : ∀ k, IsStart (counters v k)) :
    (mounts script probe v drives).Nodup
      ↔ HptApart script probe (counters v .r ≠ counters v .n) drives := by
  have hkeys := handed_nodup bump (counterOf script probe)
    (fun k => bump_injective (hstart k)) drives
  rw [mounts_eq harm, List.nodup_map_iff_inj_on hkeys.of_map]
  constructor
  · intro hinj front d back hsplit hhpt
    by_contra hno
    rw [not_or, not_le, not_and] at hno
    obtain ⟨hlt, hsame⟩ := hno
    -- the RAID volume with as many before it takes the same value
    rw [← uses_r] at hlt
    obtain ⟨front', e, back', hsplit', he, huses⟩ :=
      (lt_uses_iff (counterOf script probe)).mp hlt
    have hmem : d ∈ drives := by
      rw [hsplit]
      exact List.mem_append_right _ List.mem_cons_self
    have hd : armOf script probe d = .hpt :=
      (armOf_eq_hpt (harm d hmem)).mpr hhpt
    have hkd : counterOf script probe d = .n := by
      rw [counterOf, hd]
      rfl
    have hvalue : bump^[uses (counterOf script probe) .n front] (counters v .n)
        = bump^[uses (counterOf script probe) .r front'] (counters v .r) := by
      refine (bump_iterate_eq_iff (hstart .n) (hstart .r) _ _).mpr
        ⟨huses.symm, ?_⟩
      intro hzero
      exact (not_not.mp (hsame hzero)).symm
    have hdx := (mem_handed bump (counterOf script probe)
      (c := counters v)).mpr ⟨front, back, hsplit, rfl⟩
    have hex := (mem_handed bump (counterOf script probe)
      (c := counters v)).mpr ⟨front', back', hsplit', rfl⟩
    rw [hkd, hvalue] at hdx
    rw [he] at hex
    have heq := hinj _ hdx _ hex (labelled_eq_iff.mpr ⟨by
      rw [hd, counterOf_eq_r.mp he]
      rfl, rfl⟩)
    have hde : d = e := (Prod.mk.inj heq).1
    rw [hde, he] at hkd
    exact absurd hkd (by decide)
  · rintro hapart ⟨d, x⟩ hdx ⟨e, y⟩ hey hname
    obtain ⟨hlabel, rfl⟩ := labelled_eq_iff.mp hname
    rcases label_eq_cases hlabel with harms | ⟨hd, he⟩ | ⟨hd, he⟩
    · refine List.inj_on_of_nodup_map hkeys hdx hey ?_
      rw [counterOf, counterOf, harms]
    · exact absurd (no_clash harm hstart hapart hd he hdx hey) id
    · exact absurd (no_clash harm hstart hapart he hd hey hdx) id

/-- Whether the counters of the RAID volumes and of the NVMe disks start
    differently: one of them is numbered and the other is not. -/
def StartsDiffer (script : Script) (probe : Text → Smart)
    (drives : List Text) : Prop :=
  match script with
  | .mount => ¬ (1 < uses (countedAs probe) .r drives
      ↔ 1 < uses (countedAs probe) .n drives)
  | .standalone => False

/-- Whether the two counters start apart, in terms of the disks. -/
theorem startVars_differ {drives : List Text}
    (harm : ∀ d ∈ drives, HasArm d) :
    counters (startVars script probe drives) .r
        ≠ counters (startVars script probe drives) .n
      ↔ StartsDiffer script probe drives := by
  cases script with
  | standalone => exact iff_of_false (fun h => h rfl) id
  | mount =>
      rw [startVars_mount harm, startVars_mount harm, StartsDiffer]
      by_cases hr : 1 < uses (countedAs probe) .r drives <;>
        by_cases hn : 1 < uses (countedAs probe) .n drives <;>
        simp [hr, hn]

end Passes

/-- **DEFAULT MOUNT POINTS**: in a run of either script they are distinct iff
    every `hpt*` disk comes after at least as many NVMe and `hpt*` disks as
    there are RAID volumes, or is the first of these and exactly one of the two
    counters is numbered. -/
theorem defaultMounts_nodup_iff (script : Script) (probe : Text → Smart)
    (drives : List Text) (harm : ∀ d ∈ drives, HasArm d) :
    (defaultMounts script probe drives).Nodup
      ↔ HptApart script probe (StartsDiffer script probe drives) drives := by
  rw [defaultMounts, mounts_nodup_iff harm (isStart_startVars drives)]
  simp only [HptApart, startVars_differ harm]

/-! ### A RAID volume and an `hpt*` disk -/

def noSmart : Smart := ⟨[], [], [], [], [], [], []⟩

/-- Every disk is a volume of an AVAGO card. -/
def avago : Text → Smart :=
  fun _ => { noSmart with avago := "AVAGO".toList }

/-- A volume `sda`, and the disk of a Highpoint card. -/
def hptDrives : List Text := ["sda".toList, "hptblock0n0".toList]

/-- Two volumes, two NVMe disks, and the disk of a Highpoint card. -/
def cardDrives : List Text :=
  ["sda".toList, "sdb".toList, "nvme0n1".toList, "nvme1n1".toList,
    "hptblock0n0".toList]

theorem cardDrives_arms : ∀ d ∈ cardDrives, HasArm d := by
  simp only [cardDrives, List.forall_mem_cons]
  exact ⟨Or.inl (by decide), Or.inl (by decide), Or.inr (Or.inl (by decide)),
    Or.inr (Or.inl (by decide)), Or.inr (Or.inr (by decide)),
    fun _ hd => absurd hd List.not_mem_nil⟩

/-- The law where a Highpoint disk comes to the volumes of another card. -/
theorem defaultMounts_nodup_cards :
    (defaultMounts .mount avago cardDrives).Nodup
      ↔ HptApart .mount avago (StartsDiffer .mount avago cardDrives)
          cardDrives :=
  defaultMounts_nodup_iff .mount avago cardDrives cardDrives_arms

/-- In both scripts the two get the same default, `raid`. -/
theorem defaultMounts_collide :
    (¬ ∀ (probe : Text → Smart) (drives : List Text),
        (∀ d ∈ drives, HasArm d) → (defaultMounts .mount probe drives).Nodup)
      ∧ ¬ ∀ (probe : Text → Smart) (drives : List Text),
        (∀ d ∈ drives, HasArm d) →
          (defaultMounts .standalone probe drives).Nodup := by
  have harm : ∀ d ∈ hptDrives, HasArm d := by
    intro d hd
    rcases List.mem_cons.mp hd with rfl | hd
    · exact Or.inl (by decide)
    · exact List.mem_singleton.mp hd ▸ Or.inr (Or.inr (by decide))
  constructor
  · intro hall
    exact absurd (hall avago hptDrives harm) (by decide)
  · intro hall
    exact absurd (hall avago hptDrives harm) (by decide)

/-! ## Numbered classes -/

section Classes

variable (probe : Text → Smart)

/-- The label the main loop of `mount.sh` gives a disk. -/
def classOf (drive : Text) : Text :=
  (armOf .mount probe drive).label

/-- The `$drivemount` of a disk that comes after the ones in `front`. -/
def mountOf (drives front : List Text) (drive : Text) : Text :=
  (nameDrive .mount probe
    (run (nameDrive .mount probe) (startVars .mount probe drives) front)
    drive).drivemount

/-- A class of one disk has the bare label, a larger one is numbered from zero
    in list order, and the numbers used are those below its size. -/
structure ClassNumbered (drives : List Text) : Prop where
  bare : ∀ front d back, drives = front ++ d :: back →
    uses (classOf probe) (classOf probe d) drives = 1 →
    mountOf probe drives front d = classOf probe d
  numbered : ∀ front d back, drives = front ++ d :: back →
    1 < uses (classOf probe) (classOf probe d) drives →
    mountOf probe drives front d
      = classOf probe d
        ++ Nat.toDigits 10 (uses (classOf probe) (classOf probe d) front)
  numbers : ∀ (label : Text), 1 < uses (classOf probe) label drives →
    ∀ k, k < uses (classOf probe) label drives
      ↔ ∃ front d back, drives = front ++ d :: back ∧ classOf probe d = label
        ∧ mountOf probe drives front d = label ++ Nat.toDigits 10 k

/-- A RAID volume that only the main loop takes for one. -/
def hptOnly (drive : Text) : Bool :=
  decide ("sd".toList <+: drive) && decide ((probe drive).rpm = [])
    && !raidCard (probe drive) && decide ((probe drive).hpt = "HPT".toList)

/-- Both passes sort the disks into the same classes where it matters. -/
def PassesAgree (drives : List Text) : Prop :=
  let onlyHpt := drives.countP (hptOnly probe)
  let volumes := uses (countedAs probe) .r drives
  onlyHpt = 0
    ∨ (2 ≤ volumes ∨ volumes = 0 ∧ onlyHpt = 1)
      ∧ uses (armOf .mount probe) .ssd drives ≠ 1

variable {probe} {drive : Text}

/-- SATA, SAS and NVMe disks, the disks of the first two arms. -/
def IsSdOrNvme (drive : Text) : Prop :=
  "sd".toList <+: drive ∨ "nvme".toList <+: drive

theorem IsSdOrNvme.hasArm (h : IsSdOrNvme drive) : HasArm drive :=
  h.imp id Or.inl

theorem IsSdOrNvme.arm_ne_hpt (h : IsSdOrNvme drive) :
    armOf .mount probe drive ≠ .hpt := by
  rw [Ne, armOf_eq_hpt h.hasArm]
  exact h.elim not_hpt_of_sd not_hpt_of_nvme

/-- Two such disks are of one class iff they use one counter. -/
theorem classOf_eq_iff {d e : Text} (hd : IsSdOrNvme d) (he : IsSdOrNvme e) :
    classOf probe d = classOf probe e
      ↔ counterOf .mount probe d = counterOf .mount probe e := by
  have hd' : armOf .mount probe d ≠ .hpt := hd.arm_ne_hpt
  have he' : armOf .mount probe e ≠ .hpt := he.arm_ne_hpt
  rw [classOf, classOf, counterOf, counterOf]
  generalize armOf .mount probe d = a at hd' ⊢
  generalize armOf .mount probe e = b at he' ⊢
  cases a <;> cases b <;> first | contradiction | decide

/-- The disks of a class are those of its counter. -/
theorem uses_classOf {drives : List Text}
    (hnames : ∀ d ∈ drives, IsSdOrNvme d) {d : Text} (hd : IsSdOrNvme d) :
    uses (classOf probe) (classOf probe d) drives
      = uses (counterOf .mount probe) (counterOf .mount probe d) drives := by
  refine List.countP_congr ?_
  intro e he
  rw [decide_eq_true_eq, decide_eq_true_eq,
    classOf_eq_iff (hnames e he) hd]

/-- The passes take different counters for the volumes only `HPT` tells, and
    for no other disk. -/
theorem passes_cases (h : IsSdOrNvme drive) :
    hptOnly probe drive = true ∧ counterOf .mount probe drive = .r
        ∧ countedAs probe drive = .s
      ∨ hptOnly probe drive = false
        ∧ counterOf .mount probe drive = countedAs probe drive := by
  rw [hptOnly, counterOf, armOf, countedAs]
  rcases h with hsd | hnvme
  · rw [if_pos hsd, if_pos hsd, decide_eq_true hsd, Bool.true_and]
    by_cases hrpm : (probe drive).rpm = []
    · rw [if_pos hrpm, if_pos hrpm, decide_eq_true hrpm, Bool.true_and, isRaid]
      cases hcard : raidCard (probe drive) with
      | true => exact Or.inr ⟨rfl, rfl⟩
      | false =>
          by_cases hhpt : (probe drive).hpt = "HPT".toList
          · rw [decide_eq_true hhpt]
            exact Or.inl ⟨rfl, rfl, rfl⟩
          · rw [decide_eq_false hhpt]
            exact Or.inr ⟨rfl, rfl⟩
    · rw [if_neg hrpm, if_neg hrpm, decide_eq_false hrpm]
      exact Or.inr ⟨rfl, rfl⟩
  · have hsd : ¬ "sd".toList <+: drive := fun hsd => not_nvme_of_sd hsd hnvme
    rw [if_neg hsd, if_neg hsd, if_pos hnvme, if_pos hnvme,
      decide_eq_false hsd]
    exact Or.inr ⟨rfl, rfl⟩

/-- **THE TWO PASSES**: their counts differ by the volumes only `HPT` tells,
    which one counts as SSDs and the other as RAID volumes. -/
theorem uses_passes {drives : List Text}
    (hnames : ∀ d ∈ drives, IsSdOrNvme d) :
    uses (counterOf .mount probe) .r drives
        = uses (countedAs probe) .r drives + drives.countP (hptOnly probe)
      ∧ uses (countedAs probe) .s drives
        = uses (counterOf .mount probe) .s drives
          + drives.countP (hptOnly probe)
      ∧ uses (counterOf .mount probe) .h drives
        = uses (countedAs probe) .h drives
      ∧ uses (counterOf .mount probe) .n drives
        = uses (countedAs probe) .n drives := by
  induction drives with
  | nil => exact ⟨rfl, rfl, rfl, rfl⟩
  | cons d rest ih =>
      obtain ⟨hr, hs, hh, hn⟩ :=
        ih (fun e he => hnames e (List.mem_cons_of_mem _ he))
      simp only [uses_cons, List.countP_cons]
      rcases @passes_cases probe d (hnames d List.mem_cons_self)
        with ⟨honly, hmain, hcount⟩ | ⟨honly, hsame⟩
      · rw [honly, hmain, hcount]
        simp only [if_true, reduceCtorEq, if_false]
        omega
      · rw [honly, hsame]
        simp only [Bool.false_eq_true, if_false]
        omega

/-- The naming pass is a run of counters. -/
theorem counters_run {drives : List Text} {v : Vars}
    (harm : ∀ d ∈ drives, HasArm d) :
    counters (run (nameDrive .mount probe) v drives)
      = run (tick bump (counterOf .mount probe)) (counters v) drives := by
  induction drives generalizing v with
  | nil => rfl
  | cons d rest ih =>
      rw [run_cons, ih (fun e he => harm e (List.mem_cons_of_mem _ he)),
        (nameDrive_arm (harm d List.mem_cons_self)).2, run_cons]

/-- The name of a disk: its class, and the start of the class's counter moved
    on once for every disk of the class before it. -/
theorem mountOf_eq {drives front back : List Text}
    (hnames : ∀ d ∈ drives, IsSdOrNvme d)
    (hsplit : drives = front ++ drive :: back) :
    mountOf probe drives front drive
      = labelled (classOf probe drive)
          (bump^[uses (classOf probe) (classOf probe drive) front]
            (counters (startVars .mount probe drives)
              (counterOf .mount probe drive))) := by
  have hdrive : IsSdOrNvme drive :=
    hnames drive (hsplit ▸ List.mem_append_right _ List.mem_cons_self)
  have hfront : ∀ d ∈ front, IsSdOrNvme d :=
    fun d hd => hnames d (hsplit ▸ List.mem_append_left _ hd)
  rw [mountOf, (nameDrive_arm hdrive.hasArm).1,
    counters_run (fun d hd => (hfront d hd).hasArm), run_tick,
    uses_classOf hfront hdrive]
  rfl

/-- The counting pass numbers the disk's counter just when its class has more
    than one disk. -/
def CountedRight (probe : Text → Smart) (drives : List Text) (d : Text) :
    Prop :=
  1 < uses (countedAs probe) (counterOf .mount probe d) drives
    ↔ 1 < uses (classOf probe) (classOf probe d) drives

/-- The name of a disk of a class that is counted right. -/
theorem mountOf_counted {drives front back : List Text}
    (hnames : ∀ d ∈ drives, IsSdOrNvme d)
    (hsplit : drives = front ++ drive :: back)
    (hright : CountedRight probe drives drive) :
    mountOf probe drives front drive
      = labelled (classOf probe drive)
          (bump^[uses (classOf probe) (classOf probe drive) front]
            (if 1 < uses (classOf probe) (classOf probe drive) drives
              then some 0 else none)) := by
  rw [mountOf_eq hnames hsplit,
    startVars_mount (fun d hd => (hnames d hd).hasArm)]
  simp only [CountedRight] at hright
  simp only [hright]

/-- Numbered names show that the class was counted right. -/
theorem countedRight_of_numbered {drives : List Text}
    (hnames : ∀ d ∈ drives, IsSdOrNvme d) (h : ClassNumbered probe drives)
    {d : Text} (hd : d ∈ drives) : CountedRight probe drives d := by
  have hpos : 0 < uses (classOf probe) (classOf probe d) drives :=
    List.countP_pos_iff.mpr ⟨d, hd, decide_eq_true rfl⟩
  -- the first disk of the class shows what its counter started with
  obtain ⟨front, e, back, hsplit, hclass, hzero⟩ :=
    (lt_uses_iff (classOf probe)).mp hpos
  have hmem : e ∈ drives := by
    rw [hsplit]
    exact List.mem_append_right _ List.mem_cons_self
  have hcounter := (classOf_eq_iff (hnames e hmem) (hnames d hd)).mp hclass
  have hname : mountOf probe drives front e = _ := mountOf_eq hnames hsplit
  rw [hclass, hzero, hcounter, Function.iterate_zero_apply,
    startVars_mount (fun d hd => (hnames d hd).hasArm)] at hname
  by_cases hone : 1 < uses (classOf probe) (classOf probe d) drives
  · refine iff_of_true ?_ hone
    by_contra hno
    have hnumbered := h.numbered front e back hsplit (hclass.symm ▸ hone)
    rw [hname, hclass, hzero, if_neg hno] at hnumbered
    exact absurd (List.self_eq_append_right.mp hnumbered) Nat.toDigits_ne_nil
  · refine iff_of_false ?_ hone
    intro hcount
    have hbare := h.bare front e back hsplit (by
      rw [hclass]
      omega)
    rw [hname, hclass, if_pos hcount] at hbare
    exact absurd (List.append_right_eq_self.mp hbare) Nat.toDigits_ne_nil

/-- **CLASS BY CLASS**: the names are numbered iff every disk's class is
    counted right. -/
theorem classNumbered_iff_counted {drives : List Text}
    (hnames : ∀ d ∈ drives, IsSdOrNvme d) :
    ClassNumbered probe drives ↔ ∀ d ∈ drives, CountedRight probe drives d := by
  refine ⟨fun h d hd => countedRight_of_numbered hnames h hd, ?_⟩
  intro hright
  have hmem : ∀ {front d back}, drives = front ++ d :: back → d ∈ drives :=
    fun hsplit => hsplit ▸ List.mem_append_right _ List.mem_cons_self
  have hnumbered : ∀ front d back, drives = front ++ d :: back →
      1 < uses (classOf probe) (classOf probe d) drives →
      mountOf probe drives front d
        = classOf probe d
          ++ Nat.toDigits 10 (uses (classOf probe) (classOf probe d) front) := by
    intro front d back hsplit hone
    rw [mountOf_counted hnames hsplit (hright d (hmem hsplit)), if_pos hone,
      bump_iterate_some, Nat.zero_add]
    rfl
  refine ⟨?_, hnumbered, ?_⟩
  · intro front d back hsplit hone
    have hfirst : uses (classOf probe) (classOf probe d) front
        < uses (classOf probe) (classOf probe d) drives :=
      (lt_uses_iff _).mpr ⟨front, d, back, hsplit, rfl, rfl⟩
    have hzero : uses (classOf probe) (classOf probe d) front = 0 := by
      omega
    rw [mountOf_counted hnames hsplit (hright d (hmem hsplit)), hzero,
      if_neg (by omega)]
    rfl
  · intro label hone k
    rw [lt_uses_iff]
    constructor
    · rintro ⟨front, d, back, hsplit, rfl, rfl⟩
      exact ⟨front, d, back, hsplit, rfl, hnumbered front d back hsplit hone⟩
    · rintro ⟨front, d, back, hsplit, rfl, hname⟩
      refine ⟨front, d, back, hsplit, rfl, ?_⟩
      rw [hnumbered front d back hsplit hone] at hname
      exact toDigits_injective (List.append_cancel_left hname)

/-- The same, counter by counter. -/
theorem countedRight_iff {drives : List Text}
    (hnames : ∀ d ∈ drives, IsSdOrNvme d) :
    (∀ d ∈ drives, CountedRight probe drives d)
      ↔ ∀ c, 0 < uses (counterOf .mount probe) c drives →
        (1 < uses (countedAs probe) c drives
          ↔ 1 < uses (counterOf .mount probe) c drives) := by
  constructor
  · intro h c hpos
    obtain ⟨d, hd, hc⟩ := List.countP_pos_iff.mp hpos
    have hright := h d hd
    rw [CountedRight, uses_classOf hnames (hnames d hd),
      of_decide_eq_true hc] at hright
    exact hright
  · intro h d hd
    rw [CountedRight, uses_classOf hnames (hnames d hd)]
    exact h _ (List.countP_pos_iff.mpr ⟨d, hd, decide_eq_true rfl⟩)

/-- The counter `s` is used once for each SSD. -/
theorem uses_s (drives : List Text) :
    uses (counterOf .mount probe) .s drives
      = uses (armOf .mount probe) .ssd drives := by
  refine List.countP_congr ?_
  intro d _
  rw [decide_eq_true_eq, decide_eq_true_eq, counterOf]
  cases armOf .mount probe d <;> decide

/-- The counter `hp` is never used. -/
theorem uses_hp (drives : List Text) :
    uses (counterOf .mount probe) .hp drives = 0 := by
  refine List.countP_eq_zero.mpr ?_
  intro d _
  rw [decide_eq_true_eq, counterOf]
  cases armOf .mount probe d <;> decide

/-- **THE ARITHMETIC** of the two passes. -/
theorem passesAgree_iff {drives : List Text}
    (hnames : ∀ d ∈ drives, IsSdOrNvme d) :
    (∀ c, 0 < uses (counterOf .mount probe) c drives →
        (1 < uses (countedAs probe) c drives
          ↔ 1 < uses (counterOf .mount probe) c drives))
      ↔ PassesAgree probe drives := by
  obtain ⟨hr, hs, hh, hn⟩ := @uses_passes probe drives hnames
  have hhp : uses (counterOf .mount probe) .hp drives = 0 := uses_hp drives
  rw [PassesAgree, ← uses_s]
  constructor
  · intro h
    have hvolumes := h .r
    have hssd := h .s
    omega
  · intro h c
    cases c <;> omega

end Classes

/-- **COUNTING AND NAMING**: the default mount points of SATA, SAS and NVMe
    disks are numbered class by class iff the two passes agree on them. -/
theorem classNumbered_iff (probe : Text → Smart) (drives : List Text)
    (hnames : ∀ d ∈ drives, IsSdOrNvme d) :
    ClassNumbered probe drives ↔ PassesAgree probe drives := by
  rw [classNumbered_iff_counted hnames, countedRight_iff hnames,
    passesAgree_iff hnames]

/-! ### Two disks that only `HPT` tells -/

/-- Every disk is a volume of a Highpoint card. -/
def highpoint : Text → Smart :=
  fun _ => { noSmart with hpt := "HPT".toList }

def sdDrives : List Text := ["sda".toList, "sdb".toList]

theorem sdDrives_names : ∀ d ∈ sdDrives, IsSdOrNvme d := by
  intro d hd
  rcases List.mem_cons.mp hd with rfl | hd
  · exact Or.inl (by decide)
  · exact List.mem_singleton.mp hd ▸ Or.inl (by decide)

theorem classNumbered_avago :
    ClassNumbered avago sdDrives ↔ PassesAgree avago sdDrives :=
  classNumbered_iff avago sdDrives sdDrives_names

/-- They are counted as SSDs, so the first RAID volume goes without its
    number. -/
theorem classNumbered_highpoint :
    ¬ ∀ (probe : Text → Smart) (drives : List Text),
      (∀ d ∈ drives, IsSdOrNvme d) → ClassNumbered probe drives := by
  intro hall
  have h := (hall highpoint sdDrives sdDrives_names).numbered [] "sda".toList
    ["sdb".toList] rfl (by decide)
  exact absurd h (by decide)

end SetupDriveNames
