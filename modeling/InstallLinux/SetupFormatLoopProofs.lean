import InstallLinux.SetupMountPromptProofs
import InstallLinux.SetupRootDriveProofs

/-! # The format loop — one partition variable for every disk

    `mount.sh` and `standalone_mount.sh` walk the disks left after the root
    drive removal, name a mount point and a partition for each, and format the
    ones the operator confirms.  `$partition` is a shell global: a disk that
    no `case` arm names keeps the partition of an earlier one, and the arm for
    `hpt*` names the partition the way the one for `sd*` does.

    * `nameDrive_partition_iff` is the law of one pass: `$partition` is the
      kernel's name for the first partition of `$drive` iff an arm names the
      disk with the right suffix (`Fits`).  The loop invariant behind it is
      that `$partition` always comes from some named disk (`FromArm`), which
      is never an unnamed one;
    * `promptLoop_trace` says what the prompts of one disk can come to, and
      `mainLoop_orderly` follows them through a run;
    * `mainLoop_call` carries the pass to every call of `_format`, and
      `consented_iff` is the law of all runs. -/

namespace SetupFormatLoop

open ShellText ShellRun SetupRootDrive SetupMountPrompt

/-! ## Probes and variables -/

/-- What `smartctl -a` shows of a disk, field by field as `awk` and `xargs`
    cut it out; empty when there is no such field. -/
structure Smart where
  rpm : Text
  avago : Text
  hpt : Text
  asr8405 : Text
  deviceModel : Text
  modelNumber : Text
  vendor : Text

/-- The shell globals of the two scripts; a counter is unset or a number. -/
structure Vars where
  s : Option Nat
  h : Option Nat
  n : Option Nat
  r : Option Nat
  hp : Option Nat
  drivemount : Text
  partition : Text

def Vars.unset : Vars := ⟨none, none, none, none, none, [], []⟩

/-- `x=$(($x + 1))`. -/
def bump : Option Nat → Option Nat
  | none => some 1
  | some k => some (k + 1)

/-- `"label"$x`. -/
def labelled (label : Text) : Option Nat → Text
  | none => label
  | some k => label ++ Nat.toDigits 10 k

inductive Script where
  | mount
  | standalone
  deriving DecidableEq

/-! ## The counting pass -/

/-- The test of the counting pass, and of the main loop of
    `standalone_mount.sh`. -/
def raidCard (smart : Smart) : Bool :=
  smart.avago = "AVAGO".toList || smart.asr8405 = "ASR8405".toList

/-- One disk in the counting pass of `mount.sh`. -/
def countDrive (probe : Text → Smart) (v : Vars) (drive : Text) : Vars :=
  let v :=
    if "sd".toList <+: drive then
      if (probe drive).rpm = [] then
        if raidCard (probe drive) then { v with r := bump v.r }
        else { v with s := bump v.s }
      else { v with h := bump v.h }
    else v
  let v := if "nvme".toList <+: drive then { v with n := bump v.n } else v
  if "hpt".toList <+: drive then { v with hp := bump v.hp } else v

/-- `if [ "$x" -gt "1" ]; then x="0"; else x=""; fi`. -/
def numbered : Option Nat → Option Nat
  | none => none
  | some k => if 1 < k then some 0 else none

/-- The counters `mount.sh` enters its main loop with. -/
def countDrives (probe : Text → Smart) (array : List Text) : Vars :=
  let v := array.foldl (countDrive probe) Vars.unset
  { v with s := numbered v.s, h := numbered v.h, n := numbered v.n,
           r := numbered v.r, hp := numbered v.hp }

def startVars (script : Script) (probe : Text → Smart) (array : List Text) :
    Vars :=
  match script with
  | .mount => countDrives probe array
  | .standalone => Vars.unset

/-! ## The main loop -/

/-- The test for a RAID volume in the main loop; only `mount.sh` asks for
    `HPT`. -/
def isRaid (script : Script) (smart : Smart) : Bool :=
  match script with
  | .mount => raidCard smart || smart.hpt = "HPT".toList
  | .standalone => raidCard smart

/-- `case "$drive" in 'sd'*)`. -/
def nameSd (script : Script) (smart : Smart) (v : Vars) (drive : Text) :
    Vars :=
  if "sd".toList <+: drive then
    if smart.rpm = [] then
      if isRaid script smart then
        { v with drivemount := labelled "raid".toList v.r,
                 partition := drive ++ "1".toList, r := bump v.r }
      else
        { v with drivemount := labelled "ssd".toList v.s,
                 partition := drive ++ "1".toList, s := bump v.s }
    else
      { v with drivemount := labelled "hdd".toList v.h,
               partition := drive ++ "1".toList, h := bump v.h }
  else v

/-- `case "$drive" in 'nvme'*)`. -/
def nameNvme (v : Vars) (drive : Text) : Vars :=
  if "nvme".toList <+: drive then
    { v with drivemount := labelled "nvme".toList v.n,
             partition := drive ++ "p1".toList, n := bump v.n }
  else v

/-- `case "$drive" in 'hpt'*)`: the label is `raid`, the counter that of the
    NVMe disks. -/
def nameHpt (v : Vars) (drive : Text) : Vars :=
  if "hpt".toList <+: drive then
    { v with drivemount := labelled "raid".toList v.n,
             partition := drive ++ "1".toList, n := bump v.n }
  else v

/-- The three `case` statements at the head of a pass. -/
def nameDrive (script : Script) (probe : Text → Smart) (v : Vars)
    (drive : Text) : Vars :=
  nameHpt (nameNvme (nameSd script (probe drive) v drive) drive) drive

/-- `$drivename`: the first of the three fields that is there. -/
def drivename (smart : Smart) : Text :=
  if smart.deviceModel = [] then
    if smart.modelNumber = [] then smart.vendor else smart.modelNumber
  else smart.deviceModel

/-- What `_format` works with. -/
structure FormatCall where
  drive : Text
  partition : Text
  drivename : Text
  mount : Text
  deriving DecidableEq

/-- What a run does, in order. -/
inductive Action where
  /-- the question about a disk, and the answer -/
  | prompted (drive : Text) (yn : Text)
  | format (call : FormatCall)
  deriving DecidableEq

variable {σ : Type}

/-- `while true; do … read yn …`: what it does, and which answers are left for
    the next disk, each as `read` stores it; nothing when it is still waiting
    for the operator. -/
def promptLoop (D : Dirs σ) (smart : Smart) (drive : Text) (v : Vars) :
    List Text → σ → List Action × Option (List Text × σ)
  | [], _ => ([], none)
  | yn :: answers, fs =>
      if isYes yn then
        match mountPrompt D v.drivemount answers fs with
        | none => ([.prompted drive yn], none)
        | some p =>
            ([.prompted drive yn,
              .format ⟨drive, v.partition, drivename smart, p.mount⟩],
              some (p.answers, p.fs))
      else if isNo yn then ([.prompted drive yn], some (answers, fs))
      else
        (.prompted drive yn :: (promptLoop D smart drive v answers fs).1,
          (promptLoop D smart drive v answers fs).2)

/-- What a run did, and whether it reached its end. -/
structure MainRun where
  actions : List Action
  finished : Bool

/-- `for drive in "${array[@]}"`. -/
def mainLoop (D : Dirs σ) (script : Script) (probe : Text → Smart) :
    List Text → Vars → List Text → σ → MainRun
  | [], _, _, _ => ⟨[], true⟩
  | drive :: rest, v, answers, fs =>
      let v := nameDrive script probe v drive
      match promptLoop D (probe drive) drive v answers fs with
      | (actions, none) => ⟨actions, false⟩
      | (actions, some (answers, fs)) =>
          let later := mainLoop D script probe rest v answers fs
          ⟨actions ++ later.actions, later.finished⟩

/-- The main run on the disks left in `array`. -/
def mainRun (D : Dirs σ) (script : Script) (probe : Text → Smart)
    (array answers : List Text) (fs : σ) : MainRun :=
  mainLoop D script probe array (startVars script probe array) answers fs

/-! ## The kernel's names -/

def endsInDigit (name : Text) : Bool :=
  match name.getLast? with
  | some c => c.isDigit
  | none => false

/-- What the kernel puts between a disk's name and a partition number. -/
def separator (disk : Text) : Text :=
  if endsInDigit disk then "p".toList else []

def firstPartition (disk : Text) : Text :=
  disk ++ (separator disk ++ "1".toList)

/-- The name is that of a partition of the disk. -/
def PartitionOf (partition disk : Text) : Prop :=
  ∃ number : Text, number ≠ [] ∧ (∀ c ∈ number, c.isDigit = true)
    ∧ partition = disk ++ (separator disk ++ number)

instance (partition disk : Text) : Decidable (PartitionOf partition disk) :=
  let stem := disk ++ separator disk
  let number := partition.drop stem.length
  decidable_of_iff (stem <+: partition ∧ number ≠ []
      ∧ number.all Char.isDigit = true) (by
    rw [List.all_eq_true]
    constructor
    · rintro ⟨⟨t, rfl⟩, h⟩
      rw [show number = t from List.drop_left] at h
      exact ⟨t, h.1, h.2, List.append_assoc _ _ _⟩
    · rintro ⟨t, hne, hdigits, rfl⟩
      rw [show number = t from by
        simp only [number, stem, ← List.append_assoc, List.drop_left]]
      exact ⟨⟨t, List.append_assoc _ _ _⟩, hne, hdigits⟩)

/-- An arm of the main loop names the disk. -/
def HasArm (drive : Text) : Prop :=
  "sd".toList <+: drive ∨ "nvme".toList <+: drive ∨ "hpt".toList <+: drive

instance (drive : Text) : Decidable (HasArm drive) :=
  inferInstanceAs (Decidable (_ ∨ _ ∨ _))

/-- The arm that names the disk uses the kernel's separator. -/
def Fits (drive : Text) : Prop :=
  ("sd".toList <+: drive ∨ "hpt".toList <+: drive)
      ∧ endsInDigit drive = false
    ∨ "nvme".toList <+: drive ∧ endsInDigit drive = true

/-- What the matching arm appends to the disk's name. -/
def armSuffix (drive : Text) : Text :=
  if "nvme".toList <+: drive then "p1".toList else "1".toList

/-! ## One pass: the partition variable -/

/-- Two arms whose patterns begin differently do not match one name. -/
theorem not_prefix_of_head {a b : Char} {s t drive : Text} (hne : a ≠ b)
    (h : a :: s <+: drive) : ¬ b :: t <+: drive := by
  obtain ⟨rest, rfl⟩ := h
  rintro ⟨rest', heq⟩
  exact hne (List.cons.inj heq).1.symm

theorem not_hpt_of_nvme {drive : Text} (h : "nvme".toList <+: drive) :
    ¬ "hpt".toList <+: drive :=
  not_prefix_of_head (by decide) h

theorem not_nvme_of_sd {drive : Text} (h : "sd".toList <+: drive) :
    ¬ "nvme".toList <+: drive :=
  not_prefix_of_head (by decide) h

theorem not_hpt_of_sd {drive : Text} (h : "sd".toList <+: drive) :
    ¬ "hpt".toList <+: drive :=
  not_prefix_of_head (by decide) h

/-- The first arm names the partition of an `sd*` disk. -/
theorem nameSd_partition (script : Script) (smart : Smart) (v : Vars)
    (drive : Text) :
    (nameSd script smart v drive).partition
      = if "sd".toList <+: drive then drive ++ "1".toList
        else v.partition := by
  rw [nameSd]
  split
  · split
    · split <;> rfl
    · rfl
  · rfl

/-- A pass sets the partition iff an arm names the disk. -/
theorem nameDrive_partition (script : Script) (probe : Text → Smart)
    (v : Vars) (drive : Text) :
    (nameDrive script probe v drive).partition
      = if HasArm drive then drive ++ armSuffix drive else v.partition := by
  rw [nameDrive, nameHpt, nameNvme, armSuffix]
  by_cases hsd : "sd".toList <+: drive
  · have harm : HasArm drive := Or.inl hsd
    rw [if_neg (not_hpt_of_sd hsd), if_neg (not_nvme_of_sd hsd),
      nameSd_partition, if_pos hsd, if_pos harm,
      if_neg (not_nvme_of_sd hsd)]
  · by_cases hnvme : "nvme".toList <+: drive
    · have harm : HasArm drive := Or.inr (Or.inl hnvme)
      rw [if_neg (not_hpt_of_nvme hnvme), if_pos hnvme, if_pos harm,
        if_pos hnvme]
    · by_cases hhpt : "hpt".toList <+: drive
      · have harm : HasArm drive := Or.inr (Or.inr hhpt)
        rw [if_pos hhpt, if_pos harm, if_neg hnvme, if_neg hnvme]
      · have harm : ¬ HasArm drive := by
          rintro (h | h | h) <;> contradiction
        rw [if_neg hhpt, if_neg hnvme, nameSd_partition, if_neg hsd,
          if_neg harm]

/-- A disk that fits is named by an arm. -/
theorem Fits.hasArm {drive : Text} (h : Fits drive) : HasArm drive := by
  rcases h with ⟨hsd | hhpt, -⟩ | ⟨hnvme, -⟩
  · exact Or.inl hsd
  · exact Or.inr (Or.inr hhpt)
  · exact Or.inr (Or.inl hnvme)

/-- The arm names the kernel's partition iff its suffix fits. -/
theorem armSuffix_iff {drive : Text} (harm : HasArm drive) :
    drive ++ armSuffix drive = firstPartition drive ↔ Fits drive := by
  rw [firstPartition, List.append_cancel_left_eq]
  rw [armSuffix, separator]
  by_cases hnvme : "nvme".toList <+: drive
  · have hno : ¬ ("sd".toList <+: drive ∨ "hpt".toList <+: drive) := by
      rintro (h | h)
      · exact not_nvme_of_sd h hnvme
      · exact not_hpt_of_nvme hnvme h
    rw [if_pos hnvme]
    -- the suffix is `p1`, the kernel's after a digit
    cases hd : endsInDigit drive with
    | true => exact iff_of_true rfl (Or.inr ⟨hnvme, hd⟩)
    | false =>
        refine iff_of_false (by decide) ?_
        rintro (⟨h, -⟩ | ⟨-, h⟩)
        · exact hno h
        · rw [hd] at h
          exact nomatch h
  · have hyes : "sd".toList <+: drive ∨ "hpt".toList <+: drive := by
      rcases harm with h | h | h
      · exact Or.inl h
      · exact absurd h hnvme
      · exact Or.inr h
    -- the suffix is `1`, the kernel's after a letter
    rw [if_neg hnvme]
    cases hd : endsInDigit drive with
    | true =>
        refine iff_of_false (by decide) ?_
        rintro (⟨-, h⟩ | ⟨h, -⟩)
        · rw [hd] at h
          exact nomatch h
        · exact hnvme h
    | false => exact iff_of_true rfl (Or.inl ⟨hyes, hd⟩)

/-- The loop invariant: the partition is unset or that of some named disk. -/
def FromArm (drives : List Text) (partition : Text) : Prop :=
  partition = []
    ∨ ∃ w ∈ drives, HasArm w ∧ partition = w ++ armSuffix w

/-- **STEP INVARIANT** of the partition variable. -/
theorem fromArm_nameDrive (script : Script) (probe : Text → Smart)
    {drives : List Text} {v : Vars} {drive : Text} (hdrive : drive ∈ drives)
    (hv : FromArm drives v.partition) :
    FromArm drives (nameDrive script probe v drive).partition := by
  rw [nameDrive_partition]
  by_cases harm : HasArm drive
  · rw [if_pos harm]
    exact Or.inr ⟨drive, hdrive, harm, rfl⟩
  · rw [if_neg harm]
    exact hv

theorem fromArm_nameDrives (script : Script) (probe : Text → Smart)
    {drives : List Text} :
    ∀ (passed : List Text) (v : Vars), (∀ d ∈ passed, d ∈ drives) →
      FromArm drives v.partition →
      FromArm drives (passed.foldl (nameDrive script probe) v).partition := by
  intro passed
  induction passed with
  | nil => intro v _ hv; exact hv
  | cons drive rest ih =>
      intro v hpassed hv
      exact ih _ (fun d hd => hpassed d (List.mem_cons_of_mem _ hd))
        (fromArm_nameDrive script probe (hpassed drive List.mem_cons_self) hv)

theorem countDrive_partition (probe : Text → Smart) (v : Vars)
    (drive : Text) : (countDrive probe v drive).partition = v.partition := by
  rw [countDrive]
  split_ifs <;> rfl

theorem startVars_partition (script : Script) (probe : Text → Smart)
    (array : List Text) : (startVars script probe array).partition = [] := by
  cases script with
  | standalone => rfl
  | mount =>
      show (array.foldl (countDrive probe) Vars.unset).partition = []
      have hfold : ∀ (drives : List Text) (v : Vars),
          (drives.foldl (countDrive probe) v).partition = v.partition := by
        intro drives
        induction drives with
        | nil => intro v; rfl
        | cons drive rest ih =>
            intro v
            rw [List.foldl_cons, ih, countDrive_partition]
      exact hfold array Vars.unset

theorem hasArm_append_p {drive : Text} (h : HasArm (drive ++ ['p'])) :
    HasArm drive := by
  have hcut : ∀ arm : Text, arm.getLast? ≠ some 'p' →
      arm <+: drive ++ ['p'] → arm <+: drive := by
    intro arm hlast hpre
    rcases List.prefix_concat_iff.mp hpre with heq | hpre
    · rw [heq, List.getLast?_append] at hlast
      exact absurd rfl hlast
    · exact hpre
  exact h.imp (hcut _ (by decide))
    (Or.imp (hcut _ (by decide)) (hcut _ (by decide)))

/-- A partition left over from a named disk is never that of an unnamed
    one. -/
theorem stale_partition {drives : List Text} {partition drive : Text}
    (hv : FromArm drives partition) (harm : ¬ HasArm drive) :
    partition ≠ firstPartition drive := by
  intro heq
  have hone : ∀ t : Text, t ++ "p1".toList = (t ++ ['p']) ++ "1".toList :=
    fun t => (List.append_assoc t ['p'] ['1']).symm
  rw [firstPartition, separator] at heq
  rcases hv with hnil | ⟨w, -, hw, hpart⟩
  · rw [hnil] at heq
    cases hd : endsInDigit drive <;> simp [hd] at heq
  · rw [hpart] at heq
    rw [armSuffix] at heq
    by_cases hnvme : "nvme".toList <+: w
    · rw [if_pos hnvme] at heq
      cases hd : endsInDigit drive with
      | true =>
          rw [hd, if_pos rfl] at heq
          exact harm (List.append_cancel_right heq ▸ hw)
      | false =>
          -- `w` with a `p` behind is matched by the arm of `w`
          rw [hd, if_neg (by decide), hone] at heq
          have hdrive : w ++ ['p'] = drive := List.append_cancel_right heq
          refine harm (Or.inr (Or.inl ?_))
          exact hdrive ▸ hnvme.trans (List.prefix_append w ['p'])
    · rw [if_neg hnvme] at heq
      cases hd : endsInDigit drive with
      | true =>
          -- an arm that matches with a `p` behind matches without it
          rw [hd, if_pos rfl] at heq
          have heq' : w ++ "1".toList = (drive ++ ['p']) ++ "1".toList :=
            heq.trans (hone drive)
          have hw' : w = drive ++ ['p'] := List.append_cancel_right heq'
          exact harm (hasArm_append_p (hw' ▸ hw))
      | false =>
          rw [hd, if_neg (by decide)] at heq
          exact harm (List.append_cancel_right heq ▸ hw)

/-- **ONE PASS**: the partition is the kernel's name for the first partition
    of the disk iff the disk fits. -/
theorem nameDrive_partition_iff (script : Script) (probe : Text → Smart)
    {drives : List Text} {v : Vars} (hv : FromArm drives v.partition)
    (drive : Text) :
    (nameDrive script probe v drive).partition = firstPartition drive
      ↔ Fits drive := by
  rw [nameDrive_partition]
  by_cases harm : HasArm drive
  · rw [if_pos harm]
    exact armSuffix_iff harm
  · rw [if_neg harm]
    exact iff_of_false (stale_partition hv harm) (fun h => harm h.hasArm)

/-! ## The prompts -/

/-- The disk an action is about. -/
def Action.drive : Action → Text
  | .prompted drive _ => drive
  | .format call => call.drive

/-- What the loop of one disk can do, with its variables. -/
inductive PromptTrace (drive : Text) (v : Vars) : List Action → Prop where
  /-- still waiting for an answer -/
  | waiting : PromptTrace drive v []
  /-- confirmed, and waiting for a mount point -/
  | mounting (yn : Text) (hyes : isYes yn = true) :
      PromptTrace drive v [.prompted drive yn]
  | refused (yn : Text) : PromptTrace drive v [.prompted drive yn]
  | formatted (yn : Text) (hyes : isYes yn = true) (drivename mount : Text) :
      PromptTrace drive v
        [.prompted drive yn, .format ⟨drive, v.partition, drivename, mount⟩]
  /-- neither `[Yy]*` nor `[Nn]*`: asked again -/
  | again (yn : Text) (hno : isNo yn = false) {actions : List Action}
      (h : PromptTrace drive v actions) :
      PromptTrace drive v (.prompted drive yn :: actions)

/-- The loop of one disk leaves such a trace. -/
theorem promptLoop_trace (D : Dirs σ) (smart : Smart) (drive : Text)
    (v : Vars) :
    ∀ (answers : List Text) (fs : σ),
      PromptTrace drive v (promptLoop D smart drive v answers fs).1 := by
  intro answers
  induction answers with
  | nil => intro fs; exact PromptTrace.waiting
  | cons yn answers ih =>
      intro fs
      rw [promptLoop]
      by_cases hyes : isYes yn = true
      · rw [if_pos hyes]
        cases mountPrompt D v.drivemount answers fs with
        | none => exact PromptTrace.mounting yn hyes
        | some p => exact PromptTrace.formatted yn hyes _ _
      · rw [if_neg hyes]
        by_cases hno : isNo yn = true
        · rw [if_pos hno]
          exact PromptTrace.refused yn
        · rw [if_neg hno]
          exact PromptTrace.again yn (Bool.eq_false_iff.mpr hno) (ih fs)

/-- The loop of one disk is about that disk. -/
theorem PromptTrace.drive_eq {drive : Text} {v : Vars} {actions : List Action}
    (h : PromptTrace drive v actions) : ∀ a ∈ actions, a.drive = drive := by
  induction h with
  | waiting => intro a ha; exact nomatch ha
  | mounting yn _ =>
      intro a ha
      rw [List.mem_singleton.mp ha]
      rfl
  | refused yn =>
      intro a ha
      rw [List.mem_singleton.mp ha]
      rfl
  | formatted yn _ drivename mount =>
      intro a ha
      rcases List.mem_cons.mp ha with rfl | ha
      · rfl
      · rw [List.mem_singleton.mp ha]
        rfl
  | again yn _ _ ih =>
      intro a ha
      rcases List.mem_cons.mp ha with rfl | ha
      · rfl
      · exact ih a ha

/-- **ONE PROMPT**: the loop formats what the variables say, right after a
    `[Yy]*` and never after a `[Nn]*`. -/
theorem PromptTrace.format {drive : Text} {v : Vars} {actions : List Action}
    (h : PromptTrace drive v actions) :
    ∀ (before after : List Action) (call : FormatCall),
      actions = before ++ .format call :: after →
      call.partition = v.partition
        ∧ (∃ yn, isYes yn = true ∧ .prompted drive yn ∈ before)
        ∧ ∀ a ∈ before, ∃ yn, isNo yn = false ∧ a = .prompted drive yn := by
  induction h with
  | waiting =>
      intro before after call h
      exact absurd h.symm (by simp)
  | mounting yn _ =>
      intro before after call h
      rcases List.singleton_eq_append_iff.mp h with ⟨-, h⟩ | ⟨-, h⟩
      · exact nomatch h
      · exact nomatch h
  | refused yn =>
      intro before after call h
      rcases List.singleton_eq_append_iff.mp h with ⟨-, h⟩ | ⟨-, h⟩
      · exact nomatch h
      · exact nomatch h
  | formatted yn hyes drivename mount =>
      intro before after call h
      rcases List.append_eq_cons_iff.mp h.symm
        with ⟨-, h⟩ | ⟨front, rfl, hrest⟩
      · exact nomatch h
      · rcases List.singleton_eq_append_iff.mp hrest
          with ⟨rfl, hcall⟩ | ⟨-, h⟩
        · obtain ⟨hcall, -⟩ := List.cons.inj hcall
          rw [Action.format.inj hcall]
          refine ⟨rfl, ⟨yn, hyes, List.mem_singleton.mpr rfl⟩, ?_⟩
          intro a ha
          exact ⟨yn, isNo_of_isYes hyes, List.mem_singleton.mp ha⟩
        · exact nomatch h
  | again yn hno _ ih =>
      intro before after call h
      -- asked again: the answer stands in front of the later ones
      rcases List.append_eq_cons_iff.mp h.symm
        with ⟨-, h⟩ | ⟨front, rfl, hrest⟩
      · exact nomatch h
      · obtain ⟨hpart, ⟨yn', hyes', hmem⟩, hall⟩ := ih front after call hrest
        refine ⟨hpart, ⟨yn', hyes', List.mem_cons_of_mem _ hmem⟩, ?_⟩
        intro b hb
        rcases List.mem_cons.mp hb with rfl | hb
        · exact ⟨yn, hno, rfl⟩
        · exact hall b hb

/-- A run is the loop of its first disk, then nothing more or a run on the
    other disks. -/
theorem mainLoop_cons (D : Dirs σ) (script : Script) (probe : Text → Smart)
    (drive : Text) (rest : List Text) (v : Vars) (answers : List Text)
    (fs : σ) :
    ∃ own later,
      (mainLoop D script probe (drive :: rest) v answers fs).actions
          = own ++ later
        ∧ PromptTrace drive (nameDrive script probe v drive) own
        ∧ (later = [] ∨ ∃ answers' fs', later
          = (mainLoop D script probe rest (nameDrive script probe v drive)
              answers' fs').actions) := by
  have htrace := promptLoop_trace D (probe drive) drive
    (nameDrive script probe v drive) answers fs
  rw [mainLoop]
  rcases hloop : promptLoop D (probe drive) drive
    (nameDrive script probe v drive) answers fs with ⟨actions, next⟩
  rw [hloop] at htrace
  cases next with
  | none =>
      exact ⟨actions, [], (List.append_nil actions).symm, htrace, Or.inl rfl⟩
  | some left =>
      exact ⟨actions, _, rfl, htrace, Or.inr ⟨left.1, left.2, rfl⟩⟩

/-- Every action of a run is about one of its disks. -/
theorem mainLoop_drive (D : Dirs σ) (script : Script)
    (probe : Text → Smart) :
    ∀ (drives : List Text) (v : Vars) (answers : List Text) (fs : σ),
      ∀ a ∈ (mainLoop D script probe drives v answers fs).actions,
        a.drive ∈ drives := by
  intro drives
  induction drives with
  | nil => intro v answers fs a ha; exact nomatch ha
  | cons drive rest ih =>
      intro v answers fs a ha
      obtain ⟨own, later, hactions, hown, hlater⟩ :=
        mainLoop_cons D script probe drive rest v answers fs
      rw [hactions, List.mem_append] at ha
      rcases ha with ha | ha
      · rw [hown.drive_eq a ha]
        exact List.mem_cons_self
      · rcases hlater with rfl | ⟨answers', fs', rfl⟩
        · exact nomatch ha
        · exact List.mem_cons_of_mem _ (ih _ _ _ a ha)

/-- What the prompts of a run guarantee about a call of `_format`, whatever
    partition it works on. -/
structure Orderly (before : List Action) (call : FormatCall) : Prop where
  asked : ∃ yn, isYes yn = true ∧ .prompted call.drive yn ∈ before
  refused : ∀ yn, .prompted call.drive yn ∈ before → isNo yn = false
  once : ∀ earlier, .format earlier ∈ before → earlier.drive ≠ call.drive

/-- A `[Yy]*` behind other answers is orderly. -/
theorem orderly_of_prompt {before : List Action} {call : FormatCall}
    (hyes : ∃ yn, isYes yn = true ∧ .prompted call.drive yn ∈ before)
    (hall : ∀ a ∈ before, ∃ yn, isNo yn = false
      ∧ a = .prompted call.drive yn) : Orderly before call where
  asked := hyes
  refused := by
    intro yn hyn
    obtain ⟨yn', hno, heq⟩ := hall _ hyn
    obtain ⟨-, rfl⟩ := Action.prompted.inj heq
    exact hno
  once := by
    intro earlier hearlier
    obtain ⟨yn', -, heq⟩ := hall _ hearlier
    exact nomatch heq

/-- Earlier passes were about other disks. -/
theorem Orderly.prepend {before front : List Action} {call : FormatCall}
    (h : Orderly before call) (hfront : ∀ a ∈ front, a.drive ≠ call.drive) :
    Orderly (front ++ before) call where
  asked := by
    obtain ⟨yn, hyes, hmem⟩ := h.asked
    exact ⟨yn, hyes, List.mem_append_right _ hmem⟩
  refused := by
    intro yn hyn
    rcases List.mem_append.mp hyn with hyn | hyn
    · exact absurd rfl (hfront _ hyn)
    · exact h.refused yn hyn
  once := by
    intro earlier hearlier
    rcases List.mem_append.mp hearlier with hearlier | hearlier
    · exact hfront _ hearlier
    · exact h.once earlier hearlier

/-- **ALL PROMPTS**: every call of `_format` comes after a `[Yy]*` for its own
    disk, after no `[Nn]*` for it and after no other format of it. -/
theorem mainLoop_orderly (D : Dirs σ) (script : Script)
    (probe : Text → Smart) :
    ∀ (drives : List Text), drives.Nodup →
      ∀ (v : Vars) (answers : List Text) (fs : σ)
        (before after : List Action) (call : FormatCall),
        (mainLoop D script probe drives v answers fs).actions
          = before ++ .format call :: after →
        Orderly before call := by
  intro drives
  induction drives with
  | nil =>
      intro _ v answers fs before after call h
      exact absurd h.symm (by simp [mainLoop])
  | cons drive rest ih =>
      intro hnodup v answers fs before after call h
      obtain ⟨hnot, hrest⟩ := List.nodup_cons.mp hnodup
      obtain ⟨own, later, hactions, hown, hlater⟩ :=
        mainLoop_cons D script probe drive rest v answers fs
      rw [hactions] at h
      rcases split_append h with ⟨after', hsplit⟩ | ⟨mid, rfl, hsplit⟩
      · -- a call in the loop of this disk
        have hcall : call.drive = drive :=
          hown.drive_eq (.format call) (by simp [hsplit])
        obtain ⟨-, hyes, hall⟩ := hown.format _ _ _ hsplit
        exact orderly_of_prompt (hcall.symm ▸ hyes) (hcall.symm ▸ hall)
      · -- a call in a later pass, about another disk
        rcases hlater with rfl | ⟨answers', fs', rfl⟩
        · exact absurd hsplit.symm (by simp)
        · have hcall : call.drive ∈ rest :=
            mainLoop_drive D script probe rest _ _ _ (.format call)
              (by rw [hsplit]; exact List.mem_append_right _ List.mem_cons_self)
          refine (ih hrest _ _ _ mid after call hsplit).prepend ?_
          intro a ha
          rw [hown.drive_eq a ha]
          rintro rfl
          exact hnot hcall

/-- **ALL CALLS**: every call of `_format` is made with the partition that the
    pass of its disk has named, from variables that keep the invariant. -/
theorem mainLoop_call (D : Dirs σ) (script : Script) (probe : Text → Smart)
    {drives : List Text} :
    ∀ (rest : List Text), (∀ d ∈ rest, d ∈ drives) →
      ∀ (v : Vars), FromArm drives v.partition →
      ∀ (answers : List Text) (fs : σ) (call : FormatCall),
        .format call ∈ (mainLoop D script probe rest v answers fs).actions →
        ∃ w : Vars, FromArm drives w.partition ∧ call.drive ∈ drives
          ∧ call.partition
            = (nameDrive script probe w call.drive).partition := by
  intro rest
  induction rest with
  | nil => intro _ v _ answers fs call h; exact nomatch h
  | cons drive rest ih =>
      intro hrest v hv answers fs call h
      obtain ⟨own, later, hactions, hown, hlater⟩ :=
        mainLoop_cons D script probe drive rest v answers fs
      have hdrive : drive ∈ drives := hrest drive List.mem_cons_self
      rw [hactions, List.mem_append] at h
      rcases h with h | h
      · -- the pass of this disk
        obtain ⟨before, after, hsplit⟩ := List.append_of_mem h
        have hcall : call.drive = drive := hown.drive_eq _ h
        obtain ⟨hpart, -, -⟩ := hown.format _ _ _ hsplit
        exact ⟨v, hv, hcall ▸ hdrive, by rw [hpart, hcall]⟩
      · rcases hlater with rfl | ⟨answers', fs', rfl⟩
        · exact nomatch h
        · exact ih (fun d hd => hrest d (List.mem_cons_of_mem _ hd)) _
            (fromArm_nameDrive script probe hdrive hv) _ _ call h

/-- Whatever the disks, a call works on a partition some arm has named. -/
theorem mainRun_fromArm (D : Dirs σ) (script : Script) (probe : Text → Smart)
    {array answers : List Text} {fs : σ} {call : FormatCall}
    (h : .format call
      ∈ (mainRun D script probe array answers fs).actions) :
    FromArm array call.partition := by
  obtain ⟨w, hw, hdrive, hpart⟩ := mainLoop_call D script probe array
    (fun _ hd => hd) _ (Or.inl (startVars_partition script probe array))
    answers fs call h
  rw [hpart]
  exact fromArm_nameDrive script probe hdrive hw

/-- **ONE CALL**: it works on the kernel's first partition of its disk iff the
    disk fits. -/
theorem mainRun_coherent_iff (D : Dirs σ) (script : Script)
    (probe : Text → Smart) {array answers : List Text} {fs : σ}
    {call : FormatCall}
    (h : .format call
      ∈ (mainRun D script probe array answers fs).actions) :
    call.partition = firstPartition call.drive ↔ Fits call.drive := by
  obtain ⟨w, hw, -, hpart⟩ := mainLoop_call D script probe array
    (fun _ hd => hd) _ (Or.inl (startVars_partition script probe array))
    answers fs call h
  rw [hpart]
  exact nameDrive_partition_iff script probe hw call.drive

/-! ## The law of all runs -/

/-- `sfdisk` or `mkfs` writes to the disk. -/
def FormatCall.Touches (call : FormatCall) (disk : Text) : Prop :=
  disk = call.drive ∨ PartitionOf call.partition disk

/-- Every write of a run is one its operator agreed to. -/
structure Consented (disks : List Text) (actions : List Action) : Prop where
  coherent : ∀ call, .format call ∈ actions →
    call.partition = firstPartition call.drive
  asked : ∀ before call after, actions = before ++ .format call :: after →
    ∀ d ∈ disks, call.Touches d →
      ∃ yn, isYes yn = true ∧ .prompted d yn ∈ before
  refused : ∀ before call after, actions = before ++ .format call :: after →
    ∀ d ∈ disks, call.Touches d →
      ∀ yn, .prompted d yn ∈ before → isNo yn = false
  once : ∀ before call after, actions = before ++ .format call :: after →
    ∀ d ∈ disks, call.Touches d →
      ∀ earlier, .format earlier ∈ before → ¬ earlier.Touches d

theorem endsInDigit_append_p (disk : Text) :
    endsInDigit (disk ++ ['p']) = false := by
  simp [endsInDigit]

theorem endsInDigit_append_digit (disk : Text) {c : Char}
    (hc : c.isDigit = true) : endsInDigit (disk ++ [c]) = true := by
  simp [endsInDigit, hc]

/-- A disk's name with its separator never ends in a digit. -/
theorem endsInDigit_separator (disk : Text) :
    endsInDigit (disk ++ separator disk) = false := by
  rw [separator]
  cases hd : endsInDigit disk with
  | true => exact endsInDigit_append_p disk
  | false => rw [if_neg (by decide), List.append_nil, hd]

/-- Of two disks that fit, one name is not the other with a `p` behind. -/
theorem Fits.ne_append_p {disk other : Text} (hdisk : Fits disk)
    (hdigit : endsInDigit disk = true) (hother : Fits other) :
    disk ++ ['p'] ≠ other := by
  rintro rfl
  have hnvme : "nvme".toList <+: disk := by
    rcases hdisk with ⟨-, h⟩ | ⟨h, -⟩
    · rw [hdigit] at h
      exact nomatch h
    · exact h
  have hnvme' := hnvme.trans (List.prefix_append disk ['p'])
  rcases hother with ⟨h | h, -⟩ | ⟨-, h⟩
  · exact not_nvme_of_sd h hnvme'
  · exact not_hpt_of_nvme hnvme' h
  · rw [endsInDigit_append_p] at h
    exact nomatch h

/-- Among disks that fit, a first partition belongs to one disk. -/
theorem Fits.partitionOf_eq {disk other : Text} (hdisk : Fits disk)
    (hother : Fits other) (h : PartitionOf (firstPartition disk) other) :
    other = disk := by
  obtain ⟨number, hne, hdigits, heq⟩ := h
  rcases List.eq_nil_or_concat' number with rfl | ⟨front, c, rfl⟩
  · exact absurd rfl hne
  · rw [firstPartition, ← List.append_assoc, ← List.append_assoc,
      ← List.append_assoc] at heq
    obtain ⟨hfront, -⟩ := List.append_inj' heq rfl
    -- nothing but the last digit is a number
    have hnil : front = [] := by
      rcases List.eq_nil_or_concat' front with rfl | ⟨front', x, rfl⟩
      · rfl
      · have hlast := endsInDigit_separator disk
        rw [hfront, ← List.append_assoc, endsInDigit_append_digit _
          (hdigits x (by simp))] at hlast
        exact nomatch hlast
    rw [hnil, List.append_nil] at hfront
    rw [separator, separator] at hfront
    -- equal up to separators: only one of the two could have a `p`
    cases hd : endsInDigit disk <;> cases ho : endsInDigit other <;>
      simp only [hd, ho, if_true, Bool.false_eq_true, if_false,
        List.append_nil] at hfront
    · exact hfront.symm
    · exact absurd hfront.symm (hother.ne_append_p ho hdisk)
    · exact absurd hfront (hdisk.ne_append_p hd hother)
    · exact (List.append_cancel_right hfront).symm

/-- Disks that fit are written to only in their own pass. -/
theorem touches_eq {call : FormatCall} {disk : Text} (hdrive : Fits call.drive)
    (hpart : call.partition = firstPartition call.drive) (hdisk : Fits disk)
    (h : call.Touches disk) : disk = call.drive := by
  rcases h with h | h
  · exact h
  · rw [hpart] at h
    exact hdrive.partitionOf_eq hdisk h

/-- A run on disks that fit is consented. -/
theorem consented_of_fits (D : Dirs σ) (script : Script)
    (probe : Text → Smart) (drives : DiskList)
    (hfits : ∀ d ∈ drives.names, Fits d) (answers : List Text) (fs : σ) :
    Consented drives.names
      (mainRun D script probe drives.names answers fs).actions := by
  have hdrive : ∀ call, .format call
      ∈ (mainRun D script probe drives.names answers fs).actions →
      call.drive ∈ drives.names :=
    fun call hcall => mainLoop_drive D script probe drives.names _ _ _ _ hcall
  have hcoherent : ∀ call, .format call
      ∈ (mainRun D script probe drives.names answers fs).actions →
      call.partition = firstPartition call.drive :=
    fun call hcall => (mainRun_coherent_iff D script probe hcall).mpr
      (hfits call.drive (hdrive call hcall))
  have horderly := mainLoop_orderly D script probe drives.names drives.nodup
    (startVars script probe drives.names) answers fs
  have hown : ∀ call d, .format call
      ∈ (mainRun D script probe drives.names answers fs).actions →
      d ∈ drives.names → call.Touches d → d = call.drive := by
    intro call d hcall hd htouch
    exact touches_eq (hfits _ (hdrive call hcall)) (hcoherent call hcall)
      (hfits d hd) htouch
  refine ⟨hcoherent, ?_, ?_, ?_⟩
  · intro before call after hsplit d hd htouch
    rw [hown call d (by simp [hsplit]) hd htouch]
    exact (horderly before after call hsplit).asked
  · intro before call after hsplit d hd htouch
    rw [hown call d (by simp [hsplit]) hd htouch]
    exact (horderly before after call hsplit).refused
  · intro before call after hsplit d hd htouch earlier hearlier htouch'
    have hmem : .format earlier
        ∈ (mainRun D script probe drives.names answers fs).actions := by
      rw [hsplit]
      exact List.mem_append_left _ hearlier
    refine (horderly before after call hsplit).once earlier hearlier ?_
    rw [← hown earlier d hmem hd htouch',
      hown call d (by simp [hsplit]) hd htouch]

/-! ### Reaching a disk -/

/-- Directories as a list of paths, every `mkdir` a success. -/
def listDirs : Dirs (List Text) where
  isDir fs path := fs.contains path
  notDir fs path := !fs.contains path
  mkdir fs path := path :: fs

/-- Refusing the first disks leads to the pass of the next one. -/
theorem mainLoop_refuse (D : Dirs σ) (script : Script) (probe : Text → Smart)
    (rest answers : List Text) (fs : σ) {a : Action} :
    ∀ (front : List Text) (v : Vars),
      a ∈ (mainLoop D script probe rest
        (front.foldl (nameDrive script probe) v) answers fs).actions →
      a ∈ (mainLoop D script probe (front ++ rest) v
        (front.map (fun _ => "N".toList) ++ answers) fs).actions := by
  intro front
  induction front with
  | nil => intro v h; exact h
  | cons drive front ih =>
      intro v h
      -- an `N` costs one answer and leaves the rest as it is
      have hno : ¬ isYes "N".toList = true := by decide
      have hno' : isNo "N".toList = true := rfl
      rw [List.cons_append, List.map_cons, List.cons_append, mainLoop]
      simp only [promptLoop, if_neg hno, if_pos hno']
      exact List.mem_append_right _ (ih _ h)

/-- Where a directory `placehold` is around, the mount prompt asks nothing. -/
theorem mountPrompt_placehold (drivemount : Text) :
    mountPrompt listDirs drivemount [] ["placehold".toList]
      = some ⟨["placehold".toList], [], "placehold".toList, []⟩ :=
  rfl

/-- There one `Y` formats the disk. -/
theorem mainLoop_format (script : Script) (probe : Text → Smart)
    (drive : Text) (rest : List Text) (v : Vars) :
    ∃ call : FormatCall, call.drive = drive
      ∧ call.partition = (nameDrive script probe v drive).partition
      ∧ .format call ∈ (mainLoop listDirs script probe (drive :: rest) v
          ["Y".toList] ["placehold".toList]).actions := by
  have hyes : isYes "Y".toList = true := rfl
  refine ⟨⟨drive, (nameDrive script probe v drive).partition,
    drivename (probe drive), "placehold".toList⟩, rfl, rfl, ?_⟩
  rw [mainLoop, promptLoop, if_pos hyes, mountPrompt_placehold]
  exact List.mem_append_left _ (List.mem_cons_of_mem _ List.mem_cons_self)

/-- Either script can be brought to format any disk of its list. -/
theorem mainRun_reaches (script : Script) (probe : Text → Smart)
    {array : List Text} {drive : Text} (hdrive : drive ∈ array) :
    ∃ (answers fs : List Text) (v : Vars) (call : FormatCall),
      FromArm array v.partition ∧ call.drive = drive
        ∧ call.partition = (nameDrive script probe v drive).partition
        ∧ .format call
          ∈ (mainRun listDirs script probe array answers fs).actions := by
  obtain ⟨front, rest, hsplit⟩ := List.append_of_mem hdrive
  have hstart : FromArm array (startVars script probe array).partition :=
    Or.inl (startVars_partition script probe array)
  have hpassed : ∀ d ∈ front, d ∈ array := by
    intro d hd
    rw [hsplit]
    exact List.mem_append_left _ hd
  obtain ⟨call, hcall, hpart, hmem⟩ := mainLoop_format script probe drive rest
    (front.foldl (nameDrive script probe) (startVars script probe array))
  have hreached := mainLoop_refuse listDirs script probe (drive :: rest)
    ["Y".toList] ["placehold".toList] front (startVars script probe array)
    hmem
  rw [← hsplit] at hreached
  exact ⟨_, _, _, call,
    fromArm_nameDrives script probe front _ hpassed hstart, hcall, hpart,
    hreached⟩

/-- **FORMAT TARGETS**: every run of either script on a list of disks writes
    only where its operator agreed iff every disk of the list fits; and in any
    run at all, a call of `_format` works on the first partition of its disk
    iff that disk fits. -/
theorem consented_iff (script : Script) (drives : DiskList) :
    ((∀ (probe : Text → Smart) (σ : Type) (D : Dirs σ) (answers : List Text)
        (fs : σ), Consented drives.names
          (mainRun D script probe drives.names answers fs).actions)
        ↔ ∀ d ∈ drives.names, Fits d)
      ∧ ∀ (probe : Text → Smart) (σ : Type) (D : Dirs σ)
        (answers : List Text) (fs : σ) (call : FormatCall),
        .format call
          ∈ (mainRun D script probe drives.names answers fs).actions →
        (call.partition = firstPartition call.drive ↔ Fits call.drive) := by
  refine ⟨⟨?_, ?_⟩, ?_⟩
  · -- refuse the disks in front of `d` and confirm it
    intro hall d hd
    let probe : Text → Smart := fun _ => ⟨[], [], [], [], [], [], []⟩
    obtain ⟨answers, fs, v, call, hv, hdrive, hpart, hmem⟩ :=
      mainRun_reaches script probe hd
    have hcoherent := (hall probe _ listDirs answers fs).coherent call hmem
    rw [hpart, hdrive] at hcoherent
    exact (nameDrive_partition_iff script probe hv d).mp hcoherent
  · intro hfits probe σ D answers fs
    exact consented_of_fits D script probe drives hfits answers fs
  · intro probe σ D answers fs call hcall
    exact mainRun_coherent_iff D script probe hcall

/-- `sda` is refused, then `mkfs` for `vda` runs on `sda1`. -/
theorem mainRun_not_consented :
    ¬ ∀ (script : Script) (drives : DiskList) (probe : Text → Smart)
        (σ : Type) (D : Dirs σ) (answers : List Text) (fs : σ),
        Consented drives.names
          (mainRun D script probe drives.names answers fs).actions := by
  intro hall
  have hconsented := hall .standalone
    ⟨["sda".toList, "vda".toList], isDiskName_of_all rfl, by decide⟩
    (fun _ => ⟨[], [], [], [], [], [], []⟩) (List Text) listDirs
    ["N".toList, "Y".toList, "/data".toList] []
  -- the refused disk is the one `mkfs` writes to
  have hno := hconsented.refused
    [.prompted "sda".toList "N".toList, .prompted "vda".toList "Y".toList]
    ⟨"vda".toList, "sda1".toList, [], "/data".toList⟩ [] rfl
    "sda".toList List.mem_cons_self
    (Or.inr ⟨['1'], by decide, List.all_eq_true.mp rfl, rfl⟩)
    "N".toList (by decide)
  exact absurd hno (by decide)

end SetupFormatLoop
