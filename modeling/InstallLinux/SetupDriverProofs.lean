import InstallLinux.ShellFilesProofs
import InstallLinux.ShellRunProofs
import Mathlib.Data.List.Nodup

/-! # The driver stages — three guards on one sentinel

    `_hp7505`, `_hp640L` and `_hp3720c` are one function with three sets of
    values: look for the controller, leave when `hptdrv-monitor` is there,
    install the driver, put the autorun hook back and reboot.  The sentinel is
    the same file for all three, and every installer creates it.

    A call is described by the state after each of its commands, so that a run
    can be cut off anywhere.  The invariant of all runs is that the sentinel
    is there iff exactly one driver has been installed (`Sentinel`);
    `drivers_installed_iff` draws the consequence. -/

namespace SetupDriver

open ShellText ShellFiles ShellRun

/-! ## The machine -/

/-- The files the stages touch. -/
inductive Path where
  /-- `~/.bashrc` -/
  | bashrc
  /-- `/etc/profile.d/master.sh` -/
  | profileHook
  /-- `/etc/profile/.d/master.sh`, which the desktop branch removes -/
  | profileDotHook
  /-- `/etc/default/grub` -/
  | grub
  /-- `/etc/init.d/hptdrv-monitor` -/
  | monitor
  deriving DecidableEq

inductive OsType where
  | server
  | desktop
  deriving DecidableEq

inductive Controller where
  | hp7505
  | hp640L
  | hp3720c
  deriving DecidableEq

/-- What the stages read about the machine. -/
structure Site where
  /-- `lspci -v` -/
  lspci : List Text
  /-- `~/install/orderdata/orderdata` -/
  order : List Text
  motherboard : Text

structure Machine where
  files : Files Path
  /-- the driver installers that have run, in order -/
  installed : List Controller

/-! ## One stage -/

/-- What the three functions differ in. -/
structure Stage where
  driver : Controller
  /-- the alternatives `grep` looks for in `lspci -v` -/
  patterns : List Text
  /-- what it looks for in the order text, if anything -/
  orderText : Option Text
  /-- the edits of `/etc/default/grub` on the one board that needs them -/
  grubEdits : List (Text × Text)

def hp7505 : Stage where
  -- its desktop branch also writes to `~/Dekstop`, a folder nobody has
  driver := .hp7505
  patterns := ["7505".toList, "SSD7505".toList]
  orderText := some "RAID Setup (Add-In Controller)".toList
  grubEdits := [(" iommu=off".toList, []),
    ("GRUB_CMDLINE_LINUX=\"iommu=off ".toList, "GRUB_CMDLINE_LINUX=\"".toList)]

def hp640L : Stage where
  driver := .hp640L
  patterns := ["640L 4 Port".toList]
  orderText := none
  grubEdits := [(" iommu=off".toList, [])]

def hp3720c : Stage where
  driver := .hp3720c
  patterns := ["Device 3720".toList]
  orderText := none
  grubEdits := [(" iommu=off".toList, [])]

/-- The function's own detection test. -/
def detected (site : Site) (g : Stage) : Bool :=
  g.patterns.any (fun pat => grep pat site.lspci)
    && (match g.orderText with
      | none => true
      | some pat => grep pat site.order)

/-- The test, and no `hptdrv-monitor`. -/
def fires (site : Site) (st : Machine) (g : Stage) : Bool :=
  detected site g && !isFile st.files .monitor

/-- The two installers; `works` when they leave the sentinel behind. -/
def install (g : Stage) (works : Bool) (st : Machine) : Machine where
  files := if works then touch st.files .monitor else st.files
  installed := st.installed ++ [g.driver]

/-- The `sed -i` calls on `/etc/default/grub`. -/
def editGrub (edits : List (Text × Text)) (f : Files Path) : Files Path :=
  edits.foldl (fun f e => editFile f .grub (sedReplace e.1 e.2)) f

def grubFix (site : Site) (g : Stage) (st : Machine) : Machine :=
  if site.motherboard = "X299 AORUS Gaming 7".toList then
    { st with files := editGrub g.grubEdits st.files }
  else st

def installDir : Text := "~/install".toList

def masterCall : Text := "~/install/master.sh".toList

/-- The autorun hook, command after command. -/
def hookFiles (ostype : OsType) (f : Files Path) : List (Files Path) :=
  match ostype with
  | .server =>
      let f1 := editFile f .bashrc (sedDelete installDir)
      [f1, appendLine f1 .bashrc masterCall]
  | .desktop =>
      let f1 := removeFile f .profileDotHook
      let f2 := appendLine f1 .profileHook "sleep 5".toList
      [f1, f2, appendLine f2 .profileHook
        ("gnome-terminal -- ".toList ++ masterCall)]

/-- The body of a stage, up to its `reboot` and `exit`. -/
def passStates (site : Site) (ostype : OsType) (works : Bool) (g : Stage)
    (st : Machine) : List Machine :=
  let st1 := install g works st
  let st2 := grubFix site g st1
  st1 :: st2 :: (hookFiles ostype st2.files).map
    (fun f => { st2 with files := f })

/-- A call of a stage; no states when it does nothing. -/
def stageStates (site : Site) (ostype : OsType) (works : Bool) (g : Stage)
    (st : Machine) : List Machine :=
  if fires site st g then passStates site ostype works g st else []

/-- `_hp7505`, `_hp640L`, `_hp3720c`: a call that does something is the last
    one of the run. -/
def driverStates (site : Site) (ostype : OsType) (works : Bool)
    (st : Machine) : List Machine :=
  match stageStates site ostype works hp7505 st with
  | s :: states => s :: states
  | [] =>
      match stageStates site ostype works hp640L st with
      | s :: states => s :: states
      | [] => stageStates site ostype works hp3720c st

/-- The stage of a controller. -/
def stageOf : Controller → Stage
  | .hp7505 => hp7505
  | .hp640L => hp640L
  | .hp3720c => hp3720c

theorem stageOf_driver (c : Controller) : (stageOf c).driver = c := by
  cases c <;> rfl

theorem passStates_ne_nil (site : Site) (ostype : OsType) (works : Bool)
    (g : Stage) (st : Machine) : passStates site ostype works g st ≠ [] :=
  List.cons_ne_nil _ _

/-- **THE CALLS**: either no stage fires, or one does and its body is all the
    run does. -/
theorem driverStates_cases (site : Site) (ostype : OsType) (works : Bool)
    (st : Machine) :
    (driverStates site ostype works st = []
        ∧ ∀ c, fires site st (stageOf c) = false)
      ∨ ∃ c, fires site st (stageOf c) = true
        ∧ driverStates site ostype works st
          = passStates site ostype works (stageOf c) st := by
  simp only [driverStates, stageStates]
  cases h1 : fires site st hp7505 with
  | true => exact Or.inr ⟨.hp7505, h1, rfl⟩
  | false =>
      cases h2 : fires site st hp640L with
      | true => exact Or.inr ⟨.hp640L, h2, rfl⟩
      | false =>
          cases h3 : fires site st hp3720c with
          | true => exact Or.inr ⟨.hp3720c, h3, rfl⟩
          | false =>
              refine Or.inl ⟨rfl, ?_⟩
              intro c
              cases c with
              | hp7505 => exact h1
              | hp640L => exact h2
              | hp3720c => exact h3

/-! ## The sentinel -/

/-- The sentinel is there iff one driver, of a controller that is there, has
    been installed. -/
def Sentinel (site : Site) (st : Machine) : Prop :=
  (isFile st.files .monitor = false ∧ st.installed = [])
    ∨ (isFile st.files .monitor = true
      ∧ ∃ c, detected site (stageOf c) = true ∧ st.installed = [c])

/-- The edits of the boot loader's file touch no other file. -/
theorem editGrub_ne (edits : List (Text × Text)) {p : Path} (hp : p ≠ .grub) :
    ∀ f : Files Path, linesOf (editGrub edits f) p = linesOf f p
      ∧ isFile (editGrub edits f) p = isFile f p := by
  induction edits with
  | nil => intro f; exact ⟨rfl, rfl⟩
  | cons e rest ih =>
      intro f
      have hrest := ih (editFile f .grub (sedReplace e.1 e.2))
      rw [linesOf_editFile_ne hp, isFile_editFile_ne hp] at hrest
      exact hrest

/-- They leave every other file as it is. -/
theorem editGrub_other (edits : List (Text × Text)) {p : Path}
    (hp : p ≠ .grub) (f : Files Path) : editGrub edits f p = f p :=
  run_invariant (fun f' : Files Path => f' p = f p)
    (fun _ _ h => (Function.update_of_ne hp _ _).trans h) edits f rfl

/-- The fix of the boot loader leaves the sentinel alone. -/
theorem grubFix_monitor (site : Site) (g : Stage) (st : Machine) :
    isFile (grubFix site g st).files .monitor = isFile st.files .monitor := by
  rw [grubFix]
  split
  · exact (editGrub_ne _ (by decide) _).2
  · rfl

theorem grubFix_installed (site : Site) (g : Stage) (st : Machine) :
    (grubFix site g st).installed = st.installed := by
  rw [grubFix]
  split <;> rfl

/-- The hook is not the sentinel. -/
theorem hookFiles_monitor (ostype : OsType) (f f' : Files Path)
    (hf' : f' ∈ hookFiles ostype f) :
    isFile f' .monitor = isFile f .monitor := by
  -- no command of the hook touches the sentinel
  have hbashrc : Path.monitor ≠ .bashrc := by decide
  have hprofile : Path.monitor ≠ .profileHook := by decide
  have hdot : Path.monitor ≠ .profileDotHook := by decide
  cases ostype with
  | server =>
      simp only [hookFiles, List.mem_cons, List.not_mem_nil, or_false] at hf'
      rcases hf' with rfl | rfl
      · rw [isFile_editFile_ne hbashrc]
      · rw [isFile_appendLine_ne hbashrc, isFile_editFile_ne hbashrc]
  | desktop =>
      simp only [hookFiles, List.mem_cons, List.not_mem_nil, or_false] at hf'
      rcases hf' with rfl | rfl | rfl
      · rw [isFile_removeFile_ne hdot]
      · rw [isFile_appendLine_ne hprofile, isFile_removeFile_ne hdot]
      · rw [isFile_appendLine_ne hprofile, isFile_appendLine_ne hprofile,
          isFile_removeFile_ne hdot]

/-- Every state of a body has the installation behind it. -/
theorem passStates_mem (site : Site) (ostype : OsType) (works : Bool)
    (g : Stage) (st : Machine) :
    ∀ s ∈ passStates site ostype works g st,
      isFile s.files .monitor = isFile (install g works st).files .monitor
        ∧ s.installed = st.installed ++ [g.driver] := by
  intro s hs
  rcases List.mem_cons.mp hs with rfl | hs
  · exact ⟨rfl, rfl⟩
  rcases List.mem_cons.mp hs with rfl | hs
  · exact ⟨grubFix_monitor _ _ _, grubFix_installed _ _ _⟩
  · obtain ⟨f, hf, rfl⟩ := List.mem_map.mp hs
    refine ⟨?_, grubFix_installed _ _ _⟩
    show isFile f .monitor = _
    rw [hookFiles_monitor ostype _ f hf, grubFix_monitor]

/-- A run of `master.sh` up to the `n`-th command of its driver stages, every
    installer leaving the sentinel behind. -/
def driverRun (site : Site) (ostype : OsType) (st : Machine) (n : Nat) :
    Machine :=
  finalState st ((driverStates site ostype true st).take n)

/-- A stage that fires has its controller, and no sentinel. -/
theorem detected_of_fires {site : Site} {st : Machine} {g : Stage}
    (h : fires site st g = true) :
    detected site g = true ∧ isFile st.files .monitor = false := by
  rw [fires, Bool.and_eq_true, Bool.not_eq_true'] at h
  exact h

/-- **STEP INVARIANT**: a run, cut off anywhere, keeps the sentinel law. -/
theorem sentinel_driverRun (site : Site) (ostype : OsType) (st : Machine)
    (n : Nat) (hst : Sentinel site st) :
    Sentinel site (driverRun site ostype st n) := by
  rcases List.mem_cons.mp (finalState_mem st
    ((driverStates site ostype true st).take n)) with heq | hmem
  · rw [driverRun, heq]
    exact hst
  · have hmem' := List.mem_of_mem_take hmem
    rcases driverStates_cases site ostype true st with ⟨hnil, -⟩ | ⟨c, hc, hpass⟩
    · rw [hnil] at hmem'
      exact nomatch hmem'
    · rw [hpass] at hmem'
      obtain ⟨hdetected, hmonitor⟩ := detected_of_fires hc
      obtain ⟨hsentinel, hinstalled⟩ := passStates_mem _ _ _ _ _ _ hmem'
      rw [driverRun, hpass]
      -- a stage fires only without the sentinel, so nothing was installed
      have hnone : st.installed = [] := by
        rcases hst with ⟨-, h⟩ | ⟨h, -⟩
        · exact h
        · rw [hmonitor] at h
          exact nomatch h
      refine Or.inr ⟨?_, c, hdetected, ?_⟩
      · rw [hsentinel]
        exact isFile_touch_self _ _
      · rw [hinstalled, hnone, stageOf_driver]
        rfl

/-- **RUN INVARIANT**: the sentinel law holds after any sequence of runs. -/
theorem sentinel_runs (site : Site) (ostype : OsType) (st : Machine)
    (runs : List Nat) (hst : Sentinel site st) :
    Sentinel site (run (driverRun site ostype) st runs) :=
  run_invariant (Sentinel site) (sentinel_driverRun site ostype) runs st hst

/-- A machine fresh from imaging. -/
def Imaged (st : Machine) : Prop :=
  isFile st.files .monitor = false ∧ st.installed = []

/-- The drivers a run that goes on to the display drivers has to find. -/
def AllInstalled (site : Site) (st : Machine) : Prop :=
  (∀ c, detected site (stageOf c) = true → c ∈ st.installed)
    ∧ st.installed.Nodup

/-- Two complete runs on a machine with controllers: the second one goes on,
    with one driver installed. -/
theorem second_run_passes (site : Site) (ostype : OsType) {st : Machine}
    (hst : Imaged st) {c : Controller}
    (hc : detected site (stageOf c) = true) :
    ∃ n, driverStates site ostype true (driverRun site ostype st n) = []
      ∧ ∃ c', (driverRun site ostype st n).installed = [c'] := by
  have hfires : fires site st (stageOf c) = true := by
    rw [fires, hc, hst.1]
    rfl
  refine ⟨(driverStates site ostype true st).length, ?_⟩
  rw [driverRun, List.take_length]
  rcases driverStates_cases site ostype true st with ⟨-, hall⟩ | ⟨c', -, hpass⟩
  · rw [hall c] at hfires
    exact nomatch hfires
  · rw [hpass]
    -- the complete body ends with the sentinel in place
    have hmem : finalState st (passStates site ostype true (stageOf c') st)
        ∈ passStates site ostype true (stageOf c') st := by
      rw [finalState, passStates, List.getLastD_cons]
      exact List.getLastD_mem_cons
    obtain ⟨hsentinel, hinstalled⟩ := passStates_mem _ _ _ _ _ _ hmem
    have hmonitor : isFile (finalState st
        (passStates site ostype true (stageOf c') st)).files .monitor
        = true := by
      rw [hsentinel]
      exact isFile_touch_self _ _
    refine ⟨?_, c', ?_⟩
    · rcases driverStates_cases site ostype true
        (finalState st (passStates site ostype true (stageOf c') st))
        with ⟨hnil, -⟩ | ⟨c'', hfires', -⟩
      · exact hnil
      · rw [(detected_of_fires hfires').2] at hmonitor
        exact nomatch hmonitor
    · rw [hinstalled, hst.2, stageOf_driver]
      rfl

/-- **EVERY CONTROLLER ITS DRIVER**: after any runs, cut off anywhere, a run
    that goes on to the display drivers finds the driver of every detected
    controller installed, each once, iff at most one of the three detection
    tests holds. -/
theorem drivers_installed_iff (site : Site) (ostype : OsType) :
    (∀ (st : Machine) (runs : List Nat), Imaged st →
        driverStates site ostype true
          (run (driverRun site ostype) st runs) = [] →
        AllInstalled site (run (driverRun site ostype) st runs))
      ↔ ∀ c c', detected site (stageOf c) = true →
        detected site (stageOf c') = true → c = c' := by
  constructor
  · intro hall c c' hc hc'
    have hst : Imaged (⟨fun _ => none, []⟩ : Machine) := ⟨rfl, rfl⟩
    obtain ⟨n, hpasses, c'', hinstalled⟩ :=
      second_run_passes site ostype hst hc
    -- both drivers would have to be the one that is installed
    have hthere := (hall _ [n] hst hpasses).1
    rw [run_cons, run_nil, hinstalled] at hthere
    rw [List.mem_singleton.mp (hthere c hc),
      List.mem_singleton.mp (hthere c' hc')]
  · intro hone st runs hst hpasses
    have hsentinel := sentinel_runs site ostype st runs (Or.inl hst)
    rcases driverStates_cases site ostype true
      (run (driverRun site ostype) st runs) with ⟨-, hquiet⟩ | ⟨c, -, hpass⟩
    · rcases hsentinel with ⟨hno, hnil⟩ | ⟨hmonitor, c, hc, hinstalled⟩
      · -- no sentinel and nothing fires: nothing is detected
        refine ⟨?_, by rw [hnil]; exact List.nodup_nil⟩
        intro c hc
        have hfires := hquiet c
        rw [fires, hc, hno] at hfires
        exact nomatch hfires
      · -- one driver is installed, and no other controller is detected
        refine ⟨?_, by rw [hinstalled]; exact List.nodup_singleton c⟩
        intro c' hc'
        rw [hinstalled, hone c' c hc' hc]
        exact List.mem_singleton.mpr rfl
    · rw [hpass] at hpasses
      exact absurd hpasses (passStates_ne_nil _ _ _ _ _)

/-- A 640L and a 3720C in one machine. -/
def twoControllers : Site where
  lspci := ["RocketRAID 640L 4 Port".toList, "HighPoint Device 3720".toList]
  order := []
  motherboard := []

/-- The 640L gets its driver, the 3720C never does. -/
theorem driver_missing :
    ¬ ∀ (site : Site) (ostype : OsType) (st : Machine) (runs : List Nat),
        Imaged st →
        driverStates site ostype true
          (run (driverRun site ostype) st runs) = [] →
        AllInstalled site (run (driverRun site ostype) st runs) := by
  intro hall
  have hst : Imaged (⟨fun _ => none, []⟩ : Machine) := ⟨rfl, rfl⟩
  have h640L : detected twoControllers (stageOf .hp640L) = true := by decide
  have h3720c : detected twoControllers (stageOf .hp3720c) = true := by decide
  obtain ⟨n, hpasses, c, hinstalled⟩ :=
    second_run_passes twoControllers .server hst h640L
  have hthere := (hall twoControllers .server _ [n] hst hpasses).1
  rw [run_cons, run_nil, hinstalled] at hthere
  have hsame := (List.mem_singleton.mp (hthere .hp640L h640L)).trans
    (List.mem_singleton.mp (hthere .hp3720c h3720c)).symm
  exact nomatch hsame

end SetupDriver
