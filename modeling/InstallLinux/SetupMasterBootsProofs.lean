import InstallLinux.SetupMasterProofs

/-! # The boots of `master.sh` — whether it comes to an end

    A driver stage reboots the machine whether its installer has worked or not,
    and the next login starts the script again from the hook that the stage has
    put back.  Every start fetches the order anew, so what it finds in it need
    not be what the one before has found.

    * `goesOn_iff`: behind any complete starts the next one goes on to the
      fixes iff none of the controllers is there or some installer has worked;
    * `master_alive_iff`: a set-up whose starts are cut off is finished or
      started again iff no start of a server went down between the two commands
      that rewrite its hook. -/

namespace SetupMaster

open ShellText ShellFiles ShellRun ShellScript
open SetupDriver SetupAutorun

/-! ## The driver stages of a start -/

/-- The body of a stage leaves the machine of the driver model. -/
theorem pass_exec (i : Install) (works : Bool) (c : Controller)
    (st : System) :
    ((Script.commands (pass i works c)).exec st).machine
      = finalState st.machine
          (passStates i.site (osType i) works (stageOf c) st.machine) := by
  rw [← pass_moments]
  exact finalState_map System.machine st _

/-- A complete stage leaves one of its moments. -/
theorem pass_exec_mem (i : Install) (works : Bool) (c : Controller)
    (st : System) :
    ((Script.commands (pass i works c)).exec st).machine
      ∈ passStates i.site (osType i) works (stageOf c) st.machine := by
  rw [pass_exec, finalState, passStates, List.getLastD_cons]
  exact List.getLastD_mem_cons

/-! ## Complete starts -/

/-- A start that nothing cuts off. -/
def masterBoot (i : Install) (st : System) (start : Start) : System :=
  (master i start).exec st

/-- The front of the script leaves the machine as it is. -/
theorem front_machine (i : Install) (st : System) :
    ((records (branding (osType i) (osVersion i))).exec
      ((sleep i).exec st)).machine = st.machine := by
  have hrecord : ∀ st' entry, st'.machine = st.machine →
      (record entry st').machine = st.machine := fun _ _ h => h
  obtain ⟨hsleep, hbranding⟩ := keeps_front i hrecord (fun _ h => h)
  exact (triple_keeps hbranding).ends _ ((triple_keeps hsleep).ends st rfl)

/-- **ONE START**: the sentinel is there afterwards iff it was there before, or
    the start has come to a controller whose installer works. -/
theorem monitor_masterBoot (i : Install) (st : System) (start : Start) :
    isFile (masterBoot i st start).machine.files .monitor = true
      ↔ isFile st.machine.files .monitor = true
        ∨ (vizOsCheck i = false ∧ (∃ c, detected i.site (stageOf c) = true)
          ∧ start.works = true) := by
  rw [masterBoot, master]
  cases hviz : vizOsCheck i with
  | true =>
      rw [if_pos rfl, exec_done]
      exact (or_iff_left (fun h => Bool.noConfusion h.1)).symm
  | false =>
      rw [if_neg Bool.false_ne_true, exec_andThen, exec_andThen]
      have hfront := front_machine i st
      generalize (records (branding (osType i) (osVersion i))).exec
        ((sleep i).exec st) = st' at hfront ⊢
      rw [← hfront]
      generalize hrest : script (later i (SetupNetplan.ipBrief start.ifs))
        = rest
      rcases drivers_cut i start.works rest st' with ⟨-, hquiet, hcut⟩
        | ⟨c, -, hfires, hcut⟩
      · -- nothing is installed, and nothing is missing
        rw [exec_of_cut hcut, ← hrest, script_exec]
        have hkept := run_invariant
          (fun s : System => isFile s.machine.files .monitor
            = isFile st'.machine.files .monitor)
          (fun s c hs => (exec_monitor c s).trans hs)
          (later i (SetupNetplan.ipBrief start.ifs)) st' rfl
        rw [hkept]
        refine (or_iff_left_of_imp ?_).symm
        rintro ⟨-, ⟨c, hc⟩, -⟩
        have hnot := hquiet c
        rw [fires, hc, Bool.true_and, Bool.not_eq_false'] at hnot
        exact hnot
      · obtain ⟨hdetected, hmonitor⟩ := detected_of_fires hfires
        obtain ⟨hsentinel, -⟩ := passStates_mem _ _ _ _ _ _
          (pass_exec_mem i start.works c st')
        rw [exec_of_cut hcut, hsentinel, hmonitor, install]
        cases start.works with
        | true =>
            exact iff_of_true (isFile_touch_self _ _)
              (Or.inr ⟨rfl, ⟨c, hdetected⟩, rfl⟩)
        | false => simp [hmonitor]

/-- A complete start, on the order it has fetched. -/
def fetchedBoot (i : Install) (st : System) (s : Fetched) : System :=
  masterBoot (withOrder i s.order) st s.start

/-- A start that comes to a controller whose installer works. -/
def Drives (i : Install) (s : Fetched) : Prop :=
  vizOsCheck (withOrder i s.order) = false
    ∧ (∃ c, detected (withOrder i s.order).site (stageOf c) = true)
    ∧ s.start.works = true

/-- The sentinel after any complete starts. -/
theorem monitor_boots (i : Install) (starts : List Fetched) :
    ∀ st : System,
      isFile (run (fetchedBoot i) st starts).machine.files .monitor = true
        ↔ isFile st.machine.files .monitor = true
          ∨ ∃ s ∈ starts, Drives i s := by
  induction starts with
  | nil =>
      intro st
      refine (or_iff_left ?_).symm
      rintro ⟨s, hs, -⟩
      exact List.not_mem_nil hs
  | cons s rest ih =>
      intro st
      have hfirst : isFile (fetchedBoot i st s).machine.files .monitor = true
          ↔ isFile st.machine.files .monitor = true ∨ Drives i s :=
        monitor_masterBoot (withOrder i s.order) st s.start
      rw [run_cons, ih, hfirst, or_assoc, List.exists_mem_cons_iff]

/-- **THE END**: behind complete starts of a machine without the sentinel, the
    next one goes on to the fixes iff `_viz_os_check` lets it, and no
    controller is there or some start has come to one whose installer works. -/
theorem goesOn_iff (i : Install) {st : System}
    (hst : isFile st.machine.files .monitor = false) (starts : List Fetched)
    (order : List Text) :
    GoesOn (withOrder i order) (run (fetchedBoot i) st starts)
      ↔ vizOsCheck (withOrder i order) = false
        ∧ ((∀ c, detected (withOrder i order).site (stageOf c) = false)
          ∨ ∃ s ∈ starts, Drives i s) := by
  have hmonitor := monitor_boots i starts st
  rw [hst, or_iff_right Bool.false_ne_true] at hmonitor
  rw [GoesOn]
  refine and_congr_right ?_
  intro hviz
  constructor
  · intro hquiet
    by_cases hany : ∃ c, detected (withOrder i order).site (stageOf c) = true
    · obtain ⟨c, hc⟩ := hany
      have hnot := hquiet c
      rw [fires, hc, Bool.true_and, Bool.not_eq_false'] at hnot
      exact Or.inr (hmonitor.mp hnot)
    · exact Or.inl (fun c => Bool.eq_false_iff.mpr (fun hc => hany ⟨c, hc⟩))
  · rintro (hnone | hworks) c
    · rw [fires, hnone c, Bool.false_and]
    · rw [fires, hmonitor.mpr hworks]
      exact Bool.and_false _

/-! ## The autorun model -/

/-- The machines agree but for the boot loader's file. -/
structure SameBut (m m' : SetupDriver.Machine) : Prop where
  files : ∀ p, p ≠ Path.grub → m'.files p = m.files p
  installed : m'.installed = m.installed

theorem SameBut.refl (m : SetupDriver.Machine) : SameBut m m :=
  ⟨fun _ _ => rfl, rfl⟩

theorem SameBut.trans {m m' m'' : SetupDriver.Machine} (h : SameBut m m')
    (h' : SameBut m' m'') : SameBut m m'' :=
  ⟨fun p hp => (h'.files p hp).trans (h.files p hp),
    h'.installed.trans h.installed⟩

/-- A command of the fixes. -/
theorem sameBut_exec {c : Command} (hc : ∀ ostype, c ≠ .stop ostype)
    (st : System) : SameBut st.machine (c.exec st).machine := by
  cases c with
  | run entry => exact .refl _
  | grub e =>
      refine ⟨fun p hp => ?_, rfl⟩
      exact Function.update_of_ne hp _ _
  | network edit => exact .refl _
  | stop ostype => exact absurd rfl (hc ostype)

/-- The end of the autorun reads and writes the hooks only. -/
theorem SameBut.stopAutorun {m m' : SetupDriver.Machine} (h : SameBut m m')
    (ostype : OsType) :
    SameBut (SetupAutorun.stopAutorun ostype m)
      (SetupAutorun.stopAutorun ostype m') := by
  cases ostype with
  | server =>
      refine ⟨fun p hp => ?_, h.installed⟩
      show editFile m'.files .bashrc (sedDelete installDir) p
        = editFile m.files .bashrc (sedDelete installDir) p
      by_cases hbashrc : p = .bashrc
      · rw [hbashrc, editFile, editFile, Function.update_self,
          Function.update_self, h.files .bashrc (by decide)]
      · rw [editFile, editFile, Function.update_of_ne hbashrc,
          Function.update_of_ne hbashrc, h.files p hp]
  | desktop =>
      refine ⟨fun p hp => ?_, h.installed⟩
      show removeFile m'.files .profileHook p = removeFile m.files .profileHook p
      by_cases hprofile : p = .profileHook
      · rw [hprofile, removeFile, removeFile, Function.update_self,
          Function.update_self]
      · rw [removeFile, removeFile, Function.update_of_ne hprofile,
          Function.update_of_ne hprofile, h.files p hp]

/-- What is behind the stages ends with the end of the autorun. -/
theorem later_machine (i : Install) (ip : List Text) (st : System) :
    SameBut (SetupAutorun.stopAutorun (gnome i (osType i)) st.machine)
      (run Command.exec st (later i ip)).machine := by
  have hfront : ∀ c ∈ (installs i).map Command.run ++ mobofixCommands (fixed i)
      ++ netmanCommands (fixed i).ostype ip ++ grubtimeCommands,
      ∀ ostype, c ≠ .stop ostype := by
    have hrun : ∀ entry ostype, Command.run entry ≠ .stop ostype :=
      fun _ _ h => nomatch h
    have hgrub : ∀ e ostype, Command.grub e ≠ .stop ostype :=
      fun _ _ h => nomatch h
    have hnetwork : ∀ edit ostype, Command.network edit ≠ .stop ostype :=
      fun _ _ h => nomatch h
    simp only [List.forall_mem_append, List.forall_mem_map]
    exact ⟨⟨⟨fun entry _ => hrun entry,
      forall_mobofix (fun _ => hrun _) hgrub _⟩,
      forall_netman (fun _ => hrun _) hnetwork _ _⟩,
      forall_grubtime (fun _ => hrun _) hgrub⟩
  rw [later, run_append]
  generalize (installs i).map Command.run ++ mobofixCommands (fixed i)
    ++ netmanCommands (fixed i).ostype ip ++ grubtimeCommands = cs at hfront ⊢
  have hsame : SameBut st.machine (run Command.exec st cs).machine := by
    have hkeeps : (script cs).Keeps
        (fun s => SameBut st.machine s.machine) :=
      keeps_script (fun c hc s hs => hs.trans (sameBut_exec (hfront c hc) s))
    have hends := (triple_keeps hkeeps).ends st (.refl st.machine)
    rwa [script_exec] at hends
  exact hsame.stopAutorun _

/-- **REFINEMENT**: but for the boot loader's file, which that model leaves
    alone, a complete start is a run of the autorun model. -/
theorem masterBoot_refines (i : Install) (st : System) (start : Start) :
    SameBut (masterStep i st.machine start.works)
      (masterBoot i st start).machine := by
  rw [masterBoot, master, masterStep, masterRun]
  cases hviz : vizOsCheck i with
  | true =>
      rw [if_pos rfl, if_pos rfl, exec_done]
      exact .refl _
  | false =>
      rw [if_neg Bool.false_ne_true, if_neg Bool.false_ne_true, exec_andThen,
        exec_andThen]
      have hfront := front_machine i st
      generalize (records (branding (osType i) (osVersion i))).exec
        ((sleep i).exec st) = st' at hfront ⊢
      rw [← hfront]
      have hlater := later_machine i (SetupNetplan.ipBrief start.ifs) st'
      rw [← script_exec] at hlater
      generalize script (later i (SetupNetplan.ipBrief start.ifs)) = rest
        at hlater ⊢
      -- the first stage that fires is the same in both
      have hpass : ∀ c, finalState st'.machine
          (passStates i.site (osType i) start.works (stageOf c) st'.machine)
          = ((Script.commands (pass i start.works c)).exec st').machine :=
        fun c => (pass_exec i start.works c st').symm
      simp only [drivers, exec_branch, driverStates, stageStates]
      cases h1 : fires i.site st'.machine hp7505 with
      | true => exact hpass .hp7505 ▸ .refl _
      | false =>
          cases h2 : fires i.site st'.machine hp640L with
          | true => exact hpass .hp640L ▸ .refl _
          | false =>
              cases h3 : fires i.site st'.machine hp3720c with
              | true => exact hpass .hp3720c ▸ .refl _
              | false => exact hlater

/-! ## Starts that are cut off -/

/-- `#Stop autorun` has been reached. -/
def Finished (st : System) : Prop := Call.stop ∈ st.log.map Prod.fst

/-- The file that a login runs the script from. -/
def hookFile : OsType → SetupDriver.Path
  | .server => .bashrc
  | .desktop => .profileHook

/-- A line of it starts the script. -/
def Hooked (ostype : OsType) (f : Files SetupDriver.Path) : Prop :=
  startedBy f (hookFile ostype) masterCall = true

instance (ostype : OsType) (f : Files SetupDriver.Path) :
    Decidable (Hooked ostype f) :=
  inferInstanceAs (Decidable (_ = true))

/-- Finished, or started again by the next login. -/
def Alive (i : Install) (st : System) : Prop :=
  Finished st ∨ Hooked (osType i) st.machine.files

/-- The hook file has no line without a newline. -/
def HookEnded (i : Install) (st : System) : Prop :=
  Ended st.machine.files (hookFile (osType i))

/-- A login starts the script if its hook is there; the start is cut off. -/
def login (i : Install) (st : System) (s : Fetched × Nat) : System :=
  if Hooked (osType i) st.machine.files then fetchedCut i st s else st

/-- A server goes down between the two commands of a driver stage that rewrite
    its hook. -/
def Stranded (i : Install) (st : System) (s : Fetched × Nat) : Prop :=
  ¬ Finished st ∧ osType i = .server ∧ Hooked .server st.machine.files
    ∧ vizOsCheck (withOrder i s.1.order) = false
    ∧ (∃ c, fires (withOrder i s.1.order).site st.machine (stageOf c) = true)
    ∧ s.2 = 3

section Alive

variable {i : Install} {st : System}

theorem Finished.record (h : Finished st) (entry : Entry) :
    Finished (record entry st) := by
  show Call.stop ∈ (st.log ++ [entry]).map Prod.fst
  rw [List.map_append]
  exact List.mem_append_left _ h

theorem Hooked.congr {ostype : OsType} {f f' : Files SetupDriver.Path}
    (h : Hooked ostype f)
    (hsame : f' (hookFile ostype) = f (hookFile ostype)) :
    Hooked ostype f' :=
  (startedBy_congr hsame masterCall).trans h

/-- The hook is neither the sentinel nor the boot loader's file. -/
theorem hookFile_ne (ostype : OsType) :
    hookFile ostype ≠ .monitor ∧ hookFile ostype ≠ .grub := by
  cases ostype <;> decide

/-- Only the end of the autorun takes a hook away. -/
theorem Alive.exec (h : Alive i st) (c : Command) : Alive i (c.exec st) := by
  cases c with
  | run entry => exact h.imp (fun h => h.record entry) id
  | grub e =>
      exact h.imp id (fun h => h.congr (editFile_ne (hookFile_ne _).2 _))
  | network edit => exact h
  | stop ostype =>
      refine Or.inl ?_
      show Call.stop ∈ (st.log ++ [(Call.stop, stopLine ostype)]).map Prod.fst
      rw [List.map_append]
      exact List.mem_append_right _ List.mem_cons_self

/-- The commands of a stage are not the end of the autorun. -/
theorem finished_pass {works : Bool} {c : Controller} {f : System → System}
    (hf : f ∈ pass i works c) (st : System) : Finished (f st) ↔ Finished st := by
  rcases List.mem_cons.mp hf with rfl | hf
  · show Call.stop ∈ (st.log
      ++ (installers c).map (Prod.mk (Call.driver c))).map Prod.fst ↔ _
    rw [List.map_append, List.mem_append, List.map_map]
    refine or_iff_left ?_
    intro hmem
    obtain ⟨line, -, hline⟩ := List.mem_map.mp hmem
    exact nomatch hline
  · rcases List.mem_cons.mp hf with rfl | hf
    · exact Iff.rfl
    · obtain ⟨edit, -, rfl⟩ := List.mem_map.mp hf
      exact Iff.rfl

/-- The installers leave the hook alone. -/
theorem hooked_installDriver {ostype : OsType} (works : Bool)
    (c : Controller) (h : Hooked ostype st.machine.files) :
    Hooked ostype (installDriver works c st).machine.files := by
  refine h.congr ?_
  show (install (stageOf c) works st.machine).files (hookFile ostype) = _
  rw [install]
  cases works with
  | false => rfl
  | true => exact touch_ne (hookFile_ne ostype).1

theorem hooked_grubFix {ostype : OsType} (site : Site) (c : Controller)
    (h : Hooked ostype st.machine.files) :
    Hooked ostype
      (onMachine (grubFix site (stageOf c)) st).machine.files := by
  refine h.congr ?_
  show (grubFix site (stageOf c) st.machine).files (hookFile ostype) = _
  rw [grubFix]
  split
  · exact editGrub_other _ (hookFile_ne ostype).2 _
  · rfl

/-- No command of a stage takes a newline away. -/
theorem ended_pass {works : Bool} {c : Controller} {f : System → System}
    (hf : f ∈ pass i works c) {p : SetupDriver.Path}
    (h : Ended st.machine.files p) : Ended (f st).machine.files p := by
  rcases List.mem_cons.mp hf with rfl | hf
  · show Ended (install (stageOf c) works st.machine).files p
    rw [install]
    cases works with
    | false => exact h
    | true => exact h.touch _
  rcases List.mem_cons.mp hf with rfl | hf
  · show Ended (grubFix i.site (stageOf c) st.machine).files p
    rw [grubFix]
    split
    · exact run_invariant (fun f : Files SetupDriver.Path => Ended f p)
        (fun _ _ h => h.editFile _ _) _ _ h
    · exact h
  obtain ⟨edit, hedit, rfl⟩ := List.mem_map.mp hf
  show Ended (edit st.machine.files) p
  cases hos : osType i with
  | server =>
      simp only [hos, hookCommands, List.mem_cons, List.not_mem_nil,
        or_false] at hedit
      rcases hedit with rfl | rfl
      · exact h.editFile _ _
      · exact h.appendLine _ _
  | desktop =>
      simp only [hos, hookCommands, List.mem_cons, List.not_mem_nil,
        or_false] at hedit
      rcases hedit with rfl | rfl | rfl
      · exact h.removeFile _
      · exact h.appendLine _ _
      · exact h.appendLine _ _

/-- On a desktop a stage only adds to the hook. -/
theorem keeps_pass_desktop (hos : osType i = .desktop) (works : Bool)
    (c : Controller) :
    (Script.commands (pass i works c)).Keeps
      (fun st => Alive i st ∧ HookEnded i st) := by
  refine keeps_commands ?_
  rintro f hf st ⟨hst, hended⟩
  refine ⟨hst.imp (finished_pass hf st).mpr (fun h => ?_), ended_pass hf hended⟩
  rcases List.mem_cons.mp hf with rfl | hf
  · exact hooked_installDriver works c h
  rcases List.mem_cons.mp hf with rfl | hf
  · exact hooked_grubFix i.site c h
  obtain ⟨edit, hedit, rfl⟩ := List.mem_map.mp hf
  have hlast : Ended st.machine.files .profileHook := by
    rw [HookEnded, hos] at hended
    exact hended
  rw [hos] at hedit h ⊢
  have happend : ∀ line, Hooked .desktop (appendLine st.machine.files
      .profileHook line) := by
    intro line
    rw [Hooked, hookFile, hlast.startedBy_appendLine,
      show startedBy st.machine.files .profileHook masterCall = true from h,
      Bool.true_or]
  simp only [hookCommands, List.mem_cons, List.not_mem_nil, or_false] at hedit
  rcases hedit with rfl | rfl | rfl
  · have hother : Path.profileHook ≠ .profileDotHook := by decide
    exact h.congr (removeFile_ne hother)
  · exact happend _
  · exact happend _

/-- **A SERVER'S STAGE**: the hook is there but behind its third command. -/
theorem pass_cut_server (hos : osType i = .server) (works : Bool)
    (c : Controller) (hdone : ¬ Finished st)
    (h : Hooked .server st.machine.files) (hended : HookEnded i st) (n : Nat) :
    Alive i ((Script.commands (pass i works c)).cut st n) ↔ n ≠ 3 := by
  have hpass : pass i works c
      = [installDriver works c, onMachine (grubFix i.site (stageOf c)),
        onMachine (onFiles (editFile · .bashrc (sedDelete installDir))),
        onMachine (onFiles (appendLine · .bashrc masterCall))] := by
    rw [pass, hos]
    rfl
  have hinstalled := hooked_installDriver works c h
  have hfixed := hooked_grubFix i.site c hinstalled
  -- what the second half of the stage starts from
  have hfirst : installDriver works c ∈ pass i works c := List.mem_cons_self
  have hsecond : onMachine (grubFix i.site (stageOf c)) ∈ pass i works c :=
    List.mem_cons_of_mem _ List.mem_cons_self
  have hhalf : Ended (onMachine (grubFix i.site (stageOf c))
      (installDriver works c st)).machine.files .bashrc := by
    rw [HookEnded, hos] at hended
    exact ended_pass hsecond (ended_pass hfirst hended)
  rw [cut_commands, hpass, Alive, hos]
  rcases n with _ | _ | _ | _ | n
  · exact iff_of_true (Or.inr h) (by decide)
  · exact iff_of_true (Or.inr hinstalled) (by decide)
  · exact iff_of_true (Or.inr hfixed) (by decide)
  · -- the lines with the folder are gone, and no new one has come
    refine iff_of_false ?_ (fun hne => hne rfl)
    rintro (hfinished | hhooked)
    · exact hdone ((finished_pass hfirst st).mp hfinished)
    · obtain ⟨line, hline, hstarts⟩ := List.any_eq_true.mp hhooked
      have hcalls := installDir_infix_masterCall.trans
        (infix_of_startsCall hstarts)
      have hnone : grep installDir (linesOf (editFile
          (onMachine (grubFix i.site (stageOf c))
            (installDriver works c st)).machine.files .bashrc
          (sedDelete installDir)) Path.bashrc) = true :=
        grep_eq_true.mpr ⟨line, hline, hcalls⟩
      rw [linesOf_editFile_self _ _ rfl, grep_sedDelete] at hnone
      exact Bool.false_ne_true hnone
  · refine iff_of_true (Or.inr ?_) (by omega)
    rw [List.take_of_length_le (by simp)]
    have hlast := (hhalf.editFile .bashrc
      (sedDelete installDir)).startedBy_appendLine masterCall masterCall
    show startedBy (appendLine _ Path.bashrc masterCall) Path.bashrc masterCall
      = true
    exact hlast.trans (Bool.or_eq_true_iff.mpr (Or.inr rfl))

/-- A server has nothing in front of the stages. -/
theorem front_server (hos : osType i = .server) (rest : Script System)
    (st : System) (n : Nat) :
    ((sleep i).andThen ((records (branding (osType i) (osVersion i))).andThen
      rest)).cut st n = rest.cut st n := by
  have hbranding : records (branding (osType i) (osVersion i)) = .done := by
    rw [hos]
    rfl
  have hsleep : sleep i = .branch (fun st => st.sleepFlag) .done .done := by
    rw [sleep, hos]
    rfl
  rw [hbranding, hsleep]
  show (Script.branch (fun st => st.sleepFlag) rest rest).cut st n = _
  rw [cut_branch, ite_self]

/-- No command takes the end back. -/
theorem keeps_finished (start : Start) : (master i start).Keeps Finished := by
  have hrecord : ∀ st entry, Finished st → Finished (record entry st) :=
    fun _ entry h => h.record entry
  obtain ⟨hsleep, hbranding⟩ := keeps_front i hrecord (fun _ h => h)
  rw [master]
  generalize later i (SetupNetplan.ipBrief start.ifs) = cs
  have hscript : (script cs).Keeps Finished := by
    refine keeps_script (fun c _ st hst => ?_)
    cases c with
    | run entry => exact hst.record entry
    | grub e => exact hst
    | network edit => exact hst
    | stop ostype => exact hst.record _
  have hpass : ∀ c, (Script.commands (pass i start.works c)).Keeps Finished :=
    fun c => keeps_commands (fun f hf st hst => (finished_pass hf st).mpr hst)
  split
  · exact trivial
  · exact keeps_andThen hsleep
      (keeps_andThen hbranding (keeps_drivers hpass hscript))

/-- No command of the fixes takes a newline away. -/
theorem ended_exec {p : SetupDriver.Path} (h : Ended st.machine.files p)
    (c : Command) : Ended (c.exec st).machine.files p := by
  cases c with
  | run entry => exact h
  | grub e => exact h.editFile _ _
  | network edit => exact h
  | stop ostype =>
      cases ostype with
      | server => exact h.editFile _ _
      | desktop => exact h.removeFile _

/-- No command of the script takes a newline away. -/
theorem keeps_ended (start : Start) (p : SetupDriver.Path) :
    (master i start).Keeps (fun st => Ended st.machine.files p) := by
  have hrecord : ∀ st entry, Ended st.machine.files p →
      Ended (record entry st).machine.files p := fun _ _ h => h
  obtain ⟨hsleep, hbranding⟩ := keeps_front i hrecord (fun _ h => h)
  rw [master]
  generalize later i (SetupNetplan.ipBrief start.ifs) = cs
  split
  · exact trivial
  · exact keeps_andThen hsleep (keeps_andThen hbranding (keeps_drivers
      (fun c => keeps_commands (fun f hf st h => ended_pass hf h))
      (keeps_script (fun c _ _ h => ended_exec h c))))

/-- On a desktop no cut takes the hook away. -/
theorem keeps_master_desktop (hos : osType i = .desktop) (start : Start) :
    (master i start).Keeps (fun st => Alive i st ∧ HookEnded i st) := by
  have hrecord : ∀ st entry, Alive i st ∧ HookEnded i st →
      Alive i (record entry st) ∧ HookEnded i (record entry st) :=
    fun _ entry h => ⟨h.1.imp (fun h => h.record entry) id, h.2⟩
  obtain ⟨hsleep, hbranding⟩ := keeps_front i hrecord (fun _ h => h)
  rw [master]
  generalize later i (SetupNetplan.ipBrief start.ifs) = cs
  split
  · exact trivial
  · exact keeps_andThen hsleep (keeps_andThen hbranding
      (keeps_drivers (keeps_pass_desktop hos start.works)
        (keeps_script (fun c _ _ h => ⟨h.1.exec c, ended_exec h.2 c⟩))))

/-- **ONE LOGIN**: the set-up goes on unless it is stranded. -/
theorem alive_login (h : Alive i st) (hended : HookEnded i st)
    (s : Fetched × Nat) : Alive i (login i st s) ↔ ¬ Stranded i st s := by
  obtain ⟨⟨order, start⟩, n⟩ := s
  rw [login]
  by_cases hhooked : Hooked (osType i) st.machine.files
  · rw [if_pos hhooked]
    show Alive i ((master (withOrder i order) start).cut st n) ↔ _
    by_cases hdone : Finished st
    · exact iff_of_true
        (Or.inl ((triple_keeps (keeps_finished start)).cut hdone n))
        (fun hs => hs.1 hdone)
    · cases hos : osType i with
      | desktop =>
          have hboth : Alive (withOrder i order) st
              ∧ HookEnded (withOrder i order) st := ⟨h, hended⟩
          refine iff_of_true
            ((triple_keeps (keeps_master_desktop (i := withOrder i order) hos
              start)).cut hboth n).1 ?_
          intro hs
          rw [hs.2.1] at hos
          exact nomatch hos
      | server =>
          rw [hos] at hhooked
          have hstranded : Stranded i st (⟨order, start⟩, n)
              ↔ vizOsCheck (withOrder i order) = false
                ∧ (∃ c, fires (withOrder i order).site st.machine (stageOf c)
                  = true) ∧ n = 3 :=
            ⟨fun hs => hs.2.2.2, fun hs => ⟨hdone, hos, hhooked, hs⟩⟩
          rw [master, hstranded]
          cases hviz : vizOsCheck (withOrder i order) with
          | true =>
              rw [if_pos rfl, cut_done]
              exact iff_of_true h (fun hs => Bool.noConfusion hs.1)
          | false =>
              rw [if_neg Bool.false_ne_true, front_server (i := withOrder i order) hos]
              generalize later (withOrder i order)
                (SetupNetplan.ipBrief start.ifs) = cs
              rcases drivers_cut (withOrder i order) start.works (script cs) st
                with ⟨-, hquiet, hcut⟩ | ⟨c, -, hfires, hcut⟩
              · -- no stage fires, and nothing else takes the hook away
                rw [hcut]
                have hkeeps : (script cs).Keeps (Alive i) :=
                  keeps_script (fun c _ _ hst => hst.exec c)
                refine iff_of_true ((triple_keeps hkeeps).cut h n) ?_
                rintro ⟨-, ⟨c, hc⟩, -⟩
                rw [hquiet c] at hc
                exact Bool.false_ne_true hc
              · have hpass := pass_cut_server (i := withOrder i order) hos
                  start.works c hdone hhooked hended n
                rw [hcut]
                exact hpass.trans (not_congr
                  ⟨fun h3 => ⟨rfl, ⟨c, hfires⟩, h3⟩, fun hs => hs.2.2⟩)
  · rw [if_neg hhooked]
    refine iff_of_true h (fun hs => hhooked ?_)
    rw [hs.2.1]
    exact hs.2.2.1

theorem ended_login (h : HookEnded i st) (s : Fetched × Nat) :
    HookEnded i (login i st s) := by
  rw [login]
  split
  · exact (triple_keeps (keeps_ended s.1.start _)).cut h s.2
  · exact h

/-- Nothing starts a stranded set-up. -/
theorem not_alive_login (h : ¬ Alive i st) (s : Fetched × Nat) :
    ¬ Alive i (login i st s) := by
  rw [login, if_neg (fun hhooked => h (Or.inr hhooked))]
  exact h

end Alive

/-- A server whose hook is in place. -/
def hookedServer : System where
  machine := hooked .bashrc
  network := fun _ => none
  sleepFlag := false
  log := []

/-- The first installer fails, the second works. -/
theorem goesOn_640L :
    GoesOn (withOrder (with640L "Server".toList []) [])
        (run (fetchedBoot (with640L "Server".toList [])) hookedServer
          [⟨[], false, []⟩, ⟨[], true, []⟩])
      ↔ vizOsCheck (withOrder (with640L "Server".toList []) []) = false
        ∧ ((∀ c, detected (withOrder (with640L "Server".toList []) []).site
            (stageOf c) = false)
          ∨ ∃ s ∈ [⟨[], false, []⟩, (⟨[], true, []⟩ : Fetched)],
            Drives (with640L "Server".toList []) s) :=
  goesOn_iff (with640L "Server".toList []) rfl
    [⟨[], false, []⟩, ⟨[], true, []⟩] []

theorem hookEnded_hookedServer :
    HookEnded (with640L "Server".toList []) hookedServer := rfl

end SetupMaster
