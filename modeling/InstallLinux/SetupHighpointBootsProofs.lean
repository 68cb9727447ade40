import InstallLinux.SetupAutorunProofs
import InstallLinux.SetupHighpointProofs
import InstallLinux.ShellScriptProofs

/-! # HighPoint across starts — a hook for a script that is somewhere else

    `highpoint.sh` takes the autorun hook away from `master.sh`, puts its own
    in, and hands back when the array is built.  Its own hook calls
    `functions/highpoint.sh`, and the script is in `scripts/`: no login resumes
    it, so every start is one by hand.  A start is the list of its commands
    here, and is cut off behind any of them; the stops of `SetupHighpoint` are
    some of these cuts (`stop_is_cut`).

    * `cut_drivers_server`, `cut_build_server` and the desktop's: the two stages
      that edit the hooks, each with the one command that turns the number of
      launches of `master.sh`;
    * `launches_cut` is the step, `highpoint_handover` the law of all runs: one
      launch is left iff the hook was both taken away and handed back, or
      neither. -/

namespace SetupHighpointBoots

open ShellText ShellFiles ShellRun ShellScript SetupHighpoint

/-! ## The machine -/

inductive Path where
  /-- `~/.bashrc` -/
  | bashrc
  /-- `/etc/profile.d/master.sh` -/
  | masterHook
  /-- `/etc/profile.d/highpoint.sh` -/
  | ownHook
  /-- `/etc/profile/.d/master.sh`, which the desktop branch removes -/
  | dotHook
  /-- `/etc/default/grub` -/
  | grub
  deriving DecidableEq

structure Machine where
  setup : State
  files : Files Path

/-- What the script reads about the machine. -/
structure Site where
  /-- `lspci -v` has a 7505 -/
  card : Bool
  motherboard : Text
  ostype : SetupDriver.OsType

def onSetup (f : State → State) (mc : Machine) : Machine :=
  { mc with setup := f mc.setup }

def onFiles (edit : Files Path → Files Path) (mc : Machine) : Machine :=
  { mc with files := edit mc.files }

def scriptName : Text := "highpoint.sh".toList

/-- `sed '/pat/d'` for a pattern whose only special character is the dot. -/
def deleteDots (pat : Text) (lines : List Text) : List Text :=
  lines.filter (fun l => !grepDots pat [l])

def terminal (line : Text) : Text := "gnome-terminal -- ".toList ++ line

/-- What the hook calls. -/
def ownCall : Text := "~/install/functions/".toList ++ scriptName

/-- Where the script is. -/
def scriptCall : Text := "~/install/scripts/".toList ++ scriptName

/-! ## The script -/

def grubFix (site : Site) (f : Files Path) : Files Path :=
  if site.motherboard = "X299 AORUS Gaming 7".toList then
    editFile f .grub (sedReplace " iommu=off".toList [])
  else f

/-- The hook of `master.sh` out, that of the script in. -/
def takeHook : SetupDriver.OsType → List (Files Path → Files Path)
  | .server =>
      [(editFile · .bashrc (sedDelete SetupDriver.installDir)),
       (appendLine · .bashrc ownCall)]
  | .desktop =>
      [(removeFile · .dotHook),
       (appendLine · .ownHook "sleep 5".toList),
       (appendLine · .ownHook (terminal ownCall))]

/-- And back. -/
def handHook : SetupDriver.OsType → List (Files Path → Files Path)
  | .server =>
      [(editFile · .bashrc (deleteDots scriptName)),
       (appendLine · .bashrc SetupDriver.masterCall)]
  | .desktop =>
      [(removeFile · .ownHook),
       (appendLine · .masterHook "sleep 5".toList),
       (appendLine · .masterHook (terminal SetupDriver.masterCall))]

/-- `MAIN RUN` without `hptdrv-monitor`; `works` when the installers leave it
    behind. -/
def driverCommands (site : Site) (works : Bool) : List (Machine → Machine) :=
  [onSetup (fun st => { st with monitor := works }), onFiles (grubFix site),
   onSetup (fun st => { st with hpFlag := true })]
    ++ (takeHook site.ostype).map onFiles

/-- `Highpoint Config Step 1`, from one of its questions on. -/
def choiceCommands : List Text → Phase → List (State → State)
  | [], _ => []
  | line :: rest, .confirm =>
      if isYes line then choiceCommands rest .select
      else if isNo line then [rmHpFlag, complete]
      else choiceCommands rest .confirm
  | line :: rest, .select =>
      match arrayType line with
      | some t =>
          [saveType t, deleteArrays, rmHpFlag, touchHpFlag1]
            ++ choiceCommands rest .confirm
      | none => choiceCommands rest .pause
  | _ :: rest, .pause => choiceCommands rest .select

def createArray (st : State) : State :=
  { st with log := st.log ++ [.created (st.arraytype.getD [])] }

def rmHpFlag1 (st : State) : State := { st with hpFlag1 := false }

def rmArrayType (st : State) : State := { st with arraytype := none }

/-- `Highpoint Config Step 2`: the completion flag comes after a key. -/
def buildCommands (site : Site) (answers : List Text) :
    List (Machine → Machine) :=
  ([createArray, rmHpFlag1, rmArrayType].map onSetup
    ++ (handHook site.ostype).map onFiles)
    ++ (if answers.isEmpty then [] else [onSetup complete])

/-- `highpoint.sh`. -/
def highpoint (site : Site) (answers : List Text) (works : Bool) :
    Script Machine :=
  .branch (fun mc => mc.setup.done) .done
    (if site.card then
      .branch (fun mc => mc.setup.monitor)
        (.branch (fun mc => mc.setup.hpFlag)
          (.commands ((choiceCommands answers .confirm).map onSetup))
          (.branch (fun mc => mc.setup.hpFlag1)
            (.commands (buildCommands site answers)) .done))
        (.commands (driverCommands site works))
    else .commands [onSetup complete])

/-- A start: what `read` takes from the prompts, whether the installers work,
    and after how many commands it is cut off. -/
structure Start where
  answers : List Text
  works : Bool
  commands : Nat

def highpointCut (site : Site) (mc : Machine) (s : Start) : Machine :=
  (highpoint site s.answers s.works).cut mc s.commands

/-- What a start finds to do. -/
inductive Stage where
  | finished
  | noCard
  | drivers
  | choice
  | build
  deriving DecidableEq

def stageOf (card : Bool) (st : State) : Stage :=
  if st.done then .finished
  else if card then
    if st.monitor then
      if st.hpFlag then .choice else if st.hpFlag1 then .build else .finished
    else .drivers
  else .noCard

def Stage.commands (site : Site) (answers : List Text) (works : Bool) :
    Stage → List (Machine → Machine)
  | .finished => []
  | .noCard => [onSetup complete]
  | .drivers => driverCommands site works
  | .choice => (choiceCommands answers .confirm).map onSetup
  | .build => buildCommands site answers

/-- **ONE START**: the commands of its stage. -/
theorem highpoint_moments (site : Site) (answers : List Text) (works : Bool)
    (mc : Machine) :
    (highpoint site answers works).moments mc
      = (Script.commands ((stageOf site.card mc.setup).commands site answers
          works)).moments mc := by
  rw [highpoint, stageOf, moments_branch]
  by_cases hdone : mc.setup.done = true
  · rw [if_pos hdone, if_pos hdone]
    rfl
  rw [if_neg hdone, if_neg hdone]
  by_cases hcard : site.card = true
  · rw [if_pos hcard, if_pos hcard, moments_branch]
    by_cases hmonitor : mc.setup.monitor = true
    · rw [if_pos hmonitor, if_pos hmonitor, moments_branch]
      by_cases hflag : mc.setup.hpFlag = true
      · rw [if_pos hflag, if_pos hflag]
        rfl
      rw [if_neg hflag, if_neg hflag, moments_branch]
      by_cases hflag1 : mc.setup.hpFlag1 = true
      · rw [if_pos hflag1, if_pos hflag1]
        rfl
      · rw [if_neg hflag1, if_neg hflag1]
        rfl
    · rw [if_neg hmonitor, if_neg hmonitor]
      rfl
  · rw [if_neg hcard, if_neg hcard]
    rfl

/-- A start is a cut of the commands of its stage. -/
theorem highpoint_cut (site : Site) (mc : Machine) (s : Start) :
    highpointCut site mc s
      = (Script.commands ((stageOf site.card mc.setup).commands site s.answers
          s.works)).cut mc s.commands := by
  rw [highpointCut, Script.cut, Script.cut, highpoint_moments]

/-! ## The stops are cuts -/

/-- What the commands on the flags do to the flags. -/
theorem moments_onSetup (fs : List (State → State)) (mc : Machine) :
    ((Script.commands (fs.map onSetup)).moments mc).map Machine.setup
      = (Script.commands fs).moments mc.setup := by
  induction fs generalizing mc with
  | nil => rfl
  | cons f rest ih =>
      exact congrArg (f mc.setup :: ·) (ih (onSetup f mc))

/-- Wherever the prompt loop may stop, it has run some of its commands. -/
theorem prompts_mem :
    ∀ (answers : List Text) (phase : Phase) (rebooting : Bool) (st : State),
      ∀ m ∈ prompts answers phase rebooting st,
        m ∈ st :: (Script.commands (choiceCommands answers phase)).moments st := by
  intro answers
  induction answers with
  | nil =>
      intro phase rebooting st m hm
      exact (mem_boundaries.mp hm).2
  | cons line rest ih =>
      intro phase rebooting st m hm
      -- the machine may go down while the question stands
      have hhere : ∀ {states : List State}, m ∈ boundaries rebooting [st] →
          m ∈ st :: states := by
        intro states hm
        rw [List.mem_singleton.mp (mem_boundaries.mp hm).2]
        exact List.mem_cons_self
      cases phase with
      | confirm =>
          rw [prompts, List.mem_append] at hm
          rcases hm with hm | hm
          · exact hhere hm
          rw [choiceCommands]
          by_cases hyes : isYes line = true
          · rw [if_pos hyes] at hm ⊢
            exact ih .select rebooting st m hm
          rw [if_neg hyes] at hm ⊢
          by_cases hno : isNo line = true
          · rw [if_pos hno] at hm ⊢
            refine List.mem_cons_of_mem st ?_
            rcases List.mem_append.mp hm with hm | hm
            · rw [List.mem_singleton.mp (mem_boundaries.mp hm).2]
              exact List.mem_cons_self
            · exact List.mem_cons_of_mem _ hm
          · rw [if_neg hno] at hm ⊢
            exact ih .confirm rebooting st m hm
      | select =>
          rw [prompts, List.mem_append] at hm
          rcases hm with hm | hm
          · exact hhere hm
          rw [choiceCommands]
          cases htype : arrayType line with
          | some t =>
              simp only [htype] at hm
              show m ∈ st :: saveType t st :: deleteArrays (saveType t st)
                :: rmHpFlag (deleteArrays (saveType t st)) :: _
              refine List.mem_cons_of_mem st ?_
              rcases List.mem_append.mp hm with hm | hm
              · exact List.mem_append_left _ (mem_boundaries.mp hm).2
              · refine List.mem_append_right [_, _, _] ?_
                rcases List.mem_cons.mp hm with rfl | hm
                · exact List.mem_cons_self
                · exact ih .confirm true _ m hm
          | none =>
              simp only [htype] at hm
              exact ih .pause rebooting st m hm
      | pause =>
          rw [prompts, List.mem_append] at hm
          rcases hm with hm | hm
          · exact hhere hm
          · exact ih .select rebooting st m hm

/-- A stop of the flags' model is a moment of the script. -/
theorem stop_mem (site : Site) (mc : Machine) (s : SetupHighpoint.Start) :
    ∀ m ∈ moments site.card mc.setup s,
      ∃ t ∈ mc :: (highpoint site s.answers s.installs).moments mc,
        t.setup = m := by
  intro m hm
  -- the end of a stage is one of its moments
  have hend : ∀ {fs : List (Machine → Machine)},
      (fs.foldl (fun t f => f t) mc).setup = m →
      ∃ t ∈ mc :: (Script.commands fs).moments mc, t.setup = m := by
    intro fs hfs
    refine ⟨_, ?_, hfs⟩
    rw [← exec_commands]
    exact finalState_mem mc _
  rw [highpoint_moments, stageOf]
  rw [moments] at hm
  by_cases hdone : mc.setup.done = true
  · rw [if_pos hdone] at hm ⊢
    exact ⟨mc, List.mem_cons_self, (List.mem_singleton.mp hm).symm⟩
  rw [if_neg hdone] at hm ⊢
  by_cases hcard : site.card = true
  · rw [if_pos hcard] at hm ⊢
    by_cases hmonitor : mc.setup.monitor = true
    · rw [if_pos hmonitor] at hm ⊢
      by_cases hflag : mc.setup.hpFlag = true
      · rw [if_pos hflag] at hm ⊢
        have hmem := prompts_mem _ _ _ _ m hm
        rw [← moments_onSetup, ← List.map_cons] at hmem
        exact List.mem_map.mp hmem
      rw [if_neg hflag] at hm ⊢
      by_cases hflag1 : mc.setup.hpFlag1 = true
      · rw [if_pos hflag1] at hm ⊢
        refine hend ?_
        rw [createStage] at hm
        rw [Stage.commands, buildCommands]
        cases hanswers : s.answers with
        | nil =>
            rw [hanswers] at hm
            exact absurd hm List.not_mem_nil
        | cons line rest =>
            rw [hanswers] at hm
            rw [List.mem_singleton.mp hm]
            cases site.ostype <;> rfl
      · rw [if_neg hflag1] at hm ⊢
        exact ⟨mc, List.mem_cons_self, (List.mem_singleton.mp hm).symm⟩
    · rw [if_neg hmonitor] at hm ⊢
      refine hend ?_
      rw [installStage] at hm
      rw [Stage.commands, driverCommands]
      cases hanswers : s.answers with
      | nil =>
          rw [hanswers] at hm
          exact absurd hm List.not_mem_nil
      | cons line rest =>
          rw [hanswers] at hm
          rw [List.mem_singleton.mp hm]
          cases site.ostype <;> rfl
  · rw [if_neg hcard] at hm ⊢
    exact hend (List.mem_singleton.mp hm).symm

/-- **REFINEMENT**: whatever the flags' model finds at a stop, a start that is
    cut off somewhere leaves. -/
theorem stop_is_cut (site : Site) (mc : Machine) (s : SetupHighpoint.Start)
    {m : State} (hm : m ∈ moments site.card mc.setup s) :
    ∃ n, (highpointCut site mc ⟨s.answers, s.installs, n⟩).setup = m := by
  obtain ⟨t, ht, rfl⟩ := stop_mem site mc s m hm
  obtain ⟨n, hn⟩ := exists_cut ht
  exact ⟨n, congrArg Machine.setup hn⟩

/-! ## The hooks -/

/-- The file `master.sh` is launched from on the medium. -/
def hookFile : SetupDriver.OsType → Path
  | .server => .bashrc
  | .desktop => .masterHook

/-- How often the next login launches `master.sh`. -/
def launches (ostype : SetupDriver.OsType) (f : Files Path) : Nat :=
  SetupAutorun.entries (linesOf f (hookFile ostype))

/-- No line of `~/.bashrc` that launches `master.sh` names the script. -/
def Clean (f : Files Path) : Prop :=
  ∀ l ∈ linesOf f .bashrc, startsCall SetupDriver.masterCall l = true →
    grepDots scriptName [l] = false

/-- `n` launches, and `~/.bashrc` is clean. -/
structure Held (site : Site) (n : Nat) (mc : Machine) : Prop where
  clean : Clean mc.files
  bashrc : Ended mc.files .bashrc
  master : Ended mc.files .masterHook
  count : launches site.ostype mc.files = n

section Hooks

variable {site : Site} {n : Nat}

theorem Held.onSetup {mc : Machine} (h : Held site n mc) (f : State → State) :
    Held site n (SetupHighpointBoots.onSetup f mc) :=
  ⟨h.clean, h.bashrc, h.master, h.count⟩

/-- An edit that touches neither hook of `master.sh`. -/
theorem Held.frame {mc : Machine} (h : Held site n mc)
    {edit : Files Path → Files Path}
    (hbashrc : edit mc.files .bashrc = mc.files .bashrc)
    (hmaster : edit mc.files .masterHook = mc.files .masterHook) :
    Held site n (onFiles edit mc) where
  clean := by
    intro l hl
    exact h.clean l (linesOf_congr hbashrc ▸ hl)
  bashrc := h.bashrc.congr hbashrc
  master := h.master.congr hmaster
  count := by
    have hsame : linesOf (edit mc.files) (hookFile site.ostype)
        = linesOf mc.files (hookFile site.ostype) := by
      cases site.ostype
      · exact linesOf_congr hbashrc
      · exact linesOf_congr hmaster
    exact (congrArg SetupAutorun.entries hsame).trans h.count

theorem Held.grubFix {mc : Machine} (h : Held site n mc) :
    Held site n (onFiles (SetupHighpointBoots.grubFix site) mc) := by
  refine h.frame ?_ ?_ <;>
  · rw [SetupHighpointBoots.grubFix]
    split
    · exact editFile_ne (by decide) _
    · rfl

theorem launches_server (hos : site.ostype = .server) (f : Files Path) :
    launches site.ostype f = SetupAutorun.entries (linesOf f .bashrc) := by
  rw [hos]
  rfl

theorem launches_desktop (hos : site.ostype = .desktop) (f : Files Path) :
    launches site.ostype f = SetupAutorun.entries (linesOf f .masterHook) := by
  rw [hos]
  rfl

/-- Without launching lines that name it, nothing launching is deleted. -/
theorem entries_deleteDots {lines : List Text}
    (h : ∀ l ∈ lines, startsCall SetupDriver.masterCall l = true →
      grepDots scriptName [l] = false) :
    SetupAutorun.entries (deleteDots scriptName lines)
      = SetupAutorun.entries lines := by
  rw [SetupAutorun.entries, deleteDots, List.countP_filter]
  refine List.countP_congr ?_
  intro l hl
  rw [Bool.and_eq_true, Bool.not_eq_true']
  exact and_iff_left_of_imp (h l hl)

/-- A line behind a server's login file adds the launches that are in it. -/
theorem Held.login (hos : site.ostype = .server) {mc : Machine}
    (h : Held site n mc) {line : Text} {m : Nat}
    (hline : SetupAutorun.entries [line] = m)
    (hdots : startsCall SetupDriver.masterCall line = true →
      grepDots scriptName [line] = false) :
    Held site (n + m) (onFiles (appendLine · .bashrc line) mc) where
  clean := by
    intro l hl
    have hlines := h.bashrc.linesOf_appendLine line
    rcases List.mem_append.mp (hlines ▸ hl) with hl | hl
    · exact h.clean l hl
    · rw [List.mem_singleton.mp hl]
      exact hdots
  bashrc := ended_appendLine_self _ _ _
  master := h.master.appendLine _ _
  count := by
    have hcount := h.count
    rw [launches_server hos] at hcount ⊢
    refine (congrArg SetupAutorun.entries
      (h.bashrc.linesOf_appendLine _)).trans ?_
    rw [SetupAutorun.entries_append, hcount, hline]

/-- On a server the fourth command takes every launch away. -/
theorem cut_drivers_server (hos : site.ostype = .server) {mc : Machine}
    (h : Held site n mc) (works : Bool) (k : Nat) :
    (k ≤ 3 → Held site n ((Script.commands (driverCommands site works)).cut
        mc k))
      ∧ (3 < k → Held site 0 ((Script.commands (driverCommands site works)).cut
        mc k)) := by
  have hhook : (takeHook .server).map onFiles
      = onFiles (editFile · .bashrc (sedDelete SetupDriver.installDir))
        :: [onFiles (appendLine · .bashrc ownCall)] := rfl
  rw [driverCommands, hos, hhook]
  refine cut_turn (Held site n) (Held site 0) ?_ ?_ ?_ ?_ h k
  · rfl
  · rw [List.forall_mem_cons, List.forall_mem_cons, List.forall_mem_singleton]
    exact ⟨fun _ h => h.onSetup _, fun _ h => h.grubFix, fun _ h => h.onSetup _⟩
  · intro mc h
    have hlines : linesOf (editFile mc.files .bashrc
        (sedDelete SetupDriver.installDir)) .bashrc
        = sedDelete SetupDriver.installDir (linesOf mc.files .bashrc) :=
      linesOf_editFile_self _ _ rfl
    refine ⟨?_, h.bashrc.editFile _ _,
      h.master.editFile _ _, ?_⟩
    · intro l hl
      refine h.clean l ?_
      exact (mem_sedDelete.mp (hlines ▸ hl)).1
    · rw [launches_server hos]
      exact (congrArg SetupAutorun.entries hlines).trans
        (SetupAutorun.entries_sedDelete _)
  · rw [List.forall_mem_singleton]
    exact fun _ h => h.login hos (m := 0) rfl (fun hcall => by
      exact absurd hcall (by decide))

/-- On a desktop the stage leaves the launches alone. -/
theorem cut_drivers_desktop (hos : site.ostype = .desktop) {mc : Machine}
    (h : Held site n mc) (works : Bool) (k : Nat) :
    Held site n ((Script.commands (driverCommands site works)).cut mc k) := by
  have hkeeps : ∀ f ∈ driverCommands site works, ∀ mc, Held site n mc →
      Held site n (f mc) := by
    intro f hf mc h
    rw [driverCommands, hos] at hf
    have hother : Path.bashrc ≠ .dotHook ∧ Path.masterHook ≠ .dotHook
        ∧ Path.bashrc ≠ .ownHook ∧ Path.masterHook ≠ .ownHook := by decide
    obtain ⟨hbd, hmd, hbo, hmo⟩ := hother
    rcases List.mem_append.mp hf with hf | hf
    · simp only [List.mem_cons, List.not_mem_nil, or_false] at hf
      rcases hf with rfl | rfl | rfl
      · exact h.onSetup _
      · exact h.grubFix
      · exact h.onSetup _
    · obtain ⟨edit, hedit, rfl⟩ := List.mem_map.mp hf
      simp only [takeHook, List.mem_cons, List.not_mem_nil, or_false] at hedit
      rcases hedit with rfl | rfl | rfl
      · exact h.frame (removeFile_ne hbd) (removeFile_ne hmd)
      · exact h.frame (appendLine_ne hbo _) (appendLine_ne hmo _)
      · exact h.frame (appendLine_ne hbo _) (appendLine_ne hmo _)
  exact (triple_keeps (keeps_commands hkeeps)).cut h k

/-- Nothing is left for a start to do. -/
structure Inert (st : State) : Prop where
  monitor : st.monitor = true
  hpFlag : st.hpFlag = false
  hpFlag1 : st.hpFlag1 = false

/-- Behind its second command the build has nothing left to do. -/
theorem inert_build {mc : Machine} (hmonitor : mc.setup.monitor = true)
    (hflag : mc.setup.hpFlag = false) (answers : List Text) {k : Nat}
    (hk : 1 < k) :
    Inert ((Script.commands (buildCommands site answers)).cut mc k).setup := by
  have hcommands : buildCommands site answers
      = [onSetup createArray] ++ onSetup rmHpFlag1 ::
        (onSetup rmArrayType :: ((handHook site.ostype).map onFiles
          ++ (if answers.isEmpty then [] else [onSetup complete]))) := rfl
  rw [hcommands]
  refine (cut_turn (fun mc : Machine => mc.setup.monitor = true
    ∧ mc.setup.hpFlag = false) (fun mc => Inert mc.setup) ?_ ?_ ?_ ?_
    (s := mc) ⟨hmonitor, hflag⟩ k).2 hk
  · rfl
  · rw [List.forall_mem_singleton]
    exact fun _ h => h
  · exact fun _ h => ⟨h.1, h.2, rfl⟩
  · intro f hf mc h
    rcases List.mem_cons.mp hf with rfl | hf
    · exact ⟨h.monitor, h.hpFlag, h.hpFlag1⟩
    · rcases List.mem_append.mp hf with hf | hf
      · obtain ⟨edit, -, rfl⟩ := List.mem_map.mp hf
        exact h
      · split at hf
        · exact nomatch hf
        · rw [List.mem_singleton.mp hf]
          exact ⟨h.monitor, h.hpFlag, h.hpFlag1⟩

theorem keeps_complete (answers : List Text) :
    ∀ f ∈ (if answers.isEmpty then [] else [onSetup complete]),
      ∀ mc, Held site n mc → Held site n (f mc) := by
  intro f hf mc h
  split at hf
  · exact nomatch hf
  · rw [List.mem_singleton.mp hf]
    exact h.onSetup _

/-- One more launch comes with the line it is in. -/
theorem Held.hand (hos : site.ostype = .desktop) {mc : Machine}
    (h : Held site n mc) {line : Text} {m : Nat}
    (hline : SetupAutorun.entries [line] = m) :
    Held site (n + m) (onFiles (appendLine · .masterHook line) mc) where
  clean := by
    intro l hl
    refine h.clean l ?_
    rw [← linesOf_appendLine_ne (f := mc.files) (p := .masterHook) (q := .bashrc)
      (by decide) line]
    exact hl
  bashrc := h.bashrc.appendLine _ _
  master := ended_appendLine_self _ _ _
  count := by
    have hcount := h.count
    rw [launches_desktop hos] at hcount ⊢
    refine (congrArg SetupAutorun.entries
      (h.master.linesOf_appendLine _)).trans ?_
    rw [SetupAutorun.entries_append, hcount, hline]

/-- **THE BUILD**, on a desktop: the sixth command hands the hook back. -/
theorem cut_build_desktop (hos : site.ostype = .desktop) {mc : Machine}
    (h : Held site n mc) (answers : List Text) (k : Nat) :
    (k ≤ 5 → Held site n ((Script.commands (buildCommands site answers)).cut
        mc k))
      ∧ (5 < k → Held site (n + 1) ((Script.commands (buildCommands site
        answers)).cut mc k)) := by
  have hcommands : (([createArray, rmHpFlag1, rmArrayType].map onSetup
      ++ (handHook .desktop).map onFiles)
      ++ (if answers.isEmpty then [] else [onSetup complete]))
      = ([createArray, rmHpFlag1, rmArrayType].map onSetup
        ++ [onFiles (removeFile · .ownHook),
          onFiles (appendLine · .masterHook "sleep 5".toList)])
        ++ onFiles (appendLine · .masterHook (terminal SetupDriver.masterCall))
          :: (if answers.isEmpty then [] else [onSetup complete]) := rfl
  rw [buildCommands, hos, hcommands]
  refine cut_turn (Held site n) (Held site (n + 1)) ?_ ?_ ?_ ?_ h k
  · rfl
  · intro f hf mc h
    rcases List.mem_append.mp hf with hf | hf
    · obtain ⟨g, -, rfl⟩ := List.mem_map.mp hf
      exact h.onSetup g
    · simp only [List.mem_cons, List.not_mem_nil, or_false] at hf
      rcases hf with rfl | rfl
      · exact h.frame (removeFile_ne (by decide)) (removeFile_ne (by decide))
      · exact h.hand hos (m := 0) rfl
  · exact fun _ h => h.hand hos rfl
  · exact keeps_complete answers

/-- The same on a server, where it is the fifth. -/
theorem cut_build_server (hos : site.ostype = .server) {mc : Machine}
    (h : Held site n mc) (answers : List Text) (k : Nat) :
    (k ≤ 4 → Held site n ((Script.commands (buildCommands site answers)).cut
        mc k))
      ∧ (4 < k → Held site (n + 1) ((Script.commands (buildCommands site
        answers)).cut mc k)) := by
  have hcommands : (([createArray, rmHpFlag1, rmArrayType].map onSetup
      ++ (handHook .server).map onFiles)
      ++ (if answers.isEmpty then [] else [onSetup complete]))
      = ([createArray, rmHpFlag1, rmArrayType].map onSetup
        ++ [onFiles (editFile · .bashrc (deleteDots scriptName))])
        ++ onFiles (appendLine · .bashrc SetupDriver.masterCall)
          :: (if answers.isEmpty then [] else [onSetup complete]) := rfl
  rw [buildCommands, hos, hcommands]
  refine cut_turn (Held site n) (Held site (n + 1)) ?_ ?_ ?_ ?_ h k
  · rfl
  · intro f hf mc h
    rcases List.mem_append.mp hf with hf | hf
    · obtain ⟨g, -, rfl⟩ := List.mem_map.mp hf
      exact h.onSetup g
    · rw [List.mem_singleton.mp hf]
      have hlines : linesOf (editFile mc.files .bashrc (deleteDots scriptName))
          .bashrc = deleteDots scriptName (linesOf mc.files .bashrc) :=
        linesOf_editFile_self _ _ rfl
      refine ⟨?_, h.bashrc.editFile _ _,
        h.master.editFile _ _, ?_⟩
      · intro l hl
        exact h.clean l (List.mem_filter.mp (hlines ▸ hl)).1
      · have hcount := h.count
        rw [launches_server hos] at hcount ⊢
        refine (congrArg SetupAutorun.entries hlines).trans ?_
        rw [entries_deleteDots h.clean, hcount]
  · exact fun _ h => h.login hos rfl (fun _ => rfl)
  · exact keeps_complete answers

end Hooks

/-! ## The law -/

/-- The start gets to take the last launch of a server away. -/
def Takes (site : Site) (mc : Machine) (s : Start) : Prop :=
  site.ostype = .server ∧ stageOf site.card mc.setup = .drivers
    ∧ 3 < s.commands

/-- The start gets to hand the hook back. -/
def Hands (site : Site) (mc : Machine) (s : Start) : Prop :=
  stageOf site.card mc.setup = .build
    ∧ match site.ostype with
      | .server => 4 < s.commands
      | .desktop => 5 < s.commands

section Law

variable {site : Site} {n : Nat}

theorem stageOf_build {st : State} (h : stageOf site.card st = .build) :
    st.monitor = true ∧ st.hpFlag = false := by
  rw [stageOf] at h
  split at h
  · exact nomatch h
  · split at h
    · split at h
      · next hmonitor =>
          split at h
          · exact nomatch h
          · next hflag => exact ⟨hmonitor, Bool.eq_false_iff.mpr hflag⟩
      · exact nomatch h
    · exact nomatch h

theorem stageOf_inert {st : State} (h : Inert st) :
    stageOf site.card st = .finished ∨ stageOf site.card st = .noCard := by
  rw [stageOf, h.monitor, h.hpFlag, h.hpFlag1]
  split
  · exact Or.inl rfl
  · split
    · exact Or.inl rfl
    · exact Or.inr rfl

/-- What a start makes of `n` launches. -/
structure Step (site : Site) (n : Nat) (mc : Machine) (s : Start) : Prop where
  takes : Takes site mc s → Held site 0 (highpointCut site mc s)
  hands : Hands site mc s → Held site (n + 1) (highpointCut site mc s)
    ∧ Inert (highpointCut site mc s).setup
  keeps : ¬ Takes site mc s → ¬ Hands site mc s →
    Held site n (highpointCut site mc s)

/-- No hook is touched outside the two stages. -/
theorem step_other {mc : Machine} {s : Start}
    (hdrivers : stageOf site.card mc.setup ≠ .drivers)
    (hbuild : stageOf site.card mc.setup ≠ .build)
    (h : Held site n (highpointCut site mc s)) : Step site n mc s where
  takes ht := absurd ht.2.1 hdrivers
  hands hh := absurd hh.1 hbuild
  keeps _ _ := h

/-- The driver stage takes all launches away, or none. -/
theorem step_drivers {mc : Machine} (h : Held site n mc) {s : Start}
    (hstage : stageOf site.card mc.setup = .drivers) : Step site n mc s := by
  have hhands : ¬ Hands site mc s := fun hhands =>
    nomatch hstage.symm.trans hhands.1
  have hcut := highpoint_cut site mc s
  rw [hstage] at hcut
  refine ⟨?_, fun hh => absurd hh hhands, ?_⟩ <;> rw [hcut]
  · intro htakes
    exact (cut_drivers_server htakes.1 h s.works s.commands).2 htakes.2.2
  · intro htakes _
    cases hos : site.ostype with
    | server =>
        refine (cut_drivers_server hos h s.works s.commands).1 ?_
        exact Nat.not_lt.mp (fun hlt => htakes ⟨hos, hstage, hlt⟩)
    | desktop => exact cut_drivers_desktop hos h s.works s.commands

/-- The build hands one launch back, or none. -/
theorem step_build {mc : Machine} (h : Held site n mc) {s : Start}
    (hstage : stageOf site.card mc.setup = .build) : Step site n mc s := by
  obtain ⟨hmonitor, hflag⟩ := stageOf_build hstage
  have hbuild : (Hands site mc s → 1 < s.commands ∧ Held site (n + 1)
        ((Script.commands (buildCommands site s.answers)).cut mc s.commands))
      ∧ (¬ Hands site mc s → Held site n
        ((Script.commands (buildCommands site s.answers)).cut mc
          s.commands)) := by
    rw [Hands]
    cases hos : site.ostype with
    | server =>
        obtain ⟨hbefore, hbehind⟩ :=
          cut_build_server hos h s.answers s.commands
        exact ⟨fun hh => ⟨Nat.lt_trans (by decide) hh.2, hbehind hh.2⟩,
          fun hn => hbefore (Nat.not_lt.mp (fun hlt => hn ⟨hstage, hlt⟩))⟩
    | desktop =>
        obtain ⟨hbefore, hbehind⟩ :=
          cut_build_desktop hos h s.answers s.commands
        exact ⟨fun hh => ⟨Nat.lt_trans (by decide) hh.2, hbehind hh.2⟩,
          fun hn => hbefore (Nat.not_lt.mp (fun hlt => hn ⟨hstage, hlt⟩))⟩
  have htakes : ¬ Takes site mc s := fun htakes =>
    nomatch hstage.symm.trans htakes.2.1
  have hcut := highpoint_cut site mc s
  rw [hstage] at hcut
  refine ⟨fun ht => absurd ht htakes, ?_, ?_⟩ <;> rw [hcut]
  · intro hhands
    obtain ⟨hlt, hheld⟩ := hbuild.1 hhands
    exact ⟨hheld, inert_build hmonitor hflag s.answers hlt⟩
  · exact fun _ hhands => hbuild.2 hhands

/-- **STEP**: a start takes all launches away, adds one, or keeps them. -/
theorem launches_cut {mc : Machine} (h : Held site n mc) (s : Start) :
    Step site n mc s := by
  have hkept : (∀ f ∈ (stageOf site.card mc.setup).commands site s.answers
      s.works, ∀ mc, Held site n mc → Held site n (f mc)) →
      Held site n (highpointCut site mc s) := by
    intro hall
    rw [highpoint_cut]
    exact (triple_keeps (keeps_commands hall)).cut h _
  cases hstage : stageOf site.card mc.setup with
  | finished =>
      refine step_other (by simp [hstage]) (by simp [hstage]) (hkept ?_)
      rw [hstage]
      exact fun f hf => nomatch hf
  | noCard =>
      refine step_other (by simp [hstage]) (by simp [hstage]) (hkept ?_)
      rw [hstage]
      intro f hf mc h
      rw [List.mem_singleton.mp hf]
      exact h.onSetup _
  | choice =>
      refine step_other (by simp [hstage]) (by simp [hstage]) (hkept ?_)
      rw [hstage]
      intro f hf mc h
      obtain ⟨g, -, rfl⟩ := List.mem_map.mp hf
      exact h.onSetup g
  | drivers => exact step_drivers h hstage
  | build => exact step_build h hstage

/-- Where nothing is left to do nothing happens to the launches. -/
theorem inert_run {mc : Machine} (h : Held site n mc) (hinert : Inert mc.setup)
    (starts : List Start) :
    Held site n (run (highpointCut site) mc starts)
      ∧ AllSteps (highpointCut site) (fun mc s => ¬ Takes site mc s) mc starts
      ∧ AllSteps (highpointCut site) (fun mc s => ¬ Hands site mc s) mc
        starts := by
  induction starts generalizing mc with
  | nil => exact ⟨h, allSteps_nil, allSteps_nil⟩
  | cons s rest ih =>
      have hstage : stageOf site.card mc.setup = .finished
          ∨ stageOf site.card mc.setup = .noCard :=
        stageOf_inert hinert
      have htakes : ¬ Takes site mc s := by
        rintro ⟨-, hdrivers, -⟩
        rcases hstage with hs | hs <;> exact nomatch hs.symm.trans hdrivers
      have hhands : ¬ Hands site mc s := by
        rintro ⟨hbuild, -⟩
        rcases hstage with hs | hs <;> exact nomatch hs.symm.trans hbuild
      have hnext : Inert (highpointCut site mc s).setup := by
        have hkeeps : ((Script.commands ((stageOf site.card mc.setup).commands
            site s.answers s.works))).Keeps (fun mc => Inert mc.setup) := by
          refine keeps_commands ?_
          intro f hf mc hmc
          rcases hstage with hs | hs <;> rw [hs] at hf
          · exact nomatch hf
          · rw [List.mem_singleton.mp hf]
            exact ⟨hmc.monitor, hmc.hpFlag, hmc.hpFlag1⟩
        rw [highpoint_cut]
        exact (triple_keeps hkeeps).cut hinert _
      obtain ⟨hrun, hnone, hnone'⟩ :=
        ih ((launches_cut h s).keeps htakes hhands) hnext
      rw [allSteps_cons, allSteps_cons, run_cons]
      exact ⟨hrun, ⟨htakes, hnone⟩, hhands, hnone'⟩

/-- No start of the run takes the launches away, none hands the hook back. -/
def NeverTakes (site : Site) (mc : Machine) (starts : List Start) : Prop :=
  AllSteps (highpointCut site) (fun mc s => ¬ Takes site mc s) mc starts

def NeverHands (site : Site) (mc : Machine) (starts : List Start) : Prop :=
  AllSteps (highpointCut site) (fun mc s => ¬ Hands site mc s) mc starts

open Classical in
/-- **RUN**: the launches after any starts. -/
theorem launches_run (starts : List Start) :
    ∀ {n : Nat} {mc : Machine}, Held site n mc →
      Held site ((if NeverTakes site mc starts then n else 0)
          + (if NeverHands site mc starts then 0 else 1))
        (run (highpointCut site) mc starts) := by
  induction starts with
  | nil =>
      intro n mc h
      have htakes : NeverTakes site mc [] := allSteps_nil
      have hhands : NeverHands site mc [] := allSteps_nil
      rw [if_pos htakes, if_pos hhands]
      exact h
  | cons s rest ih =>
      intro n mc h
      have hstep := launches_cut h s
      by_cases hhands : Hands site mc s
      · obtain ⟨hheld, hinert⟩ := hstep.hands hhands
        obtain ⟨hrun, hnone, -⟩ := inert_run hheld hinert rest
        have htakes : ¬ Takes site mc s := fun ht =>
          nomatch hhands.1.symm.trans ht.2.1
        have hnever : NeverTakes site mc (s :: rest) :=
          allSteps_cons.mpr ⟨htakes, hnone⟩
        have hhanded : ¬ NeverHands site mc (s :: rest) := fun hall =>
          (allSteps_cons.mp hall).1 hhands
        rw [if_pos hnever, if_neg hhanded]
        exact hrun
      have hsame : NeverHands site mc (s :: rest)
          ↔ NeverHands site (highpointCut site mc s) rest :=
        allSteps_cons.trans (and_iff_right hhands)
      by_cases htakes : Takes site mc s
      · have hrun := ih (hstep.takes htakes)
        have htaken : ¬ NeverTakes site mc (s :: rest) := fun hall =>
          (allSteps_cons.mp hall).1 htakes
        rw [if_neg htaken, if_congr hsame rfl rfl]
        rw [ite_self] at hrun
        exact hrun
      · have hsame' : NeverTakes site mc (s :: rest)
            ↔ NeverTakes site (highpointCut site mc s) rest :=
          allSteps_cons.trans (and_iff_right htakes)
        rw [if_congr hsame' rfl rfl, if_congr hsame rfl rfl]
        exact ih (hstep.keeps htakes hhands)

end Law

/-! ## No resume -/

/-- No file a login reads starts the script where it is, and all of them end in
    a newline. -/
def Silent (f : Files Path) : Prop :=
  ∀ p ∈ [Path.bashrc, .masterHook, .ownHook],
    (∀ l ∈ linesOf f p, startsCall scriptCall l = false) ∧ Ended f p

/-- A line that starts something else. -/
theorem Silent.appendLine {f : Files Path} (h : Silent f) (p : Path)
    {line : Text} (hline : startsCall scriptCall line = false) :
    Silent (ShellFiles.appendLine f p line) := by
  intro q hq
  obtain ⟨hall, hended⟩ := h q hq
  by_cases hqp : q = p
  · subst hqp
    refine ⟨?_, ended_appendLine_self _ _ _⟩
    rw [hended.linesOf_appendLine]
    exact List.forall_mem_append.mpr
      ⟨hall, List.forall_mem_singleton.mpr hline⟩
  · rw [linesOf_appendLine_ne hqp]
    exact ⟨hall, hended.appendLine _ line⟩

/-- A file that is gone starts nothing. -/
theorem Silent.removeFile {f : Files Path} (h : Silent f) (p : Path) :
    Silent (ShellFiles.removeFile f p) := by
  intro q hq
  by_cases hqp : q = p
  · subst hqp
    rw [linesOf_removeFile_self]
    exact ⟨List.forall_mem_nil _, ended_removeFile_self _ _⟩
  · rw [linesOf_removeFile_ne hqp]
    exact ⟨(h q hq).1, (h q hq).2.removeFile _⟩

/-- Lines are only deleted. -/
theorem Silent.editFile {f : Files Path} (h : Silent f) (p : Path)
    {edit : List Text → List Text} (hedit : ∀ lines, edit lines ⊆ lines) :
    Silent (ShellFiles.editFile f p edit) := by
  intro q hq
  obtain ⟨hall, hended⟩ := h q hq
  by_cases hqp : q = p
  · subst hqp
    have hnil : edit [] = [] := List.subset_nil.mp (hedit [])
    rw [linesOf_editFile_self _ _ hnil]
    exact ⟨fun l hl => hall l (hedit _ hl), hended.editFile _ edit⟩
  · rw [linesOf_editFile_ne hqp]
    exact ⟨hall, hended.editFile _ edit⟩

/-- The boot loader's file starts nothing. -/
theorem Silent.grubFix {f : Files Path} (h : Silent f) (site : Site) :
    Silent (SetupHighpointBoots.grubFix site f) := by
  rw [SetupHighpointBoots.grubFix]
  split
  · intro q hq
    have hother : q ≠ .grub := by
      rintro rfl
      exact absurd hq (by decide)
    rw [linesOf_editFile_ne hother]
    exact ⟨(h q hq).1, (h q hq).2.editFile _ _⟩
  · exact h

/-- Every edit of a hook. -/
theorem silent_hooks {f : Files Path} (h : Silent f) (ostype : SetupDriver.OsType)
    {edit : Files Path → Files Path}
    (hedit : edit ∈ takeHook ostype ++ handHook ostype) : Silent (edit f) := by
  cases ostype with
  | server =>
      simp only [takeHook, handHook, List.cons_append, List.nil_append,
        List.mem_cons, List.not_mem_nil, or_false] at hedit
      rcases hedit with rfl | rfl | rfl | rfl
      · exact h.editFile _ (fun _ => List.filter_subset_self _)
      · exact h.appendLine _ rfl
      · exact h.editFile _ (fun _ => List.filter_subset_self _)
      · exact h.appendLine _ rfl
  | desktop =>
      simp only [takeHook, handHook, List.cons_append, List.nil_append,
        List.mem_cons, List.not_mem_nil, or_false] at hedit
      rcases hedit with rfl | rfl | rfl | rfl | rfl | rfl
      · exact h.removeFile _
      · exact h.appendLine _ rfl
      · exact h.appendLine _ rfl
      · exact h.removeFile _
      · exact h.appendLine _ rfl
      · exact h.appendLine _ rfl

/-- Every command of a stage. -/
theorem silent_command {mc : Machine} (h : Silent mc.files) (site : Site)
    (s : Start) (stage : Stage) {f : Machine → Machine}
    (hf : f ∈ stage.commands site s.answers s.works) : Silent (f mc).files := by
  have hhooks : ∀ {edits : List (Files Path → Files Path)},
      edits ⊆ takeHook site.ostype ++ handHook site.ostype →
      f ∈ edits.map onFiles → Silent (f mc).files := by
    intro edits hedits hf
    obtain ⟨edit, hedit, rfl⟩ := List.mem_map.mp hf
    exact silent_hooks h site.ostype (hedits hedit)
  cases stage with
  | finished => exact absurd hf List.not_mem_nil
  | noCard =>
      rw [List.mem_singleton.mp hf]
      exact h
  | drivers =>
      rcases List.mem_append.mp hf with hf | hf
      · simp only [List.mem_cons, List.not_mem_nil, or_false] at hf
        rcases hf with rfl | rfl | rfl
        · exact h
        · exact h.grubFix site
        · exact h
      · exact hhooks (List.subset_append_left _ _) hf
  | choice =>
      obtain ⟨g, -, rfl⟩ := List.mem_map.mp hf
      exact h
  | build =>
      rcases List.mem_append.mp hf with hf | hf
      · rcases List.mem_append.mp hf with hf | hf
        · obtain ⟨g, -, rfl⟩ := List.mem_map.mp hf
          exact h
        · exact hhooks (List.subset_append_right _ _) hf
      · split at hf
        · exact absurd hf List.not_mem_nil
        · rw [List.mem_singleton.mp hf]
          exact h

/-- **ONE START**: it leaves no line that starts the script. -/
theorem silent_cut {mc : Machine} (h : Silent mc.files) (site : Site)
    (s : Start) : Silent (highpointCut site mc s).files := by
  have hkeeps : (Script.commands ((stageOf site.card mc.setup).commands site
      s.answers s.works)).Keeps (fun mc => Silent mc.files) :=
    keeps_commands (fun _ hf _ hmc => silent_command hmc site s _ hf)
  rw [highpoint_cut]
  exact (triple_keeps hkeeps).cut h _

/-- **THE HOOK**: after any starts by hand, each cut off anywhere, from login
    files that end in a newline, none of them starts the script, and one launch
    of `master.sh` is left of the one there was iff a server's hook was both
    taken away and handed back, or neither; on a desktop iff it was not handed
    back, since it was never taken. -/
theorem highpoint_handover (site : Site) (mc : Machine) (starts : List Start)
    (hone : launches site.ostype mc.files = 1) (hclean : Clean mc.files)
    (hsilent : Silent mc.files) :
    Silent (run (highpointCut site) mc starts).files
      ∧ (launches site.ostype (run (highpointCut site) mc starts).files = 1
        ↔ (NeverTakes site mc starts ↔ NeverHands site mc starts)) := by
  classical
  refine ⟨?_, ?_⟩
  · exact run_invariant (fun mc : Machine => Silent mc.files)
      (fun _ s h => silent_cut h site s) starts mc hsilent
  · have hheld : Held site 1 mc :=
      ⟨hclean, (hsilent _ List.mem_cons_self).2,
        (hsilent _ (List.mem_cons_of_mem _ List.mem_cons_self)).2, hone⟩
    rw [(launches_run starts hheld).count]
    by_cases htakes : NeverTakes site mc starts <;>
      by_cases hhands : NeverHands site mc starts <;>
      simp [htakes, hhands]

/-! ### A server with a 7505 -/

def server7505 : Site := ⟨true, [], .server⟩

/-- As the installer leaves it, `master.sh` in `~/.bashrc`. -/
def hooked7505 : Machine where
  setup := factory false
  files p := if p = .bashrc then some ⟨[SetupDriver.masterCall], true⟩ else none

/-- The drivers, a choice, and a build that is cut off before it hands the hook
    back. -/
def threeStarts : List Start :=
  [⟨[[]], true, 5⟩, ⟨["Y".toList, "0".toList], true, 4⟩, ⟨[[]], true, 4⟩]

/-- The first start takes the hook away, and no start hands it back. -/
theorem highpoint_handover_7505 :
    Silent (run (highpointCut server7505) hooked7505 threeStarts).files
      ∧ (launches server7505.ostype
          (run (highpointCut server7505) hooked7505 threeStarts).files = 1
        ↔ (NeverTakes server7505 hooked7505 threeStarts
          ↔ NeverHands server7505 hooked7505 threeStarts)) := by
  refine highpoint_handover server7505 hooked7505 threeStarts rfl ?_ ?_
  · intro l hl _
    rw [List.mem_singleton.mp hl]
    rfl
  · refine List.forall_mem_cons.mpr ⟨⟨List.forall_mem_singleton.mpr rfl, rfl⟩,
      List.forall_mem_cons.mpr ⟨⟨List.forall_mem_nil _, rfl⟩,
        List.forall_mem_singleton.mpr ⟨List.forall_mem_nil _, rfl⟩⟩⟩

/-- Nothing is launched after them, and nothing is left to build. -/
example : launches .server
    (run (highpointCut server7505) hooked7505 threeStarts).files = 0 := rfl

end SetupHighpointBoots
