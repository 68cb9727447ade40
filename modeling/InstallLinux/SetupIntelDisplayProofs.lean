import InstallLinux.SetupAutorunProofs
import InstallLinux.ShellScriptProofs

/-! # Two displays on a NUC — an installer that is cut off by its own reboot

    `intel_display.sh` installs a kernel, puts itself into `/etc/profile.d`,
    leaves a flag and asks for a reboot; started again it builds the display
    modules and hands over to `master.sh`.  No call of `apt` is checked but the
    one in front of the kernel, and `reboot` does not stop the script, so the
    second stage begins at once, on the old kernel, and is cut off wherever the
    machine happens to go down.

    * `triple_intelDisplay` is the safety of every moment of every start:
      what the flag and the completion flag promise (`Consistent`), whatever
      `apt` does;
    * `exec_log`: the packages a complete start leaves installed;
    * `headers_iff`: the headers are built behind a boot of the new kernel iff
      the start that installs it is down before it gets to them;
    * `resumes_iff`: an unfinished set-up is started again by the next login
      iff no start went down between the removal of its hook and the
      completion flag. -/

namespace SetupIntelDisplay

open ShellText ShellFiles ShellRun ShellScript SetupDriver SetupAutorun

/-! ## The script -/

inductive Path where
  /-- `flags/intel_flag` -/
  | intelFlag
  /-- `flags/intel_display.sh` -/
  | completionFlag
  /-- `/etc/profile.d/intel_display.sh` -/
  | hook
  /-- `/etc/profile.d/master.sh` -/
  | masterHook
  /-- `/etc/profile.d/run` -/
  | runHook
  /-- `/etc/apt/sources.list.d/intel.gpu.$codename.list` -/
  | sources
  deriving DecidableEq

/-- What is fetched and installed, in the script's order. -/
inductive Package where
  /-- `gpg-agent wget` -/
  | tools
  /-- the key of the repository -/
  | key
  /-- `linux-image-5.17.0-1019-oem` -/
  | kernel
  /-- `gawk dkms linux-headers-$(uname -r) libc6-dev udev` -/
  | headers
  /-- `intel-platform-vsec-dkms intel-platform-cse-dkms` -/
  | platform
  /-- `intel-i915-dkms intel-fw-gpu` -/
  | display
  /-- the compute and media runtime -/
  | runtime
  /-- its development packages -/
  | development
  /-- the packages of the architecture `i386` -/
  | libraries32
  deriving DecidableEq

structure System where
  files : Files Path
  /-- how often the machine has been started -/
  boot : Nat
  /-- the installations that have succeeded, each with its boot -/
  log : List (Package × Nat)

/-- What the script reads about the machine. -/
structure Board where
  motherboard : Text
  ostype : OsType
  codename : Text

/-- How the calls of a start turn out. -/
structure Apt where
  /-- `apt update` in front of the kernel succeeds -/
  update : Bool
  /-- the call for the package succeeds -/
  works : Package → Bool

/-- The kernel is behind `&&`. -/
def Apt.installs (a : Apt) : Package → Bool
  | .kernel => a.update && a.works .kernel
  | p => a.works p

/-- The call for a package; the script goes on when it fails. -/
def install (a : Apt) (p : Package) (st : System) : System :=
  if a.installs p then { st with log := st.log ++ [(p, st.boot)] } else st

def onFiles (edit : Files Path → Files Path) (st : System) : System :=
  { st with files := edit st.files }

def displayCall : Text := "~/install/scripts/intel_display.sh".toList

def terminal (call : Text) : Text := "gnome-terminal -- ".toList ++ call

def repository (codename : Text) : Text :=
  "deb [arch=amd64,i386 signed-by=/usr/share/keyrings/intel-graphics.gpg] https://repositories.intel.com/graphics/ubuntu ".toList
    ++ (codename ++ " arc".toList)

/-- The hook, the flag and, without effect on the files, `reboot`. -/
def hookUp : Script System :=
  .commands [
    onFiles (appendLine · .hook "sleep 5".toList),
    onFiles (appendLine · .hook (terminal displayCall)),
    onFiles (touch · .intelFlag)]

/-- `if [ ! -f ~/install/flags/intel_flag ]`. -/
def kernelStage (b : Board) (a : Apt) : Script System :=
  (Script.commands [
    install a .tools, install a .key,
    onFiles (writeLine · .sources (repository b.codename)),
    install a .kernel]).andThen
  (.branch (fun st => isFile st.files .runHook)
    (.cmd (onFiles (removeFile · .runHook)) hookUp) hookUp)

/-- The packages of the second stage. -/
def modulePackages : List Package :=
  [.headers, .platform, .display, .runtime, .development, .libraries32]

/-- The end of the second stage. -/
def handOver : List (Files Path → Files Path) := [
  (removeFile · .intelFlag),
  (removeFile · .hook),
  -- under the name of this script, where that of `master.sh` seems to be meant
  (appendLine · .hook "sleep 5".toList),
  (appendLine · .masterHook (terminal masterCall)),
  (touch · .completionFlag)]

/-- `if [ -f ~/install/flags/intel_flag ]`. -/
def moduleStage (a : Apt) : Script System :=
  .commands (modulePackages.map (install a) ++ handOver.map onFiles)

/-- On the machines it is for. -/
def displayStages (b : Board) (a : Apt) : Script System :=
  (Script.branch (fun st => isFile st.files .intelFlag) .done
    (kernelStage b a)).andThen
  (.branch (fun st => isFile st.files .intelFlag) (moduleStage a) .done)

/-- The board has both displays. -/
def Board.fits (b : Board) : Bool :=
  b.motherboard == "NUC13SB".toList && b.ostype == .desktop

/-- `intel_display.sh`. -/
def intelDisplay (b : Board) (a : Apt) : Script System :=
  .branch (fun st => isFile st.files .completionFlag) .done
    (if b.fits then displayStages b a
    else .cmd (onFiles (touch · .completionFlag)) .done)

/-- The machine comes up again. -/
def reboot (st : System) : System := { st with boot := st.boot + 1 }

/-- A start that is cut off behind some number of commands, and the boot behind
    it. -/
def displayStart (b : Board) : System → Apt × Nat → System :=
  start (intelDisplay b) reboot

/-! ## The effect of a cut -/

/-- An installation is no edit of a file. -/
theorem files_install (a : Apt) (p : Package) (st : System) :
    (install a p st).files = st.files := by
  rw [install]
  split <;> rfl

/-- What the calls that succeed add to the log. -/
theorem foldl_install (a : Apt) (ps : List Package) (st : System) :
    (ps.map (install a)).foldl (fun t f => f t) st
      = { st with log := st.log
          ++ (ps.filter a.installs).map (·, st.boot) } := by
  induction ps generalizing st with
  | nil => simp
  | cons p rest ih =>
      rw [List.map_cons, List.foldl_cons, ih, install]
      cases hp : a.installs p with
      | true => simp [hp]
      | false => simp [hp]

theorem foldl_onFiles (edits : List (Files Path → Files Path)) (st : System) :
    (edits.map onFiles).foldl (fun t f => f t) st
      = { st with files := edits.foldl (fun f e => e f) st.files } := by
  induction edits generalizing st with
  | nil => rfl
  | cons e rest ih =>
      rw [List.map_cons, List.foldl_cons, ih, List.foldl_cons]
      rfl

/-- **THE MODULES**: a cut of the second stage has tried some packages, and
    behind all six of them come some of the files' edits. -/
theorem moduleStage_cut (a : Apt) (st : System) (n : Nat) :
    (moduleStage a).cut st n = { st with
      log := st.log
        ++ ((modulePackages.take n).filter a.installs).map (·, st.boot)
      files := (handOver.take (n - 6)).foldl (fun f e => e f) st.files } := by
  rw [moduleStage, cut_commands, List.take_append, List.length_map,
    List.foldl_append, ← List.map_take, ← List.map_take, foldl_install,
    foldl_onFiles]
  rfl

/-! ## What the flags promise -/

/-- The package has been installed. -/
def Ran (p : Package) (st : System) : Prop := p ∈ st.log.map Prod.fst

def Flagged (st : System) : Prop := isFile st.files .intelFlag = true

def Finished (st : System) : Prop := isFile st.files .completionFlag = true

/-- The next login starts the script. -/
def Resumes (st : System) : Prop := startedBy st.files .hook displayCall = true

instance (p : Package) (st : System) : Decidable (Ran p st) :=
  inferInstanceAs (Decidable (_ ∈ _))

instance (st : System) : Decidable (Flagged st) :=
  inferInstanceAs (Decidable (_ = true))

instance (st : System) : Decidable (Finished st) :=
  inferInstanceAs (Decidable (_ = true))

instance (st : System) : Decidable (Resumes st) :=
  inferInstanceAs (Decidable (_ = true))

/-- The packages of the first stage. -/
def kernelPackages : List Package := [.tools, .key, .kernel]

/-- Both hook files end in a newline, if they are there. -/
structure HooksEnded (st : System) : Prop where
  hook : Ended st.files .hook
  master : Ended st.files .masterHook

/-- The hooks and flags of a finished set-up. -/
structure Complete (st : System) : Prop where
  unflagged : ¬ Flagged st
  quiet : ¬ Resumes st
  handed : startedBy st.files .masterHook masterCall = true

/-- The flag promises a resume, the completion flag a finished set-up. -/
structure Consistent (st : System) : Prop where
  flag : Flagged st → Resumes st
  finish : Finished st → Complete st
  ended : HooksEnded st

/-- No flag yet, or no flag any more. -/
structure Half (st : System) : Prop where
  unfinished : ¬ Finished st
  unflagged : ¬ Flagged st
  ended : HooksEnded st

/-- The flag is set. -/
structure Booked (st : System) : Prop where
  unfinished : ¬ Finished st
  flagged : Flagged st
  resumes : Resumes st
  ended : HooksEnded st

theorem Half.consistent {st : System} (h : Half st) : Consistent st :=
  ⟨fun hflag => absurd hflag h.unflagged,
    fun hdone => absurd hdone h.unfinished, h.ended⟩

theorem Booked.consistent {st : System} (h : Booked st) : Consistent st :=
  ⟨fun _ => h.resumes, fun hdone => absurd hdone h.unfinished, h.ended⟩

/-- The flags and hooks are files. -/
theorem Half.congr {st st' : System} (h : Half st) (hfiles : st'.files = st.files) :
    Half st' := by
  obtain ⟨files, boot, log⟩ := st'
  obtain rfl : files = st.files := hfiles
  exact ⟨h.unfinished, h.unflagged, h.ended.hook, h.ended.master⟩

theorem Booked.congr {st st' : System} (h : Booked st)
    (hfiles : st'.files = st.files) : Booked st' := by
  obtain ⟨files, boot, log⟩ := st'
  obtain rfl : files = st.files := hfiles
  exact ⟨h.unfinished, h.flagged, h.resumes, h.ended.hook, h.ended.master⟩

/-- A command that touches neither flag. -/
theorem Half.onFiles {st : System} (h : Half st)
    {edit : Files Path → Files Path}
    (hflag : isFile (edit st.files) .intelFlag = isFile st.files .intelFlag)
    (hdone : isFile (edit st.files) .completionFlag
      = isFile st.files .completionFlag)
    (hhook : Ended (edit st.files) .hook)
    (hmaster : Ended (edit st.files) .masterHook) :
    Half (SetupIntelDisplay.onFiles edit st) where
  unfinished := by
    show ¬ isFile (edit st.files) .completionFlag = true
    rw [hdone]
    exact h.unfinished
  unflagged := by
    show ¬ isFile (edit st.files) .intelFlag = true
    rw [hflag]
    exact h.unflagged
  ended := ⟨hhook, hmaster⟩

/-- An append to the hook. -/
theorem Half.append {st : System} (h : Half st) (line : Text) :
    Half (SetupIntelDisplay.onFiles (appendLine · .hook line) st) :=
  h.onFiles (isFile_appendLine_ne (by decide) _)
    (isFile_appendLine_ne (by decide) _) (ended_appendLine_self _ _ _)
    (h.ended.master.appendLine _ _)

/-- The two lines of the hook, and the flag. -/
theorem triple_hookUp : Triple Half hookUp Booked Consistent := by
  refine triple_cmd Half (fun st h => ⟨h.consistent, h.append _⟩) ?_
  refine triple_cmd (fun st => Half st ∧ Resumes st) ?_ ?_
  · intro st h
    refine ⟨h.consistent, h.append _, ?_⟩
    show startedBy (appendLine st.files .hook _) .hook displayCall = true
    rw [h.ended.hook.startedBy_appendLine,
      show startsCall displayCall (terminal displayCall) = true from rfl,
      Bool.or_true]
  refine triple_cmd Booked ?_ (triple_done (fun st h => ⟨h, h.consistent⟩))
  rintro st ⟨h, hresumes⟩
  have hother : Path.hook ≠ .intelFlag ∧ Path.masterHook ≠ .intelFlag := by
    decide
  refine ⟨h.consistent, ?_, isFile_touch_self _ _, ?_,
    h.ended.hook.touch _, h.ended.master.touch _⟩
  · show ¬ isFile (touch st.files .intelFlag) .completionFlag = true
    rw [isFile_touch_ne (by decide)]
    exact h.unfinished
  · show startedBy (touch st.files .intelFlag) .hook displayCall = true
    rw [startedBy_congr (touch_ne hother.1)]
    exact hresumes

/-- The first stage, whatever comes of its calls. -/
theorem triple_kernelStage (b : Board) (a : Apt) :
    Triple Half (kernelStage b a) Booked Consistent := by
  have hinstall : ∀ p st, Half st → Consistent st ∧ Half (install a p st) :=
    fun p st h => ⟨h.consistent, h.congr (files_install a p st)⟩
  refine triple_andThen Half ?_ ?_
  · refine triple_cmd Half (hinstall .tools) ?_
    refine triple_cmd Half (hinstall .key) ?_
    refine triple_cmd Half ?_ ?_
    · intro st h
      exact ⟨h.consistent, h.onFiles (isFile_writeLine_ne (by decide) _)
        (isFile_writeLine_ne (by decide) _)
        (h.ended.hook.writeLine _ _)
        (h.ended.master.writeLine _ _)⟩
    exact triple_cmd Half (hinstall .kernel)
      (triple_done (fun st h => ⟨h, h.consistent⟩))
  · refine triple_branch ?_
      (triple_hookUp.weaken (fun _ h => h.1) (fun _ h => h) (fun _ h => h))
    refine triple_cmd Half ?_ triple_hookUp
    rintro st ⟨h, -⟩
    exact ⟨h.consistent, h.onFiles (isFile_removeFile_ne (by decide))
      (isFile_removeFile_ne (by decide))
      (h.ended.hook.removeFile _)
      (h.ended.master.removeFile _)⟩

/-- The six installations. -/
theorem triple_modules (a : Apt) :
    Triple Booked (.commands (modulePackages.map (install a))) Booked
      Consistent := by
  have hkeeps : (Script.commands (modulePackages.map (install a))).Keeps
      Booked := by
    refine keeps_commands ?_
    intro f hf st h
    obtain ⟨p, -, rfl⟩ := List.mem_map.mp hf
    exact h.congr (files_install a p st)
  exact (triple_keeps hkeeps).weaken (fun _ h => h) (fun _ h => h)
    (fun _ h => h.consistent)

/-- The removal of the flag is the first of the files' edits, the completion
    flag the last. -/
theorem triple_handOver :
    Triple Booked (.commands (handOver.map onFiles))
      (fun st => Finished st ∧ Complete st) Consistent := by
  refine triple_cmd Half ?_ ?_
  · intro st h
    refine ⟨h.consistent, ?_, ?_, h.ended.hook.removeFile _,
      h.ended.master.removeFile _⟩
    · show ¬ isFile (removeFile st.files .intelFlag) .completionFlag = true
      rw [isFile_removeFile_ne (by decide)]
      exact h.unfinished
    · show ¬ isFile (removeFile st.files .intelFlag) .intelFlag = true
      rw [isFile_removeFile_self]
      exact Bool.false_ne_true
  refine triple_cmd (fun st => Half st ∧ ¬ Resumes st) ?_ ?_
  · intro st h
    refine ⟨h.consistent, h.onFiles (isFile_removeFile_ne (by decide))
      (isFile_removeFile_ne (by decide)) (ended_removeFile_self _ _)
      (h.ended.master.removeFile _), ?_⟩
    show ¬ startedBy (removeFile st.files .hook) .hook displayCall = true
    rw [startedBy_removeFile_self]
    exact Bool.false_ne_true
  refine triple_cmd (fun st => Half st ∧ ¬ Resumes st) ?_ ?_
  · rintro st ⟨h, hquiet⟩
    refine ⟨h.consistent, h.append _, ?_⟩
    show ¬ startedBy (appendLine st.files .hook _) .hook displayCall = true
    rw [h.ended.hook.startedBy_appendLine,
      show startsCall displayCall "sleep 5".toList = false from rfl,
      Bool.or_false]
    exact hquiet
  refine triple_cmd (fun st => Half st ∧ ¬ Resumes st
    ∧ startedBy st.files .masterHook masterCall = true) ?_ ?_
  · rintro st ⟨h, hquiet⟩
    refine ⟨h.consistent, h.onFiles (isFile_appendLine_ne (by decide) _)
      (isFile_appendLine_ne (by decide) _)
      (h.ended.hook.appendLine _ _)
      (ended_appendLine_self _ _ _), ?_, ?_⟩
    · show ¬ startedBy (appendLine st.files .masterHook _) .hook displayCall
        = true
      rw [startedBy_congr (appendLine_ne (by decide) _)]
      exact hquiet
    · show startedBy (appendLine st.files .masterHook _) .masterHook masterCall
        = true
      rw [h.ended.master.startedBy_appendLine,
        show startsCall masterCall (terminal masterCall) = true from rfl,
        Bool.or_true]
  refine triple_cmd (fun st => (Finished st ∧ Complete st) ∧ HooksEnded st) ?_
    (triple_done (fun st h => ⟨h.1, ?_⟩))
  · rintro st ⟨h, hquiet, hhanded⟩
    have hhook : Path.hook ≠ .completionFlag := by decide
    have hmaster : Path.masterHook ≠ .completionFlag := by decide
    refine ⟨h.consistent, ⟨isFile_touch_self _ _, ?_, ?_, ?_⟩,
      h.ended.hook.touch _, h.ended.master.touch _⟩
    · show ¬ isFile (touch st.files .completionFlag) .intelFlag = true
      rw [isFile_touch_ne (by decide)]
      exact h.unflagged
    · show ¬ startedBy (touch st.files .completionFlag) .hook displayCall = true
      rw [startedBy_congr (touch_ne hhook)]
      exact hquiet
    · show startedBy (touch st.files .completionFlag) .masterHook masterCall
        = true
      rw [startedBy_congr (touch_ne hmaster)]
      exact hhanded
  · exact ⟨fun hflag => absurd hflag h.1.2.unflagged, fun _ => h.1.2, h.2⟩

/-- **EVERY MOMENT**: on a machine it is for, the flags keep their promises
    wherever a start is cut off, and a complete start finishes the set-up. -/
theorem triple_intelDisplay {b : Board} (hb : b.fits = true) (a : Apt) :
    Triple Consistent (intelDisplay b a) (fun st => Finished st ∧ Complete st)
      Consistent := by
  rw [intelDisplay, if_pos hb]
  refine triple_branch (triple_done (fun st h => ⟨⟨h.2, h.1.finish h.2⟩, h.1⟩)) ?_
  refine triple_andThen Booked ?_ ?_
  · refine triple_branch (triple_done ?_)
      ((triple_kernelStage b a).weaken ?_ (fun _ h => h) (fun _ h => h))
    · rintro st ⟨⟨h, hdone⟩, hflag⟩
      exact ⟨⟨Bool.eq_false_iff.mp hdone, hflag, h.flag hflag, h.ended⟩, h⟩
    · rintro st ⟨⟨h, hdone⟩, hflag⟩
      exact ⟨Bool.eq_false_iff.mp hdone, Bool.eq_false_iff.mp hflag, h.ended⟩
  · refine triple_branch ?_ (triple_done ?_)
    · rw [moduleStage, commands_append]
      exact triple_andThen Booked
        ((triple_modules a).weaken (fun _ h => h.1) (fun _ h => h)
          (fun _ h => h)) triple_handOver
    · rintro st ⟨h, hflag⟩
      exact absurd h.flagged (Bool.eq_false_iff.mp hflag)

/-- A machine the script has not run on, its hook files ending in a newline if
    they are there. -/
structure Imaged (st : System) : Prop where
  unfinished : ¬ Finished st
  unflagged : ¬ Flagged st
  ended : HooksEnded st
  log : st.log = []

theorem Imaged.consistent {st : System} (h : Imaged st) : Consistent st :=
  ⟨fun hflag => absurd hflag h.unflagged,
    fun hdone => absurd hdone h.unfinished, h.ended⟩

theorem Consistent.reboot {st : System} (h : Consistent st) :
    Consistent (SetupIntelDisplay.reboot st) :=
  ⟨h.flag, fun hdone =>
    ⟨(h.finish hdone).unflagged, (h.finish hdone).quiet,
      (h.finish hdone).handed⟩, ⟨h.ended.hook, h.ended.master⟩⟩

/-! ## What a start tries to install -/

/-- The log is `old` and what has come of the calls for some packages in this
    boot. -/
def Grown (a : Apt) (old : List (Package × Nat)) (boot : Nat)
    (ps : List Package) (st : System) : Prop :=
  st.log = old ++ (ps.filter a.installs).map (·, boot) ∧ st.boot = boot

/-- A call adds its package, if it succeeds. -/
theorem Grown.install {a : Apt} {old : List (Package × Nat)} {boot : Nat}
    {ps : List Package} {st : System} (h : Grown a old boot ps st)
    (p : Package) : Grown a old boot (ps ++ [p]) (install a p st) := by
  obtain ⟨hlog, hboot⟩ := h
  rw [SetupIntelDisplay.install]
  cases hp : a.installs p with
  | true =>
      refine ⟨?_, hboot⟩
      show st.log ++ [(p, st.boot)] = _
      rw [hlog, hboot, List.filter_append, List.map_append, List.append_assoc]
      simp [hp]
  | false =>
      refine ⟨?_, hboot⟩
      show st.log = _
      rw [hlog, List.filter_append]
      simp [hp]

theorem keeps_hookUp (inv : System → Prop)
    (h : ∀ edit st, inv st → inv (onFiles edit st)) : hookUp.Keeps inv :=
  ⟨h _, h _, h _, trivial⟩

/-- A cut of the first stage has tried some of its packages, and no headers. -/
theorem triple_kernelStage_log (b : Board) (a : Apt)
    (old : List (Package × Nat)) (boot : Nat) :
    Triple (Grown a old boot []) (kernelStage b a)
      (Grown a old boot kernelPackages)
      (fun st => ∃ ps, ps <+: kernelPackages ∧ Grown a old boot ps st) := by
  refine triple_andThen (Grown a old boot kernelPackages) ?_ ?_
  · refine triple_cmd (Grown a old boot [.tools])
      (fun st h => ⟨⟨[], by decide, h⟩, h.install .tools⟩) ?_
    refine triple_cmd (Grown a old boot [.tools, .key])
      (fun st h => ⟨⟨[.tools], by decide, h⟩, h.install .key⟩) ?_
    refine triple_cmd (Grown a old boot [.tools, .key])
      (fun st h => ⟨⟨[.tools, .key], by decide, h⟩, h⟩) ?_
    exact triple_cmd (Grown a old boot kernelPackages)
      (fun st h => ⟨⟨[.tools, .key], by decide, h⟩, h.install .kernel⟩)
      (triple_done (fun st h => ⟨h, _, List.prefix_refl _, h⟩))
  · have hup := keeps_hookUp (Grown a old boot kernelPackages)
      (fun edit st h => h)
    have hkeeps : (Script.branch (fun st => isFile st.files .runHook)
        (.cmd (onFiles (removeFile · .runHook)) hookUp) hookUp).Keeps
        (Grown a old boot kernelPackages) := ⟨⟨fun _ h => h, hup⟩, hup⟩
    exact (triple_keeps hkeeps).weaken (fun _ h => h) (fun _ h => h)
      (fun _ h => ⟨_, List.prefix_refl _, h⟩)

/-- Every installation is older than this boot. -/
def Past (st : System) : Prop := ∀ e ∈ st.log, e.2 < st.boot

/-- Headers were installed in a boot behind one that had installed the
    kernel. -/
def Matched (st : System) : Prop :=
  ∀ n, (.headers, n) ∈ st.log → ∃ m < n, (.kernel, m) ∈ st.log

/-- The commands of the first stage, in a start that begins with it. -/
def kernelLength (b : Board) (a : Apt) (st : System) : Nat :=
  ((kernelStage b a).moments st).length

/-- Where the second stage begins in a start. -/
def moduleBegin (b : Board) (a : Apt) (st : System) : Nat :=
  if Flagged st then 0 else kernelLength b a st

/-- The first stage ends with the flag, whatever was there before. -/
theorem flagged_kernelStage (b : Board) (a : Apt) (st : System) :
    Flagged ((kernelStage b a).exec st) := by
  have hup : Triple (fun _ => True) hookUp Flagged (fun _ => True) := by
    refine triple_cmd (fun _ => True) (fun _ _ => ⟨trivial, trivial⟩) ?_
    refine triple_cmd (fun _ => True) (fun _ _ => ⟨trivial, trivial⟩) ?_
    exact triple_cmd Flagged (fun _ _ => ⟨trivial, isFile_touch_self _ _⟩)
      (triple_done (fun _ h => ⟨h, trivial⟩))
  have hfront : ∀ (fs : List (System → System)), Triple (fun _ => True)
      (.commands fs) (fun _ => True) (fun _ => True) := fun fs =>
    triple_keeps (keeps_commands (fun _ _ _ _ => trivial))
  refine (triple_andThen (fun _ => True) (hfront _)
    (triple_branch ?_ ?_)).ends st trivial
  · exact triple_cmd (fun _ => True) (fun _ _ => ⟨trivial, trivial⟩) hup
  · exact hup.weaken (fun _ _ => trivial) (fun _ h => h) (fun _ h => h)

section Cuts

variable {b : Board} {a : Apt} {st : System}

theorem intelDisplay_cut_finished (hdone : Finished st) (n : Nat) :
    (intelDisplay b a).cut st n = st := by
  rw [Finished] at hdone
  rw [intelDisplay, cut_branch, if_pos hdone, cut_done]

variable (hb : b.fits = true)

include hb

/-- With the flag set a start is the second stage. -/
theorem intelDisplay_cut_flagged (hdone : ¬ Finished st)
    (hflag : Flagged st) (n : Nat) :
    (intelDisplay b a).cut st n = (moduleStage a).cut st n := by
  rw [Finished] at hdone
  rw [Flagged] at hflag
  have hfirst : (Script.branch (fun st => isFile st.files .intelFlag) .done
      (kernelStage b a)).moments st = [] := by
    rw [moments_branch, if_pos hflag, moments_done]
  rw [intelDisplay, cut_branch, if_neg hdone, if_pos hb, displayStages,
    cut_andThen, hfirst, List.length_nil, if_neg (Nat.not_lt_zero n),
    exec_branch, if_pos hflag, exec_done, cut_branch, if_pos hflag, Nat.sub_zero]

/-- Without it, the first stage and, `reboot` or not, the second. -/
theorem intelDisplay_cut_unflagged (hdone : ¬ Finished st)
    (hflag : ¬ Flagged st) (n : Nat) :
    (intelDisplay b a).cut st n
      = if n < kernelLength b a st then (kernelStage b a).cut st n
        else (moduleStage a).cut ((kernelStage b a).exec st)
          (n - kernelLength b a st) := by
  have hflagged : isFile ((kernelStage b a).exec st).files .intelFlag = true :=
    flagged_kernelStage b a st
  rw [Finished] at hdone
  rw [Flagged] at hflag
  have hfirst : (Script.branch (fun st => isFile st.files .intelFlag) .done
      (kernelStage b a)).moments st = (kernelStage b a).moments st := by
    rw [moments_branch, if_neg hflag]
  rw [intelDisplay, cut_branch, if_neg hdone, if_pos hb, displayStages,
    cut_andThen, hfirst, exec_branch, if_neg hflag, cut_branch, if_neg hflag,
    cut_branch, if_pos hflagged]
  rfl

/-- **ONE START**: what it tries to install, and when it gets to the headers. -/
theorem intelDisplay_log (st : System) (n : Nat) :
    ∃ ps : List Package, Grown a st.log st.boot ps ((intelDisplay b a).cut st n)
      ∧ (.headers ∈ ps ↔ ¬ Finished st ∧ moduleBegin b a st < n) := by
  have htake : ∀ m, .headers ∈ modulePackages.take m ↔ 0 < m := by
    intro m
    cases m with
    | zero => exact iff_of_false List.not_mem_nil (Nat.lt_irrefl 0)
    | succ m => exact iff_of_true List.mem_cons_self (Nat.succ_pos m)
  by_cases hdone : Finished st
  · refine ⟨[], ?_, iff_of_false List.not_mem_nil (fun h => h.1 hdone)⟩
    rw [intelDisplay_cut_finished hdone]
    exact ⟨(List.append_nil _).symm, rfl⟩
  · rw [and_iff_right hdone, moduleBegin]
    by_cases hflag : Flagged st
    · rw [if_pos hflag]
      refine ⟨modulePackages.take n, ?_, htake n⟩
      rw [intelDisplay_cut_flagged hb hdone hflag, moduleStage_cut]
      exact ⟨rfl, rfl⟩
    · rw [if_neg hflag]
      have hgrown := triple_kernelStage_log b a st.log st.boot
      have hstart : Grown a st.log st.boot [] st :=
        ⟨(List.append_nil _).symm, rfl⟩
      rw [intelDisplay_cut_unflagged hb hdone hflag]
      split
      · next hlt =>
          obtain ⟨ps, hps, hlog⟩ := hgrown.cut hstart n
          refine ⟨ps, hlog, iff_of_false ?_ (by omega)⟩
          intro hmem
          exact absurd (hps.subset hmem) (by decide)
      · next hge =>
          obtain ⟨hlog, hboot⟩ := hgrown.ends st hstart
          refine ⟨kernelPackages
            ++ modulePackages.take (n - kernelLength b a st), ?_, ?_⟩
          · rw [moduleStage_cut, Grown, List.filter_append, List.map_append,
              ← List.append_assoc, ← hlog, hboot]
            exact ⟨rfl, rfl⟩
          · rw [List.mem_append, or_iff_right (by decide), htake]
            omega

/-- **A COMPLETE START**: the packages it tries. -/
theorem exec_log (st : System) :
    ((intelDisplay b a).exec st).log = st.log
      ++ ((if Finished st then [] else if Flagged st then modulePackages
          else kernelPackages ++ modulePackages).filter a.installs).map
        (·, st.boot) := by
  -- as many commands as there are, and more than the modules take
  have hexec : (intelDisplay b a).exec st = (intelDisplay b a).cut st
      (max ((intelDisplay b a).moments st).length
        (kernelLength b a st + 6)) :=
    (cut_of_le (Nat.le_max_left _ _)).symm
  have hlong : kernelLength b a st + 6
      ≤ max ((intelDisplay b a).moments st).length (kernelLength b a st + 6) :=
    Nat.le_max_right _ _
  have hall : ∀ m, 6 ≤ m → modulePackages.take m = modulePackages :=
    fun m hm => List.take_of_length_le hm
  rw [hexec]
  generalize max ((intelDisplay b a).moments st).length
    (kernelLength b a st + 6) = n at hlong ⊢
  by_cases hdone : Finished st
  · rw [if_pos hdone, intelDisplay_cut_finished hdone]
    exact (List.append_nil _).symm
  · rw [if_neg hdone]
    by_cases hflag : Flagged st
    · rw [if_pos hflag, intelDisplay_cut_flagged hb hdone hflag,
        moduleStage_cut, hall n (by omega)]
    · have hstart : Grown a st.log st.boot [] st :=
        ⟨(List.append_nil _).symm, rfl⟩
      obtain ⟨hlog, hboot⟩ :=
        (triple_kernelStage_log b a st.log st.boot).ends st hstart
      rw [if_neg hflag, intelDisplay_cut_unflagged hb hdone hflag,
        if_neg (by omega), moduleStage_cut, hall _ (by omega),
        List.filter_append, List.map_append, ← List.append_assoc, ← hlog,
        hboot]

end Cuts

/-- **RECOVERY**: after any starts, each cut off anywhere and whatever its calls
    of `apt` came to, the flags keep their promises, and one start that is not
    cut off finishes the set-up.  A package is there then iff it was there
    before that start, or the start tried it with success; it tries those of
    the first stage only where the flag is not set. -/
theorem display_recovers {b : Board} (hb : b.fits = true) {st : System}
    (hst : Imaged st) (starts : List (Apt × Nat)) (last : Apt) :
    Consistent (run (displayStart b) st starts)
      ∧ Finished ((intelDisplay b last).exec (run (displayStart b) st starts))
      ∧ Complete ((intelDisplay b last).exec (run (displayStart b) st starts))
      ∧ ∀ p, Ran p ((intelDisplay b last).exec (run (displayStart b) st starts))
        ↔ Ran p (run (displayStart b) st starts)
          ∨ (¬ Finished (run (displayStart b) st starts)
            ∧ (p ∈ modulePackages ∨ ¬ Flagged (run (displayStart b) st starts))
            ∧ last.installs p = true) := by
  have hkept : Consistent (run (displayStart b) st starts) :=
    Triple.recovers (triple_intelDisplay hb) (fun _ h => h.reboot) starts
      hst.consistent
  generalize run (displayStart b) st starts = s at hkept ⊢
  obtain ⟨hdone, hcomplete⟩ := (triple_intelDisplay hb last).ends s hkept
  refine ⟨hkept, hdone, hcomplete, ?_⟩
  intro p
  have hmem : p ∈ kernelPackages ++ modulePackages := by
    cases p <;> decide
  rw [Ran, exec_log hb, List.map_append, List.mem_append, List.map_map]
  refine or_congr Iff.rfl ?_
  have hfst : (Prod.fst ∘ fun q : Package => (q, s.boot)) = id := rfl
  rw [hfst, List.map_id, List.mem_filter]
  by_cases hfinished : Finished s
  · simp [hfinished]
  · by_cases hflag : Flagged s
    · simp [hfinished, hflag]
    · simp only [hfinished, hflag, if_false, hmem, true_and,
        not_false_eq_true, or_true]

/-! ## Which kernel the headers are for -/

/-- A start adds to the log in its own boot. -/
theorem displayStart_log {b : Board} (hb : b.fits = true) (st : System)
    (s : Apt × Nat) :
    ∃ ps : List Package, (displayStart b st s).log
        = st.log ++ (ps.filter s.1.installs).map (·, st.boot)
      ∧ (displayStart b st s).boot = st.boot + 1
      ∧ (.headers ∈ ps ↔ ¬ Finished st ∧ moduleBegin b s.1 st < s.2) := by
  obtain ⟨ps, ⟨hlog, hboot⟩, hps⟩ := intelDisplay_log (a := s.1) hb st s.2
  exact ⟨ps, hlog, congrArg (· + 1) hboot, hps⟩

/-- The log only grows, and a boot later everything in it is past. -/
theorem past_displayStart {b : Board} (hb : b.fits = true) {st : System}
    (h : Past st) (s : Apt × Nat) : Past (displayStart b st s) := by
  obtain ⟨ps, hlog, hboot, -⟩ := displayStart_log hb st s
  intro e he
  rw [hlog, List.mem_append] at he
  rw [hboot]
  rcases he with he | he
  · exact Nat.lt_succ_of_lt (h e he)
  · obtain ⟨p, -, rfl⟩ := List.mem_map.mp he
    exact Nat.lt_succ_self _

/-- The start installs no headers, or the kernel is there from an earlier
    one. -/
def DownInTime (b : Board) (st : System) (s : Apt × Nat) : Prop :=
  Finished st ∨ Ran .kernel st ∨ s.2 ≤ moduleBegin b s.1 st
    ∨ s.1.works .headers = false

/-- A kernel of this boot comes too late for the headers of this boot. -/
theorem matched_displayStart {b : Board} (hb : b.fits = true) {st : System}
    (hpast : Past st) (hst : Matched st) (s : Apt × Nat) :
    Matched (displayStart b st s) ↔ DownInTime b st s := by
  obtain ⟨ps, hlog, -, hps⟩ := displayStart_log hb st s
  have hheaders : (.headers, st.boot) ∈ (ps.filter s.1.installs).map
        (fun p : Package => (p, st.boot))
      ↔ (¬ Finished st ∧ moduleBegin b s.1 st < s.2)
        ∧ s.1.works .headers = true := by
    rw [List.mem_map]
    constructor
    · rintro ⟨p, hp, heq⟩
      obtain ⟨rfl, -⟩ := Prod.mk.inj heq
      exact ⟨hps.mp (List.mem_filter.mp hp).1, (List.mem_filter.mp hp).2⟩
    · rintro ⟨hin, hworks⟩
      exact ⟨_, List.mem_filter.mpr ⟨hps.mpr hin, hworks⟩, rfl⟩
  constructor
  · intro h
    by_contra hnot
    rw [DownInTime, not_or, not_or, not_or, Bool.not_eq_false] at hnot
    obtain ⟨hdone, hkernel, hlate, hworks⟩ := hnot
    have hmem := hheaders.mpr ⟨⟨hdone, Nat.lt_of_not_le hlate⟩, hworks⟩
    obtain ⟨m, hm, hin⟩ := h st.boot (by
      rw [hlog]
      exact List.mem_append_right _ hmem)
    rw [hlog, List.mem_append] at hin
    rcases hin with hin | hin
    · exact hkernel (List.mem_map.mpr ⟨_, hin, rfl⟩)
    · obtain ⟨p, -, hp⟩ := List.mem_map.mp hin
      have hboot : st.boot = m := (Prod.mk.inj hp).2
      omega
  · intro h k hk
    rw [hlog, List.mem_append] at hk
    rcases hk with hk | hk
    · obtain ⟨m, hm, hkernel⟩ := hst k hk
      exact ⟨m, hm, hlog ▸ List.mem_append_left _ hkernel⟩
    · obtain ⟨p, hp, heq⟩ := List.mem_map.mp hk
      obtain ⟨rfl, rfl⟩ := Prod.mk.inj heq
      obtain ⟨⟨hdone, hlate⟩, hworks⟩ := hheaders.mp hk
      have hkernel : Ran .kernel st := by
        rcases h with h | h | h | h
        · exact absurd h hdone
        · exact h
        · omega
        · rw [hworks] at h
          exact nomatch h
      obtain ⟨⟨q, m⟩, hin, rfl⟩ := List.mem_map.mp hkernel
      exact ⟨m, hpast _ hin, hlog ▸ List.mem_append_left _ hin⟩

/-- What is wrong once stays wrong. -/
theorem unmatched_displayStart {b : Board} (hb : b.fits = true) {st : System}
    (hpast : Past st) (hst : ¬ Matched st) (s : Apt × Nat) :
    ¬ Matched (displayStart b st s) := by
  obtain ⟨ps, hlog, -, -⟩ := displayStart_log hb st s
  intro h
  refine hst ?_
  intro k hk
  obtain ⟨m, hm, hkernel⟩ := h k (hlog ▸ List.mem_append_left _ hk)
  rw [hlog, List.mem_append] at hkernel
  rcases hkernel with hkernel | hkernel
  · exact ⟨m, hm, hkernel⟩
  · -- an installation of this boot is not before an old one
    obtain ⟨p, -, hp⟩ := List.mem_map.mp hkernel
    have hboot : st.boot = m := (Prod.mk.inj hp).2
    have hold : k < st.boot := hpast _ hk
    omega

/-- **THE HEADERS**: after any starts of an imaged machine, each cut off
    anywhere and whatever its calls of `apt` came to, headers are installed
    only behind a boot that had installed the kernel, iff no start installs
    them before one has. -/
theorem headers_iff {b : Board} (hb : b.fits = true) {st : System}
    (hst : Imaged st) (starts : List (Apt × Nat)) :
    Matched (run (displayStart b) st starts)
      ↔ AllSteps (displayStart b) (DownInTime b) st starts := by
  have hempty : ∀ e : Package × Nat, e ∉ st.log := by
    intro e he
    rw [hst.log] at he
    exact absurd he List.not_mem_nil
  have hpast : Past st := fun e he => absurd he (hempty e)
  have hmatched : Matched st := fun n hn => absurd hn (hempty _)
  have hstep : ∀ (t : System) (s : Apt × Nat), Matched t → Past t →
      (Matched (displayStart b t s) ↔ DownInTime b t s) :=
    fun _ s ht hp => matched_displayStart hb hp ht s
  have hbad : ∀ (t : System) (s : Apt × Nat), ¬ Matched t → Past t →
      ¬ Matched (displayStart b t s) :=
    fun _ s ht hp => unmatched_displayStart hb hp ht s
  have hinv : ∀ (t : System) (s : Apt × Nat), Past t →
      Past (displayStart b t s) := fun _ s hp => past_displayStart hb hp s
  exact run_good_iff hstep hbad starts st hmatched
    (allSteps_of_invariant hinv starts st hpast)

/-! ## Whether the set-up goes on by itself -/

/-- A login starts the script if the hook is there; the start is cut off. -/
def login (b : Board) (st : System) (s : Apt × Nat) : System :=
  if Resumes st then displayStart b st s else reboot st

/-- Finished, or started again by the next login. -/
def Alive (st : System) : Prop := Finished st ∨ Resumes st

/-- The machine goes down between the removal of the hook and the completion
    flag. -/
def Stranded (b : Board) (st : System) (s : Apt × Nat) : Prop :=
  b.fits = true ∧ ¬ Finished st ∧ Resumes st
    ∧ moduleBegin b s.1 st + 8 ≤ s.2 ∧ s.2 < moduleBegin b s.1 st + 11

/-- Files with neither the completion flag nor a line that starts the script. -/
structure Cold (f : Files Path) : Prop where
  unfinished : ¬ isFile f .completionFlag = true
  quiet : startedBy f .hook displayCall = false
  ended : Ended f .hook

/-- The removal of the hook leaves nothing that starts the script. -/
theorem cold_removeHook {f : Files Path}
    (h : ¬ isFile f .completionFlag = true) : Cold (removeFile f .hook) where
  unfinished := by
    rw [isFile_removeFile_ne (by decide)]
    exact h
  quiet := startedBy_removeFile_self _ _ _
  ended := ended_removeFile_self _ _

/-- The line that comes into its place starts nothing. -/
theorem Cold.sleep {f : Files Path} (h : Cold f) :
    Cold (appendLine f .hook "sleep 5".toList) where
  unfinished := by
    rw [isFile_appendLine_ne (by decide)]
    exact h.unfinished
  quiet := by
    rw [h.ended.startedBy_appendLine, h.quiet]
    rfl
  ended := h.ended.appendLine _ _

/-- Nor does the hook of `master.sh`. -/
theorem Cold.masterHook {f : Files Path} (h : Cold f) (line : Text) :
    Cold (appendLine f .masterHook line) where
  unfinished := by
    rw [isFile_appendLine_ne (by decide)]
    exact h.unfinished
  quiet := by
    rw [startedBy_congr (appendLine_ne (by decide) _)]
    exact h.quiet
  ended := h.ended.appendLine _ _

/-- A cut of the second stage: it is over, or the hook is still there, but for
    the three commands in between. -/
theorem alive_moduleStage {st : System} (a : Apt) (hdone : ¬ Finished st)
    (h : Resumes st) (m : Nat) :
    Alive ((moduleStage a).cut st m) ↔ ¬ (8 ≤ m ∧ m < 11) := by
  have hfiles : ((moduleStage a).cut st m).files
      = (handOver.take (m - 6)).foldl (fun f e => e f) st.files := by
    rw [moduleStage_cut]
  rw [Alive, Finished, Resumes, hfiles]
  rw [Finished] at hdone
  rw [Resumes] at h
  have hm : m ≤ 6 ∨ m = 7 ∨ m = 8 ∨ m = 9 ∨ m = 10 ∨ 11 ≤ m := by omega
  have hcold : Cold (removeFile (removeFile st.files .intelFlag) .hook) := by
    refine cold_removeHook ?_
    rw [isFile_removeFile_ne (by decide)]
    exact hdone
  have hlost : ∀ {f : Files Path}, Cold f → ¬ (isFile f .completionFlag = true
      ∨ startedBy f .hook displayCall = true) := fun h =>
    not_or.mpr ⟨h.unfinished, Bool.eq_false_iff.mp h.quiet⟩
  rcases hm with hm | rfl | rfl | rfl | rfl | hm
  · have hnone : handOver.take (m - 6) = [] := by
      rw [Nat.sub_eq_zero_of_le hm, List.take_zero]
    rw [hnone]
    exact iff_of_true (Or.inr h) (by omega)
  · refine iff_of_true (Or.inr ?_) (by omega)
    show startedBy (removeFile st.files .intelFlag) .hook displayCall = true
    rw [startedBy_congr (removeFile_ne (by decide))]
    exact h
  -- the hook is gone, or is the one line that starts nothing
  · exact iff_of_false (hlost hcold) (by omega)
  · exact iff_of_false (hlost hcold.sleep) (by omega)
  · exact iff_of_false (hlost (hcold.sleep.masterHook _)) (by omega)
  · have hall : handOver.take (m - 6) = handOver :=
      List.take_of_length_le (by
        show 5 ≤ m - 6
        omega)
    rw [hall]
    exact iff_of_true (Or.inl (isFile_touch_self _ _)) (by omega)

/-- The hook is there, and ends in a newline. -/
structure Live (st : System) : Prop where
  unfinished : ¬ Finished st
  resumes : Resumes st
  ended : Ended st.files .hook

/-- An edit that leaves the completion flag and the hook alone. -/
theorem Live.onFiles {st : System} (h : Live st)
    {edit : Files Path → Files Path}
    (hflag : isFile (edit st.files) .completionFlag
      = isFile st.files .completionFlag)
    (hhook : edit st.files .hook = st.files .hook) :
    Live (SetupIntelDisplay.onFiles edit st) where
  unfinished := by
    show ¬ isFile (edit st.files) .completionFlag = true
    rw [hflag]
    exact h.unfinished
  resumes := (startedBy_congr hhook displayCall).trans h.resumes
  ended := h.ended.congr hhook

/-- A line more in the hook. -/
theorem Live.append {st : System} (h : Live st) (line : Text) :
    Live (SetupIntelDisplay.onFiles (appendLine · .hook line) st) where
  unfinished := by
    show ¬ isFile (appendLine st.files .hook line) .completionFlag = true
    rw [isFile_appendLine_ne (by decide)]
    exact h.unfinished
  resumes := by
    show startedBy (appendLine st.files .hook line) .hook displayCall = true
    rw [h.ended.startedBy_appendLine,
      show startedBy st.files .hook displayCall = true from h.resumes,
      Bool.true_or]
  ended := ended_appendLine_self _ _ _

/-- An installation leaves the hook alone. -/
theorem Live.install {st : System} (h : Live st) (a : Apt) (p : Package) :
    Live (install a p st) := by
  rw [SetupIntelDisplay.install]
  split
  · exact ⟨h.unfinished, h.resumes, h.ended⟩
  · exact h

/-- The first stage only adds to the hook. -/
theorem keeps_kernelStage (b : Board) (a : Apt) :
    (kernelStage b a).Keeps Live := by
  have hup : hookUp.Keeps Live :=
    ⟨fun _ h => h.append _, fun _ h => h.append _, fun _ h =>
      h.onFiles (isFile_touch_ne (by decide)) (touch_ne (by decide)), trivial⟩
  refine keeps_andThen ⟨fun _ h => h.install a _, fun _ h => h.install a _,
    fun _ h => h.onFiles (isFile_writeLine_ne (by decide) _)
      (writeLine_ne (by decide) _), fun _ h => h.install a _, trivial⟩
    ⟨⟨fun _ h => h.onFiles (isFile_removeFile_ne (by decide))
      (removeFile_ne (by decide)), hup⟩, hup⟩

/-- **ONE LOGIN**: the set-up goes on unless it is stranded. -/
theorem alive_login (b : Board) {st : System} (h : Alive st)
    (hended : Ended st.files .hook) (s : Apt × Nat) :
    Alive (login b st s) ↔ ¬ Stranded b st s := by
  have hreboot : ∀ s : System, Alive (reboot s) ↔ Alive s := fun _ => Iff.rfl
  rw [login]
  by_cases hresumes : Resumes st
  · rw [if_pos hresumes, displayStart, start, hreboot]
    by_cases hdone : Finished st
    · rw [intelDisplay_cut_finished hdone]
      exact iff_of_true h (fun hs => hs.2.1 hdone)
    · by_cases hb : b.fits = true
      · have hstranded : Stranded b st s
            ↔ moduleBegin b s.1 st + 8 ≤ s.2
              ∧ s.2 < moduleBegin b s.1 st + 11 := by
          rw [Stranded]
          exact ⟨fun hs => hs.2.2.2, fun hs => ⟨hb, hdone, hresumes, hs⟩⟩
        rw [hstranded, moduleBegin]
        by_cases hflag : Flagged st
        · rw [if_pos hflag, Nat.zero_add, Nat.zero_add,
            intelDisplay_cut_flagged hb hdone hflag]
          exact alive_moduleStage s.1 hdone hresumes s.2
        · have htriple := triple_keeps (keeps_kernelStage b s.1)
          have hlive : Live st := ⟨hdone, hresumes, hended⟩
          rw [if_neg hflag, intelDisplay_cut_unflagged hb hdone hflag]
          split
          · next hlt =>
              have hkept := htriple.cut hlive s.2
              exact iff_of_true (Or.inr hkept.resumes) (by omega)
          · next hge =>
              have hlive' := htriple.ends st hlive
              rw [alive_moduleStage s.1 hlive'.unfinished hlive'.resumes]
              omega
      · -- another machine is finished by its first command
        rw [Finished] at hdone
        refine iff_of_true ?_ (fun hs => hb hs.1)
        rw [intelDisplay, cut_branch, if_neg hdone, if_neg hb]
        cases s.2 with
        | zero => exact Or.inr hresumes
        | succ n =>
            rw [cut_cmd, cut_done]
            exact Or.inl (isFile_touch_self _ _)
  · rw [if_neg hresumes, hreboot]
    exact iff_of_true h (fun hs => hresumes hs.2.2.1)

/-- Nothing starts a stranded set-up. -/
theorem not_alive_login (b : Board) {st : System} (h : ¬ Alive st)
    (s : Apt × Nat) : ¬ Alive (login b st s) := by
  rw [login, if_neg (fun hresumes => h (Or.inr hresumes))]
  exact h

/-- No command takes the newline at the end of the hook away. -/
theorem ended_login (b : Board) {st : System} (h : Ended st.files .hook)
    (s : Apt × Nat) : Ended (login b st s).files .hook := by
  have hinstall : ∀ p st, Ended st.files Path.hook →
      Ended (install s.1 p st).files .hook := by
    intro p st h
    rw [files_install]
    exact h
  have hup : hookUp.Keeps (fun st => Ended st.files .hook) :=
    ⟨fun _ _ => ended_appendLine_self _ _ _,
      fun _ _ => ended_appendLine_self _ _ _,
      fun _ h => h.touch _, trivial⟩
  have hkernel : (kernelStage b s.1).Keeps (fun st => Ended st.files .hook) :=
    keeps_andThen ⟨hinstall _, hinstall _,
      fun _ h => h.writeLine _ _, hinstall _, trivial⟩
      ⟨⟨fun _ h => h.removeFile _, hup⟩, hup⟩
  have hmodules : (moduleStage s.1).Keeps (fun st => Ended st.files .hook) :=
    ⟨hinstall _, hinstall _, hinstall _, hinstall _, hinstall _, hinstall _,
      fun _ h => h.removeFile _,
      fun _ _ => ended_removeFile_self _ _,
      fun _ _ => ended_appendLine_self _ _ _,
      fun _ h => h.appendLine _ _,
      fun _ h => h.touch _, trivial⟩
  have hscript : (intelDisplay b s.1).Keeps (fun st => Ended st.files .hook) := by
    refine ⟨trivial, ?_⟩
    split
    · exact keeps_andThen ⟨trivial, hkernel⟩ ⟨hmodules, trivial⟩
    · exact ⟨fun _ h => h.touch _, trivial⟩
  rw [login]
  split
  · exact (triple_keeps hscript).cut h s.2
  · exact h

/-- **THE RESUME**: from a set-up that is finished or has its hook, in a file
    that ends in a newline, after any logins, each start cut off anywhere, it is
    finished or has its hook iff no login left it stranded. -/
theorem resumes_iff (b : Board) {st : System} (hst : Alive st)
    (hended : Ended st.files .hook) (starts : List (Apt × Nat)) :
    Alive (run (login b) st starts)
      ↔ AllSteps (login b) (fun t s => ¬ Stranded b t s) st starts := by
  have hstep : ∀ (t : System) (s : Apt × Nat), Alive t →
      Ended t.files .hook → (Alive (login b t s) ↔ ¬ Stranded b t s) :=
    fun _ s ht he => alive_login b ht he s
  have hbad : ∀ (t : System) (s : Apt × Nat), ¬ Alive t →
      Ended t.files .hook → ¬ Alive (login b t s) :=
    fun _ s ht _ => not_alive_login b ht s
  have hinv : ∀ (t : System) (s : Apt × Nat), Ended t.files .hook →
      Ended (login b t s).files .hook := fun _ s he => ended_login b he s
  exact run_good_iff hstep hbad starts st hst
    (allSteps_of_invariant hinv starts st hended)

/-! ### A NUC fresh from imaging -/

def nuc : Board := ⟨"NUC13SB".toList, .desktop, "jammy".toList⟩

def imaged : System := ⟨fun _ => none, 0, []⟩

theorem imaged_nuc : Imaged imaged :=
  ⟨by decide, by decide, ⟨rfl, rfl⟩, rfl⟩

/-- Every call succeeds. -/
def online : Apt := ⟨true, fun _ => true⟩

/-- The machine has no network. -/
def offline : Apt := ⟨false, fun _ => false⟩

/-- A start without network that raises the flag all the same, and one that goes
    down in the second stage. -/
def twoStarts : List (Apt × Nat) := [(offline, 7), (online, 3)]

/-- The kernel failed and the flag is there: the last start tries the modules
    only. -/
theorem display_recovers_nuc :
    Consistent (run (displayStart nuc) imaged twoStarts)
      ∧ Finished ((intelDisplay nuc online).exec
        (run (displayStart nuc) imaged twoStarts))
      ∧ Complete ((intelDisplay nuc online).exec
        (run (displayStart nuc) imaged twoStarts))
      ∧ ∀ p, Ran p ((intelDisplay nuc online).exec
          (run (displayStart nuc) imaged twoStarts))
        ↔ Ran p (run (displayStart nuc) imaged twoStarts)
          ∨ (¬ Finished (run (displayStart nuc) imaged twoStarts)
            ∧ (p ∈ modulePackages
              ∨ ¬ Flagged (run (displayStart nuc) imaged twoStarts))
            ∧ online.installs p = true) :=
  display_recovers rfl imaged_nuc twoStarts online

/-- It never gets the kernel. -/
example : ¬ Ran .kernel ((intelDisplay nuc online).exec
    (run (displayStart nuc) imaged twoStarts)) := by decide

/-- The first start goes down before the modules, the second builds them. -/
theorem headers_nuc :
    Matched (run (displayStart nuc) imaged [(online, 7), (online, 11)])
      ↔ AllSteps (displayStart nuc) (DownInTime nuc) imaged
        [(online, 7), (online, 11)] :=
  headers_iff rfl imaged_nuc [(online, 7), (online, 11)]

/-- A machine whose first start is behind it. -/
def booked : System := displayStart nuc imaged (online, 7)

/-- A start that goes down behind the removal of the hook is the last one. -/
theorem resumes_nuc :
    Alive (run (login nuc) booked [(online, 3), (online, 8), (online, 11)])
      ↔ AllSteps (login nuc) (fun t s => ¬ Stranded nuc t s) booked
        [(online, 3), (online, 8), (online, 11)] := by
  have hended : Ended booked.files .hook := rfl
  exact resumes_iff nuc (Or.inr (by decide)) hended
    [(online, 3), (online, 8), (online, 11)]

end SetupIntelDisplay
