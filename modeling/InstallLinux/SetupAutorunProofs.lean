import InstallLinux.SetupDriverProofs

/-! # The autorun hook — put back before a reboot, taken away at the end

    `master.sh` is started at login from a line in `~/.bashrc` on the server
    medium and from `/etc/profile.d/master.sh` on the desktop medium.  The
    driver stages rewrite the hook before they reboot, the end of the script
    removes it.  Both decide by `$ostype`, but `_gnome` reassigns `$ostype`
    between them, and the desktop branch of the stages removes a path that is
    not the hook's.

    * `passStates_server` and `passStates_desktop` give the effect of a pass
      on the two hook files;
    * `autorun_cleared_iff` is the law of the end of the script;
    * `launches_once_iff` counts the launches after any number of passes, the
      hook files ending in a newline or not. -/

namespace SetupAutorun

open ShellText ShellFiles ShellRun SetupDriver

/-! ## The script -/

/-- The system `master.sh` runs on. -/
structure Install where
  site : Site
  /-- `/var/log/installer/media-info` -/
  mediaInfo : List Text
  /-- `/etc/os-release` -/
  osRelease : List Text

/-- `_os_check`: `$ostype`. -/
def osType (i : Install) : OsType :=
  if grep "Server".toList i.mediaInfo then .server else .desktop

/-- `_os_check`: `$osversion`; a later match overrides an earlier one. -/
def osVersion (i : Install) : Text :=
  if grepDots "24.04".toList i.osRelease then "24.04".toList
  else if grepDots "22.04".toList i.osRelease then "22.04".toList
  else if grepDots "20.04".toList i.osRelease then "20.04".toList
  else []

/-- `_viz_os_check` ends the script. -/
def vizOsCheck (i : Install) : Bool :=
  grepDots "\"Vizgen, Inc.\"".toList i.site.order
    && decide (osVersion i = "22.04".toList)

def gnomeOrder (i : Install) : Bool :=
  grep "Gnome Desktop Installation".toList i.site.order

/-- `_gnome`: `$ostype` from there on. -/
def gnome (i : Install) (ostype : OsType) : OsType :=
  match ostype with
  | .server => if gnomeOrder i then .desktop else .server
  | .desktop => .desktop

/-- `#Stop autorun`. -/
def stopAutorun (ostype : OsType) (st : Machine) : Machine :=
  match ostype with
  | .server =>
      { st with files := editFile st.files .bashrc (sedDelete installDir) }
  | .desktop => { st with files := removeFile st.files .profileHook }

inductive Outcome where
  /-- the `exit` of `_viz_os_check` -/
  | stopped
  /-- the `reboot` and `exit` of a driver stage -/
  | rebooted
  /-- the final `shutdown -r now` -/
  | finished
  deriving DecidableEq

/-- A run of `master.sh`, as far as its autorun hook and the HighPoint drivers
    are concerned; `works` when an installer that runs leaves the sentinel
    behind. -/
def masterRun (i : Install) (works : Bool) (st : Machine) :
    Outcome × Machine :=
  if vizOsCheck i then (.stopped, st)
  else
    -- a stage that does something reboots and exits
    match driverStates i.site (osType i) works st with
    | s :: states => (.rebooted, finalState st (s :: states))
    | [] => (.finished, stopAutorun (gnome i (osType i)) st)

/-- The machine after a run. -/
def masterStep (i : Install) (st : Machine) (works : Bool) : Machine :=
  (masterRun i works st).2

def Rebooted (i : Install) (st : Machine) (works : Bool) : Prop :=
  (masterRun i works st).1 = .rebooted

instance (i : Install) (st : Machine) (works : Bool) :
    Decidable (Rebooted i st works) :=
  inferInstanceAs (Decidable (_ = _))

/-! ## The effect of a pass -/

/-- A start that ends in a driver reboot is the pass of one stage. -/
theorem masterRun_rebooted {i : Install} {works : Bool} {st : Machine}
    (h : Rebooted i st works) :
    ∃ c, masterStep i st works
      = finalState st (passStates i.site (osType i) works (stageOf c) st) := by
  rw [Rebooted, masterRun] at h
  rw [masterStep, masterRun]
  by_cases hviz : vizOsCheck i = true
  · rw [if_pos hviz] at h
    exact nomatch h
  · rw [if_neg hviz] at h ⊢
    rcases driverStates_cases i.site (osType i) works st
      with ⟨hnil, -⟩ | ⟨c, -, hpass⟩
    · rw [hnil] at h
      exact nomatch h
    · rw [hpass]
      exact ⟨c, rfl⟩

/-- A start that finishes only ends the autorun. -/
theorem masterRun_finished {i : Install} {works : Bool} {st : Machine}
    (h : (masterRun i works st).1 = .finished) :
    masterStep i st works = stopAutorun (gnome i (osType i)) st := by
  rw [masterRun] at h
  rw [masterStep, masterRun]
  by_cases hviz : vizOsCheck i = true
  · rw [if_pos hviz] at h
    exact nomatch h
  · rw [if_neg hviz] at h ⊢
    cases hstates : driverStates i.site (osType i) works st with
    | nil => rfl
    | cons s states =>
        rw [hstates] at h
        exact nomatch h

/-- The files a pass on a server medium leaves. -/
theorem finalState_server (site : Site) (works : Bool) (g : Stage)
    (st : Machine) :
    (finalState st (passStates site .server works g st)).files
      = appendLine (editFile (grubFix site g (install g works st)).files
          .bashrc (sedDelete installDir)) .bashrc masterCall := rfl

/-- The files a pass on a desktop medium leaves. -/
theorem finalState_desktop (site : Site) (works : Bool) (g : Stage)
    (st : Machine) :
    (finalState st (passStates site .desktop works g st)).files
      = appendLine (appendLine
          (removeFile (grubFix site g (install g works st)).files
            .profileDotHook)
          .profileHook "sleep 5".toList)
          .profileHook ("gnome-terminal -- ".toList ++ masterCall) := rfl

/-- The hooks are as they were when a pass comes to them. -/
theorem grubFix_install_ne (site : Site) (g : Stage) (works : Bool)
    (st : Machine) {p : Path} (hp : p = .bashrc ∨ p = .profileHook) :
    (grubFix site g (install g works st)).files p = st.files p := by
  obtain ⟨hgrub, hmonitor⟩ : p ≠ .grub ∧ p ≠ .monitor := by
    rcases hp with rfl | rfl <;> decide
  have hinstall : (install g works st).files p = st.files p := by
    rw [install]
    cases works with
    | false => rfl
    | true => exact Function.update_of_ne hmonitor _ _
  rw [grubFix]
  split
  · exact (editGrub_other _ hgrub _).trans hinstall
  · exact hinstall

/-- `~/.bashrc` without the old hook. -/
def unhooked (f : Files Path) : Files Path :=
  editFile f .bashrc (sedDelete installDir)

/-- **A SERVER PASS**: the old hook lines go, one comes, behind whatever the
    last line lacks. -/
theorem passStates_server (site : Site) (works : Bool) (g : Stage)
    (st : Machine) :
    (finalState st (passStates site .server works g st)).files .bashrc
        = appendLine (unhooked st.files) .bashrc masterCall .bashrc
      ∧ (finalState st (passStates site .server works g st)).files .profileHook
        = st.files .profileHook := by
  have hother : Path.profileHook ≠ .bashrc := by decide
  have hbashrc := grubFix_install_ne site g works st (Or.inl rfl)
  have hprofile := grubFix_install_ne site g works st (Or.inr rfl)
  rw [finalState_server]
  refine ⟨?_, ?_⟩
  · exact appendLine_congr (editFile_congr hbashrc _) _
  · rw [appendLine_ne hother, editFile_ne hother, hprofile]

/-- What a desktop pass writes into the hook. -/
def desktopHook (f : Files Path) : Files Path :=
  appendLine (appendLine f .profileHook "sleep 5".toList) .profileHook
    ("gnome-terminal -- ".toList ++ masterCall)

/-- **A DESKTOP PASS**: one more launch line, and none goes. -/
theorem passStates_desktop (site : Site) (works : Bool) (g : Stage)
    (st : Machine) :
    (finalState st (passStates site .desktop works g st)).files .profileHook
        = desktopHook st.files .profileHook
      ∧ (finalState st (passStates site .desktop works g st)).files .bashrc
        = st.files .bashrc := by
  -- the path that is removed is neither of the two
  have hdot : Path.profileHook ≠ .profileDotHook := by decide
  have hbashrcDot : Path.bashrc ≠ .profileDotHook := by decide
  have hother : Path.bashrc ≠ .profileHook := by decide
  have hbashrc := grubFix_install_ne site g works st (Or.inl rfl)
  have hprofile := grubFix_install_ne site g works st (Or.inr rfl)
  rw [finalState_desktop]
  refine ⟨?_, ?_⟩
  · exact appendLine_congr
      (appendLine_congr ((removeFile_ne hdot).trans hprofile) _) _
  · rw [appendLine_ne hother, appendLine_ne hother, removeFile_ne hbashrcDot,
      hbashrc]

/-! ## The end of the script -/

/-- The run was started from the hook of its medium.  This is a text search:
    whatever line mentions the call may be the one that has started it. -/
def Started (ostype : OsType) (f : Files Path) : Prop :=
  match ostype with
  | .server => grep masterCall (linesOf f .bashrc) = true
  | .desktop => grep masterCall (linesOf f .profileHook) = true

/-- Nothing of the hook is left. -/
def Cleared (ostype : OsType) (f : Files Path) : Prop :=
  match ostype with
  | .server => grep installDir (linesOf f .bashrc) = false
  | .desktop => isFile f .profileHook = false

instance (ostype : OsType) (f : Files Path) : Decidable (Started ostype f) :=
  match ostype with
  | .server => inferInstanceAs (Decidable (_ = true))
  | .desktop => inferInstanceAs (Decidable (_ = true))

instance (ostype : OsType) (f : Files Path) : Decidable (Cleared ostype f) :=
  match ostype with
  | .server => inferInstanceAs (Decidable (_ = false))
  | .desktop => inferInstanceAs (Decidable (_ = false))

theorem installDir_infix_masterCall : installDir <:+: masterCall := by
  decide

/-- A call of `master.sh` mentions the folder. -/
theorem grep_installDir {lines : List Text}
    (h : grep masterCall lines = true) : grep installDir lines = true := by
  obtain ⟨l, hl, hin⟩ := grep_eq_true.mp h
  exact grep_eq_true.mpr ⟨l, hl, installDir_infix_masterCall.trans hin⟩

/-- **STEP INVARIANT**: after a driver reboot the hook is there again. -/
theorem started_masterStep {i : Install} {st : Machine} {works : Bool}
    (h : Rebooted i st works) :
    Started (osType i) (masterStep i st works).files := by
  obtain ⟨c, hpass⟩ := masterRun_rebooted h
  rw [hpass]
  cases hos : osType i with
  | server =>
      show grep masterCall (linesOf _ Path.bashrc) = true
      rw [linesOf, contentsOf, (passStates_server _ _ _ _).1]
      exact grep_appendLine (Or.inr (List.infix_refl _))
  | desktop =>
      show grep masterCall (linesOf _ Path.profileHook) = true
      rw [linesOf, contentsOf, (passStates_desktop _ _ _ _).1]
      exact grep_appendLine (Or.inr (List.suffix_append _ _).isInfix)

/-- **RUN**: it is started again after any number of driver reboots. -/
theorem started_runs (i : Install) (st : Machine) (runs : List Bool)
    (hst : Started (osType i) st.files)
    (hruns : AllSteps (masterStep i) (Rebooted i) st runs) :
    Started (osType i) (run (masterStep i) st runs).files :=
  run_preserves (fun s : Machine => Started (osType i) s.files)
    (fun _ _ _ h => started_masterStep h) runs st hst hruns

/-- **SETUP ENDS**: after any driver reboots, the run that reaches the final
    shutdown has cleared the hook it was started from iff it was not a server
    medium with a desktop in its order. -/
theorem autorun_cleared_iff (i : Install) (st : Machine) (runs : List Bool)
    (works : Bool) (hst : Started (osType i) st.files)
    (hruns : AllSteps (masterStep i) (Rebooted i) st runs)
    (hend : (masterRun i works (run (masterStep i) st runs)).1 = .finished) :
    Cleared (osType i)
        (masterStep i (run (masterStep i) st runs) works).files
      ↔ ¬ (osType i = .server ∧ gnomeOrder i = true) := by
  have hhook := started_runs i st runs hst hruns
  rw [masterRun_finished hend]
  cases hos : osType i with
  | desktop =>
      -- `_gnome` does nothing, the file is removed
      refine iff_of_true ?_ (fun h => OsType.noConfusion h.1)
      show isFile (removeFile _ Path.profileHook) Path.profileHook = false
      simp [isFile, removeFile]
  | server =>
      rw [hos] at hhook
      cases hgnome : gnomeOrder i with
      | false =>
          refine iff_of_true ?_ (fun h => Bool.false_ne_true h.2)
          have hstays : gnome i .server = .server := by
            simp [gnome, hgnome]
          rw [hstays]
          show grep installDir (linesOf (editFile _ Path.bashrc _) Path.bashrc)
            = false
          rw [linesOf_editFile_self _ _ rfl, grep_sedDelete]
      | true =>
          -- the branch taken at the end is not that of the hook
          have hchanges : gnome i .server = .desktop := by
            simp [gnome, hgnome]
          rw [hchanges]
          refine iff_of_false ?_ (fun h => h ⟨rfl, rfl⟩)
          show ¬ grep installDir
            (linesOf (removeFile _ Path.profileHook) Path.bashrc) = false
          rw [linesOf_removeFile_ne (by decide), grep_installDir hhook]
          decide

/-! ## The next login -/

/-- The lines that start `master.sh`, by the path the scripts write; an entry
    that spells the path another way is not counted. -/
def entries (lines : List Text) : Nat :=
  lines.countP (startsCall masterCall)

/-- The launches of the next login. -/
def launches (f : Files Path) : Nat :=
  entries (linesOf f .bashrc) + entries (linesOf f .profileHook)

/-- One autorun entry, in the hook of the medium. -/
def OneEntry (ostype : OsType) (f : Files Path) : Prop :=
  match ostype with
  | .server => entries (linesOf f .bashrc) = 1
      ∧ entries (linesOf f .profileHook) = 0
  | .desktop => entries (linesOf f .bashrc) = 0
      ∧ entries (linesOf f .profileHook) = 1

/-- One pass leaves one entry: on a server medium what it writes behind the last
    newline of `~/.bashrc` is still a line that starts the script, unless the
    text there goes with the old hook; on a desktop medium the only entry stands
    behind the last newline, and is none any more with `sleep 5` behind it. -/
def JoinsOnce (ostype : OsType) (f : Files Path) : Prop :=
  match ostype with
  | .server => installDir <:+: tailOf f .bashrc
      ∨ startsCall masterCall (tailOf f .bashrc ++ masterCall) = true
  | .desktop => startsCall masterCall (tailOf f .profileHook) = true
      ∧ startsCall masterCall (tailOf f .profileHook ++ "sleep 5".toList)
        = false

instance (ostype : OsType) (f : Files Path) : Decidable (JoinsOnce ostype f) :=
  match ostype with
  | .server => inferInstanceAs (Decidable (_ ∨ _))
  | .desktop => inferInstanceAs (Decidable (_ ∧ _))

theorem entries_append (front back : List Text) :
    entries (front ++ back) = entries front + entries back :=
  List.countP_append

theorem entries_singleton (line : Text) :
    entries [line] = if startsCall masterCall line = true then 1 else 0 :=
  List.countP_singleton

/-- The entry behind the last newline, and the other ones. -/
theorem entries_linesOf (f : Files Path) (p : Path) :
    entries (linesOf f p)
      = entries (contentsOf f p).closed + entries [tailOf f p] := by
  have hnil : entries [([] : Text)] = 0 := rfl
  rw [linesOf, tailOf, Contents.lines_eq, entries_append]
  by_cases htail : (contentsOf f p).ended = true ∨ (contentsOf f p).lines = []
  · have hempty : (contentsOf f p).tail = [] := by
      rw [Contents.tail]
      rcases htail with h | h
      · exact if_pos h
      · rw [h]
        exact ite_self _
    rw [if_pos htail, hempty, hnil]
    rfl
  · rw [if_neg htail]

/-- Deleting the lines with the folder deletes every launch. -/
theorem entries_sedDelete (lines : List Text) :
    entries (sedDelete installDir lines) = 0 := by
  refine List.countP_eq_zero.mpr ?_
  intro l hl hstarts
  exact (mem_sedDelete.mp hl).2
    (installDir_infix_masterCall.trans (infix_of_startsCall hstarts))

/-- What is left behind the last newline of `~/.bashrc` without the hook. -/
theorem tailOf_unhooked (f : Files Path) :
    tailOf (unhooked f) .bashrc
      = if installDir <:+: tailOf f .bashrc then [] else tailOf f .bashrc := by
  rw [tailOf, tailOf, contentsOf, contentsOf, unhooked, editFile,
    Function.update_self]
  cases f .bashrc with
  | none => exact (ite_self _).symm
  | some c =>
      show Contents.tail ⟨_, _⟩ = if installDir <:+: c.tail then [] else c.tail
      rw [Contents.tail, Contents.tail]
      cases hended : c.ended with
      | true => exact (ite_self _).symm
      | false =>
          rw [if_neg Bool.false_ne_true, Bool.false_or]
          rcases List.eq_nil_or_concat c.lines with hnil | ⟨front, last, hlines⟩
          · rw [hnil]
            rfl
          · have hlast : c.lines.getLastD [] = last := by simp [hlines]
            have hdelete : sedDelete installDir (front ++ [last])
                = sedDelete installDir front ++ sedDelete installDir [last] :=
              List.filter_append _ _
            rw [hlast, hlines, List.concat_eq_append, hdelete]
            by_cases hin : installDir <:+: last
            · have hgone : sedDelete installDir [last] = [] := by
                simp [sedDelete, hin]
              rw [hgone, if_pos hin]
              rfl
            · have hstays : sedDelete installDir [last] = [last] := by
                simp [sedDelete, hin]
              rw [hstays, if_neg hin]
              simp

/-- **A SERVER PASS, COUNTED**: one entry, if what comes of the last line is
    one. -/
theorem entries_server (f : Files Path) :
    entries (linesOf (appendLine (unhooked f) .bashrc masterCall) .bashrc)
      = if JoinsOnce .server f then 1 else 0 := by
  have hclosed : entries (contentsOf (unhooked f) .bashrc).closed = 0 := by
    have hall : entries (linesOf (unhooked f) .bashrc) = 0 := by
      rw [unhooked, linesOf_editFile_self _ _ rfl, entries_sedDelete]
    rw [entries_linesOf] at hall
    exact Nat.eq_zero_of_add_eq_zero_right hall
  rw [linesOf_appendLine_self, entries_append, hclosed, entries_singleton,
    Nat.zero_add, tailOf_unhooked]
  refine if_congr ?_ rfl rfl
  by_cases hin : installDir <:+: tailOf f .bashrc
  · rw [if_pos hin]
    exact iff_of_true rfl (Or.inl hin)
  · rw [if_neg hin]
    exact (or_iff_right hin).symm

/-- **A DESKTOP PASS, COUNTED**: one entry more, but for one that `sleep 5` is
    written behind. -/
theorem entries_desktop (f : Files Path) :
    entries (linesOf (desktopHook f) .profileHook)
      = entries (contentsOf f .profileHook).closed
        + entries [tailOf f .profileHook ++ "sleep 5".toList] + 1 := by
  have hone : entries ["gnome-terminal -- ".toList ++ masterCall] = 1 := rfl
  rw [desktopHook, (ended_appendLine_self _ _ _).linesOf_appendLine,
    linesOf_appendLine_self, entries_append, entries_append, hone]

section Runs

variable {i : Install}

/-- What a driver reboot leaves on a server medium. -/
theorem launches_server {st : Machine} {works : Bool} (hos : osType i = .server)
    (h : Rebooted i st works)
    (hprofile : entries (linesOf st.files .profileHook) = 0) :
    launches (masterStep i st works).files
        = (if JoinsOnce .server st.files then 1 else 0)
      ∧ entries (linesOf (masterStep i st works).files .profileHook) = 0
      ∧ Ended (masterStep i st works).files .bashrc := by
  obtain ⟨c, hpass⟩ := masterRun_rebooted h
  rw [hpass, hos]
  obtain ⟨hbashrc, hother⟩ := passStates_server i.site works (stageOf c) st
  have hnone : entries (linesOf (finalState st
      (passStates i.site .server works (stageOf c) st)).files .profileHook)
      = 0 := by
    rw [linesOf, contentsOf, hother]
    exact hprofile
  refine ⟨?_, hnone, ?_⟩
  · rw [launches, hnone, Nat.add_zero, linesOf, contentsOf, hbashrc]
    exact entries_server st.files
  · rw [Ended, contentsOf, hbashrc]
    exact ended_appendLine_self _ _ _

/-- A file that ends in a newline gets the hook line as a line of its own. -/
theorem joinsOnce_of_ended {f : Files Path} (h : Ended f .bashrc) :
    JoinsOnce .server f := by
  refine Or.inr ?_
  rw [h.tail]
  rfl

/-- **SERVER**: the launches after any driver reboots. -/
theorem server_runs (hos : osType i = .server) :
    ∀ (runs : List Bool) (st : Machine), Ended st.files .bashrc →
      OneEntry .server st.files →
      AllSteps (masterStep i) (Rebooted i) st runs →
      launches (run (masterStep i) st runs).files = 1 := by
  intro runs
  induction runs with
  | nil =>
      intro st _ hone _
      rw [run_nil, launches, hone.1, hone.2]
  | cons works rest ih =>
      intro st hended hone hruns
      obtain ⟨hfirst, hrest⟩ := allSteps_cons.mp hruns
      obtain ⟨hcount, hprofile, hended'⟩ :=
        launches_server hos hfirst hone.2
      rw [if_pos (joinsOnce_of_ended hended), launches, hprofile] at hcount
      exact ih _ hended' ⟨hcount, hprofile⟩ hrest

/-- What a driver reboot leaves on a desktop medium. -/
theorem launches_desktop {st : Machine} {works : Bool}
    (hos : osType i = .desktop) (h : Rebooted i st works) :
    launches (masterStep i st works).files
        = entries (linesOf st.files .bashrc)
          + (entries (contentsOf st.files .profileHook).closed
            + entries [tailOf st.files .profileHook ++ "sleep 5".toList] + 1)
      ∧ Ended (masterStep i st works).files .profileHook := by
  obtain ⟨c, hpass⟩ := masterRun_rebooted h
  rw [hpass, hos]
  obtain ⟨hprofile, hother⟩ := passStates_desktop i.site works (stageOf c) st
  refine ⟨?_, ?_⟩
  · rw [launches, linesOf, contentsOf, hother, ← entries_desktop]
    refine congrArg _ (congrArg entries ?_)
    rw [linesOf, contentsOf, hprofile]
    rfl
  · rw [Ended, contentsOf, hprofile]
    exact ended_appendLine_self _ _ _

/-- **DESKTOP**: one entry more with each driver reboot. -/
theorem desktop_runs (hos : osType i = .desktop) :
    ∀ (runs : List Bool) (st : Machine), Ended st.files .profileHook →
      AllSteps (masterStep i) (Rebooted i) st runs →
      launches (run (masterStep i) st runs).files
        = launches st.files + runs.length := by
  intro runs
  induction runs with
  | nil => intro st _ _; rfl
  | cons works rest ih =>
      intro st hended hruns
      obtain ⟨hfirst, hrest⟩ := allSteps_cons.mp hruns
      obtain ⟨hcount, hended'⟩ := launches_desktop hos hfirst
      have hsleep : entries ["sleep 5".toList] = 0 := rfl
      rw [hended.closed, hended.tail, List.nil_append, hsleep] at hcount
      rw [run_cons, ih _ hended' hrest, hcount, launches, List.length_cons]
      omega

end Runs

/-- **ONE RESUME**: from one autorun entry, the login after any driver reboots
    launches `master.sh` exactly once iff there has been none; or one, and what
    it has made of the last line of the hook file leaves one entry; or more on
    a server medium. -/
theorem launches_once_iff (i : Install) (st : Machine) (runs : List Bool)
    (hone : OneEntry (osType i) st.files)
    (hruns : AllSteps (masterStep i) (Rebooted i) st runs) :
    launches (run (masterStep i) st runs).files = 1
      ↔ runs.length = 0
        ∨ (runs.length = 1 ∧ JoinsOnce (osType i) st.files)
        ∨ (2 ≤ runs.length ∧ osType i = .server) := by
  cases runs with
  | nil =>
      refine iff_of_true ?_ (Or.inl rfl)
      cases hos : osType i <;> rw [hos] at hone <;>
        rw [run_nil, launches, hone.1, hone.2]
  | cons works rest =>
      obtain ⟨hfirst, hrest⟩ := allSteps_cons.mp hruns
      rw [run_cons]
      cases hos : osType i with
      | server =>
          rw [hos] at hone
          obtain ⟨hcount, hprofile, hended⟩ :=
            launches_server hos hfirst hone.2
          cases rest with
          | nil =>
              -- the entry is what comes of the last line
              rw [run_nil, hcount]
              simp
          | cons works' rest' =>
              -- from the second reboot on the file ends in a newline
              refine iff_of_true ?_ (Or.inr (Or.inr ⟨by simp, rfl⟩))
              obtain ⟨hsecond, hlater⟩ := allSteps_cons.mp hrest
              obtain ⟨hcount', hprofile', hended'⟩ :=
                launches_server hos hsecond hprofile
              rw [if_pos (joinsOnce_of_ended hended)] at hcount'
              rw [run_cons]
              refine server_runs hos rest' _ hended' ⟨?_, hprofile'⟩ hlater
              rw [launches, hprofile', Nat.add_zero] at hcount'
              exact hcount'
      | desktop =>
          rw [hos] at hone
          obtain ⟨hcount, hended⟩ := launches_desktop hos hfirst
          have hsplit := entries_linesOf st.files .profileHook
          rw [hone.2, entries_singleton] at hsplit
          rw [hone.1, entries_singleton] at hcount
          rw [desktop_runs hos rest _ hended hrest, hcount, List.length_cons]
          -- one entry in all: it is closed, or it stands behind the newline
          constructor
          · intro htotal
            have hnil : rest.length = 0 := by omega
            refine Or.inr (Or.inl ⟨by omega, ?_, ?_⟩)
            · by_contra htail
              rw [if_neg htail] at hsplit
              omega
            · by_contra htail
              rw [Bool.not_eq_false] at htail
              rw [if_pos htail] at htotal
              omega
          · rintro (h | ⟨hlength, htail, hsleep⟩ | ⟨-, h⟩)
            · omega
            · rw [if_pos htail] at hsplit
              rw [if_neg (by rw [hsleep]; exact Bool.false_ne_true)]
              omega
            · exact nomatch h

/-! ### A machine with a 640L -/

/-- The given medium, with one order line and a 640L. -/
def with640L (medium order : Text) : Install where
  site := ⟨["RocketRAID 640L 4 Port".toList], [order], []⟩
  mediaInfo := [medium]
  osRelease := []

/-- One call of `master.sh` in each file given, nothing installed. -/
def hooked (hook : Path) : Machine where
  files := fun p => if p = hook then some ⟨[masterCall], true⟩ else none
  installed := []

/-- The law at a server that has been through one driver reboot. -/
theorem autorun_cleared_server :
    Cleared (osType (with640L "Server".toList []))
        (masterStep (with640L "Server".toList [])
          (run (masterStep (with640L "Server".toList [])) (hooked .bashrc)
            [true]) true).files
      ↔ ¬ (osType (with640L "Server".toList []) = .server
        ∧ gnomeOrder (with640L "Server".toList []) = true) :=
  autorun_cleared_iff (with640L "Server".toList []) (hooked .bashrc) [true]
    true rfl
    (allSteps_cons.mpr ⟨rfl, allSteps_nil⟩) rfl

/-- The same for the launches, of a `~/.bashrc` whose last line is a comment
    without a newline: the hook line joins the comment. -/
def commented : Machine where
  files := fun p =>
    if p = .bashrc then some ⟨[masterCall, "# end ".toList], false⟩ else none
  installed := []

/-- The launch is glued to a comment, and the login starts nothing. -/
theorem launches_once_server :
    launches (run (masterStep (with640L "Server".toList [])) commented
        [true]).files = 1
      ↔ [true].length = 0
        ∨ ([true].length = 1
          ∧ JoinsOnce (osType (with640L "Server".toList [])) commented.files)
        ∨ (2 ≤ [true].length
          ∧ osType (with640L "Server".toList []) = .server) :=
  launches_once_iff (with640L "Server".toList []) commented [true]
    ⟨rfl, rfl⟩ (allSteps_cons.mpr ⟨rfl, allSteps_nil⟩)

/-- A server with a desktop in its order keeps its line in `~/.bashrc`. -/
theorem autorun_not_cleared :
    ¬ ∀ (i : Install) (st : Machine) (runs : List Bool) (works : Bool),
        Started (osType i) st.files →
        AllSteps (masterStep i) (Rebooted i) st runs →
        (masterRun i works (run (masterStep i) st runs)).1 = .finished →
        Cleared (osType i)
          (masterStep i (run (masterStep i) st runs) works).files := by
  intro hall
  have h := hall
    (with640L "Server".toList "Gnome Desktop Installation".toList)
    (hooked .bashrc) [true] true rfl
    (allSteps_cons.mpr ⟨rfl, allSteps_nil⟩) rfl
  exact absurd h (by decide)

/-- On a desktop one driver reboot leaves two launches. -/
theorem launches_twice :
    ¬ ∀ (i : Install) (st : Machine) (runs : List Bool),
        OneEntry (osType i) st.files →
        AllSteps (masterStep i) (Rebooted i) st runs →
        launches (run (masterStep i) st runs).files = 1 := by
  intro hall
  have h := hall (with640L "Desktop".toList []) (hooked .profileHook) [true]
    ⟨rfl, rfl⟩ (allSteps_cons.mpr ⟨rfl, allSteps_nil⟩)
  exact absurd h (by decide)

end SetupAutorun
