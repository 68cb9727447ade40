import InstallLinux.SetupMasterProofs

/-! # The fixes of `master.sh` — restarted, and for the wrong system

    The fixes at the end of the script edit `/etc/default/grub` in place and
    write the network file anew.  A start that is cut off leaves some of these
    edits behind, and the next start makes them again.

    * `redo_stage`: an edit of the boot loader's file that is done stays done;
    * `setup_converges`: so a finished set-up leaves what one start would have
      left, however often it was cut off before;
    * `server_configured_iff`: and on a server medium with a desktop in its
      order that is neither a parameter nor a network file. -/

namespace SetupMaster

open ShellText ShellFiles ShellRun ShellScript ShellEdits ShellSed
open SetupDriver SetupAutorun
open SetupGrub (isMs73 isWrx isProArt isNoble nomodeset iommu simpledrm anchor
  withParam needed addParamLine stage stageLine timeoutsLine IsGroup GrubFile
  cmdline)
open SetupNetplan (ipBrief nicsArray netmanHeader Interface document Covers)

/-! ## The edits of the boot loader's file -/

/-- The edits of `_mobofix` and `_grubtime`. -/
def stageEdits (m : SetupGrub.Machine) : List Edit :=
  (needed m).map (paramEdit m.ostype) ++ timeoutEdits

def editLines (grub : List Text) (e : Edit) : List Text := e.lines grub

/-- On one line the edits are the stage. -/
theorem run_stageEdits_line (m : SetupGrub.Machine) (line : Text) :
    run (fun l (e : Edit) => e.line l) line (stageEdits m)
      = stageLine m line := by
  have hparams : run (fun l (e : Edit) => e.line l) line
      ((needed m).map (paramEdit m.ostype))
      = (needed m).foldl (addParamLine m.ostype) line := by
    rw [run, List.foldl_map]
    rfl
  rw [stageEdits, run_append, hparams]
  rfl

/-- Edit after edit, they make of a file what the two functions make of it. -/
theorem run_stageEdits (m : SetupGrub.Machine) (grub : List Text) :
    run editLines grub (stageEdits m) = stage m grub := by
  rw [SetupGrub.stage_eq]
  refine (run_map grub (stageEdits m)).trans ?_
  exact List.map_congr_left (fun line _ => run_stageEdits_line m line)

/-- The edits that are not for a parameter. -/
theorem timeoutEdits_cases {e : Edit} (he : e ∈ timeoutEdits) :
    e.global = true
      ∧ (e.pat = SetupGrub.timeout10 ∨ e.pat = SetupGrub.timeout0
        ∨ e.pat = SetupGrub.styleHidden)
      ∧ (e.rep = SetupGrub.timeout5 ∨ e.rep = SetupGrub.styleMenu) := by
  simp only [timeoutEdits, List.mem_cons, List.not_mem_nil, or_false] at he
  rcases he with rfl | rfl | rfl
  · exact ⟨rfl, Or.inl rfl, Or.inl rfl⟩
  · exact ⟨rfl, Or.inr (Or.inl rfl), Or.inl rfl⟩
  · exact ⟨rfl, Or.inr (Or.inr rfl), Or.inr rfl⟩

/-- An edit is for a parameter or for a timeout. -/
theorem stageEdits_cases {m : SetupGrub.Machine} {e : Edit}
    (he : e ∈ stageEdits m) :
    (∃ group, IsGroup group ∧ e = paramEdit m.ostype group)
      ∨ e ∈ timeoutEdits := by
  rcases List.mem_append.mp he with he | he
  · obtain ⟨group, hgroup, rfl⟩ := List.mem_map.mp he
    exact Or.inl ⟨group, SetupGrub.needed_mem hgroup, rfl⟩
  · exact Or.inr he

/-- No edit writes what a timeout edit looks for. -/
theorem inert_timeout {e : Edit} (he : e ∈ timeoutEdits) (ostype : OsType)
    {group : Text} (h : IsGroup group) :
    inert e.pat (withParam ostype group) = true := by
  obtain ⟨-, hpat, -⟩ := timeoutEdits_cases he
  rcases hpat with hpat | hpat | hpat <;> rw [hpat] <;> cases ostype <;>
    rcases h with rfl | rfl | rfl <;> decide +kernel

theorem inert_timeouts {e e' : Edit} (he : e ∈ timeoutEdits)
    (he' : e' ∈ timeoutEdits) : inert e.pat e'.rep = true := by
  obtain ⟨-, hpat, -⟩ := timeoutEdits_cases he
  obtain ⟨-, -, hrep⟩ := timeoutEdits_cases he'
  rcases hpat with hpat | hpat | hpat <;> rcases hrep with hrep | hrep <;>
    rw [hpat, hrep] <;> decide +kernel

/-- No timeout edit writes an anchor. -/
theorem inert_anchor (ostype : OsType) {e : Edit} (he : e ∈ timeoutEdits) :
    inert (anchor ostype) e.rep = true := by
  obtain ⟨-, -, hrep⟩ := timeoutEdits_cases he
  rcases hrep with hrep | hrep <;> rw [hrep] <;> cases ostype <;>
    decide +kernel

theorem stageEdits_pat {m : SetupGrub.Machine} {e : Edit}
    (he : e ∈ stageEdits m) : e.pat ≠ [] := by
  rcases stageEdits_cases he with ⟨group, -, rfl⟩ | he
  · show anchor m.ostype ≠ []
    cases m.ostype <;> decide
  · obtain ⟨-, hpat, -⟩ := timeoutEdits_cases he
    rcases hpat with hpat | hpat | hpat <;> rw [hpat] <;> decide

/-- **NO EDIT UNDOES ANOTHER**: none writes what one of them looks for. -/
theorem stageEdits_inert {m : SetupGrub.Machine} {e e' : Edit}
    (he : e ∈ stageEdits m) (he' : e' ∈ stageEdits m) :
    inert e.pat e'.rep = true := by
  rcases stageEdits_cases he with ⟨group, -, rfl⟩ | he
  · rcases stageEdits_cases he' with ⟨group', hgroup', rfl⟩ | he'
    · exact SetupGrub.inert_withParam m.ostype hgroup'
    · exact inert_anchor m.ostype he'
  · rcases stageEdits_cases he' with ⟨group', hgroup', rfl⟩ | he'
    · exact inert_timeout he m.ostype hgroup'
    · exact inert_timeouts he he'

/-- The first parameter takes the anchor away, the others find none. -/
theorem clears_params (ostype : OsType) :
    ∀ (groups : List Text) (line : Text), (∀ group ∈ groups, IsGroup group) →
      occurrences (anchor ostype) line ≤ 1 →
      AllSteps (fun l (e : Edit) => e.line l) (fun l e => e.Clears l) line
        (groups.map (paramEdit ostype)) := by
  intro groups
  induction groups with
  | nil => intro line _ _; exact allSteps_nil
  | cons group rest ih =>
      intro line hgroups hone
      rw [List.forall_mem_cons] at hgroups
      have hanchor : anchor ostype ≠ [] := by cases ostype <;> decide
      have hclears : (paramEdit ostype group).Clears line := Or.inr hone
      have hgone : ¬ anchor ostype <:+: (paramEdit ostype group).line line :=
        Edit.line_clears hanchor
          (SetupGrub.inert_withParam ostype hgroups.1) hclears
      refine allSteps_cons.mpr ⟨hclears, ih _ hgroups.2 ?_⟩
      rw [(occurrences_eq_zero hanchor).mpr hgone]
      exact Nat.zero_le 1

/-- **EDITS STAY DONE**: on a file without a line that holds the anchor
    twice. -/
theorem redo_stage (m : SetupGrub.Machine) {grub : List Text}
    (hone : ∀ line ∈ grub, occurrences (anchor m.ostype) line ≤ 1) :
    Redo editLines grub (stageEdits m) := by
  refine redo_map (fun line hline => redo_edits (fun _ he => stageEdits_pat he)
    (fun _ he _ he' => stageEdits_inert he he') ?_)
  refine allSteps_append.mpr ⟨clears_params m.ostype _ line
    (fun _ hg => SetupGrub.needed_mem hg) (hone line hline), ?_⟩
  intro v hv
  exact Or.inl (timeoutEdits_cases (mem_of_mem_visits _ _ hv)).1

/-! ## What the commands edit -/

def grubLines (st : System) : List Text := linesOf st.machine.files .grub

def Command.grubEdit : Command → Option Edit
  | .grub e => some e
  | .run _ => none
  | .network _ => none
  | .stop _ => none

def Command.networkEdit :
    Command → Option (Files SetupNetplan.Path → Files SetupNetplan.Path)
  | .network edit => some edit
  | .run _ => none
  | .grub _ => none
  | .stop _ => none

/-- A command edits the boot loader's file, or leaves it. -/
theorem grubLines_exec (st : System) (c : Command) :
    grubLines (c.exec st)
      = (c.grubEdit.map (editLines (grubLines st))).getD (grubLines st) := by
  cases c with
  | run entry => rfl
  | grub e => exact linesOf_editFile_self _ _ rfl
  | network edit => rfl
  | stop ostype =>
      cases ostype with
      | server => exact linesOf_editFile_ne (by decide) _
      | desktop => exact linesOf_removeFile_ne (by decide)

theorem network_exec (st : System) (c : Command) :
    (c.exec st).network
      = (c.networkEdit.map (fun edit => edit st.network)).getD st.network := by
  cases c <;> rfl

/-- A list of commands under a condition. -/
theorem filterMap_ite {A B : Type} (f : A → Option B) (p : Prop) [Decidable p]
    (l l' : List A) :
    (if p then l else l').filterMap f
      = if p then l.filterMap f else l'.filterMap f :=
  apply_ite (List.filterMap f) p l l'

theorem filterMap_none {A B C : Type} {f : B → Option C} {g : A → B}
    (h : ∀ a, f (g a) = none) (l : List A) : (l.map g).filterMap f = [] := by
  rw [List.filterMap_map]
  exact List.filterMap_eq_nil_iff.mpr (fun a _ => h a)

/-- `_mobofix` edits it for the parameters that are called for. -/
theorem mobofix_grubEdits (m : SetupGrub.Machine) :
    (mobofixCommands m).filterMap Command.grubEdit
      = (needed m).map (paramEdit m.ostype) := by
  -- an edit under one condition, and under two
  have hone : ∀ (b : Bool) (group : Text), (if b = true then
      [Command.grub (paramEdit m.ostype group)] else []).filterMap
        Command.grubEdit
      = (if b then [group] else []).map (paramEdit m.ostype) := by
    intro b group
    cases b <;> rfl
  have htwo : ∀ (b c : Bool) (group : Text), (if b = true then
      if c = true then [Command.grub (paramEdit m.ostype group)] else []
      else []).filterMap Command.grubEdit
      = (if b && c then [group] else []).map (paramEdit m.ostype) := by
    intro b c group
    cases b <;> cases c <;> rfl
  have hwrx : ∀ l l' : String, (if isWrx m.motherboard = true then
      (if m.ostype = .desktop then
        [Command.run (.mobofix, l), .run (.mobofix, l')] else [])
        ++ [Command.grub (paramEdit m.ostype iommu)] else []).filterMap
        Command.grubEdit
      = (if isWrx m.motherboard then [iommu] else []).map
          (paramEdit m.ostype) := by
    intro l l'
    cases isWrx m.motherboard <;> cases m.ostype <;> rfl
  have hcopies : ∀ (b : Bool) (l l' : String), (if b = true then
      [Command.run (.mobofix, l), .run (.mobofix, l')] else []).filterMap
        Command.grubEdit = [] := by
    intro b l l'
    cases b <;> rfl
  have hnoble : (if isNoble m.osversion = true then
      if m.ostype = .desktop then
        [Command.grub (paramEdit .desktop simpledrm)] else []
      else []).filterMap Command.grubEdit
      = (if isNoble m.osversion && m.ostype = .desktop then [simpledrm]
        else []).map (paramEdit m.ostype) := by
    cases isNoble m.osversion <;> cases m.ostype <;> rfl
  have hupdate : [Command.run (.mobofix, "sudo update-grub")].filterMap
      Command.grubEdit = [] := rfl
  rw [mobofixCommands]
  simp only [List.filterMap_append, htwo, hwrx, hone, hcopies, hnoble, hupdate]
  rw [needed, ← SetupGrub.iommu_once]
  simp only [List.map_append, List.append_assoc, List.append_nil]

theorem netman_grubEdits (ostype : OsType) (ip : List Text) :
    (netmanCommands ostype ip).filterMap Command.grubEdit = [] := by
  rw [netmanCommands, filterMap_ite]
  split
  · rw [List.filterMap_cons_none rfl, List.filterMap_cons_none rfl,
      List.filterMap_append, List.filterMap_append,
      filterMap_none (fun _ => rfl), filterMap_none (fun _ => rfl)]
    rfl
  · rfl

/-- **THE EDITS OF THE SCRIPT**: those of the stage, in its order. -/
theorem later_grubEdits (i : Install) (ip : List Text) :
    (later i ip).filterMap Command.grubEdit = stageEdits (fixed i) := by
  have htime : grubtimeCommands.filterMap Command.grubEdit = timeoutEdits := rfl
  have hend : [Command.stop (fixed i).ostype,
      .run (.shutdown, "sudo shutdown -r now")].filterMap Command.grubEdit
      = [] := rfl
  rw [later, List.filterMap_append, List.filterMap_append,
    List.filterMap_append, List.filterMap_append,
    filterMap_none (fun _ => rfl), mobofix_grubEdits, netman_grubEdits, htime,
    hend, List.nil_append, List.append_nil, List.append_nil, stageEdits]

/-- The edits of the network files. -/
def networkEdits (ostype : OsType) (ip : List Text) :
    List (Files SetupNetplan.Path → Files SetupNetplan.Path) :=
  if ostype = .server then
    SetupNetplan.clearNetcfg
      :: (netmanHeader.map (fun line => (SetupNetplan.tee · line))
        ++ (nicsArray ip).map (fun nicnum => (SetupNetplan.addNic · nicnum)))
  else []

/-- Of the fixes only `_netman` edits the network files. -/
theorem later_networkEdits (i : Install) (ip : List Text) :
    (later i ip).filterMap Command.networkEdit
      = networkEdits (fixed i).ostype ip := by
  have hmobofix : (mobofixCommands (fixed i)).filterMap Command.networkEdit
      = [] := by
    refine List.filterMap_eq_nil_iff.mpr ?_
    exact forall_mobofix (fun _ => rfl) (fun _ => rfl) _
  have htime : grubtimeCommands.filterMap Command.networkEdit = [] := rfl
  have hend : [Command.stop (fixed i).ostype,
      .run (.shutdown, "sudo shutdown -r now")].filterMap Command.networkEdit
      = [] := rfl
  have hnetman : (netmanCommands (fixed i).ostype ip).filterMap
      Command.networkEdit = networkEdits (fixed i).ostype ip := by
    rw [networkEdits, netmanCommands, filterMap_ite]
    split
    · have hedits : ∀ l : List (Files SetupNetplan.Path →
          Files SetupNetplan.Path),
          (l.map Command.network).filterMap Command.networkEdit = l := by
        intro l
        rw [List.filterMap_map]
        exact List.filterMap_some
      have hlines := hedits (netmanHeader.map
        (fun line => (SetupNetplan.tee · line)))
      have hnics := hedits ((nicsArray ip).map
        (fun nicnum => (SetupNetplan.addNic · nicnum)))
      rw [List.map_map] at hlines hnics
      show SetupNetplan.clearNetcfg :: List.filterMap Command.networkEdit _ = _
      rw [List.filterMap_append, List.filterMap_append]
      exact congrArg _ ((congrArg₂ _ (congrArg₂ _ hlines hnics) rfl).trans
        (List.append_nil _))
    · rfl
  rw [later, List.filterMap_append, List.filterMap_append,
    List.filterMap_append, List.filterMap_append,
    filterMap_none (fun _ => rfl), hmobofix, hnetman, htime, hend,
    List.nil_append, List.append_nil, List.append_nil, List.nil_append]

/-! ## What the driver stages edit -/

/-- `/etc/default/grub` behind the stages that have got to their fix: only one
    board has any. -/
def driverFixed (site : Site) (passes : List Controller) (grub : List Text) :
    List Text :=
  if site.motherboard = "X299 AORUS Gaming 7".toList then
    passes.foldl (fun grub c => (stageOf c).grubEdits.foldl
      (fun grub e => sedReplace e.1 e.2 grub) grub) grub
  else grub

theorem driverFixed_nil (site : Site) (grub : List Text) :
    driverFixed site [] grub = grub := by
  rw [driverFixed, List.foldl_nil, ite_self]

theorem driverFixed_append (site : Site) (passes passes' : List Controller)
    (grub : List Text) :
    driverFixed site (passes ++ passes') grub
      = driverFixed site passes' (driverFixed site passes grub) := by
  simp only [driverFixed]
  split
  · rw [List.foldl_append]
  · rfl

theorem linesOf_editGrub (edits : List (Text × Text))
    (f : Files SetupDriver.Path) :
    linesOf (editGrub edits f) .grub
      = edits.foldl (fun grub e => sedReplace e.1 e.2 grub)
          (linesOf f .grub) := by
  induction edits generalizing f with
  | nil => rfl
  | cons e rest ih =>
      have hfirst : linesOf (editFile f .grub (sedReplace e.1 e.2)) .grub
          = sedReplace e.1 e.2 (linesOf f .grub) :=
        linesOf_editFile_self f .grub rfl
      rw [List.foldl_cons, ← hfirst]
      exact ih _

theorem linesOf_grubFix (site : Site) (c : Controller)
    (m : SetupDriver.Machine) :
    linesOf (grubFix site (stageOf c) m).files .grub
      = driverFixed site [c] (linesOf m.files .grub) := by
  rw [grubFix, driverFixed]
  split
  · exact linesOf_editGrub _ _
  · rfl

/-- The boot loader's file is that of the driver stages with some of the edits
    of the fixes made, and with none as long as a stage fires. -/
def Progress (i : Install) (grub : List Text) (passes : List Controller)
    (st : System) : Prop :=
  ∃ k, grubLines st = run editLines (driverFixed i.site passes grub)
      ((stageEdits (fixed i)).take k)
    ∧ (k ≠ 0 → Quiet i st)

/-- The commands of a start in front of its driver stages. -/
def frontCommands (i : Install) (st : System) : Nat :=
  ((sleep i).moments st).length + (branding (osType i) (osVersion i)).length

/-- The stage of a start that gets to its edits of the boot loader's file: they
    come behind its installers. -/
def fixedBy (i : Install) (st : System) (start : Start × Nat) :
    List Controller :=
  if vizOsCheck i = false ∧ frontCommands i st + 1 < start.2 then
    (firing i st).toList
  else []

/-- Those of all starts, in their order. -/
def passesOf (i : Install) (st : System) (starts : List (Start × Nat)) :
    List Controller :=
  (visits (masterCut i) st starts).flatMap (fun v => fixedBy i v.1 v.2)

/-- No line holds the anchor of the parameters twice, whatever the driver
    stages have made of it. -/
def AnchorOnce (i : Install) (grub : List Text) : Prop :=
  ∀ passes, ∀ line ∈ driverFixed i.site passes grub,
    occurrences (anchor (fixed i).ostype) line ≤ 1

section Restart

variable {i : Install} {grub : List Text}

/-- Progress is read off the machine. -/
theorem Progress.congr {passes : List Controller} {st st' : System}
    (h : Progress i grub passes st) (hmachine : st'.machine = st.machine) :
    Progress i grub passes st' := by
  obtain ⟨k, hst, hquiet⟩ := h
  refine ⟨k, ?_, fun hk => (hquiet hk).congr (by rw [hmachine])⟩
  rw [grubLines, hmachine]
  exact hst

/-- A stage edits the file with its second command. -/
theorem grub_pass (i : Install) (works : Bool) (c : Controller) (st : System)
    (n : Nat) :
    grubLines ((Script.commands (pass i works c)).cut st n)
      = driverFixed i.site (if 1 < n then [c] else []) (grubLines st) := by
  have hinstall : ∀ f ∈ [installDriver works c], ∀ s : System,
      grubLines s = grubLines st → grubLines (f s) = grubLines st := by
    intro f hf s hs
    rw [List.mem_singleton.mp hf, ← hs]
    show linesOf (install (stageOf c) works s.machine).files .grub = _
    rw [install]
    cases works with
    | false => rfl
    | true => exact linesOf_touch_ne (by decide)
  have hedits : ∀ s : System, grubLines s = grubLines st →
      grubLines (onMachine (grubFix i.site (stageOf c)) s)
        = driverFixed i.site [c] (grubLines st) := by
    intro s hs
    rw [← hs]
    exact linesOf_grubFix i.site c s.machine
  have hhooks : ∀ f ∈ (hookCommands (osType i)).map
      (fun edit => onMachine (onFiles edit)), ∀ s : System,
      grubLines s = driverFixed i.site [c] (grubLines st) →
      grubLines (f s) = driverFixed i.site [c] (grubLines st) := by
    intro f hf s hs
    obtain ⟨edit, hedit, rfl⟩ := List.mem_map.mp hf
    rw [← hs]
    exact linesOf_congr (hook_other hedit _ (by decide) (by decide) (by decide))
  have hturn := cut_turn (fun s => grubLines s = grubLines st)
    (fun s => grubLines s = driverFixed i.site [c] (grubLines st)) rfl hinstall
    hedits hhooks (Eq.refl (grubLines st)) n
  by_cases hn : 1 < n
  · rw [if_pos hn]
    exact hturn.2 hn
  · rw [if_neg hn, driverFixed_nil]
    exact hturn.1 (Nat.le_of_not_lt hn)

/-- Some of the commands behind the stages make some of the edits. -/
theorem later_grub (i : Install) (ip : List Text) (st : System) (n : Nat) :
    ∃ k, grubLines (run Command.exec st ((later i ip).take n))
      = run editLines (grubLines st) ((stageEdits (fixed i)).take k) := by
  obtain ⟨k, hk⟩ := exists_take_filterMap Command.grubEdit (later i ip) n
  refine ⟨k, ?_⟩
  rw [run_filterMap grubLines_exec, hk, later_grubEdits]

/-- A cut in the fixes keeps the progress: the edits of before are undone by no
    later one. -/
theorem Progress.later (honce : AnchorOnce i grub) {passes : List Controller}
    {st : System} (h : Progress i grub passes st) (hquiet : Quiet i st)
    (ip : List Text) (n : Nat) :
    Progress i grub passes (run Command.exec st ((later i ip).take n)) := by
  obtain ⟨k, hst, -⟩ := h
  obtain ⟨k', hk'⟩ := later_grub i ip st n
  have hredo := redo_stage (fixed i) (honce passes)
  refine ⟨max k' k, ?_, fun _ => ?_⟩
  · rw [hk', hst, hredo.again]
  · exact run_invariant (Quiet i) (fun _ c h => h.exec c) _ st hquiet

/-- A start is cut off in front of the stages, or gets to them on the machine
    as it was. -/
theorem masterCut_front (hviz : vizOsCheck i = false) (st : System)
    (start : Start) (n : Nat) :
    (n < frontCommands i st ∧ (masterCut i st (start, n)).machine = st.machine)
      ∨ ∃ st', st'.machine = st.machine ∧ frontCommands i st ≤ n
        ∧ masterCut i st (start, n)
          = (drivers i start.works (script (later i (ipBrief start.ifs)))).cut
            st' (n - frontCommands i st) := by
  have hrecord : ∀ st' entry, st'.machine = st.machine →
      (record entry st').machine = st.machine := fun _ _ h => h
  obtain ⟨hsleep, hbranding⟩ := keeps_front i hrecord (fun _ h => h)
  have hfirst := (triple_keeps hsleep).ends st rfl
  have hlength : ((records (branding (osType i) (osVersion i))).moments
      ((sleep i).exec st)).length
        = (branding (osType i) (osVersion i)).length := by
    rw [records, length_moments_commands, List.length_map]
  simp only [masterCut, master, hviz, Bool.false_eq_true, if_false,
    cut_andThen, hlength]
  split
  · next h => exact Or.inl ⟨by rw [frontCommands]; omega,
      (triple_keeps hsleep).cut rfl n⟩
  · split
    · next h h' => exact Or.inl ⟨by rw [frontCommands]; omega,
        (triple_keeps hbranding).cut hfirst _⟩
    · next h h' =>
        refine Or.inr ⟨_, (triple_keeps hbranding).ends _ hfirst,
          by rw [frontCommands]; omega, ?_⟩
        rw [frontCommands, Nat.sub_sub]

/-- **ONE START**: cut off anywhere, it adds the stage whose edits it gets to. -/
theorem Progress.masterCut (honce : AnchorOnce i grub)
    {passes : List Controller} {st : System} (h : Progress i grub passes st)
    (start : Start × Nat) :
    Progress i grub (passes ++ fixedBy i st start) (masterCut i st start) := by
  obtain ⟨start, n⟩ := start
  cases hviz : vizOsCheck i with
  | true =>
      rw [fixedBy, hviz, if_neg (fun h => Bool.noConfusion h.1),
        List.append_nil, SetupMaster.masterCut, master, if_pos hviz, cut_done]
      exact h
  | false =>
      rcases masterCut_front hviz st start n with ⟨hn, hmachine⟩
        | ⟨st', hmachine, hn, hcut⟩
      · rw [fixedBy, if_neg (fun hm => by omega), List.append_nil]
        exact h.congr hmachine
      · have hst' : Progress i grub passes st' := h.congr hmachine
        have hsame : firing i st = firing i st' := by
          rw [firing, firing, hmachine]
        rw [hcut, fixedBy, hsame]
        rcases drivers_cut i start.works
          (script (SetupMaster.later i (ipBrief start.ifs))) st'
          with ⟨hnone, hquiet, hrest⟩ | ⟨c, hsome, hfires, hpass⟩
        · rw [hrest, script_cut, hnone, Option.toList_none, ite_self,
            List.append_nil]
          exact hst'.later honce hquiet _ _
        · -- a stage that fires finds none of the fixes made
          obtain ⟨k, hgrub, hquiet⟩ := hst'
          have hzero : k = 0 := by
            by_contra hk
            rw [hquiet hk c] at hfires
            exact Bool.false_ne_true hfires
          rw [hzero, List.take_zero, run_nil] at hgrub
          refine ⟨0, ?_, fun hk => absurd rfl hk⟩
          rw [hpass, grub_pass, hgrub, List.take_zero, run_nil, hsome,
            ← driverFixed_append]
          have hreached : 1 < n - frontCommands i st
              ↔ vizOsCheck i = false ∧ frontCommands i st + 1 < n := by
            rw [hviz, and_iff_right rfl]
            omega
          exact congrArg (fun l => driverFixed i.site (passes ++ l) grub)
            (if_congr hreached rfl rfl)

/-- **ALL STARTS**. -/
theorem progress_run (honce : AnchorOnce i grub) (starts : List (Start × Nat)) :
    ∀ {passes : List Controller} {st : System}, Progress i grub passes st →
      Progress i grub (passes ++ passesOf i st starts)
        (run (SetupMaster.masterCut i) st starts) := by
  induction starts with
  | nil =>
      intro passes st h
      rwa [passesOf, visits_nil, List.flatMap_nil, List.append_nil]
  | cons start rest ih =>
      intro passes st h
      rw [passesOf, visits_cons, List.flatMap_cons, ← List.append_assoc]
      exact ih (h.masterCut honce start)

end Restart

/-! ## A finished set-up -/

/-- Where no stage fires the script goes on. -/
theorem drivers_quiet {i : Install} {st : System} (h : Quiet i st)
    (works : Bool) (rest : Script System) :
    (drivers i works rest).exec st = rest.exec st := by
  have h7505 : fires i.site st.machine hp7505 = false := h .hp7505
  have h640L : fires i.site st.machine hp640L = false := h .hp640L
  have h3720c : fires i.site st.machine hp3720c = false := h .hp3720c
  rw [drivers, exec_branch, h7505, exec_branch, h640L, exec_branch, h3720c]
  rfl

/-- Such a start is its later commands, on the machine as it was. -/
theorem master_goesOn {i : Install} {st : System} (h : GoesOn i st)
    (start : Start) :
    ∃ st', st'.machine = st.machine ∧ st'.network = st.network
      ∧ (master i start).exec st
        = run Command.exec st' (later i (ipBrief start.ifs)) := by
  have hrecord : ∀ st' entry,
      (st'.machine = st.machine ∧ st'.network = st.network) →
      ((record entry st').machine = st.machine
        ∧ (record entry st').network = st.network) := fun _ _ h => h
  obtain ⟨hsleep, hbranding⟩ := keeps_front i hrecord (fun _ h => h)
  have hfirst := (triple_keeps hsleep).ends st ⟨rfl, rfl⟩
  have hsecond := (triple_keeps hbranding).ends _ hfirst
  refine ⟨_, hsecond.1, hsecond.2, ?_⟩
  have hquiet := h.2.congr
    (congrArg (fun m => isFile (Machine.files m) .monitor) hsecond.1)
  rw [master, if_neg (Bool.eq_false_iff.mp h.1), exec_andThen, exec_andThen,
    drivers_quiet hquiet, script_exec]

/-- On a desktop no command touches the network files. -/
theorem keeps_network {i : Install} (h : (fixed i).ostype = .desktop)
    (f : Files SetupNetplan.Path) (start : Start) :
    (master i start).Keeps (fun st => st.network = f) := by
  have hpass : ∀ c, (Script.commands (pass i start.works c)).Keeps
      (fun st => st.network = f) := by
    intro c
    refine keeps_commands ?_
    intro g hg st hst
    rcases List.mem_cons.mp hg with rfl | hg
    · exact hst
    · rcases List.mem_cons.mp hg with rfl | hg
      · exact hst
      · obtain ⟨edit, -, rfl⟩ := List.mem_map.mp hg
        exact hst
  have hlater : ∀ c ∈ later i (ipBrief start.ifs), c.networkEdit = none := by
    refine List.filterMap_eq_nil_iff.mp ?_
    rw [later_networkEdits, networkEdits, h]
    rfl
  have hrecord : ∀ st entry, st.network = f →
      (record entry st).network = f := fun _ _ h => h
  obtain ⟨hsleep, hbranding⟩ := keeps_front i hrecord (fun _ h => h)
  rw [master]
  generalize later i (ipBrief start.ifs) = cs at hlater ⊢
  have hscript : (script cs).Keeps (fun st => st.network = f) := by
    refine keeps_script (fun c hc st hst => ?_)
    rw [network_exec, hlater c hc]
    exact hst
  split
  · exact trivial
  · exact keeps_andThen hsleep (keeps_andThen hbranding
      (keeps_drivers hpass hscript))

/-- What `_netman` writes in one start. -/
theorem run_networkEdits (ip : List Text) (f : Files SetupNetplan.Path) :
    linesOf (run (fun f edit => edit f) f (networkEdits .server ip)) .netcfg
      = IndentText.printNodes 2 0 [document [] (nicsArray ip)] := by
  have hgenerate : run (fun f edit => edit f) f (networkEdits .server ip)
      = SetupNetplan.generate netmanHeader ip f := by
    rw [networkEdits, if_pos rfl, run_cons, run_append, run, List.foldl_map,
      run, List.foldl_map]
    rfl
  rw [hgenerate, SetupNetplan.linesOf_generate SetupNetplan.netmanHeader_eq]

/-- **THE BOOT LOADER**: a start that goes on to the fixes leaves its file as
    the stage makes it from that of the driver stages. -/
theorem grub_converges {i : Install} {st : System}
    (honce : AnchorOnce i (grubLines st)) {starts : List (Start × Nat)}
    (hgoes : GoesOn i (run (masterCut i) st starts)) (last : Start) :
    grubLines ((master i last).exec (run (masterCut i) st starts))
      = stage (fixed i)
          (driverFixed i.site (passesOf i st starts) (grubLines st)) := by
  obtain ⟨st', hmachine, -, hexec⟩ := master_goesOn hgoes last
  have hstart : Progress i (grubLines st) [] st :=
    ⟨0, (driverFixed_nil _ _).symm, fun h => absurd rfl h⟩
  obtain ⟨k, hgrub, -⟩ := progress_run honce starts hstart
  rw [List.nil_append] at hgrub
  have hsame : grubLines st' = grubLines (run (masterCut i) st starts) := by
    rw [grubLines, hmachine]
    rfl
  rw [hexec, run_filterMap grubLines_exec, later_grubEdits, hsame, hgrub,
    (redo_stage (fixed i) (honce _)).restart, run_stageEdits]

/-- **THE NETWORK**: on a server the file is that of the last start, on a
    desktop it is left as it was. -/
theorem network_converges {i : Install} {st : System}
    {starts : List (Start × Nat)}
    (hgoes : GoesOn i (run (masterCut i) st starts)) (last : Start) :
    linesOf ((master i last).exec
        (run (masterCut i) st starts)).network .netcfg
      = if (fixed i).ostype = .server then
          IndentText.printNodes 2 0
            [document [] (nicsArray (ipBrief last.ifs))]
        else linesOf st.network .netcfg := by
  obtain ⟨st', -, hnetwork, hexec⟩ := master_goesOn hgoes last
  have hedits : (run Command.exec st' (later i (ipBrief last.ifs))).network
      = run (fun f edit => edit f) st'.network
          ((later i (ipBrief last.ifs)).filterMap Command.networkEdit) :=
    run_filterMap network_exec _ st'
  rw [hexec, hedits, later_networkEdits]
  cases hos : (fixed i).ostype with
  | server =>
      rw [if_pos rfl]
      exact run_networkEdits _ _
  | desktop =>
      have hkept : (run (masterCut i) st starts).network = st.network :=
        run_invariant (fun s : System => s.network = st.network)
          (fun _ start hs =>
            (triple_keeps (keeps_network hos _ start.1)).cut hs start.2)
          starts st rfl
      rw [networkEdits, if_neg (by decide), run_nil, hnetwork, hkept,
        if_neg (by decide)]

/-- **CONVERGENCE**: behind starts that are cut off anywhere, a start that goes
    on to the fixes leaves the boot loader's file as the stage makes it from
    that of the driver stages that have got to their edits, and the network
    file as that start writes it on a server, or as it was at first on a
    desktop. -/
theorem setup_converges (i : Install) (st : System)
    (starts : List (Start × Nat)) (last : Start)
    (honce : AnchorOnce i (grubLines st))
    (hgoes : GoesOn i (run (masterCut i) st starts)) :
    grubLines ((master i last).exec (run (masterCut i) st starts))
        = stage (fixed i)
          (driverFixed i.site (passesOf i st starts) (grubLines st))
      ∧ linesOf ((master i last).exec
          (run (masterCut i) st starts)).network .netcfg
        = if (fixed i).ostype = .server then
            IndentText.printNodes 2 0
              [document [] (nicsArray (ipBrief last.ifs))]
          else linesOf st.network .netcfg :=
  ⟨grub_converges honce hgoes last, network_converges hgoes last⟩

/-! ## A server -/

/-- What the machine calls for as the server it was installed as. -/
def asServer (i : Install) : SetupGrub.Machine :=
  { fixed i with ostype := .server }

/-- The boot loader's file has every parameter the server calls for, each once,
    in the value of its line, and the network file names the interfaces. -/
def Configured (i : Install) (f : GrubFile .server) (ifs : List Interface)
    (st : System) : Prop :=
  (∃ value, grubLines st = f.before.map timeoutsLine
        ++ cmdline value :: f.after.map timeoutsLine
      ∧ ∀ group ∈ needed (asServer i), ∀ w ∈ splitWords group,
        (splitWords value).count w = 1)
    ∧ Covers [] ifs st.network

/-- A server stays one iff the order asks for no desktop. -/
theorem fixed_gnome {i : Install} (hserver : osType i = .server) :
    (gnomeOrder i = true → (fixed i).ostype = .desktop)
      ∧ (gnomeOrder i = false → fixed i = asServer i) := by
  constructor
  · intro h
    show gnome i (osType i) = .desktop
    rw [hserver, gnome, h]
    rfl
  · intro h
    have hstays : (fixed i).ostype = .server := by
      show gnome i (osType i) = .server
      rw [hserver, gnome, h]
      rfl
    rw [asServer, ← hstays]

/-- The board with a fix of its own in the driver stages calls for no
    parameter. -/
theorem driverFixed_needed {i : Install} (h : needed (asServer i) ≠ [])
    (passes : List Controller) (grub : List Text) :
    driverFixed i.site passes grub = grub := by
  rw [driverFixed, if_neg]
  intro hboard
  refine h ?_
  have hms : isMs73 i.site.motherboard = false := by rw [hboard]; rfl
  have hwrx : isWrx i.site.motherboard = false := by rw [hboard]; rfl
  have hpro : isProArt i.site.motherboard = false := by rw [hboard]; rfl
  show needed { fixed i with ostype := .server } = []
  simp only [needed]
  rw [show (fixed i).motherboard = i.site.motherboard from rfl, hms, hwrx, hpro]
  simp

/-- The anchors in a server's file. -/
theorem anchorOnce_server {i : Install} (hneeds : needed (asServer i) ≠ [])
    (f : GrubFile .server) : AnchorOnce i f.lines := by
  intro passes line hline
  rw [driverFixed_needed hneeds] at hline
  have hothers : line ∈ f.before ++ f.after →
      occurrences (anchor (fixed i).ostype) line ≤ 1 := by
    intro hmem
    obtain ⟨hsplash, hempty⟩ := f.others line hmem
    have hzero : occurrences (anchor (fixed i).ostype) line = 0 := by
      cases (fixed i).ostype with
      | desktop => exact (occurrences_eq_zero (by decide)).mpr hsplash
      | server => exact (occurrences_eq_zero (by decide)).mpr hempty
    rw [hzero]
    exact Nat.zero_le 1
  rw [GrubFile.lines, List.mem_append, List.mem_cons] at hline
  rcases hline with hline | rfl | hline
  · exact hothers (List.mem_append_left _ hline)
  · rw [show f.value = [] from f.stock]
    cases (fixed i).ostype <;> decide
  · exact hothers (List.mem_append_right _ hline)

/-- The timeout edits leave the line of the parameters alone. -/
theorem timeoutsLine_cmdline {value : Text}
    (h : value = [] ∨ IsGroup value) :
    timeoutsLine (cmdline value) = cmdline value := by
  refine SetupGrub.timeoutsLine_of_absent ?_ ?_ ?_ <;>
    rcases h with rfl | rfl | rfl | rfl <;> decide +kernel

/-- For the desktop's edits there is nothing in a server's file. -/
theorem stage_desktop {m : SetupGrub.Machine} (hm : m.ostype = .desktop)
    (f : GrubFile .server) :
    stage m f.lines = f.before.map timeoutsLine
      ++ cmdline [] :: f.after.map timeoutsLine := by
  have hvalue : f.value = [] := f.stock
  have hkeep : ∀ line ∈ f.lines, stageLine m line = timeoutsLine line := by
    intro line hline
    refine congrArg timeoutsLine
      (SetupGrub.addParamLine_of_absent ?_ (needed m))
    rw [hm]
    rw [GrubFile.lines, List.mem_append, List.mem_cons] at hline
    rcases hline with hline | rfl | hline
    · exact (f.others line (List.mem_append_left _ hline)).1
    · rw [hvalue]
      decide
    · exact (f.others line (List.mem_append_right _ hline)).1
  rw [SetupGrub.stage_eq, List.map_congr_left hkeep, GrubFile.lines,
    List.map_append, List.map_cons, hvalue,
    timeoutsLine_cmdline (Or.inl rfl)]

/-- A server that stays one gets its one parameter group. -/
theorem stage_server {i : Install} (f : GrubFile .server) {group : Text}
    {rest : List Text} (hneeds : needed (asServer i) = group :: rest) :
    stage (asServer i) f.lines = f.before.map timeoutsLine
        ++ cmdline group :: f.after.map timeoutsLine
      ∧ rest = [] := by
  have hlen := SetupGrub.needed_server (show (asServer i).ostype = .server
    from rfl)
  have hrest : rest = [] := by
    rw [hneeds, List.length_cons] at hlen
    exact List.length_eq_zero_iff.mp (by omega)
  have hgroup : IsGroup group :=
    SetupGrub.needed_mem (hneeds ▸ List.mem_cons_self)
  have hlines : (SetupGrub.mobofix (asServer i) f.lines).grub
      = f.before ++ cmdline (SetupGrub.newValue .server (needed (asServer i))
        f.value) :: f.after := SetupGrub.mobofix_lines (asServer i) f
  rw [hneeds] at hlines
  refine ⟨?_, hrest⟩
  rw [stage, SetupGrub.grubtime, SetupGrub.timeouts_eq, hlines,
    List.map_append, List.map_cons]
  show _ ++ timeoutsLine (cmdline group) :: _ = _
  rw [timeoutsLine_cmdline (Or.inr hgroup)]

/-- **SERVERS**: a finished set-up of a server that calls for a parameter has
    configured it iff the order asks for no desktop and no interface is stacked
    on another. -/
theorem server_configured_iff {i : Install} (hserver : osType i = .server)
    (hneeds : needed (asServer i) ≠ []) (f : GrubFile .server) {st : System}
    (hst : grubLines st = f.lines) (starts : List (Start × Nat)) (last : Start)
    (hgoes : GoesOn i (run (masterCut i) st starts)) :
    Configured i f last.ifs
        ((master i last).exec (run (masterCut i) st starts))
      ↔ gnomeOrder i = false ∧ ∀ n ∈ last.ifs, n.link = none := by
  have hgrub := grub_converges (hst ▸ anchorOnce_server hneeds f) hgoes last
  have hnetwork := network_converges hgoes last
  rw [driverFixed_needed hneeds, hst] at hgrub
  obtain ⟨group, rest, hgroups⟩ := List.exists_cons_of_ne_nil hneeds
  have hgroup : IsGroup group :=
    SetupGrub.needed_mem (hgroups ▸ List.mem_cons_self)
  obtain ⟨hdesktop, hstays⟩ := fixed_gnome hserver
  cases hgnome : gnomeOrder i with
  | true =>
      refine iff_of_false ?_ (fun h => Bool.noConfusion h.1)
      rintro ⟨⟨value, hvalue, hcount⟩, -⟩
      rw [hgrub, stage_desktop (hdesktop hgnome)] at hvalue
      have hnil : value = [] := (SetupGrub.cmdline_inj
        (List.cons.inj (List.append_cancel_left hvalue)).1).symm
      -- a word of the group is not in the empty value
      obtain ⟨w, hw⟩ := List.exists_mem_of_ne_nil (splitWords group)
        (by rcases hgroup with rfl | rfl | rfl <;> decide)
      have hone := hcount group (hgroups ▸ List.mem_cons_self) w hw
      rw [hnil] at hone
      exact Nat.zero_ne_one hone
  | false =>
      have hsame := hstays hgnome
      obtain ⟨hstage, hrest⟩ := stage_server f hgroups
      rw [hsame] at hgrub hnetwork
      rw [if_pos (show (asServer i).ostype = .server from rfl)] at hnetwork
      have hcovers := SetupNetplan.covers_generate_iff
        SetupNetplan.netmanHeader_eq rfl last.ifs (fun _ => none)
      rw [Covers, SetupNetplan.linesOf_generate
        SetupNetplan.netmanHeader_eq] at hcovers
      rw [Configured, Covers, hnetwork, hcovers]
      refine ⟨fun h => ⟨rfl, h.2⟩, fun h => ⟨⟨group, ?_, ?_⟩, h.2⟩⟩
      · rw [hgrub, hstage]
      · intro group' hmem w hw
        rw [hgroups, hrest, List.mem_singleton] at hmem
        subst hmem
        exact (SetupGrub.count_group hgroup hw).2

/-! ### A server with a 640L -/

/-- A board that calls for a parameter, and a controller. -/
def wrxServer : Install where
  site := ⟨["RocketRAID 640L 4 Port".toList], [], "WRX90 WS EVO".toList⟩
  mediaInfo := ["Server".toList]
  osRelease := []

theorem stockOther : ∀ line ∈ ["GRUB_TIMEOUT=0".toList] ++ [],
    ¬ SetupGrub.splashEnd <:+: line ∧ ¬ SetupGrub.emptyDefault <:+: line := by
  intro line hline
  rw [List.append_nil, List.mem_singleton] at hline
  subst hline
  exact ⟨by decide, by decide⟩

/-- A server's file as it is installed. -/
def stockServer : GrubFile .server where
  before := ["GRUB_TIMEOUT=0".toList]
  value := []
  after := []
  others := stockOther
  noQuote := List.not_mem_nil
  stock := rfl
  fresh := fun _ _ => List.not_mem_nil

/-- Before the first start. -/
def imagedServer : System where
  machine :=
    { files := fun p =>
        match p with
        | .bashrc => some ⟨[masterCall], true⟩
        | .grub => some ⟨stockServer.lines, true⟩
        | _ => none
      installed := [] }
  network := fun _ => none
  sleepFlag := false
  log := []

/-- A start on the interfaces of the VLAN machine. -/
def vlanStart : Start := ⟨true, SetupNetplan.vlanMachine⟩

/-- The first start is cut off behind the driver, the second one goes on. -/
theorem goesOn_wrxServer :
    GoesOn wrxServer (run (masterCut wrxServer) imagedServer
      [(vlanStart, 2)]) := by
  refine ⟨rfl, ?_⟩
  intro c
  cases c <;> rfl

/-- A start is cut off behind its driver, the next one goes on. -/
theorem setup_converges_wrxServer :
    grubLines ((master wrxServer vlanStart).exec
          (run (masterCut wrxServer) imagedServer [(vlanStart, 2)]))
        = stage (fixed wrxServer) (driverFixed wrxServer.site
          (passesOf wrxServer imagedServer [(vlanStart, 2)])
          (grubLines imagedServer))
      ∧ linesOf ((master wrxServer vlanStart).exec
          (run (masterCut wrxServer) imagedServer
            [(vlanStart, 2)])).network .netcfg
        = if (fixed wrxServer).ostype = .server then
            IndentText.printNodes 2 0
              [document [] (nicsArray (ipBrief vlanStart.ifs))]
          else linesOf imagedServer.network .netcfg :=
  setup_converges wrxServer imagedServer [(vlanStart, 2)] vlanStart
    (anchorOnce_server (by decide) stockServer) goesOn_wrxServer

/-- The same server, with a VLAN. -/
theorem server_configured_wrxServer :
    Configured wrxServer stockServer vlanStart.ifs
        ((master wrxServer vlanStart).exec
          (run (masterCut wrxServer) imagedServer [(vlanStart, 2)]))
      ↔ gnomeOrder wrxServer = false ∧ ∀ n ∈ vlanStart.ifs, n.link = none :=
  server_configured_iff rfl (by decide) stockServer rfl [(vlanStart, 2)]
    vlanStart goesOn_wrxServer

end SetupMaster
