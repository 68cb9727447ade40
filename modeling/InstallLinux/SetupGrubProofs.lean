import InstallLinux.SetupDriverProofs
import InstallLinux.ShellSedProofs
import Mathlib.Data.List.Basic

/-! # The GRUB stage — edits that consume each other's anchor

    `_mobofix` adds kernel parameters to `/etc/default/grub` by one `sed` for
    each condition, all anchored on `splash"` on the desktop and on an empty
    value on the server; `_grubtime` rewrites the timeout by unanchored
    replacements.

    * `mobofix_grub` and `mobofix_lines`: the first matching edit takes the
      anchor away, so of several parameters only the first arrives
      (`paramsReach_iff`);
    * `stageLine_fixed`: no replacement makes a new match, so the stage is
      idempotent (`stage_idempotent`);
    * `timeoutsLine_eq_iff`: what the timeout edits leave alone
      (`grubtime_exact_iff`). -/

namespace SetupGrub

open ShellText ShellSed SetupDriver

/-! ## The source functions -/

/-- What `_mobofix` reads besides `/etc/default/grub`. -/
structure Machine where
  motherboard : Text
  osversion : Text
  ostype : OsType
  /-- what `lspci -v` prints -/
  lspci : List Text
  order : List Text

def nomodeset : Text := "nomodeset".toList

def iommu : Text := "amd-iommu=on iommu=pt pci=nommconf".toList

def simpledrm : Text := "initcall_blacklist=simpledrm_platform_driver_init".toList

def splashEnd : Text := "splash\"".toList

def emptyDefault : Text := "GRUB_CMDLINE_LINUX_DEFAULT=\"\"".toList

/-- What the anchor becomes. -/
def withParam (ostype : OsType) (param : Text) : Text :=
  match ostype with
  | .desktop => "splash ".toList ++ param ++ ['"']
  | .server => "GRUB_CMDLINE_LINUX_DEFAULT=\"".toList ++ param ++ ['"']

def anchor : OsType → Text
  | .desktop => splashEnd
  | .server => emptyDefault

/-- The pair of `sed` calls for one parameter group. -/
def addParam (ostype : OsType) (param : Text) (grub : List Text) : List Text :=
  sedReplace (anchor ostype) (withParam ostype param) grub

def isWrx (motherboard : Text) : Bool :=
  motherboard = "Pro WS WRX80E-SAGE SE WIFI".toList
    || motherboard = "WRX90 WS EVO".toList

def isMs73 (motherboard : Text) : Bool :=
  motherboard = "MS73-HB0-000".toList

def isProArt (motherboard : Text) : Bool :=
  motherboard = "ProArt X670E-CREATOR WIFI".toList

def isNoble (osversion : Text) : Bool :=
  osversion = "24.04".toList

/-- What `_mobofix` leaves: the files it has copied, and `/etc/default/grub`. -/
structure Mobofix where
  copies : List (String × String)
  grub : List Text

def mobofix (m : Machine) (grub : List Text) : Mobofix :=
  let grub :=
    if isMs73 m.motherboard then
      if grep "ASPEED".toList m.lspci then addParam m.ostype nomodeset grub
      else grub
    else grub
  let wrxCopies :=
    if isWrx m.motherboard && m.ostype = .desktop then
      [("~/install/assets/fixes/source/90-pulseaudio.rules",
        "/lib/udev/rules.d/90-pulseaudio.rules"),
       ("~/install/assets/fixes/source/asus-wrx80-usb-audio.conf",
        "/usr/share/pulseaudio/alsa-mixer/profile-sets/asus-wrx80-usb-audio.conf")]
    else []
  let grub :=
    if isWrx m.motherboard then addParam m.ostype iommu grub else grub
  let grub :=
    if isProArt m.motherboard then addParam m.ostype iommu grub else grub
  let trxCopies :=
    if grepDots "\"name\":\"Gigabyte TRX40 AORUS PRO WIFI (Rev. 1.1)\"".toList
        m.order && m.ostype = .desktop then
      [("~/install/assets/fixes/source/Realtek-ALC1220-VB-Desktop.conf",
        "/usr/share/alsa/ucm2/USB-Audio/Realtek-ALC1220-VB-Desktop.conf"),
       ("~/install/assets/fixes/source/Realtek-ALC1220-VB-Desktop-HiFi.conf",
        "/usr/share/alsa/ucm2/USB-Audio/Realtek-ALC1220-VB-Desktop-HiFi.conf")]
    else []
  let grub :=
    if isNoble m.osversion then
      if m.ostype = .desktop then addParam .desktop simpledrm grub else grub
    else grub
  ⟨wrxCopies ++ trxCopies, grub⟩

/-- The three timeout edits. -/
def timeouts (grub : List Text) : List Text :=
  sedReplaceAll "GRUB_TIMEOUT_STYLE=hidden".toList
    "GRUB_TIMEOUT_STYLE=menu".toList
    (sedReplaceAll "GRUB_TIMEOUT=0".toList "GRUB_TIMEOUT=5".toList
      (sedReplaceAll "GRUB_TIMEOUT=10".toList "GRUB_TIMEOUT=5".toList grub))

def grubtime (grub : List Text) : List Text :=
  timeouts grub

/-- The first edit of the GRUB fix in `vizgen_automation.sh`. -/
def vizgenCmdline (grub : List Text) : List Text :=
  sedReplace
    "GRUB_CMDLINE_LINUX_DEFAULT=\"nomodeset amd-iommu=on iommu=pt pci=nommconf\"".toList
    "GRUB_CMDLINE_LINUX_DEFAULT=\"amd-iommu=on iommu=pt pci=nommconf\"".toList
    grub

def vizgenGrub (grub : List Text) : List Text :=
  timeouts (vizgenCmdline grub)

/-! ## The parameters a machine calls for -/

/-- The conditions of `_mobofix`, each with its parameter group. -/
def needed (m : Machine) : List Text :=
  (if isMs73 m.motherboard && grep "ASPEED".toList m.lspci then [nomodeset]
    else [])
  ++ (if isWrx m.motherboard || isProArt m.motherboard then [iommu] else [])
  ++ (if isNoble m.osversion && m.ostype = .desktop then [simpledrm] else [])

/-- One edit on one line. -/
def addParamLine (ostype : OsType) (line param : Text) : Text :=
  replaceFirst (anchor ostype) (withParam ostype param) line

/-- A guarded edit, line by line. -/
theorem addParam_if (ostype : OsType) (called : Bool) (param : Text)
    (grub : List Text) :
    (if called then addParam ostype param grub else grub)
      = grub.map (fun line =>
          (if called then [param] else []).foldl (addParamLine ostype)
            line) := by
  cases called with
  | true => rfl
  | false => exact (List.map_id _).symm

/-- No board is both. -/
theorem iommu_once (motherboard : Text) :
    (if isWrx motherboard then [iommu] else [])
        ++ (if isProArt motherboard then [iommu] else [])
      = if isWrx motherboard || isProArt motherboard then [iommu] else [] := by
  by_cases hpro : motherboard = "ProArt X670E-CREATOR WIFI".toList
  · subst hpro
    rfl
  · have hno : isProArt motherboard = false := decide_eq_false hpro
    rw [hno, Bool.or_false]
    simp

/-- **THE EDITS**: `_mobofix` edits every line for each group in turn. -/
theorem mobofix_grub (m : Machine) (grub : List Text) :
    (mobofix m grub).grub
      = grub.map (fun line =>
          (needed m).foldl (addParamLine m.ostype) line) := by
  have hms : ∀ g : List Text,
      (if isMs73 m.motherboard then
          if grep "ASPEED".toList m.lspci then addParam m.ostype nomodeset g
          else g
        else g)
      = if isMs73 m.motherboard && grep "ASPEED".toList m.lspci then
          addParam m.ostype nomodeset g
        else g := by
    intro g
    cases isMs73 m.motherboard <;> rfl
  have hnoble : ∀ g : List Text,
      (if isNoble m.osversion then
          if m.ostype = .desktop then addParam .desktop simpledrm g else g
        else g)
      = if isNoble m.osversion && m.ostype = .desktop then
          addParam m.ostype simpledrm g
        else g := by
    intro g
    cases isNoble m.osversion with
    | false => rfl
    | true => cases m.ostype <;> rfl
  simp only [mobofix, hms, hnoble]
  simp only [addParam_if, List.map_map]
  refine List.map_congr_left ?_
  intro line _
  simp only [Function.comp_apply, needed, ← iommu_once, List.foldl_append]

/-! ## One parameter line -/

def defaultKey : Text := "GRUB_CMDLINE_LINUX_DEFAULT=".toList

def splashWord : Text := "splash".toList

/-- The line `GRUB_CMDLINE_LINUX_DEFAULT="value"`. -/
def cmdline (value : Text) : Text :=
  defaultKey ++ '"' :: (value ++ ['"'])

/-- A line tells its value. -/
theorem cmdline_inj {v w : Text} (h : cmdline v = cmdline w) : v = w :=
  List.append_cancel_right
    (List.cons.inj (List.append_cancel_left h)).2

theorem splashEnd_eq : splashEnd = splashWord ++ ['"'] := rfl

theorem withParam_desktop (param : Text) :
    withParam .desktop param = splashWord ++ ' ' :: (param ++ ['"']) := rfl

theorem withParam_server (param : Text) :
    withParam .server param = cmdline param := rfl

/-- Before the closing quote the anchor is not found. -/
theorem splash_free {v : Text} (hv : '"' ∉ v) :
    ¬ splashEnd <:+: defaultKey ++ '"' :: v := by
  rintro ⟨front, back, heq⟩
  have hname : '"' ∉ defaultKey := by decide
  have hsplit : (front ++ splashWord) ++ '"' :: back
      = defaultKey ++ '"' :: v := by
    rw [← heq, splashEnd_eq]
    simp only [List.append_assoc, List.singleton_append]
  -- the only quote is the opening one, and `=` stands in front of it
  obtain ⟨hfront, -, -⟩ :=
    (List.append_cons_inj_of_notMem hname hv).mp hsplit.symm
  have hsuffix : splashWord <:+ defaultKey := ⟨front, hfront.symm⟩
  exact absurd hsuffix (by decide)

/-- The anchor is in such a line only where the value ends in `splash`. -/
theorem splash_in_cmdline {v : Text} (hv : '"' ∉ v)
    (h : splashEnd <:+: cmdline v) : splashWord <:+ v := by
  have hsplit : cmdline v = (defaultKey ++ '"' :: v) ++ ['"'] := by
    rw [cmdline, List.append_assoc, List.cons_append]
  rw [hsplit, List.infix_concat_iff] at h
  obtain ⟨front, hfront⟩ := h.resolve_right (splash_free hv)
  rw [splashEnd_eq, ← List.append_assoc] at hfront
  have hsuffix : splashWord <:+ defaultKey ++ '"' :: v :=
    ⟨front, List.append_cancel_right hfront⟩
  -- it cannot reach back over the opening quote
  have hquoted : '"' :: v <:+ defaultKey ++ '"' :: v :=
    List.suffix_append _ _
  rcases List.suffix_or_suffix_of_suffix hsuffix hquoted with hin | hover
  · exact (List.suffix_cons_iff.mp hin).resolve_left
      (fun heq => absurd (List.cons.inj heq).1 (by decide))
  · exact absurd (hover.subset List.mem_cons_self) (by decide)

/-- The first edit on the desktop goes in at the end of the value. -/
theorem addParamLine_splash {u : Text} (hv : '"' ∉ u ++ splashWord)
    (param : Text) :
    addParamLine .desktop (cmdline (u ++ splashWord)) param
      = cmdline (u ++ splashWord ++ ' ' :: param) := by
  have hmatch : cmdline (u ++ splashWord)
      = (defaultKey ++ '"' :: u) ++ (splashEnd ++ []) := by
    rw [cmdline, splashEnd_eq]
    simp only [List.append_assoc, List.cons_append, List.append_nil]
  have hdrop : splashEnd.dropLast = splashWord := by decide
  have hfree : ¬ splashEnd <:+: (defaultKey ++ '"' :: u) ++ splashEnd.dropLast := by
    rw [hdrop, List.append_assoc, List.cons_append]
    exact splash_free hv
  rw [addParamLine, anchor, hmatch, replaceFirst_match (by decide) hfree,
    withParam_desktop, cmdline]
  simp only [List.append_assoc, List.cons_append, List.append_nil]

/-- The edit on the server fills the empty value. -/
theorem addParamLine_empty (param : Text) :
    addParamLine .server (cmdline []) param = cmdline param := by
  have hmatch : cmdline [] = [] ++ (emptyDefault ++ []) := by decide
  rw [addParamLine, anchor, hmatch, replaceFirst_match (by decide) (by decide),
    withParam_server, List.append_nil, List.nil_append]

/-! ## A stock file -/

/-- The words of all parameter groups. -/
def paramWords : List Text :=
  [nomodeset, iommu, simpledrm].flatMap splitWords

/-- `/etc/default/grub` with one parameter line of the stock form. -/
structure GrubFile (ostype : OsType) where
  before : List Text
  value : Text
  after : List Text
  others : ∀ line ∈ before ++ after,
    ¬ splashEnd <:+: line ∧ ¬ emptyDefault <:+: line
  noQuote : '"' ∉ value
  stock : match ostype with
    | .desktop => splashWord <:+ value
        ∧ (splitWords value).getLast? = some splashWord
    | .server => value = []
  fresh : ∀ w ∈ paramWords, w ∉ splitWords value

def GrubFile.lines {ostype : OsType} (f : GrubFile ostype) : List Text :=
  f.before ++ cmdline f.value :: f.after

/-- Every parameter the machine calls for is in the value exactly once, the old
    value too, and the other lines are unchanged. -/
def ParamsReach (m : Machine) (f : GrubFile m.ostype) : Prop :=
  ∃ value, (mobofix m f.lines).grub = f.before ++ cmdline value :: f.after
    ∧ f.value <:+: value
    ∧ ∀ group ∈ needed m, ∀ w ∈ splitWords group,
      (splitWords value).count w = 1

/-- The value after the edits. -/
def newValue (ostype : OsType) (groups : List Text) (value : Text) : Text :=
  match groups with
  | [] => value
  | group :: _ =>
      match ostype with
      | .desktop => value ++ ' ' :: group
      | .server => group

theorem addParamLine_of_absent {ostype : OsType} {line : Text}
    (h : ¬ anchor ostype <:+: line) (groups : List Text) :
    groups.foldl (addParamLine ostype) line = line := by
  induction groups with
  | nil => rfl
  | cons group rest ih =>
      rw [List.foldl_cons, addParamLine, replaceFirst_of_absent h]
      exact ih

/-- One of the three parameter groups. -/
def IsGroup (group : Text) : Prop :=
  group = nomodeset ∨ group = iommu ∨ group = simpledrm

/-- What is called for is a parameter group. -/
theorem needed_mem {m : Machine} {group : Text} (h : group ∈ needed m) :
    IsGroup group := by
  rw [needed, List.mem_append, List.mem_append] at h
  rcases h with (h | h) | h
  · split at h
    · exact Or.inl (List.mem_singleton.mp h)
    · exact absurd h List.not_mem_nil
  · split at h
    · exact Or.inr (Or.inl (List.mem_singleton.mp h))
    · exact absurd h List.not_mem_nil
  · split at h
    · exact Or.inr (Or.inr (List.mem_singleton.mp h))
    · exact absurd h List.not_mem_nil

/-- No group ends in the anchor's word, behind a blank or not. -/
theorem not_splash_behind {group : Text} (h : IsGroup group) (v : Text) :
    ¬ splashWord <:+ v ++ ' ' :: group := by
  intro hsuffix
  have hgroup : group <:+ v ++ ' ' :: group :=
    (List.suffix_cons ' ' group).trans (List.suffix_append v _)
  have hlen : splashWord.length ≤ group.length := by
    rcases h with rfl | rfl | rfl <;> decide
  have hin := List.suffix_of_suffix_length_le hsuffix hgroup hlen
  rcases h with rfl | rfl | rfl <;> exact absurd hin (by decide)

/-- The board calls for a parameter group of its own. -/
def boardCalls (m : Machine) : Bool :=
  (isMs73 m.motherboard && grep "ASPEED".toList m.lspci)
    || isWrx m.motherboard || isProArt m.motherboard

/-- The release does. -/
def releaseCalls (m : Machine) : Bool :=
  isNoble m.osversion && m.ostype = .desktop

/-- **THE GROUPS**: at most one for the board, then at most one for the
    release. -/
theorem needed_cases (m : Machine) :
    ∃ board, needed m = board ++ (if releaseCalls m then [simpledrm] else [])
      ∧ (boardCalls m = false ∧ board = []
        ∨ boardCalls m = true ∧ (board = [nomodeset] ∨ board = [iommu])) := by
  refine ⟨_, rfl, ?_⟩
  rw [boardCalls, Bool.or_assoc]
  by_cases hms : m.motherboard = "MS73-HB0-000".toList
  · -- the board is none of the other three
    have hother : (isWrx m.motherboard || isProArt m.motherboard) = false := by
      rw [hms]
      rfl
    rw [hother, Bool.or_false]
    cases isMs73 m.motherboard && grep "ASPEED".toList m.lspci with
    | false => exact Or.inl ⟨rfl, rfl⟩
    | true => exact Or.inr ⟨rfl, Or.inl rfl⟩
  · have hno : isMs73 m.motherboard = false := decide_eq_false hms
    rw [hno, Bool.false_and, Bool.false_or]
    cases isWrx m.motherboard || isProArt m.motherboard with
    | false => exact Or.inl ⟨rfl, rfl⟩
    | true => exact Or.inr ⟨rfl, Or.inr rfl⟩

/-- Unless both call, there is at most one group. -/
theorem needed_length_le {m : Machine}
    (h : ¬ (boardCalls m = true ∧ releaseCalls m = true)) :
    (needed m).length ≤ 1 := by
  obtain ⟨board, hneeded, hboard⟩ := needed_cases m
  rw [hneeded]
  cases hr : releaseCalls m with
  | false => rcases hboard with ⟨-, rfl⟩ | ⟨-, rfl | rfl⟩ <;> simp
  | true =>
      rcases hboard with ⟨-, rfl⟩ | ⟨hb, -⟩
      · simp
      · exact absurd ⟨hb, hr⟩ h

/-- On the server the release calls for nothing. -/
theorem needed_server {m : Machine} (h : m.ostype = .server) :
    (needed m).length ≤ 1 := by
  refine needed_length_le ?_
  rintro ⟨-, hr⟩
  rw [releaseCalls, h] at hr
  simp at hr

/-- **THE PARAMETER LINE**: the first group goes in, and takes the anchor of
    the others away. -/
theorem foldl_cmdline {ostype : OsType} (f : GrubFile ostype)
    {groups : List Text} (hgroups : ∀ group ∈ groups, IsGroup group)
    (hserver : ostype = .server → groups.length ≤ 1) :
    groups.foldl (addParamLine ostype) (cmdline f.value)
      = cmdline (newValue ostype groups f.value) := by
  obtain ⟨before, value, after, -, hquote, hstock, -⟩ := f
  cases groups with
  | nil => rfl
  | cons group rest =>
      have hgroup := hgroups group List.mem_cons_self
      rw [List.foldl_cons]
      cases ostype with
      | desktop =>
          obtain ⟨⟨u, rfl⟩, -⟩ := hstock
          rw [addParamLine_splash hquote]
          refine addParamLine_of_absent ?_ rest
          -- no quote has come in, and the value no longer ends in the word
          have hquote' : '"' ∉ u ++ splashWord ++ ' ' :: group := by
            rw [List.mem_append, not_or]
            refine ⟨hquote, ?_⟩
            rcases hgroup with rfl | rfl | rfl <;> decide
          exact fun hin => not_splash_behind hgroup _
            (splash_in_cmdline hquote' hin)
      | server =>
          have hvalue : value = [] := hstock
          subst hvalue
          have hrest : rest = [] := by
            have hlen := hserver rfl
            rw [List.length_cons] at hlen
            exact List.length_eq_zero_iff.mp (by omega)
          subst hrest
          exact addParamLine_empty group

/-- **THE FILE**: only the parameter line changes. -/
theorem mobofix_lines (m : Machine) (f : GrubFile m.ostype) :
    (mobofix m f.lines).grub
      = f.before ++ cmdline (newValue m.ostype (needed m) f.value)
        :: f.after := by
  have hkeep : ∀ line ∈ f.before ++ f.after,
      (needed m).foldl (addParamLine m.ostype) line = line := by
    intro line hline
    obtain ⟨hsplash, hempty⟩ := f.others line hline
    refine addParamLine_of_absent ?_ (needed m)
    cases m.ostype with
    | desktop => exact hsplash
    | server => exact hempty
  have hfix : ∀ lines : List Text, (∀ line ∈ lines,
      (needed m).foldl (addParamLine m.ostype) line = line) →
      lines.map (fun line => (needed m).foldl (addParamLine m.ostype) line)
        = lines :=
    fun lines h => (List.map_congr_left h).trans (List.map_id _)
  rw [mobofix_grub, GrubFile.lines, List.map_append, List.map_cons,
    hfix f.before (fun l hl => hkeep l (List.mem_append_left _ hl)),
    hfix f.after (fun l hl => hkeep l (List.mem_append_right _ hl)),
    foldl_cmdline f (fun _ hg => needed_mem hg)
      (fun h => needed_server h)]

/-- The words of the new value. -/
theorem splitWords_newValue {ostype : OsType} (f : GrubFile ostype)
    (group : Text) (rest : List Text) :
    splitWords (newValue ostype (group :: rest) f.value)
      = splitWords f.value ++ splitWords group := by
  have hstock := f.stock
  cases ostype with
  | desktop => exact splitWords_append_blank rfl f.value group
  | server =>
      have hvalue : f.value = [] := hstock
      rw [hvalue]
      rfl

/-- What the groups count in each other. -/
theorem count_group {group w : Text} (h : IsGroup group)
    (hw : w ∈ splitWords group) :
    w ∈ paramWords ∧ (splitWords group).count w = 1 := by
  have hall : ∀ g : Text, (splitWords g).all
      (fun w => paramWords.contains w && (splitWords g).count w == 1) = true →
      w ∈ splitWords g → w ∈ paramWords ∧ (splitWords g).count w = 1 := by
    intro g hg hw
    have hone := List.all_eq_true.mp hg w hw
    rw [Bool.and_eq_true, List.contains_iff_mem, beq_iff_eq] at hone
    exact hone
  rcases h with rfl | rfl | rfl
  · exact hall _ rfl hw
  · exact hall _ rfl hw
  · exact hall _ rfl hw

theorem value_infix_newValue {ostype : OsType} (f : GrubFile ostype)
    (groups : List Text) : f.value <:+: newValue ostype groups f.value := by
  have hstock := f.stock
  cases groups with
  | nil => exact List.infix_rfl
  | cons group rest =>
      cases ostype with
      | desktop => exact (List.prefix_append _ _).isInfix
      | server =>
          have hvalue : f.value = [] := hstock
          rw [hvalue]
          exact List.nil_infix

/-- **ALL PARAMETERS**: they reach the kernel command line iff not both the
    board and the release call for one. -/
theorem paramsReach_iff (m : Machine) (f : GrubFile m.ostype) :
    ParamsReach m f ↔ ¬ (boardCalls m = true ∧ releaseCalls m = true) := by
  obtain ⟨board, hneeded, hboard⟩ := needed_cases m
  constructor
  · rintro ⟨value, hgrub, -, hcount⟩ ⟨hb, hr⟩
    rw [mobofix_lines] at hgrub
    have hvalue : newValue m.ostype (needed m) f.value = value :=
      cmdline_inj (List.cons.inj (List.append_cancel_left hgrub)).1
    rw [hr, if_pos rfl] at hneeded
    have hmem : simpledrm ∈ needed m := by
      rw [hneeded]
      exact List.mem_append_right _ List.mem_cons_self
    have hone := hcount simpledrm hmem simpledrm (by decide)
    -- only the board's group has come in
    have hfresh : (splitWords f.value).count simpledrm = 0 :=
      List.count_eq_zero.mpr (f.fresh simpledrm (by decide))
    rcases hboard with ⟨hno, -⟩ | ⟨-, rfl | rfl⟩
    · exact Bool.false_ne_true (hno.symm.trans hb)
    · rw [← hvalue, hneeded, List.cons_append, splitWords_newValue,
        List.count_append, hfresh] at hone
      exact absurd hone (by decide)
    · rw [← hvalue, hneeded, List.cons_append, splitWords_newValue,
        List.count_append, hfresh] at hone
      exact absurd hone (by decide)
  · intro hnot
    refine ⟨_, mobofix_lines m f, value_infix_newValue f _, ?_⟩
    intro group hgroup w hw
    have hsingle : needed m = [group] := by
      have hlen := needed_length_le hnot
      cases hgroups : needed m with
      | nil => exact absurd (hgroups ▸ hgroup) List.not_mem_nil
      | cons g rest =>
          rw [hgroups, List.length_cons] at hlen
          have hrest : rest = [] := List.length_eq_zero_iff.mp (by omega)
          rw [hgroups, hrest] at hgroup
          rw [hrest, List.mem_singleton.mp hgroup]
    obtain ⟨hparam, hone⟩ := count_group (needed_mem hgroup) hw
    rw [hsingle, splitWords_newValue, List.count_append, hone,
      List.count_eq_zero.mpr (f.fresh w hparam)]

/-! ### A WRX90 board with 24.04 -/

def wrx90 : Machine where
  motherboard := "WRX90 WS EVO".toList
  osversion := "24.04".toList
  ostype := .desktop
  lspci := []
  order := []

/-- `GRUB_CMDLINE_LINUX_DEFAULT="quiet splash"`. -/
def quietSplash : GrubFile .desktop where
  before := ["GRUB_TIMEOUT=0".toList]
  value := "quiet splash".toList
  after := []
  others := by
    intro line hline
    rw [List.mem_singleton.mp hline]
    exact ⟨by decide, by decide⟩
  noQuote := by decide
  stock := ⟨by decide, rfl⟩
  fresh := by
    intro w hw hin
    have hall : paramWords.all
        (fun w => !(splitWords "quiet splash".toList).contains w) = true := by
      rfl
    have hno := List.all_eq_true.mp hall w hw
    rw [List.contains_iff_mem.mpr hin] at hno
    exact Bool.noConfusion hno

/-- The board's parameters arrive, the one of the release does not. -/
theorem wrx90_misses_simpledrm :
    ¬ ∀ (m : Machine) (f : GrubFile m.ostype), ParamsReach m f := by
  intro hall
  obtain ⟨value, hgrub, -, hcount⟩ := hall wrx90 quietSplash
  have hone := hcount simpledrm (by decide) simpledrm (by decide)
  have hlines := (mobofix_lines wrx90 quietSplash).symm.trans hgrub
  have hvalue := cmdline_inj (List.cons.inj (List.append_cancel_left hlines)).1
  rw [← hvalue] at hone
  exact absurd hone (by decide)

/-! ## The stage again -/

/-- `_mobofix` then `_grubtime`, as `master.sh` calls them. -/
def stage (m : Machine) (grub : List Text) : List Text :=
  grubtime (mobofix m grub).grub

def timeout10 : Text := "GRUB_TIMEOUT=10".toList

def timeout0 : Text := "GRUB_TIMEOUT=0".toList

def timeout5 : Text := "GRUB_TIMEOUT=5".toList

def styleHidden : Text := "GRUB_TIMEOUT_STYLE=hidden".toList

def styleMenu : Text := "GRUB_TIMEOUT_STYLE=menu".toList

/-- The timeout edits on one line. -/
def timeoutsLine (line : Text) : Text :=
  replaceAll styleHidden styleMenu
    (replaceAll timeout0 timeout5 (replaceAll timeout10 timeout5 line))

theorem timeouts_eq (grub : List Text) :
    timeouts grub = grub.map timeoutsLine := by
  simp only [timeouts, sedReplaceAll, List.map_map]
  rfl

/-- The stage on one line. -/
def stageLine (m : Machine) (line : Text) : Text :=
  timeoutsLine ((needed m).foldl (addParamLine m.ostype) line)

theorem stage_eq (m : Machine) (grub : List Text) :
    stage m grub = grub.map (stageLine m) := by
  rw [stage, grubtime, timeouts_eq, mobofix_grub, List.map_map]
  rfl

/-- The timeout edits bring in no text that overlaps neither of the two they
    write. -/
theorem absent_timeoutsLine {q : Text} (h5 : inert q timeout5 = true)
    (hmenu : inert q styleMenu = true) {line : Text} (h : ¬ q <:+: line) :
    ¬ q <:+: timeoutsLine line := by
  have h10 := absent_replaceAll (by decide : timeout10 ≠ []) h5 line h
  have h0 := absent_replaceAll (by decide : timeout0 ≠ []) h5 _ h10
  exact absent_replaceAll (by decide : styleHidden ≠ []) hmenu _ h0

/-- **NO TIMEOUT TWICE**: after the three edits none of their texts is left. -/
theorem timeoutsLine_clears (line : Text) :
    ¬ timeout10 <:+: timeoutsLine line
      ∧ ¬ timeout0 <:+: timeoutsLine line
      ∧ ¬ styleHidden <:+: timeoutsLine line := by
  have h10 := @replaceAll_clears timeout10 timeout5 (by decide) (by decide) line
  have h0 := @replaceAll_clears timeout0 timeout5 (by decide) (by decide)
    (replaceAll timeout10 timeout5 line)
  -- each text is gone after its own edit, and the later ones bring none back
  have h10' := absent_replaceAll (by decide : timeout0 ≠ [])
    (by decide : inert timeout10 timeout5 = true) _ h10
  refine ⟨?_, ?_, ?_⟩
  · exact absent_replaceAll (by decide) (by decide) _ h10'
  · exact absent_replaceAll (by decide) (by decide) _ h0
  · exact replaceAll_clears (by decide) (by decide) _

theorem timeoutsLine_of_absent {line : Text} (h10 : ¬ timeout10 <:+: line)
    (h0 : ¬ timeout0 <:+: line) (hstyle : ¬ styleHidden <:+: line) :
    timeoutsLine line = line := by
  rw [timeoutsLine, replaceAll_of_absent h10, replaceAll_of_absent h0,
    replaceAll_of_absent hstyle]

theorem inert_withParam (ostype : OsType) {group : Text} (h : IsGroup group) :
    inert (anchor ostype) (withParam ostype group) = true := by
  cases ostype <;> rcases h with rfl | rfl | rfl <;> decide +kernel

/-- Where a parameter is called for, the anchor is gone afterwards. -/
theorem foldl_clears {ostype : OsType} {groups : List Text}
    (hgroups : ∀ group ∈ groups, IsGroup group)
    (hne : groups ≠ []) {line : Text}
    (hone : occurrences (anchor ostype) line ≤ 1) :
    ¬ anchor ostype <:+: groups.foldl (addParamLine ostype) line := by
  cases groups with
  | nil => exact absurd rfl hne
  | cons group rest =>
      have hanchor : anchor ostype ≠ [] := by cases ostype <;> decide
      have hgone : ¬ anchor ostype <:+: addParamLine ostype line group :=
        replaceFirst_clears hanchor
          (inert_withParam ostype (hgroups group List.mem_cons_self)) hone
      rw [List.foldl_cons, addParamLine_of_absent hgone]
      exact hgone

/-- **ONE LINE AGAIN**: neither half of the stage finds anything left to do. -/
theorem stageLine_fixed (m : Machine) {line : Text}
    (hone : occurrences (anchor m.ostype) line ≤ 1) :
    (needed m).foldl (addParamLine m.ostype) (stageLine m line)
        = stageLine m line
      ∧ timeoutsLine (stageLine m line) = stageLine m line := by
  constructor
  · by_cases hne : needed m = []
    · rw [hne]
      rfl
    · refine addParamLine_of_absent ?_ (needed m)
      have hgone := foldl_clears (fun _ hg => needed_mem hg) hne hone
      -- the timeout edits do not put the anchor together either
      refine absent_timeoutsLine ?_ ?_ hgone
      · cases m.ostype <;> decide
      · cases m.ostype <;> decide
  · obtain ⟨h10, h0, hstyle⟩ := timeoutsLine_clears
      ((needed m).foldl (addParamLine m.ostype) line)
    exact timeoutsLine_of_absent h10 h0 hstyle

/-- **THE STAGE AGAIN**: on a file without a line that holds an anchor twice, a
    second run changes nothing, in either half. -/
theorem stage_idempotent (m : Machine) (grub : List Text)
    (hone : ∀ line ∈ grub, occurrences splashEnd line ≤ 1
      ∧ occurrences emptyDefault line ≤ 1) :
    stage m (stage m grub) = stage m grub
      ∧ (mobofix m (stage m grub)).grub = stage m grub
      ∧ grubtime (stage m grub) = stage m grub := by
  have hanchor : ∀ line ∈ grub, occurrences (anchor m.ostype) line ≤ 1 := by
    intro line hline
    obtain ⟨hsplash, hempty⟩ := hone line hline
    cases m.ostype with
    | desktop => exact hsplash
    | server => exact hempty
  have hmobo : (mobofix m (stage m grub)).grub = stage m grub := by
    rw [stage_eq, mobofix_grub, List.map_map]
    exact List.map_congr_left
      (fun line hline => (stageLine_fixed m (hanchor line hline)).1)
  have htime : grubtime (stage m grub) = stage m grub := by
    rw [stage_eq, grubtime, timeouts_eq, List.map_map]
    exact List.map_congr_left
      (fun line hline => (stageLine_fixed m (hanchor line hline)).2)
  refine ⟨?_, hmobo, htime⟩
  rw [stage, hmobo, htime]

/-- A board that takes two parameters. -/
theorem stage_idempotent_wrx90 :
    stage wrx90 (stage wrx90 quietSplash.lines) = stage wrx90 quietSplash.lines
      ∧ (mobofix wrx90 (stage wrx90 quietSplash.lines)).grub
        = stage wrx90 quietSplash.lines
      ∧ grubtime (stage wrx90 quietSplash.lines)
        = stage wrx90 quietSplash.lines := by
  refine stage_idempotent wrx90 quietSplash.lines ?_
  have hall : quietSplash.lines.all (fun line =>
      decide (occurrences splashEnd line ≤ 1)
        && decide (occurrences emptyDefault line ≤ 1)) = true := by
    rfl
  intro line hline
  have hone := List.all_eq_true.mp hall line hline
  rw [Bool.and_eq_true, decide_eq_true_eq, decide_eq_true_eq] at hone
  exact hone

/-! ## The timeout -/

/-- A line of `/etc/default/grub`. -/
inductive GrubLine where
  | assign (name value : Text)
  | comment (text : Text)

def GrubLine.print : GrubLine → Text
  | .assign name value => name ++ '=' :: value
  | .comment text => '#' :: text

def timeoutName : Text := "GRUB_TIMEOUT".toList

def styleName : Text := "GRUB_TIMEOUT_STYLE".toList

/-- The value the fix is after. -/
def wanted (name value : Text) : Text :=
  if name = timeoutName ∧ (value = "0".toList ∨ value = "10".toList) then
    "5".toList
  else if name = styleName ∧ value = "hidden".toList then "menu".toList
  else value

/-- Every assignment has the value the fix is after. -/
def TimeoutFixed (file : List GrubLine) (grub : List Text) : Prop :=
  List.Forall₂ (fun line text => ∀ name value, line = .assign name value →
    text = (GrubLine.assign name (wanted name value)).print) file grub

/-- The assignment holds none of the three searched texts, or it is one of
    them. -/
def Kept (name value : Text) : Prop :=
  name = timeoutName ∧ (value = "0".toList ∨ value = "10".toList)
    ∨ name = styleName ∧ value = "hidden".toList
    ∨ (¬ timeout10 <:+: (GrubLine.assign name value).print
      ∧ ¬ timeout0 <:+: (GrubLine.assign name value).print
      ∧ ¬ styleHidden <:+: (GrubLine.assign name value).print)

/-- **ONE LINE**: the timeout edits leave a line alone iff it holds none of
    their texts. -/
theorem timeoutsLine_eq_iff (line : Text) :
    timeoutsLine line = line
      ↔ ¬ timeout10 <:+: line ∧ ¬ timeout0 <:+: line
        ∧ ¬ styleHidden <:+: line := by
  constructor
  · intro h
    have hclear := timeoutsLine_clears line
    rw [h] at hclear
    exact hclear
  · rintro ⟨h10, h0, hstyle⟩
    exact timeoutsLine_of_absent h10 h0 hstyle

/-- An assignment becomes the one that is wanted iff its value is kept. -/
theorem timeoutsLine_assign (name value : Text) :
    timeoutsLine (GrubLine.assign name value).print
        = (GrubLine.assign name (wanted name value)).print
      ↔ Kept name value := by
  rw [Kept, wanted]
  by_cases htime : name = timeoutName ∧ (value = "0".toList ∨ value = "10".toList)
  · rw [if_pos htime]
    refine iff_of_true ?_ (Or.inl htime)
    obtain ⟨rfl, rfl | rfl⟩ := htime <;> decide
  · rw [if_neg htime, or_iff_right htime]
    by_cases hstyle : name = styleName ∧ value = "hidden".toList
    · rw [if_pos hstyle]
      refine iff_of_true ?_ (Or.inl hstyle)
      obtain ⟨rfl, rfl⟩ := hstyle
      decide
    · rw [if_neg hstyle, or_iff_right hstyle]
      exact timeoutsLine_eq_iff _

/-- **THE WHOLE FILE**, line by line. -/
theorem timeoutFixed_map (file : List GrubLine) :
    TimeoutFixed file (timeouts (file.map GrubLine.print))
      ↔ ∀ name value, .assign name value ∈ file → Kept name value := by
  rw [TimeoutFixed, timeouts_eq, List.map_map, List.forall₂_map_right_iff,
    List.forall₂_same]
  constructor
  · intro h name value hline
    exact (timeoutsLine_assign name value).mp (h _ hline name value rfl)
  · rintro h line hline name value rfl
    exact (timeoutsLine_assign name value).mpr (h name value hline)

/-- An assignment holds another one's text only at its own equals sign. -/
theorem assign_infix_iff {name value key start : Text} (hname : '=' ∉ name)
    (hvalue : '=' ∉ value) :
    key ++ '=' :: start <:+: (GrubLine.assign name value).print
      ↔ key <:+ name ∧ start <+: value := by
  constructor
  · rintro ⟨front, back, heq⟩
    have hsplit : (front ++ key) ++ '=' :: (start ++ back)
        = name ++ '=' :: value := by
      rw [GrubLine.print] at heq
      rw [← heq]
      simp only [List.append_assoc, List.cons_append]
    obtain ⟨hfront, -, hback⟩ :=
      (List.append_cons_inj_of_notMem hname hvalue).mp hsplit.symm
    exact ⟨⟨front, hfront.symm⟩, ⟨back, hback.symm⟩⟩
  · rintro ⟨⟨front, rfl⟩, ⟨back, rfl⟩⟩
    exact ⟨front, back, by
      rw [GrubLine.print]
      simp only [List.append_assoc, List.cons_append]⟩

theorem timeout10_eq : timeout10 = timeoutName ++ '=' :: "10".toList :=
  rfl

theorem timeout0_eq : timeout0 = timeoutName ++ '=' :: "0".toList :=
  rfl

theorem styleHidden_eq : styleHidden = styleName ++ '=' :: "hidden".toList :=
  rfl

/-- For a numeral the searched texts are beginnings of it. -/
theorem kept_numeral_iff {n : Text} (hn : n.all Char.isDigit = true) :
    Kept timeoutName n
      ↔ n = "0".toList ∨ n = "10".toList
        ∨ ¬ "0".toList <+: n ∧ ¬ "10".toList <+: n := by
  have hequals : '=' ∉ n :=
    fun h => absurd (List.all_eq_true.mp hn '=' h) (by decide)
  have hname : '=' ∉ timeoutName := by decide
  have hself : timeoutName <:+ timeoutName := List.suffix_rfl
  have hother : timeoutName ≠ styleName := by decide
  have hstyle : ¬ styleName <:+ timeoutName := by decide
  rw [Kept, timeout10_eq, timeout0_eq, styleHidden_eq,
    assign_infix_iff hname hequals, assign_infix_iff hname hequals,
    assign_infix_iff hname hequals, and_iff_right hself, and_iff_right hself]
  constructor
  · rintro (⟨-, h0 | h10⟩ | ⟨hname, -⟩ | ⟨h10, h0, -⟩)
    · exact Or.inl h0
    · exact Or.inr (Or.inl h10)
    · exact absurd hname hother
    · exact Or.inr (Or.inr ⟨h0, h10⟩)
  · rintro (h0 | h10 | ⟨h0, h10⟩)
    · exact Or.inl ⟨rfl, Or.inl h0⟩
    · exact Or.inl ⟨rfl, Or.inr h10⟩
    · exact Or.inr (Or.inr ⟨h10, h0, fun h => hstyle h.1⟩)

/-- **THE BOOT TIMEOUT**: `_grubtime`, and the same edits in
    `vizgen_automation.sh` on the file its first edit leaves, give every
    assignment the wanted value iff each holds none of the searched texts or is
    one of them; for a numeral `n` in `GRUB_TIMEOUT=n`, iff it is 0 or 10 or
    begins with neither. -/
theorem grubtime_exact_iff (file : List GrubLine) :
    (TimeoutFixed file (grubtime (file.map GrubLine.print))
      ↔ ∀ name value, .assign name value ∈ file → Kept name value)
    ∧ (∀ grub, vizgenCmdline grub = file.map GrubLine.print →
      (TimeoutFixed file (vizgenGrub grub)
        ↔ ∀ name value, .assign name value ∈ file → Kept name value))
    ∧ ∀ n : Text, n.all Char.isDigit = true →
      (Kept timeoutName n
        ↔ n = "0".toList ∨ n = "10".toList
          ∨ ¬ "0".toList <+: n ∧ ¬ "10".toList <+: n) := by
  refine ⟨timeoutFixed_map file, ?_, fun n hn => kept_numeral_iff hn⟩
  intro grub hgrub
  rw [vizgenGrub, hgrub]
  exact timeoutFixed_map file

/-- The stock file, and one with a timeout of a hundred seconds. -/
def stockTimeout : List GrubLine :=
  [.comment " stock".toList, .assign timeoutName "0".toList,
   .assign styleName "hidden".toList]

def longTimeout : List GrubLine :=
  [.assign timeoutName "100".toList]

/-- A stock file, whose timeout is 5. -/
theorem grubtime_exact_stock :
    (TimeoutFixed stockTimeout (vizgenGrub (stockTimeout.map GrubLine.print))
        ↔ ∀ name value, .assign name value ∈ stockTimeout → Kept name value)
      ∧ (Kept timeoutName "5".toList
        ↔ "5".toList = "0".toList ∨ "5".toList = "10".toList
          ∨ ¬ "0".toList <+: "5".toList ∧ ¬ "10".toList <+: "5".toList) :=
  ⟨(grubtime_exact_iff stockTimeout).2.1
      (stockTimeout.map GrubLine.print) rfl,
    (grubtime_exact_iff stockTimeout).2.2 "5".toList rfl⟩

/-- A hundred seconds become fifty. -/
theorem grubtime_hundred :
    ¬ ∀ file : List GrubLine,
      TimeoutFixed file (grubtime (file.map GrubLine.print)) := by
  intro hall
  have h := (timeoutFixed_map longTimeout).mp (hall longTimeout)
    timeoutName "100".toList List.mem_cons_self
  exact absurd ((kept_numeral_iff rfl).mp h) (by decide)

end SetupGrub
