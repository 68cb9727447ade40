import InstallLinux.SetupAutoRaidProofs
import InstallLinux.SetupFstabProofs
import InstallLinux.SetupHostsProofs
import InstallLinux.SetupMasterFixesProofs

/-! # `vizgen_automation.sh` — started again after a cut

    The unattended script has no flag and no hook: when it is cut off, somebody
    starts it again, and it begins with its first command.  Most of what it
    does comes to the same the second time.

    * `vizgen_converges`: the name, the boot loader's file and the network file
      are as one start leaves them, and so is the hosts file, unless the serial
      splices its old line into the new one;
    * `vizgen_raid_iff`: `/etc/fstab` is not: each start that got far enough
      has added an entry, and all but the last are for a file system that is
      gone. -/

namespace SetupVizgen

open ShellText ShellFiles ShellRun ShellEdits ShellSed
open SetupOrderId SetupHosts SetupRootDrive SetupFormatLoop
open SetupSystemDisk (vizgenFormat)
open SetupFstab (FstabLine Outcome sfdisk mkfs blkid)
open SetupNetplan (Interface ipBrief nicsArray clearNetcfg tee addNic
  networkFixHeader document renderer)
open SetupMaster (editLines timeoutEdits)

/-! ## The machine -/

/-- What is the same at every start. -/
structure Site where
  /-- the machine as it came, with the reports of `dmidecode` -/
  machine : Machine
  /-- the pathname expansion of a word -/
  glob : Text → List Text
  /-- what `sed` does where the serial makes another script -/
  other : Text → List Text → List Text
  /-- the disks `lsblk` lists -/
  names : List Text
  /-- the disk shows a partition mounted at `/boot/efi` -/
  rootcheck : Text → Bool

/-- What the RAID step works on. -/
structure Raid where
  /-- the UUID of the file system on a device, if there is one -/
  fs : Text → Option Text
  /-- the variable `$uuid` -/
  uuid : Text
  fstab : List FstabLine

structure System where
  machine : Machine
  hosts : List Text
  raid : Raid
  network : Files SetupNetplan.Path
  grub : List Text
  /-- the commands that are only recorded -/
  log : List String

/-- What the commands of one start come to. -/
structure Start where
  /-- the devices whose file systems are still there after the first call of
      `sfdisk` -/
  labelKeeps : Text → Bool
  outcome : Outcome
  /-- the interfaces that are up -/
  ifs : List Interface

/-! ## The script -/

inductive Command where
  | run (line : String)
  | machine (edit : Machine → Machine)
  | hosts (edit : List Text → List Text)
  | raid (edit : Raid → Raid)
  | network (edit : Files SetupNetplan.Path → Files SetupNetplan.Path)
  /-- `sudo sed -i` on `/etc/default/grub` -/
  | grub (edit : Edit)

def Command.exec (st : System) : Command → System
  | .run line => { st with log := st.log ++ [line] }
  | .machine edit => { st with machine := edit st.machine }
  | .hosts edit => { st with hosts := edit st.hosts }
  | .raid edit => { st with raid := edit st.raid }
  | .network edit => { st with network := edit st.network }
  | .grub e => { st with grub := e.lines st.grub }

/-- `hostnamectl set-hostname $serial`. -/
def nameMachine (site : Site) : Machine → Machine :=
  setHostname (hostnameArgs site.glob site.machine)

/-- `sed -i "2s/.*/127.0.0.1	${serial}/" /etc/hosts`. -/
def editHosts (site : Site) : List Text → List Text :=
  let line := hostsLine (hostSerial site.machine)
  sedLine (site.other line) 1 line

/-- `###Run updates`. -/
def updates : List String :=
  ["sudo DEBIAN_FRONTEND=nointeractive apt --fix-broken install -y",
   "sudo apt update",
   "sudo DEBIAN_FRONTEND=nointeractive apt dist-upgrade -y",
   "sudo DEBIAN_FRONTEND=nointeractive apt install build-essential make bolt finger pv smartmontools p7zip-full smbclient network-manager ssh dkms samba cups mdadm net-tools -y",
   "sudo DEBIAN_FRONTEND=nointeractive apt dist-upgrade linux-generic-hwe-20.04 -y",
   "sudo DEBIAN_FRONTEND=nointeractive apt dist-upgrade -y",
   "sudo DEBIAN_FRONTEND=nointeractive apt --fix-broken install -y"]

/-- `###NVIDIA Driver`. -/
def nvidiaDriver : List String :=
  ["sudo DEBIAN_FRONTEND=nointeractive add-apt-repository -y ppa:graphics-drivers/ppa",
   "sudo apt update",
   "sudo DEBIAN_FRONTEND=nointeractive apt -y install nvidia-driver-555 --no-install-recommends"]

/-- `#Broadcom 9560`. -/
def broadcom9560 : List String :=
  ["wget https://download.pugetsystems.com/Broadcom_9560/megaraid_sas-07.729.00.00-1dkms.noarch.deb -P ~",
   "wget https://download.pugetsystems.com/Broadcom_9560/storcli_007.2908.0000.0000_all.deb -P ~",
   "sudo dpkg -i ~/megaraid_sas-07.729.00.00-1dkms.noarch.deb",
   "sudo dpkg -i ~/storcli_007.2908.0000.0000_all.deb",
   "sudo rm ~/megaraid_sas-07.729.00.00-1dkms.noarch.deb",
   "sudo rm ~/storcli_007.2908.0000.0000_all.deb",
   "sudo ln -s /opt/MegaRAID/storcli/storcli64 /usr/local/bin/storcli64",
   "sudo ln -s /opt/MegaRAID/storcli/storcli64 /usr/local/bin/storcli",
   "sudo apt update",
   "sudo DEBIAN_FRONTEND=nointeractive apt dist-upgrade -y",
   "sudo DEBIAN_FRONTEND=nointeractive apt --fix-broken install -y"]

/-- `${array[0]}` behind the removal loop, and its partition. -/
def Site.call (site : Site) : FormatCall :=
  vizgenFormat (rootRemoval site.rootcheck site.names)

/-- The first line the RAID step adds to `/etc/fstab`. -/
def raidComment (disk : Text) : FstabLine :=
  .other ("#Broadcom 9560 - /dev/".toList ++ disk
    ++ " - added automatically via Puget Systems automation".toList)

/-- The second one. -/
def addEntry (site : Site) (r : Raid) : Raid :=
  { r with fstab := r.fstab ++ [.entry r.uuid site.call.mount] }

/-- `###Format and mount RAID (Auto)`, up to the second line. -/
def raidCommands (site : Site) (start : Start) : List Command :=
  let call := site.call
  [.raid (fun r => { r with fs := sfdisk call.drive start.labelKeeps r.fs }),
   .raid (fun r =>
     { r with fs := sfdisk call.drive start.outcome.sfdiskKeeps r.fs }),
   .raid (fun r =>
     { r with fs := mkfs call.partition start.outcome.mkfs r.fs }),
   .raid (fun r =>
     { r with uuid := blkid call.partition start.outcome.blkid r.fs }),
   .run "sudo mkdir /raid",
   .raid (fun r => { r with fstab := r.fstab ++ [raidComment call.drive] })]

/-- `###Network fix`. -/
def networkCommands (ip : List Text) : List Command :=
  .network clearNetcfg
    :: (networkFixHeader.map (fun line => .network (tee · line))
      ++ (nicsArray ip).map (fun nicnum => .network (addNic · nicnum))
      ++ [.run "sudo netplan generate && sudo netplan apply"])

/-- The first edit of `###GRUB fix`. -/
def vizgenEdit : Edit :=
  ⟨false,
   "GRUB_CMDLINE_LINUX_DEFAULT=\"nomodeset amd-iommu=on iommu=pt pci=nommconf\"".toList,
   "GRUB_CMDLINE_LINUX_DEFAULT=\"amd-iommu=on iommu=pt pci=nommconf\"".toList⟩

/-- `###GRUB fix`. -/
def grubEdits : List Edit := vizgenEdit :: timeoutEdits

/-- `###Cleanup###` and `###Reboot`. -/
def cleanup : List String :=
  [">~/.bash_history",
   "rm ~/.bash_history >/dev/null 2>&1",
   "rm -rf ~/.local/share/Trash/info/* >/dev/null 2>&1",
   "rm -rf ~/.local/share/Trash/files/* >/dev/null 2>&1",
   "rm -rf ~/Downloads/* >/dev/null 2>&1",
   "sudo rm -rf /var/crash/* >/dev/null 2>&1",
   "history -c",
   "history -w",
   "history -cw",
   ">~/.bash_history",
   "rm ~/.bash_history >/dev/null 2>&1",
   "history -cw",
   "sudo rm /vizgen_automation.sh",
   "sudo reboot"]

/-- Everything behind the edit of the hosts file and in front of the entry in
    `/etc/fstab`. -/
def beforeEntry (site : Site) (start : Start) : List Command :=
  (updates ++ nvidiaDriver ++ broadcom9560).map Command.run
    ++ raidCommands site start

/-- Everything behind that entry. -/
def afterEntry (start : Start) : List Command :=
  networkCommands (ipBrief start.ifs)
    ++ (grubEdits.map Command.grub ++ (.run "sudo update-grub"
      :: cleanup.map Command.run))

def vizgen (site : Site) (start : Start) : List Command :=
  .machine (nameMachine site) :: .hosts (editHosts site)
    :: (beforeEntry site start ++ .raid (addEntry site) :: afterEntry start)

/-- A complete start. -/
def vizgenStart (site : Site) (st : System) (start : Start) : System :=
  run Command.exec st (vizgen site start)

/-- A start that is cut off behind its first commands. -/
def vizgenCut (site : Site) (st : System) (start : Start × Nat) : System :=
  run Command.exec st ((vizgen site start.1).take start.2)

/-! ## The parts the commands edit -/

def Command.machine? : Command → Option (Machine → Machine)
  | .machine edit => some edit
  | _ => none

def Command.hosts? : Command → Option (List Text → List Text)
  | .hosts edit => some edit
  | _ => none

def Command.raid? : Command → Option (Raid → Raid)
  | .raid edit => some edit
  | _ => none

def Command.network? :
    Command → Option (Files SetupNetplan.Path → Files SetupNetplan.Path)
  | .network edit => some edit
  | _ => none

def Command.grub? : Command → Option Edit
  | .grub e => some e
  | _ => none

/-- An edit that is a function. -/
def apply {X : Type} (x : X) (edit : X → X) : X := edit x

/-- A command edits the machine's name, or leaves it. -/
theorem machine_exec (st : System) (c : Command) :
    (c.exec st).machine = (c.machine?.map (apply st.machine)).getD st.machine := by
  cases c <;> rfl

theorem hosts_exec (st : System) (c : Command) :
    (c.exec st).hosts = (c.hosts?.map (apply st.hosts)).getD st.hosts := by
  cases c <;> rfl

theorem raid_exec (st : System) (c : Command) :
    (c.exec st).raid = (c.raid?.map (apply st.raid)).getD st.raid := by
  cases c <;> rfl

theorem network_exec (st : System) (c : Command) :
    (c.exec st).network = (c.network?.map (apply st.network)).getD st.network := by
  cases c <;> rfl

theorem grub_exec (st : System) (c : Command) :
    (c.exec st).grub = (c.grub?.map (editLines st.grub)).getD st.grub := by
  cases c <;> rfl

variable (site : Site) (start : Start)

/-- The edits of one kind, section by section. -/
theorem filterMap_vizgen {E : Type} (f : Command → Option E) :
    (vizgen site start).filterMap f
      = [.machine (nameMachine site), .hosts (editHosts site)].filterMap f
        ++ ((beforeEntry site start).filterMap f
        ++ ([Command.raid (addEntry site)].filterMap f
        ++ ((networkCommands (ipBrief start.ifs)).filterMap f
        ++ ((grubEdits.map Command.grub).filterMap f
        ++ (Command.run "sudo update-grub"
            :: cleanup.map Command.run).filterMap f)))) := by
  simp only [← List.filterMap_append]
  rfl

/-- The network step does nothing else. -/
theorem filterMap_network {E : Type} {f : Command → Option E}
    (hnetwork : ∀ edit, f (.network edit) = none)
    (hrun : ∀ line, f (.run line) = none) (ip : List Text) :
    (networkCommands ip).filterMap f = [] := by
  refine List.filterMap_eq_nil_iff.mpr ?_
  intro c hc
  rw [networkCommands, List.mem_cons, List.mem_append, List.mem_append,
    List.mem_map, List.mem_map, List.mem_singleton] at hc
  rcases hc with rfl | (⟨line, -, rfl⟩ | ⟨nicnum, -, rfl⟩) | rfl
  · exact hnetwork _
  · exact hnetwork _
  · exact hnetwork _
  · exact hrun _

theorem vizgen_machine :
    (vizgen site start).filterMap Command.machine? = [nameMachine site] := by
  rw [filterMap_vizgen, filterMap_network (fun _ => rfl) (fun _ => rfl)]
  rfl

theorem vizgen_grub :
    (vizgen site start).filterMap Command.grub? = grubEdits := by
  rw [filterMap_vizgen, filterMap_network (fun _ => rfl) (fun _ => rfl)]
  rfl

/-- The edits of the network files. -/
def networkEdits (ip : List Text) :
    List (Files SetupNetplan.Path → Files SetupNetplan.Path) :=
  clearNetcfg :: (networkFixHeader.map (fun line => (tee · line))
    ++ (nicsArray ip).map (fun nicnum => (addNic · nicnum)))

theorem vizgen_network :
    (vizgen site start).filterMap Command.network?
      = networkEdits (ipBrief start.ifs) := by
  have hmap : ∀ edits : List (Files SetupNetplan.Path → Files SetupNetplan.Path),
      (edits.map Command.network).filterMap Command.network? = edits := by
    intro edits
    rw [List.filterMap_map]
    exact List.filterMap_some
  have hnetwork : networkCommands (ipBrief start.ifs)
      = (networkEdits (ipBrief start.ifs)).map Command.network
        ++ [Command.run "sudo netplan generate && sudo netplan apply"] := by
    rw [networkEdits, List.map_cons, List.map_append, List.map_map,
      List.map_map]
    rfl
  have hrest : ((grubEdits.map Command.grub).filterMap Command.network?
      ++ (Command.run "sudo update-grub"
        :: cleanup.map Command.run).filterMap Command.network?) = [] := rfl
  rw [filterMap_vizgen, hrest, hnetwork, List.filterMap_append, hmap]
  show networkEdits (ipBrief start.ifs) ++ [] ++ [] = _
  rw [List.append_nil, List.append_nil]

/-- In front of the second command and behind it the hosts file is left
    alone. -/
theorem take_hosts (n : Nat) :
    ((vizgen site start).take n).filterMap Command.hosts?
      = if 2 ≤ n then [editHosts site] else [] := by
  rcases n with _ | _ | n
  · rfl
  · rfl
  · have hrest : (beforeEntry site start
        ++ .raid (addEntry site) :: afterEntry start).filterMap Command.hosts?
        = [] := by
      rw [afterEntry, List.filterMap_append, List.filterMap_cons_none rfl,
        List.filterMap_append,
        filterMap_network (fun _ => rfl) (fun _ => rfl)]
      rfl
    have htake : ∀ cs : List Command, cs.filterMap Command.hosts? = [] →
        (cs.take n).filterMap Command.hosts? = [] := by
      intro cs hcs
      rw [List.filterMap_eq_nil_iff] at hcs ⊢
      exact fun c hc => hcs c (List.mem_of_mem_take hc)
    rw [if_pos (by omega), vizgen, List.take_succ_cons, List.take_succ_cons]
    exact congrArg (editHosts site :: ·) (htake _ hrest)

/-! ## The boot loader's file -/

theorem run_grubEdits (grub : List Text) :
    run editLines grub grubEdits = SetupGrub.vizgenGrub grub := rfl

theorem grubEdits_cases {e : Edit} (he : e ∈ grubEdits) :
    e = vizgenEdit ∨ e ∈ timeoutEdits :=
  List.mem_cons.mp he

theorem inert_vizgen :
    inert vizgenEdit.pat vizgenEdit.rep = true := by decide +kernel

/-- **NO EDIT UNDOES ANOTHER**: none writes what one of them looks for. -/
theorem grubEdits_inert {e e' : Edit} (he : e ∈ grubEdits)
    (he' : e' ∈ grubEdits) : inert e.pat e'.rep = true := by
  rcases grubEdits_cases he with rfl | he
  · rcases grubEdits_cases he' with rfl | he'
    · exact inert_vizgen
    · obtain ⟨-, -, hrep⟩ := SetupMaster.timeoutEdits_cases he'
      rcases hrep with hrep | hrep <;> rw [hrep] <;> decide +kernel
  · rcases grubEdits_cases he' with rfl | he'
    · obtain ⟨-, hpat, -⟩ := SetupMaster.timeoutEdits_cases he
      rcases hpat with hpat | hpat | hpat <;> rw [hpat] <;> decide +kernel
    · exact SetupMaster.inert_timeouts he he'

theorem grubEdits_pat {e : Edit} (he : e ∈ grubEdits) : e.pat ≠ [] := by
  rcases grubEdits_cases he with rfl | he
  · decide
  · obtain ⟨-, hpat, -⟩ := SetupMaster.timeoutEdits_cases he
    rcases hpat with hpat | hpat | hpat <;> rw [hpat] <;> decide

/-- **EDITS STAY DONE**: on a file without a line that holds the parameters
    twice. -/
theorem redo_grub {grub : List Text}
    (hone : ∀ line ∈ grub, occurrences vizgenEdit.pat line ≤ 1) :
    Redo editLines grub grubEdits := by
  refine redo_map (fun line hline => redo_edits (fun _ he => grubEdits_pat he)
    (fun _ he _ he' => grubEdits_inert he he') ?_)
  refine allSteps_cons.mpr ⟨Or.inr (hone line hline), ?_⟩
  intro v hv
  exact Or.inl (SetupMaster.timeoutEdits_cases (mem_of_mem_visits _ _ hv)).1

/-! ## The hosts file -/

variable {site} {serial : Text}

/-- The edit of the hosts file, for a serial that makes no other script. -/
theorem editHosts_eq (hserial : hostSerial site.machine = ' ' :: serial)
    (hclean : serial.any endsReplacement = false) (hosts : List Text) :
    editHosts site hosts = written serial hosts := by
  show (hostfix site.glob site.other site.machine hosts).2 = _
  exact hostfix_hosts hserial hclean

/-- The starts that got to the edit of the hosts file. -/
def hosted (starts : List (Start × Nat)) : Nat :=
  starts.countP (fun start => decide (2 ≤ start.2))

/-- A start edits the hosts file, or it does not get there. -/
theorem hosts_vizgenCut (st : System) (start : Start × Nat) :
    (vizgenCut site st start).hosts
      = if 2 ≤ start.2 then editHosts site st.hosts else st.hosts := by
  rw [vizgenCut, run_filterMap hosts_exec, take_hosts]
  split <;> rfl

/-- The hosts file is edited once by each start that gets there. -/
theorem hosts_run (starts : List (Start × Nat)) (st : System) :
    (run (vizgenCut site) st starts).hosts
      = (editHosts site)^[hosted starts] st.hosts := by
  induction starts generalizing st with
  | nil => rfl
  | cons start rest ih =>
      rw [run_cons, ih, hosts_vizgenCut, hosted, hosted, List.countP_cons]
      by_cases h : 2 ≤ start.2
      · rw [if_pos h, if_pos (decide_eq_true h), Function.iterate_succ_apply]
      · rw [if_neg h, if_neg (fun hd => h (of_decide_eq_true hd)), Nat.add_zero]

/-- A line that is spliced into the new one makes it longer. -/
theorem spliced_longer (hamp : '&' ∈ serial) (line : Text) :
    line.length < (expandMatch (hostsLine (' ' :: serial)) line).length := by
  obtain ⟨front, back, -, hexpand⟩ := expandMatch_of_mem hamp line
  rw [expandMatch_hostsLine, hexpand, hostsLine_length, List.length_cons,
    List.length_append, List.length_append]
  omega

/-- So every further splice does. -/
theorem spliced_grows (hamp : '&' ∈ serial) {hosts : List Text} {second : Text}
    (hsecond : hosts[1]? = some second) (k : Nat) :
    ∃ line, ((written serial)^[k] hosts)[1]? = some line
      ∧ second.length + k ≤ line.length := by
  induction k with
  | zero => exact ⟨second, hsecond, le_refl _⟩
  | succ k ih =>
      obtain ⟨line, hline, hlength⟩ := ih
      have hlonger := spliced_longer hamp line
      refine ⟨expandMatch (hostsLine (' ' :: serial)) line, ?_, by omega⟩
      rw [Function.iterate_succ_apply', written_second, hline, Option.map_some]

/-- Without an `&` the line is written, and then it is there. -/
theorem written_again (hosts : List Text) (h : '&' ∉ serial ∨ hosts[1]? = none) :
    written serial (written serial hosts) = written serial hosts := by
  cases hsecond : hosts[1]? with
  | none => rw [written_of_none hsecond, written_of_none hsecond]
  | some second =>
      have hamp : '&' ∉ serial :=
        h.resolve_right (fun hnone => nomatch hsecond.symm.trans hnone)
      refine List.ext_getElem? ?_
      intro i
      by_cases hi : i = 1
      · rw [hi, written_plain (written_plain hsecond hamp) hamp,
          written_plain hsecond hamp]
      · exact written_other hi

/-- **SPLICED AGAIN**: further edits of the hosts file change nothing, unless
    they splice the line they have written. -/
theorem written_iterate_iff (hosts : List Text) (k : Nat) :
    (written serial)^[k + 1] hosts = written serial hosts
      ↔ '&' ∉ serial ∨ hosts[1]? = none ∨ k = 0 := by
  constructor
  · intro h
    by_contra hnone
    simp only [not_or, not_not] at hnone
    obtain ⟨hamp, hline, hk⟩ := hnone
    obtain ⟨second, hsecond⟩ := Option.ne_none_iff_exists'.mp hline
    have hfirst : (written serial hosts)[1]?
        = some (expandMatch (hostsLine (' ' :: serial)) second) := by
      rw [written_second, hsecond, Option.map_some]
    obtain ⟨line, hlast, hlength⟩ := spliced_grows hamp hfirst k
    rw [Function.iterate_succ_apply] at h
    rw [h, hfirst] at hlast
    obtain rfl := Option.some.inj hlast
    omega
  · intro h
    rw [← or_assoc] at h
    rcases h with h | rfl
    · rw [Function.iterate_succ_apply]
      exact Function.iterate_fixed (written_again hosts h) k
    · rfl

/-! ## Starts -/

theorem setHostname_again (args : List Text) (m : Machine) :
    setHostname args (setHostname args m) = setHostname args m := by
  rcases args with _ | ⟨name, _ | ⟨second, rest⟩⟩ <;> rfl

/-- What one start makes of the network file. -/
theorem linesOf_networkEdits (ip : List Text) (f : Files SetupNetplan.Path) :
    linesOf (run apply f (networkEdits ip)) .netcfg
      = IndentText.printNodes 2 0 [document [renderer] (nicsArray ip)] := by
  have hgenerate : run apply f (networkEdits ip)
      = SetupNetplan.networkFix ip f := by
    rw [networkEdits, run_cons, run_append, run, List.foldl_map, run,
      List.foldl_map]
    rfl
  rw [hgenerate, SetupNetplan.networkFix,
    SetupNetplan.linesOf_generate SetupNetplan.networkFixHeader_eq]

theorem hosted_eq_zero_iff {starts : List (Start × Nat)} :
    hosted starts = 0 ↔ ∀ start ∈ starts, start.2 < 2 := by
  rw [hosted, List.countP_eq_zero]
  refine forall₂_congr fun start _ => ?_
  rw [decide_eq_true_iff, Nat.not_le]

/-- **CONVERGENCE**: behind starts that are cut off anywhere, a complete one
    leaves the name, the boot loader's file and the network file as it would
    have left them by itself; the hosts file too iff the serial has no `&`, or
    there is no second line, or no start before has got to it. -/
theorem vizgen_converges (site : Site) {serial : Text}
    (hserial : hostSerial site.machine = ' ' :: serial)
    (hclean : serial.any endsReplacement = false) {st : System}
    (hone : ∀ line ∈ st.grub, occurrences vizgenEdit.pat line ≤ 1)
    (starts : List (Start × Nat)) (last : Start) :
    (vizgenStart site (run (vizgenCut site) st starts) last).machine
        = setHostname (hostnameArgs site.glob site.machine) st.machine
      ∧ (vizgenStart site (run (vizgenCut site) st starts) last).grub
        = SetupGrub.vizgenGrub st.grub
      ∧ linesOf (vizgenStart site (run (vizgenCut site) st starts) last).network
          .netcfg
        = IndentText.printNodes 2 0
          [document [renderer] (nicsArray (ipBrief last.ifs))]
      ∧ ((vizgenStart site (run (vizgenCut site) st starts) last).hosts
          = (hostfix site.glob site.other site.machine st.hosts).2
        ↔ '&' ∉ serial ∨ st.hosts[1]? = none
          ∨ ∀ start ∈ starts, start.2 < 2) := by
  refine ⟨?_, ?_, ?_, ?_⟩
  · have hredo : Redo apply st.machine [nameMachine site] :=
      redo_singleton (setHostname_again _ _)
    exact hredo.starts_end machine_exec (vizgen_machine site) starts last
  · rw [← run_grubEdits]
    exact (redo_grub hone).starts_end grub_exec (vizgen_grub site) starts last
  · rw [vizgenStart, run_filterMap network_exec, vizgen_network,
      linesOf_networkEdits]
  · have hwritten : editHosts site = written serial :=
      funext (editHosts_eq hserial hclean)
    have hall : (vizgenStart site (run (vizgenCut site) st starts) last).hosts
        = (written serial)^[hosted starts + 1] st.hosts := by
      have htake : (vizgen site last).take ((vizgen site last).length + 2)
          = vizgen site last := List.take_of_length_le (Nat.le_add_right _ 2)
      rw [vizgenStart, ← htake]
      show (vizgenCut site _ (last, _)).hosts = _
      rw [hosts_vizgenCut, if_pos (Nat.le_add_left 2 _), hosts_run, hwritten,
        Function.iterate_succ_apply']
    rw [hall, hostfix_hosts hserial hclean, written_iterate_iff,
      hosted_eq_zero_iff]

/-! ## The boot table -/

/-- The UUIDs `/etc/fstab` mounts on `/raid`, by entries of the form the scripts
    write. -/
def raidUuids (fstab : List FstabLine) : List Text :=
  fstab.filterMap (fun line =>
    match line with
    | .other _ => none
    | .comment _ _ => none
    | .entry uuid mount => if mount = "/raid".toList then some uuid else none)

/-- Every entry is for the file system that is on the partition. -/
def Live (site : Site) (r : Raid) : Prop :=
  ∀ uuid ∈ raidUuids r.fstab, r.fs site.call.partition = some uuid

/-- The start is cut off behind its entry. -/
def entered (site : Site) (start : Start × Nat) : Bool :=
  decide ((beforeEntry site start.1).length + 2 < start.2)

theorem raidUuids_append (front back : List FstabLine) :
    raidUuids (front ++ back) = raidUuids front ++ raidUuids back :=
  List.filterMap_append

section Table

variable {site : Site}

/-- No command in front of the entry adds one. -/
theorem raidUuids_before {start : Start} {c : Command}
    (hc : c ∈ beforeEntry site start) (st : System) :
    raidUuids (c.exec st).raid.fstab = raidUuids st.raid.fstab := by
  rw [beforeEntry, List.mem_append, List.mem_map] at hc
  rcases hc with ⟨line, -, rfl⟩ | hc
  · rfl
  · simp only [raidCommands, List.mem_cons, List.not_mem_nil, or_false] at hc
    rcases hc with rfl | rfl | rfl | rfl | rfl | rfl
    · rfl
    · rfl
    · rfl
    · rfl
    · rfl
    · show raidUuids (st.raid.fstab ++ [raidComment site.call.drive]) = _
      rw [raidUuids_append]
      exact List.append_nil _

/-- No command behind it touches the table. -/
theorem raid_after {start : Start} {c : Command} (hc : c ∈ afterEntry start)
    (st : System) : (c.exec st).raid = st.raid := by
  have hnone : (afterEntry start).filterMap Command.raid? = [] := by
    rw [afterEntry, List.filterMap_append,
      filterMap_network (fun _ => rfl) (fun _ => rfl)]
    rfl
  rw [raid_exec, List.filterMap_eq_nil_iff.mp hnone c hc]
  rfl

/-- **ONE START**: it adds an entry iff it gets to it. -/
theorem raidUuids_vizgenCut (site : Site) (st : System) (start : Start × Nat) :
    ∃ new, raidUuids (vizgenCut site st start).raid.fstab
        = raidUuids st.raid.fstab ++ new
      ∧ new.length = if entered site start then 1 else 0 := by
  obtain ⟨start, n⟩ := start
  obtain ⟨front, hfront⟩ : ∃ front, front = .machine (nameMachine site)
      :: .hosts (editHosts site) :: beforeEntry site start := ⟨_, rfl⟩
  have hsplit : vizgen site start
      = front ++ .raid (addEntry site) :: afterEntry start := hfront ▸ rfl
  have hlength : (beforeEntry site start).length + 2 = front.length := by
    rw [hfront]
    rfl
  have hbefore : ∀ m, raidUuids (run Command.exec st (front.take m)).raid.fstab
      = raidUuids st.raid.fstab := by
    intro m
    refine run_frame (fun t : System => raidUuids t.raid.fstab) _ st ?_
    intro c hc t
    rw [hfront] at hc
    rcases List.mem_cons.mp (List.mem_of_mem_take hc) with rfl | hc
    · rfl
    rcases List.mem_cons.mp hc with rfl | hc
    · rfl
    · exact raidUuids_before hc t
  simp only [vizgenCut, entered, hlength, hsplit, List.take_append]
  by_cases hn : front.length < n
  · -- the whole front, the entry and some of the rest
    obtain ⟨m, rfl⟩ := Nat.exists_eq_add_of_lt hn
    have hrest : ∀ s, (run Command.exec s ((afterEntry start).take m)).raid
        = s.raid := by
      intro s
      refine run_frame System.raid _ s ?_
      exact fun c hc t => raid_after (List.mem_of_mem_take hc) t
    have hm : front.length + m + 1 - front.length = m + 1 := by omega
    rw [hm, List.take_succ_cons, run_append, run_cons, hrest,
      if_pos (decide_eq_true hn)]
    refine ⟨[(run Command.exec st
      (front.take (front.length + m + 1))).raid.uuid], ?_, rfl⟩
    show raidUuids (_ ++ [FstabLine.entry _ "/raid".toList]) = _
    rw [raidUuids_append, hbefore]
    rfl
  · have hm : n - front.length = 0 := by omega
    rw [hm, List.take_zero, List.append_nil, hbefore,
      if_neg (fun hd => hn (of_decide_eq_true hd))]
    exact ⟨[], (List.append_nil _).symm, rfl⟩

/-- **STARTS**: one entry for each that got to it. -/
theorem raidUuids_run (site : Site) (starts : List (Start × Nat)) (st : System) :
    ∃ new, raidUuids (run (vizgenCut site) st starts).raid.fstab
        = raidUuids st.raid.fstab ++ new
      ∧ new.length = starts.countP (entered site) := by
  induction starts generalizing st with
  | nil => exact ⟨[], (List.append_nil _).symm, rfl⟩
  | cons start rest ih =>
      obtain ⟨first, hfirst, hone⟩ := raidUuids_vizgenCut site st start
      obtain ⟨new, hnew, hlength⟩ := ih (vizgenCut site st start)
      refine ⟨first ++ new, ?_, ?_⟩
      · rw [run_cons, hnew, hfirst, List.append_assoc]
      · rw [List.length_append, hone, hlength, List.countP_cons, Nat.add_comm]

/-- What a complete start makes of the disk and the table. -/
theorem raid_vizgenStart (st : System) (start : Start) :
    (vizgenStart site st start).raid
      = addEntry site
        { fs := mkfs site.call.partition start.outcome.mkfs
            (sfdisk site.call.drive start.outcome.sfdiskKeeps
              (sfdisk site.call.drive start.labelKeeps st.raid.fs))
          uuid := blkid site.call.partition start.outcome.blkid
            (mkfs site.call.partition start.outcome.mkfs
              (sfdisk site.call.drive start.outcome.sfdiskKeeps
                (sfdisk site.call.drive start.labelKeeps st.raid.fs)))
          fstab := st.raid.fstab ++ [raidComment site.call.drive] } := by
  rw [vizgenStart, run_filterMap raid_exec, filterMap_vizgen,
    filterMap_network (fun _ => rfl) (fun _ => rfl)]
  rfl

end Table

/-- **THE BOOT TABLE**: a complete start whose file system is made leaves one
    entry for each start that got so far; they are all for the file system that
    is there iff this start's is the only one. -/
theorem vizgen_raid_iff (site : Site) (st : System)
    (starts : List (Start × Nat)) {last : Start} {uuid : Text}
    (hmade : last.outcome.mkfs = .made uuid) (hblkid : last.outcome.blkid = true)
    (hfresh : uuid ∉ raidUuids (run (vizgenCut site) st starts).raid.fstab) :
    (raidUuids (vizgenStart site (run (vizgenCut site) st starts)
        last).raid.fstab).length
        = (raidUuids st.raid.fstab).length + starts.countP (entered site) + 1
      ∧ (Live site (vizgenStart site (run (vizgenCut site) st starts) last).raid
        ↔ raidUuids st.raid.fstab = []
          ∧ ∀ start ∈ starts, entered site start = false) := by
  obtain ⟨new, hnew, hlength⟩ := raidUuids_run site starts st
  have hfs : (vizgenStart site (run (vizgenCut site) st starts) last).raid.fs
      site.call.partition = some uuid := by
    rw [raid_vizgenStart, hmade]
    exact if_pos rfl
  have hall : raidUuids (vizgenStart site (run (vizgenCut site) st starts)
      last).raid.fstab = raidUuids st.raid.fstab ++ new ++ [uuid] := by
    have huuid : blkid site.call.partition true
        (mkfs site.call.partition (.made uuid)
          (sfdisk site.call.drive last.outcome.sfdiskKeeps
            (sfdisk site.call.drive last.labelKeeps
              (run (vizgenCut site) st starts).raid.fs))) = uuid := by
      rw [blkid, if_pos rfl, mkfs, if_pos rfl]
      rfl
    rw [raid_vizgenStart, hmade, hblkid, huuid, addEntry, raidUuids_append,
      raidUuids_append, hnew]
    exact congrArg (· ++ [uuid]) (List.append_nil _)
  constructor
  · rw [hall, List.length_append, List.length_append, hlength]
    rfl
  · rw [Live, hall, hfs]
    have hold : new = [] ↔ ∀ start ∈ starts, entered site start = false := by
      rw [← List.length_eq_zero_iff, hlength, List.countP_eq_zero]
      simp only [Bool.not_eq_true]
    rw [← hold, ← List.append_eq_nil_iff]
    constructor
    · intro h
      rw [hnew] at hfresh
      refine List.eq_nil_iff_forall_not_mem.mpr ?_
      intro v hv
      have hsame := h v (List.mem_append_left _ hv)
      exact hfresh (Option.some.inj hsame ▸ hv)
    · intro h v hv
      rw [h, List.nil_append, List.mem_singleton] at hv
      rw [hv]

/-! ### A machine with a spare disk -/

def sdaSite : Site where
  machine := machine123456 false
  glob := noFiles
  other := scriptError
  names := SetupAutoRaid.twoDisks.names
  rootcheck := fun d => d == "nvme0n1".toList

/-- Before the first start. -/
def imaged : System where
  machine := machine123456 false
  hosts := ["127.0.0.1 localhost".toList, "127.0.1.1 ubuntu".toList]
  raid := ⟨fun _ => none, [], []⟩
  network := fun _ => none
  grub := ["GRUB_TIMEOUT=0".toList, vizgenEdit.pat]
  log := []

/-- A start that makes a file system with this UUID. -/
def making (uuid : String) : Start where
  labelKeeps := fun _ => false
  outcome := ⟨fun _ => false, .made uuid.toList, true⟩
  ifs := []

theorem imaged_once :
    ∀ line ∈ imaged.grub, occurrences vizgenEdit.pat line ≤ 1 := by
  intro line hline
  rw [imaged, List.mem_cons, List.mem_singleton] at hline
  rcases hline with rfl | rfl <;> decide +kernel

/-- Cut off in the cleanup, and started again. -/
theorem vizgen_converges_sda :
    (vizgenStart sdaSite (run (vizgenCut sdaSite) imaged [(making "a1", 45)])
        (making "b2")).machine
        = setHostname (hostnameArgs noFiles sdaSite.machine) imaged.machine
      ∧ (vizgenStart sdaSite (run (vizgenCut sdaSite) imaged [(making "a1", 45)])
          (making "b2")).grub
        = SetupGrub.vizgenGrub imaged.grub
      ∧ linesOf (vizgenStart sdaSite
          (run (vizgenCut sdaSite) imaged [(making "a1", 45)])
          (making "b2")).network .netcfg
        = IndentText.printNodes 2 0
          [document [renderer] (nicsArray (ipBrief (making "b2").ifs))]
      ∧ ((vizgenStart sdaSite (run (vizgenCut sdaSite) imaged [(making "a1", 45)])
            (making "b2")).hosts
          = (hostfix noFiles scriptError sdaSite.machine imaged.hosts).2
        ↔ '&' ∉ "puget-123456".toList.map Char.toLower
          ∨ imaged.hosts[1]? = none
          ∨ ∀ start ∈ [(making "a1", 45)], start.2 < 2) :=
  vizgen_converges sdaSite (hostSerial_eq reports_123456 noBlank_123456) rfl
    imaged_once _ _

/-- That leaves two entries, one of them for a file system that is gone. -/
theorem vizgen_raid_sda :
    (raidUuids (vizgenStart sdaSite
        (run (vizgenCut sdaSite) imaged [(making "a1", 45)])
        (making "b2")).raid.fstab).length
        = (raidUuids imaged.raid.fstab).length
          + [(making "a1", 45)].countP (entered sdaSite) + 1
      ∧ (Live sdaSite (vizgenStart sdaSite
          (run (vizgenCut sdaSite) imaged [(making "a1", 45)])
          (making "b2")).raid
        ↔ raidUuids imaged.raid.fstab = []
          ∧ ∀ start ∈ [(making "a1", 45)], entered sdaSite start = false) :=
  vizgen_raid_iff sdaSite imaged _ rfl rfl
    (by decide +kernel)

end SetupVizgen
