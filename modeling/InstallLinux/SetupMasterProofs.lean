import InstallLinux.SetupAutorunProofs
import InstallLinux.SetupGrubProofs
import InstallLinux.SetupNetplanProofs
import InstallLinux.SetupSoftwareProofs
import InstallLinux.ShellScriptProofs

/-! # `master.sh` — the whole script, cut off anywhere

    The functions of `master.sh` in a row, behind the ones that only collect
    what is known about the system: sleep and branding, the three driver stages
    that reboot, everything that follows them, the end of the autorun hook and
    the shutdown.  A start may be cut off behind any of its commands, and the
    next login begins again at the top. -/

namespace SetupMaster

open ShellText ShellFiles ShellRun ShellScript ShellEdits ShellSed
open SetupDriver SetupAutorun SetupSoftware
open SetupGrub (isMs73 isWrx isProArt isNoble nomodeset iommu simpledrm anchor
  withParam needed)
open SetupNetplan (ipBrief nicsArray clearNetcfg tee addNic netmanHeader
  Interface)

/-! ## The machine -/

/-- The functions that run commands. -/
inductive Call where
  | sleep
  | branding
  | driver (c : Controller)
  | bc9560
  | nvidia
  | amdigpu
  | aspeed
  | software (p : Product)
  | updateDesktop
  | updateServer
  | gnome
  | mount
  | mobofix
  | netman
  | grubtime
  /-- `#Stop autorun` -/
  | stop
  | shutdown

/-- A command and the function it stands in. -/
abbrev Entry := Call × String

structure System where
  /-- the hooks, the boot loader's file and the HighPoint drivers -/
  machine : SetupDriver.Machine
  /-- the files of the network step -/
  network : Files SetupNetplan.Path
  /-- `~/install/flags/sleep` is there -/
  sleepFlag : Bool
  /-- the commands that have run -/
  log : List Entry

/-- What a start depends on besides the system it is for. -/
structure Start where
  /-- a driver installer that runs leaves the sentinel behind -/
  works : Bool
  /-- the interfaces that are up -/
  ifs : List Interface

inductive Command where
  /-- a command that is only recorded -/
  | run (entry : Entry)
  /-- `sudo sed -i` on `/etc/default/grub` -/
  | grub (edit : Edit)
  | network (edit : Files SetupNetplan.Path → Files SetupNetplan.Path)
  | stop (ostype : OsType)

def record (entry : Entry) (st : System) : System :=
  { st with log := st.log ++ [entry] }

def onMachine (f : SetupDriver.Machine → SetupDriver.Machine) (st : System) :
    System :=
  { st with machine := f st.machine }

def onFiles (edit : Files SetupDriver.Path → Files SetupDriver.Path)
    (m : SetupDriver.Machine) : SetupDriver.Machine :=
  { m with files := edit m.files }

/-- `#Stop autorun`, as it stands in the script. -/
def stopLine : OsType → String
  | .server => "sudo sed -i '/~\\/install/d' ~/.bashrc"
  | .desktop => "sudo rm /etc/profile.d/master.sh"

def Command.exec (st : System) : Command → System
  | .run entry => record entry st
  | .grub e => onMachine (onFiles (editFile · .grub e.lines)) st
  | .network edit => { st with network := edit st.network }
  | .stop ostype =>
      record (.stop, stopLine ostype) (onMachine (stopAutorun ostype) st)

/-- The commands in a row. -/
def script (cs : List Command) : Script System :=
  .commands (cs.map (fun c st => c.exec st))

/-- Commands that are only recorded. -/
def records (entries : List Entry) : Script System :=
  .commands (entries.map record)

def runAll (call : Call) (lines : List String) : List Entry :=
  lines.map (Prod.mk call)

/-! ## The script -/

/-- `_sleep`, up to the flag it leaves. -/
def sleepCommands : List Entry :=
  runAll .sleep
    ["sudo apt install dbus-x11 -y",
     "gsettings set org.gnome.desktop.session idle-delay 7200",
     "gsettings set org.gnome.desktop.screensaver lock-delay 7200"]

/-- `_sleep`. -/
def sleep (i : Install) : Script System :=
  .branch (fun st => st.sleepFlag) .done
    (if osType i = .desktop then
      (records sleepCommands).andThen
        (.cmd (fun st => { st with sleepFlag := true }) .done)
    else .done)

/-- `_branding`, without the pauses that wait for `firefox`. -/
def branding (ostype : OsType) (osversion : Text) : List Entry :=
  if ostype = .desktop then
    runAll .branding
      (["ln -s /home/$USER/install /home/$USER/Desktop/install",
        "sudo cp /home/$USER/install/assets/Puget_Systems.png /usr/share/backgrounds/Puget_Systems.png",
        "sudo chown user /usr/share/backgrounds/Puget_Systems.png",
        "sudo chmod 777 /usr/share/backgrounds/Puget_Systems.png",
        "gsettings set org.gnome.desktop.background picture-uri file:///usr/share/backgrounds/Puget_Systems.png",
        "gsettings set org.gnome.desktop.screensaver picture-uri file:///usr/share/backgrounds/Puget_Systems.png"]
      ++ (if osversion = "22.04".toList then
          ["gsettings set org.gnome.shell.extensions.ding show-home false"]
        else [])
      ++ (if osversion = "20.04".toList then
          ["gsettings set org.gnome.nautilus.preferences executable-text-activation 'ask'"]
        else [])
      ++ ["firefox --headless >/dev/null 2>&1 &",
        "pkill -f firefox",
        "sudo sed -i '$a user_pref(\"browser.startup.homepage\", \"https://www.pugetsystems.com/welcome/\");' /home/$USER/.mozilla/firefox/*.default-release/prefs.js >/dev/null 2>&1",
        "sudo sed -i '$a user_pref(\"browser.startup.homepage\", \"https://www.pugetsystems.com/welcome/\");' /home/$USER/.mozilla/firefox/*.default/prefs.js >/dev/null 2>&1",
        "sudo sed -i '$a user_pref(\"browser.startup.homepage\", \"https://www.pugetsystems.com/welcome/\");' /home/$USER/snap/firefox/common/.mozilla/firefox/*.default/prefs.js >/dev/null 2>&1"])
  else []

/-- The two installers of a stage. -/
def installers : Controller → List String
  | .hp7505 =>
      ["sudo ./hptnvme_g5_linux_src_v1.4.1_2022_03_04.bin",
       "sudo ./RAID_Manage_Linux_v3.1.5_22_06_10.bin"]
  | .hp640L =>
      ["sudo ./rr64xl-linux_x86_64_src_v1.6.7_22_11_28.bin",
       "sudo ./RAID_Manage_Linux_v3.1.5_22_06_10.bin"]
  | .hp3720c =>
      ["sudo ./rr37xx_8xx_28xx_linux_x86_64_src_v1.23.13_23_01_16.bin",
       "sudo ./RAID_Manage_Linux_v3.1.13_22_12_05.bin"]

def installDriver (works : Bool) (c : Controller) (st : System) : System :=
  { st with
    machine := install (stageOf c) works st.machine
    log := st.log ++ (installers c).map (Prod.mk (.driver c)) }

/-- The autorun hook, as commands. -/
def hookCommands :
    OsType → List (Files SetupDriver.Path → Files SetupDriver.Path)
  | .server =>
      [(editFile · .bashrc (sedDelete installDir)),
       (appendLine · .bashrc masterCall)]
  | .desktop =>
      [(removeFile · .profileDotHook),
       (appendLine · .profileHook "sleep 5".toList),
       (appendLine · .profileHook ("gnome-terminal -- ".toList ++ masterCall))]

/-- The body of a stage, up to its `reboot` and `exit`. -/
def pass (i : Install) (works : Bool) (c : Controller) :
    List (System → System) :=
  installDriver works c :: onMachine (grubFix i.site (stageOf c))
    :: (hookCommands (osType i)).map (fun edit => onMachine (onFiles edit))

/-- `_hp7505`, `_hp640L`, `_hp3720c`, and the rest of the script. -/
def drivers (i : Install) (works : Bool) (rest : Script System) :
    Script System :=
  .branch (fun st => fires i.site st.machine hp7505)
    (.commands (pass i works .hp7505))
    (.branch (fun st => fires i.site st.machine hp640L)
      (.commands (pass i works .hp640L))
      (.branch (fun st => fires i.site st.machine hp3720c)
        (.commands (pass i works .hp3720c)) rest))

/-- The stage that ends a start, if one does. -/
def firing (i : Install) (st : System) : Option Controller :=
  if fires i.site st.machine hp7505 then some .hp7505
  else if fires i.site st.machine hp640L then some .hp640L
  else if fires i.site st.machine hp3720c then some .hp3720c
  else none

/-- `_BC9560`. -/
def bc9560 (lspci : List Text) : List Entry :=
  if grep "9560".toList lspci then
    runAll .bc9560
      ["cd ~/install/assets/drivers/broadcom9560RAID/Driver",
       "sudo dpkg -i *.deb",
       "cd ~/install/assets/drivers/broadcom9560RAID/storcli",
       "sudo dpkg -i *.deb",
       "cd ~/install/assets/drivers/broadcom9560RAID/openslp-2.0.0",
       "./configure",
       "make",
       "sudo make install",
       "sudo mkdir -p /opt/lsi/LSIStorageAuthority/bin/",
       "sudo mkdir -p /opt/lsi/LSIStorageAuthority/conf/",
       "sudo chown -R $USER /opt/lsi",
       "sudo ln -sf /usr/local/lib/libslp.so.1.0.0 /opt/lsi/LSIStorageAuthority/bin/libslp.so.1",
       "cd ~/install/assets/drivers/broadcom9560RAID/LSA/WebGUIRelease-DCSG01688241/webgui_rel/LSA_Linux/gcc_11.2.x",
       "pass=rootpass",
       "echo -e \"$pass\\n$pass\" | sudo passwd root",
       "echo -e \"$pass\\n$pass\" | su root -c \"./install_deb.sh -s\"",
       "sudo passwd -dl root",
       "cd ~/install"]
  else []

/-- `$revision` of `_nvidia`. -/
def nvidiaRevision (lspci : List Text) : String :=
  if grep "GT 710".toList lspci then "470" else "555"

/-- `_nvidia`. -/
def nvidia (ostype : OsType) (lspci : List Text) : List Entry :=
  if grep "NVIDIA".toList lspci then
    runAll .nvidia
      (["sudo DEBIAN_FRONTEND=nointeractive add-apt-repository -y ppa:graphics-drivers/ppa",
        "sudo apt update"]
      ++ (if ostype = .desktop then
          ["sudo DEBIAN_FRONTEND=nointeractive apt -y install nvidia-driver-"
            ++ nvidiaRevision lspci]
        else
          ["sudo DEBIAN_FRONTEND=nointeractive apt -y install nvidia-driver-"
            ++ nvidiaRevision lspci ++ " --no-install-recommends"]))
  else []

/-- `_amdigpu`. -/
def amdigpu (motherboard : Text) : List Entry :=
  if motherboard = "TUF GAMING B650M-PLUS WIFI".toList
      ∨ motherboard = "ProArt X670E-CREATOR WIFI".toList
      ∨ motherboard = "MAG B650M MORTAR WIFI (MS-7D76)".toList then
    runAll .amdigpu
      ["sudo DEBIAN_FRONTEND=nointeractive apt install ~/install/assets/drivers/amdgpu-install_5.3.50300-1_all.deb -y",
       "sudo DEBIAN_FRONTEND=nointeractive apt install ~/install/assets/drivers/amdgpu-install_6.0.60002-1_all.deb -y",
       "sudo amdgpu-install -y"]
  else []

/-- `_aspeed`. -/
def aspeed (lspci : List Text) : List Entry :=
  if grep "ASPEED".toList lspci then
    runAll .aspeed
      ["sudo dpkg -i /home/$USER/assets/drivers/ast-drm-linux6.2.deb"]
  else []

/-- `###Courtesy Software`. -/
def courtesy (ostype : OsType) (order : List Text) : List Entry :=
  if ostype = .desktop then
    [Product.virtualbox, .chrome, .reader, .vlc].flatMap
      (fun p => runAll (.software p) (p.soft order))
  else []

/-- `_update_desktop`. -/
def updateDesktop (ostype : OsType) (osversion : Text) : List Entry :=
  if ostype = .desktop then
    runAll .updateDesktop
      (["sudo DEBIAN_FRONTEND=nointeractive apt --fix-broken install -y",
        "sudo apt update",
        "sudo DEBIAN_FRONTEND=nointeractive apt install ubuntu-restricted-extras -y",
        "sudo DEBIAN_FRONTEND=nointeractive apt dist-upgrade -y",
        "sudo DEBIAN_FRONTEND=nointeractive apt install mdadm make net-tools pv finger xfsprogs dkms build-essential apt-utils ssh snap shfmt -y",
        "sudo DEBIAN_FRONTEND=nointeractive apt install gparted bolt gedit gdebi smartmontools smbclient p7zip-full mesa-utils git -y"]
      ++ (if osversion = "20.04".toList then
          ["sudo DEBIAN_FRONTEND=nointeractive apt install libxml2:i386 libcanberra-gtk-module:i386 gtk2-engines-murrine:i386 libatk-adaptor:i386 -y"]
        else [])
      ++ ["sudo DEBIAN_FRONTEND=nointeractive apt dist-upgrade -y",
        "sudo DEBIAN_FRONTEND=nointeractive apt --fix-broken install -y"])
  else []

/-- `_update_server`. -/
def updateServer (ostype : OsType) (osversion : Text) : List Entry :=
  if ostype = .server then
    runAll .updateServer
      (["sudo DEBIAN_FRONTEND=nointeractive apt --fix-broken install -y",
        "sudo apt update",
        "sudo DEBIAN_FRONTEND=nointeractive apt dist-upgrade -y",
        "sudo DEBIAN_FRONTEND=nointeractive apt install build-essential make bolt finger pv smartmontools p7zip-full smbclient network-manager ssh dkms samba cups mdadm net-tools -y"]
      ++ (if osversion = "20.04".toList then
          ["sudo DEBIAN_FRONTEND=nointeractive apt dist-upgrade linux-generic-hwe-20.04 -y"]
        else [])
      ++ (if osversion = "22.04".toList then
          ["sudo DEBIAN_FRONTEND=nointeractive apt dist-upgrade linux-generic-hwe-22.04 -y"]
        else [])
      ++ ["sudo DEBIAN_FRONTEND=nointeractive apt dist-upgrade -y",
        "sudo DEBIAN_FRONTEND=nointeractive apt --fix-broken install -y"])
  else []

/-- `_gnome`, which ends with `_branding` on what it has made a desktop. -/
def gnomeCommands (i : Install) : List Entry :=
  if osType i = .server then
    if gnomeOrder i then
      (.gnome, "sudo apt install lightdm ubuntu-dekstop -y")
        :: branding .desktop (osVersion i)
    else []
  else []

/-- The system as the fixes see it: `_gnome` has run. -/
def fixed (i : Install) : SetupGrub.Machine where
  motherboard := i.site.motherboard
  osversion := osVersion i
  ostype := gnome i (osType i)
  lspci := i.site.lspci
  order := i.site.order

/-- The `sed` for one parameter group. -/
def paramEdit (ostype : OsType) (group : Text) : Edit :=
  ⟨false, anchor ostype, withParam ostype group⟩

/-- `_mobofix`. -/
def mobofixCommands (m : SetupGrub.Machine) : List Command :=
  (if isMs73 m.motherboard then
      if grep "ASPEED".toList m.lspci then
        [.grub (paramEdit m.ostype nomodeset)]
      else []
    else [])
  ++ (if isWrx m.motherboard then
      (if m.ostype = .desktop then
        [.run (.mobofix, "sudo cp ~/install/assets/fixes/source/90-pulseaudio.rules /lib/udev/rules.d/90-pulseaudio.rules"),
         .run (.mobofix, "sudo cp ~/install/assets/fixes/source/asus-wrx80-usb-audio.conf /usr/share/pulseaudio/alsa-mixer/profile-sets/asus-wrx80-usb-audio.conf")]
        else []) ++ [.grub (paramEdit m.ostype iommu)]
    else [])
  ++ (if isProArt m.motherboard then [.grub (paramEdit m.ostype iommu)] else [])
  ++ (if grepDots
        "\"name\":\"Gigabyte TRX40 AORUS PRO WIFI (Rev. 1.1)\"".toList m.order
        && m.ostype = .desktop then
      [.run (.mobofix, "sudo cp ~/install/assets/fixes/source/Realtek-ALC1220-VB-Desktop.conf /usr/share/alsa/ucm2/USB-Audio/Realtek-ALC1220-VB-Desktop.conf"),
       .run (.mobofix, "sudo cp ~/install/assets/fixes/source/Realtek-ALC1220-VB-Desktop-HiFi.conf /usr/share/alsa/ucm2/USB-Audio/Realtek-ALC1220-VB-Desktop-HiFi.conf")]
    else [])
  ++ (if isNoble m.osversion then
      if m.ostype = .desktop then [.grub (paramEdit .desktop simpledrm)] else []
    else [])
  ++ [.run (.mobofix, "sudo update-grub")]

/-- `_netman`. -/
def netmanCommands (ostype : OsType) (ip : List Text) : List Command :=
  if ostype = .server then
    .run (.netman, "sudo DEBIAN_FRONTEND=nointeractive apt install net-tools -y")
      :: .network clearNetcfg
      :: (netmanHeader.map (fun line => .network (tee · line))
        ++ (nicsArray ip).map (fun nicnum => .network (addNic · nicnum))
        ++ [.run (.netman, "sudo netplan generate && sudo netplan apply")])
  else []

/-- The three `sed` calls of `_grubtime`. -/
def timeoutEdits : List Edit :=
  [⟨true, SetupGrub.timeout10, SetupGrub.timeout5⟩,
   ⟨true, SetupGrub.timeout0, SetupGrub.timeout5⟩,
   ⟨true, SetupGrub.styleHidden, SetupGrub.styleMenu⟩]

/-- `_grubtime`. -/
def grubtimeCommands : List Command :=
  timeoutEdits.map Command.grub ++ [.run (.grubtime, "sudo update-grub")]

/-- From the driver stages to the fixes. -/
def installs (i : Install) : List Entry :=
  bc9560 i.site.lspci ++ nvidia (osType i) i.site.lspci
    ++ amdigpu i.site.motherboard ++ aspeed i.site.lspci
    ++ courtesy (osType i) i.site.order
    ++ updateDesktop (osType i) (osVersion i)
    ++ updateServer (osType i) (osVersion i)
    ++ gnomeCommands i
    ++ [(.mount, "~/install/scripts/mount.sh")]

/-- Everything behind the driver stages. -/
def later (i : Install) (ip : List Text) : List Command :=
  (installs i).map Command.run
    ++ mobofixCommands (fixed i)
    ++ netmanCommands (fixed i).ostype ip
    ++ grubtimeCommands
    ++ [.stop (fixed i).ostype, .run (.shutdown, "sudo shutdown -r now")]

/-- `master.sh`, on the order file that this start has left. -/
def master (i : Install) (start : Start) : Script System :=
  if vizOsCheck i then .done
  else (sleep i).andThen ((records (branding (osType i) (osVersion i))).andThen
    (drivers i start.works (script (later i (ipBrief start.ifs)))))

/-- A start that is cut off behind its first `n` commands. -/
def masterCut (i : Install) (st : System) (start : Start × Nat) : System :=
  (master i start.1).cut st start.2

/-- The file the script searches from `_orderdata` on. -/
def withOrder (i : Install) (lines : List Text) : Install :=
  { i with site := { i.site with order := lines } }

/-- A start, and the order file that its own `_orderdata` has left. -/
structure Fetched where
  order : List Text
  start : Start

/-- Such a start, cut off behind its first commands. -/
def fetchedCut (i : Install) (st : System) (s : Fetched × Nat) : System :=
  masterCut (withOrder i s.1.order) st (s.1.start, s.2)

/-! ## What a command leaves alone -/

/-- The body of a stage is that of the driver model, on its part of the
    state. -/
theorem pass_moments (i : Install) (works : Bool) (c : Controller)
    (st : System) :
    ((Script.commands (pass i works c)).moments st).map System.machine
      = passStates i.site (osType i) works (stageOf c) st.machine := by
  rw [pass]
  cases osType i <;> rfl

/-- No stage fires. -/
def Quiet (i : Install) (st : System) : Prop :=
  ∀ c, fires i.site st.machine (stageOf c) = false

/-- One stage fires, or none does and the rest of the script runs. -/
theorem drivers_cut (i : Install) (works : Bool) (rest : Script System)
    (st : System) :
    (firing i st = none ∧ Quiet i st
        ∧ ∀ n, (drivers i works rest).cut st n = rest.cut st n)
      ∨ ∃ c, firing i st = some c
        ∧ fires i.site st.machine (stageOf c) = true
        ∧ ∀ n, (drivers i works rest).cut st n
          = (Script.commands (pass i works c)).cut st n := by
  simp only [drivers, cut_branch, firing]
  cases h1 : fires i.site st.machine hp7505 with
  | true => exact Or.inr ⟨.hp7505, rfl, h1, fun _ => rfl⟩
  | false =>
      cases h2 : fires i.site st.machine hp640L with
      | true => exact Or.inr ⟨.hp640L, rfl, h2, fun _ => rfl⟩
      | false =>
          cases h3 : fires i.site st.machine hp3720c with
          | true => exact Or.inr ⟨.hp3720c, rfl, h3, fun _ => rfl⟩
          | false =>
              refine Or.inl ⟨rfl, ?_, fun _ => rfl⟩
              intro c
              cases c with
              | hp7505 => exact h1
              | hp640L => exact h2
              | hp3720c => exact h3

/-- Neither `_viz_os_check` nor a driver stage ends the start. -/
def GoesOn (i : Install) (st : System) : Prop :=
  vizOsCheck i = false ∧ Quiet i st

theorem Quiet.congr {i : Install} {st st' : System} (h : Quiet i st)
    (hmonitor : isFile st'.machine.files .monitor
      = isFile st.machine.files .monitor) : Quiet i st' := by
  intro c
  rw [fires, hmonitor]
  exact h c

/-- No command behind the driver stages touches the sentinel. -/
theorem exec_monitor (c : Command) (st : System) :
    isFile (c.exec st).machine.files .monitor
      = isFile st.machine.files .monitor := by
  cases c with
  | run entry => rfl
  | grub e => exact isFile_editFile_ne (by decide) _
  | network edit => rfl
  | stop ostype =>
      cases ostype with
      | server => exact isFile_editFile_ne (by decide) _
      | desktop => exact isFile_removeFile_ne (by decide)

theorem Quiet.exec {i : Install} {st : System} (h : Quiet i st)
    (c : Command) : Quiet i (c.exec st) :=
  h.congr (exec_monitor c st)

/-- The commands of the autorun hook change the hooks only. -/
theorem hook_other {ostype : OsType}
    {edit : Files SetupDriver.Path → Files SetupDriver.Path}
    (h : edit ∈ hookCommands ostype) (f : Files SetupDriver.Path)
    {p : SetupDriver.Path} (hbashrc : p ≠ .bashrc)
    (hprofile : p ≠ .profileHook) (hdot : p ≠ .profileDotHook) :
    edit f p = f p := by
  cases ostype with
  | server =>
      simp only [hookCommands, List.mem_cons, List.not_mem_nil, or_false] at h
      rcases h with rfl | rfl
      · exact editFile_ne hbashrc _
      · exact appendLine_ne hbashrc _
  | desktop =>
      simp only [hookCommands, List.mem_cons, List.not_mem_nil, or_false] at h
      rcases h with rfl | rfl | rfl
      · exact removeFile_ne hdot
      · exact appendLine_ne hprofile _
      · exact appendLine_ne hprofile _

/-- No command of a stage takes the sentinel away. -/
theorem pass_monitor {i : Install} {works : Bool} {c : Controller}
    {f : System → System} (hf : f ∈ pass i works c) {st : System}
    (h : isFile st.machine.files .monitor = true) :
    isFile (f st).machine.files .monitor = true := by
  rcases List.mem_cons.mp hf with rfl | hf
  · show isFile (install (stageOf c) works st.machine).files .monitor = true
    rw [install]
    cases works with
    | false => exact h
    | true => exact isFile_touch_self _ _
  rcases List.mem_cons.mp hf with rfl | hf
  · exact (grubFix_monitor i.site (stageOf c) st.machine).trans h
  · obtain ⟨edit, hedit, rfl⟩ := List.mem_map.mp hf
    have hkept : edit st.machine.files .monitor = st.machine.files .monitor :=
      hook_other hedit _ (by decide) (by decide) (by decide)
    show (edit st.machine.files .monitor).isSome = true
    rw [hkept]
    exact h

theorem script_cut (cs : List Command) (st : System) (n : Nat) :
    (script cs).cut st n = run Command.exec st (cs.take n) := by
  rw [script, cut_commands, ← List.map_take, List.foldl_map]
  rfl

theorem script_exec (cs : List Command) (st : System) :
    (script cs).exec st = run Command.exec st cs := by
  rw [script, exec_commands, List.foldl_map]
  rfl

/-- What every command keeps the fixes keep. -/
theorem keeps_script {inv : System → Prop} {cs : List Command}
    (h : ∀ c ∈ cs, ∀ st, inv st → inv (c.exec st)) : (script cs).Keeps inv := by
  refine keeps_commands ?_
  intro f hf st hst
  obtain ⟨c, hc, rfl⟩ := List.mem_map.mp hf
  exact h c hc st hst

/-- What `_sleep` and `_branding` change is no business of the later steps. -/
theorem keeps_front (i : Install) {inv : System → Prop}
    (hrecord : ∀ st entry, inv st → inv (record entry st))
    (hflag : ∀ st, inv st → inv { st with sleepFlag := true }) :
    (sleep i).Keeps inv
      ∧ (records (branding (osType i) (osVersion i))).Keeps inv := by
  have hrecords : ∀ entries, (records entries).Keeps inv := by
    intro entries
    refine keeps_commands ?_
    intro f hf st hst
    obtain ⟨entry, -, rfl⟩ := List.mem_map.mp hf
    exact hrecord st entry hst
  refine ⟨⟨trivial, ?_⟩, hrecords _⟩
  split
  · exact keeps_andThen (hrecords _) ⟨hflag, trivial⟩
  · exact trivial

theorem keeps_drivers {i : Install} {works : Bool} {rest : Script System}
    {inv : System → Prop}
    (hpass : ∀ c, (Script.commands (pass i works c)).Keeps inv)
    (hrest : rest.Keeps inv) : (drivers i works rest).Keeps inv :=
  ⟨hpass .hp7505, hpass .hp640L, hpass .hp3720c, hrest⟩

/-! ## Drivers first -/

/-- What may run in front of a driver installer. -/
def Call.isEarly : Call → Bool
  | .sleep | .branding | .driver _ => true
  | _ => false

def Call.isDriver : Call → Bool
  | .driver _ => true
  | _ => false

/-- The command records no driver installer. -/
def NoDriver (c : Command) : Prop :=
  ∀ entry, c = .run entry → entry.1.isDriver = false

/-- The detection test of the stage does not come to the same on all of the
    order files. -/
def Differs (i : Install) (orders : List (List Text)) (c : Controller) : Prop :=
  ∃ o ∈ orders, ∃ o' ∈ orders, detected (withOrder i o).site (stageOf c)
    ≠ detected (withOrder i o').site (stageOf c)

/-- Only one of the stages looks at the order. -/
theorem Differs.hp7505 {i : Install} {orders : List (List Text)}
    {c : Controller} (h : Differs i orders c) : c = .hp7505 := by
  obtain ⟨o, -, o', -, hne⟩ := h
  cases c with
  | hp7505 => rfl
  | hp640L => exact absurd rfl hne
  | hp3720c => exact absurd rfl hne

/-- No stage fires whose test always comes to the same. -/
def Settled (i : Install) (orders : List (List Text)) (st : System) : Prop :=
  ∀ c, ¬ Differs i orders c → ∀ o ∈ orders,
    fires (withOrder i o).site st.machine (stageOf c) = false

/-- Behind the first command that follows the driver stages no driver is
    installed any more, and no stage has anything left to install, but for one
    that the order decides on differently. -/
def Ordered (i : Install) (orders : List (List Text)) (old : List Entry)
    (st : System) : Prop :=
  ∃ front back, st.log = old ++ (front ++ back)
    ∧ (∀ e ∈ front, e.1.isEarly = true)
    ∧ (∀ e ∈ back, ∀ c, e.1 = .driver c → Differs i orders c)
    ∧ (back ≠ [] → Settled i orders st)

/-- So far nothing else has run. -/
def Early (old : List Entry) (st : System) : Prop :=
  ∃ front, st.log = old ++ front ∧ ∀ e ∈ front, e.1.isEarly = true

/-- Early entries keep the log early. -/
theorem Early.append {old : List Entry} {st st' : System} (h : Early old st)
    {entries : List Entry} (hlog : st'.log = st.log ++ entries)
    (hearly : ∀ e ∈ entries, e.1.isEarly = true) : Early old st' := by
  obtain ⟨front, hfront, hall⟩ := h
  refine ⟨front ++ entries, by rw [hlog, hfront, List.append_assoc], ?_⟩
  intro e he
  exact (List.mem_append.mp he).elim (hall e) (hearly e)

theorem Early.ordered {old : List Entry} {st : System} (h : Early old st)
    (i : Install) (orders : List (List Text)) : Ordered i orders old st := by
  obtain ⟨front, hlog, hfront⟩ := h
  exact ⟨front, [], by rw [hlog, List.append_nil], hfront,
    fun _ he => absurd he List.not_mem_nil, fun hne => absurd rfl hne⟩

section Order

variable {i : Install} {orders : List (List Text)} {old : List Entry}
  {st st' : System}

/-- A sentinel that is there stays there. -/
theorem Settled.mono (h : Settled i orders st)
    (hmonitor : isFile st.machine.files .monitor = true →
      isFile st'.machine.files .monitor = true) : Settled i orders st' := by
  intro c hc o ho
  have hquiet := h c hc o ho
  rw [fires, Bool.and_eq_false_iff, Bool.not_eq_false'] at hquiet ⊢
  exact hquiet.imp id hmonitor

/-- A start that gets past the stages settles the tests that always come to the
    same. -/
theorem Quiet.settled {o : List Text} (ho : o ∈ orders)
    (h : Quiet (withOrder i o) st) : Settled i orders st := by
  intro c hc o' ho'
  have hsame : detected (withOrder i o').site (stageOf c)
      = detected (withOrder i o).site (stageOf c) :=
    not_ne_iff.mp (fun hne => hc ⟨o', ho', o, ho, hne⟩)
  rw [fires, hsame]
  exact h c

/-- Where a stage fires, nothing that follows the stages has run, or the order
    decides on it differently. -/
theorem Ordered.early (h : Ordered i orders old st) {o : List Text}
    (ho : o ∈ orders) {c : Controller}
    (hfires : fires (withOrder i o).site st.machine (stageOf c) = true) :
    Early old st ∨ Differs i orders c := by
  obtain ⟨front, back, hlog, hfront, -, hsettled⟩ := h
  by_cases hnil : back = []
  · rw [hnil, List.append_nil] at hlog
    exact Or.inl ⟨front, hlog, hfront⟩
  · refine Or.inr (Classical.not_not.mp (fun hc => ?_))
    rw [hsettled hnil c hc o ho] at hfires
    exact Bool.false_ne_true hfires

/-- What comes behind the second part has begun. -/
theorem Ordered.append (h : Ordered i orders old st)
    (hsettled : Settled i orders st') {entries : List Entry}
    (hlog : st'.log = st.log ++ entries)
    (hdriver : ∀ e ∈ entries, ∀ c, e.1 = .driver c → Differs i orders c) :
    Ordered i orders old st' := by
  obtain ⟨front, back, hold, hfront, hback, -⟩ := h
  refine ⟨front, back ++ entries, ?_, hfront, ?_, fun _ => hsettled⟩
  · rw [hlog, hold]
    simp only [List.append_assoc]
  · intro e he
    exact (List.mem_append.mp he).elim (hback e) (hdriver e)

/-- A command of sleep, branding or a driver stage: the sentinel is not taken
    away, and an installer is recorded in front of the second part only, or by
    the stage that the order decides on differently. -/
theorem Ordered.front (h : Ordered i orders old st) {entries : List Entry}
    (hlog : st'.log = st.log ++ entries)
    (hearly : ∀ e ∈ entries, e.1.isEarly = true)
    (hdriver : ∀ e ∈ entries, ∀ c, e.1 = .driver c →
      Early old st ∨ Differs i orders c)
    (hmonitor : isFile st.machine.files .monitor = true →
      isFile st'.machine.files .monitor = true) :
    Ordered i orders old st' := by
  by_cases hfirst : Early old st
  · exact (hfirst.append hlog hearly).ordered i orders
  · have hbegun : Settled i orders st := by
      obtain ⟨front, back, hold, hfront, -, hsettled⟩ := h
      refine hsettled (fun hnil => hfirst ⟨front, ?_, hfront⟩)
      rw [hold, hnil, List.append_nil]
    exact h.append (hbegun.mono hmonitor) hlog
      (fun e he c hc => (hdriver e he c hc).resolve_left hfirst)

/-- A command behind the stages. -/
theorem Ordered.exec (h : Ordered i orders old st) {o : List Text}
    (ho : o ∈ orders) (hquiet : Quiet (withOrder i o) st) {c : Command}
    (hc : NoDriver c) : Ordered i orders old (c.exec st) := by
  have hsettled : Settled i orders (c.exec st) := (hquiet.exec c).settled ho
  have hnone : ∀ entry : Entry, entry.1.isDriver = false → ∀ e ∈ [entry],
      ∀ c, e.1 = .driver c → Differs i orders c := by
    intro entry hentry e he c hdriver
    rw [List.mem_singleton.mp he] at hdriver
    rw [hdriver] at hentry
    exact absurd hentry (Bool.noConfusion)
  have hnil : ∀ e ∈ ([] : List Entry), ∀ c, e.1 = .driver c →
      Differs i orders c := fun _ he => absurd he List.not_mem_nil
  cases c with
  | run entry => exact h.append hsettled rfl (hnone entry (hc entry rfl))
  | grub e => exact h.append hsettled (List.append_nil _).symm hnil
  | network edit => exact h.append hsettled (List.append_nil _).symm hnil
  | stop ostype => exact h.append hsettled rfl (hnone _ rfl)

end Order

theorem isDriver_runAll {call : Call} (h : call.isDriver = false)
    {lines : List String} {e : Entry} (he : e ∈ runAll call lines) :
    e.1.isDriver = false := by
  obtain ⟨line, -, rfl⟩ := List.mem_map.mp he
  exact h

/-- The functions run their commands under a condition, or none. -/
theorem isDriver_guarded {p : Prop} [Decidable p] {call : Call}
    (h : call.isDriver = false) {lines : List String} {e : Entry}
    (he : e ∈ if p then runAll call lines else []) : e.1.isDriver = false := by
  split at he
  · exact isDriver_runAll h he
  · exact nomatch he

/-- The branding runs early and installs no driver. -/
theorem isDriver_branding {ostype : OsType} {osversion : Text} {e : Entry}
    (he : e ∈ branding ostype osversion) :
    e.1.isEarly = true ∧ e.1.isDriver = false := by
  rw [branding] at he
  split at he
  · obtain ⟨line, -, rfl⟩ := List.mem_map.mp he
    exact ⟨rfl, rfl⟩
  · exact nomatch he

/-- The installations of the second part are no drivers. -/
theorem isDriver_installs {i : Install} {e : Entry} (he : e ∈ installs i) :
    e.1.isDriver = false := by
  simp only [installs, List.mem_append] at he
  rcases he with (((((((he | he) | he) | he) | he) | he) | he) | he) | he
  · exact isDriver_guarded rfl he
  · exact isDriver_guarded rfl he
  · exact isDriver_guarded rfl he
  · exact isDriver_guarded rfl he
  · rw [courtesy] at he
    split at he
    · obtain ⟨p, -, he⟩ := List.mem_flatMap.mp he
      exact isDriver_runAll rfl he
    · exact nomatch he
  · exact isDriver_guarded rfl he
  · exact isDriver_guarded rfl he
  · rw [gnomeCommands] at he
    split at he
    · split at he
      · rcases List.mem_cons.mp he with rfl | he
        · rfl
        · exact (isDriver_branding he).2
      · exact nomatch he
    · exact nomatch he
  · rw [List.mem_singleton.mp he]
    rfl

section Forms

variable {P : Command → Prop}

theorem forall_ite {p : Prop} [Decidable p] {cs cs' : List Command}
    (h : ∀ c ∈ cs, P c) (h' : ∀ c ∈ cs', P c) :
    ∀ c ∈ (if p then cs else cs'), P c := by
  split
  · exact h
  · exact h'

/-- `_mobofix` records commands and edits the boot loader's file. -/
theorem forall_mobofix (hrun : ∀ line, P (.run (.mobofix, line)))
    (hgrub : ∀ e, P (.grub e)) (m : SetupGrub.Machine) :
    ∀ c ∈ mobofixCommands m, P c := by
  have hnil : ∀ c ∈ ([] : List Command), P c := fun _ h => nomatch h
  have hone : ∀ e, ∀ c ∈ [Command.grub e], P c :=
    fun e => List.forall_mem_singleton.mpr (hgrub e)
  have hcopies : ∀ l l' : String,
      ∀ c ∈ [Command.run (.mobofix, l), .run (.mobofix, l')], P c :=
    fun l l' => List.forall_mem_cons.mpr
      ⟨hrun l, List.forall_mem_singleton.mpr (hrun l')⟩
  rw [mobofixCommands]
  simp only [List.forall_mem_append]
  refine ⟨⟨⟨⟨⟨?_, ?_⟩, ?_⟩, ?_⟩, ?_⟩, ?_⟩
  · exact forall_ite (forall_ite (hone _) hnil) hnil
  · exact forall_ite (List.forall_mem_append.mpr
      ⟨forall_ite (hcopies _ _) hnil, hone _⟩) hnil
  · exact forall_ite (hone _) hnil
  · exact forall_ite (hcopies _ _) hnil
  · exact forall_ite (forall_ite (hone _) hnil) hnil
  · exact List.forall_mem_singleton.mpr (hrun _)

/-- `_netman` records commands and edits the network files. -/
theorem forall_netman (hrun : ∀ line, P (.run (.netman, line)))
    (hnetwork : ∀ edit, P (.network edit)) (ostype : OsType)
    (ip : List Text) : ∀ c ∈ netmanCommands ostype ip, P c := by
  rw [netmanCommands]
  refine forall_ite ?_ (fun _ h => nomatch h)
  simp only [List.forall_mem_cons, List.forall_mem_append, List.forall_mem_map]
  exact ⟨hrun _, hnetwork _,
    ⟨fun _ _ => hnetwork _, fun _ _ => hnetwork _⟩, hrun _, fun _ h => nomatch h⟩

/-- `_grubtime` records one command and edits the boot loader's file. -/
theorem forall_grubtime (hrun : ∀ line, P (.run (.grubtime, line)))
    (hgrub : ∀ e, P (.grub e)) : ∀ c ∈ grubtimeCommands, P c := by
  rw [grubtimeCommands, List.forall_mem_append, List.forall_mem_map]
  exact ⟨fun e _ => hgrub e, List.forall_mem_singleton.mpr (hrun _)⟩

end Forms

theorem noDriver_run {entry : Entry} (h : entry.1.isDriver = false) :
    NoDriver (.run entry) :=
  fun _ heq => Command.run.inj heq ▸ h

/-- No driver is installed behind the driver stages. -/
theorem noDriver_later (i : Install) (ip : List Text) :
    ∀ c ∈ later i ip, NoDriver c := by
  rw [later]
  simp only [List.forall_mem_append, List.forall_mem_map]
  refine ⟨⟨⟨⟨?_, ?_⟩, ?_⟩, ?_⟩, ?_⟩
  · exact fun e he => noDriver_run (isDriver_installs he)
  · exact forall_mobofix (fun _ => noDriver_run rfl) (fun _ _ h => nomatch h) _
  · exact forall_netman (fun _ => noDriver_run rfl) (fun _ _ h => nomatch h) _ _
  · exact forall_grubtime (fun _ => noDriver_run rfl) (fun _ _ h => nomatch h)
  · exact List.forall_mem_cons.mpr ⟨(fun _ h => nomatch h),
      List.forall_mem_singleton.mpr (noDriver_run rfl)⟩

section Script

variable (i : Install) (orders : List (List Text)) (old : List Entry)

/-- Sleep and branding record no installer. -/
theorem ordered_record {st : System} (h : Ordered i orders old st)
    {e : Entry} (he : e.1.isEarly = true ∧ e.1.isDriver = false) :
    Ordered i orders old (record e st) := by
  refine h.front rfl (List.forall_mem_singleton.mpr he.1) ?_ id
  intro e' he' c hc
  rw [List.mem_singleton.mp he'] at hc
  rw [hc] at he
  exact absurd he.2 Bool.noConfusion

/-- The front of the script, whatever order it has fetched. -/
theorem keeps_ordered (o : List Text) :
    (sleep (withOrder i o)).Keeps (Ordered i orders old)
      ∧ (records (branding (osType i) (osVersion i))).Keeps
        (Ordered i orders old) := by
  have hrecords : ∀ entries : List Entry,
      (∀ e ∈ entries, e.1.isEarly = true ∧ e.1.isDriver = false) →
      (records entries).Keeps (Ordered i orders old) := by
    intro entries hall
    refine keeps_commands ?_
    intro f hf st hst
    obtain ⟨e, he, rfl⟩ := List.mem_map.mp hf
    exact ordered_record i orders old hst (hall e he)
  refine ⟨⟨trivial, ?_⟩, hrecords _ (fun _ he => isDriver_branding he)⟩
  split
  · refine keeps_andThen (hrecords _ ?_) ⟨fun _ h => h, trivial⟩
    intro e he
    obtain ⟨line, -, rfl⟩ := List.mem_map.mp he
    exact ⟨rfl, rfl⟩
  · exact trivial

/-- A stage records its own installers only. -/
theorem triple_pass {o : List Text} (ho : o ∈ orders) (works : Bool)
    (c : Controller) :
    Triple (fun st => Ordered i orders old st
        ∧ fires (withOrder i o).site st.machine (stageOf c) = true)
      (.commands (pass (withOrder i o) works c)) (Ordered i orders old)
      (Ordered i orders old) := by
  have hkeeps : (Script.commands (pass (withOrder i o) works c)).Keeps
      (fun st => Ordered i orders old st
        ∧ (Early old st ∨ Differs i orders c)) := by
    refine keeps_commands ?_
    rintro f hf st ⟨hst, hallowed⟩
    have hmonitor := @pass_monitor _ _ _ _ hf st
    rcases List.mem_cons.mp hf with rfl | hf
    · have hown : ∀ e ∈ (installers c).map (Prod.mk (Call.driver c)),
          e.1 = .driver c := by
        intro e he
        obtain ⟨line, -, rfl⟩ := List.mem_map.mp he
        rfl
      have hearly : ∀ e ∈ (installers c).map (Prod.mk (Call.driver c)),
          e.1.isEarly = true := fun e he => by rw [hown e he]; rfl
      refine ⟨hst.front rfl hearly ?_ hmonitor,
        hallowed.imp (fun h => h.append rfl hearly) id⟩
      intro e he c' hc'
      rw [hown e he] at hc'
      exact Call.driver.inj hc' ▸ hallowed
    · -- the other commands of a stage record nothing
      have hlog : (f st).log = st.log ++ [] := by
        rw [List.append_nil]
        rcases List.mem_cons.mp hf with rfl | hf
        · rfl
        · obtain ⟨edit, -, rfl⟩ := List.mem_map.mp hf
          rfl
      exact ⟨hst.front hlog (fun _ he => absurd he List.not_mem_nil)
          (fun _ he => absurd he List.not_mem_nil) hmonitor,
        hallowed.imp
          (fun h => h.append hlog (fun _ he => absurd he List.not_mem_nil)) id⟩
  exact (triple_keeps hkeeps).weaken (fun _ h => ⟨h.1, h.1.early ho h.2⟩)
    (fun _ h => h.1) (fun _ h => h.1)

/-- **THE FIXES**: they come behind the drivers, where no stage fires. -/
theorem triple_later {o : List Text} (ho : o ∈ orders) (ip : List Text) :
    Triple (fun st => Ordered i orders old st ∧ Quiet (withOrder i o) st)
      (script (later (withOrder i o) ip)) (Ordered i orders old)
      (Ordered i orders old) := by
  have hdriver := noDriver_later (withOrder i o) ip
  generalize later (withOrder i o) ip = cs at hdriver ⊢
  have hkeeps : (script cs).Keeps
      (fun st => Ordered i orders old st ∧ Quiet (withOrder i o) st) :=
    keeps_script (fun c hc st hst =>
      ⟨hst.1.exec ho hst.2 (hdriver c hc), hst.2.exec c⟩)
  exact (triple_keeps hkeeps).weaken (fun _ h => h) (fun _ h => h.1)
    (fun _ h => h.1)

/-- The three stages, with an assertion for each arm. -/
theorem triple_drivers {pre post : System → Prop} (works : Bool)
    {rest : Script System}
    (hpass : ∀ c, Triple
      (fun st => pre st ∧ fires i.site st.machine (stageOf c) = true)
      (.commands (pass i works c)) post post)
    (hrest : Triple (fun st => pre st ∧ Quiet i st) rest post post) :
    Triple pre (drivers i works rest) post post := by
  refine triple_branch (hpass .hp7505) (triple_branch ?_ (triple_branch ?_ ?_))
  · exact (hpass .hp640L).weaken (fun _ h => ⟨h.1.1, h.2⟩) (fun _ h => h)
      (fun _ h => h)
  · exact (hpass .hp3720c).weaken (fun _ h => ⟨h.1.1.1, h.2⟩) (fun _ h => h)
      (fun _ h => h)
  · refine hrest.weaken ?_ (fun _ h => h) (fun _ h => h)
    rintro st ⟨⟨⟨hst, h7505⟩, h640L⟩, h3720c⟩
    refine ⟨hst, ?_⟩
    intro c
    cases c with
    | hp7505 => exact h7505
    | hp640L => exact h640L
    | hp3720c => exact h3720c

/-- **ONE START**: at every moment the log is in order. -/
theorem triple_master {o : List Text} (ho : o ∈ orders) (start : Start) :
    Triple (Ordered i orders old) (master (withOrder i o) start)
      (Ordered i orders old) (Ordered i orders old) := by
  obtain ⟨hsleep, hbranding⟩ := keeps_ordered i orders old o
  rw [master]
  split
  · exact triple_done (fun _ h => ⟨h, h⟩)
  · refine triple_andThen (Ordered i orders old) (triple_keeps hsleep) ?_
    refine triple_andThen (Ordered i orders old) (triple_keeps hbranding) ?_
    exact triple_drivers _ start.works
      (triple_pass i orders old ho start.works)
      (triple_later i orders old ho _)

end Script

end SetupMaster
