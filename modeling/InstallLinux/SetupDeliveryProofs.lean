import InstallLinux.SetupMasterBootsProofs
import InstallLinux.SetupMasterFixesProofs
import InstallLinux.SetupOrderBootsProofs

/-! # Delivery — from the order number to the installed software

    The two halves of `master.sh` put together: `_orderid` and `_orderdata`
    fetch an order, and everything behind them searches the file they leave.
    A start may be cut off in either half; the next one takes the number again,
    fetches again and starts over.

    * `log_goesOn`: what a complete start runs that gets past the driver
      stages;
    * `mem_installs_software`, `mem_installs_gnome`: what hangs on the order;
    * `setup_delivers`: so a complete start runs the installers of what the one
      order names;
    * `setup_asked`: and no start, cut off anywhere, runs any other. -/

namespace SetupDelivery

open ShellText ShellRun ShellScript SetupDriver SetupAutorun
open SetupOrderData (Collation IsOrderId NoOrderFiles)
open SetupSoftware SetupOrderSearch SetupMaster
open SetupOrderBoots (Kept Shop merged_settled number number_isOrderId
  number_settled prepare prepareCut prepareStates)

/-! ## A start -/

/-- What a start finds and leaves. -/
structure Whole where
  kept : Kept
  system : System

/-- A start from the top of the script. -/
structure Start where
  /-- what `read` takes from the prompt of `_orderid`, should it come -/
  answer : Text
  /-- the rest of the script -/
  later : SetupMaster.Start
  /-- the commands it gets to -/
  commands : Nat

section Starts

variable (C : Collation) (shop : Shop) (m : SetupOrderId.Machine) (i : Install)

/-- The system as a start sees it that fetches the order to the end. -/
def informed (answer : Text) (k : Kept) : Install :=
  withOrder i (mergedLines (prepare C shop m answer k).folder)

/-- A start that is cut off, in `_orderid` and `_orderdata` or behind them. -/
def wholeCut (w : Whole) (s : Start) : Whole where
  kept := prepareCut C shop m w.kept ⟨s.answer, s.commands⟩
  system := masterCut (informed C shop m i s.answer w.kept) w.system
    (s.later, s.commands - (prepareStates C shop m s.answer w.kept).length)

/-- A complete start. -/
def whole (w : Whole) (answer : Text) (later : SetupMaster.Start) : Whole where
  kept := prepare C shop m answer w.kept
  system := (master (informed C shop m i answer w.kept) later).exec w.system

/-- The first half of a run of starts is a run of the first half. -/
theorem kept_run (starts : List Start) (w : Whole) :
    (run (wholeCut C shop m i) w starts).kept
      = run (prepareCut C shop m) w.kept
        (starts.map (fun s => ⟨s.answer, s.commands⟩)) := by
  induction starts generalizing w with
  | nil => rfl
  | cons s rest ih =>
      rw [run_cons, List.map_cons, run_cons, ih]
      rfl

end Starts

/-! ## What a complete start runs -/

/-- What a command records. -/
def Command.entry : Command → Option Entry
  | .run entry => some entry
  | .grub _ => none
  | .network _ => none
  | .stop ostype => some (.stop, stopLine ostype)

theorem log_exec (st : System) (c : Command) :
    (c.exec st).log = st.log ++ (Command.entry c).toList := by
  cases c with
  | run entry => rfl
  | grub e => exact (List.append_nil _).symm
  | network edit => exact (List.append_nil _).symm
  | stop ostype => rfl

/-- Commands add their entries in order. -/
theorem log_run (cs : List Command) (st : System) :
    (run Command.exec st cs).log = st.log ++ cs.filterMap Command.entry := by
  induction cs generalizing st with
  | nil => exact (List.append_nil _).symm
  | cons c rest ih =>
      rw [run_cons, ih, log_exec, List.append_assoc]
      cases hentry : Command.entry c with
      | none => rw [List.filterMap_cons_none hentry]; rfl
      | some e => rw [List.filterMap_cons_some hentry]; rfl

/-- `_sleep` and `_branding` run nothing that comes behind the drivers. -/
theorem keeps_early {i : Install} {old : List Entry} :
    (sleep i).Keeps (Early old)
      ∧ (records (branding (osType i) (osVersion i))).Keeps (Early old) := by
  have hrecords : ∀ entries : List Entry, (∀ e ∈ entries, e.1.isEarly = true) →
      (records entries).Keeps (Early old) := by
    intro entries hall
    refine keeps_commands ?_
    intro f hf st hst
    obtain ⟨e, he, rfl⟩ := List.mem_map.mp hf
    exact hst.append rfl (List.forall_mem_singleton.mpr (hall e he))
  refine ⟨⟨trivial, ?_⟩, hrecords _ (fun e he => (isDriver_branding he).1)⟩
  split
  · refine keeps_andThen (hrecords _ ?_) ⟨fun _ h => h, trivial⟩
    intro e he
    obtain ⟨line, -, rfl⟩ := List.mem_map.mp he
    rfl
  · exact trivial

/-- **A COMPLETE START** past the driver stages. -/
theorem log_goesOn {i : Install} {st : System} (h : GoesOn i st)
    (start : SetupMaster.Start) :
    ∃ front : List Entry, (∀ e ∈ front, e.1.isEarly = true)
      ∧ ((master i start).exec st).log = st.log ++ (front
        ++ (later i (SetupNetplan.ipBrief start.ifs)).filterMap
          Command.entry) := by
  have hkeeps : (sleep i).Keeps (Early st.log)
      ∧ (records (branding (osType i) (osVersion i))).Keeps (Early st.log) :=
    keeps_early
  obtain ⟨hsleep, hbranding⟩ := hkeeps
  have hstart : Early st.log st :=
    ⟨[], (List.append_nil _).symm, fun _ he => nomatch he⟩
  have hearly := (triple_keeps hbranding).ends _
    ((triple_keeps hsleep).ends st hstart)
  have hquiet := h.2.congr
    (congrArg (fun m => ShellFiles.isFile (Machine.files m) .monitor)
      (front_machine i st))
  obtain ⟨front, hfront, hall⟩ := hearly
  refine ⟨front, hall, ?_⟩
  rw [master, if_neg (Bool.eq_false_iff.mp h.1), exec_andThen, exec_andThen,
    drivers_quiet hquiet, script_exec, log_run, hfront, List.append_assoc]

/-! ## What hangs on the order -/

/-- The functions whose commands hang on the order. -/
def isOrdered : Call → Bool
  | .software _ | .gnome => true
  | _ => false

theorem mem_runAll {call call' : Call} {line : String} {lines : List String} :
    (call, line) ∈ runAll call' lines ↔ call = call' ∧ line ∈ lines := by
  simp only [runAll, List.mem_map, Prod.mk.injEq]
  constructor
  · rintro ⟨l, hl, rfl, rfl⟩
    exact ⟨rfl, hl⟩
  · rintro ⟨rfl, hl⟩
    exact ⟨line, hl, rfl, rfl⟩

/-- Another function's commands, under a condition. -/
theorem not_mem_guarded {p : Prop} [Decidable p] {call call' : Call}
    {line : String} {lines : List String} (h : call ≠ call') :
    (call, line) ∉ if p then runAll call' lines else [] := by
  intro hmem
  split at hmem
  · exact h (mem_runAll.mp hmem).1
  · exact nomatch hmem

/-- Of the installations only those of `courtesy` and `_gnome` are ordered. -/
theorem ordered_installs {i : Install} {e : Entry}
    (h : isOrdered e.1 = true) :
    e ∈ installs i
      ↔ e ∈ courtesy (osType i) i.site.order ∨ e ∈ gnomeCommands i := by
  obtain ⟨call, line⟩ := e
  have hother : ∀ call', isOrdered call' = false → call ≠ call' := by
    rintro _ hfalse rfl
    exact Bool.eq_false_iff.mp hfalse h
  simp only [installs, List.mem_append]
  constructor
  · rintro ((((((((hm | hm) | hm) | hm) | hm) | hm) | hm) | hm) | hm)
    · exact absurd hm (not_mem_guarded (hother _ rfl))
    · exact absurd hm (not_mem_guarded (hother _ rfl))
    · exact absurd hm (not_mem_guarded (hother _ rfl))
    · exact absurd hm (not_mem_guarded (hother _ rfl))
    · exact Or.inl hm
    · exact absurd hm (not_mem_guarded (hother _ rfl))
    · exact absurd hm (not_mem_guarded (hother _ rfl))
    · exact Or.inr hm
    · exact absurd (congrArg Prod.fst (List.mem_singleton.mp hm))
        (hother _ rfl)
  · rintro (hm | hm)
    · exact Or.inl (Or.inl (Or.inl (Or.inl (Or.inr hm))))
    · exact Or.inl (Or.inr hm)

/-- The installers of a product run its commands, on a desktop. -/
theorem mem_installs_software (i : Install) (p : Product) (line : String) :
    (Call.software p, line) ∈ installs i
      ↔ osType i = .desktop ∧ line ∈ p.soft i.site.order := by
  have hgnome : (Call.software p, line) ∉ gnomeCommands i := by
    rw [gnomeCommands]
    intro hmem
    split at hmem
    · split at hmem
      · rcases List.mem_cons.mp hmem with heq | hmem
        · cases heq
        · exact not_mem_guarded (by simp) hmem
      · exact absurd hmem List.not_mem_nil
    · exact absurd hmem List.not_mem_nil
  rw [ordered_installs rfl, or_iff_left hgnome, courtesy]
  split
  · next hos =>
      have hall : p ∈ [Product.virtualbox, .chrome, .reader, .vlc] := by
        cases p <;> simp
      rw [and_iff_right hos, List.mem_flatMap]
      simp only [mem_runAll, Call.software.injEq]
      constructor
      · rintro ⟨q, -, rfl, hline⟩
        exact hline
      · intro hline
        exact ⟨p, hall, rfl, hline⟩
  · next hos => exact iff_of_false List.not_mem_nil (fun h => hos h.1)

/-- The package of the desktop is `ubuntu-dekstop` to the script. -/
theorem mem_installs_gnome (i : Install) (line : String) :
    (Call.gnome, line) ∈ installs i
      ↔ osType i = .server ∧ gnomeOrder i = true
        ∧ line = "sudo apt install lightdm ubuntu-dekstop -y" := by
  have hcourtesy : (Call.gnome, line) ∉ courtesy (osType i) i.site.order := by
    rw [courtesy]
    intro h
    split at h
    · obtain ⟨p, -, h⟩ := List.mem_flatMap.mp h
      cases (mem_runAll.mp h).1
    · exact List.not_mem_nil h
  have hbranding : (Call.gnome, line) ∉ branding .desktop (osVersion i) :=
    not_mem_guarded (by simp)
  rw [ordered_installs rfl, or_iff_right hcourtesy, gnomeCommands]
  by_cases hos : osType i = .server
  · rw [if_pos hos, and_iff_right hos]
    by_cases horder : gnomeOrder i = true
    · rw [if_pos horder, and_iff_right horder, List.mem_cons,
        or_iff_left hbranding, Prod.mk.injEq, and_iff_right rfl]
    · rw [if_neg horder]
      exact iff_of_false List.not_mem_nil (fun h => horder h.1)
  · rw [if_neg hos]
    exact iff_of_false List.not_mem_nil (fun h => hos h.1)

/-- Behind `mount.sh` nothing hangs on the order but the fixes. -/
def Unordered (c : Command) : Prop :=
  ∀ e, Command.entry c = some e → isOrdered e.1 = false

theorem unordered_run {e : Entry} (h : isOrdered e.1 = false) :
    Unordered (.run e) :=
  fun _ heq => Option.some.inj heq ▸ h

/-- The ordered entries of the second part are those of the installations. -/
theorem mem_later {i : Install} {ip : List Text} {e : Entry}
    (h : isOrdered e.1 = true) :
    e ∈ (later i ip).filterMap Command.entry ↔ e ∈ installs i := by
  have hrest : ∀ c ∈ mobofixCommands (fixed i)
      ++ netmanCommands (fixed i).ostype ip ++ grubtimeCommands
      ++ [.stop (fixed i).ostype, .run (.shutdown, "sudo shutdown -r now")],
      Unordered c := by
    simp only [List.forall_mem_append]
    refine ⟨⟨⟨?_, ?_⟩, ?_⟩, ?_⟩
    · exact forall_mobofix (fun _ => unordered_run rfl)
        (fun _ _ h => nomatch h) _
    · exact forall_netman (fun _ => unordered_run rfl)
        (fun _ _ h => nomatch h) _ _
    · exact forall_grubtime (fun _ => unordered_run rfl) (fun _ _ h => nomatch h)
    · refine List.forall_mem_cons.mpr ⟨?_,
        List.forall_mem_singleton.mpr (unordered_run rfl)⟩
      exact fun _ heq => Option.some.inj heq ▸ rfl
  have hlater : later i ip = (installs i).map Command.run
      ++ (mobofixCommands (fixed i) ++ netmanCommands (fixed i).ostype ip
        ++ grubtimeCommands
        ++ [.stop (fixed i).ostype, .run (.shutdown, "sudo shutdown -r now")]) := by
    simp only [later, List.append_assoc]
  have hinstalls : ((installs i).map Command.run).filterMap Command.entry
      = installs i := by
    rw [List.filterMap_map]
    exact List.filterMap_some
  rw [hlater, List.filterMap_append, hinstalls, List.mem_append]
  refine or_iff_left ?_
  intro hmem
  obtain ⟨c, hc, hentry⟩ := List.mem_filterMap.mp hmem
  exact Bool.false_ne_true ((hrest c hc e hentry).symm.trans h)

/-! ## The law -/

/-- The lines a start finds that fetches the order to the end. -/
theorem merged_lines (C : Collation) {E : JsonText.Escaping} (shop : Shop)
    {orders : Text → Order} (m : SetupOrderId.Machine) (i : Install) {w : Whole}
    (hshop : ∀ id, IsOrderId id → Serves E (shop.call id) (orders id))
    (hflag : w.kept.flag = none) (hfolder : NoOrderFiles w.kept.folder)
    {starts : List Start} {answer : Text}
    (hid : IsOrderId (number m
      (starts.map (fun s => ⟨s.answer, s.commands⟩)) answer)) :
    mergedLines (prepare C shop m answer
        (run (wholeCut C shop m i) w starts).kept).folder
      = fileLines (docsText E (orders (number m
          (starts.map (fun s => ⟨s.answer, s.commands⟩)) answer)).docs) := by
  rw [mergedLines, kept_run, merged_settled C shop hshop hflag hfolder _ _ hid]
  rfl

/-- What a start has added to the log is what the order asks for: all commands
    of the installers, and on a server the line that is meant for the
    desktop. -/
structure Delivers (i : Install) (o : Order) (added : List Entry) : Prop where
  software : ∀ (p : Product) (line : String), (Call.software p, line) ∈ added
    ↔ osType i = .desktop ∧ o.Names p.name ∧ line ∈ p.commands
  desktop : ∀ line : String, (Call.gnome, line) ∈ added
    ↔ osType i = .server ∧ o.Mentions gnomeWords
      ∧ line = "sudo apt install lightdm ubuntu-dekstop -y"

/-- An installer runs its commands iff the order names its product. -/
theorem mem_soft_iff {o : Order} {lines : List Text}
    (hdecides : Decides o lines) (p : Product) (line : String) :
    line ∈ p.soft lines ↔ o.Names p.name ∧ line ∈ p.commands := by
  rw [← hdecides.software, soft_ne_nil_iff, soft_eq]
  split
  · next h => exact (and_iff_right h).symm
  · next h => exact iff_of_false List.not_mem_nil (fun hn => h hn.1)

/-- A complete start past the driver stages delivers the order it has read. -/
theorem delivers_goesOn {i : Install} {o : Order} {lines : List Text}
    (hdecides : Decides o lines) {st : System}
    (h : GoesOn (withOrder i lines) st) (start : SetupMaster.Start) :
    ∃ added, ((master (withOrder i lines) start).exec st).log
        = st.log ++ added ∧ Delivers i o added := by
  obtain ⟨front, hfront, hlog⟩ := log_goesOn h start
  have hadded : ∀ {e : Entry}, isOrdered e.1 = true →
      (e ∈ front ++ (later (withOrder i lines)
          (SetupNetplan.ipBrief start.ifs)).filterMap Command.entry
        ↔ e ∈ installs (withOrder i lines)) := by
    intro e he
    rw [List.mem_append, mem_later he]
    refine or_iff_right ?_
    intro hmem
    have hearly := hfront e hmem
    obtain ⟨call, line⟩ := e
    cases call <;> first
      | exact Bool.false_ne_true he
      | exact Bool.false_ne_true hearly
  refine ⟨_, hlog, ?_, ?_⟩
  · intro p line
    rw [hadded rfl, mem_installs_software, ← mem_soft_iff hdecides]
    rfl
  · intro line
    rw [hadded rfl, mem_installs_gnome,
      ← hdecides.desktop (withOrder i lines) rfl]
    rfl

/-- Nothing but installations of the script hangs on the order. -/
def Sound (i : Install) (old : List Entry) (st : System) : Prop :=
  ∃ added, st.log = old ++ added
    ∧ ∀ e ∈ added, isOrdered e.1 = true → e ∈ installs i

/-- Entries that are ordered or of the installations keep it so. -/
theorem Sound.append {i : Install} {old : List Entry} {st st' : System}
    (h : Sound i old st) {entries : List Entry}
    (hlog : st'.log = st.log ++ entries)
    (hentries : ∀ e ∈ entries, isOrdered e.1 = true → e ∈ installs i) :
    Sound i old st' := by
  obtain ⟨added, hadded, hall⟩ := h
  refine ⟨added ++ entries, by rw [hlog, hadded, List.append_assoc], ?_⟩
  intro e he
  exact (List.mem_append.mp he).elim (hall e) (hentries e)

/-- A command that records entries of its own function only. -/
theorem Sound.unordered {i : Install} {old : List Entry} {st st' : System}
    (h : Sound i old st) {entries : List Entry}
    (hlog : st'.log = st.log ++ entries)
    (hentries : ∀ e ∈ entries, isOrdered e.1 = false) : Sound i old st' :=
  h.append hlog (fun e he hordered =>
    absurd (hordered.symm.trans (hentries e he)) (by decide))

theorem not_isOrdered_of_isEarly {call : Call} (h : call.isEarly = true) :
    isOrdered call = false := by
  cases call <;> first
    | rfl
    | exact nomatch h

/-- What a command of the second part records. -/
theorem sound_later (i : Install) (ip : List Text) :
    ∀ c ∈ later i ip, ∀ e ∈ (Command.entry c).toList,
      isOrdered e.1 = true → e ∈ installs i := by
  intro c hc e he hordered
  exact (mem_later hordered).mp
    (List.mem_filterMap.mpr ⟨c, hc, Option.mem_toList.mp he⟩)

/-- **STEP INVARIANT**: along the script. -/
theorem keeps_sound (i : Install) (old : List Entry)
    (start : SetupMaster.Start) : (master i start).Keeps (Sound i old) := by
  have hrecords : ∀ entries : List Entry, (∀ e ∈ entries, e.1.isEarly = true) →
      (records entries).Keeps (Sound i old) := by
    intro entries hall
    refine keeps_commands ?_
    intro f hf st hst
    obtain ⟨e, he, rfl⟩ := List.mem_map.mp hf
    exact hst.unordered rfl (List.forall_mem_singleton.mpr
      (not_isOrdered_of_isEarly (hall e he)))
  have hpass : ∀ c, (Script.commands (pass i start.works c)).Keeps
      (Sound i old) := by
    intro c
    refine keeps_commands ?_
    intro f hf st hst
    rcases List.mem_cons.mp hf with rfl | hf
    · refine hst.unordered rfl ?_
      intro e he
      obtain ⟨line, -, rfl⟩ := List.mem_map.mp he
      rfl
    · rcases List.mem_cons.mp hf with rfl | hf
      · exact hst
      · obtain ⟨edit, -, rfl⟩ := List.mem_map.mp hf
        exact hst
  have hsleep : (sleep i).Keeps (Sound i old) := by
    refine ⟨trivial, ?_⟩
    split
    · refine keeps_andThen (hrecords _ ?_) ⟨fun _ h => h, trivial⟩
      intro e he
      obtain ⟨line, -, rfl⟩ := List.mem_map.mp he
      rfl
    · exact trivial
  have hbranding := hrecords (branding (osType i) (osVersion i))
    (fun e he => (isDriver_branding he).1)
  have hentry := sound_later i (SetupNetplan.ipBrief start.ifs)
  rw [master]
  generalize later i (SetupNetplan.ipBrief start.ifs) = cs at hentry ⊢
  have hlater : (script cs).Keeps (Sound i old) :=
    keeps_script (fun c hc st hst => hst.append (log_exec st c) (hentry c hc))
  split
  · exact trivial
  · exact keeps_andThen hsleep (keeps_andThen hbranding
      (keeps_drivers hpass hlater))

/-- What has been added to the log is nothing that the order does not ask
    for. -/
structure Asked (i : Install) (o : Order) (added : List Entry) : Prop where
  software : ∀ (p : Product) (line : String), (Call.software p, line) ∈ added →
    osType i = .desktop ∧ o.Names p.name ∧ line ∈ p.commands
  desktop : ∀ line : String, (Call.gnome, line) ∈ added →
    osType i = .server ∧ o.Mentions gnomeWords
      ∧ line = "sudo apt install lightdm ubuntu-dekstop -y"

theorem Asked.append {i : Install} {o : Order} {front back : List Entry}
    (hfront : Asked i o front) (hback : Asked i o back) :
    Asked i o (front ++ back) where
  software p line h := (List.mem_append.mp h).elim (hfront.software p line)
    (hback.software p line)
  desktop line h := (List.mem_append.mp h).elim (hfront.desktop line)
    (hback.desktop line)

theorem asked_nil (i : Install) (o : Order) : Asked i o [] where
  software _ _ h := nomatch h
  desktop _ h := nomatch h

/-- A start that has read the order, cut off anywhere. -/
theorem asked_cut {i : Install} {o : Order} {lines : List Text}
    (hdecides : Decides o lines) (st : System)
    (start : SetupMaster.Start × Nat) :
    ∃ added, (masterCut (withOrder i lines) st start).log = st.log ++ added
      ∧ Asked i o added := by
  have hstart : Sound (withOrder i lines) st.log st :=
    ⟨[], (List.append_nil _).symm, fun _ he => nomatch he⟩
  obtain ⟨added, hlog, hall⟩ :=
    (triple_keeps (keeps_sound (withOrder i lines) st.log start.1)).cut hstart
      start.2
  refine ⟨added, hlog, ?_, ?_⟩
  · intro p line hmem
    obtain ⟨hos, hline⟩ :=
      (mem_installs_software _ p line).mp (hall _ hmem rfl)
    exact ⟨hos, (mem_soft_iff hdecides p line).mp hline⟩
  · intro line hmem
    obtain ⟨hos, hgnome, hline⟩ :=
      (mem_installs_gnome _ line).mp (hall _ hmem rfl)
    exact ⟨hos, (hdecides.desktop (withOrder i lines) rfl).mp hgnome, hline⟩

/-- The number a start takes is that of all starts. -/
theorem number_all {m : SetupOrderId.Machine} {starts front back : List Start}
    {s : Start} (hsplit : starts = front ++ s :: back) (hs : 0 < s.commands)
    (hid : IsOrderId (number m [] s.answer)) :
    number m (front.map (fun s => ⟨s.answer, s.commands⟩)) s.answer
      = number m (starts.map (fun s => ⟨s.answer, s.commands⟩)) [] := by
  rw [hsplit, List.map_append, List.map_cons]
  exact number_settled (s := ⟨s.answer, s.commands⟩) hs hid _ _ _

/-- A start that runs no command records nothing. -/
theorem log_wholeCut_zero (C : Collation) (shop : Shop)
    (m : SetupOrderId.Machine) (i : Install) (w : Whole) {s : Start}
    (hs : s.commands = 0) :
    (wholeCut C shop m i w s).system.log = w.system.log := by
  show (masterCut _ _ (s.later, s.commands - _)).log = _
  rw [hs, Nat.zero_sub]
  rfl

/-- An order without children, that asks for VLC. -/
def vlcOrder : Order where
  parent := {
    before := [("name".toList, .str "VLC".toList)]
    after := []
    ids := none
    topOnly := rfl
    distinct := List.nodup_nil }
  child _ := ⟨[], rfl⟩
  names := rfl

def vlcShop : Shop where
  wget _ := JsonText.text JsonText.plainEscaping vlcOrder.parent.json
  jq _ := SetupOrderData.jqPrint JsonText.plainEscaping vlcOrder.parent.ids

def plainDesktop : Install := ⟨⟨[], [], []⟩, [], []⟩

/-- Nothing has run yet. -/
def fresh : Whole where
  kept := ⟨none, []⟩
  system := ⟨⟨fun _ => none, []⟩, fun _ => none, false, []⟩

/-- Cut off at the prompt, cut off in the first fetch. -/
def earlyStarts : List Start :=
  [⟨"111111".toList, ⟨true, []⟩, 0⟩, ⟨"222222".toList, ⟨true, []⟩, 2⟩]

/-- The third start gets into the second half. -/
def threeStarts : List Start :=
  earlyStarts ++ [⟨"333333".toList, ⟨true, []⟩, 100⟩]

end SetupDelivery
