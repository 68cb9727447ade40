import InstallLinux.ShellQuoteProofs
import InstallLinux.ShellScriptProofs

/-! # Power limits — asked for once, set again at every boot

    `nvpl.sh` asks for a power limit for each card, sets it, and on request
    saves the limits: the array is printed with `declare -p` into a file, and a
    second script, which a service starts at every boot, reads that file and
    sets the limits again.  A limit the card does not take is saved like any
    other, and a boot begins with the default limits.

    * `nvPowerlimit_limits`: the second script sets what the first was told,
      through the text of the file and in whatever order;
    * `booked_after`: what a start leaves behind, wherever it is cut off, and
      `booked_run`, what all of them do;
    * `reboot_limits` is the law of all starts and boots;
    * `limit_stays_iff`: a limit is the same behind a boot iff the card took it,
      or was at its default. -/

namespace SetupPowerLimit

open ShellText ShellRun ShellScript ShellQuote

/-! ## The machine -/

/-- `nvidia-smi`, as far as the two scripts use it. -/
structure Smi (L : Type) where
  /-- `--query-gpu=index` -/
  gpuIndexes : List Text
  nodup : gpuIndexes.Nodup
  keys : ∀ i ∈ gpuIndexes, IsKey i
  default : Text → L
  /-- the limit that the words of a call set a card to, if it takes them -/
  accepts : Text → List Text → Option L

/-- The shell: what it prints as it is, and the order it walks an array in. -/
structure Shell where
  locale : CharLocale
  order : Entries → Entries
  perm : ∀ entries, (order entries).Perm entries

structure System (L : Type) where
  limits : Text → L
  /-- `/etc/nv-powerlimit.conf` -/
  config : Option Text
  /-- `/usr/local/sbin/nv-powerlimit.sh`, and whether it can be executed -/
  bootScript : Option Bool
  /-- `nv-powerlimit.service`, and the link to it -/
  service : Bool
  linked : Bool
  enabled : Bool

/-- What `read` takes from the prompts: without the blanks around it, and
    without the backslashes. -/
structure Start where
  gpuPowerLimit : Text → Text
  saveConfig : Text

variable {L : Type} (smi : Smi L) (shell : Shell)

/-! ## The script -/

/-- `nvidia-smi --id=$gpu_index --power-limit=$gpu_power_limit`, on the limit
    the card has. -/
def Smi.set (e : Text × Text) (limit : L) : L :=
  (smi.accepts e.1 (splitWords ("--power-limit=".toList ++ e.2))).getD limit

def setLimit (e : Text × Text) (st : System L) : System L :=
  { st with limits :=
      Function.update st.limits e.1 (smi.set e (st.limits e.1)) }

/-- `gpu_power_limits` behind the loop over the cards. -/
def gpuPowerLimits (s : Start) : Entries :=
  smi.gpuIndexes.foldl (fun array i => assign array i (s.gpuPowerLimit i)) []

def arrayName : Text := "gpu_power_limits".toList

/-- What `declare -p gpu_power_limits` prints. -/
def configText (s : Start) : Text :=
  printArray shell.locale arrayName (shell.order (gpuPowerLimits smi s))

/-- The loop over the cards. -/
def setCommands (s : Start) : List (System L → System L) :=
  smi.gpuIndexes.map (fun i => setLimit smi (i, s.gpuPowerLimit i))

def writeConfig (s : Start) (st : System L) : System L :=
  { st with config := some (configText smi shell s) }

/-- From the second script to the link. -/
def serviceCommands : List (System L → System L) :=
  -- `tee` leaves the mode of a file that is there
  [fun st => { st with bootScript := some (st.bootScript.getD false) },
   fun st => { st with bootScript := some true },
   fun st => { st with service := true },
   fun st => { st with linked := true }]

/-- `systemctl enable nv-powerlimit.service`. -/
def enable (st : System L) : System L := { st with enabled := true }

/-- What is done to save the limits. -/
def saveCommands (s : Start) : List (System L → System L) :=
  writeConfig smi shell s :: (serviceCommands ++ [enable])

/-- `nvpl.sh`. -/
def nvpl (s : Start) : List (System L → System L) :=
  setCommands smi s ++ if s.saveConfig = ['y'] then saveCommands smi shell s
    else []

/-- `nv-powerlimit.sh`.  Behind `&& \` and a blank stands no command, so what
    follows is printed anyway; the limits are set. -/
def nvPowerlimit (st : System L) : System L :=
  match st.config.bind (readArray arrayName) with
  | none => st
  | some entries =>
      (shell.order entries).foldl (fun st e => setLimit smi e st) st

/-- A boot: the limits are the default ones until the service has run. -/
def reboot (st : System L) : System L :=
  let st := { st with limits := smi.default }
  if st.enabled && st.linked && st.service && st.bootScript == some true then
    nvPowerlimit smi shell st
  else st

inductive Event where
  /-- a start that is cut off behind a number of commands -/
  | start (s : Start) (commands : Nat)
  | reboot

def after (st : System L) : Event → System L
  | .start s n => (Script.commands (nvpl smi shell s)).cut st n
  | .reboot => reboot smi shell st

/-! ## The file -/

variable {smi shell} {s : Start}

theorem gpuPowerLimits_eq :
    gpuPowerLimits smi s
      = smi.gpuIndexes.map (fun i => (i, s.gpuPowerLimit i)) :=
  foldl_assign smi.nodup s.gpuPowerLimit (fun _ _ => List.not_mem_nil)

theorem keys_gpuPowerLimits :
    (gpuPowerLimits smi s).map Prod.fst = smi.gpuIndexes := by
  rw [gpuPowerLimits_eq, List.map_map]
  exact List.map_id _

/-- Of what cannot be printed only ASCII characters are entered. -/
def Enterable (smi : Smi L) (shell : Shell) (s : Start) : Prop :=
  ∀ i ∈ smi.gpuIndexes, Legible shell.locale (s.gpuPowerLimit i)

/-- **THE FILE**: it is read back as the limits entered. -/
theorem readArray_configText (hs : Enterable smi shell s) :
    readArray arrayName (configText smi shell s)
      = some (shell.order (gpuPowerLimits smi s)) := by
  refine readArray_printArray shell.locale arrayName ?_
  intro e he
  have hmem := (shell.perm (gpuPowerLimits smi s)).subset he
  rw [gpuPowerLimits_eq] at hmem
  obtain ⟨i, hi, rfl⟩ := List.mem_map.mp hmem
  exact ⟨smi.keys i hi, hs i hi⟩

theorem foldl_setLimit (entries : Entries) (st : System L) :
    entries.foldl (fun st e => setLimit smi e st) st
      = { st with limits := entries.foldl (fun limits e =>
            Function.update limits e.1 (smi.set e (limits e.1))) st.limits } := by
  induction entries generalizing st with
  | nil => rfl
  | cons e rest ih => exact ih (setLimit smi e st)

/-- **THE SECOND SCRIPT** sets what the first was told. -/
theorem nvPowerlimit_limits {st : System L} (hs : Enterable smi shell s)
    (hconfig : st.config = some (configText smi shell s)) {i : Text}
    (hi : i ∈ smi.gpuIndexes) :
    (nvPowerlimit smi shell st).limits i
      = smi.set (i, s.gpuPowerLimit i) (st.limits i) := by
  have hperm := (shell.perm (shell.order (gpuPowerLimits smi s))).trans
    (shell.perm (gpuPowerLimits smi s))
  have hkeys : ((shell.order (shell.order (gpuPowerLimits smi s))).map
      Prod.fst).Nodup := by
    rw [(hperm.map Prod.fst).nodup_iff, keys_gpuPowerLimits]
    exact smi.nodup
  have hmem : (i, s.gpuPowerLimit i)
      ∈ shell.order (shell.order (gpuPowerLimits smi s)) := by
    refine hperm.symm.subset ?_
    rw [gpuPowerLimits_eq]
    exact List.mem_map_of_mem hi
  rw [nvPowerlimit, hconfig, Option.bind_some,
    readArray_configText hs]
  simp only [foldl_setLimit]
  exact (foldl_entries smi.set hkeys st.limits).1 _ hmem

/-! ## What a start leaves behind -/

/-- All that the service needs. -/
structure Installed (st : System L) : Prop where
  bootScript : st.bootScript = some true
  service : st.service = true
  linked : st.linked = true

/-- The file is that of the last start to write it; the service is enabled iff
    some start got to the end, and then all it needs is there. -/
structure Booked (smi : Smi L) (shell : Shell) (written : Option Start)
    (through : Prop) (st : System L) : Prop where
  config : st.config = written.map (configText smi shell)
  enabled : st.enabled = true ↔ through
  installed : st.enabled = true → Installed st

theorem setCommands_length :
    (setCommands smi s).length = smi.gpuIndexes.length :=
  List.length_map ..

/-- Up to the line that writes the file, only limits change. -/
theorem part_setCommands {A : Type} (part : System L → A)
    (hpart : ∀ (st : System L) (limits : Text → L),
      part { st with limits := limits } = part st) :
    ∀ f ∈ setCommands smi s, ∀ st, part (f st) = part st := by
  intro f hf st
  obtain ⟨i, -, rfl⟩ := List.mem_map.mp hf
  exact hpart st _

/-- What holds of the four steps holds of the service's commands. -/
theorem forall_serviceCommands {P : (System L → System L) → Prop}
    (htee : P (fun st => { st with
      bootScript := some (st.bootScript.getD false) }))
    (hchmod : P (fun st => { st with bootScript := some true }))
    (hservice : P (fun st => { st with service := true }))
    (hlink : P (fun st => { st with linked := true })) :
    ∀ f ∈ serviceCommands, P f := by
  simp only [serviceCommands, List.forall_mem_cons]
  exact ⟨htee, hchmod, hservice, hlink, fun _ h => absurd h List.not_mem_nil⟩

/-- What is installed stays so. -/
theorem keeps_installed :
    (Script.commands (nvpl smi shell s)).Keeps Installed := by
  have hservice : ∀ f ∈ serviceCommands, ∀ st : System L, Installed st →
      Installed (f st) :=
    forall_serviceCommands
      (fun _ h => ⟨congrArg (fun mode => some (mode.getD false)) h.1, h.2, h.3⟩)
      (fun _ h => ⟨rfl, h.2, h.3⟩) (fun _ h => ⟨h.1, rfl, h.3⟩)
      (fun _ h => ⟨h.1, h.2, rfl⟩)
  refine keeps_commands ?_
  intro f hf st h
  rcases List.mem_append.mp hf with hf | hf
  · obtain ⟨i, -, rfl⟩ := List.mem_map.mp hf
    exact ⟨h.1, h.2, h.3⟩
  · split at hf
    · rcases List.mem_cons.mp hf with rfl | hf
      · exact ⟨h.1, h.2, h.3⟩
      · rcases List.mem_append.mp hf with hf | hf
        · exact hservice f hf st h
        · rw [List.mem_singleton.mp hf]
          exact ⟨h.1, h.2, h.3⟩
    · exact absurd hf List.not_mem_nil

section Saving

variable (hsave : s.saveConfig = ['y'])

include hsave

/-- The line that writes the file is the first behind the loop. -/
theorem cut_config (st : System L) (n : Nat) :
    ((Script.commands (nvpl smi shell s)).cut st n).config
      = if smi.gpuIndexes.length < n then some (configText smi shell s)
        else st.config := by
  have hset : ∀ f ∈ setCommands smi s, ∀ t : System L,
      t.config = st.config → (f t).config = st.config :=
    fun f hf t h => (part_setCommands (·.config) (fun _ _ => rfl) f hf t).trans h
  have hrest : ∀ f ∈ serviceCommands ++ [enable], ∀ t : System L,
      t.config = some (configText smi shell s) →
      (f t).config = some (configText smi shell s) := by
    rw [List.forall_mem_append, List.forall_mem_singleton]
    exact ⟨forall_serviceCommands (fun _ h => h) (fun _ h => h) (fun _ h => h)
      (fun _ h => h), fun _ h => h⟩
  obtain ⟨hbefore, hafter⟩ := cut_turn _ _ setCommands_length hset
    (fun t _ => (rfl : (writeConfig smi shell s t).config = _)) hrest rfl n
  rw [nvpl, if_pos hsave]
  split
  · next hn => exact hafter hn
  · next hn => exact hbefore (Nat.not_lt.mp hn)

/-- The service is enabled by the last command. -/
theorem cut_enabled (st : System L) (n : Nat) :
    ((Script.commands (nvpl smi shell s)).cut st n).enabled
      = if smi.gpuIndexes.length + 5 < n then true else st.enabled := by
  have hfront : ∀ f ∈ setCommands smi s
        ++ writeConfig smi shell s :: serviceCommands, ∀ t : System L,
      t.enabled = st.enabled → (f t).enabled = st.enabled := by
    rw [List.forall_mem_append, List.forall_mem_cons]
    exact ⟨fun f hf t h =>
        (part_setCommands (·.enabled) (fun _ _ => rfl) f hf t).trans h,
      fun _ h => h, forall_serviceCommands (fun _ h => h) (fun _ h => h)
        (fun _ h => h) (fun _ h => h)⟩
  have hlength : (setCommands smi s
        ++ writeConfig smi shell s :: serviceCommands).length
      = smi.gpuIndexes.length + 5 := by
    rw [List.length_append, setCommands_length]
    rfl
  obtain ⟨hbefore, hafter⟩ := cut_turn (fun t => t.enabled = st.enabled)
    (fun t => t.enabled = true) hlength hfront (fun t _ => (rfl :
      (enable t).enabled = true)) (fun _ hf => absurd hf List.not_mem_nil) rfl n
  have hsplit : nvpl smi shell s
      = (setCommands smi s ++ writeConfig smi shell s :: serviceCommands)
        ++ [enable] := by
    rw [nvpl, if_pos hsave, List.append_assoc]
    rfl
  rw [hsplit]
  split
  · next hn => exact hafter hn
  · next hn => exact hbefore (Nat.not_lt.mp hn)

/-- By then all it needs is there. -/
theorem cut_installed (st : System L) {n : Nat}
    (hn : smi.gpuIndexes.length + 5 < n) :
    Installed ((Script.commands (nvpl smi shell s)).cut st n) := by
  have hlength : (nvpl smi shell s).length ≤ n := by
    rw [nvpl, if_pos hsave, List.length_append, setCommands_length]
    exact hn
  rw [cut_commands, List.take_of_length_le hlength, nvpl, if_pos hsave,
    List.foldl_append]
  exact ⟨rfl, rfl, rfl⟩

end Saving

/-- A start that does not save changes limits only. -/
theorem cut_unsaved (hsave : s.saveConfig ≠ ['y']) {A : Type}
    (part : System L → A) (hpart : ∀ (st : System L) (limits : Text → L),
      part { st with limits := limits } = part st) (st : System L) (n : Nat) :
    part ((Script.commands (nvpl smi shell s)).cut st n) = part st := by
  rw [nvpl, if_neg hsave, List.append_nil]
  have hkeeps : (Script.commands (setCommands smi s)).Keeps
      (fun t => part t = part st) :=
    keeps_commands (fun f hf t h => (part_setCommands part hpart f hf t).trans h)
  exact (triple_keeps hkeeps).cut rfl n

/-- The boot script changes limits only. -/
theorem nvPowerlimit_part {A : Type} (part : System L → A)
    (hpart : ∀ (st : System L) (limits : Text → L),
      part { st with limits := limits } = part st) (st : System L) :
    part (nvPowerlimit smi shell st) = part st := by
  rw [nvPowerlimit]
  split
  · rfl
  · rw [foldl_setLimit]
    exact hpart st _

/-- A boot changes limits only. -/
theorem reboot_part {A : Type} (part : System L → A)
    (hpart : ∀ (st : System L) (limits : Text → L),
      part { st with limits := limits } = part st) (st : System L) :
    part (reboot smi shell st) = part st := by
  rw [reboot]
  split
  · exact (nvPowerlimit_part part hpart _).trans (hpart st _)
  · exact hpart st _

/-- The limit a card gets at a boot from the last start that was written. -/
def restored (smi : Smi L) (written : Option Start) (i : Text) : L :=
  written.elim (smi.default i) (fun s =>
    smi.set (i, s.gpuPowerLimit i) (smi.default i))

/-- **ONE BOOT**: it sets the limits of the start that was written last, once a
    start was through. -/
theorem reboot_booked {written : Option Start} {through : Prop}
    {st : System L} (h : Booked smi shell written through st)
    (hwritten : ∀ s ∈ written, Enterable smi shell s) {i : Text}
    (hi : i ∈ smi.gpuIndexes) :
    (through → (reboot smi shell st).limits i = restored smi written i)
      ∧ (¬ through → (reboot smi shell st).limits i = smi.default i) := by
  constructor
  · intro hthrough
    have henabled := h.enabled.mpr hthrough
    have hinstalled := h.installed henabled
    have hruns : (st.enabled && st.linked && st.service
        && st.bootScript == some true) = true := by
      rw [henabled, hinstalled.linked, hinstalled.service,
        hinstalled.bootScript]
      rfl
    rw [reboot]
    simp only [hruns, if_true]
    cases written with
    | none =>
        rw [nvPowerlimit, h.config]
        rfl
    | some s =>
        exact @nvPowerlimit_limits L smi shell s
          { st with limits := smi.default } (hwritten s rfl) h.config i hi
  · intro hnot
    have henabled : st.enabled = false :=
      Bool.eq_false_iff.mpr (fun h' => hnot (h.enabled.mp h'))
    rw [reboot]
    simp only [henabled, Bool.false_and, Bool.false_eq_true, if_false]

/-! ## All starts and boots -/

/-- The start, when it got to write the file. -/
def written (smi : Smi L) : Event → Option Start
  | .start s n =>
      if s.saveConfig = ['y'] ∧ smi.gpuIndexes.length < n then some s else none
  | .reboot => none

/-- The start got to enable the service. -/
def through (smi : Smi L) : Event → Bool
  | .start s n => s.saveConfig = ['y'] && smi.gpuIndexes.length + 5 < n
  | .reboot => false

/-- A boot writes nothing. -/
theorem booked_reboot {last : Option Start} {t : Prop} {st : System L}
    (h : Booked smi shell last t st) :
    Booked smi shell last t (reboot smi shell st) := by
  have hconfig : (reboot smi shell st).config = st.config :=
    reboot_part (·.config) (fun _ _ => rfl) st
  have henabled : (reboot smi shell st).enabled = st.enabled :=
    reboot_part (·.enabled) (fun _ _ => rfl) st
  refine ⟨hconfig.trans h.config, ?_, fun hon => ?_⟩
  · rw [henabled, h.enabled]
  · have hinstalled := h.installed (henabled.symm.trans hon)
    exact ⟨(reboot_part (·.bootScript) (fun _ _ => rfl) st).trans
        hinstalled.bootScript,
      (reboot_part (·.service) (fun _ _ => rfl) st).trans hinstalled.service,
      (reboot_part (·.linked) (fun _ _ => rfl) st).trans hinstalled.linked⟩

/-- A start that saves nothing writes nothing. -/
theorem booked_unsaved {last : Option Start} {t : Prop} {st : System L}
    (h : Booked smi shell last t st) {s : Start} (hsave : s.saveConfig ≠ ['y'])
    (n : Nat) : Booked smi shell last t (after smi shell st (.start s n)) := by
  have hconfig : (after smi shell st (.start s n)).config = st.config :=
    cut_unsaved hsave (·.config) (fun _ _ => rfl) st n
  have henabled : (after smi shell st (.start s n)).enabled = st.enabled :=
    cut_unsaved hsave (·.enabled) (fun _ _ => rfl) st n
  refine ⟨hconfig.trans h.config, ?_, fun hon => ?_⟩
  · rw [henabled, h.enabled]
  · exact (triple_keeps keeps_installed).cut
      (h.installed (henabled.symm.trans hon)) n

/-- A start that saves writes the file with one command per card, and enables
    the service five commands later. -/
theorem booked_saved {last : Option Start} {t : Prop} {st : System L}
    (h : Booked smi shell last t st) {s : Start} (hsave : s.saveConfig = ['y'])
    (n : Nat) :
    Booked smi shell ((written smi (.start s n)).or last)
      (t ∨ through smi (.start s n) = true)
      (after smi shell st (.start s n)) := by
  have hconfig : (after smi shell st (.start s n)).config = _ :=
    cut_config hsave st n
  have henabled : (after smi shell st (.start s n)).enabled = _ :=
    cut_enabled hsave st n
  refine ⟨?_, ?_, fun hon => ?_⟩
  · rw [hconfig, written]
    by_cases hn : smi.gpuIndexes.length < n
    · rw [if_pos hn, if_pos ⟨hsave, hn⟩]
      rfl
    · rw [if_neg hn, if_neg (fun h => hn h.2), Option.none_or]
      exact h.config
  · rw [henabled, through, decide_eq_true hsave, Bool.true_and,
      decide_eq_true_iff]
    by_cases hn : smi.gpuIndexes.length + 5 < n
    · rw [if_pos hn]
      exact iff_of_true rfl (Or.inr hn)
    · rw [if_neg hn, h.enabled]
      exact (or_iff_left hn).symm
  · by_cases hn : smi.gpuIndexes.length + 5 < n
    · exact cut_installed hsave st hn
    · rw [henabled, if_neg hn] at hon
      exact (triple_keeps keeps_installed).cut (h.installed hon) n

/-- **STEP**: a start or a boot books what it has written. -/
theorem booked_after {last : Option Start} {t : Prop} {st : System L}
    (h : Booked smi shell last t st) (e : Event) :
    Booked smi shell ((written smi e).or last) (t ∨ through smi e = true)
      (after smi shell st e) := by
  cases e with
  | reboot =>
      have hnot : (t ∨ through smi .reboot = true) = t :=
        propext (or_iff_left Bool.false_ne_true)
      rw [hnot]
      exact booked_reboot h
  | start s n =>
      by_cases hsave : s.saveConfig = ['y']
      · exact booked_saved h hsave n
      · have hnone : written smi (.start s n) = none :=
          if_neg (fun h => hsave h.1)
        have hnot : (t ∨ through smi (.start s n) = true) = t := by
          rw [through, decide_eq_false hsave, Bool.false_and]
          exact propext (or_iff_left Bool.false_ne_true)
        rw [hnone, hnot, Option.none_or]
        exact booked_unsaved h hsave n

/-- The last start that got to write the file. -/
def lastWritten (smi : Smi L) (events : List Event) : Option Start :=
  (events.filterMap (written smi)).getLast?

/-- It is one of the starts. -/
theorem mem_lastWritten {smi : Smi L} {events : List Event} {s : Start}
    (h : lastWritten smi events = some s) : ∃ n, Event.start s n ∈ events := by
  obtain ⟨e, he, hs⟩ := List.mem_filterMap.mp (List.mem_of_getLast? h)
  cases e with
  | reboot => exact nomatch hs
  | start s' n =>
      rw [written] at hs
      split at hs
      · exact ⟨n, Option.some.inj hs ▸ he⟩
      · exact nomatch hs

/-- **RUN**: what all starts and boots have booked. -/
theorem booked_run {last : Option Start} {t : Prop} {st : System L}
    (h : Booked smi shell last t st) (events : List Event) :
    Booked smi shell ((lastWritten smi events).or last)
      (t ∨ events.any (through smi) = true)
      (run (after smi shell) st events) := by
  induction events using List.reverseRecOn with
  | nil =>
      show Booked smi shell last (t ∨ false = true) st
      rw [or_iff_left Bool.false_ne_true]
      exact h
  | append_singleton front e ih =>
      have hstep := booked_after ih e
      have hlast : lastWritten smi (front ++ [e])
          = (written smi e).or (lastWritten smi front) := by
        rw [lastWritten, List.filterMap_append, List.getLast?_append]
        cases he : written smi e <;> simp [he, lastWritten]
      rw [hlast, Option.or_assoc, List.any_append, Bool.or_eq_true, ← or_assoc,
        run_append]
      rw [List.any_cons, List.any_nil, Bool.or_false]
      exact hstep

/-- Nothing saved, nothing enabled. -/
def Plain (st : System L) : Prop := st.config = none ∧ st.enabled = false

/-- With nothing saved no start is booked. -/
theorem Plain.booked {st : System L} (h : Plain st) :
    Booked smi shell none False st where
  config := h.1
  enabled := iff_of_false (by rw [h.2]; exact Bool.false_ne_true) id
  installed := fun hon => absurd (h.2.symm.trans hon) Bool.false_ne_true

/-- **ALL STARTS AND BOOTS**: after any starts, each cut off anywhere, and any
    boots between them, a boot sets each card to what the last start that wrote
    the file was told, if some start got to enable the service and the card
    takes it; to its default otherwise. -/
theorem reboot_limits (smi : Smi L) (shell : Shell) (st : System L)
    (hplain : Plain st) (events : List Event)
    (hentered : ∀ s n, Event.start s n ∈ events → Enterable smi shell s)
    (i : Text) (hi : i ∈ smi.gpuIndexes) :
    (reboot smi shell (run (after smi shell) st events)).limits i
      = if events.any (through smi) = true then
          restored smi (lastWritten smi events) i
        else smi.default i := by
  have hstart : Booked smi shell none False st := hplain.booked
  have hbooked := booked_run hstart events
  have hlast : ∀ s ∈ (lastWritten smi events).or none,
      Enterable smi shell s := by
    intro s hs
    rw [Option.or_none] at hs
    obtain ⟨n, hmem⟩ := mem_lastWritten hs
    exact hentered s n hmem
  obtain ⟨hthrough, hnot⟩ := reboot_booked hbooked hlast hi
  rw [Option.or_none] at hthrough
  split
  · next h => exact hthrough (Or.inr h)
  · next h =>
      refine hnot ?_
      rintro (hno | hyes)
      · exact hno
      · exact h hyes

/-! ### Two cards -/

/-- The cards take 250 and nothing else. -/
def twoCards : Smi Nat where
  gpuIndexes := ["0".toList, "1".toList]
  nodup := by decide
  keys := by
    intro i hi
    rcases List.mem_cons.mp hi with rfl | hi
    · exact ⟨List.cons_ne_nil _ _, List.all_eq_true.mp rfl⟩
    · rw [List.mem_singleton.mp hi]
      exact ⟨List.cons_ne_nil _ _, List.all_eq_true.mp rfl⟩
  default _ := 300
  accepts _ words :=
    if words = ["--power-limit=250".toList] then some 250 else none

/-- The locale of plain ASCII. -/
def asciiLocale : CharLocale where
  printable c := decide (32 ≤ c.toNat ∧ c.toNat < 127)
  ascii _ _ := decide_eq_true_iff

def backwards : Shell where
  locale := asciiLocale
  order := List.reverse
  perm := List.reverse_perm

def stock : System Nat := ⟨fun _ => 300, none, none, false, false, false⟩

/-- 250 for the first card, and an arrow key in front of it for the second. -/
def quoted : Start where
  gpuPowerLimit i :=
    if i = "0".toList then "250".toList
    else Char.ofNat 27 :: "[A250".toList
  saveConfig := ['y']

def higher : Start := ⟨fun _ => "400".toList, ['y']⟩

/-- A complete start, a boot, and a start that is cut off before it saves. -/
def threeEvents : List Event := [.start quoted 8, .reboot, .start higher 2]

/-- What a start enters is ASCII. -/
def areAscii (s : Start) : Bool :=
  twoCards.gpuIndexes.all (fun i =>
    (s.gpuPowerLimit i).all (fun c => decide (c.toNat < 128)))

/-- ASCII can always be entered. -/
theorem enterable_of_ascii {s : Start} (h : areAscii s = true) :
    Enterable twoCards backwards s := by
  intro i hi c hc
  have hone := List.all_eq_true.mp (List.all_eq_true.mp h i hi) c hc
  exact Or.inr (of_decide_eq_true hone)

theorem threeEvents_entered :
    ∀ s n, Event.start s n ∈ threeEvents → Enterable twoCards backwards s := by
  intro s n hmem
  rw [threeEvents, List.mem_cons, List.mem_cons, List.mem_singleton] at hmem
  rcases hmem with h | h | h
  · exact (Event.start.inj h).1 ▸ enterable_of_ascii rfl
  · exact nomatch h
  · exact (Event.start.inj h).1 ▸ enterable_of_ascii rfl

/-- The card takes 250, and refuses what begins with an arrow key. -/
theorem reboot_limits_twoCards :
    (reboot twoCards backwards (run (after twoCards backwards) stock
        threeEvents)).limits "0".toList = 250
      ∧ (reboot twoCards backwards (run (after twoCards backwards) stock
        threeEvents)).limits "1".toList = 300 := by
  constructor
  · rw [reboot_limits twoCards backwards stock ⟨rfl, rfl⟩ threeEvents
      threeEvents_entered "0".toList (by decide)]
    rfl
  · rw [reboot_limits twoCards backwards stock ⟨rfl, rfl⟩ threeEvents
      threeEvents_entered "1".toList (by decide)]
    rfl

/-! ## A limit that stays -/

/-- The loop over the cards sets each of them once. -/
theorem exec_limits (s : Start) (st : System L) {i : Text}
    (hi : i ∈ smi.gpuIndexes) :
    ((Script.commands (nvpl smi shell s)).exec st).limits i
      = smi.set (i, s.gpuPowerLimit i) (st.limits i) := by
  have hsets : (setCommands smi s).foldl (fun t f => f t) st
      = (gpuPowerLimits smi s).foldl (fun t e => setLimit smi e t) st := by
    rw [setCommands, gpuPowerLimits_eq, List.foldl_map, List.foldl_map]
  have hkeys : ((gpuPowerLimits smi s).map Prod.fst).Nodup := by
    rw [keys_gpuPowerLimits]
    exact smi.nodup
  have hmem : (i, s.gpuPowerLimit i) ∈ gpuPowerLimits smi s := by
    rw [gpuPowerLimits_eq]
    exact List.mem_map_of_mem hi
  have hloop := (foldl_entries smi.set hkeys st.limits).1 _ hmem
  rw [exec_commands, nvpl, List.foldl_append, hsets, foldl_setLimit]
  split
  · exact hloop
  · exact hloop

/-- What a complete start that saves has booked. -/
theorem booked_exec (hsave : s.saveConfig = ['y']) (st : System L) :
    Booked smi shell (some s) True
      ((Script.commands (nvpl smi shell s)).exec st) := by
  have hlength : (nvpl smi shell s).length ≤ smi.gpuIndexes.length + 6 := by
    rw [nvpl, if_pos hsave, List.length_append, setCommands_length]
    exact Nat.le_refl _
  have hexec : (Script.commands (nvpl smi shell s)).exec st
      = (Script.commands (nvpl smi shell s)).cut st
        (smi.gpuIndexes.length + 6) := by
    rw [exec_commands, cut_commands, List.take_of_length_le hlength]
  rw [hexec]
  refine ⟨?_, ?_, fun _ => cut_installed hsave st (by omega)⟩
  · rw [cut_config hsave, if_pos (by omega)]
    rfl
  · rw [cut_enabled hsave, if_pos (by omega)]
    exact iff_of_true rfl trivial

/-- **A LIMIT THAT STAYS**: behind a complete start that saves, and any events
    of which none writes the file again, a boot leaves a card the limit the
    start has left it iff the card took it, or was at its default before. -/
theorem limit_stays_iff (smi : Smi L) (shell : Shell) (st : System L) (s : Start)
    (hsave : s.saveConfig = ['y']) (hentered : Enterable smi shell s)
    (later : List Event) (hlater : ∀ e ∈ later, written smi e = none) (i : Text)
    (hi : i ∈ smi.gpuIndexes) :
    (reboot smi shell (run (after smi shell)
        ((Script.commands (nvpl smi shell s)).exec st) later)).limits i
        = ((Script.commands (nvpl smi shell s)).exec st).limits i
      ↔ (smi.accepts i (splitWords ("--power-limit=".toList
          ++ s.gpuPowerLimit i))).isSome = true
        ∨ st.limits i = smi.default i := by
  have hlast : lastWritten smi later = none := by
    rw [lastWritten, List.filterMap_eq_nil_iff.mpr hlater]
    rfl
  have hexec : Booked smi shell (some s) True
      ((Script.commands (nvpl smi shell s)).exec st) := booked_exec hsave st
  have hbooked := booked_run hexec later
  rw [hlast, Option.none_or] at hbooked
  have hwritten : ∀ s' ∈ some s, Enterable smi shell s' := by
    rintro s' ⟨⟩
    exact hentered
  rw [(reboot_booked hbooked hwritten hi).1 (Or.inl trivial),
    exec_limits s st hi]
  show smi.set _ (smi.default i) = smi.set _ (st.limits i) ↔ _
  rw [Smi.set, Smi.set]
  cases smi.accepts i (splitWords ("--power-limit=".toList
      ++ s.gpuPowerLimit i)) with
  | some limit => exact iff_of_true rfl (Or.inl rfl)
  | none => simp [eq_comm]

/-- A later start is cut off before it writes. -/
theorem limit_stays_twoCards :
    (reboot twoCards backwards (run (after twoCards backwards)
        ((Script.commands (nvpl twoCards backwards quoted)).exec stock)
        [.start higher 2])).limits "0".toList
      = ((Script.commands (nvpl twoCards backwards quoted)).exec stock).limits
        "0".toList :=
  (limit_stays_iff twoCards backwards stock quoted rfl (enterable_of_ascii rfl)
    [.start higher 2] (List.forall_mem_singleton.mpr rfl) "0".toList (by decide)).mpr (Or.inl rfl)

end SetupPowerLimit
