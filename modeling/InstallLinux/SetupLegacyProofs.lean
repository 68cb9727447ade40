import InstallLinux.ShellRunProofs
import InstallLinux.ShellTextProofs

/-! # Legacy disks — a text guard around a blind counter

    Step 2 of `highpoint.sh` initialises port after port, `1/E1/1`, `1/E1/2`
    and so on, for as long as `hptraidconf query devices` prints `LEGACY`
    anywhere.  A pass over an empty port, or over a disk that needs nothing,
    changes nothing, so the inventory alone gives no measure.

    What makes the loop end is that no legacy disk stays behind the counter
    (`Progress`): the highest legacy port minus the counter is the variant.

    * `progress_pass` is the step: a pass keeps `Progress` and lowers the
      variant;
    * `legacy_loop_ends` is the law of the loop, for every inventory and every
      `hptraidconf` that does what its documentation says. -/

namespace SetupLegacy

open ShellText ShellRun

/-! ## The controller -/

/-- A disk at the port `1/E1/slot`. -/
structure Device where
  slot : Nat
  legacy : Bool
  deriving DecidableEq

/-- The disks of the controller, no two at one port. -/
@[ext] structure Inventory where
  devices : List Device
  slots_pos : ∀ d ∈ devices, 1 ≤ d.slot
  slots_nodup : (devices.map Device.slot).Nodup

/-- `1/E1/$n`. -/
def location (n : Nat) : Text := "1/E1/".toList ++ Nat.toDigits 10 n

/-- The mark of a disk taken away if its port is one of these. -/
def Device.clearIf (ports : Nat → Bool) (d : Device) : Device :=
  if ports d.slot then { d with legacy := false } else d

@[simp] theorem Device.clearIf_slot (ports : Nat → Bool) (d : Device) :
    (d.clearIf ports).slot = d.slot := by
  rw [Device.clearIf]
  split <;> rfl

theorem Device.clearIf_legacy (ports : Nat → Bool) (d : Device) :
    (d.clearIf ports).legacy = (d.legacy && !ports d.slot) := by
  rw [Device.clearIf]
  cases ports d.slot <;> simp

/-- Clearing twice is clearing the ports of both times. -/
theorem Device.clearIf_clearIf (p q : Nat → Bool) (d : Device) :
    (d.clearIf p).clearIf q = d.clearIf (fun k => p k || q k) := by
  rw [Device.clearIf, Device.clearIf_slot, Device.clearIf, Device.clearIf]
  cases p d.slot <;> cases q d.slot <;> rfl

/-- The marks taken away of the disks at these ports. -/
def Inventory.clear (inv : Inventory) (ports : Nat → Bool) : Inventory where
  devices := inv.devices.map (Device.clearIf ports)
  slots_pos := by
    intro e he
    obtain ⟨d, hd, rfl⟩ := List.mem_map.mp he
    rw [Device.clearIf_slot]
    exact inv.slots_pos d hd
  slots_nodup := by
    have hslot : Device.slot ∘ Device.clearIf ports = Device.slot :=
      funext (Device.clearIf_slot ports)
    rw [List.map_map, hslot]
    exact inv.slots_nodup

/-- Clearing twice clears the ports of both. -/
theorem Inventory.clear_clear (inv : Inventory) (p q : Nat → Bool) :
    (inv.clear p).clear q = inv.clear (fun k => p k || q k) := by
  refine Inventory.ext ?_
  show (inv.devices.map (Device.clearIf p)).map (Device.clearIf q) = _
  rw [List.map_map]
  exact List.map_congr_left (fun d _ => Device.clearIf_clearIf p q d)

/-- Which ports are cleared matters at the legacy disks only. -/
theorem Inventory.clear_congr {inv : Inventory} {p q : Nat → Bool}
    (h : ∀ d ∈ inv.devices, d.legacy = true → p d.slot = q d.slot) :
    inv.clear p = inv.clear q := by
  refine Inventory.ext (List.map_congr_left ?_)
  intro d hd
  obtain ⟨slot, legacy⟩ := d
  cases legacy with
  | false =>
      rw [Device.clearIf, Device.clearIf]
      cases p slot <;> cases q slot <;> rfl
  | true => rw [Device.clearIf, Device.clearIf, h _ hd rfl]

theorem Inventory.clear_none (inv : Inventory) :
    inv.clear (fun _ => false) = inv :=
  Inventory.ext (List.map_id' inv.devices)

/-- Some disk is marked `LEGACY`. -/
def Inventory.anyLegacy (inv : Inventory) : Bool :=
  inv.devices.any Device.legacy

/-- The highest port of a legacy disk, 0 when there is none. -/
def Inventory.highestLegacy (inv : Inventory) : Nat :=
  ((inv.devices.filter Device.legacy).map Device.slot).foldr max 0

/-- No legacy disk is above the highest one. -/
theorem Inventory.le_highestLegacy {inv : Inventory} {d : Device}
    (hd : d ∈ inv.devices) (hl : d.legacy = true) :
    d.slot ≤ inv.highestLegacy := by
  have hmem : d.slot ∈ (inv.devices.filter Device.legacy).map Device.slot :=
    List.mem_map_of_mem (List.mem_filter.mpr ⟨hd, hl⟩)
  rw [Inventory.highestLegacy]
  generalize (inv.devices.filter Device.legacy).map Device.slot = slots at hmem
  induction slots with
  | nil => exact absurd hmem List.not_mem_nil
  | cons k rest ih =>
      rw [List.foldr_cons]
      rcases List.mem_cons.mp hmem with rfl | hrest
      · exact Nat.le_max_left _ _
      · exact (ih hrest).trans (Nat.le_max_right _ _)

/-- The highest legacy port is the port of a legacy disk, or there is none. -/
theorem Inventory.exists_highestLegacy (inv : Inventory)
    (h : inv.highestLegacy ≠ 0) :
    ∃ d ∈ inv.devices, d.legacy = true ∧ d.slot = inv.highestLegacy := by
  have hslot : inv.highestLegacy
      ∈ (inv.devices.filter Device.legacy).map Device.slot := by
    rw [Inventory.highestLegacy] at h ⊢
    generalize (inv.devices.filter Device.legacy).map Device.slot = slots at h
    induction slots with
    | nil => exact absurd rfl h
    | cons k rest ih =>
        rw [List.foldr_cons] at h ⊢
        rcases Nat.le_total (rest.foldr max 0) k with hle | hle
        · rw [Nat.max_eq_left hle]
          exact List.mem_cons_self
        · rw [Nat.max_eq_right hle] at h ⊢
          exact List.mem_cons_of_mem _ (ih h)
  obtain ⟨d, hd, hd'⟩ := List.mem_map.mp hslot
  obtain ⟨hmem, hl⟩ := List.mem_filter.mp hd
  exact ⟨d, hmem, hl, hd'⟩

/-- Without legacy disks the highest port is none. -/
theorem Inventory.highestLegacy_eq_zero {inv : Inventory}
    (h : inv.anyLegacy = false) : inv.highestLegacy = 0 := by
  by_contra hne
  obtain ⟨d, hd, hl, -⟩ := inv.exists_highestLegacy hne
  have hany : inv.anyLegacy = true := List.any_eq_true.mpr ⟨d, hd, hl⟩
  rw [h] at hany
  exact Bool.false_ne_true hany

/-! ## The tool -/

/-- `hptraidconf`: what `query devices` prints, and what `init` does. -/
structure Hptraidconf where
  queryDevices : Inventory → List Text
  init : Inventory → Text → Inventory

/-- What the script relies on: the word `LEGACY` is printed iff some disk is
    marked so, and `init` clears the mark of the disk at the given port and
    nothing else. -/
structure Hptraidconf.Documented (tool : Hptraidconf) : Prop where
  query : ∀ inv,
    grep "LEGACY".toList (tool.queryDevices inv) = inv.anyLegacy
  init : ∀ inv n,
    tool.init inv (location n) = inv.clear (fun k => k == n)

/-! ## The loop -/

/-- The variables of step 2, the disks, and the ports given to `init`. -/
structure Step2 where
  n : Nat
  legacy : Text
  inventory : Inventory
  commands : List Text

/-- `legacy=$(sudo hptraidconf -u RAID -p hpt query devices)`. -/
def Hptraidconf.query (tool : Hptraidconf) (inv : Inventory) : Text :=
  capture (tool.queryDevices inv)

/-- The state in front of the loop. -/
def begin (tool : Hptraidconf) (inv : Inventory) : Step2 where
  n := 1
  legacy := tool.query inv
  inventory := inv
  commands := []

/-- `[[ $legacy = *LEGACY* ]]`. -/
def isLegacy (st : Step2) : Bool :=
  decide ("LEGACY".toList <:+: st.legacy)

/-- One pass of the loop. -/
def pass (tool : Hptraidconf) (st : Step2) : Step2 :=
  let inventory := tool.init st.inventory (location st.n)
  { n := st.n + 1
    legacy := tool.query inventory
    inventory := inventory
    commands := st.commands ++ [location st.n] }

/-- The loop, given up after `fuel` looks at its guard. -/
def legacyLoop (tool : Hptraidconf) (fuel : Nat) (inv : Inventory) :
    Option Step2 :=
  whileLoop isLegacy (pass tool) fuel (begin tool inv)

/-! ## Progress -/

/-- Everything below the counter has been initialised, nothing else has been
    touched, and the counter is at most one past the highest legacy port. -/
structure Progress (tool : Hptraidconf) (start : Inventory) (st : Step2) :
    Prop where
  one_le : 1 ≤ st.n
  le_highest : st.n ≤ start.highestLegacy + 1
  inventory : st.inventory = start.clear (fun k => decide (k < st.n))
  legacy : st.legacy = tool.query st.inventory
  commands : st.commands = (List.range' 1 (st.n - 1)).map location

variable {tool : Hptraidconf}

/-- The guard sees what the inventory holds. -/
theorem isLegacy_eq (h : tool.Documented) {st : Step2}
    (hst : st.legacy = tool.query st.inventory) :
    isLegacy st = st.inventory.anyLegacy := by
  have hseen : isLegacy st = true ↔ st.inventory.anyLegacy = true := by
    show decide ("LEGACY".toList <:+: st.legacy) = true ↔ _
    rw [decide_eq_true_eq, hst, Hptraidconf.query,
      grep_capture (by decide) (by decide), h.query]
  exact Bool.eq_iff_iff.mpr hseen

/-- What is still marked: the legacy disks at the counter or beyond. -/
theorem anyLegacy_clear_below (start : Inventory) (n : Nat) :
    (start.clear (fun k => decide (k < n))).anyLegacy = true
      ↔ ∃ d ∈ start.devices, d.legacy = true ∧ n ≤ d.slot := by
  simp [Inventory.anyLegacy, Inventory.clear, Device.clearIf_legacy]

theorem progress_begin (start : Inventory) :
    Progress tool start (begin tool start) where
  one_le := Nat.le_refl 1
  le_highest := Nat.le_add_left 1 _
  inventory := by
    have hnone : start.clear (fun k => decide (k < 1))
        = start.clear (fun _ => false) := by
      refine Inventory.clear_congr ?_
      intro d hd _
      have hpos := start.slots_pos d hd
      exact decide_eq_false (by omega)
    rw [show (begin tool start).n = 1 from rfl, hnone, Inventory.clear_none]
    rfl
  legacy := rfl
  commands := rfl

/-- **ONE PASS**: behind a true guard a pass keeps the progress, and the
    counter comes nearer to the end. -/
theorem progress_pass (h : tool.Documented) {start : Inventory} {st : Step2}
    (hst : Progress tool start st) (hguard : isLegacy st = true) :
    Progress tool start (pass tool st)
      ∧ start.highestLegacy + 1 - (pass tool st).n
        < start.highestLegacy + 1 - st.n := by
  rw [isLegacy_eq h hst.legacy, hst.inventory, anyLegacy_clear_below] at hguard
  obtain ⟨d, hd, hl, hn⟩ := hguard
  -- the legacy disk ahead keeps the counter at or below the highest port
  have hle : st.n ≤ start.highestLegacy :=
    hn.trans (Inventory.le_highestLegacy hd hl)
  have hone := hst.one_le
  refine ⟨⟨?_, ?_, ?_, rfl, ?_⟩, ?_⟩
  · exact Nat.le_add_left 1 _
  · exact Nat.succ_le_succ hle
  · show tool.init st.inventory (location st.n) = _
    rw [h.init, hst.inventory, Inventory.clear_clear]
    refine Inventory.clear_congr ?_
    intro e _ _
    show (decide (e.slot < st.n) || e.slot == st.n) = decide (e.slot < st.n + 1)
    rw [Bool.eq_iff_iff]
    simp
    omega
  · obtain ⟨m, hm⟩ : ∃ m, st.n = m + 1 := ⟨st.n - 1, by omega⟩
    show st.commands ++ [location st.n] = (List.range' 1 st.n).map location
    rw [hst.commands, hm, Nat.add_sub_cancel, List.range'_1_concat,
      List.map_append, Nat.add_comm 1 m]
    rfl
  · show start.highestLegacy + 1 - (st.n + 1) < start.highestLegacy + 1 - st.n
    omega

/-- Where the guard is false, the counter has passed every legacy port. -/
theorem progress_exit (h : tool.Documented) {start : Inventory} {st : Step2}
    (hst : Progress tool start st) (hguard : isLegacy st = false) :
    st.n = start.highestLegacy + 1 := by
  have hone := hst.one_le
  have hle := hst.le_highest
  by_contra hne
  -- otherwise the highest legacy disk is still marked
  obtain ⟨d, hd, hl, hslot⟩ := start.exists_highestLegacy (by omega)
  have hany : isLegacy st = true := by
    rw [isLegacy_eq h hst.legacy, hst.inventory, anyLegacy_clear_below]
    exact ⟨d, hd, hl, by omega⟩
  rw [hguard] at hany
  exact Bool.false_ne_true hany

/-- **THE LOOP ENDS**: whatever disks there are, the loop is left after as many
    passes as the highest legacy port has; no disk is legacy then, nothing but
    marks has changed, and `init` was given the ports `1/E1/1` to that one, in
    this order. -/
theorem legacy_loop_ends (tool : Hptraidconf) (h : tool.Documented)
    (start : Inventory) :
    ∃ st, (∀ fuel, start.highestLegacy < fuel →
        legacyLoop tool fuel start = some st)
      ∧ st.inventory.anyLegacy = false
      ∧ st.inventory = start.clear (fun _ => true)
      ∧ st.commands = (List.range' 1 start.highestLegacy).map location
      ∧ (start.anyLegacy = false → st.commands = []) := by
  obtain ⟨st, hloop, hst, hguard⟩ :=
    whileLoop_total (Progress tool start)
      (fun st => start.highestLegacy + 1 - st.n)
      (fun st hst hguard => progress_pass h hst hguard)
      start.highestLegacy (begin tool start) (progress_begin start)
      (Nat.le_refl _)
  have hn := progress_exit h hst hguard
  have hcommands : st.commands
      = (List.range' 1 start.highestLegacy).map location := by
    rw [hst.commands, hn, Nat.add_sub_cancel]
  refine ⟨st, hloop, ?_, ?_, hcommands, ?_⟩
  · rw [← isLegacy_eq h hst.legacy, hguard]
  · rw [hst.inventory, hn]
    refine Inventory.clear_congr ?_
    intro d hd hl
    exact decide_eq_true (Nat.lt_succ_of_le (Inventory.le_highestLegacy hd hl))
  · intro hnone
    rw [hcommands, Inventory.highestLegacy_eq_zero hnone]
    rfl

/-! ## A controller -/

theorem location_injective {m n : Nat} (h : location m = location n) :
    m = n :=
  toDigits_injective (List.append_cancel_left h)

/-- A row of the listing: the port and the state of its disk. -/
def row (d : Device) : Text :=
  location d.slot ++ if d.legacy then " LEGACY".toList else " NORMAL".toList

/-- A tool that prints a row a disk. -/
def rowTool : Hptraidconf where
  queryDevices inv := inv.devices.map row
  init inv p := inv.clear (fun k => location k == p)

/-- A row says whether its disk is a legacy one. -/
theorem row_legacy (d : Device) :
    "LEGACY".toList <:+: row d ↔ d.legacy = true := by
  obtain ⟨slot, legacy⟩ := d
  cases legacy with
  | true =>
      refine iff_of_true ⟨location slot ++ [' '], [], ?_⟩ rfl
      rw [List.append_nil, List.append_assoc]
      rfl
  | false =>
      refine iff_of_false ?_ Bool.false_ne_true
      intro h
      -- no letter of the port or of the state is a `G`
      have hg : 'G' ∈ location slot ++ " NORMAL".toList :=
        h.subset (List.mem_of_elem_eq_true rfl)
      rcases List.mem_append.mp hg with hloc | hstate
      · rcases List.mem_append.mp hloc with hport | hdigit
        · exact absurd hport (by decide)
        · exact absurd (Nat.isDigit_of_mem_toDigits (by decide) (by decide) hdigit)
            (by decide)
      · exact absurd hstate (by decide)

/-- It does what is documented. -/
theorem rowTool_documented : rowTool.Documented where
  query := by
    intro inv
    have hrow : (fun l => decide ("LEGACY".toList <:+: l)) ∘ row
        = Device.legacy :=
      funext (fun d =>
        Bool.eq_iff_iff.mpr (decide_eq_true_iff.trans (row_legacy d)))
    show (inv.devices.map row).any _ = inv.devices.any Device.legacy
    rw [List.any_map, hrow]
  init := by
    intro inv n
    refine Inventory.clear_congr ?_
    intro d _ _
    rw [Bool.eq_iff_iff, beq_iff_eq, beq_iff_eq]
    exact ⟨location_injective, congrArg location⟩

/-- Two disks with an empty port between them, the higher one legacy. -/
def twoDisks : Inventory where
  devices := [⟨1, false⟩, ⟨3, true⟩]
  slots_pos := by decide
  slots_nodup := by decide

/-- The loop runs over the empty port. -/
theorem legacy_loop_twoDisks : ∃ st,
    (∀ fuel, 3 < fuel → legacyLoop rowTool fuel twoDisks = some st)
      ∧ st.inventory.anyLegacy = false
      ∧ st.inventory = twoDisks.clear (fun _ => true)
      ∧ st.commands = (List.range' 1 3).map location
      ∧ (twoDisks.anyLegacy = false → st.commands = []) :=
  legacy_loop_ends rowTool rowTool_documented twoDisks

end SetupLegacy
