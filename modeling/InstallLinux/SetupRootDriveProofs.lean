import InstallLinux.ShellRunProofs
import InstallLinux.ShellTextProofs
import Mathlib.Algebra.Order.BigOperators.Group.List
import Mathlib.Algebra.Order.Ring.Nat
import Mathlib.Data.List.Nodup

/-! # The root drive removal loop — deletion by substring

    `mount.sh`, `standalone_mount.sh` and `vizgen_automation.sh` carry the same
    loop: walk a snapshot of the array of disk names and, for a disk with a
    partition mounted at `/boot/efi`, rebuild the array as
    `(${array[@]/$drive/})`.  That expansion cuts the name out of EVERY element
    that contains it and splits the result into words again, so the loop is an
    exact filter only as long as no name sits inside another one.

    * `dropDrive_exact_iff` is the step law: one removal is exact iff the
      removed name is inside no other name still in the array;
    * `run_removeRoot` says what the loop leaves of each name;
    * `staysExact_iff` carries the step law through the whole loop, pass by
      pass;
    * `rootRemoval_exact_iff` is the resulting condition on the list alone. -/

namespace SetupRootDrive

open ShellText ShellRun

/-- Letters, digits and the signs that occur in kernel names; none of them
    means anything to the shell. -/
def isNameChar (c : Char) : Bool :=
  c.isAlphanum || c == '.' || c == '-' || c == '_' || c == '!'

/-- A kernel disk name. -/
def IsDiskName (name : Text) : Prop :=
  name ≠ [] ∧ ∀ c ∈ name, isNameChar c = true

/-- Names that are tested one by one. -/
theorem isDiskName_of_all {names : List Text}
    (h : names.all (fun name => !name.isEmpty && name.all isNameChar)
      = true) : ∀ name ∈ names, IsDiskName name := by
  intro name hname
  have hone := List.all_eq_true.mp h name hname
  rw [Bool.and_eq_true, Bool.not_eq_true', List.isEmpty_eq_false_iff] at hone
  exact ⟨hone.1, List.all_eq_true.mp hone.2⟩

/-- The disks `lsblk` reports: distinct kernel names. -/
structure DiskList where
  names : List Text
  named : ∀ name ∈ names, IsDiskName name
  nodup : names.Nodup

/-! ## The loop of the source -/

/-- `array=(${array[@]/$drive/})`. -/
def dropDrive (array : List Text) (drive : Text) : List Text :=
  array.flatMap (fun element => splitWords (deleteFirst drive element))

/-- One pass of the loop; `rootcheck` tells whether the pipeline
    `lsblk /dev/$drive | awk` printed anything for the disk. -/
def removeRoot (rootcheck : Text → Bool) (array : List Text) (drive : Text) :
    List Text :=
  if rootcheck drive then dropDrive array drive else array

/-- `for drive in "${array[@]}"`: the list walked is the array as it was when
    the loop started. -/
def rootRemoval (rootcheck : Text → Bool) (array : List Text) : List Text :=
  run (removeRoot rootcheck) array array

/-! ## One removal -/

theorem IsDiskName.no_blank {name : Text} (h : IsDiskName name) :
    ∀ c ∈ name, isBlank c = false :=
  fun c hc => isBlank_eq_false ⟨rfl, rfl, rfl⟩ (h.2 c hc)

/-- Without blanks the expansion cuts element by element and loses the empty
    ones. -/
theorem dropDrive_eq {array : List Text}
    (h : ∀ name ∈ array, ∀ c ∈ name, isBlank c = false) (drive : Text) :
    dropDrive array drive
      = (array.map (deleteFirst drive)).filter (fun name => name ≠ []) := by
  induction array with
  | nil => rfl
  | cons name rest ih =>
      have hrest := ih (fun n hn => h n (List.mem_cons_of_mem _ hn))
      have hblank : ∀ c ∈ deleteFirst drive name, isBlank c = false :=
        fun c hc => h name List.mem_cons_self c (mem_of_mem_deleteFirst hc)
      rw [dropDrive] at hrest ⊢
      rw [List.flatMap_cons, hrest, splitWords_of_no_blank hblank,
        List.map_cons]
      by_cases hnil : deleteFirst drive name = []
      · rw [if_pos hnil, List.filter_cons_of_neg (by simp [hnil])]
        rfl
      · rw [if_neg hnil, List.filter_cons_of_pos (by simp [hnil])]
        rfl

/-- The characters an array holds. -/
def chars (array : List Text) : Nat := (array.map List.length).sum

theorem chars_filter_nil (array : List Text) :
    chars (array.filter (fun name => name ≠ [])) = chars array := by
  induction array with
  | nil => rfl
  | cons name rest ih =>
      rw [chars, chars] at ih ⊢
      by_cases hname : name = []
      · simpa [hname] using ih
      · simpa [hname] using ih

/-- What is left of the characters behind one removal. -/
theorem chars_dropDrive {array : List Text} (drive : Text)
    (h : ∀ name ∈ array, IsDiskName name) :
    chars (dropDrive array drive)
      = (array.map (fun name => (deleteFirst drive name).length)).sum := by
  rw [dropDrive_eq (fun name hname => (h name hname).no_blank),
    chars_filter_nil, chars, List.map_map]
  rfl

theorem chars_filter_ne (array : List Text) (drive : Text) :
    chars (array.filter (fun name => name ≠ drive))
      = (array.map (fun name => if name = drive then 0
          else name.length)).sum := by
  induction array with
  | nil => rfl
  | cons name rest ih =>
      rw [chars] at ih ⊢
      by_cases hname : name = drive
      · simpa [hname] using ih
      · simpa [hname] using ih

/-- A removal that touches no other name is a filter. -/
theorem dropDrive_exact {array : List Text} {drive : Text}
    (hnames : ∀ name ∈ array, IsDiskName name)
    (hfree : ∀ name ∈ array, drive <:+: name → name = drive) :
    dropDrive array drive = array.filter (fun name => name ≠ drive) := by
  rw [dropDrive_eq (fun name hname => (hnames name hname).no_blank)]
  induction array with
  | nil => rfl
  | cons name rest ih =>
      have hrest := ih (fun n hn => hnames n (List.mem_cons_of_mem _ hn))
        (fun n hn => hfree n (List.mem_cons_of_mem _ hn))
      rw [List.map_cons]
      by_cases hname : name = drive
      · subst hname
        simpa using hrest
      · have hno : ¬ drive <:+: name :=
          fun hin => hname (hfree name List.mem_cons_self hin)
        have hne : name ≠ [] := (hnames name List.mem_cons_self).1
        rw [deleteFirst_of_absent hno, List.filter_cons_of_pos (by simp [hne]),
          List.filter_cons_of_pos (by simp [hname]), hrest]

/-- A removal that touches another name loses characters of it. -/
theorem chars_dropDrive_lt {array : List Text} {drive other : Text}
    (hnames : ∀ name ∈ array, IsDiskName name) (hdrive : drive ≠ [])
    (hother : other ∈ array) (hne : other ≠ drive)
    (hin : drive <:+: other) :
    chars (dropDrive array drive)
      < chars (array.filter (fun name => name ≠ drive)) := by
  rw [chars_dropDrive drive hnames, chars_filter_ne]
  refine List.sum_lt_sum _ _ ?_ ⟨other, hother, ?_⟩
  · intro name _
    by_cases hname : name = drive
    · simp [hname]
    · rw [if_neg hname]
      exact deleteFirst_length_le drive name
  · have hlen := deleteFirst_length hin
    have hpos : 0 < drive.length := List.length_pos_iff.mpr hdrive
    rw [if_neg hne]
    omega

/-- **THE STEP LAW**: removing a disk is exact iff its name is inside no other
    name of the array. -/
theorem dropDrive_exact_iff {array : List Text} {drive : Text}
    (hnames : ∀ name ∈ array, IsDiskName name) (hdrive : drive ≠ []) :
    dropDrive array drive = array.filter (fun name => name ≠ drive)
      ↔ ∀ name ∈ array, drive <:+: name → name = drive := by
  constructor
  · -- an exact removal costs no character of another name
    intro heq name hname hin
    by_contra hne
    have hlt := chars_dropDrive_lt hnames hdrive hname hne hin
    rw [heq] at hlt
    exact Nat.lt_irrefl _ hlt
  · exact dropDrive_exact hnames

/-- The name of one disk inside that of another: the other one is cut. -/
example : dropDrive ["sda".toList, "sdaa".toList] "sda".toList
    = ["a".toList] := rfl

/-! ## What the loop leaves of each name -/

/-- What is left of a name when the given ones are cut out of it in turn. -/
def cutOut (drives : List Text) (name : Text) : Text :=
  drives.foldl (fun left drive => deleteFirst drive left) name

/-- Cutting out adds no character. -/
theorem mem_of_mem_cutOut {x : Char} :
    ∀ (drives : List Text) {name : Text}, x ∈ cutOut drives name →
      x ∈ name := by
  intro drives
  induction drives with
  | nil => intro name h; exact h
  | cons drive rest ih =>
      intro name h
      exact mem_of_mem_deleteFirst (ih h)

/-- Cutting does nothing to an element that has vanished before. -/
theorem filter_map_deleteFirst (array : List Text) (drive : Text) :
    ((array.filter (fun name => name ≠ [])).map (deleteFirst drive)).filter
        (fun name => name ≠ [])
      = (array.map (deleteFirst drive)).filter (fun name => name ≠ []) := by
  rw [List.filter_map, List.filter_map, List.filter_filter]
  congr 1
  refine List.filter_congr ?_
  intro name _
  by_cases hname : name = []
  · simp [hname]
  · simp [hname]

/-- **THE LOOP, NAME BY NAME**: after some passes every element is what is left
    of its name, and the empty ones are gone. -/
theorem run_removeRoot (disks : DiskList) (efi : Text → Bool)
    (visited : List Text) :
    run (removeRoot efi) disks.names visited
      = (disks.names.map (cutOut (visited.filter efi))).filter
          (fun name => name ≠ []) := by
  -- from the right: the last pass cuts what the earlier ones have left
  induction visited using List.reverseRecOn with
  | nil =>
      refine (List.filter_eq_self.mpr ?_).symm.trans (congrArg _ ?_)
      · intro name hname
        exact decide_eq_true (disks.named name hname).1
      · exact (List.map_id _).symm
  | append_singleton visited drive ih =>
      rw [run_append, ih, run_cons, run_nil, removeRoot, List.filter_append]
      cases hefi : efi drive with
      | false =>
          rw [if_neg (by decide), List.filter_cons_of_neg (by simp [hefi]),
            List.filter_nil, List.append_nil]
      | true =>
          have hblank : ∀ name ∈ (disks.names.map
              (cutOut (visited.filter efi))).filter (fun name => name ≠ []),
              ∀ c ∈ name, isBlank c = false := by
            intro name hname c hc
            obtain ⟨whole, hwhole, rfl⟩ :=
              List.mem_map.mp (List.mem_filter.mp hname).1
            exact (disks.named whole hwhole).no_blank c
              (mem_of_mem_cutOut _ hc)
          have hcut : deleteFirst drive ∘ cutOut (visited.filter efi)
              = cutOut (visited.filter efi ++ [drive]) := by
            funext name
            rw [cutOut, List.foldl_append]
            rfl
          rw [if_pos rfl, dropDrive_eq hblank, filter_map_deleteFirst,
            List.map_map, hcut, List.filter_cons_of_pos hefi, List.filter_nil]

/-! ## The whole loop -/

/-- The names that have to be left after the passes over `visited`. -/
def remaining (efi : Text → Bool) (names visited : List Text) : List Text :=
  names.filter (fun d => !(efi d && decide (d ∈ visited)))

/-- After every pass the array is the list without the disks removed so far. -/
def StaysExact (efi : Text → Bool) (names : List Text) : Prop :=
  ∀ visited rest, names = visited ++ rest →
    run (removeRoot efi) names visited = remaining efi names visited

/-- A disk name inside another name only where that other disk is itself
    removed, and earlier. -/
def Separated (efi : Text → Bool) (names : List Text) : Prop :=
  ∀ earlier drive later, names = earlier ++ drive :: later →
    efi drive = true → ∀ d ∈ names, drive <:+: d →
      d = drive ∨ (efi d = true ∧ d ∈ earlier)

/-- No listed name sits inside another listed name. -/
def NoneInside (names : List Text) : Prop :=
  ∀ drive ∈ names, ∀ d ∈ names, drive <:+: d → d = drive

theorem remaining_nil (efi : Text → Bool) (names : List Text) :
    remaining efi names [] = names := by
  simp [remaining]

theorem remaining_self (efi : Text → Bool) (names : List Text) :
    remaining efi names names = names.filter (fun d => !efi d) := by
  rw [remaining]
  refine List.filter_congr ?_
  intro d hd
  simp [hd]

theorem remaining_snoc_keep {efi : Text → Bool} {drive : Text}
    (h : efi drive = false) (names visited : List Text) :
    remaining efi names (visited ++ [drive])
      = remaining efi names visited := by
  rw [remaining]
  refine List.filter_congr ?_
  intro d _
  by_cases hd : d = drive
  · subst hd
    simp [h]
  · simp [hd]

theorem remaining_snoc_drop {efi : Text → Bool} {drive : Text}
    (h : efi drive = true) (names visited : List Text) :
    remaining efi names (visited ++ [drive])
      = (remaining efi names visited).filter (fun d => d ≠ drive) := by
  rw [remaining, remaining]
  rw [List.filter_filter]
  refine List.filter_congr ?_
  intro d _
  by_cases hd : d = drive
  · subst hd
    simp [h]
  · simp [hd]

/-- What remains has not been removed. -/
theorem mem_remaining {efi : Text → Bool} {names visited : List Text}
    {d : Text} :
    d ∈ remaining efi names visited
      ↔ d ∈ names ∧ (efi d = true → d ∉ visited) := by
  rw [remaining]
  rw [List.mem_filter]
  cases hd : efi d <;> simp

/-- The pass over one more disk is exact iff no name left contains its name. -/
theorem run_snoc_exact_iff (disks : DiskList) {efi : Text → Bool}
    {visited rest : List Text} {drive : Text}
    (hsplit : disks.names = visited ++ drive :: rest)
    (hefi : efi drive = true)
    (hvisited : run (removeRoot efi) disks.names visited
      = remaining efi disks.names visited) :
    run (removeRoot efi) disks.names (visited ++ [drive])
        = remaining efi disks.names (visited ++ [drive])
      ↔ ∀ d ∈ remaining efi disks.names visited, drive <:+: d →
          d = drive := by
  have hdrive : drive ∈ disks.names := by
    rw [hsplit]
    simp
  have hnames : ∀ name ∈ remaining efi disks.names visited,
      IsDiskName name :=
    fun name hname => disks.named name (mem_remaining.mp hname).1
  rw [run_append, hvisited, run_cons, run_nil, removeRoot, if_pos hefi,
    remaining_snoc_drop hefi]
  exact dropDrive_exact_iff hnames (disks.named drive hdrive).1

/-- **THE LOOP LAW**: the array stays exact from pass to pass iff the removed
    names are separated. -/
theorem staysExact_iff (disks : DiskList) (efi : Text → Bool) :
    StaysExact efi disks.names ↔ Separated efi disks.names := by
  constructor
  · intro hexact earlier drive later hsplit hefi d hd hin
    by_cases hgone : efi d = true ∧ d ∈ earlier
    · exact Or.inr hgone
    · -- still in the array: the pass over `drive` would have cut it
      have hd' : d ∈ remaining efi disks.names earlier :=
        mem_remaining.mpr ⟨hd, fun he hm => hgone ⟨he, hm⟩⟩
      have hpass := hexact (earlier ++ [drive]) later (by simp [hsplit])
      exact Or.inl ((run_snoc_exact_iff disks hsplit hefi
        (hexact earlier (drive :: later) hsplit)).mp hpass d hd' hin)
  · intro hsep visited
    -- from the right: the last pass acts on an array that is still exact
    induction visited using List.reverseRecOn with
    | nil =>
        intro rest _
        rw [run_nil, remaining_nil]
    | append_singleton visited drive ih =>
        intro rest hsplit
        have hsplit' : disks.names = visited ++ drive :: rest := by
          rw [hsplit]
          simp
        have hvisited := ih (drive :: rest) hsplit'
        cases hefi : efi drive with
        | false =>
            rw [run_append, hvisited, run_cons, run_nil, removeRoot,
              if_neg (by simp [hefi]), remaining_snoc_keep hefi]
        | true =>
            refine (run_snoc_exact_iff disks hsplit' hefi hvisited).mpr ?_
            intro d hd hin
            obtain ⟨hmem, hkept⟩ := mem_remaining.mp hd
            rcases hsep visited drive rest hsplit' hefi d hmem hin
              with heq | ⟨he, hm⟩
            · exact heq
            · exact absurd hm (hkept he)

/-- Separated names make the whole loop an exact filter. -/
theorem rootRemoval_exact (disks : DiskList) {efi : Text → Bool}
    (hsep : Separated efi disks.names) :
    rootRemoval efi disks.names = disks.names.filter (fun d => !efi d) := by
  rw [rootRemoval, (staysExact_iff disks efi).mpr hsep disks.names [] (by simp),
    remaining_self]

/-- Names apart from one another stay separated, whatever the EFI disks. -/
theorem NoneInside.separated {names : List Text} (h : NoneInside names)
    (efi : Text → Bool) : Separated efi names := by
  intro earlier drive later hsplit _ d hd hin
  exact Or.inl (h drive (by simp [hsplit]) d hd hin)

/-- Passes of other disks change nothing. -/
theorem run_removeRoot_skip {efi : Text → Bool} (array : List Text) :
    ∀ visited : List Text, (∀ d ∈ visited, efi d = false) →
      run (removeRoot efi) array visited = array := by
  intro visited
  induction visited with
  | nil => intro _; rfl
  | cons d rest ih =>
      intro h
      rw [run_cons, removeRoot, if_neg (by simp [h d List.mem_cons_self])]
      exact ih (fun x hx => h x (List.mem_cons_of_mem _ hx))

/-- With a single disk to remove, the loop is that one removal. -/
theorem rootRemoval_single (disks : DiskList) {drive : Text}
    (hdrive : drive ∈ disks.names) :
    rootRemoval (fun d => d == drive) disks.names
      = dropDrive disks.names drive := by
  obtain ⟨earlier, later, hsplit⟩ := List.append_of_mem hdrive
  have hnodup : (earlier ++ drive :: later).Nodup := hsplit ▸ disks.nodup
  have hearlier : ∀ d ∈ earlier, (d == drive) = false := by
    intro d hd
    rw [beq_eq_false_iff_ne]
    rintro rfl
    exact (List.nodup_append.mp hnodup).2.2 d hd d (by simp) rfl
  have hlater : ∀ d ∈ later, (d == drive) = false := by
    intro d hd
    rw [beq_eq_false_iff_ne]
    rintro rfl
    exact (List.nodup_cons.mp (List.nodup_append.mp hnodup).2.1).1 hd
  -- the passes before and after the one over `drive` do nothing
  rw [rootRemoval]
  conv_lhs => arg 3; rw [hsplit]
  rw [run_append, run_removeRoot_skip _ earlier hearlier, run_cons,
    run_removeRoot_skip _ later hlater, removeRoot, if_pos (by simp)]

/-- For a single disk the loop is exact iff its name is inside no other. -/
theorem rootRemoval_single_iff (disks : DiskList) {drive : Text}
    (hdrive : drive ∈ disks.names) :
    rootRemoval (fun d => d == drive) disks.names
        = disks.names.filter (fun d => !(d == drive))
      ↔ ∀ d ∈ disks.names, drive <:+: d → d = drive := by
  have hfilter : disks.names.filter (fun d => !(d == drive))
      = disks.names.filter (fun d => d ≠ drive) := by
    refine List.filter_congr ?_
    intro d _
    by_cases hd : d = drive <;> simp [hd]
  rw [rootRemoval_single disks hdrive, hfilter]
  exact dropDrive_exact_iff disks.named (disks.named drive hdrive).1

/-- **EXACT FILTER**: the loop leaves out exactly the disks mounted at
    `/boot/efi`, for every choice of them, iff no listed name is inside
    another one.  For the choice of one disk it does iff the name of that disk
    is inside no other.  For any choice it is exact at every pass iff the names
    it removes are separated, and then at the end as well. -/
theorem rootRemoval_exact_iff (disks : DiskList) :
    ((∀ efi : Text → Bool, rootRemoval efi disks.names
        = disks.names.filter (fun d => !efi d)) ↔ NoneInside disks.names)
      ∧ (∀ drive ∈ disks.names,
        (rootRemoval (fun d => d == drive) disks.names
            = disks.names.filter (fun d => !(d == drive))
          ↔ ∀ d ∈ disks.names, drive <:+: d → d = drive))
      ∧ ∀ efi : Text → Bool,
        (StaysExact efi disks.names ↔ Separated efi disks.names)
        ∧ (Separated efi disks.names → rootRemoval efi disks.names
            = disks.names.filter (fun d => !efi d)) := by
  refine ⟨⟨?_, ?_⟩, fun drive hdrive => rootRemoval_single_iff disks hdrive,
    fun efi => ⟨staysExact_iff disks efi, rootRemoval_exact disks⟩⟩
  · intro hexact drive hdrive
    exact (rootRemoval_single_iff disks hdrive).mp
      (hexact (fun d => d == drive))
  · intro hnone efi
    exact rootRemoval_exact disks (hnone.separated efi)

/-- Exact at the end by accident: what is left of `aabb` stands in for the lost
    `ab`. -/
example : rootRemoval (fun d => d != "ab".toList)
    ["a".toList, "b".toList, "aabb".toList, "ab".toList]
    = ["ab".toList] := rfl

/-- `sda` holds `/boot/efi`, and `sdaa` is left as the word `a`. -/
theorem rootRemoval_not_exact :
    ¬ ∀ (disks : DiskList) (efi : Text → Bool),
        rootRemoval efi disks.names
          = disks.names.filter (fun d => !efi d) := by
  intro hexact
  have h : rootRemoval (fun d => d == "sda".toList)
      ["sda".toList, "sdaa".toList]
        = ["sda".toList, "sdaa".toList].filter (fun d => !(d == "sda".toList)) :=
    hexact ⟨["sda".toList, "sdaa".toList], isDiskName_of_all rfl,
      by decide⟩ _
  exact absurd h (by decide)

end SetupRootDrive
