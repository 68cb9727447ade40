import InstallLinux.SetupOrderIdProofs
import InstallLinux.SetupOrderSearchProofs

/-! # The order across starts — one number, asked for once

    Every start of `master.sh` takes the order number and fetches the order
    anew.  On a machine without a label the number is asked for and written to
    `flags/orderid`, which every later start reads instead.  A start may be
    cut off anywhere: before the number is written, in the middle of the
    clean-up, between two documents.

    * `flag_run`: the flag file holds the answer of the first start that came
      to write it, and never changes;
    * `leftover_prepareCut`: every start keeps the hidden invariant of the
      folder, whichever order it fetches;
    * `merged_settled`: so a complete start leaves the order of one number, and
      later answers do not count. -/

namespace SetupOrderBoots

open ShellText ShellRun JsonText SetupOrderId SetupOrderData SetupSoftware
open SetupOrderSearch

/-! ## A start -/

/-- What is kept from one start to the next. -/
structure Kept where
  /-- the lines of `flags/orderid` -/
  flag : Option (List Text)
  /-- `~/install/orderdata` -/
  folder : Folder

/-- The shop's server, and `jq`. -/
structure Shop where
  wget : Text → Text
  jq : Text → Text

def Shop.call (shop : Shop) (id : Text) : Call := ⟨id, shop.wget, shop.jq⟩

/-- A start: what `read` takes from the prompt, should it come, and after how
    many commands it is cut off. -/
structure Start where
  answer : Text
  commands : Nat

/-- `_orderid`: its one command is the `tee` behind the prompt. -/
def orderidStates (m : Machine) (answer : Text) (k : Kept) : List Kept :=
  match k.flag, (orderid m k.flag answer).2 with
  | none, some lines => [{ k with flag := some lines }]
  | _, _ => []

/-- `_orderid` and `_orderdata`, command after command. -/
def prepareStates (C : Collation) (shop : Shop) (m : Machine) (answer : Text)
    (k : Kept) : List Kept :=
  let id := (orderid m k.flag answer).1
  let k1 := finalState k (orderidStates m answer k)
  orderidStates m answer k
    ++ (orderdataStates C (shop.call id) k1.folder).map
      (fun f => { k1 with folder := f })

/-- A complete start. -/
def prepare (C : Collation) (shop : Shop) (m : Machine) (answer : Text)
    (k : Kept) : Kept :=
  finalState k (prepareStates C shop m answer k)

/-- A start that is cut off. -/
def prepareCut (C : Collation) (shop : Shop) (m : Machine) (k : Kept)
    (s : Start) : Kept :=
  finalState k ((prepareStates C shop m s.answer k).take s.commands)

/-! ## The number -/

/-- The hostname or the serial number has the label. -/
def labelled (m : Machine) : Bool :=
  m.etcHostname.any hasPuget || (splitWords (hostdata m).serial).any hasPuget

/-- The answer of the first start that came to write it. -/
def firstAnswer (starts : List Start) : Option Text :=
  (starts.find? (fun s => decide (0 < s.commands))).map Start.answer

/-- The lines of the flag file after the starts. -/
def recorded (m : Machine) (starts : List Start) : Option (List Text) :=
  if labelled m then none
  else (firstAnswer starts).map (fun answer => [echoed answer])

/-- The number of the start after them: the label's, the answer on record, or
    the one that is given now. -/
def number (m : Machine) (starts : List Start) (answer : Text) : Text :=
  if labelled m then (orderid m none answer).1
  else match firstAnswer starts with
    | some first => capture [echoed first]
    | none => answer

theorem firstAnswer_written {s : Start} (hs : 0 < s.commands)
    (rest : List Start) : firstAnswer (s :: rest) = some s.answer := by
  simp [firstAnswer, hs]

theorem firstAnswer_unwritten {s : Start} (hs : ¬ 0 < s.commands)
    (rest : List Start) : firstAnswer (s :: rest) = firstAnswer rest := by
  simp [firstAnswer, hs]

theorem orderid_labelled {m : Machine} (h : labelled m = true)
    (answer : Text) : (orderid m none answer).2 = none := by
  rw [labelled, Bool.or_eq_true] at h
  show (if m.etcHostname.any hasPuget then _
    else if (splitWords (hostdata m).serial).any hasPuget then _
    else _ : Text × _).2 = _
  by_cases hhost : m.etcHostname.any hasPuget = true
  · rw [if_pos hhost]
  · rw [if_neg hhost, if_pos (h.resolve_left hhost)]

theorem orderid_unlabelled {m : Machine} (h : labelled m = false)
    (answer : Text) : orderid m none answer = (answer, some [echoed answer]) := by
  rw [labelled, Bool.or_eq_false_iff] at h
  show (if m.etcHostname.any hasPuget then _
    else if (splitWords (hostdata m).serial).any hasPuget then _
    else _ : Text × _) = _
  rw [if_neg (by simp [h.1]), if_neg (by simp [h.2])]

theorem orderidStates_flag {m : Machine} {k : Kept} {lines : List Text}
    (h : k.flag = some lines) (answer : Text) :
    orderidStates m answer k = [] := by
  rw [orderidStates, h]

theorem orderidStates_labelled {m : Machine} {k : Kept} (h : k.flag = none)
    (hlabel : labelled m = true) (answer : Text) :
    orderidStates m answer k = [] := by
  rw [orderidStates, h, orderid_labelled hlabel]

theorem orderidStates_unlabelled {m : Machine} {k : Kept} (h : k.flag = none)
    (hlabel : labelled m = false) (answer : Text) :
    orderidStates m answer k
      = [{ k with flag := some [echoed answer] }] := by
  rw [orderidStates, h, orderid_unlabelled hlabel]

/-- An order number is printed and captured as it is. -/
theorem capture_echoed {id : Text} (h : IsOrderId id) :
    capture [echoed id] = id := by
  have hnl : '\n' ∉ id := fun hmem => absurd (h.2 _ hmem) (by decide)
  have hword : echoed id = id := by
    rw [echoed, splitWords_of_no_blank h.isWord.2, if_neg h.1,
      List.intercalate_singleton]
  rw [hword, capture_line hnl]

/-- The label's number does not depend on the answer. -/
theorem number_labelled {m : Machine} (h : labelled m = true)
    (starts : List Start) (answer : Text) :
    number m starts answer = (orderid m none []).1 := by
  rw [number, if_pos h]
  rw [labelled, Bool.or_eq_true] at h
  show (if m.etcHostname.any hasPuget then _
    else if (splitWords (hostdata m).serial).any hasPuget then _
    else _ : Text × _).1 = (if m.etcHostname.any hasPuget then _
    else if (splitWords (hostdata m).serial).any hasPuget then _
    else _ : Text × _).1
  by_cases hhost : m.etcHostname.any hasPuget = true
  · rw [if_pos hhost, if_pos hhost]
  · rw [if_neg hhost, if_neg hhost, if_pos (h.resolve_left hhost),
      if_pos (h.resolve_left hhost)]

theorem firstAnswer_append (front back : List Start) :
    firstAnswer (front ++ back)
      = (firstAnswer front).or (firstAnswer back) := by
  rw [firstAnswer, List.find?_append, Option.map_or]
  rfl

/-- **SETTLED**: every start that runs anything takes the number that the whole
    run settles on. -/
theorem number_settled {m : Machine} {s : Start} (hs : 0 < s.commands)
    (hid : IsOrderId (number m [] s.answer)) (before after : List Start)
    (answer : Text) :
    number m before s.answer = number m (before ++ s :: after) answer := by
  by_cases hlabel : labelled m = true
  · rw [number_labelled hlabel, number_labelled hlabel]
  · rw [number, if_neg hlabel] at hid
    rw [number, number, if_neg hlabel, if_neg hlabel, firstAnswer_append,
      firstAnswer_written hs]
    cases firstAnswer before with
    | some first => rfl
    | none => exact (capture_echoed hid).symm

/-- Where only order numbers are answered it is one. -/
theorem number_isOrderId {m : Machine} {starts : List Start} {answer : Text}
    (hstarts : ∀ s ∈ starts, IsOrderId (number m [] s.answer))
    (hanswer : IsOrderId (number m [] answer)) :
    IsOrderId (number m starts answer) := by
  by_cases hlabel : labelled m = true
  · rw [number_labelled hlabel] at hanswer ⊢
    exact hanswer
  · have hnil : ∀ a, number m [] a = a := by
      intro a
      rw [number, if_neg hlabel]
      rfl
    rw [hnil] at hanswer
    rw [number, if_neg hlabel]
    cases hfirst : firstAnswer starts with
    | none => exact hanswer
    | some first =>
        obtain ⟨s, hfind, rfl⟩ := Option.map_eq_some_iff.mp hfirst
        have hs := hstarts s (List.mem_of_find?_eq_some hfind)
        rw [hnil] at hs
        show IsOrderId (capture [echoed s.answer])
        rw [capture_echoed hs]
        exact hs

section Starts

variable (C : Collation) (shop : Shop) {m : Machine}

/-! ## The flag -/

/-- The fetches leave the flag alone. -/
theorem flag_finalState {k k1 : Kept} (h : k1.flag = k.flag)
    (folders : List Folder) (n : Nat) :
    (finalState k ((folders.map (fun f => { k1 with folder := f })).take n)).flag
      = k.flag := by
  rcases List.mem_cons.mp (finalState_mem k
    ((folders.map (fun f => { k1 with folder := f })).take n)) with heq | hmem
  · rw [heq]
  · obtain ⟨f, -, hf⟩ := List.mem_map.mp (List.mem_of_mem_take hmem)
    rw [← hf]
    exact h

/-- Where nothing is asked the flag stays. -/
theorem flag_prepareCut_of_nil {k : Kept} {s : Start}
    (h : orderidStates m s.answer k = []) :
    (prepareCut C shop m k s).flag = k.flag := by
  rw [prepareCut, prepareStates, h, List.nil_append]
  exact flag_finalState rfl _ _

/-- **STEP**: the first start that comes to write the flag writes it. -/
theorem flag_prepareCut {k : Kept} (h : k.flag = none)
    (hlabel : labelled m = false) (s : Start) :
    (prepareCut C shop m k s).flag
      = if 0 < s.commands then some [echoed s.answer] else none := by
  rw [prepareCut, prepareStates, orderidStates_unlabelled h hlabel]
  cases s.commands with
  | zero => exact h
  | succ n =>
      rw [if_pos (Nat.succ_pos n), List.singleton_append, List.take_succ_cons,
        finalState, List.getLastD_cons]
      exact flag_finalState rfl _ _

/-- Once written it stays. -/
theorem flag_kept {k : Kept} {lines : List Text} (h : k.flag = some lines)
    (starts : List Start) :
    (run (prepareCut C shop m) k starts).flag = some lines := by
  refine run_invariant (fun k : Kept => k.flag = some lines) ?_ starts k h
  intro k s hk
  rw [flag_prepareCut_of_nil C shop (orderidStates_flag hk _), hk]

/-- **THE FLAG**: after any starts. -/
theorem flag_run {k : Kept} (h : k.flag = none) (starts : List Start) :
    (run (prepareCut C shop m) k starts).flag = recorded m starts := by
  rw [recorded]
  by_cases hlabel : labelled m = true
  · rw [if_pos hlabel]
    refine run_invariant (fun k : Kept => k.flag = none) ?_ starts k h
    intro k s hk
    rw [flag_prepareCut_of_nil C shop (orderidStates_labelled hk hlabel _), hk]
  · rw [if_neg hlabel]
    rw [Bool.not_eq_true] at hlabel
    induction starts generalizing k with
    | nil => exact h
    | cons s rest ih =>
        have hstep := flag_prepareCut C shop h hlabel s
        rw [run_cons]
        by_cases hs : 0 < s.commands
        · rw [if_pos hs] at hstep
          rw [flag_kept C shop hstep, firstAnswer_written hs]
          rfl
        · rw [if_neg hs] at hstep
          rw [ih hstep, firstAnswer_unwritten hs]

/-- The number a start then takes. -/
theorem orderid_recorded (starts : List Start) (answer : Text) :
    (orderid m (recorded m starts) answer).1 = number m starts answer := by
  rw [recorded, number]
  by_cases hlabel : labelled m = true
  · rw [if_pos hlabel, if_pos hlabel]
  · rw [if_neg hlabel, if_neg hlabel]
    rw [Bool.not_eq_true] at hlabel
    cases firstAnswer starts with
    | none => exact congrArg Prod.fst (orderid_unlabelled hlabel answer)
    | some first => rfl

/-! ## The folder -/

theorem folder_orderidStates (answer : Text) (k : Kept) :
    ∀ k' ∈ orderidStates m answer k, k'.folder = k.folder := by
  intro k' hk'
  rw [orderidStates] at hk'
  split at hk'
  · rw [List.mem_singleton.mp hk']
  · exact nomatch hk'

/-- Taking the number does not touch the folder. -/
theorem folder_asked (answer : Text) (k : Kept) :
    (finalState k (orderidStates m answer k)).folder = k.folder := by
  rcases List.mem_cons.mp (finalState_mem k (orderidStates m answer k))
    with heq | hmem
  · rw [heq]
  · exact folder_orderidStates answer k _ hmem

/-- **STEP INVARIANT**: a start keeps the invariant of the folder, wherever it
    is cut off. -/
theorem leftover_prepareCut (k : Kept) (s : Start) (hk : Leftover k.folder) :
    Leftover (prepareCut C shop m k s).folder := by
  have hlast : prepareCut C shop m k s ∈ k :: prepareStates C shop m s.answer k := by
    rcases List.mem_cons.mp (finalState_mem k
      ((prepareStates C shop m s.answer k).take s.commands)) with heq | hmem
    · exact List.mem_cons.mpr (Or.inl heq)
    · exact List.mem_cons_of_mem k (List.mem_of_mem_take hmem)
  rcases List.mem_cons.mp hlast with heq | hstates
  · rw [heq]
    exact hk
  · rcases List.mem_append.mp hstates with hasked | hfetched
    · rw [folder_orderidStates _ k _ hasked]
      exact hk
    · obtain ⟨f, hf, hstate⟩ := List.mem_map.mp hfetched
      rw [← hstate]
      refine leftover_orderdata C _ ?_ f hf
      rw [folder_asked]
      exact hk

/-- A complete start makes a complete call. -/
theorem folder_prepare (answer : Text) (k : Kept) :
    (prepare C shop m answer k).folder
      = orderdata C (shop.call (orderid m k.flag answer).1) k.folder := by
  rw [prepare, prepareStates, finalState_append, finalState_map Kept.folder,
    List.map_map]
  show finalState (finalState k (orderidStates m answer k)).folder
    (List.map id _) = _
  rw [List.map_id, folder_asked]
  rfl

/-- **ONE ORDER**: after any starts, each cut off anywhere and with any answer,
    a complete start leaves the documents of one order, that of the label or
    of the answer that was written first. -/
theorem merged_settled {E : Escaping} {orders : Text → Order}
    (hshop : ∀ id, IsOrderId id → Serves E (shop.call id) (orders id))
    {k : Kept} (hflag : k.flag = none) (hfolder : NoOrderFiles k.folder)
    (starts : List Start) (answer : Text)
    (hid : IsOrderId (number m starts answer)) :
    content (prepare C shop m answer (run (prepareCut C shop m) k starts)).folder
        orderdataFile
      = some (docsText E (orders (number m starts answer)).docs) := by
  have hleft : Leftover (run (prepareCut C shop m) k starts).folder := by
    refine run_invariant (fun k : Kept => Leftover k.folder)
      (leftover_prepareCut C shop) starts k ?_
    intro id hid hsome
    exact absurd (hfolder.2 id hid) hsome
  rw [folder_prepare, flag_run C shop hflag, orderid_recorded]
  exact merged_content C (hshop _ hid) hleft

end Starts

/-! ### Three answers -/

/-- A machine as the installer leaves it. -/
def unlabelled : Machine where
  hostname := "ubuntu".toList
  etcHostname := ["ubuntu".toList]
  dmiSystem := []
  dmiBoard := []

/-- The first answer is lost, the second is written, the third not asked
    for. -/
example : number unlabelled
    [⟨"111111".toList, 0⟩, ⟨"222222".toList, 2⟩] "333333".toList
      = "222222".toList := rfl

end SetupOrderBoots
