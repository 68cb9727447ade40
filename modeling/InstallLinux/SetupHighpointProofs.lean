import InstallLinux.ShellRunProofs
import InstallLinux.ShellTextProofs

/-! # HighPoint setup — a state machine kept in files

    `highpoint.sh` is started again after every reboot and finds out from its
    flags how far it got.  The first configuration step is an endless prompt
    loop: its `[Yy]*` branch saves the array type with an append, asks for the
    reboot and goes on asking, since `reboot` returns before the machine is
    down.

    A start is described by every moment at which it may stop: an `exit`, or
    any command boundary once the reboot has been asked for.  The files are in
    one of four stages (`Stage`) as long as nothing is chosen or refused in
    that time, and in none of them as soon as something is:

    * `stage_moments`: a start without late choices stops in a stage;
    * `late_moments`: a start with one has an inconsistent moment;
    * `flags_consistent_iff` is the law of every sequence of starts. -/

namespace SetupHighpoint

open ShellText ShellRun

/-! ## The files -/

/-- What the script has `hptraidconf` do to the arrays, and its own end. -/
inductive ArrayEvent where
  /-- the arrays there were have been deleted -/
  | deleted
  /-- `create`, with the lines of the file `arraytype` -/
  | created (lines : List Text)
  /-- the completion flag has been written -/
  | completed
  deriving DecidableEq

structure State where
  /-- `flags/hp_flag` -/
  hpFlag : Bool
  /-- `flags/hp_flag1` -/
  hpFlag1 : Bool
  /-- `flags/highpoint.sh` -/
  done : Bool
  /-- the lines of `flags/arraytype` -/
  arraytype : Option (List Text)
  /-- `/etc/init.d/hptdrv-monitor` -/
  monitor : Bool
  log : List ArrayEvent
  deriving DecidableEq

/-- `echo $arraytype | tee -a ~/install/flags/arraytype`. -/
def saveType (t : Text) (st : State) : State :=
  { st with arraytype := some (st.arraytype.getD [] ++ [t]) }

/-- The loop over `hptraidconf … delete 1`. -/
def deleteArrays (st : State) : State :=
  { st with log := st.log ++ [.deleted] }

def rmHpFlag (st : State) : State := { st with hpFlag := false }

def touchHpFlag1 (st : State) : State := { st with hpFlag1 := true }

/-- `touch ~/install/flags/$scriptname`. -/
def complete (st : State) : State :=
  { st with done := true, log := st.log ++ [.completed] }

/-! ## The prompts of step 1 -/

/-- `_arraytype`: what a selection stands for. -/
def arrayType (selection : Text) : Option Text :=
  if selection = "0".toList then some "RAID0".toList
  else if selection = "1".toList then some "RAID1".toList
  else if selection = "10".toList then some "RAID10".toList
  else none

def arrayTypes : List Text :=
  ["RAID0".toList, "RAID1".toList, "RAID10".toList]

/-- Which of its questions the script is waiting at. -/
inductive Phase where
  | confirm
  | select
  /-- `Press any key to continue...` after an invalid selection -/
  | pause
  deriving DecidableEq

/-- The machine goes down only after the reboot has been asked for. -/
def boundaries (rebooting : Bool) (states : List State) : List State :=
  if rebooting then states else []

/-- The prompt loop of step 1 from one of its questions on: the moments at
    which the script may stop, in order. -/
def prompts : List Text → Phase → Bool → State → List State
  | [], _, rebooting, st => boundaries rebooting [st]
  | line :: rest, .confirm, rebooting, st =>
      boundaries rebooting [st]
        ++ (if isYes line then prompts rest .select rebooting st
          else if isNo line then
            boundaries rebooting [rmHpFlag st] ++ [complete (rmHpFlag st)]
          else prompts rest .confirm rebooting st)
  | line :: rest, .select, rebooting, st =>
      boundaries rebooting [st]
        ++ (match arrayType line with
          | some t =>
              let st1 := saveType t st
              let st2 := deleteArrays st1
              let st3 := rmHpFlag st2
              let st4 := touchHpFlag1 st3
              -- `reboot` returns, and the loop goes on
              boundaries rebooting [st1, st2, st3]
                ++ st4 :: prompts rest .confirm true st4
          | none => prompts rest .pause rebooting st)
  | _ :: rest, .pause, rebooting, st =>
      boundaries rebooting [st] ++ prompts rest .select rebooting st

/-! ## A start of the script -/

structure Start where
  /-- what `read` takes from the prompts: without the blanks around it, and
      without the backslashes -/
  answers : List Text
  /-- the installers leave `hptdrv-monitor` behind -/
  installs : Bool
  /-- which of its moments the start stops at -/
  stop : Nat

/-- The driver stage: it ends with a key, `reboot` and `exit`. -/
def installStage (st : State) (s : Start) : List State :=
  match s.answers with
  | [] => []
  | _ :: _ => [{ st with monitor := s.installs, hpFlag := true }]

/-- Step 2: create, clean up, a key, the completion flag and `reboot`, which
    is the end of the script. -/
def createStage (st : State) (s : Start) : List State :=
  match s.answers with
  | [] => []
  | _ :: _ =>
      [complete { st with
        log := st.log ++ [.created (st.arraytype.getD [])],
        hpFlag1 := false, arraytype := none }]

/-- The moments of a start; `card` is what `lspci -v` says of the
    controller. -/
def moments (card : Bool) (st : State) (s : Start) : List State :=
  if st.done then [st]
  else if card then
    if st.monitor then
      if st.hpFlag then prompts s.answers .confirm false st
      else if st.hpFlag1 then createStage st s
      else [st]
    else installStage st s
  else [complete st]

/-- The state the next start finds, if the start stops. -/
def nextState (card : Bool) (o : Option State) (s : Start) : Option State :=
  o.bind (fun st => (moments card st s)[s.stop]?)

/-! ## The property and the condition -/

/-- What has to hold whenever the script stops. -/
structure Consistent (st : State) : Prop where
  notBoth : ¬ (st.hpFlag = true ∧ st.hpFlag1 = true)
  flagOrDone : ¬ (st.hpFlag = true ∧ st.done = true)
  flag1OrDone : ¬ (st.hpFlag1 = true ∧ st.done = true)
  oneType : st.hpFlag1 = true → ∃ t ∈ arrayTypes, st.arraytype = some [t]
  validArrays : ∀ lines, .created lines ∈ st.log → ∃ t ∈ arrayTypes, lines = [t]
  notAbandoned : ¬ [.deleted, .completed] <:+: st.log

/-- Something is refused or chosen after the reboot has been asked for. -/
def changesLate : List Text → Phase → Bool → Bool
  | [], _, _ => false
  | line :: rest, .confirm, rebooting =>
      if isYes line then changesLate rest .select rebooting
      else if isNo line then rebooting
      else changesLate rest .confirm rebooting
  | line :: rest, .select, rebooting =>
      match arrayType line with
      | some _ => rebooting || changesLate rest .confirm true
      | none => changesLate rest .pause rebooting
  | _ :: rest, .pause, rebooting => changesLate rest .select rebooting

/-- The start enters step 1. -/
def entersStep1 (card : Bool) (st : State) : Bool :=
  !st.done && card && st.monitor && st.hpFlag

/-- If the start enters step 1, nothing is changed late. -/
def Quiet (card : Bool) (st : State) (s : Start) : Prop :=
  entersStep1 card st = true → changesLate s.answers .confirm false = false

/-- The stages of a setup that goes well. -/
inductive Stage (card : Bool) : State → Prop where
  | untouched (monitor : Bool) :
      Stage card ⟨false, false, false, none, monitor, []⟩
  | installed (monitor : Bool) (hcard : card = true) :
      Stage card ⟨true, false, false, none, monitor, []⟩
  | chosen (t : Text) (ht : t ∈ arrayTypes) (hcard : card = true) :
      Stage card ⟨false, true, false, some [t], true, [.deleted]⟩
  | skipped (monitor : Bool) :
      Stage card ⟨false, false, true, none, monitor, [.completed]⟩
  | built (t : Text) (ht : t ∈ arrayTypes) :
      Stage card ⟨false, false, true, none, true,
        [.deleted, .created [t], .completed]⟩

/-! ## Every stage is consistent -/

theorem arrayType_mem {selection t : Text} (h : arrayType selection = some t) :
    t ∈ arrayTypes := by
  rw [arrayType] at h
  rw [arrayTypes]
  split_ifs at h <;> simp [← Option.some.inj h]

/-- A log without deletions abandons nothing. -/
theorem not_abandoned_of_not_deleted {log : List ArrayEvent}
    (h : .deleted ∉ log) : ¬ [.deleted, .completed] <:+: log :=
  fun hin => h (hin.subset List.mem_cons_self)

/-- The flags are consistent between the stages. -/
theorem Stage.consistent {card : Bool} {st : State} (h : Stage card st) :
    Consistent st := by
  cases h with
  | untouched monitor =>
      exact ⟨by simp, by simp, by simp, (fun h => nomatch h),
        (fun lines h => nomatch h), not_abandoned_of_not_deleted (by simp)⟩
  | installed monitor =>
      exact ⟨by simp, by simp, by simp, (fun h => nomatch h),
        (fun lines h => nomatch h), not_abandoned_of_not_deleted (by simp)⟩
  | chosen t ht =>
      refine ⟨by simp, by simp, by simp, fun _ => ⟨t, ht, rfl⟩, ?_, ?_⟩
      · intro lines h
        exact absurd h (by simp)
      · intro h
        exact absurd h.length_le (by simp)
  | skipped monitor =>
      refine ⟨by simp, by simp, by simp, (fun h => nomatch h), ?_,
        not_abandoned_of_not_deleted (by simp)⟩
      intro lines h
      exact absurd h (by simp)
  | built t ht =>
      refine ⟨by simp, by simp, by simp, (fun h => nomatch h), ?_, ?_⟩
      · intro lines h
        have hlines : lines = [t] := by simpa using h
        exact ⟨t, ht, hlines⟩
      · intro h
        rcases List.infix_cons_iff.mp h with hpre | hin
        · rw [List.cons_prefix_cons, List.cons_prefix_cons] at hpre
          exact nomatch hpre.2.1
        · exact absurd (hin.subset List.mem_cons_self) (by simp)

/-! ## The prompt loop -/

/-- The moments behind a `reboot` that returns. -/
theorem mem_boundaries {rebooting : Bool} {states : List State} {m : State} :
    m ∈ boundaries rebooting states ↔ rebooting = true ∧ m ∈ states := by
  cases rebooting with
  | false => exact iff_of_false (fun h => nomatch h) (fun h => nomatch h.1)
  | true => exact (and_iff_right rfl).symm

/-- **QUIET LOOP**: without late choices the loop stops where it is asked to
    reboot, after a refusal or after a choice, and nowhere else. -/
theorem prompts_quiet {good : State → Prop} :
    ∀ (answers : List Text) (phase : Phase) (rebooting : Bool) (st : State),
      changesLate answers phase rebooting = false →
      (rebooting = true → good st) →
      (rebooting = false → good (complete (rmHpFlag st))) →
      (rebooting = false → ∀ t ∈ arrayTypes,
        good (touchHpFlag1 (rmHpFlag (deleteArrays (saveType t st))))) →
      ∀ m ∈ prompts answers phase rebooting st, good m := by
  intro answers
  induction answers with
  | nil =>
      intro phase rebooting st _ hst _ _ m hm
      obtain ⟨hrebooting, hm⟩ := mem_boundaries.mp hm
      rw [List.mem_singleton.mp hm]
      exact hst hrebooting
  | cons line rest ih =>
      intro phase rebooting st hquiet hst hrefused hchosen m hm
      -- the machine may go down while the question stands
      have hhere : m ∈ boundaries rebooting [st] → good m := by
        intro hm
        obtain ⟨hrebooting, hm⟩ := mem_boundaries.mp hm
        rw [List.mem_singleton.mp hm]
        exact hst hrebooting
      cases phase with
      | confirm =>
          rw [prompts, List.mem_append] at hm
          rw [changesLate] at hquiet
          rcases hm with hm | hm
          · exact hhere hm
          by_cases hyes : isYes line = true
          · rw [if_pos hyes] at hm hquiet
            exact ih .select rebooting st hquiet hst hrefused hchosen m hm
          rw [if_neg hyes] at hm hquiet
          by_cases hno : isNo line = true
          · rw [if_pos hno] at hm hquiet
            rw [hquiet] at hm
            rw [List.mem_singleton.mp hm]
            exact hrefused hquiet
          · rw [if_neg hno] at hm hquiet
            exact ih .confirm rebooting st hquiet hst hrefused hchosen m hm
      | select =>
          rw [prompts, List.mem_append] at hm
          rw [changesLate] at hquiet
          rcases hm with hm | hm
          · exact hhere hm
          cases htype : arrayType line with
          | some t =>
              -- from here on the reboot is asked for, with the choice made
              simp only [htype, Bool.or_eq_false_iff] at hm hquiet
              obtain ⟨hfirst, hquiet⟩ := hquiet
              have hgood := hchosen hfirst t (arrayType_mem htype)
              rw [hfirst] at hm
              rcases List.mem_cons.mp hm with heq | hm
              · rw [heq]
                exact hgood
              · exact ih .confirm true _ hquiet (fun _ => hgood)
                  (fun h => nomatch h) (fun h => nomatch h) m hm
          | none =>
              simp only [htype] at hm hquiet
              exact ih .pause rebooting st hquiet hst hrefused hchosen m hm
      | pause =>
          rw [prompts, List.mem_append] at hm
          rw [changesLate] at hquiet
          rcases hm with hm | hm
          · exact hhere hm
          · exact ih .select rebooting st hquiet hst hrefused hchosen m hm

/-- What the files say of a choice: made once the reboot is asked for, not
    made before. -/
def ChoiceMade (rebooting : Bool) (st : State) : Prop :=
  match rebooting with
  | true => st.hpFlag1 = true ∧ ∃ t, st.arraytype = some [t]
  | false => st.arraytype = none

/-- **LATE LOOP**: a late refusal leaves `hp_flag1` beside the completion flag,
    a late choice leaves it beside two array types. -/
theorem prompts_late :
    ∀ (answers : List Text) (phase : Phase) (rebooting : Bool) (st : State),
      changesLate answers phase rebooting = true →
      ChoiceMade rebooting st →
      ∃ m ∈ prompts answers phase rebooting st, ¬ Consistent m := by
  intro answers
  induction answers with
  | nil => intro phase rebooting st h; exact nomatch h
  | cons line rest ih =>
      intro phase rebooting st hlate hmade
      have hlater : ∀ (states : List State),
          (∃ m ∈ states, ¬ Consistent m) →
          ∃ m ∈ boundaries rebooting [st] ++ states, ¬ Consistent m := by
        rintro states ⟨m, hm, hbad⟩
        exact ⟨m, List.mem_append_right _ hm, hbad⟩
      cases phase with
      | confirm =>
          rw [prompts]
          rw [changesLate] at hlate
          refine hlater _ ?_
          by_cases hyes : isYes line = true
          · rw [if_pos hyes] at hlate ⊢
            exact ih .select rebooting st hlate hmade
          rw [if_neg hyes] at hlate ⊢
          by_cases hno : isNo line = true
          · -- the completion flag beside `hp_flag1`
            rw [if_pos hno] at hlate ⊢
            subst hlate
            refine ⟨complete (rmHpFlag st), by simp, ?_⟩
            intro hcons
            exact hcons.flag1OrDone ⟨hmade.1, rfl⟩
          · rw [if_neg hno] at hlate ⊢
            exact ih .confirm rebooting st hlate hmade
      | select =>
          rw [prompts]
          rw [changesLate] at hlate
          refine hlater _ ?_
          cases htype : arrayType line with
          | some t =>
              simp only [htype] at hlate ⊢
              cases rebooting with
              | true =>
                  -- a second line in `arraytype`, before anything else changes
                  refine ⟨saveType t st, by simp [boundaries], ?_⟩
                  intro hcons
                  obtain ⟨hflag, t', harray⟩ := hmade
                  obtain ⟨t'', -, heq⟩ := hcons.oneType hflag
                  rw [saveType, harray] at heq
                  exact absurd (congrArg List.length (Option.some.inj heq))
                    (by simp)
              | false =>
                  rw [Bool.false_or] at hlate
                  have hsaved : (saveType t st).arraytype = some [t] := by
                    rw [saveType, show st.arraytype = none from hmade]
                    rfl
                  obtain ⟨m, hm, hbad⟩ := ih .confirm true
                    (touchHpFlag1 (rmHpFlag (deleteArrays (saveType t st))))
                    hlate ⟨rfl, t, hsaved⟩
                  refine ⟨m, ?_, hbad⟩
                  exact List.mem_append_right _ (List.mem_cons_of_mem _ hm)
          | none =>
              simp only [htype] at hlate ⊢
              exact ih .pause rebooting st hlate hmade
      | pause =>
          rw [prompts]
          rw [changesLate] at hlate
          exact hlater _ (ih .select rebooting st hlate hmade)

/-! ## A start -/

/-- **STEP LAW**: a start without late choices stops in a stage. -/
theorem stage_moments {card : Bool} {st : State} {s : Start}
    (hst : Stage card st) (hquiet : Quiet card st s) :
    ∀ m ∈ moments card st s, Stage card m := by
  intro m hm
  cases hst with
  | untouched monitor =>
      cases card with
      | false =>
          rw [List.mem_singleton.mp hm]
          exact Stage.skipped monitor
      | true =>
          cases monitor with
          | true =>
              rw [List.mem_singleton.mp hm]
              exact Stage.untouched true
          | false =>
              rcases hanswers : s.answers with _ | ⟨key, rest⟩
              · simp [moments, installStage, hanswers] at hm
              · simp [moments, installStage, hanswers] at hm
                rw [hm]
                exact Stage.installed s.installs rfl
  | installed monitor hcard =>
      subst hcard
      cases monitor with
      | true =>
          exact prompts_quiet s.answers .confirm false _ (hquiet rfl)
            (fun h => nomatch h) (fun _ => Stage.skipped true)
            (fun _ t ht => Stage.chosen t ht rfl) m hm
      | false =>
          -- the sentinel is missing still: the installers run once more
          rcases hanswers : s.answers with _ | ⟨key, rest⟩
          · simp [moments, installStage, hanswers] at hm
          · simp [moments, installStage, hanswers] at hm
            rw [hm]
            exact Stage.installed s.installs rfl
  | chosen t ht hcard =>
      subst hcard
      rcases hanswers : s.answers with _ | ⟨key, rest⟩
      · simp [moments, createStage, hanswers] at hm
      · simp [moments, createStage, complete, hanswers] at hm
        rw [hm]
        exact Stage.built t ht
  | skipped monitor =>
      rw [List.mem_singleton.mp hm]
      exact Stage.skipped monitor
  | built t ht =>
      rw [List.mem_singleton.mp hm]
      exact Stage.built t ht

/-- Only step 1 can be changed late, and then it has a bad moment. -/
theorem late_moments {card : Bool} {st : State} {s : Start}
    (hst : Stage card st) (hlate : ¬ Quiet card st s) :
    ∃ m ∈ moments card st s, ¬ Consistent m := by
  have hparts : entersStep1 card st = true
      ∧ changesLate s.answers .confirm false = true := by
    by_contra hno
    refine hlate ?_
    intro henters
    by_contra hchanges
    exact hno ⟨henters, Bool.not_eq_false _ ▸ hchanges⟩
  cases hst with
  | untouched monitor =>
      have h := hparts.1
      simp [entersStep1] at h
  | installed monitor hcard =>
      subst hcard
      cases monitor with
      | true => exact prompts_late s.answers .confirm false _ hparts.2 rfl
      | false => exact nomatch hparts.1
  | chosen t ht hcard =>
      have h := hparts.1
      simp [entersStep1] at h
  | skipped monitor => exact nomatch hparts.1
  | built t ht => exact nomatch hparts.1

/-! ## All sequences of starts -/

/-- All moments of a start that takes place are consistent. -/
def AllConsistent (card : Bool) (o : Option State) (s : Start) : Prop :=
  ∀ st, o = some st → ∀ m ∈ moments card st s, Consistent m

/-- Nothing is changed late in a start that takes place. -/
def AllQuiet (card : Bool) (o : Option State) (s : Start) : Prop :=
  ∀ st, o = some st → Quiet card st s

/-- The state between two starts, if the last one has stopped. -/
def AtStage (card : Bool) (o : Option State) : Prop :=
  ∀ st, o = some st → Stage card st

/-- **RUN**: all starts are consistent iff all are quiet. -/
theorem allConsistent_iff (card : Bool) (o : Option State) (s : Start)
    (ho : AtStage card o) : AllConsistent card o s ↔ AllQuiet card o s := by
  constructor
  · -- a late change shows in one of the moments
    intro hall st hst
    by_contra hlate
    obtain ⟨m, hm, hbad⟩ := late_moments (ho st hst) hlate
    exact hbad (hall st hst m hm)
  · intro hquiet st hst m hm
    exact (stage_moments (ho st hst) (hquiet st hst) m hm).consistent

/-- **STEP INVARIANT**: the next start finds a stage. -/
theorem atStage_nextState (card : Bool) (o : Option State) (s : Start)
    (ho : AtStage card o) (hall : AllConsistent card o s) :
    AtStage card (nextState card o s) := by
  intro st' hst'
  obtain ⟨st, hst, hget⟩ := Option.bind_eq_some_iff.mp hst'
  have hquiet := (allConsistent_iff card o s ho).mp hall st hst
  exact stage_moments (ho st hst) hquiet st' (List.mem_of_getElem? hget)

/-- A machine nobody has set up. -/
def factory (monitor : Bool) : State :=
  ⟨false, false, false, none, monitor, []⟩

/-- **THE FLAGS**: every moment at which a start of `highpoint.sh` may stop is
    consistent, in every sequence of starts, iff in no start something is
    refused or chosen after the reboot has been asked for. -/
theorem flags_consistent_iff (card monitor : Bool) (starts : List Start) :
    AllSteps (nextState card) (AllConsistent card) (some (factory monitor))
        starts
      ↔ AllSteps (nextState card) (AllQuiet card) (some (factory monitor))
        starts := by
  refine allSteps_congr (AtStage card) (allConsistent_iff card)
    (atStage_nextState card) starts _ ?_
  intro st hst
  rw [← Option.some.inj hst]
  exact Stage.untouched monitor

/-- `Y`, type `0`, and an `N` while the machine is still up. -/
theorem flags_not_consistent :
    ¬ ∀ (card monitor : Bool) (starts : List Start),
        AllSteps (nextState card) (AllConsistent card)
          (some (factory monitor)) starts := by
  intro hall
  have hrun := hall true false
    [⟨[[]], true, 0⟩, ⟨["Y".toList, "0".toList, "N".toList], true, 0⟩]
  have hstart := (allSteps_cons.mp (allSteps_cons.mp hrun).2).1
  have hmoment := hstart _ rfl
    ⟨false, true, true, some ["RAID0".toList], true, [.deleted, .completed]⟩
    (by decide)
  exact hmoment.flag1OrDone ⟨rfl, rfl⟩

end SetupHighpoint
