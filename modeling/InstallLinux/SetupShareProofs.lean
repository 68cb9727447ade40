import InstallLinux.ShellRunProofs
import InstallLinux.ShellTextProofs

/-! # The mount point `/mnt/ntserver` — a stack nobody looks at

    Three copy procedures and the upload at the end of `test.sh` share one
    mount point: each mounts a share on it, unmounts once and removes the
    directory.  `mount` stacks, `umount` takes the topmost share off, and
    `rm -R` deletes what it finds, so everything hangs on the stack being
    empty whenever `rm` runs.

    The procedures keep it so on every path but one: a `[Nn]*` leaves the
    retry loop without `umount`.  The log records what was mounted at every
    removal and at every such exit.  `guarded_runCalls` says that the first
    removal of a mounted share comes after an exit that left one mounted;
    `removals_safe` is the law for the runs without such an exit. -/

namespace SetupShare

open ShellText ShellRun

/-! ## The mount point -/

inductive Share where
  /-- `//172.17.0.10/production/Vizgen` -/
  | vizgen
  /-- `//172.17.0.10/labs/Don` -/
  | don
  /-- `//172.17.0.10/scratch` -/
  | scratch
  deriving DecidableEq

/-- What happens at the mount point, with what was mounted at that moment. -/
inductive Event where
  | attempted (share : Share)
  | copied (share : Share)
  | removed (mounted : List Share)
  | abandoned (mounted : List Share)
  deriving DecidableEq

structure System where
  /-- what is mounted on `/mnt/ntserver`, topmost first -/
  stack : List Share
  events : List Event
  /-- a procedure is still waiting for the operator -/
  waiting : Bool

def System.boot : System := ⟨[], [], false⟩

def System.log (st : System) (e : Event) : System :=
  { st with events := st.events ++ [e] }

/-- `sudo mkdir -p` and `sudo mount -t cifs`. -/
def mountShare (share : Share) (works : Bool) (st : System) : System :=
  if works then ({ st with stack := share :: st.stack }).log (.attempted share)
  else st.log (.attempted share)

/-- `sudo umount /mnt/ntserver`. -/
def unmount (st : System) : System :=
  { st with stack := st.stack.tail }

/-- `sudo rm -R /mnt/ntserver`. -/
def removeDir (st : System) : System :=
  st.log (.removed st.stack)

/-! ## The procedures -/

/-- One attempt: whether the mount works, and whether the tested file is on
    the share that is then on top. -/
structure Attempt where
  mounts : Bool
  present : Bool

/-- What the three procedures differ in. -/
structure Procedure where
  share : Share
  /-- the retry branch calls the procedure itself -/
  retries : Bool

/-- Mount and test: with the file there it is copied and the share taken off
    again, else the questions start. -/
def arrive (p : Procedure) (a : Attempt) (st : System)
    (notFound : System → System) : System :=
  let st := mountShare p.share a.mounts st
  if a.present ∧ st.stack ≠ [] then
    removeDir (unmount (st.log (.copied p.share)))
  else notFound st

/-- `Files not found. Would you like to try again?`, each answer as `read`
    stores it. -/
def askAgain (p : Procedure) (attempts : Nat → Attempt) (k : Nat) :
    List Text → System → System
  | [], st => { st with waiting := true }
  | yn :: answers, st =>
      if isYes yn then
        let st := removeDir (unmount st)
        -- a retry under a name no function has falls through to `break`
        if p.retries then
          arrive p (attempts (k + 1)) st
            (fun st => askAgain p attempts (k + 1) answers st)
        else st
      else if isNo yn then st.log (.abandoned st.stack)
      else askAgain p attempts k answers st

/-- A call of a procedure. -/
def copyFrom (p : Procedure) (attempts : Nat → Attempt) (answers : List Text)
    (st : System) : System :=
  arrive p (attempts 0) st (fun st => askAgain p attempts 0 answers st)

section Answers

variable {p : Procedure} {attempts : Nat → Attempt} {k : Nat} {yn : Text}

/-- A `[Yy]*` takes the share off, and another attempt follows where the branch
    has the right name. -/
theorem askAgain_yes (hyes : isYes yn = true) (answers : List Text)
    (st : System) :
    askAgain p attempts k (yn :: answers) st
      = if p.retries then
          arrive p (attempts (k + 1)) (removeDir (unmount st))
            (fun st => askAgain p attempts (k + 1) answers st)
        else removeDir (unmount st) := by
  rw [askAgain, if_pos hyes]

/-- A `[Nn]*` leaves everything as it is. -/
theorem askAgain_no (hno : isNo yn = true) (answers : List Text)
    (st : System) :
    askAgain p attempts k (yn :: answers) st
      = st.log (.abandoned st.stack) := by
  have hyes : ¬ isYes yn = true := by
    intro hyes
    rw [isNo_of_isYes hyes] at hno
    exact Bool.false_ne_true hno
  rw [askAgain, if_neg hyes, if_pos hno]

/-- Any other answer is asked for again. -/
theorem askAgain_other (hyes : ¬ isYes yn = true) (hno : ¬ isNo yn = true)
    (answers : List Text) (st : System) :
    askAgain p attempts k (yn :: answers) st
      = askAgain p attempts k answers st := by
  rw [askAgain, if_neg hyes, if_neg hno]

end Answers

/-! ## The four callers -/

/-- What the guards of the benchmark procedures look at. -/
structure Site where
  gpus : Nat
  order : List Text

def aiPlatform (site : Site) : Bool :=
  grep "Intel Xeon W790 5U".toList site.order

def vizAssets (attempts : Nat → Attempt) (answers : List Text)
    (st : System) : System :=
  copyFrom ⟨.vizgen, true⟩ attempts answers st

/-- The retry calls `_ai_assets`, a name no function has. -/
def aiAssetsFull (site : Site) (attempts : Nat → Attempt)
    (answers : List Text) (st : System) : System :=
  if 4 ≤ site.gpus ∧ aiPlatform site = true
      ∧ (grep "\"ai server\"".toList site.order
        || grep "\"machine learning\"".toList site.order) = true then
    copyFrom ⟨.don, false⟩ attempts answers st
  else st

def aiAssetsSmall (site : Site) (attempts : Nat → Attempt)
    (answers : List Text) (st : System) : System :=
  if site.gpus < 4 ∧ aiPlatform site = true
      ∧ grep "\"ai server\"".toList site.order = true then
    copyFrom ⟨.don, true⟩ attempts answers st
  else st

/-- The upload of `test.sh`, which checks nothing. -/
def upload (mounts : Bool) (st : System) : System :=
  removeDir (unmount (mountShare .scratch mounts st))

inductive Call where
  | vizAssets (attempts : Nat → Attempt) (answers : List Text)
  | aiAssetsFull (attempts : Nat → Attempt) (answers : List Text)
  | aiAssetsSmall (attempts : Nat → Attempt) (answers : List Text)
  | upload (mounts : Bool)

/-- One call; nothing is called while another one is waiting. -/
def callStep (site : Site) (st : System) (c : Call) : System :=
  if st.waiting then st
  else
    match c with
    | .vizAssets attempts answers => vizAssets attempts answers st
    | .aiAssetsFull attempts answers => aiAssetsFull site attempts answers st
    | .aiAssetsSmall attempts answers => aiAssetsSmall site attempts answers st
    | .upload mounts => upload mounts st

/-- The calls of one boot. -/
def runCalls (site : Site) (calls : List Call) : System :=
  run (callStep site) System.boot calls

/-! ## The invariant -/

/-- The operator has given up with a share mounted. -/
def LeftMounted (events : List Event) : Prop :=
  ∃ mounted, mounted ≠ [] ∧ .abandoned mounted ∈ events

/-- A removal of a mounted share comes after such an exit. -/
def Guarded (events : List Event) : Prop :=
  ∀ before after mounted, events = before ++ .removed mounted :: after →
    mounted ≠ [] → LeftMounted before

/-- At most `n` shares are mounted, unless some exit left one behind. -/
def AtMost (n : Nat) (st : System) : Prop :=
  Guarded st.events ∧ (LeftMounted st.events ∨ st.stack.length ≤ n)

/-- What holds between calls. -/
def Settled (st : System) : Prop :=
  Guarded st.events ∧ (st.waiting = true ∨ LeftMounted st.events ∨ st.stack = [])

theorem LeftMounted.append {events : List Event} (h : LeftMounted events)
    (later : List Event) : LeftMounted (events ++ later) := by
  obtain ⟨mounted, hne, hmem⟩ := h
  exact ⟨mounted, hne, List.mem_append_left _ hmem⟩

/-- One more event keeps the log guarded when it is no removal of a mounted
    share, or when a share was left mounted before. -/
theorem Guarded.snoc {events : List Event} (h : Guarded events) {e : Event}
    (he : ∀ mounted, e = .removed mounted → mounted ≠ [] →
      LeftMounted events) : Guarded (events ++ [e]) := by
  intro before after mounted hsplit hne
  rcases split_append hsplit with ⟨after', hold⟩ | ⟨mid, rfl, hlast⟩
  · exact h before after' mounted hold hne
  · -- the event is the new one
    cases mid with
    | nil =>
        rw [List.append_nil]
        exact he mounted (List.cons.inj hlast).1 hne
    | cons x mid =>
        have hnil := (List.cons.inj hlast).2
        exact absurd hnil.symm (by simp)

theorem AtMost.mono {n m : Nat} (hle : n ≤ m) {st : System}
    (h : AtMost n st) : AtMost m st :=
  ⟨h.1, h.2.imp_right (fun hlen => Nat.le_trans hlen hle)⟩

theorem AtMost.settled {st : System} (h : AtMost 0 st) : Settled st :=
  ⟨h.1, Or.inr (h.2.imp_right
    (fun hlen => List.length_eq_zero_iff.mp (Nat.le_zero.mp hlen)))⟩

theorem AtMost.log {n : Nat} {st : System} (h : AtMost n st) {e : Event}
    (he : ∀ mounted, e ≠ .removed mounted) : AtMost n (st.log e) :=
  ⟨h.1.snoc (fun mounted heq _ => absurd heq (he mounted)),
    h.2.imp_left (fun hleft => hleft.append [e])⟩

/-- A mount adds at most one share. -/
theorem AtMost.mountShare {n : Nat} {st : System} (h : AtMost n st)
    (share : Share) (works : Bool) :
    AtMost (n + 1) (mountShare share works st) := by
  rw [SetupShare.mountShare]
  cases works with
  | false =>
      rw [if_neg (by decide)]
      exact (h.mono (Nat.le_succ n)).log (fun _ heq => nomatch heq)
  | true =>
      rw [if_pos rfl]
      have hpush : AtMost (n + 1) { st with stack := share :: st.stack } :=
        ⟨h.1, h.2.imp_right (fun hlen => by
          rw [List.length_cons]
          omega)⟩
      exact hpush.log (fun _ heq => nomatch heq)

/-- `umount` takes one off. -/
theorem AtMost.unmount {n : Nat} {st : System} (h : AtMost (n + 1) st) :
    AtMost n (unmount st) :=
  ⟨h.1, h.2.imp_right (fun hlen => by
    show st.stack.tail.length ≤ n
    rw [List.length_tail]
    omega)⟩

/-- With nothing mounted the removal is harmless. -/
theorem AtMost.removeDir {st : System} (h : AtMost 0 st) :
    AtMost 0 (removeDir st) := by
  refine ⟨h.1.snoc ?_, h.2.imp_left (fun hleft => hleft.append _)⟩
  intro mounted heq hne
  rcases h.2 with hleft | hlen
  · exact hleft
  · have hnil := List.length_eq_zero_iff.mp (Nat.le_zero.mp hlen)
    rw [← Event.removed.inj heq] at hne
    exact absurd hnil hne

/-- Giving up leaves nothing mounted, or says so in the log. -/
theorem AtMost.abandon {n : Nat} {st : System} (h : AtMost n st) :
    AtMost 0 (st.log (.abandoned st.stack)) := by
  refine ⟨h.1.snoc (fun _ heq => nomatch heq), ?_⟩
  by_cases hnil : st.stack = []
  · refine Or.inr ?_
    show st.stack.length ≤ 0
    rw [hnil]
    exact Nat.le_refl 0
  · refine Or.inl ⟨st.stack, hnil, ?_⟩
    exact List.mem_append_right _ List.mem_cons_self

/-! ## The procedures keep it -/

/-- **ONE ATTEMPT**: it ends settled if the questions do. -/
theorem settled_arrive (p : Procedure) (a : Attempt) {st : System}
    {notFound : System → System} (hst : AtMost 0 st)
    (hnext : ∀ st', AtMost 1 st' → Settled (notFound st')) :
    Settled (arrive p a st notFound) := by
  have hmount := hst.mountShare p.share a.mounts
  simp only [arrive]
  split
  · have hcopied := hmount.log (e := .copied p.share) (fun _ heq => nomatch heq)
    exact hcopied.unmount.removeDir.settled
  · exact hnext _ hmount

/-- **THE QUESTIONS**: every way out of them settles, the waiting included. -/
theorem settled_askAgain (p : Procedure) (attempts : Nat → Attempt) :
    ∀ (answers : List Text) (k : Nat) (st : System), AtMost 1 st →
      Settled (askAgain p attempts k answers st) := by
  intro answers
  induction answers with
  | nil => intro k st hst; exact ⟨hst.1, Or.inl rfl⟩
  | cons yn answers ih =>
      intro k st hst
      by_cases hyes : isYes yn = true
      · rw [askAgain_yes hyes]
        -- the share comes off before the removal, whatever follows
        have hoff := hst.unmount.removeDir
        cases hretries : p.retries with
        | true =>
            simp only [if_true]
            exact settled_arrive p _ hoff (ih (k + 1))
        | false =>
            simp only [Bool.false_eq_true, if_false]
            exact hoff.settled
      · by_cases hno : isNo yn = true
        · -- the one exit that may leave a share behind
          rw [askAgain_no hno]
          exact hst.abandon.settled
        · rw [askAgain_other hyes hno]
          exact ih k st hst

/-- **ONE CALL**: it ends settled. -/
theorem settled_copyFrom (p : Procedure) (attempts : Nat → Attempt)
    (answers : List Text) {st : System} (hst : AtMost 0 st) :
    Settled (copyFrom p attempts answers st) :=
  settled_arrive p (attempts 0) hst
    (settled_askAgain p attempts answers 0)

/-- A call that has returned leaves nothing mounted. -/
theorem Settled.atMost {st : System} (h : Settled st)
    (hwaiting : st.waiting = false) : AtMost 0 st := by
  refine ⟨h.1, ?_⟩
  rcases h.2 with hwait | hleft | hnil
  · rw [hwaiting] at hwait
    exact nomatch hwait
  · exact Or.inl hleft
  · refine Or.inr ?_
    rw [hnil]
    exact Nat.le_refl 0

/-- **STEP INVARIANT**: every call settles. -/
theorem settled_callStep (site : Site) (st : System) (c : Call)
    (hst : Settled st) : Settled (callStep site st c) := by
  simp only [callStep]
  cases hwaiting : st.waiting with
  | true =>
      rw [if_pos rfl]
      exact hst
  | false =>
      rw [if_neg (by decide)]
      have hfree := hst.atMost hwaiting
      cases c with
      | vizAssets attempts answers => exact settled_copyFrom _ _ _ hfree
      | aiAssetsFull attempts answers =>
          show Settled (aiAssetsFull site attempts answers st)
          rw [aiAssetsFull]
          split
          · exact settled_copyFrom _ _ _ hfree
          · exact hst
      | aiAssetsSmall attempts answers =>
          show Settled (aiAssetsSmall site attempts answers st)
          rw [aiAssetsSmall]
          split
          · exact settled_copyFrom _ _ _ hfree
          · exact hst
      | upload mounts =>
          exact (hfree.mountShare .scratch mounts).unmount.removeDir.settled

/-- **RUN INVARIANT**: in any sequence of calls the first removal of a mounted
    share comes after an exit that left one mounted. -/
theorem guarded_runCalls (site : Site) (calls : List Call) :
    Guarded (runCalls site calls).events := by
  have hboot : Settled System.boot :=
    ⟨fun before after mounted h => absurd h.symm (by simp [System.boot]),
      Or.inr (Or.inr rfl)⟩
  exact (run_invariant Settled (settled_callStep site) calls System.boot
    hboot).1

/-- **NO SHARE IS DELETED**: in every run in which each `[Nn]*` is given with
    nothing mounted, nothing is mounted at any removal. -/
theorem removals_safe (site : Site) (calls : List Call)
    (hno : ∀ mounted,
      .abandoned mounted ∈ (runCalls site calls).events → mounted = []) :
    ∀ mounted, .removed mounted ∈ (runCalls site calls).events →
      mounted = [] := by
  intro mounted hmem
  by_contra hne
  -- the first bad removal comes after a bad exit, and there is none
  obtain ⟨before, after, hsplit⟩ := List.append_of_mem hmem
  obtain ⟨left, hleft, hearlier⟩ :=
    guarded_runCalls site calls before after mounted hsplit hne
  refine hleft (hno left ?_)
  rw [hsplit]
  exact List.mem_append_left _ hearlier

/-- A site the benchmark procedures leave alone. -/
def plainSite : Site := ⟨0, []⟩

/-- A share without the Vizgen files, given up on. -/
def missingFiles (mounts : Bool) : Call :=
  .vizAssets (fun _ => ⟨mounts, false⟩) ["N".toList]

/-- The mount fails before the `N`, an upload follows: the one removal finds
    nothing mounted, and the law rules the upload's own share out. -/
theorem removals_safe_failed :
    .removed [] ∈ (runCalls plainSite
        [missingFiles false, .upload true]).events
      ∧ .removed [.scratch] ∉ (runCalls plainSite
        [missingFiles false, .upload true]).events := by
  have hevents : (runCalls plainSite
      [missingFiles false, .upload true]).events
      = [.attempted .vizgen, .abandoned [], .attempted .scratch,
          .removed []] := rfl
  have hno : ∀ mounted, .abandoned mounted ∈ (runCalls plainSite
      [missingFiles false, .upload true]).events → mounted = [] := by
    intro mounted h
    rw [hevents] at h
    simpa using h
  refine ⟨?_, fun hmem => ?_⟩
  · rw [hevents]
    exact List.mem_of_getLast? rfl
  · have hnil := removals_safe plainSite [missingFiles false, .upload true]
      hno [.scratch] hmem
    exact nomatch hnil

/-- After an `N` on a mounted share the upload deletes what is on it. -/
theorem removal_of_mounted :
    ¬ ∀ (site : Site) (calls : List Call) (mounted : List Share),
        .removed mounted ∈ (runCalls site calls).events → mounted = [] := by
  intro hall
  have h := hall plainSite [missingFiles true, .upload true] [.vizgen]
    (by decide)
  exact nomatch h

end SetupShare
