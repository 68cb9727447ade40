import InstallLinux.SetupDriveNamesProofs
import InstallLinux.SetupFstabProofs
import InstallLinux.SetupMountPathProofs

/-! # The boot table — one place for every disk, and a text that reads back

    Every disk the operator confirms gets a mount point from `_mount` and a
    line of `/etc/fstab` from `_format`.  Nothing compares the mount point with
    those of other lines; what keeps two file systems from one directory is the
    question `_mount` asks about a directory that is there already.

    * `Served` is a confirmed disk with what its prompt began and ended with;
      `served_calls` ties the list of them to the calls of `_format`;
    * `mountPrompt_ready` says what one prompt leaves to the next: answers that
      are still good, and directories that are all still there;
    * `mounts_apart_iff` is the law of all starts of the two scripts: the mount
      points stay different places iff no prompt keeps one of an earlier line;
    * `table_reads`: the text of the file, read field by field, is one entry
      for every line that has been appended, and the entries of before, but for
      one that stands in an unfinished last line. -/

namespace SetupBootTable

open ShellText ShellRun SetupMountPrompt SetupFormatLoop SetupFstab
open SetupMountPath hiding Clean

variable {σ : Type}

/-! ## Places -/

/-- `mkdir` takes no directory away. -/
def Grows (D : Dirs σ) : Prop :=
  ∀ fs made path, D.isDir fs path = true →
    D.isDir (D.mkdir fs made) path = true

/-- Two paths that are directories in the same states: `/data` and `/data/`,
    say. -/
def SamePlace (D : Dirs σ) (a b : Text) : Prop :=
  ∀ fs, D.isDir fs a = D.isDir fs b

/-- No two of the paths are one place. -/
def Apart (D : Dirs σ) (mounts : List Text) : Prop :=
  mounts.Pairwise (fun a b => ¬ SamePlace D a b)

/-- Nothing a prompt does takes a directory away. -/
theorem isDir_replay {D : Dirs σ} (hD : Grows D) {path : Text} :
    ∀ (events : List PathEvent) (fs : σ), D.isDir fs path = true →
      D.isDir (replay D fs events) path = true := by
  intro events
  induction events with
  | nil => intro fs h; exact h
  | cons event rest ih =>
      intro fs h
      cases event with
      | made made => exact ih _ (hD fs made path h)
      | kept kept => exact ih _ h

/-- What was a directory before has not been made since. -/
theorem not_made_of_isDir {D : Dirs σ} (hD : Grows D) {fs : σ}
    {events : List PathEvent} {path : Text} (h : D.isDir fs path = true) :
    ¬ Made D fs events path := by
  rintro ⟨before, after, -, hmissing, -⟩
  rw [isDir_replay hD before fs h] at hmissing
  exact nomatch hmissing

/-! ## The disks a start serves -/

/-- A disk that is confirmed and gets a mount point. -/
structure Served (σ : Type) where
  call : FormatCall
  /-- the directories its prompt begins with -/
  dirs : σ
  /-- what the prompt ends with -/
  prompt : Prompt σ

/-- The loop of one disk, `promptLoop`: nothing, or the disk itself. -/
def servedBy (D : Dirs σ) (smart : Smart) (drive : Text) (v : Vars) :
    List Text → σ → List (Served σ)
  | [], _ => []
  | yn :: answers, fs =>
      if isYes yn then
        (mountPrompt D v.drivemount answers fs).elim [] (fun p =>
          [⟨⟨drive, v.partition, drivename smart, p.mount⟩, fs, p⟩])
      else if isNo yn then []
      else servedBy D smart drive v answers fs

/-- Along `mainLoop`. -/
def served (D : Dirs σ) (script : Script) (probe : Text → Smart) :
    List Text → Vars → List Text → σ → List (Served σ)
  | [], _, _, _ => []
  | drive :: rest, v, answers, fs =>
      let v := nameDrive script probe v drive
      servedBy D (probe drive) drive v answers fs
        ++ (promptLoop D (probe drive) drive v answers fs).2.elim []
          (fun next => served D script probe rest v next.1 next.2)

/-- What the loop of one disk comes to. -/
theorem promptLoop_served (D : Dirs σ) (smart : Smart) (drive : Text)
    (v : Vars) :
    ∀ (answers : List Text) (fs : σ),
      (servedBy D smart drive v answers fs = []
        ∧ formatCalls (promptLoop D smart drive v answers fs).1 = []
        ∧ ∀ next, (promptLoop D smart drive v answers fs).2 = some next →
          next.1 <:+ answers ∧ next.2 = fs)
      ∨ ∃ left p, left <:+ answers
        ∧ mountPrompt D v.drivemount left fs = some p
        ∧ servedBy D smart drive v answers fs
          = [⟨⟨drive, v.partition, drivename smart, p.mount⟩, fs, p⟩]
        ∧ formatCalls (promptLoop D smart drive v answers fs).1
          = [⟨drive, v.partition, drivename smart, p.mount⟩]
        ∧ (promptLoop D smart drive v answers fs).2
          = some (p.answers, p.fs) := by
  intro answers
  induction answers with
  | nil => intro fs; exact Or.inl ⟨rfl, rfl, by rintro _ ⟨⟩⟩
  | cons yn answers ih =>
      intro fs
      rw [servedBy, promptLoop]
      by_cases hyes : isYes yn = true
      · rw [if_pos hyes, if_pos hyes]
        cases hp : mountPrompt D v.drivemount answers fs with
        | none => exact Or.inl ⟨rfl, rfl, by rintro _ ⟨⟩⟩
        | some p =>
            exact Or.inr ⟨answers, p, List.suffix_cons yn answers, hp, rfl,
              rfl, rfl⟩
      · rw [if_neg hyes, if_neg hyes]
        by_cases hno : isNo yn = true
        · rw [if_pos hno, if_pos hno]
          refine Or.inl ⟨rfl, rfl, ?_⟩
          rintro next ⟨⟩
          exact ⟨List.suffix_cons yn answers, rfl⟩
        · -- asked again
          rw [if_neg hno, if_neg hno]
          rcases ih fs with ⟨hnone, hcalls, hnext⟩
            | ⟨left, p, hleft, hp, hone, hcalls, hnext⟩
          · refine Or.inl ⟨hnone, hcalls, fun next h => ?_⟩
            obtain ⟨hsuffix, hfs⟩ := hnext next h
            exact ⟨hsuffix.trans (List.suffix_cons yn answers), hfs⟩
          · exact Or.inr ⟨left, p,
              hleft.trans (List.suffix_cons yn answers), hp, hone, hcalls,
              hnext⟩

/-- The calls of `_format` are those for the disks served. -/
theorem served_calls (D : Dirs σ) (script : Script) (probe : Text → Smart) :
    ∀ (drives : List Text) (v : Vars) (answers : List Text) (fs : σ),
      formatCalls (mainLoop D script probe drives v answers fs).actions
        = (served D script probe drives v answers fs).map (·.call) := by
  intro drives
  induction drives with
  | nil => intro v answers fs; rfl
  | cons drive rest ih =>
      intro v answers fs
      have hone : formatCalls (promptLoop D (probe drive) drive
            (nameDrive script probe v drive) answers fs).1
          = (servedBy D (probe drive) drive (nameDrive script probe v drive)
            answers fs).map (·.call) := by
        rcases promptLoop_served D (probe drive) drive
            (nameDrive script probe v drive) answers fs
          with ⟨hnone, hcalls, -⟩ | ⟨left, p, -, -, hserved, hcalls, -⟩
        · rw [hnone, hcalls]
          rfl
        · rw [hserved, hcalls]
          rfl
      rw [mainLoop, served]
      rcases hloop : promptLoop D (probe drive) drive
        (nameDrive script probe v drive) answers fs with ⟨actions, next⟩
      rw [hloop] at hone
      cases next with
      | none => simpa using hone
      | some left =>
          show formatCalls (actions ++ _) = _
          rw [formatCalls, List.filterMap_append, List.map_append]
          exact congrArg₂ _ hone (ih _ left.1 left.2)

/-- Where a prompt of the run may begin: the answers still to come are single
    words none of which makes `placehold`, and the mount points so far are
    directories. -/
structure Ready (D : Dirs σ) (mounts answers : List Text) (fs : σ) : Prop where
  words : ∀ a ∈ answers, a.all plainChar = true
  spares : ∀ drivemount, IsDefault drivemount → ∀ a ∈ answers,
    illegal a = false → Spares D (corrected drivemount a)
  missing : D.isDir fs "placehold".toList = false
  mounted : ∀ m ∈ mounts, D.isDir fs m = true

theorem Ready.suffix {D : Dirs σ} {mounts answers left : List Text} {fs : σ}
    (h : Ready D mounts answers fs) (hleft : left <:+ answers) :
    Ready D mounts left fs where
  words := fun a ha => h.words a (hleft.subset ha)
  spares := fun drivemount hdefault a ha =>
    h.spares drivemount hdefault a (hleft.subset ha)
  missing := h.missing
  mounted := h.mounted

/-- The answers left are a tail of those that were there. -/
theorem suffix_stable (D : Dirs σ) (drivemount : Text) (answers : List Text) :
    Stable D drivemount (fun p => p.answers <:+ answers) where
  restart := fun _ _ hsuffix hp => hsuffix.trans hp
  path := fun p path left hans _ hp =>
    (hans ▸ List.suffix_cons path left : left <:+ p.answers).trans hp
  correct := fun _ hp => hp
  kept := fun _ _ hsuffix hp => hsuffix.trans hp
  make := fun p hp => by
    rw [makeDir_answers]
    exact hp

section Prompt

variable {D : Dirs σ} (hD : TestsAgree D) (hgrows : Grows D)
variable {drivemount : Text} (hdefault : IsDefault drivemount)

include hD hgrows hdefault

/-- **ONE PROMPT**: it ends well, with a path of one word, and the next may
    begin. -/
theorem mountPrompt_ready {mounts answers : List Text} {fs : σ}
    (h : Ready D mounts answers fs) {p : Prompt σ}
    (hp : mountPrompt D drivemount answers fs = some p) :
    Correct D fs p ∧ PlainPath p.mount
      ∧ Ready D (mounts ++ [p.mount]) p.answers p.fs := by
  have hstart : SetupMountPath.Clean (restart ⟨fs, answers, [], []⟩ answers) :=
    ⟨placehold_plain, h.words⟩
  have hentry : D.isDir fs "placehold".toList = true →
      Correct D fs (restart ⟨fs, answers, [], []⟩ answers) :=
    fun hdir => absurd (h.missing.symm.trans hdir) Bool.false_ne_true
  obtain ⟨hcalm, hcorrect⟩ :=
    (tries_of_spares hD hdefault fs (answers.length + 1) _
      ⟨⟨hstart, rfl⟩, h.missing, h.spares drivemount hdefault⟩ hentry).2 p hp
  have hsuffix : p.answers <:+ answers :=
    (suffix_stable D drivemount answers).mountUntil _ _ _ hp
      (List.suffix_refl answers)
  refine ⟨hcorrect, hcalm.underway.clean.mount, ?_⟩
  refine ⟨fun a ha => h.words a (hsuffix.subset ha), ?_, hcalm.missing, ?_⟩
  · exact fun dm hdm a ha => h.spares dm hdm a (hsuffix.subset ha)
  · intro m hm
    rcases List.mem_append.mp hm with hm | hm
    · -- the record explains the directories, and it only makes more
      rw [show p.fs = replay D fs p.events from hcalm.underway.traced]
      exact isDir_replay hgrows p.events fs (h.mounted m hm)
    · rw [List.mem_singleton.mp hm]
      exact hcorrect.is_dir

end Prompt

/-- The label of an arm with its counter. -/
theorem labelled_default (arm : SetupDriveNames.Arm) (counter : Option Nat) :
    IsDefault (labelled arm.label counter) := by
  have hlabel : IsDefault arm.label := by
    cases arm <;> exact ⟨by decide, List.all_eq_true.mp rfl⟩
  cases counter with
  | none => exact hlabel
  | some k =>
      refine ⟨fun h => hlabel.1 (List.append_eq_nil_iff.mp h).1, ?_⟩
      intro c hc
      rcases List.mem_append.mp hc with hc | hc
      · exact hlabel.2 c hc
      · have hdigit : c.isDigit = true :=
          Nat.isDigit_of_mem_toDigits (by decide) (by decide) hc
        rw [Char.isAlphanum, hdigit, Bool.or_true]

/-- `$drivemount` is a default from the first disk on that an arm names. -/
theorem nameDrive_default (script : Script) (probe : Text → Smart) {v : Vars}
    {drive : Text} (h : HasArm drive ∨ IsDefault v.drivemount) :
    IsDefault (nameDrive script probe v drive).drivemount := by
  by_cases harm : HasArm drive
  · rw [(SetupDriveNames.nameDrive_arm harm).1]
    exact labelled_default _ _
  · have hsd : ¬ "sd".toList <+: drive := fun h => harm (Or.inl h)
    have hnvme : ¬ "nvme".toList <+: drive :=
      fun h => harm (Or.inr (Or.inl h))
    have hhpt : ¬ "hpt".toList <+: drive := fun h => harm (Or.inr (Or.inr h))
    rw [nameDrive, nameHpt, if_neg hhpt, nameNvme, if_neg hnvme, nameSd,
      if_neg hsd]
    exact h.resolve_left harm

/-! ## The law -/

/-- A disk takes its place behind the others. -/
def place (mounts : List Text) (s : Served σ) : List Text :=
  mounts ++ [s.call.mount]

/-- What the prompt of a disk that is served can be relied on for. -/
structure Given (D : Dirs σ) (mounts : List Text) (s : Served σ) : Prop where
  mounted : ∀ m ∈ mounts, D.isDir s.dirs m = true
  correct : Correct D s.dirs s.prompt
  word : PlainPath s.prompt.mount
  mount : s.call.mount = s.prompt.mount

/-- The operator keeps a directory that is a mount point already. -/
def Doubles (D : Dirs σ) (mounts : List Text) (s : Served σ) : Prop :=
  .kept s.prompt.mount ∈ s.prompt.events
    ∧ ∃ m ∈ mounts, SamePlace D m s.prompt.mount

/-- **ONE DISK**: the places stay apart iff none of them is kept. -/
theorem apart_place_iff {D : Dirs σ} (hgrows : Grows D) {mounts : List Text}
    {s : Served σ} (hmounts : Apart D mounts) (h : Given D mounts s) :
    Apart D (place mounts s) ↔ ¬ Doubles D mounts s := by
  have hsplit : Apart D (place mounts s)
      ↔ ∀ m ∈ mounts, ¬ SamePlace D m s.prompt.mount := by
    rw [Apart, place, h.mount, List.pairwise_append]
    simp only [List.forall_mem_singleton, List.pairwise_singleton, true_and]
    exact and_iff_right hmounts
  rw [hsplit]
  constructor
  · rintro hapart ⟨-, m, hm, hsame⟩
    exact hapart m hm hsame
  · intro hkeeps m hm hsame
    have hdir : D.isDir s.dirs s.prompt.mount = true :=
      (hsame s.dirs).symm.trans (h.mounted m hm)
    rcases h.correct.made_or_kept with hmade | hkept
    · exact not_made_of_isDir hgrows hdir hmade
    · exact hkeeps ⟨hkept, m, hm, hsame⟩

/-- Two places that are one stay one. -/
theorem not_apart_place {D : Dirs σ} {mounts : List Text} {s : Served σ}
    (h : ¬ Apart D mounts) : ¬ Apart D (place mounts s) :=
  fun hafter => h (List.pairwise_append.mp hafter).1

section Starts

variable {D : Dirs σ} (hD : TestsAgree D) (hgrows : Grows D)

include hD hgrows

/-- **ONE START**: every disk it serves can be relied on. -/
theorem served_given (script : Script) (probe : Text → Smart) :
    ∀ (drives : List Text) (v : Vars) (mounts answers : List Text) (fs : σ),
      ((∀ d ∈ drives.head?, HasArm d) ∨ IsDefault v.drivemount) →
      Ready D mounts answers fs →
      AllSteps place (Given D) mounts
        (served D script probe drives v answers fs) := by
  intro drives
  induction drives with
  | nil => intro v mounts answers fs _ _; exact allSteps_nil
  | cons drive rest ih =>
      intro v mounts answers fs harm hready
      have hdefault : IsDefault (nameDrive script probe v drive).drivemount :=
        nameDrive_default script probe
          (harm.imp_left (fun h => h drive rfl))
      rw [served]
      rcases promptLoop_served D (probe drive) drive
          (nameDrive script probe v drive) answers fs
        with ⟨hnone, -, hnext⟩ | ⟨left, p, hleft, hp, hone, -, hnext⟩
      · rw [hnone, List.nil_append]
        cases hloop : (promptLoop D (probe drive) drive
            (nameDrive script probe v drive) answers fs).2 with
        | none => exact allSteps_nil
        | some next =>
            obtain ⟨hsuffix, hfs⟩ := hnext next hloop
            refine ih _ mounts next.1 next.2 (Or.inr hdefault) ?_
            rw [hfs]
            exact hready.suffix hsuffix
      · obtain ⟨hcorrect, hword, hafter⟩ :=
          mountPrompt_ready hD hgrows hdefault (hready.suffix hleft) hp
        rw [hone, hnext, List.singleton_append, allSteps_cons]
        refine ⟨⟨hready.mounted, hcorrect, hword, rfl⟩, ?_⟩
        exact ih _ _ p.answers p.fs (Or.inr hdefault) hafter

end Starts

/-- The mount points of a table. -/
def mountPoints (table : List FstabLine) : List Text :=
  table.filterMap (fun line =>
    match line with
    | .entry _ mount => some mount
    | _ => none)

/-- The disks a start of a script serves; none when the flag of `mount.sh` is
    there. -/
def servedIn (D : Dirs σ) (st : Disk) (r : Session σ) : List (Served σ) :=
  if r.script = .mount ∧ r.flagged st = true then []
  else served D r.script r.probe r.array
    (startVars r.script r.probe r.array) r.answers r.dirs

/-- Every call of `_format` adds its mount point. -/
theorem mountPoints_formats :
    ∀ (calls : List (FormatCall × Outcome)) (st : Disk),
      mountPoints (run formatStep st calls).fstab
        = mountPoints st.fstab ++ calls.map (·.1.mount) := by
  intro calls
  induction calls with
  | nil => intro st; exact (List.append_nil _).symm
  | cons c rest ih =>
      intro st
      have hone : mountPoints (formatStep st c).fstab
          = mountPoints st.fstab ++ [c.1.mount] :=
        List.filterMap_append
      rw [run_cons, ih, hone, List.map_cons, List.append_assoc]
      rfl

/-- Outcomes come and go, the mount points are those of the calls. -/
theorem mount_outcomes (calls : List FormatCall) :
    ∀ outcomes : Nat → Outcome,
      (calls.mapIdx (fun i c => (c, outcomes i))).map (·.1.mount)
        = calls.map (·.mount) := by
  induction calls with
  | nil => intro outcomes; rfl
  | cons c rest ih =>
      intro outcomes
      rw [List.mapIdx_cons, List.map_cons, ih (fun i => outcomes (i + 1))]
      rfl

theorem run_place (servings : List (Served σ)) (mounts : List Text) :
    run place mounts servings = mounts ++ servings.map (·.call.mount) := by
  induction servings generalizing mounts with
  | nil => exact (List.append_nil _).symm
  | cons s rest ih => rw [run_cons, ih, place, List.append_assoc]; rfl

/-- **THE TABLE**: a start adds the mount points of the disks it serves. -/
theorem mountPoints_runScript (D : Dirs σ) (st : Disk) (r : Session σ) :
    mountPoints (runScript D st r).fstab
      = run place (mountPoints st.fstab) (servedIn D st r) := by
  show mountPoints (run formatStep st (r.calls D st)).fstab = _
  rw [mountPoints_formats, run_place, Session.calls, servedIn]
  refine congrArg _ ?_
  split
  · rfl
  · rw [mount_outcomes, Session.main, mainRun, served_calls, List.map_map]
    rfl

/-! ## All starts -/

/-- What a start begins with: its first disk is one that an arm names, and its
    first prompt may begin. -/
structure Prepared (D : Dirs σ) (st : Disk) (r : Session σ) : Prop where
  named : ∀ d ∈ r.array.head?, HasArm d
  ready : Ready D (mountPoints st.fstab) r.answers r.dirs

/-- No prompt of the start keeps a directory that is a mount point already. -/
def Unshared (D : Dirs σ) (st : Disk) (r : Session σ) : Prop :=
  AllSteps place (fun mounts s => ¬ Doubles D mounts s)
    (mountPoints st.fstab) (servedIn D st r)

/-- Two entries of one place stay so. -/
theorem runScript_not_apart {D : Dirs σ} {st : Disk} {r : Session σ}
    (hst : ¬ Apart D (mountPoints st.fstab)) :
    ¬ Apart D (mountPoints (runScript D st r).fstab) := by
  rw [mountPoints_runScript]
  exact run_invariant (fun mounts => ¬ Apart D mounts)
    (fun _ _ hbad => not_apart_place hbad) _ _ hst

section Runs

variable {D : Dirs σ} (hD : TestsAgree D) (hgrows : Grows D)

include hD hgrows

/-- Every disk a start serves can be relied on. -/
theorem servedIn_given {st : Disk} {r : Session σ} (h : Prepared D st r) :
    AllSteps place (Given D) (mountPoints st.fstab) (servedIn D st r) := by
  rw [servedIn]
  split
  · exact allSteps_nil
  · exact served_given hD hgrows r.script r.probe r.array _ _ r.answers r.dirs
      (Or.inl h.named) h.ready

/-- **ONE START**: the places stay apart iff no prompt keeps a directory that is
    a mount point already. -/
theorem runScript_apart_iff (st : Disk) (r : Session σ)
    (hst : Apart D (mountPoints st.fstab)) (h : Prepared D st r) :
    Apart D (mountPoints (runScript D st r).fstab) ↔ Unshared D st r := by
  rw [mountPoints_runScript]
  exact run_good_iff (fun _ _ => apart_place_iff hgrows)
    (fun _ _ hbad _ => not_apart_place hbad) _ _ hst
    (servedIn_given hD hgrows h)

end Runs

/-- No answer is `Continue`. -/
def Refuses (answers : List Text) : Prop :=
  ∀ a ∈ answers, isContinue a = false

/-- Where no answer left keeps a directory, the continuation keeps none. -/
def KeepsNone (again : Prompt σ → Option (Prompt σ)) : Prop :=
  ∀ p q, again p = some q → Refuses p.answers →
    Refuses q.answers ∧ ∀ m, .kept m ∈ q.events → .kept m ∈ p.events

theorem Refuses.suffix {answers left : List Text} (h : Refuses answers)
    (hleft : left <:+ answers) : Refuses left :=
  fun a ha => h a (hleft.subset ha)

theorem kept_makeDir {D : Dirs σ} {p : Prompt σ} {m : Text}
    (h : .kept m ∈ (makeDir D p).events) : .kept m ∈ p.events := by
  rw [makeDir] at h
  split at h
  · rcases List.mem_append.mp h with h | h
    · exact h
    · cases List.mem_singleton.mp h
  · exact h

section Refusal

variable {D : Dirs σ} {drivemount : Text}
variable {again : Prompt σ → Option (Prompt σ)}

theorem KeepsNone.readPath (hagain : KeepsNone again) :
    KeepsNone (readPath again) := by
  intro p q h hp
  rcases readPath_cases h with ⟨path, answers, hans, -, rfl⟩
    | ⟨path, key, answers, hans, -, hq⟩
  · exact ⟨hp.suffix (hans ▸ List.suffix_cons path answers), fun _ h => h⟩
  · have hsuffix : answers <:+ p.answers :=
      hans ▸ List.suffix_append [path, key] answers
    exact hagain (restart p answers) q hq (hp.suffix hsuffix)

/-- Without a `Continue` the question keeps nothing. -/
theorem KeepsNone.keepOrRetry (hagain : KeepsNone again) :
    KeepsNone (keepOrRetry D again) := by
  intro p q h hp
  rcases keepOrRetry_cases h with ⟨retry, answers, hans, hcont, -⟩
    | ⟨retry, answers, r, hans, -, hr, hq⟩
  · have hretry : retry ∈ p.answers := hans ▸ List.mem_cons_self
    exact absurd (hcont.symm.trans (hp retry hretry)) Bool.noConfusion
  · obtain ⟨hleft, hkept⟩ := hagain _ _ hr
      (hp.suffix (hans ▸ List.suffix_cons retry answers))
    have hmake : Refuses (makeDir D r).answers := by
      rw [makeDir_answers]
      exact hleft
    obtain ⟨hend, hkept'⟩ := hagain _ _ hq hmake
    exact ⟨hend, fun m hm => hkept m (kept_makeDir (hkept' m hm))⟩

theorem KeepsNone.mountPass (hagain : KeepsNone again) :
    KeepsNone (mountPass D drivemount again) := by
  intro p q h hp
  rcases mountPass_cases h with ⟨-, rfl⟩ | ⟨-, r, hr, hq⟩
  · exact ⟨hp, fun _ h => h⟩
  · obtain ⟨hleft, hkept⟩ := hagain.readPath _ _ hr hp
    rcases hq with ⟨-, hq⟩ | ⟨-, hq⟩
    · obtain ⟨hend, hkept'⟩ := hagain.keepOrRetry _ _ hq hleft
      exact ⟨hend, fun m hm => hkept m (hkept' m hm)⟩
    · have hmake : Refuses (makeDir D (correct drivemount r)).answers := by
        rw [makeDir_answers]
        exact hleft
      obtain ⟨hend, hkept'⟩ := hagain _ _ hq hmake
      refine ⟨hend, fun m hm => hkept m ?_⟩
      have hcorrect : .kept m ∈ (correct drivemount r).events :=
        kept_makeDir (hkept' m hm)
      exact hcorrect

/-- **NO KEEPING**: where no answer is `Continue` no directory is kept. -/
theorem mountUntil_keepsNone (fuel : Nat) :
    KeepsNone (mountUntil D drivemount fuel) := by
  induction fuel with
  | zero => intro p q h; exact nomatch h
  | succ fuel ih => exact ih.mountPass

end Refusal

/-- No disk a start serves has a directory kept for it. -/
theorem served_keepsNone (D : Dirs σ) (script : Script)
    (probe : Text → Smart) :
    ∀ (drives : List Text) (v : Vars) (answers : List Text) (fs : σ),
      Refuses answers →
      ∀ s ∈ served D script probe drives v answers fs, ∀ m,
        .kept m ∉ s.prompt.events := by
  intro drives
  induction drives with
  | nil => intro v answers fs _ s hs; exact nomatch hs
  | cons drive rest ih =>
      intro v answers fs hrefuses s hs
      rw [served] at hs
      rcases promptLoop_served D (probe drive) drive
          (nameDrive script probe v drive) answers fs
        with ⟨hnone, -, hnext⟩ | ⟨left, p, hleft, hp, hone, -, hnext⟩
      · rw [hnone, List.nil_append] at hs
        cases hloop : (promptLoop D (probe drive) drive
            (nameDrive script probe v drive) answers fs).2 with
        | none => rw [hloop] at hs; exact nomatch hs
        | some next =>
            rw [hloop] at hs
            exact ih _ _ _ (hrefuses.suffix (hnext next hloop).1) s hs
      · obtain ⟨hend, hkept⟩ :=
          mountUntil_keepsNone _ _ _ hp (hrefuses.suffix hleft)
        rw [hone, hnext, List.singleton_append] at hs
        rcases List.mem_cons.mp hs with rfl | hs
        · exact fun m hm => nomatch hkept m hm
        · exact ih _ _ _ hend s hs

/-- A start without a `Continue` shares no place. -/
theorem unshared_of_refuses {D : Dirs σ} {st : Disk} {r : Session σ}
    (h : Refuses r.answers) : Unshared D st r := by
  intro w hw hdoubles
  have hs : w.2 ∈ servedIn D st r := mem_of_mem_visits _ _ hw
  rw [servedIn] at hs
  split at hs
  · exact nomatch hs
  · exact served_keepsNone D r.script r.probe r.array _ r.answers r.dirs h
      w.2 hs _ hdoubles.1

def twoDisks (answers : List Text) : Session (List Text) where
  script := .standalone
  unflag := false
  probe := fun _ => ⟨[], [], [], [], [], [], []⟩
  array := ["sda".toList, "sdb".toList]
  answers := answers
  dirs := ["/".toList, "/root".toList]
  outcome := fun _ => ⟨fun _ => false, .made "u1".toList, true⟩

/-- The default path, the same path again, and one that is not there. -/
def anotherTry : List Text :=
  ["Y".toList, [], "Y".toList, "/ssd".toList, "retry".toList, "/data".toList]

/-- The correction leaves a path alone, puts a slash in front, or takes the
    default. -/
theorem corrected_cases (drivemount path : Text) :
    corrected drivemount path = path
      ∨ corrected drivemount path = '/' :: path
      ∨ corrected drivemount path = '/' :: drivemount := by
  simp only [corrected]
  split_ifs
  · exact Or.inr (Or.inr rfl)
  · exact Or.inl rfl
  · exact Or.inr (Or.inr rfl)
  · exact Or.inr (Or.inl rfl)

/-- The prompt of the two disks may begin with these answers. -/
theorem anotherTry_ready :
    Ready (listedDirs "/root".toList) [] anotherTry
      ["/".toList, "/root".toList] where
  words := List.all_eq_true.mp rfl
  spares := by
    intro drivemount hdefault a ha _
    have hpath : ∀ a ∈ anotherTry,
        resolve "/root".toList a ≠ "/root/placehold".toList
          ∧ '/' :: a ≠ "/root/placehold".toList := by decide
    refine listedDirs_spares ?_
    show resolve _ (corrected drivemount a) ≠ "/root/placehold".toList
    rcases corrected_cases drivemount a with h | h | h
    · rw [h]
      exact (hpath a ha).1
    · rw [h]
      exact (hpath a ha).2
    · -- a default has no second slash
      rw [h]
      intro heq
      have hslash : '/' ∈ drivemount := by
        rw [(List.cons.inj heq).2]
        decide
      exact absurd (hdefault.2 '/' hslash) (by decide)
  missing := rfl
  mounted := fun _ hm => nomatch hm

/-- In the list of paths `mkdir` takes nothing away. -/
theorem listedDirs_grows (cwd : Text) : Grows (listedDirs cwd) := by
  intro dirs made path h
  simp only [listedDirs] at h ⊢
  split
  · exact h
  · split
    · rw [List.contains_iff_mem] at h ⊢
      exact List.mem_append_left _ h
    · exact h

theorem twoDisks_prepared {st : Disk} (hst : mountPoints st.fstab = []) :
    AllSteps (runScript (listedDirs "/root".toList))
      (Prepared (listedDirs "/root".toList)) st [twoDisks anotherTry] := by
  refine allSteps_cons.mpr ⟨⟨?_, hst ▸ anotherTry_ready⟩, allSteps_nil⟩
  rintro d ⟨⟩
  exact Or.inl (by decide)

/-- With `Continue` both are mounted on the one directory. -/
example : mountPoints (run (runScript (listedDirs "/root".toList)) blankDisk
    [twoDisks ["Y".toList, [], "Y".toList, "/ssd".toList,
      "Continue".toList]]).fstab = ["/ssd".toList, "/ssd".toList] := rfl

/-! ## The text of the table -/

/-- Text that is in one piece wherever it is read. -/
def NoBlank (t : Text) : Prop := ∀ c ∈ t, isBlank c = false

/-- A line as it stands in the file. -/
def lineText : FstabLine → Text
  | .other text => text
  | .comment drivename drive =>
      '#' :: (drivename ++ " - /dev/".toList ++ drive
        ++ " - added by Puget Systems".toList)
  | .entry uuid mount =>
      ("UUID=".toList ++ uuid) ++ ' ' :: (mount
        ++ ' ' :: "ext4 defaults 0 0".toList)

/-- The text of the file, whatever it was before, behind `tee -a` of these
    lines. -/
def tableText (old : Text) (added : List FstabLine) : Text :=
  old ++ unlines (added.map lineText)

/-- What `fstab(5)` makes of a line: its fields, or nothing when it is blank or
    begins with `#`. -/
def entryOf (line : Text) : Option (List Text) :=
  match splitWords line with
  | [] => none
  | word :: words =>
      if word.head? = some '#' then none else some (word :: words)

/-- The entries of a file. -/
def readTable (text : Text) : List (List Text) :=
  (fileLines text).filterMap entryOf

/-- The entry a line is meant to be. -/
def fields : FstabLine → Option (List Text)
  | .other text => entryOf text
  | .comment _ _ => none
  | .entry uuid mount =>
      some ["UUID=".toList ++ uuid, mount, "ext4".toList, "defaults".toList,
        "0".toList, "0".toList]

/-- What keeps a line in one piece, and its fields apart. -/
def Written : FstabLine → Prop
  | .other text => '\n' ∉ text
  | .comment drivename drive => '\n' ∉ drivename ∧ '\n' ∉ drive
  | .entry uuid mount => NoBlank uuid ∧ IsWord mount

theorem noBlank_of_all {t : Text} (h : (t.all fun c => !isBlank c) = true) :
    NoBlank t := by
  intro c hc
  simpa using List.all_eq_true.mp h c hc

theorem NoBlank.no_newline {t : Text} (h : NoBlank t) : '\n' ∉ t :=
  fun hmem => nomatch h '\n' hmem

/-- A line that is written is one line. -/
theorem Written.no_newline {line : FstabLine} (h : Written line) :
    '\n' ∉ lineText line := by
  cases line with
  | other text => exact h
  | comment drivename drive =>
      simp only [lineText, List.mem_cons, List.mem_append, not_or]
      exact ⟨by decide, ⟨⟨h.1, by decide⟩, h.2⟩, by decide⟩
  | entry uuid mount =>
      simp only [lineText, List.mem_cons, List.mem_append, not_or]
      exact ⟨⟨by decide, h.1.no_newline⟩, by decide,
        NoBlank.no_newline h.2.2, by decide⟩

/-- **ONE LINE**: it is read as the entry it is meant to be. -/
theorem entryOf_lineText {line : FstabLine} (h : Written line) :
    entryOf (lineText line) = fields line := by
  cases line with
  | other text => rfl
  | comment drivename drive =>
      -- the `#` begins the first word, whatever follows
      obtain ⟨word, words, hwords, -⟩ := @splitWords_cons '#' rfl
        (drivename ++ " - /dev/".toList ++ drive
          ++ " - added by Puget Systems".toList)
      rw [entryOf, lineText, hwords]
      rfl
  | entry uuid mount =>
      have hid : IsWord ("UUID=".toList ++ uuid) := by
        refine ⟨List.cons_ne_nil _ _, ?_⟩
        intro c hc
        rcases List.mem_append.mp hc with hc | hc
        · exact noBlank_of_all rfl c hc
        · exact h.1 c hc
      have hends : ∀ rest : Text, EndsWord (' ' :: rest) := by
        rintro rest c ⟨⟩
        rfl
      have hsplit : splitWords (lineText (.entry uuid mount))
          = ("UUID=".toList ++ uuid) :: mount
            :: splitWords (' ' :: "ext4 defaults 0 0".toList) := by
        rw [lineText, splitWords_word hid (hends _), splitWords_blank rfl,
          splitWords_word h.2 (hends _)]
      rw [entryOf, hsplit]
      rfl

/-- Nothing is read of a line iff its first character that is no blank, if
    there is one, is a `#`. -/
theorem entryOf_eq_none_iff (line : Text) :
    entryOf line = none
      ↔ ∀ c ∈ (line.filter (fun c => !isBlank c)).head?, c = '#' := by
  induction line with
  | nil => exact iff_of_true rfl (by rintro c ⟨⟩)
  | cons c cs ih =>
      by_cases hc : isBlank c = true
      · rw [List.filter_cons_of_neg (by simp [hc]), ← ih, entryOf, entryOf,
          splitWords_blank hc]
      · obtain ⟨word, words, hwords, -⟩ :=
          splitWords_cons (Bool.eq_false_iff.mpr hc) cs
        rw [List.filter_cons_of_pos (by simp [hc]), entryOf, hwords]
        simp

/-- The fields of an entry are its words. -/
theorem words_of_entryOf {line : Text} {entry : List Text}
    (h : entryOf line = some entry) : splitWords line = entry := by
  rw [entryOf] at h
  cases hwords : splitWords line with
  | nil =>
      rw [hwords] at h
      exact nomatch h
  | cons word words =>
      rw [hwords] at h
      simp only at h
      split at h
      · exact nomatch h
      · exact Option.some.inj h

/-- A comment behind an unfinished line changes it iff it is an entry. -/
theorem entryOf_glued_iff (last comment : Text) :
    entryOf (last ++ '#' :: comment) = entryOf last ↔ entryOf last = none := by
  constructor
  · intro h
    cases hlast : entryOf last with
    | none => rfl
    | some entry =>
        rw [hlast] at h
        have hwords := (words_of_entryOf h).trans (words_of_entryOf hlast).symm
        have hletters := congrArg (fun ws => (List.flatten ws).length) hwords
        simp only [flatten_splitWords, List.filter_append,
          List.length_append] at hletters
        rw [List.filter_cons_of_pos (by decide), List.length_cons] at hletters
        omega
  · intro h
    rw [h]
    rw [entryOf_eq_none_iff] at h ⊢
    rw [List.filter_append, List.filter_cons_of_pos (by decide)]
    cases hletters : last.filter (fun c => !isBlank c) with
    | nil =>
        rintro c ⟨⟩
        rfl
    | cons c cs =>
        rw [hletters] at h
        exact h

/-- The lines that are written are read as their fields. -/
theorem filterMap_entryOf {table : List FstabLine}
    (h : ∀ line ∈ table, Written line) :
    (table.map lineText).filterMap entryOf = table.filterMap fields := by
  rw [List.filterMap_map]
  exact List.filterMap_congr (fun line hline => entryOf_lineText (h line hline))

/-- The lines that are appended are in one piece, and the first of them is a
    comment. -/
structure Appended (added : List FstabLine) : Prop where
  written : ∀ line ∈ added, Written line
  first : ∀ line ∈ added.head?, ∃ drivename drive, line = .comment drivename drive

/-- The lines that are written hold no newline. -/
theorem no_newline_lineText {lines : List FstabLine}
    (h : ∀ line ∈ lines, Written line) :
    ∀ l ∈ lines.map lineText, '\n' ∉ l := by
  intro l hl
  obtain ⟨line, hline, rfl⟩ := List.mem_map.mp hl
  exact (h line hline).no_newline

/-- Behind a complete table the lines are read one by one. -/
theorem readTable_complete {added : List FstabLine}
    (h : ∀ line ∈ added, Written line) {old : Text} (hold : Complete old) :
    readTable (tableText old added)
      = readTable old ++ added.filterMap fields := by
  rw [readTable, tableText, fileLines_append hold, List.filterMap_append,
    fileLines_unlines (no_newline_lineText h), filterMap_entryOf h]
  rfl

/-- What the table is read as when its last line is unfinished. -/
theorem readTable_open {front last : Text} (hfront : Complete front)
    (hne : last ≠ []) (hnl : '\n' ∉ last) :
    readTable (front ++ last)
      = (fileLines front).filterMap entryOf ++ (entryOf last).toList := by
  rw [readTable, fileLines_append hfront, fileLines_of_line hne hnl,
    List.filterMap_append, List.filterMap_cons]
  cases entryOf last <;> rfl

/-- Behind an unfinished line the first comment goes on where that line has
    stopped; the other lines are read one by one. -/
theorem readTable_glued {front last comment : Text} {drivename drive : Text}
    {rest : List FstabLine} (hfront : Complete front) (hnl : '\n' ∉ last)
    (hcomment : lineText (.comment drivename drive) = '#' :: comment)
    (hwritten : Written (.comment drivename drive))
    (hrest : ∀ line ∈ rest, Written line) :
    readTable (tableText (front ++ last) (.comment drivename drive :: rest))
      = (fileLines front).filterMap entryOf
        ++ ((entryOf (last ++ '#' :: comment)).toList
          ++ rest.filterMap fields) := by
  have hglued : '\n' ∉ last ++ '#' :: comment := by
    rw [List.mem_append, not_or, ← hcomment]
    exact ⟨hnl, hwritten.no_newline⟩
  have htext : tableText (front ++ last) (.comment drivename drive :: rest)
      = front ++ unlines ((last ++ '#' :: comment) :: rest.map lineText) := by
    simp only [tableText, unlines, List.map_cons, List.flatMap_cons,
      hcomment, List.append_assoc]
  have hlines : fileLines (unlines ((last ++ '#' :: comment)
      :: rest.map lineText)) = (last ++ '#' :: comment) :: rest.map lineText :=
    fileLines_unlines
      (List.forall_mem_cons.mpr ⟨hglued, no_newline_lineText hrest⟩)
  rw [htext, readTable, fileLines_append hfront, hlines,
    List.filterMap_append, List.filterMap_cons, filterMap_entryOf hrest]
  cases entryOf (last ++ '#' :: comment) <;> rfl

/-- **READ BACK**: the lines that are appended are read as the entries they are
    meant to be; the entries of before are left as they were iff no unfinished
    one gets the first comment. -/
theorem readTable_tableText {added : List FstabLine} (h : Appended added)
    (old : Text) :
    added.filterMap fields <:+ readTable (tableText old added)
      ∧ (readTable (tableText old added)
          = readTable old ++ added.filterMap fields
        ↔ Complete old ∨ added = []
          ∨ ∀ line ∈ (fileLines old).getLast?, entryOf line = none) := by
  by_cases hold : Complete old
  · have hall := readTable_complete h.written hold
    exact ⟨hall ▸ List.suffix_append _ _, iff_of_true hall (Or.inl hold)⟩
  · obtain ⟨front, last, rfl, hfront, hne, hnl⟩ := exists_open_line hold
    have hlast : fileLines (front ++ last) = fileLines front ++ [last] := by
      rw [fileLines_append hfront, fileLines_of_line hne hnl]
    rw [or_iff_right hold, hlast, List.getLast?_concat]
    cases added with
    | nil =>
        refine ⟨List.nil_suffix, iff_of_true ?_ (Or.inl rfl)⟩
        rw [tableText, List.map_nil, show unlines [] = [] from rfl,
          List.append_nil, List.filterMap_nil, List.append_nil]
    | cons line rest =>
        obtain ⟨drivename, drive, rfl⟩ := h.first line rfl
        obtain ⟨hwritten, hrest⟩ := List.forall_mem_cons.mp h.written
        have hfields : (FstabLine.comment drivename drive :: rest).filterMap
            fields = rest.filterMap fields := rfl
        obtain ⟨comment, hcomment⟩ :
            ∃ t, lineText (.comment drivename drive) = '#' :: t := ⟨_, rfl⟩
        rw [hfields, readTable_glued hfront hnl hcomment hwritten hrest,
          readTable_open hfront hne hnl, List.append_assoc]
        refine ⟨(List.suffix_append _ _).trans (List.suffix_append _ _), ?_⟩
        have hsame : ∀ o o' : Option (List Text),
            o.toList = o'.toList ↔ o = o' := by
          intro o o'
          cases o <;> cases o' <;> simp
        rw [List.append_cancel_left_eq, List.append_cancel_right_eq, hsame,
          entryOf_glued_iff, or_iff_right (List.cons_ne_nil _ _)]
        simp

/-! ## The text after all starts -/

/-- Lines in one piece have been appended to the table, and every UUID that
    `blkid` prints is in one piece. -/
structure Legible (before : List FstabLine) (st : Disk) : Prop where
  lines : ∃ added, st.fstab = before ++ added ∧ Appended added
  uuids : ∀ device uuid, st.fs device = some uuid → NoBlank uuid

/-- What `smartctl`, `lsblk`, `mkfs` and the prompt are relied on for. -/
structure Writes (c : FormatCall × Outcome) : Prop where
  mount : IsWord c.1.mount
  drivename : '\n' ∉ c.1.drivename
  drive : '\n' ∉ c.1.drive
  uuid : ∀ uuid, c.2.mkfs = .made uuid → NoBlank uuid

/-- **ONE CALL** writes what is read back. -/
theorem legible_formatStep {before : List FstabLine} {st : Disk}
    {c : FormatCall × Outcome} (h : Legible before st) (hc : Writes c) :
    Legible before (formatStep st c) := by
  have huuids : ∀ device uuid, fsAfter st c device = some uuid →
      NoBlank uuid := by
    intro device uuid hfs
    rcases fsAfter_eq_some.mp hfs with ⟨-, hmade⟩ | ⟨hold, -⟩
    · exact hc.uuid uuid hmade
    · exact h.uuids device uuid hold
  obtain ⟨added, hadded, hall⟩ := h.lines
  refine ⟨⟨added ++ [.comment c.1.drivename c.1.drive,
    .entry (blkid c.1.partition c.2.blkid (fsAfter st c)) c.1.mount],
    ?_, ?_, ?_⟩, huuids⟩
  · show st.fstab ++ _ = _
    rw [hadded, List.append_assoc]
    rfl
  · intro line hline
    rcases List.mem_append.mp hline with hline | hline
    · exact hall.written line hline
    · rcases List.mem_cons.mp hline with rfl | hline
      · exact ⟨hc.drivename, hc.drive⟩
      · rw [List.mem_singleton.mp hline]
        refine ⟨?_, hc.mount⟩
        rw [blkid]
        split
        · cases hfs : fsAfter st c c.1.partition with
          | none => exact List.forall_mem_nil _
          | some uuid => exact huuids _ uuid hfs
        · exact List.forall_mem_nil _
  · -- the first line is the one of the first call
    intro line hline
    cases added with
    | nil => exact ⟨_, _, (Option.some.inj hline).symm⟩
    | cons first rest => exact hall.first line hline

/-- What the commands of a start print is in one piece. -/
structure PlainOutput (r : Session σ) : Prop where
  drives : ∀ d ∈ r.array, '\n' ∉ d ∧ '\n' ∉ drivename (r.probe d)
  uuids : ∀ i uuid, (r.outcome i).mkfs = .made uuid → NoBlank uuid

/-- A disk that is served is one of the array's, under its own name. -/
theorem served_drive (D : Dirs σ) (script : Script) (probe : Text → Smart) :
    ∀ (drives : List Text) (v : Vars) (answers : List Text) (fs : σ),
      ∀ s ∈ served D script probe drives v answers fs,
        s.call.drive ∈ drives
          ∧ s.call.drivename = drivename (probe s.call.drive) := by
  intro drives
  induction drives with
  | nil => intro v answers fs s hs; exact nomatch hs
  | cons drive rest ih =>
      intro v answers fs s hs
      have hrest : ∀ next : List Text × σ,
          s ∈ served D script probe rest (nameDrive script probe v drive)
              next.1 next.2 →
            s.call.drive ∈ drive :: rest
              ∧ s.call.drivename = drivename (probe s.call.drive) :=
        fun next hs => (ih _ _ _ s hs).imp_left (List.mem_cons_of_mem _)
      rw [served] at hs
      rcases promptLoop_served D (probe drive) drive
          (nameDrive script probe v drive) answers fs
        with ⟨hnone, -, -⟩ | ⟨left, p, -, -, hone, -, hnext⟩
      · rw [hnone, List.nil_append] at hs
        cases hloop : (promptLoop D (probe drive) drive
            (nameDrive script probe v drive) answers fs).2 with
        | none => rw [hloop] at hs; exact nomatch hs
        | some next => rw [hloop] at hs; exact hrest next hs
      · rw [hone, hnext, List.singleton_append] at hs
        rcases List.mem_cons.mp hs with rfl | hs
        · exact ⟨List.mem_cons_self, rfl⟩
        · exact hrest (p.answers, p.fs) hs

/-- A call of a start is that for a disk it serves, with one of the start's
    outcomes. -/
theorem calls_served {D : Dirs σ} {st : Disk} {r : Session σ}
    {c : FormatCall × Outcome} (h : c ∈ r.calls D st) :
    (∃ s ∈ servedIn D st r, s.call = c.1) ∧ ∃ i, c.2 = r.outcome i := by
  rw [Session.calls] at h
  rw [servedIn]
  split at h
  · exact nomatch h
  · next hflag =>
      rw [if_neg hflag]
      rw [Session.main, mainRun, served_calls] at h
      obtain ⟨i, hi, rfl⟩ := List.mem_mapIdx.mp h
      refine ⟨?_, i, rfl⟩
      exact List.mem_map.mp (List.getElem_mem hi)

section Reading

variable {D : Dirs σ} (hD : TestsAgree D) (hgrows : Grows D)

include hD hgrows

/-- Every call of a start writes lines of one piece. -/
theorem calls_write {st : Disk} {r : Session σ} (h : Prepared D st r)
    (hplain : PlainOutput r) : ∀ c ∈ r.calls D st, Writes c := by
  intro c hc
  obtain ⟨⟨s, hs, hcall⟩, i, hi⟩ := calls_served hc
  have hvisit : ∃ mounts,
      (mounts, s) ∈ visits place (mountPoints st.fstab) (servedIn D st r) :=
    exists_visit _ _ hs
  obtain ⟨mounts, hvisit⟩ := hvisit
  have hgiven : Given D mounts s := servedIn_given hD hgrows h _ hvisit
  have hdrive : s.call.drive ∈ r.array
      ∧ s.call.drivename = drivename (r.probe s.call.drive) := by
    rw [servedIn] at hs
    split at hs
    · exact nomatch hs
    · exact served_drive D r.script r.probe r.array _ _ _ s hs
  have hmount : c.1.mount = s.prompt.mount := by
    rw [← hcall]
    exact hgiven.mount
  rw [hcall] at hdrive
  obtain ⟨hname, hmodel⟩ := hplain.drives _ hdrive.1
  refine ⟨?_, ?_, hname, fun uuid hmade => hplain.uuids i uuid (hi ▸ hmade)⟩
  · rw [hmount]
    refine ⟨Absolute.ne_nil ⟨hgiven.correct.slash, hgiven.correct.not_root⟩, ?_⟩
    intro x hx
    exact isBlank_eq_false (by decide)
      (List.all_eq_true.mp hgiven.word.2 x hx)
  · rw [hdrive.2]
    exact hmodel

/-- **ONE START**: the table stays legible. -/
theorem legible_runScript {before : List FstabLine} {st : Disk}
    {r : Session σ} (hst : Legible before st) (h : Prepared D st r)
    (hplain : PlainOutput r) : Legible before (runScript D st r) := by
  have hcalls : AllSteps formatStep (fun _ c => Writes c) st (r.calls D st) :=
    fun w hw => calls_write hD hgrows h hplain w.2 (mem_of_mem_visits _ _ hw)
  have hrun : Legible before (run formatStep st (r.calls D st)) :=
    run_preserves (Legible before) (fun _ _ hs hc => legible_formatStep hs hc) _ st hst
      hcalls
  exact ⟨hrun.lines, hrun.uuids⟩

end Reading

/-- **READ BACK AFTER ALL STARTS**: whatever the disks, the answers and the
    formats come to, the text of `/etc/fstab`, read field by field, ends with
    one entry of six fields for every entry `_format` has appended; in front of
    them are the entries of before iff the old text ends its last line, or
    nothing is appended, or that line is no entry. -/
theorem table_reads (D : Dirs σ) (hD : TestsAgree D) (hgrows : Grows D)
    (st : Disk) (sessions : List (Session σ)) {old : Text}
    (hold : fileLines old = st.fstab.map lineText)
    (huuids : ∀ device uuid, st.fs device = some uuid → NoBlank uuid)
    (hprepared : AllSteps (runScript D) (Prepared D) st sessions)
    (hplain : ∀ r ∈ sessions, PlainOutput r) :
    ∃ added, (run (runScript D) st sessions).fstab = st.fstab ++ added
      ∧ added.filterMap fields <:+ readTable (tableText old added)
      ∧ (readTable (tableText old added)
          = readTable old ++ added.filterMap fields
        ↔ Complete old ∨ added = []
          ∨ ∀ line ∈ st.fstab.getLast?, entryOf (lineText line) = none) := by
  have hboth : AllSteps (runScript D)
      (fun s r => Prepared D s r ∧ PlainOutput r) st sessions :=
    fun w hw => ⟨hprepared w hw, hplain w.2 (mem_of_mem_visits _ _ hw)⟩
  have hnone : Appended [] := ⟨List.forall_mem_nil _, by rintro line ⟨⟩⟩
  have hstart : Legible st.fstab st :=
    ⟨⟨[], (List.append_nil _).symm, hnone⟩, huuids⟩
  have hafter : Legible st.fstab (run (runScript D) st sessions) :=
    run_preserves (Legible st.fstab)
      (fun _ _ hs h => legible_runScript hD hgrows hs h.1 h.2) sessions st
      hstart hboth
  obtain ⟨added, hadded, happended⟩ := hafter.lines
  obtain ⟨hends, hexact⟩ := readTable_tableText happended old
  refine ⟨added, hadded, hends, hexact.trans ?_⟩
  rw [hold, List.getLast?_map]
  simp

/-- The root file system is in the table, without a newline. -/
def rootEntry : Text := "UUID=a0 / ext4 defaults 0 1".toList

def rootDisk : Disk := ⟨fun _ => none, [.other rootEntry], false⟩

/-- The first comment is glued to the root entry, whose line is not ended. -/
theorem table_reads_twoDisks :
    ∃ added, (run (runScript (listedDirs "/root".toList)) rootDisk
        [twoDisks anotherTry]).fstab = rootDisk.fstab ++ added
      ∧ added.filterMap fields <:+ readTable (tableText rootEntry added)
      ∧ (readTable (tableText rootEntry added)
          = readTable rootEntry ++ added.filterMap fields
        ↔ Complete rootEntry ∨ added = []
          ∨ ∀ line ∈ rootDisk.fstab.getLast?, entryOf (lineText line) = none) := by
  refine table_reads (listedDirs "/root".toList) (listedDirs_testsAgree _)
    (listedDirs_grows _) rootDisk [twoDisks anotherTry] rfl
    (fun _ _ h => nomatch h) (twoDisks_prepared rfl)
    (List.forall_mem_singleton.mpr ⟨?_, ?_⟩)
  · intro d hd
    rcases List.mem_cons.mp hd with rfl | hd
    · exact ⟨by decide, by decide⟩
    · rw [List.mem_singleton.mp hd]
      exact ⟨by decide, by decide⟩
  · rintro i uuid ⟨⟩
    exact noBlank_of_all rfl

end SetupBootTable
