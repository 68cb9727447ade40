import InstallLinux.SetupMountPromptProofs
import Mathlib.Data.List.DropRight

/-! # The mount path — what a finished prompt leaves in `$mount`

    The prompt should end with a path that begins with a slash, holds no
    rejected character, is a directory, and was made by the call or kept by
    the operator.  A nested call that ends for an illegal path goes through
    the correction again; one that was opened for another try does not, and
    it ends at once, with `placehold`, when that is a directory by then.

    * `Stable.mountUntil`: what every step of a pass keeps, the prompt keeps;
    * `correct_of_tries`: the prompt ends well while no further try begins
      with `placehold` a directory (`tries` collects where they begin);
    * `tries_of_spares`: none does unless the operator enters the path;
    * `placehold_of_try`: one that does puts an end to the whole prompt;
    * `mount_correct_iff`: all together. -/

namespace SetupMountPath

open ShellText SetupMountPrompt

variable {σ : Type}

/-! ## Plain paths -/

/-- A character that neither ends a word nor begins a glob.  The glob `*` is
    one of the characters that `_mount` rejects. -/
def plainChar (c : Char) : Bool :=
  !isBlank c && c != '?' && c != '['

/-- A text that is one word when expanded, and that `_mount` does not
    reject. -/
def PlainPath (path : Text) : Prop :=
  illegal path = false ∧ path.all plainChar = true

/-- On one word the two tests are opposite. -/
def TestsAgree (D : Dirs σ) : Prop :=
  ∀ fs path, path ≠ [] → PlainPath path → D.notDir fs path = !D.isDir fs path

/-- A default made of letters and digits. -/
def IsDefault (drivemount : Text) : Prop :=
  drivemount ≠ [] ∧ ∀ c ∈ drivemount, c.isAlphanum = true

/-- What `correct` makes of `$mount`. -/
def corrected (drivemount path : Text) : Text :=
  let mount := if path.head? = some '/' then path else '/' :: path
  if mount = ['/'] then '/' :: drivemount else mount

/-- The path begins with a slash and is more than that. -/
def Absolute (path : Text) : Prop :=
  path.head? = some '/' ∧ path ≠ ['/']

/-! ## What the record says -/

/-- The file system after the recorded events. -/
def replay (D : Dirs σ) (fs : σ) (events : List PathEvent) : σ :=
  events.foldl (fun fs event =>
    match event with
    | .made path => D.mkdir fs path
    | .kept _ => fs) fs

/-- One of the recorded `mkdir`s made the path a directory. -/
def Made (D : Dirs σ) (fs : σ) (events : List PathEvent) (path : Text) :
    Prop :=
  ∃ before after, events = before ++ .made path :: after
    ∧ D.isDir (replay D fs before) path = false
    ∧ D.isDir (D.mkdir (replay D fs before) path) path = true

/-- What `$mount` should be when `_mount`, called on `fs`, returns. -/
structure Correct (D : Dirs σ) (fs : σ) (p : Prompt σ) : Prop where
  slash : p.mount.head? = some '/'
  not_root : p.mount ≠ ['/']
  legal : illegal p.mount = false
  is_dir : D.isDir p.fs p.mount = true
  made_or_kept : Made D fs p.events p.mount ∨ .kept p.mount ∈ p.events

/-- The calls that follow on the question about an existing directory. -/
def askedTries (D : Dirs σ) (again : Prompt σ → Option (Prompt σ))
    (tries : Prompt σ → List (Prompt σ)) (p : Prompt σ) : List (Prompt σ) :=
  match p.answers with
  | [] => []
  | retry :: answers =>
      if isContinue retry then []
      else
        restart p answers :: (tries (restart p answers)
          ++ (again (restart p answers)).elim [] (fun q => tries (makeDir D q)))

/-- The same along `mountPass`; what an illegal path opens is left out. -/
def passTries (D : Dirs σ) (drivemount : Text)
    (again : Prompt σ → Option (Prompt σ))
    (tries : Prompt σ → List (Prompt σ)) (p : Prompt σ) : List (Prompt σ) :=
  if D.isDir p.fs p.mount then []
  else
    (readPath again p).elim [] (fun q =>
      let q := correct drivemount q
      if D.isDir q.fs q.mount then askedTries D again tries q
      else tries (makeDir D q))

/-- Where the calls for another try begin, along `mountUntil`. -/
def tries (D : Dirs σ) (drivemount : Text) : Nat → Prompt σ → List (Prompt σ)
  | 0, _ => []
  | fuel + 1, p =>
      passTries D drivemount (mountUntil D drivemount fuel)
        (tries D drivemount fuel) p

/-- Where the calls for another try begin in `_mount`, those inside a call
    opened for an illegal path left out. -/
def mountTries (D : Dirs σ) (drivemount : Text) (answers : List Text)
    (fs : σ) : List (Prompt σ) :=
  tries D drivemount (answers.length + 1)
    (restart ⟨fs, answers, [], []⟩ answers)

/-! ## Invariants of the recursion -/

/-- A property that every step of a pass keeps. -/
structure Stable (D : Dirs σ) (drivemount : Text) (I : Prompt σ → Prop) :
    Prop where
  restart : ∀ p answers, answers <:+ p.answers → I p → I (restart p answers)
  path : ∀ p path answers, p.answers = path :: answers →
    illegal path = false → I p →
    I { p with answers := answers, mount := path }
  correct : ∀ p, I p → I (correct drivemount p)
  kept : ∀ p answers, answers <:+ p.answers → I p →
    I { p with answers := answers, events := p.events ++ [.kept p.mount] }
  make : ∀ p, I p → I (makeDir D p)

/-- The continuation keeps the property. -/
def Keeps (I : Prompt σ → Prop) (again : Prompt σ → Option (Prompt σ)) :
    Prop :=
  ∀ p q, again p = some q → I p → I q

section Stable

variable {D : Dirs σ} {drivemount : Text} {I : Prompt σ → Prop}
variable {again : Prompt σ → Option (Prompt σ)} {p q : Prompt σ}

/-- An invariant survives the reading of a path. -/
theorem Stable.readPath (hI : Stable D drivemount I) (hagain : Keeps I again)
    (h : readPath again p = some q) (hp : I p) : I q := by
  rcases readPath_cases h with ⟨path, answers, hans, hill, rfl⟩
    | ⟨path, key, answers, hans, -, hq⟩
  · exact hI.path p path answers hans hill hp
  · refine hagain _ _ hq (hI.restart p answers ?_ hp)
    rw [hans]
    exact List.suffix_append [path, key] answers

theorem Stable.keepOrRetry (hI : Stable D drivemount I)
    (hagain : Keeps I again) (h : keepOrRetry D again p = some q)
    (hp : I p) : I q := by
  rcases keepOrRetry_cases h with ⟨retry, answers, hans, -, rfl⟩
    | ⟨retry, answers, r, hans, -, hr, hq⟩
  · exact hI.kept p answers (hans ▸ List.suffix_cons retry answers) hp
  · have hrestart := hI.restart p answers
      (hans ▸ List.suffix_cons retry answers) hp
    exact hagain _ _ hq (hI.make r (hagain _ _ hr hrestart))

theorem Stable.mountPass (hI : Stable D drivemount I)
    (hagain : Keeps I again) : Keeps I (mountPass D drivemount again) := by
  intro p q h hp
  rcases mountPass_cases h with ⟨-, rfl⟩ | ⟨-, r, hr, hq⟩
  · exact hp
  · have hread := hI.correct r (hI.readPath hagain hr hp)
    rcases hq with ⟨-, hq⟩ | ⟨-, hq⟩
    · exact hI.keepOrRetry hagain hq hread
    · exact hagain _ _ hq (hI.make _ hread)

/-- **THE RULE**: what every step of a pass keeps, the loop keeps through all
    of its calls. -/
theorem Stable.mountUntil (hI : Stable D drivemount I) (fuel : Nat) :
    Keeps I (mountUntil D drivemount fuel) := by
  induction fuel with
  | zero =>
      intro p q h _
      exact absurd h.symm (Option.some_ne_none q)
  | succ fuel ih => exact hI.mountPass ih

end Stable

/-- The record explains the file system. -/
def Traced (D : Dirs σ) (fs : σ) (p : Prompt σ) : Prop :=
  p.fs = replay D fs p.events

theorem replay_append (D : Dirs σ) (fs : σ) (a b : List PathEvent) :
    replay D fs (a ++ b) = replay D (replay D fs a) b :=
  List.foldl_append

/-- The record says what has been done, through every pass. -/
theorem traced_stable (D : Dirs σ) (drivemount : Text) (fs : σ) :
    Stable D drivemount (Traced D fs) where
  restart := fun _ _ _ hp => hp
  path := fun _ _ _ _ _ hp => hp
  correct := fun _ hp => hp
  kept := fun p _ _ hp => by
    show p.fs = replay D fs (p.events ++ [.kept p.mount])
    rw [replay_append]
    exact hp
  make := fun p hp => by
    rw [makeDir]
    by_cases hdir : D.notDir p.fs p.mount = true
    · rw [if_pos hdir]
      show D.mkdir p.fs p.mount = replay D fs (p.events ++ [.made p.mount])
      rw [replay_append, ← show p.fs = replay D fs p.events from hp]
      rfl
    · rw [if_neg hdir]
      exact hp

/-! ## Clean prompts -/

/-- `$mount` is a plain path, and so is every answer once it is legal. -/
structure Clean (p : Prompt σ) : Prop where
  mount : PlainPath p.mount
  answers : ∀ a ∈ p.answers, a.all plainChar = true

theorem placehold_plain : PlainPath "placehold".toList :=
  ⟨rfl, rfl⟩

theorem illegal_eq_false {path : Text} :
    illegal path = false ↔ ∀ c ∈ path, illegal [c] = false := by
  simp [illegal]

theorem plainPath_cons {c : Char} {path : Text} (hc : PlainPath [c])
    (hpath : PlainPath path) : PlainPath (c :: path) := by
  refine ⟨illegal_eq_false.mpr ?_, ?_⟩
  · intro d hd
    rcases List.mem_cons.mp hd with rfl | hd
    · exact hc.1
    · exact illegal_eq_false.mp hpath.1 d hd
  · rw [List.all_cons, hpath.2, Bool.and_true]
    exact (Bool.and_true _).symm.trans hc.2

theorem slash_plain : PlainPath ['/'] := ⟨rfl, rfl⟩

/-- A letter or a digit is neither rejected nor expanded. -/
theorem plainPath_alphanum {c : Char} (hc : c.isAlphanum = true) :
    PlainPath [c] := by
  have hne : ∀ d : Char, d.isAlphanum = false → c ≠ d := by
    rintro d hd rfl
    exact Bool.false_ne_true (hd.symm.trans hc)
  constructor
  · simp (disch := decide) [illegal, hne]
  · simp (disch := decide) [plainChar, isBlank, hne]

theorem default_plain {drivemount : Text} (h : IsDefault drivemount) :
    PlainPath ('/' :: drivemount) := by
  refine plainPath_cons slash_plain ⟨illegal_eq_false.mpr ?_, ?_⟩
  · exact fun c hc => (plainPath_alphanum (h.2 c hc)).1
  · rw [List.all_eq_true]
    intro c hc
    exact (Bool.and_true _).symm.trans (plainPath_alphanum (h.2 c hc)).2

section Correction

variable {drivemount : Text} (hdefault : IsDefault drivemount)

include hdefault

/-- **THE CORRECTION**: it turns a plain path into one that begins with a slash
    and is more than that. -/
theorem corrected_spec {path : Text} (hpath : PlainPath path) :
    Absolute (corrected drivemount path)
      ∧ PlainPath (corrected drivemount path) := by
  have hroot : ∀ mount : Text, mount.head? = some '/' → PlainPath mount →
      Absolute (if mount = ['/'] then '/' :: drivemount else mount)
        ∧ PlainPath (if mount = ['/'] then '/' :: drivemount else mount) := by
    intro mount hhead hplain
    by_cases hroot : mount = ['/']
    · rw [if_pos hroot]
      exact ⟨⟨rfl, fun h => hdefault.1 (List.cons.inj h).2⟩,
        default_plain hdefault⟩
    · rw [if_neg hroot]
      exact ⟨⟨hhead, hroot⟩, hplain⟩
  by_cases hhead : path.head? = some '/'
  · simp only [corrected, if_pos hhead]
    exact hroot path hhead hpath
  · simp only [corrected, if_neg hhead]
    exact hroot ('/' :: path) rfl (plainPath_cons slash_plain hpath)

theorem clean_stable (D : Dirs σ) : Stable D drivemount Clean where
  restart := fun p answers hsuffix hp =>
    ⟨placehold_plain, fun a ha => hp.answers a (hsuffix.subset ha)⟩
  path := fun p path answers hans hlegal hp => by
    refine ⟨⟨hlegal, hp.answers path ?_⟩, fun a ha => hp.answers a ?_⟩
    · rw [hans]
      exact List.mem_cons_self
    · rw [hans]
      exact List.mem_cons_of_mem path ha
  correct := fun p hp => ⟨(corrected_spec hdefault hp.mount).2, hp.answers⟩
  kept := fun p answers hsuffix hp =>
    ⟨hp.mount, fun a ha => hp.answers a (hsuffix.subset ha)⟩
  make := fun p hp => by
    rw [makeDir]
    split
    · exact ⟨hp.mount, hp.answers⟩
    · exact hp

end Correction

theorem Absolute.ne_nil {path : Text} (h : Absolute path) : path ≠ [] := by
  rintro rfl
  exact Option.some_ne_none _ h.1.symm

/-- A path that is fine already is left alone. -/
theorem corrected_of_absolute {path : Text} (h : Absolute path)
    (drivemount : Text) : corrected drivemount path = path := by
  simp only [corrected, if_pos h.1, if_neg h.2]

section Make

variable {D : Dirs σ} (hD : TestsAgree D) {p : Prompt σ}
  (hne : p.mount ≠ []) (hplain : PlainPath p.mount)

include hD hne hplain

theorem makeDir_of_isDir (hdir : D.isDir p.fs p.mount = true) :
    makeDir D p = p := by
  rw [makeDir, hD p.fs p.mount hne hplain, hdir]
  exact if_neg Bool.false_ne_true

theorem makeDir_of_not_isDir (hdir : D.isDir p.fs p.mount = false) :
    makeDir D p = { p with fs := D.mkdir p.fs p.mount,
                           events := p.events ++ [.made p.mount] } := by
  rw [makeDir, hD p.fs p.mount hne hplain, hdir]
  exact if_pos rfl

/-- A `mkdir` that succeeds is on the record. -/
theorem made_of_isDir {fs : σ} (htraced : Traced D fs p)
    (hbefore : D.isDir p.fs p.mount = false)
    (hafter : D.isDir (makeDir D p).fs (makeDir D p).mount = true) :
    Made D fs (makeDir D p).events (makeDir D p).mount := by
  rw [makeDir_of_not_isDir hD hne hplain hbefore] at hafter ⊢
  refine ⟨p.events, [], rfl, ?_⟩
  rw [← show p.fs = replay D fs p.events from htraced]
  exact ⟨hbefore, hafter⟩

end Make

section Member

variable {D : Dirs σ} {drivemount : Text}
variable {again : Prompt σ → Option (Prompt σ)}
variable {triesOf : Prompt σ → List (Prompt σ)} {p s : Prompt σ}

/-- Where the tries behind a refusal begin. -/
theorem mem_askedTries :
    s ∈ askedTries D again triesOf p
      ↔ ∃ retry answers, p.answers = retry :: answers
        ∧ isContinue retry = false
        ∧ (s = restart p answers ∨ s ∈ triesOf (restart p answers)
          ∨ ∃ r, again (restart p answers) = some r
            ∧ s ∈ triesOf (makeDir D r)) := by
  rw [askedTries]
  cases hp : p.answers with
  | nil => simp
  | cons retry answers =>
      cases hcont : isContinue retry with
      | true => simp [hcont]
      | false =>
          cases hr : again (restart p answers) with
          | none => simp [hcont, hr]
          | some r => simp [hcont, hr]

theorem mem_passTries :
    s ∈ passTries D drivemount again triesOf p
      ↔ D.isDir p.fs p.mount = false ∧ ∃ q, readPath again p = some q
        ∧ ((D.isDir (correct drivemount q).fs (correct drivemount q).mount
              = true
            ∧ s ∈ askedTries D again triesOf (correct drivemount q))
          ∨ (D.isDir (correct drivemount q).fs (correct drivemount q).mount
              = false
            ∧ s ∈ triesOf (makeDir D (correct drivemount q)))) := by
  rw [passTries]
  cases hdir : D.isDir p.fs p.mount with
  | true => simp
  | false =>
      cases hread : readPath again p with
      | none => simp
      | some q =>
          cases hdir' : D.isDir (correct drivemount q).fs
              (correct drivemount q).mount with
          | true => simp [hdir']
          | false => simp [hdir']

end Member

/-! ## A prompt that ends well -/

/-- A prompt at any point of the call on `fs`. -/
structure Underway (D : Dirs σ) (fs : σ) (p : Prompt σ) : Prop where
  clean : Clean p
  traced : Traced D fs p

/-- The continuation ends with a correct path when it is entered with none or
    with a correct one, and its further tries begin clear. -/
def EndsWell (D : Dirs σ) (fs : σ) (again : Prompt σ → Option (Prompt σ))
    (triesOf : Prompt σ → List (Prompt σ)) : Prop :=
  ∀ p r, Underway D fs p →
    (D.isDir p.fs p.mount = true → Correct D fs p) →
    (∀ s ∈ triesOf p, D.isDir s.fs s.mount = false) →
    again p = some r → Correct D fs r

section Endings

variable {D : Dirs σ} {fs : σ} {p : Prompt σ} (hp : Underway D fs p)

include hp

/-- Keeping a directory is on the record. -/
theorem correct_kept (habs : Absolute p.mount)
    (hdir : D.isDir p.fs p.mount = true) (answers : List Text) :
    Correct D fs { p with answers := answers,
                          events := p.events ++ [.kept p.mount] } :=
  ⟨habs.1, habs.2, hp.clean.mount.1, hdir,
    .inr (List.mem_append_right _ List.mem_cons_self)⟩

variable (hD : TestsAgree D)

include hD

/-- A directory after `mkdir` was made by it. -/
theorem correct_makeDir (habs : Absolute p.mount)
    (hbefore : D.isDir p.fs p.mount = false)
    (hafter : D.isDir (makeDir D p).fs (makeDir D p).mount = true) :
    Correct D fs (makeDir D p) := by
  have hplain := hp.clean.mount
  have hmade := made_of_isDir hD habs.ne_nil hplain hp.traced hbefore hafter
  rw [makeDir_of_not_isDir hD habs.ne_nil hplain hbefore] at hafter hmade ⊢
  exact ⟨habs.1, habs.2, hplain.1, hafter, .inl hmade⟩

/-- A correct path is a directory, and left as it is. -/
theorem makeDir_of_correct (hcorrect : Correct D fs p) : makeDir D p = p :=
  makeDir_of_isDir hD (Absolute.ne_nil ⟨hcorrect.slash, hcorrect.not_root⟩)
    hp.clean.mount hcorrect.is_dir

end Endings

section EndsWell

variable {D : Dirs σ} (hD : TestsAgree D) {drivemount : Text}
  (hdefault : IsDefault drivemount) {fs : σ}
  {again : Prompt σ → Option (Prompt σ)}
  {triesOf : Prompt σ → List (Prompt σ)}

include hdefault

theorem underway_stable (D : Dirs σ) (fs : σ) :
    Stable D drivemount (Underway D fs) where
  restart := fun p answers hsuffix hp =>
    ⟨(clean_stable hdefault D).restart p answers hsuffix hp.clean, hp.traced⟩
  path := fun p path answers hans hlegal hp =>
    ⟨(clean_stable hdefault D).path p path answers hans hlegal hp.clean,
      hp.traced⟩
  correct := fun p hp =>
    ⟨(clean_stable hdefault D).correct p hp.clean, hp.traced⟩
  kept := fun p answers hsuffix hp =>
    ⟨(clean_stable hdefault D).kept p answers hsuffix hp.clean,
      (traced_stable D drivemount fs).kept p answers hsuffix hp.traced⟩
  make := fun p hp =>
    ⟨(clean_stable hdefault D).make p hp.clean,
      (traced_stable D drivemount fs).make p hp.traced⟩

include hD

/-- The question about an existing directory: keeping it is on the record, and
    a further try hands its own correct path on. -/
theorem EndsWell.keepOrRetry (hagain : EndsWell D fs again triesOf)
    (hkeeps : Keeps (Underway D fs) again) {p r : Prompt σ}
    (hp : Underway D fs p) (habs : Absolute p.mount)
    (hdir : D.isDir p.fs p.mount = true)
    (hclear : ∀ s ∈ askedTries D again triesOf p,
      D.isDir s.fs s.mount = false)
    (h : keepOrRetry D again p = some r) : Correct D fs r := by
  rcases keepOrRetry_cases h with ⟨retry, answers, hans, -, rfl⟩
    | ⟨retry, answers, q, hans, hcont, hq, hr⟩
  · exact correct_kept hp habs hdir answers
  · have htry : ∀ s, (s = restart p answers ∨ s ∈ triesOf (restart p answers)
          ∨ ∃ q, again (restart p answers) = some q
            ∧ s ∈ triesOf (makeDir D q)) → D.isDir s.fs s.mount = false :=
      fun s hs => hclear s
        (mem_askedTries.mpr ⟨retry, answers, hans, hcont, hs⟩)
    have hstart : Underway D fs (restart p answers) :=
      (underway_stable hdefault D fs).restart p answers
        (hans ▸ List.suffix_cons retry answers) hp
    have hcorrect : Correct D fs q := by
      refine hagain _ q hstart ?_ (fun s hs => htry s (.inr (.inl hs))) hq
      intro hstartdir
      rw [htry _ (.inl rfl)] at hstartdir
      exact absurd hstartdir Bool.false_ne_true
    -- the rest of the pass finds a directory and leaves it
    have hend : Underway D fs q := hkeeps _ _ hq hstart
    have hmake : makeDir D q = q := makeDir_of_correct hend hD hcorrect
    rw [hmake] at hr
    refine hagain q r hend (fun _ => hcorrect) ?_ hr
    intro s hs
    refine htry s (.inr (.inr ⟨q, hq, ?_⟩))
    rw [hmake]
    exact hs

/-- **ONE PASS**: it ends well if its further tries do. -/
theorem EndsWell.mountPass (hagain : EndsWell D fs again triesOf)
    (hkeeps : Keeps (Underway D fs) again) :
    EndsWell D fs (mountPass D drivemount again)
      (passTries D drivemount again triesOf) := by
  have hstable := underway_stable hdefault D fs
  intro p r hp hentry hclear h
  rcases mountPass_cases h with ⟨hdir, rfl⟩ | ⟨hdir, q, hread, hrest⟩
  · exact hentry hdir
  · have hq : Underway D fs q := hstable.readPath hkeeps hread hp
    have hcorrected := hstable.correct q hq
    have habs : Absolute (correct drivemount q).mount :=
      (corrected_spec hdefault hq.clean.mount).1
    rcases hrest with ⟨hdir', hkeep⟩ | ⟨hdir', hnext⟩
    · refine hagain.keepOrRetry hD hdefault hkeeps hcorrected habs hdir' ?_
        hkeep
      intro s hs
      exact hclear s (mem_passTries.mpr ⟨hdir, q, hread, .inl ⟨hdir', hs⟩⟩)
    · refine hagain _ r (hstable.make _ hcorrected)
        (correct_makeDir hcorrected hD habs hdir') ?_ hnext
      intro s hs
      exact hclear s (mem_passTries.mpr ⟨hdir, q, hread, .inr ⟨hdir', hs⟩⟩)

/-- **WHILE THE TRIES ARE CLEAR**: the prompt ends with a correct path. -/
theorem correct_of_tries (fs : σ) (fuel : Nat) :
    EndsWell D fs (mountUntil D drivemount fuel)
      (tries D drivemount fuel) := by
  induction fuel with
  | zero =>
      intro p r _ _ _ h
      exact absurd h.symm (Option.some_ne_none r)
  | succ fuel ih =>
      exact ih.mountPass hD hdefault
        ((underway_stable hdefault D fs).mountUntil fuel)

end EndsWell

/-! ## A prompt that never makes `placehold` -/

/-- Making the path does not make `placehold` a directory. -/
def Spares (D : Dirs σ) (path : Text) : Prop :=
  ∀ fs, D.isDir fs "placehold".toList = false →
    D.isDir (D.mkdir fs path) "placehold".toList = false

/-- `placehold` is no directory, and none of the paths still to be entered
    makes it one. -/
structure Calm (D : Dirs σ) (drivemount : Text) (fs : σ) (p : Prompt σ) :
    Prop where
  underway : Underway D fs p
  missing : D.isDir p.fs "placehold".toList = false
  spares : ∀ a ∈ p.answers, illegal a = false →
    Spares D (corrected drivemount a)

/-- Entered calmly, the continuation begins every further try clear and ends
    calmly, with a correct path. -/
def EndsCalm (D : Dirs σ) (drivemount : Text) (fs : σ)
    (again : Prompt σ → Option (Prompt σ))
    (triesOf : Prompt σ → List (Prompt σ)) : Prop :=
  ∀ p, Calm D drivemount fs p →
    (D.isDir p.fs p.mount = true → Correct D fs p) →
    (∀ s ∈ triesOf p, D.isDir s.fs s.mount = false)
      ∧ ∀ r, again p = some r → Calm D drivemount fs r ∧ Correct D fs r

section EndsCalm

variable {D : Dirs σ} (hD : TestsAgree D) {drivemount : Text}
  (hdefault : IsDefault drivemount) {fs : σ}
  {again : Prompt σ → Option (Prompt σ)}
  {triesOf : Prompt σ → List (Prompt σ)} {p q : Prompt σ}

include hdefault

theorem Calm.restart (hp : Calm D drivemount fs p) {answers : List Text}
    (hsuffix : answers <:+ p.answers) :
    Calm D drivemount fs (restart p answers) where
  underway :=
    (underway_stable hdefault D fs).restart p answers hsuffix hp.underway
  missing := hp.missing
  spares := fun a ha => hp.spares a (hsuffix.subset ha)

/-- What a nested call does from a calm prompt. -/
theorem EndsCalm.restart (hagain : EndsCalm D drivemount fs again triesOf)
    (hp : Calm D drivemount fs p) {answers : List Text}
    (hsuffix : answers <:+ p.answers) :
    (∀ s ∈ triesOf (restart p answers), D.isDir s.fs s.mount = false)
      ∧ ∀ r, again (restart p answers) = some r →
        Calm D drivemount fs r ∧ Correct D fs r := by
  refine hagain _ (hp.restart hdefault hsuffix) ?_
  intro hdir
  exact absurd (hp.missing.symm.trans hdir) Bool.false_ne_true

/-- The path read is one that can be made, or a call for an illegal path has
    ended with it. -/
theorem EndsCalm.path (hagain : EndsCalm D drivemount fs again triesOf)
    (hp : Calm D drivemount fs p) (h : readPath again p = some q) :
    Calm D drivemount fs q
      ∧ (Spares D (corrected drivemount q.mount) ∨ Correct D fs q) := by
  rcases readPath_cases h with ⟨path, answers, hans, hlegal, rfl⟩
    | ⟨path, key, answers, hans, -, hq⟩
  · have hpath : path ∈ p.answers := by
      rw [hans]
      exact List.mem_cons_self
    have hsuffix : answers <:+ p.answers :=
      hans ▸ List.suffix_cons path answers
    refine ⟨⟨?_, hp.missing, ?_⟩, .inl (hp.spares path hpath hlegal)⟩
    · exact (underway_stable hdefault D fs).path p path answers hans hlegal
        hp.underway
    · exact fun a ha => hp.spares a (hsuffix.subset ha)
  · have hsuffix : answers <:+ p.answers :=
      hans ▸ List.suffix_append [path, key] answers
    obtain ⟨hcalm, hcorrect⟩ := (hagain.restart hdefault hp hsuffix).2 q hq
    exact ⟨hcalm, .inr hcorrect⟩

include hD

/-- The question about an existing directory. -/
theorem EndsCalm.keepOrRetry (hagain : EndsCalm D drivemount fs again triesOf)
    (hp : Calm D drivemount fs p) (habs : Absolute p.mount)
    (hdir : D.isDir p.fs p.mount = true) :
    (∀ s ∈ askedTries D again triesOf p, D.isDir s.fs s.mount = false)
      ∧ ∀ r, keepOrRetry D again p = some r →
        Calm D drivemount fs r ∧ Correct D fs r := by
  constructor
  · intro s hs
    obtain ⟨retry, answers, hans, -, hwhere⟩ := mem_askedTries.mp hs
    obtain ⟨hclear, hend⟩ := hagain.restart hdefault hp
      (hans ▸ List.suffix_cons retry answers)
    rcases hwhere with rfl | hin | ⟨r, hr, hafter⟩
    · exact hp.missing
    · exact hclear s hin
    · obtain ⟨hcalm, hcorrect⟩ := hend r hr
      rw [makeDir_of_correct hcalm.underway hD hcorrect] at hafter
      exact (hagain r hcalm (fun _ => hcorrect)).1 s hafter
  · intro r h
    rcases keepOrRetry_cases h with ⟨retry, answers, hans, -, rfl⟩
      | ⟨retry, answers, q, hans, -, hq, hr⟩
    · have hsuffix : answers <:+ p.answers :=
        hans ▸ List.suffix_cons retry answers
      refine ⟨⟨?_, hp.missing, ?_⟩, correct_kept hp.underway habs hdir answers⟩
      · exact (underway_stable hdefault D fs).kept p answers hsuffix
          hp.underway
      · exact fun a ha => hp.spares a (hsuffix.subset ha)
    · obtain ⟨hcalm, hcorrect⟩ := (hagain.restart hdefault hp
        (hans ▸ List.suffix_cons retry answers)).2 q hq
      rw [makeDir_of_correct hcalm.underway hD hcorrect] at hr
      exact (hagain q hcalm (fun _ => hcorrect)).2 r hr

/-- Making a path that spares `placehold`. -/
theorem Calm.made (hp : Calm D drivemount fs p) (habs : Absolute p.mount)
    (hdir : D.isDir p.fs p.mount = false) (hspares : Spares D p.mount) :
    Calm D drivemount fs (makeDir D p) := by
  refine ⟨(underway_stable hdefault D fs).make p hp.underway, ?_, ?_⟩
  · rw [makeDir_of_not_isDir hD habs.ne_nil hp.underway.clean.mount hdir]
    exact hspares p.fs hp.missing
  · rw [makeDir_answers]
    exact hp.spares

/-- **ONE PASS**: it never makes `placehold` if its further tries do not. -/
theorem EndsCalm.mountPass (hagain : EndsCalm D drivemount fs again triesOf) :
    EndsCalm D drivemount fs (mountPass D drivemount again)
      (passTries D drivemount again triesOf) := by
  have hstable := underway_stable hdefault D fs
  intro p hp hentry
  have hcorrected : ∀ q, readPath again p = some q →
      Calm D drivemount fs (correct drivemount q)
        ∧ Absolute (correct drivemount q).mount := by
    intro q hread
    obtain ⟨hq, -⟩ := hagain.path hdefault hp hread
    exact ⟨⟨hstable.correct q hq.underway, hq.missing, hq.spares⟩,
      (corrected_spec hdefault hq.underway.clean.mount).1⟩
  have hnext : ∀ q, readPath again p = some q →
      D.isDir (correct drivemount q).fs (correct drivemount q).mount = false →
      (∀ s ∈ triesOf (makeDir D (correct drivemount q)),
          D.isDir s.fs s.mount = false)
        ∧ ∀ r, again (makeDir D (correct drivemount q))
            = some r → Calm D drivemount fs r ∧ Correct D fs r := by
    intro q hread hdir
    obtain ⟨hcalm, habs⟩ := hcorrected q hread
    obtain ⟨-, hspares | hcorrect⟩ := hagain.path hdefault hp hread
    · exact hagain _ (hcalm.made hD hdefault habs hdir hspares)
        (correct_makeDir hcalm.underway hD habs hdir)
    · -- the end of a nested call is a directory, and the correction keeps it
      have hsame : (correct drivemount q).mount = q.mount :=
        corrected_of_absolute ⟨hcorrect.slash, hcorrect.not_root⟩ drivemount
      rw [hsame] at hdir
      exact absurd (hdir.symm.trans hcorrect.is_dir) Bool.false_ne_true
  constructor
  · intro s hs
    obtain ⟨-, q, hread, ⟨hdir, hasked⟩ | ⟨hdir, hmade⟩⟩ := mem_passTries.mp hs
    · obtain ⟨hcalm, habs⟩ := hcorrected q hread
      exact (hagain.keepOrRetry hD hdefault hcalm habs hdir).1 s hasked
    · exact (hnext q hread hdir).1 s hmade
  · intro r h
    rcases mountPass_cases h with ⟨hdir, rfl⟩
      | ⟨-, q, hread, ⟨hdir, hkeep⟩ | ⟨hdir, hmade⟩⟩
    · exact ⟨hp, hentry hdir⟩
    · obtain ⟨hcalm, habs⟩ := hcorrected q hread
      exact (hagain.keepOrRetry hD hdefault hcalm habs hdir).2 r hkeep
    · exact (hnext q hread hdir).2 r hmade

/-- **WHILE NO PATH MAKES `placehold`**: the further tries begin clear. -/
theorem tries_of_spares (fs : σ) (fuel : Nat) :
    EndsCalm D drivemount fs (mountUntil D drivemount fuel)
      (tries D drivemount fuel) := by
  induction fuel with
  | zero =>
      intro p _ _
      refine ⟨fun s hs => absurd hs List.not_mem_nil, fun r h => ?_⟩
      exact absurd h.symm (Option.some_ne_none r)
  | succ fuel ih => exact ih.mountPass hD hdefault

end EndsCalm

/-- The prompt ends with `placehold`, a directory by then. -/
def EndsAtPlacehold (D : Dirs σ) (again : Prompt σ → Option (Prompt σ))
    (p : Prompt σ) : Prop :=
  ∃ r, again p = some r ∧ r.mount = "placehold".toList
    ∧ D.isDir r.fs r.mount = true

section Placehold

variable {D : Dirs σ} {drivemount : Text}

/-- A loop entered with a directory is left at once. -/
theorem mountUntil_of_isDir {fuel : Nat} (hfuel : 0 < fuel) {p : Prompt σ}
    (hdir : D.isDir p.fs p.mount = true) :
    mountUntil D drivemount fuel p = some p := by
  obtain ⟨k, rfl⟩ : ∃ k, fuel = k + 1 := ⟨fuel - 1, by omega⟩
  rw [mountUntil, mountPass, if_pos hdir]

variable (hD : TestsAgree D)

include hD

/-- The end of a further try is the end of the pass that opened it. -/
theorem keepOrRetry_placehold {fuel : Nat} (hfuel : 0 < fuel) {p : Prompt σ}
    {retry : Text} {answers : List Text} (hans : p.answers = retry :: answers)
    (hcont : isContinue retry = false)
    (h : EndsAtPlacehold D (mountUntil D drivemount fuel)
      (restart p answers)) :
    EndsAtPlacehold D
      (keepOrRetry D (mountUntil D drivemount fuel)) p := by
  obtain ⟨r, hr, hmount, hdir⟩ := h
  have hmake : makeDir D r = r := by
    have hplain : PlainPath r.mount := hmount ▸ placehold_plain
    have hne : r.mount ≠ [] := by
      rw [hmount]
      decide
    exact makeDir_of_isDir hD hne hplain hdir
  refine ⟨r, ?_, hmount, hdir⟩
  rw [keepOrRetry, hans]
  simp only [hcont, Bool.false_eq_true, if_false, hr, Option.bind_some, hmake]
  exact mountUntil_of_isDir hfuel hdir

/-- **A TRY THAT IS NOT CLEAR**: the whole prompt ends with `placehold`. -/
theorem placehold_of_try (fuel : Nat) : ∀ p s : Prompt σ,
    p.answers.length < fuel → s ∈ tries D drivemount fuel p →
    D.isDir s.fs s.mount = true →
    EndsAtPlacehold D (mountUntil D drivemount fuel) p := by
  induction fuel with
  | zero => intro p s hlt; exact absurd hlt (Nat.not_lt_zero _)
  | succ fuel ih =>
      intro p s hlt hs hdir
      obtain ⟨hpdir, q, hread, hrest⟩ := mem_passTries.mp hs
      have hq : q.answers.length < p.answers.length :=
        readPath_answers (mountUntil_answers D drivemount fuel) hread
      have hpass : mountUntil D drivemount (fuel + 1) p
          = if D.isDir (correct drivemount q).fs (correct drivemount q).mount
            then keepOrRetry D (mountUntil D drivemount fuel)
              (correct drivemount q)
            else mountUntil D drivemount fuel
              (makeDir D (correct drivemount q)) := by
        rw [mountUntil, mountPass, hpdir, hread]
        rfl
      rw [EndsAtPlacehold, hpass]
      rcases hrest with ⟨hdir', hasked⟩ | ⟨hdir', hnext⟩
      · rw [if_pos hdir']
        obtain ⟨retry, answers, hans, hcont, hwhere⟩ := mem_askedTries.mp hasked
        rw [correct_answers] at hans
        have hfuel : answers.length < fuel := by
          rw [hans, List.length_cons] at hq
          omega
        rcases hwhere with rfl | hin | ⟨r, hr, hafter⟩
        · -- the try ends at once
          refine keepOrRetry_placehold hD (by omega) hans hcont ?_
          exact ⟨_, mountUntil_of_isDir (by omega) hdir, rfl, hdir⟩
        · refine keepOrRetry_placehold hD (by omega) hans hcont ?_
          exact ih _ s hfuel hin hdir
        · have hle := mountUntil_answers D drivemount fuel _ _ hr
          rw [restart_answers] at hle
          obtain ⟨t, ht, hmount, htdir⟩ :=
            ih (makeDir D r) s (by rw [makeDir_answers]; omega) hafter hdir
          refine ⟨t, ?_, hmount, htdir⟩
          rw [keepOrRetry, correct_answers, hans]
          simp only [hcont, Bool.false_eq_true, if_false, hr, Option.bind_some]
          exact ht
      · rw [if_neg (by rw [hdir']; exact Bool.false_ne_true)]
        exact ih _ s (by rw [makeDir_answers, correct_answers]; omega) hnext hdir

end Placehold

/-! ## The path a prompt ends with -/

/-- **THE MOUNT PATH**: whatever `mkdir` does, every path the prompt can end
    with is correct iff no further try outside the calls for illegal paths
    begins with `placehold` a directory; in particular where none of the
    answers, once corrected, is a path whose `mkdir` makes it one. -/
theorem mount_correct_iff (D : Dirs σ) (hD : TestsAgree D) (drivemount : Text)
    (hdefault : IsDefault drivemount) (answers : List Text)
    (hanswers : ∀ a ∈ answers, a.all plainChar = true) (fs : σ)
    (hcwd : D.isDir fs "placehold".toList = false) :
    ((∀ p, mountPrompt D drivemount answers fs = some p → Correct D fs p)
        ↔ ∀ s ∈ mountTries D drivemount answers fs,
          D.isDir s.fs s.mount = false)
      ∧ ((∀ a ∈ answers, illegal a = false →
            Spares D (corrected drivemount a)) →
          ∀ p, mountPrompt D drivemount answers fs = some p →
            Correct D fs p) := by
  have hstart : Underway D fs (restart ⟨fs, answers, [], []⟩ answers) :=
    ⟨⟨placehold_plain, hanswers⟩, rfl⟩
  have hentry : D.isDir fs "placehold".toList = true →
      Correct D fs (restart ⟨fs, answers, [], []⟩ answers) :=
    fun hdir => absurd (hcwd.symm.trans hdir) Bool.false_ne_true
  refine ⟨⟨?_, ?_⟩, ?_⟩
  · intro h s hs
    by_contra hdir
    rw [Bool.not_eq_false] at hdir
    obtain ⟨r, hr, hmount, -⟩ :=
      placehold_of_try hD (answers.length + 1) _ s (Nat.lt_succ_self _) hs hdir
    have hslash := (h r hr).slash
    rw [hmount] at hslash
    exact absurd hslash (by decide)
  · intro hclear p hp
    exact correct_of_tries hD hdefault fs (answers.length + 1) _ p hstart
      hentry hclear hp
  · intro hspares p hp
    exact ((tries_of_spares hD hdefault fs (answers.length + 1) _
      ⟨hstart, hcwd, hspares⟩ hentry).2 p hp).2

/-- The absolute form of a path in a working directory. -/
def resolve (cwd path : Text) : Text :=
  if path.head? = some '/' then path else cwd ++ '/' :: path

/-- The directories as a list of absolute paths; `mkdir` makes a missing
    directory in an existing one. -/
def listedDirs (cwd : Text) : Dirs (List Text) where
  isDir := fun dirs path => dirs.contains (resolve cwd path)
  notDir := fun dirs path => !dirs.contains (resolve cwd path)
  mkdir := fun dirs path =>
    let made := resolve cwd path
    let parent := (made.rdropWhile (· != '/')).dropLast
    if dirs.contains made then dirs
    else if parent = [] || dirs.contains parent then dirs ++ [made]
    else dirs

/-- In the list of paths the tests agree. -/
theorem listedDirs_testsAgree (cwd : Text) : TestsAgree (listedDirs cwd) :=
  fun _ _ _ _ => rfl

/-- Any other path spares `placehold`. -/
theorem listedDirs_spares {cwd path : Text}
    (h : resolve cwd path ≠ resolve cwd "placehold".toList) :
    Spares (listedDirs cwd) path := by
  intro dirs hmissing
  have hother : (dirs ++ [resolve cwd path]).contains
      (resolve cwd "placehold".toList) = false := by
    rw [← Bool.not_eq_true, List.contains_iff_mem, List.mem_append,
      List.mem_singleton, not_or, ← List.contains_iff_mem, Bool.not_eq_true]
    exact ⟨hmissing, h.symm⟩
  show (List.contains _ _) = false
  simp only [listedDirs]
  split
  · exact hmissing
  · split
    · exact hother
    · exact hmissing

/-- An existing directory, refused, and then one that `mkdir` makes; and the
    default path for a blank answer. -/
theorem mount_correct_retry :
    (∃ p, mountPrompt (listedDirs "/root".toList) "raid".toList
        ["/data".toList, "retry".toList, "/disk".toList]
        ["/".toList, "/root".toList, "/data".toList] = some p
      ∧ Correct (listedDirs "/root".toList)
        ["/".toList, "/root".toList, "/data".toList] p)
    ∧ ∃ p, mountPrompt (listedDirs "/root".toList) "raid".toList [[]]
        ["/".toList, "/root".toList] = some p
      ∧ Correct (listedDirs "/root".toList)
        ["/".toList, "/root".toList] p := by
  have hdefault : IsDefault "raid".toList :=
    ⟨by decide, List.all_eq_true.mp rfl⟩
  constructor
  · refine ⟨_, rfl, (mount_correct_iff (listedDirs "/root".toList)
      (listedDirs_testsAgree _) "raid".toList hdefault
      ["/data".toList, "retry".toList, "/disk".toList]
      (List.all_eq_true.mp rfl)
      ["/".toList, "/root".toList, "/data".toList] rfl).1.mpr ?_ _ rfl⟩
    intro s hs
    rw [List.mem_singleton.mp (show s ∈ [_] from hs)]
    rfl
  · refine ⟨_, rfl, (mount_correct_iff (listedDirs "/root".toList)
      (listedDirs_testsAgree _) "raid".toList hdefault [[]]
      (List.all_eq_true.mp rfl)
      ["/".toList, "/root".toList] rfl).2 ?_ _ rfl⟩
    intro a ha _
    rw [List.mem_singleton.mp ha]
    exact listedDirs_spares (by decide)

/-- The call for an illegal path makes `/root/placehold`, the operator refuses
    it, and the next call ends before it asks anything. -/
theorem mount_placehold :
    (listedDirs "/root".toList).isDir ["/".toList, "/root".toList]
        "placehold".toList = false
      ∧ ∃ p, mountPrompt (listedDirs "/root".toList) "raid".toList
          ["a!".toList, [], "/root/placehold".toList, "retry".toList]
          ["/".toList, "/root".toList] = some p
        ∧ p.mount = "placehold".toList
        ∧ ¬ Correct (listedDirs "/root".toList)
          ["/".toList, "/root".toList] p := by
  refine ⟨rfl, _, rfl, rfl, ?_⟩
  intro h
  exact absurd h.slash (by decide)

end SetupMountPath
