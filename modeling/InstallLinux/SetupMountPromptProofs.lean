import InstallLinux.ShellTextProofs

/-! # The mount prompt — a loop that calls itself

    `_mount` asks for a path until `$mount` is a directory, and calls itself
    from inside that loop when the path is illegal or the operator wants
    another try.  Everything it reads comes from the operator, so one pass is
    written over what happens next (`mountPass`), the loop feeds it to itself
    (`mountUntil`), and the answers left bound the recursion:

    * `mountUntil_answers`: a call never gives answers back;
    * `mountUntil_fuel`: with more fuel than answers the result no longer
      depends on the fuel, so `none` means that the prompt is still waiting. -/

namespace SetupMountPrompt

open ShellText

/-- The part of the file system the prompt looks at.  The two tests are apart
    because both fail on a path that expands to several words. -/
structure Dirs (σ : Type) where
  /-- `[ -d $mount ]` -/
  isDir : σ → Text → Bool
  /-- `[ ! -d $mount ]` -/
  notDir : σ → Text → Bool
  /-- `sudo mkdir $mount`, whatever comes of it -/
  mkdir : σ → Text → σ

/-- What happened to a path. -/
inductive PathEvent where
  | made (path : Text)
  | kept (path : Text)
  deriving DecidableEq

/-- The state of the prompt. -/
structure Prompt (σ : Type) where
  fs : σ
  /-- what `read` has yet to take: entered lines without the blanks around
      them, and without the backslashes -/
  answers : List Text
  mount : Text
  events : List PathEvent

variable {σ : Type}

/-! ## One pass -/

/-- `*['!'@#\$%^\&*_+]*`. -/
def illegal (path : Text) : Bool :=
  path.any (fun c => c ∈ ['!', '@', '#', '$', '%', '^', '&', '*', '_', '+'])

/-- `[Cc]ontinue`. -/
def isContinue (answer : Text) : Bool :=
  answer = "Continue".toList || answer = "continue".toList

/-- What `_mount` does before its loop. -/
def restart (p : Prompt σ) (answers : List Text) : Prompt σ :=
  { p with answers := answers, mount := "placehold".toList }

/-- The path read, after a nested call when it was illegal. -/
def readPath (again : Prompt σ → Option (Prompt σ)) (p : Prompt σ) :
    Option (Prompt σ) :=
  match p.answers with
  | [] => none
  | path :: answers =>
      if illegal path then
        -- any key, then `_mount` from its start
        match answers with
        | [] => none
        | _ :: answers => again (restart p answers)
      else some { p with answers := answers, mount := path }

/-- The leading slash, and the default path. -/
def correct (drivemount : Text) (p : Prompt σ) : Prompt σ :=
  let mount := if p.mount.head? = some '/' then p.mount else '/' :: p.mount
  { p with mount := if mount = ['/'] then '/' :: drivemount else mount }

/-- `if [ ! -d $mount ]; then sudo mkdir $mount; fi`. -/
def makeDir (D : Dirs σ) (p : Prompt σ) : Prompt σ :=
  if D.notDir p.fs p.mount then
    { p with fs := D.mkdir p.fs p.mount,
             events := p.events ++ [.made p.mount] }
  else p

/-- The question about an existing directory: keep it and leave the loop, or
    a nested call and the rest of the pass. -/
def keepOrRetry (D : Dirs σ) (again : Prompt σ → Option (Prompt σ))
    (p : Prompt σ) : Option (Prompt σ) :=
  match p.answers with
  | [] => none
  | retry :: answers =>
      if isContinue retry then
        some { p with answers := answers,
                      events := p.events ++ [.kept p.mount] }
      else
        -- `_mount` from its start, the rest of this pass, the next pass
        (again (restart p answers)).bind (fun q => again (makeDir D q))

/-- The `until` loop from its test on; `again` is the same loop, entered for a
    nested call or for the next pass. -/
def mountPass (D : Dirs σ) (drivemount : Text)
    (again : Prompt σ → Option (Prompt σ)) (p : Prompt σ) :
    Option (Prompt σ) :=
  if D.isDir p.fs p.mount then some p
  else
    (readPath again p).bind (fun q =>
      let q := correct drivemount q
      if D.isDir q.fs q.mount then keepOrRetry D again q
      else again (makeDir D q))

/-! ## The loop -/

/-- The loop, with a bound on the depth of passes and calls. -/
def mountUntil (D : Dirs σ) (drivemount : Text) :
    Nat → Prompt σ → Option (Prompt σ)
  | 0, _ => none
  | fuel + 1, p => mountPass D drivemount (mountUntil D drivemount fuel) p

/-- `_mount`: `none` when it is still waiting for the operator. -/
def mountPrompt (D : Dirs σ) (drivemount : Text) (answers : List Text)
    (fs : σ) : Option (Prompt σ) :=
  mountUntil D drivemount (answers.length + 1)
    (restart ⟨fs, answers, [], []⟩ answers)

/-- The continuation gives no answers back. -/
def Consumes (again : Prompt σ → Option (Prompt σ)) : Prop :=
  ∀ p q, again p = some q → q.answers.length ≤ p.answers.length

@[simp] theorem restart_answers (p : Prompt σ) (answers : List Text) :
    (restart p answers).answers = answers := rfl

@[simp] theorem correct_answers (drivemount : Text) (p : Prompt σ) :
    (correct drivemount p).answers = p.answers := rfl

@[simp] theorem makeDir_answers (D : Dirs σ) (p : Prompt σ) :
    (makeDir D p).answers = p.answers := by
  rw [makeDir]
  split <;> rfl

/-! ## What a pass can do -/

section Cases

variable {again : Prompt σ → Option (Prompt σ)} {p q : Prompt σ}

/-- A legal path is taken over; an illegal one costs a key and is asked for
    by a nested call. -/
theorem readPath_cases (h : readPath again p = some q) :
    (∃ path answers, p.answers = path :: answers ∧ illegal path = false
        ∧ q = { p with answers := answers, mount := path })
      ∨ (∃ path key answers, p.answers = path :: key :: answers
        ∧ illegal path = true ∧ again (restart p answers) = some q) := by
  rw [readPath] at h
  cases hp : p.answers with
  | nil =>
      rw [hp] at h
      exact absurd h.symm (Option.some_ne_none q)
  | cons path answers =>
      rw [hp] at h
      cases hill : illegal path with
      | false =>
          simp only [hill] at h
          exact .inl ⟨path, answers, rfl, hill, (Option.some.inj h).symm⟩
      | true =>
          simp only [hill, if_true] at h
          cases answers with
          | nil => exact absurd h.symm (Option.some_ne_none q)
          | cons key answers =>
              exact .inr ⟨path, key, answers, rfl, hill, h⟩

/-- How the question whether to keep a directory can end. -/
theorem keepOrRetry_cases {D : Dirs σ} (h : keepOrRetry D again p = some q) :
    (∃ retry answers, p.answers = retry :: answers ∧ isContinue retry = true
        ∧ q = { p with answers := answers,
                       events := p.events ++ [.kept p.mount] })
      ∨ (∃ retry answers r, p.answers = retry :: answers
        ∧ isContinue retry = false ∧ again (restart p answers) = some r
        ∧ again (makeDir D r) = some q) := by
  rw [keepOrRetry] at h
  cases hp : p.answers with
  | nil =>
      rw [hp] at h
      exact absurd h.symm (Option.some_ne_none q)
  | cons retry answers =>
      rw [hp] at h
      cases hcont : isContinue retry with
      | true =>
          simp only [hcont, if_true] at h
          exact .inl ⟨retry, answers, rfl, hcont, (Option.some.inj h).symm⟩
      | false =>
          simp only [hcont] at h
          obtain ⟨r, hr, hq⟩ := Option.bind_eq_some_iff.mp h
          exact .inr ⟨retry, answers, r, rfl, hcont, hr, hq⟩

/-- How a pass can end. -/
theorem mountPass_cases {D : Dirs σ} {drivemount : Text}
    (h : mountPass D drivemount again p = some q) :
    (D.isDir p.fs p.mount = true ∧ q = p)
      ∨ (D.isDir p.fs p.mount = false ∧ ∃ r, readPath again p = some r
        ∧ ((D.isDir (correct drivemount r).fs (correct drivemount r).mount
              = true
            ∧ keepOrRetry D again (correct drivemount r) = some q)
          ∨ (D.isDir (correct drivemount r).fs (correct drivemount r).mount
              = false
            ∧ again (makeDir D (correct drivemount r)) = some q))) := by
  rw [mountPass] at h
  cases hdir : D.isDir p.fs p.mount with
  | true =>
      rw [if_pos hdir] at h
      exact .inl ⟨rfl, (Option.some.inj h).symm⟩
  | false =>
      rw [if_neg (by rw [hdir]; exact Bool.false_ne_true)] at h
      obtain ⟨r, hr, hq⟩ := Option.bind_eq_some_iff.mp h
      refine .inr ⟨rfl, r, hr, ?_⟩
      cases hdir' : D.isDir (correct drivemount r).fs
          (correct drivemount r).mount with
      | true =>
          simp only [hdir', if_true] at hq
          exact .inl ⟨rfl, hq⟩
      | false =>
          simp only [hdir'] at hq
          exact .inr ⟨rfl, hq⟩

end Cases

/-- Reading a path uses up an answer. -/
theorem readPath_answers {again : Prompt σ → Option (Prompt σ)}
    (hagain : Consumes again) {p q : Prompt σ} (h : readPath again p = some q) :
    q.answers.length < p.answers.length := by
  rcases readPath_cases h with ⟨path, answers, hp, -, rfl⟩
    | ⟨path, key, answers, hp, -, hq⟩
  · rw [hp, List.length_cons]
    exact Nat.lt_succ_self _
  · have hle := hagain _ _ hq
    rw [restart_answers] at hle
    rw [hp, List.length_cons, List.length_cons]
    omega

/-- The question gives no answers back. -/
theorem keepOrRetry_answers (D : Dirs σ)
    {again : Prompt σ → Option (Prompt σ)} (hagain : Consumes again)
    {p q : Prompt σ} (h : keepOrRetry D again p = some q) :
    q.answers.length ≤ p.answers.length := by
  rcases keepOrRetry_cases h with ⟨retry, answers, hp, -, rfl⟩
    | ⟨retry, answers, r, hp, -, hr, hq⟩
  · rw [hp, List.length_cons]
    exact Nat.le_succ _
  · have h1 := hagain _ _ hr
    have h2 := hagain _ _ hq
    rw [restart_answers] at h1
    rw [makeDir_answers] at h2
    rw [hp, List.length_cons]
    omega

/-- A pass gives none back. -/
theorem mountPass_answers (D : Dirs σ) (drivemount : Text)
    {again : Prompt σ → Option (Prompt σ)} (hagain : Consumes again) :
    Consumes (mountPass D drivemount again) := by
  intro p q h
  rcases mountPass_cases h with ⟨-, rfl⟩ | ⟨-, r, hr, hq⟩
  · exact Nat.le_refl _
  · -- the path used up an answer, the rest of the pass gives none back
    have hlt := readPath_answers hagain hr
    rcases hq with ⟨-, hq⟩ | ⟨-, hq⟩
    · have hle := keepOrRetry_answers D hagain hq
      rw [correct_answers] at hle
      omega
    · have hle := hagain _ _ hq
      rw [makeDir_answers, correct_answers] at hle
      omega

/-- **ANSWERS RUN DOWN**: the loop never gives answers back. -/
theorem mountUntil_answers (D : Dirs σ) (drivemount : Text) (fuel : Nat) :
    Consumes (mountUntil D drivemount fuel) := by
  induction fuel with
  | zero => intro p q h; exact nomatch h
  | succ fuel ih => exact mountPass_answers D drivemount ih

/-! ## Fuel -/

/-- Two continuations agree wherever fewer answers are left. -/
def AgreeBelow (n : Nat) (again again' : Prompt σ → Option (Prompt σ)) :
    Prop :=
  ∀ p, p.answers.length < n → again p = again' p

/-- Reading looks at its continuation only below the answers it has. -/
theorem readPath_congr {again again' : Prompt σ → Option (Prompt σ)}
    {p : Prompt σ} (h : AgreeBelow p.answers.length again again') :
    readPath again p = readPath again' p := by
  rw [readPath, readPath]
  cases hp : p.answers with
  | nil => rfl
  | cons path answers =>
      cases answers with
      | nil => rfl
      | cons key answers =>
          have hlt : (restart p answers).answers.length < p.answers.length := by
            rw [restart_answers, hp, List.length_cons, List.length_cons]
            omega
          have hnext := h (restart p answers) hlt
          simp only [hnext]

theorem keepOrRetry_congr (D : Dirs σ)
    {again again' : Prompt σ → Option (Prompt σ)} (hagain : Consumes again)
    {p : Prompt σ} (h : AgreeBelow p.answers.length again again') :
    keepOrRetry D again p = keepOrRetry D again' p := by
  rw [keepOrRetry, keepOrRetry]
  cases hp : p.answers with
  | nil => rfl
  | cons retry answers =>
      have hlt : (restart p answers).answers.length < p.answers.length := by
        rw [restart_answers, hp, List.length_cons]
        exact Nat.lt_succ_self _
      have hnext := h (restart p answers) hlt
      simp only [← hnext]
      cases hr : again (restart p answers) with
      | none => rfl
      | some q =>
          have hle := hagain _ _ hr
          rw [restart_answers] at hle
          have hlt' : (makeDir D q).answers.length < p.answers.length := by
            rw [makeDir_answers, hp, List.length_cons]
            exact Nat.lt_succ_of_le hle
          have hmake := h (makeDir D q) hlt'
          simp only [Option.bind_some, hmake]

/-- A pass looks at its continuation only below the answers it has. -/
theorem mountPass_congr (D : Dirs σ) (drivemount : Text)
    {again again' : Prompt σ → Option (Prompt σ)} (hagain : Consumes again)
    {p : Prompt σ} (h : AgreeBelow p.answers.length again again') :
    mountPass D drivemount again p = mountPass D drivemount again' p := by
  rw [mountPass, mountPass]
  rw [← readPath_congr h]
  cases hr : readPath again p with
  | none => rfl
  | some q =>
      have hlt := readPath_answers hagain hr
      have hq : AgreeBelow (correct drivemount q).answers.length again again' :=
        fun r hrlt => h r (by rw [correct_answers] at hrlt; omega)
      have hmake := h (makeDir D (correct drivemount q))
        (by rw [makeDir_answers, correct_answers]; exact hlt)
      simp only [Option.bind_some, keepOrRetry_congr D hagain hq, hmake]

/-- **ENOUGH FUEL**: with more fuel than answers the fuel does not matter. -/
theorem mountUntil_fuel (D : Dirs σ) (drivemount : Text) :
    ∀ (fuel fuel' : Nat) (p : Prompt σ), p.answers.length < fuel →
      fuel ≤ fuel' →
      mountUntil D drivemount fuel' p = mountUntil D drivemount fuel p := by
  intro fuel
  induction fuel with
  | zero => intro fuel' p h; exact absurd h (Nat.not_lt_zero _)
  | succ fuel ih =>
      intro fuel' p hp hle
      obtain ⟨k, rfl⟩ : ∃ k, fuel' = k + 1 := ⟨fuel' - 1, by omega⟩
      -- every call further in has fewer answers, and fuel for them
      refine mountPass_congr D drivemount
        (mountUntil_answers D drivemount k) ?_
      intro r hr
      exact ih k r (by omega) (by omega)

/-- `_mount` is its loop, for every sufficient fuel. -/
theorem mountPrompt_eq (D : Dirs σ) (drivemount : Text) (answers : List Text)
    (fs : σ) {fuel : Nat} (h : answers.length < fuel) :
    mountUntil D drivemount fuel (restart ⟨fs, answers, [], []⟩ answers)
      = mountPrompt D drivemount answers fs :=
  mountUntil_fuel D drivemount (answers.length + 1) fuel _
    (by rw [restart_answers]; omega) h

end SetupMountPrompt
