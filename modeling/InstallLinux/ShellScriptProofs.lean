import InstallLinux.ShellRunProofs

/-! # Scripts that are cut off — what holds at every moment between

    A straight-line script with branches, as a tree of commands.  A machine may
    go down between any two of them, so a script is described by the state
    after each command it runs (`moments`), and a start that is cut off by the
    number of commands it got to (`cut`).

    A triple has three assertions: one before, one at the end, and one at every
    moment a cut can leave (`Triple`).  There is a rule for each form of a
    script, so a proof follows the script's text.

    * `Triple.recovers`: where a cut leaves what the script may start from
      again, it may do so behind any number of cut starts;
    * `cut_andThen`: a cut of two scripts in a row is a cut of the first, or of
      the second behind the whole first. -/

namespace ShellScript

open ShellRun

/-- A script without loops. -/
inductive Script (S : Type) where
  /-- nothing is left to run -/
  | done
  | cmd (f : S → S) (rest : Script S)
  /-- `if`, each arm with all that follows it -/
  | branch (test : S → Bool) (yes no : Script S)

variable {S : Type}

/-- One script, and another one behind it. -/
def Script.andThen : Script S → Script S → Script S
  | .done, q => q
  | .cmd f rest, q => .cmd f (rest.andThen q)
  | .branch test yes no, q => .branch test (yes.andThen q) (no.andThen q)

/-- Commands in a row. -/
def Script.commands (fs : List (S → S)) : Script S :=
  fs.foldr Script.cmd .done

/-- The state after each command that runs. -/
def Script.moments : Script S → S → List S
  | .done, _ => []
  | .cmd f rest, s => f s :: rest.moments (f s)
  | .branch test yes no, s =>
      if test s then yes.moments s else no.moments s

/-- A complete start. -/
def Script.exec (p : Script S) (s : S) : S := finalState s (p.moments s)

/-- A start that is cut off behind its first `n` commands. -/
def Script.cut (p : Script S) (s : S) (n : Nat) : S :=
  finalState s ((p.moments s).take n)

/-! ## Equations -/

@[simp] theorem moments_done (s : S) : (Script.done : Script S).moments s = [] :=
  rfl

@[simp] theorem moments_cmd (f : S → S) (rest : Script S) (s : S) :
    (Script.cmd f rest).moments s = f s :: rest.moments (f s) := rfl

theorem moments_branch (test : S → Bool) (yes no : Script S) (s : S) :
    (Script.branch test yes no).moments s
      = if test s then yes.moments s else no.moments s := rfl

theorem exec_done (s : S) : (Script.done : Script S).exec s = s := rfl

theorem exec_cmd (f : S → S) (rest : Script S) (s : S) :
    (Script.cmd f rest).exec s = rest.exec (f s) := by
  rw [Script.exec, moments_cmd, ← List.singleton_append, finalState_append]
  rfl

theorem exec_branch (test : S → Bool) (yes no : Script S) (s : S) :
    (Script.branch test yes no).exec s
      = if test s then yes.exec s else no.exec s := by
  rw [Script.exec, moments_branch]
  split <;> rfl

theorem cut_zero (p : Script S) (s : S) : p.cut s 0 = s := rfl

theorem cut_done (s : S) (n : Nat) : (Script.done : Script S).cut s n = s := by
  rw [Script.cut, moments_done, List.take_nil]
  rfl

theorem cut_cmd (f : S → S) (rest : Script S) (s : S) (n : Nat) :
    (Script.cmd f rest).cut s (n + 1) = rest.cut (f s) n := by
  rw [Script.cut, moments_cmd, List.take_succ_cons, ← List.singleton_append,
    finalState_append]
  rfl

theorem cut_branch (test : S → Bool) (yes no : Script S) (s : S) (n : Nat) :
    (Script.branch test yes no).cut s n
      = if test s then yes.cut s n else no.cut s n := by
  rw [Script.cut, moments_branch]
  split <;> rfl

/-- A cut behind the last command is no cut. -/
theorem cut_of_le {p : Script S} {s : S} {n : Nat}
    (h : (p.moments s).length ≤ n) : p.cut s n = p.exec s := by
  rw [Script.cut, List.take_of_length_le h]
  rfl

/-- Where all cuts agree, complete starts do. -/
theorem exec_of_cut {p q : Script S} {s t : S}
    (h : ∀ n, p.cut s n = q.cut t n) : p.exec s = q.exec t := by
  have hp := cut_of_le (Nat.le_max_left (p.moments s).length
    (q.moments t).length)
  have hq := cut_of_le (Nat.le_max_right (p.moments s).length
    (q.moments t).length)
  rw [← hp, ← hq]
  exact h _

/-- A cut leaves the start or one of the moments. -/
theorem cut_mem (p : Script S) (s : S) (n : Nat) :
    p.cut s n ∈ s :: p.moments s := by
  rcases List.mem_cons.mp (finalState_mem s ((p.moments s).take n))
    with heq | hmem
  · rw [Script.cut, heq]
    exact List.mem_cons_self
  · exact List.mem_cons_of_mem _ (List.mem_of_mem_take hmem)

/-- Every moment is left by some cut. -/
theorem exists_cut {p : Script S} {s t : S} (ht : t ∈ s :: p.moments s) :
    ∃ n, p.cut s n = t := by
  rcases List.mem_cons.mp ht with rfl | ht
  · exact ⟨0, cut_zero p t⟩
  · obtain ⟨n, hn, rfl⟩ := List.mem_iff_getElem.mp ht
    refine ⟨n + 1, ?_⟩
    rw [Script.cut, List.take_succ_eq_append_getElem hn, finalState,
      List.getLastD_concat]

/-- The second script begins where the first one ends. -/
theorem moments_andThen (p q : Script S) (s : S) :
    (p.andThen q).moments s = p.moments s ++ q.moments (p.exec s) := by
  induction p generalizing s with
  | done => rfl
  | cmd f rest ih =>
      rw [Script.andThen, moments_cmd, moments_cmd, ih, exec_cmd,
        List.cons_append]
  | branch test yes no ihyes ihno =>
      rw [Script.andThen, moments_branch, moments_branch, exec_branch]
      by_cases h : test s = true
      · rw [if_pos h, if_pos h, if_pos h, ihyes]
      · rw [if_neg h, if_neg h, if_neg h, ihno]

theorem exec_andThen (p q : Script S) (s : S) :
    (p.andThen q).exec s = q.exec (p.exec s) := by
  rw [Script.exec, moments_andThen, finalState_append]
  rfl

theorem commands_append (fs gs : List (S → S)) :
    Script.commands (fs ++ gs)
      = (Script.commands fs).andThen (Script.commands gs) := by
  induction fs with
  | nil => rfl
  | cons f rest ih => exact congrArg (Script.cmd f) ih

/-- There is one moment for each command. -/
theorem length_moments_commands (fs : List (S → S)) (s : S) :
    ((Script.commands fs).moments s).length = fs.length := by
  induction fs generalizing s with
  | nil => rfl
  | cons f rest ih => exact congrArg (· + 1) (ih (f s))

/-- A cut of commands in a row is the commands in front of it. -/
theorem cut_commands (fs : List (S → S)) (s : S) (n : Nat) :
    (Script.commands fs).cut s n = (fs.take n).foldl (fun t f => f t) s := by
  induction fs generalizing s n with
  | nil =>
      rw [List.take_nil]
      exact cut_done s n
  | cons f rest ih =>
      cases n with
      | zero => rfl
      | succ n => exact (cut_cmd f _ s n).trans (ih (f s) n)

/-- Commands are run from left to right. -/
theorem exec_commands (fs : List (S → S)) (s : S) :
    (Script.commands fs).exec s = fs.foldl (fun t f => f t) s := by
  induction fs generalizing s with
  | nil => rfl
  | cons f rest ih => exact (exec_cmd f _ s).trans (ih (f s))

/-- **A TURN**: one command ends an assertion that all commands in front of it
    keep, and begins one that all commands behind it keep. -/
theorem cut_turn (before after : S → Prop) {fs rest : List (S → S)} {g : S → S}
    {m : Nat} (hm : fs.length = m)
    (hfs : ∀ f ∈ fs, ∀ s, before s → before (f s))
    (hg : ∀ s, before s → after (g s))
    (hrest : ∀ f ∈ rest, ∀ s, after s → after (f s)) {s : S} (hs : before s)
    (n : Nat) :
    (n ≤ m → before ((Script.commands (fs ++ g :: rest)).cut s n))
      ∧ (m < n → after ((Script.commands (fs ++ g :: rest)).cut s n)) := by
  subst hm
  have hkeep : ∀ {inv : S → Prop} {hs : List (S → S)},
      (∀ f ∈ hs, ∀ s, inv s → inv (f s)) → ∀ s, inv s →
        inv (hs.foldl (fun t f => f t) s) := by
    intro inv hs
    induction hs with
    | nil => exact fun _ s h => h
    | cons f hs ih =>
        intro hall s h
        rw [List.forall_mem_cons] at hall
        exact ih hall.2 _ (hall.1 s h)
  rw [cut_commands]
  constructor
  · intro hn
    rw [List.take_append_of_le_length hn]
    exact hkeep (fun f hf => hfs f (List.mem_of_mem_take hf)) s hs
  · intro hn
    obtain ⟨k, rfl⟩ := Nat.exists_eq_add_of_lt hn
    have htake : (fs ++ g :: rest).take (fs.length + k + 1)
        = fs ++ g :: rest.take k := by
      rw [Nat.add_assoc, List.take_length_add_append, List.take_succ_cons]
    rw [htake, List.foldl_append, List.foldl_cons]
    exact hkeep (fun f hf => hrest f (List.mem_of_mem_take hf)) _
      (hg _ (hkeep hfs s hs))

/-- **TWO SCRIPTS**: a cut within the first, or one of the second. -/
theorem cut_andThen (p q : Script S) (s : S) (n : Nat) :
    (p.andThen q).cut s n
      = if n < (p.moments s).length then p.cut s n
        else q.cut (p.exec s) (n - (p.moments s).length) := by
  rw [Script.cut, moments_andThen, List.take_append]
  split
  · next h =>
      have hzero : n - (p.moments s).length = 0 := by omega
      rw [hzero, List.take_zero, List.append_nil]
      rfl
  · next h =>
      rw [List.take_of_length_le (by omega), finalState_append]
      rfl

/-! ## Triples -/

/-- Started where `pre` holds, the script is never left where `crash` does not
    hold, and ends where `post` does. -/
structure Triple (pre : S → Prop) (p : Script S) (post crash : S → Prop) :
    Prop where
  moments : ∀ s, pre s → ∀ t ∈ s :: p.moments s, crash t
  ends : ∀ s, pre s → post (p.exec s)

section Rules

variable {pre post crash : S → Prop}

/-- The rule of consequence. -/
theorem Triple.weaken {pre' post' crash' : S → Prop} {p : Script S}
    (h : Triple pre p post crash) (hpre : ∀ s, pre' s → pre s)
    (hpost : ∀ s, post s → post' s) (hcrash : ∀ s, crash s → crash' s) :
    Triple pre' p post' crash' where
  moments := fun s hs t ht => hcrash t (h.moments s (hpre s hs) t ht)
  ends := fun s hs => hpost _ (h.ends s (hpre s hs))

/-- **RULE**: the end. -/
theorem triple_done (h : ∀ s, pre s → post s ∧ crash s) :
    Triple pre (.done : Script S) post crash where
  moments := by
    intro s hs t ht
    rw [moments_done, List.mem_singleton] at ht
    exact ht ▸ (h s hs).2
  ends := fun s hs => (h s hs).1

/-- **RULE**: a command, with what holds behind it. -/
theorem triple_cmd (mid : S → Prop) {f : S → S} {rest : Script S}
    (hf : ∀ s, pre s → crash s ∧ mid (f s))
    (hrest : Triple mid rest post crash) :
    Triple pre (.cmd f rest) post crash where
  moments := by
    intro s hs t ht
    rcases List.mem_cons.mp ht with rfl | ht
    · exact (hf t hs).1
    · exact hrest.moments (f s) (hf s hs).2 t ht
  ends := by
    intro s hs
    rw [exec_cmd]
    exact hrest.ends (f s) (hf s hs).2

/-- **RULE**: a test, each branch knowing how it came out. -/
theorem triple_branch {test : S → Bool} {yes no : Script S}
    (hyes : Triple (fun s => pre s ∧ test s = true) yes post crash)
    (hno : Triple (fun s => pre s ∧ test s = false) no post crash) :
    Triple pre (.branch test yes no) post crash where
  moments := by
    intro s hs t ht
    rw [moments_branch] at ht
    by_cases h : test s = true
    · rw [if_pos h] at ht
      exact hyes.moments s ⟨hs, h⟩ t ht
    · rw [if_neg h] at ht
      exact hno.moments s ⟨hs, Bool.eq_false_iff.mpr h⟩ t ht
  ends := by
    intro s hs
    rw [exec_branch]
    by_cases h : test s = true
    · rw [if_pos h]
      exact hyes.ends s ⟨hs, h⟩
    · rw [if_neg h]
      exact hno.ends s ⟨hs, Bool.eq_false_iff.mpr h⟩

/-- **RULE**: one script behind another. -/
theorem triple_andThen (mid : S → Prop) {p q : Script S}
    (hp : Triple pre p mid crash)
    (hq : Triple mid q post crash) : Triple pre (p.andThen q) post crash where
  moments := by
    intro s hs t ht
    rw [moments_andThen, ← List.cons_append, List.mem_append] at ht
    rcases ht with ht | ht
    · exact hp.moments s hs t ht
    · exact hq.moments (p.exec s) (hp.ends s hs) t (List.mem_cons_of_mem _ ht)
  ends := by
    intro s hs
    rw [exec_andThen]
    exact hq.ends (p.exec s) (hp.ends s hs)

/-- A triple from the cuts themselves. -/
theorem triple_cuts {p : Script S}
    (hcut : ∀ s, pre s → ∀ n, crash (p.cut s n))
    (hend : ∀ s, pre s → post (p.exec s)) : Triple pre p post crash where
  moments := by
    intro s hs t ht
    obtain ⟨n, rfl⟩ := exists_cut ht
    exact hcut s hs n
  ends := hend

/-- Every command of the script keeps the assertion. -/
def Script.Keeps (inv : S → Prop) : Script S → Prop
  | .done => True
  | .cmd f rest => (∀ s, inv s → inv (f s)) ∧ rest.Keeps inv
  | .branch _ yes no => yes.Keeps inv ∧ no.Keeps inv

/-- What every command keeps the script keeps. -/
theorem keeps_commands {inv : S → Prop} {fs : List (S → S)}
    (h : ∀ f ∈ fs, ∀ s, inv s → inv (f s)) :
    (Script.commands fs).Keeps inv := by
  induction fs with
  | nil => exact trivial
  | cons f rest ih =>
      rw [List.forall_mem_cons] at h
      exact ⟨h.1, ih h.2⟩

/-- What both scripts keep they keep together. -/
theorem keeps_andThen {inv : S → Prop} {p q : Script S} (hp : p.Keeps inv)
    (hq : q.Keeps inv) : (p.andThen q).Keeps inv := by
  induction p with
  | done => exact hq
  | cmd f rest ih => exact ⟨hp.1, ih hp.2⟩
  | branch test yes no ihyes ihno => exact ⟨ihyes hp.1, ihno hp.2⟩

/-- **INVARIANT RULE**: what every command keeps holds at every moment. -/
theorem triple_keeps {inv : S → Prop} {p : Script S} (h : p.Keeps inv) :
    Triple inv p inv inv := by
  induction p with
  | done => exact triple_done (fun _ hs => ⟨hs, hs⟩)
  | cmd f rest ih => exact triple_cmd inv (fun s hs => ⟨hs, h.1 s hs⟩) (ih h.2)
  | branch test yes no ihyes ihno =>
      exact triple_branch
        ((ihyes h.1).weaken (fun _ hs => hs.1) (fun _ hs => hs) (fun _ hs => hs))
        ((ihno h.2).weaken (fun _ hs => hs.1) (fun _ hs => hs) (fun _ hs => hs))

/-- Wherever it is cut off, the crash condition holds. -/
theorem Triple.cut {p : Script S} (h : Triple pre p post crash) {s : S}
    (hs : pre s) (n : Nat) : crash (p.cut s n) :=
  h.moments s hs _ (cut_mem p s n)

/-! ## Starts -/

/-- A start that is cut off, and the boot behind it; what the start finds
    outside the state comes with it. -/
def start {I : Type} (p : I → Script S) (boot : S → S) (s : S) (i : I × Nat) : S :=
  boot ((p i.1).cut s i.2)

/-- **RECOVERY**: where a boot after any cut leaves what the script may start
    from, it does so after every number of starts, whatever cut them off. -/
theorem Triple.recovers {I : Type} {p : I → Script S}
    (h : ∀ i, Triple pre (p i) post crash) {boot : S → S}
    (hboot : ∀ s, crash s → pre (boot s)) (starts : List (I × Nat)) {s : S}
    (hs : pre s) : pre (run (start p boot) s starts) :=
  run_invariant pre (fun _ i ht => hboot _ ((h i.1).cut ht i.2)) starts s hs

end Rules

end ShellScript
