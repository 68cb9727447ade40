import Mathlib.Data.List.Induction

/-! # Runs — what a step preserves, a whole run preserves

    A machine is a step function from a state and an input to the next state;
    a run folds it over a list of inputs.  `visits` lists every state a run
    passes through together with the input consumed there, so that "every step
    of this run meets a condition" is a statement about one list.

    * `run_preserves`: an invariant kept by every step that meets a condition
      holds after every run whose steps all meet it;
    * `run_good_iff`: where the condition is exact for one step and no step
      repairs a bad state, it is exact for the run;
    * `whileLoop_total`: a `while` loop whose passes keep an invariant and
      lower a variant ends, and ends in the invariant. -/

namespace ShellRun

variable {S I : Type*}

/-- Fold the step over the inputs. -/
def run (step : S → I → S) (s : S) (inputs : List I) : S :=
  inputs.foldl step s

/-- The states a run passes through, each with the input consumed there. -/
def visits (step : S → I → S) : S → List I → List (S × I)
  | _, [] => []
  | s, i :: rest => (s, i) :: visits step (step s i) rest

@[simp] theorem run_nil (step : S → I → S) (s : S) : run step s [] = s := rfl

@[simp] theorem run_cons (step : S → I → S) (s : S) (i : I) (rest : List I) :
    run step s (i :: rest) = run step (step s i) rest := rfl

@[simp] theorem visits_nil (step : S → I → S) (s : S) :
    visits step s [] = [] := rfl

@[simp] theorem visits_cons (step : S → I → S) (s : S) (i : I)
    (rest : List I) :
    visits step s (i :: rest) = (s, i) :: visits step (step s i) rest := rfl

/-- The input of a visit is one of the run's. -/
theorem mem_of_mem_visits {step : S → I → S} {v : S × I} :
    ∀ (inputs : List I) (s : S), v ∈ visits step s inputs → v.2 ∈ inputs := by
  intro inputs
  induction inputs with
  | nil => intro s hv; exact absurd hv List.not_mem_nil
  | cons i rest ih =>
      intro s hv
      rcases List.mem_cons.mp hv with rfl | hv
      · exact List.mem_cons_self
      · exact List.mem_cons_of_mem i (ih _ hv)

/-- Every input of the run is consumed somewhere. -/
theorem exists_visit {step : S → I → S} {i : I} :
    ∀ (inputs : List I) (s : S), i ∈ inputs →
      ∃ t, (t, i) ∈ visits step s inputs := by
  intro inputs
  induction inputs with
  | nil => intro s hi; exact absurd hi List.not_mem_nil
  | cons j rest ih =>
      intro s hi
      rcases List.mem_cons.mp hi with rfl | hi
      · exact ⟨s, List.mem_cons_self⟩
      · obtain ⟨t, ht⟩ := ih (step s j) hi
        exact ⟨t, List.mem_cons_of_mem _ ht⟩

/-- A run goes on where its front has ended. -/
theorem run_append (step : S → I → S) (s : S) (front back : List I) :
    run step s (front ++ back) = run step (run step s front) back :=
  List.foldl_append

/-- What no input of the run changes. -/
theorem run_frame {B : Type*} {step : S → I → S} (part : S → B) :
    ∀ (inputs : List I) (s : S),
      (∀ i ∈ inputs, ∀ t, part (step t i) = part t) →
      part (run step s inputs) = part s := by
  intro inputs
  induction inputs with
  | nil => intro s _; rfl
  | cons i rest ih =>
      intro s h
      rw [List.forall_mem_cons] at h
      rw [run_cons, ih _ h.2, h.1]

/-! ## Commands -/

/-- The state a list of commands ends in, given the state after each. -/
def finalState (s : S) (states : List S) : S :=
  states.getLastD s

theorem finalState_mem (s : S) (states : List S) :
    finalState s states ∈ s :: states :=
  List.getLastD_mem_cons

theorem finalState_append (s : S) (front back : List S) :
    finalState s (front ++ back) = finalState (finalState s front) back := by
  simp only [finalState]
  induction back using List.reverseRecOn with
  | nil => simp
  | append_singleton back s' _ => simp [← List.append_assoc]

/-- A part of the last state is the last of the parts. -/
theorem finalState_map {T : Type*} (f : S → T) (s : S) (states : List S) :
    f (finalState s states) = finalState (f s) (states.map f) := by
  induction states generalizing s with
  | nil => rfl
  | cons s' rest ih =>
      rw [finalState, List.getLastD_cons, List.map_cons, finalState,
        List.getLastD_cons]
      exact ih s'

/-! ## Runs and conditions -/

/-- An event of a joined log stands in the first part or in the second. -/
theorem split_append {E : Type*} {front back before after : List E} {e : E}
    (h : front ++ back = before ++ e :: after) :
    (∃ rest, front = before ++ e :: rest)
      ∨ ∃ mid, before = front ++ mid ∧ back = mid ++ e :: after := by
  rcases List.append_eq_append_iff.mp h
    with ⟨mid, hbefore, hback⟩ | ⟨mid, hfront, hrest⟩
  · exact Or.inr ⟨mid, hbefore, hback⟩
  · cases mid with
    | nil =>
        rw [List.append_nil] at hfront
        exact Or.inr ⟨[], by rw [hfront, List.append_nil], hrest.symm⟩
    | cons x mid =>
        obtain ⟨rfl, -⟩ := List.cons.inj hrest
        exact Or.inl ⟨mid, hfront⟩

/-- Every step of the run meets the condition. -/
def AllSteps (step : S → I → S) (ok : S → I → Prop) (s : S)
    (inputs : List I) : Prop :=
  ∀ v ∈ visits step s inputs, ok v.1 v.2

theorem allSteps_nil {step : S → I → S} {ok : S → I → Prop} {s : S} :
    AllSteps step ok s [] :=
  fun _ hv => nomatch hv

/-- The first step, and those from where it leads. -/
theorem allSteps_cons {step : S → I → S} {ok : S → I → Prop} {s : S} {i : I}
    {rest : List I} :
    AllSteps step ok s (i :: rest)
      ↔ ok s i ∧ AllSteps step ok (step s i) rest := by
  simp [AllSteps]

theorem allSteps_append {step : S → I → S} {ok : S → I → Prop}
    {front back : List I} {s : S} :
    AllSteps step ok s (front ++ back)
      ↔ AllSteps step ok s front ∧ AllSteps step ok (run step s front) back := by
  induction front generalizing s with
  | nil => simp [AllSteps]
  | cons i rest ih =>
      rw [List.cons_append, allSteps_cons, allSteps_cons, ih, run_cons,
        and_assoc]

/-- **RUN INVARIANT**: what every conforming step preserves holds after every
    conforming run. -/
theorem run_preserves {step : S → I → S} {ok : S → I → Prop}
    (inv : S → Prop) (hstep : ∀ s i, inv s → ok s i → inv (step s i)) :
    ∀ (inputs : List I) (s : S), inv s → AllSteps step ok s inputs →
      inv (run step s inputs) := by
  intro inputs
  induction inputs with
  | nil => intro s hs _; exact hs
  | cons i rest ih =>
      intro s hs hok
      obtain ⟨hi, hrest⟩ := allSteps_cons.mp hok
      exact ih (step s i) (hstep s i hs hi) hrest

/-- What every step preserves holds after every run. -/
theorem run_invariant {step : S → I → S} (inv : S → Prop)
    (hstep : ∀ s i, inv s → inv (step s i)) (inputs : List I) (s : S)
    (hs : inv s) : inv (run step s inputs) :=
  run_preserves inv (fun s i hi (_ : True) => hstep s i hi) inputs s hs
    (fun _ _ => trivial)

/-- An invariant holds before every step of a run. -/
theorem allSteps_of_invariant {step : S → I → S} {inv : S → Prop}
    (hstep : ∀ s i, inv s → inv (step s i)) :
    ∀ (inputs : List I) (s : S), inv s →
      AllSteps step (fun s _ => inv s) s inputs := by
  intro inputs
  induction inputs with
  | nil => intro s _; exact allSteps_nil
  | cons i rest ih =>
      intro s hs
      exact allSteps_cons.mpr ⟨hs, ih (step s i) (hstep s i hs)⟩

/-! ## Exact laws -/

section Exact

variable {step : S → I → S} {given ok : S → I → Prop} {good : S → Prop}

/-- What no step repairs, no run repairs. -/
theorem run_stays_bad
    (hbad : ∀ s i, ¬ good s → given s i → ¬ good (step s i)) :
    ∀ (inputs : List I) (s : S), ¬ good s → AllSteps step given s inputs →
      ¬ good (run step s inputs) :=
  run_preserves (fun s => ¬ good s) hbad

/-- **EXACT LAW**: where a step keeps a good state good iff it meets the
    condition, and no step repairs a bad one, a run ends well iff all its
    steps meet the condition. -/
theorem run_good_iff
    (hstep : ∀ s i, good s → given s i → (good (step s i) ↔ ok s i))
    (hbad : ∀ s i, ¬ good s → given s i → ¬ good (step s i)) :
    ∀ (inputs : List I) (s : S), good s → AllSteps step given s inputs →
      (good (run step s inputs) ↔ AllSteps step ok s inputs) := by
  intro inputs
  induction inputs with
  | nil =>
      intro s hs _
      exact iff_of_true hs allSteps_nil
  | cons i rest ih =>
      intro s hs hgiven
      obtain ⟨hi, hrest⟩ := allSteps_cons.mp hgiven
      rw [run_cons, allSteps_cons]
      by_cases hgood : good (step s i)
      · -- the first step met the condition: the rest decides
        rw [ih (step s i) hgood hrest]
        exact (and_iff_right ((hstep s i hs hi).mp hgood)).symm
      · refine iff_of_false (run_stays_bad hbad rest _ hgood hrest) ?_
        rintro ⟨hok, -⟩
        exact hgood ((hstep s i hs hi).mpr hok)

/-- Two conditions that agree wherever the invariant holds, and keep it, are
    met by the same runs. -/
theorem allSteps_congr (inv : S → Prop) {ok ok' : S → I → Prop}
    (hsame : ∀ s i, inv s → (ok s i ↔ ok' s i))
    (hinv : ∀ s i, inv s → ok s i → inv (step s i)) :
    ∀ (inputs : List I) (s : S), inv s →
      (AllSteps step ok s inputs ↔ AllSteps step ok' s inputs) := by
  intro inputs
  induction inputs with
  | nil => intro s _; exact iff_of_true allSteps_nil allSteps_nil
  | cons i rest ih =>
      intro s hs
      rw [allSteps_cons, allSteps_cons, ← hsame s i hs]
      refine and_congr_right ?_
      intro hok
      exact ih (step s i) (hinv s i hs hok)

end Exact

/-! ## While loops -/

/-- `while guard; do body; done`, given up when the guard has been looked at
    `fuel` times. -/
def whileLoop (guard : S → Bool) (body : S → S) : Nat → S → Option S
  | 0, _ => none
  | fuel + 1, s => if guard s then whileLoop guard body fuel (body s) else some s

/-- **TOTAL CORRECTNESS**: where every pass keeps the invariant and lowers the
    variant, the loop ends within the variant's number of passes, with the
    invariant true and the guard false.  More fuel changes nothing. -/
theorem whileLoop_total {guard : S → Bool} {body : S → S} (inv : S → Prop)
    (variant : S → Nat)
    (hbody : ∀ s, inv s → guard s = true →
      inv (body s) ∧ variant (body s) < variant s) :
    ∀ (bound : Nat) (s : S), inv s → variant s ≤ bound →
      ∃ t, (∀ fuel, bound < fuel → whileLoop guard body fuel s = some t)
        ∧ inv t ∧ guard t = false := by
  intro bound
  induction bound with
  | zero =>
      intro s hs hle
      have hguard : guard s = false := by
        cases hg : guard s with
        | false => rfl
        | true =>
            have := (hbody s hs hg).2
            omega
      refine ⟨s, ?_, hs, hguard⟩
      intro fuel hfuel
      obtain ⟨fuel, rfl⟩ := Nat.exists_eq_succ_of_ne_zero (by omega : fuel ≠ 0)
      rw [whileLoop, if_neg (by simp [hguard])]
  | succ bound ih =>
      intro s hs hle
      cases hg : guard s with
      | false =>
          refine ⟨s, ?_, hs, hg⟩
          intro fuel hfuel
          obtain ⟨fuel, rfl⟩ :=
            Nat.exists_eq_succ_of_ne_zero (by omega : fuel ≠ 0)
          rw [whileLoop, if_neg (by simp [hg])]
      | true =>
          -- one pass, and the rest of the bound for the passes to come
          obtain ⟨hinv, hlt⟩ := hbody s hs hg
          obtain ⟨t, hloop, ht, hguard⟩ := ih (body s) hinv (by omega)
          refine ⟨t, ?_, ht, hguard⟩
          intro fuel hfuel
          obtain ⟨fuel, rfl⟩ :=
            Nat.exists_eq_succ_of_ne_zero (by omega : fuel ≠ 0)
          rw [whileLoop, if_pos hg]
          exact hloop fuel (by omega)

end ShellRun
