import InstallLinux.ShellRunProofs
import Mathlib.Data.List.Basic

/-! # Edits that are done again — some of them, and then all

    A script that edits a file command after command, and is cut off, begins
    with its first edits again at the next start.  Whether that does harm is a
    question about the list of edits alone: does an edit that is done stay
    done while the ones behind it are made (`Redo`)?

    * `redo_of_gone`: it does where every edit takes away what it looks for,
      and no edit brings back what another one has taken away;
    * `Redo.cuts`: then any starts, cut off anywhere, leave what one start does
      that got as far as the farthest of them, and a complete start behind
      them leaves what one complete start does (`Redo.restart`);
    * `run_filterMap`: what a list of commands does to one part of the state is
      the run of the edits among them, so that part converges over starts of
      whole scripts (`Redo.starts_end`). -/

namespace ShellEdits

open ShellRun

variable {X E : Type*} {step : X → E → X}

/-- Edits that find nothing to do. -/
theorem run_settled {x : X} :
    ∀ es : List E, (∀ e ∈ es, step x e = x) → run step x es = x := by
  intro es
  induction es with
  | nil => intro _; rfl
  | cons e rest ih =>
      intro h
      rw [List.forall_mem_cons] at h
      rw [run_cons, h.1]
      exact ih h.2

/-- However many of the edits are done, none of these has anything left to
    do. -/
def Redo (step : X → E → X) (x : X) (es : List E) : Prop :=
  ∀ n, ∀ e ∈ es.take n,
    step (run step x (es.take n)) e = run step x (es.take n)

/-! ## Where edits stay done -/

/-- What a list of edits has taken away is gone at its end. -/
theorem gone_of_allSteps {gone : E → X → Prop} {all : List E}
    (hkeep : ∀ e ∈ all, ∀ e' ∈ all, ∀ x, gone e x → gone e (step x e')) :
    ∀ (es : List E) (x : X), es ⊆ all →
      AllSteps step (fun x e => gone e (step x e)) x es →
      ∀ e ∈ es, gone e (run step x es) := by
  intro es
  induction es with
  | nil => intro x _ _ e he; exact absurd he List.not_mem_nil
  | cons e' rest ih =>
      intro x hall hsteps e he
      obtain ⟨hfirst, hrest⟩ := allSteps_cons.mp hsteps
      rw [List.cons_subset] at hall
      rw [run_cons]
      rcases List.mem_cons.mp he with rfl | he
      · -- it is gone behind its own edit, and no later one brings it back
        have hlater : AllSteps step (fun _ e' => e' ∈ all) (step x e) rest :=
          fun v hv => hall.2 (mem_of_mem_visits rest _ hv)
        exact run_preserves (gone e)
          (fun s i hs hi => hkeep e hall.1 i hi s hs) rest _ hfirst hlater
      · exact ih _ hall.2 hrest e he

/-- **NOTHING COMES BACK**: edits that take their own text away, and bring no
    other one's back, stay done. -/
theorem redo_of_gone (gone : E → X → Prop) {es : List E} {x : X}
    (hfix : ∀ e ∈ es, ∀ x, gone e x → step x e = x)
    (hkeep : ∀ e ∈ es, ∀ e' ∈ es, ∀ x, gone e x → gone e (step x e'))
    (hclear : AllSteps step (fun x e => gone e (step x e)) x es) :
    Redo step x es := by
  intro n e he
  have hfront : AllSteps step (fun x e => gone e (step x e)) x (es.take n) := by
    rw [← List.take_append_drop n es, allSteps_append] at hclear
    exact hclear.1
  exact hfix e (List.mem_of_mem_take he) _
    (gone_of_allSteps hkeep _ x (List.take_subset n es) hfront e he)

/-- One edit that finds nothing to do behind itself. -/
theorem redo_singleton {x : X} {e : E} (h : step (step x e) e = step x e) :
    Redo step x [e] := by
  intro n e' he'
  cases n with
  | zero => exact absurd he' List.not_mem_nil
  | succ n =>
      rw [List.take_succ_cons, List.take_nil] at he' ⊢
      rw [List.mem_singleton.mp he']
      exact h

/-! ## Starts that are cut off -/

/-- Some of the edits behind some of them. -/
theorem Redo.again {x : X} {es : List E} (h : Redo step x es) (m n : Nat) :
    run step (run step x (es.take n)) (es.take m)
      = run step x (es.take (max m n)) := by
  rcases Nat.le_total m n with hle | hle
  · rw [Nat.max_eq_right hle]
    refine run_settled _ ?_
    intro e he
    exact h n e (List.take_subset_take_left es hle he)
  · -- the first `n` do nothing again, the others follow
    have hsplit : es.take m = es.take n ++ (es.take m).drop n := by
      conv_lhs => rw [← List.take_append_drop n (es.take m)]
      rw [List.take_take, Nat.min_eq_left hle]
    rw [Nat.max_eq_left hle, hsplit, run_append, run_append,
      run_settled (es.take n) (h n)]

/-- **CUTS**: any starts leave what the farthest of them has done. -/
theorem Redo.cuts {x : X} {es : List E} (h : Redo step x es) (cuts : List Nat)
    (k : Nat) :
    run (fun x n => run step x (es.take n)) (run step x (es.take k)) cuts
      = run step x (es.take (cuts.foldl max k)) := by
  induction cuts generalizing k with
  | nil => rfl
  | cons n rest ih =>
      rw [run_cons, h.again, Nat.max_comm, ih, List.foldl_cons]

/-- **RESTART**: all edits behind some of them. -/
theorem Redo.restart {x : X} {es : List E} (h : Redo step x es) (k : Nat) :
    run step (run step x (es.take k)) es = run step x es := by
  have hall := h.again (max k es.length) k
  rw [Nat.max_eq_left (Nat.le_max_left k es.length),
    List.take_of_length_le (Nat.le_max_right k es.length)] at hall
  exact hall

/-! ## One part of a state -/

/-- The edits among commands that are cut off are some of the edits. -/
theorem exists_take_filterMap {C : Type*} (f : C → Option E) (cs : List C)
    (n : Nat) :
    ∃ k, (cs.take n).filterMap f = (cs.filterMap f).take k :=
  ⟨_, List.prefix_iff_eq_take.mp ((List.take_prefix n cs).filterMap f)⟩

/-- **PROJECTION**: the part that only some commands edit. -/
theorem run_filterMap {S C : Type*} {exec : S → C → S} {part : S → X}
    {f : C → Option E}
    (hexec : ∀ s c, part (exec s c) = ((f c).map (step (part s))).getD (part s))
    (cs : List C) (s : S) :
    part (run exec s cs) = run step (part s) (cs.filterMap f) := by
  induction cs generalizing s with
  | nil => rfl
  | cons c rest ih =>
      rw [run_cons, ih, hexec]
      cases hf : f c with
      | none => rw [List.filterMap_cons_none hf]; rfl
      | some e => rw [List.filterMap_cons_some hf]; rfl

/-- Starts of scripts that make the same edits, cut off anywhere. -/
theorem Redo.starts {S C A : Type*} {exec : S → C → S} {part : S → X}
    {f : C → Option E}
    (hexec : ∀ s c, part (exec s c) = ((f c).map (step (part s))).getD (part s))
    {cs : A → List C} {es : List E} (hes : ∀ a, (cs a).filterMap f = es) {s : S}
    (h : Redo step (part s) es) (starts : List (A × Nat)) :
    ∃ k, part (run (fun s a => run exec s ((cs a.1).take a.2)) s starts)
      = run step (part s) (es.take k) := by
  refine run_invariant (fun t => ∃ k, part t = run step (part s) (es.take k))
    ?_ starts s ⟨0, rfl⟩
  rintro t ⟨a, n⟩ ⟨k, hk⟩
  obtain ⟨m, hm⟩ := exists_take_filterMap f (cs a) n
  exact ⟨max m k, by rw [run_filterMap hexec, hm, hes, hk, h.again]⟩

/-- **CONVERGENCE**: a complete start behind them leaves what it would have
    left by itself. -/
theorem Redo.starts_end {S C A : Type*} {exec : S → C → S} {part : S → X}
    {f : C → Option E}
    (hexec : ∀ s c, part (exec s c) = ((f c).map (step (part s))).getD (part s))
    {cs : A → List C} {es : List E} (hes : ∀ a, (cs a).filterMap f = es) {s : S}
    (h : Redo step (part s) es) (starts : List (A × Nat)) (last : A) :
    part (run exec
        (run (fun s a => run exec s ((cs a.1).take a.2)) s starts) (cs last))
      = run step (part s) es := by
  obtain ⟨k, hk⟩ := h.starts hexec hes starts
  rw [run_filterMap hexec, hes, hk, h.restart]

/-- A list of parts, each edited by itself. -/
theorem run_map (xs : List X) (es : List E) :
    run (fun xs e => xs.map (fun x => step x e)) xs es
      = xs.map (fun x => run step x es) := by
  induction es generalizing xs with
  | nil => exact (List.map_id' xs).symm
  | cons e rest ih =>
      rw [run_cons, ih, List.map_map]
      rfl

/-- What can be done again on each item can be on all of them. -/
theorem redo_map {xs : List X} {es : List E}
    (h : ∀ x ∈ xs, Redo step x es) :
    Redo (fun xs e => xs.map (fun x => step x e)) xs es := by
  intro n e he
  rw [run_map]
  show List.map _ (List.map _ xs) = _
  rw [List.map_map]
  exact List.map_congr_left (fun x hx => h x hx n e he)

end ShellEdits
