import InstallLinux.ShellRunProofs
import Mathlib.Data.List.Nodup
import Mathlib.Logic.Function.Iterate

/-! # Counters — values handed out item by item

    A family of counters is read and advanced item by item: every item takes
    the value of the counter its key names, and that counter moves on.

    * `run_tick`: after some items a counter stands as many steps on as items
      have used it;
    * `mem_handed`: which values are handed out;
    * `handed_nodup`: a counter that never comes back to a value hands each
      out once. -/

namespace ShellCounter

open ShellRun

variable {K V D : Type*} [DecidableEq K] (next : V → V) (key : D → K)

/-- How many of the items use the counter. -/
def uses (k : K) (items : List D) : Nat :=
  items.countP (fun d => key d = k)

/-- An item advances its counter. -/
def tick (c : K → V) (d : D) : K → V :=
  Function.update c (key d) (next (c (key d)))

/-- The items, each with the value it takes. -/
def handed (c : K → V) (items : List D) : List (D × V) :=
  (visits (tick next key) c items).map (fun v => (v.2, v.1 (key v.2)))

@[simp] theorem uses_nil (k : K) : uses key k ([] : List D) = 0 := rfl

theorem uses_cons (k : K) (d : D) (rest : List D) :
    uses key k (d :: rest) = uses key k rest + if key d = k then 1 else 0 := by
  simp [uses, List.countP_cons]

theorem uses_append (k : K) (front back : List D) :
    uses key k (front ++ back) = uses key k front + uses key k back :=
  List.countP_append

@[simp] theorem handed_nil (c : K → V) :
    handed next key c ([] : List D) = [] := rfl

@[simp] theorem handed_cons (c : K → V) (d : D) (rest : List D) :
    handed next key c (d :: rest)
      = (d, c (key d)) :: handed next key (tick next key c d) rest := rfl

/-- What an item does to one counter. -/
theorem tick_apply (c : K → V) (d : D) (k : K) :
    tick next key c d k = next^[if key d = k then 1 else 0] (c k) := by
  rw [tick, Function.update_apply]
  by_cases h : key d = k
  · subst h
    simp
  · rw [if_neg (Ne.symm h), if_neg h]
    rfl

/-- **THE RUN**: a counter has moved on once for every item that uses it. -/
theorem run_tick (c : K → V) (items : List D) (k : K) :
    run (tick next key) c items k = next^[uses key k items] (c k) := by
  induction items generalizing c with
  | nil => rfl
  | cons d rest ih =>
      rw [run_cons, ih, tick_apply, uses_cons, Function.iterate_add_apply]

/-- An item gets its counter, moved on once for every item before it. -/
theorem mem_handed {c : K → V} {items : List D} {d : D} {x : V} :
    (d, x) ∈ handed next key c items
      ↔ ∃ front back, items = front ++ d :: back
        ∧ x = next^[uses key (key d) front] (c (key d)) := by
  induction items generalizing c with
  | nil => simp
  | cons e rest ih =>
      rw [handed_cons, List.mem_cons, ih]
      constructor
      · rintro (heq | ⟨front, back, rfl, rfl⟩)
        · obtain ⟨rfl, rfl⟩ := Prod.mk.inj heq
          exact ⟨[], rest, rfl, rfl⟩
        · refine ⟨e :: front, back, rfl, ?_⟩
          rw [tick_apply, uses_cons, Function.iterate_add_apply]
      · rintro ⟨front, back, hsplit, rfl⟩
        cases front with
        | nil =>
            obtain ⟨rfl, -⟩ := List.cons.inj hsplit
            exact Or.inl rfl
        | cons f front =>
            obtain ⟨rfl, rfl⟩ := List.cons.inj hsplit
            refine Or.inr ⟨front, back, rfl, ?_⟩
            rw [tick_apply, uses_cons, Function.iterate_add_apply]

/-- A counter that never comes back to a value keeps that when it moves on. -/
theorem tick_injective {c : K → V}
    (hinj : ∀ k, Function.Injective (fun i => next^[i] (c k))) (d : D)
    (k : K) : Function.Injective (fun i => next^[i] (tick next key c d k)) := by
  intro i j hij
  simp only [tick_apply, ← Function.iterate_add_apply] at hij
  exact Nat.add_right_cancel (hinj k hij)

/-- **NO VALUE TWICE**: no counter hands a value out a second time. -/
theorem handed_nodup {c : K → V}
    (hinj : ∀ k, Function.Injective (fun i => next^[i] (c k)))
    (items : List D) :
    ((handed next key c items).map (fun p => (key p.1, p.2))).Nodup := by
  induction items generalizing c with
  | nil => exact List.nodup_nil
  | cons d rest ih =>
      rw [handed_cons, List.map_cons, List.nodup_cons]
      refine ⟨?_, ih (tick_injective next key hinj d)⟩
      intro hmem
      obtain ⟨⟨e, x⟩, he, heq⟩ := List.mem_map.mp hmem
      obtain ⟨front, back, -, rfl⟩ := (mem_handed next key).mp he
      have hkey : key e = key d := (Prod.mk.inj heq).1
      have hx : next^[uses key (key e) front] (tick next key c d (key e))
          = c (key d) := (Prod.mk.inj heq).2
      -- the counter has moved on since, and would have come back
      rw [hkey, tick_apply, if_pos rfl, ← Function.iterate_add_apply] at hx
      exact absurd (@hinj (key d) _ 0 hx) (Nat.succ_ne_zero _)

/-- The users of a counter come one after the other: each number below their
    count is the number of users before one of them. -/
theorem lt_uses_iff {k : K} {items : List D} {n : Nat} :
    n < uses key k items
      ↔ ∃ front d back, items = front ++ d :: back ∧ key d = k
        ∧ uses key k front = n := by
  constructor
  · intro h
    induction items generalizing n with
    | nil => exact absurd h (Nat.not_lt_zero n)
    | cons e rest ih =>
        rw [uses_cons] at h
        by_cases he : key e = k
        · cases n with
          | zero => exact ⟨[], e, rest, rfl, he, rfl⟩
          | succ n =>
              rw [if_pos he] at h
              obtain ⟨front, d, back, rfl, hd, hn⟩ :=
                ih (Nat.lt_of_succ_lt_succ h)
              refine ⟨e :: front, d, back, rfl, hd, ?_⟩
              rw [uses_cons, if_pos he, hn]
        · rw [if_neg he] at h
          obtain ⟨front, d, back, rfl, hd, hn⟩ := ih h
          refine ⟨e :: front, d, back, rfl, hd, ?_⟩
          rw [uses_cons, if_neg he, hn]
          rfl
  · rintro ⟨front, d, back, rfl, hd, rfl⟩
    rw [uses_append, uses_cons, if_pos hd]
    omega

end ShellCounter
