import InstallLinux.SetupShareProofs

/-! # Retrying a copy — a recursion from inside the prompt

    A copy procedure that does not find its file asks whether to try again; a
    `[Yy]*` calls the procedure from inside the endless prompt loop and leaves
    the loop when that call is back.  Availability is a sequence over the
    attempts, the answers are a list; a call reads the shortest prefix of the
    answers on which it returns (`ReadsUpTo`).

    * `asked`: a dialogue of a procedure that calls itself, by induction on
      the answers, from any attempt on;
    * `asked_once`: the dialogue of `_ai_assets_full`, whose retry has a wrong
      name, makes no further attempt;
    * `retried_iff`: so the third copy retries only where it need not. -/

namespace SetupShareRetry

open ShellText SetupShare

/-! ## The three procedures -/

inductive Copier where
  | vizAssets
  | aiAssetsFull
  | aiAssetsSmall
  deriving DecidableEq

def Copier.share : Copier → Share
  | .vizAssets => .vizgen
  | .aiAssetsFull => .don
  | .aiAssetsSmall => .don

/-- The conditions on the machine and the order. -/
def Copier.meets (site : Site) : Copier → Bool
  | .vizAssets => true
  | .aiAssetsFull => decide (4 ≤ site.gpus) && aiPlatform site
      && (grep "\"ai server\"".toList site.order
        || grep "\"machine learning\"".toList site.order)
  | .aiAssetsSmall => decide (site.gpus < 4) && aiPlatform site
      && grep "\"ai server\"".toList site.order

/-- A call of the procedure. -/
def call (site : Site) (attempts : Nat → Attempt) (answers : List Text)
    (st : System) : Copier → System
  | .vizAssets => vizAssets attempts answers st
  | .aiAssetsFull => aiAssetsFull site attempts answers st
  | .aiAssetsSmall => aiAssetsSmall site attempts answers st

/-- Whether the retry calls the procedure itself. -/
def Copier.retries : Copier → Bool
  | .vizAssets => true
  | .aiAssetsFull => false
  | .aiAssetsSmall => true

/-- Behind its conditions each is the common procedure. -/
theorem call_eq {site : Site} {c : Copier} (h : c.meets site = true)
    (attempts : Nat → Attempt) (answers : List Text) (st : System) :
    call site attempts answers st c
      = copyFrom ⟨c.share, c.retries⟩ attempts answers st := by
  cases c with
  | vizAssets => rfl
  | aiAssetsFull =>
      simp only [Copier.meets, Bool.and_eq_true, decide_eq_true_eq,
        and_assoc] at h
      show aiAssetsFull site attempts answers st = _
      rw [aiAssetsFull, if_pos h]
      rfl
  | aiAssetsSmall =>
      simp only [Copier.meets, Bool.and_eq_true, decide_eq_true_eq,
        and_assoc] at h
      show aiAssetsSmall site attempts answers st = _
      rw [aiAssetsSmall, if_pos h]
      rfl

/-! ## Attempts -/

section Attempts

variable (share : Share) (attempts : Nat → Attempt) (start : List Share)

/-- What is mounted before attempt `k`, every attempt before it having mounted
    and unmounted once. -/
def stackAt : Nat → List Share
  | 0 => start
  | k + 1 => (if (attempts k).mounts then share :: stackAt k
      else stackAt k).tail

/-- What is mounted when attempt `k` tests its file. -/
def mountedAt (k : Nat) : List Share :=
  if (attempts k).mounts then share :: stackAt share attempts start k
  else stackAt share attempts start k

/-- Attempt `k` finds its file. -/
def found (k : Nat) : Bool :=
  (attempts k).present && !(mountedAt share attempts start k).isEmpty

theorem stackAt_succ (k : Nat) : stackAt share attempts start (k + 1)
    = (mountedAt share attempts start k).tail := rfl

/-- With nothing mounted at the start, the share has to be mounted and to hold
    the file. -/
theorem found_of_unmounted (k : Nat) :
    found share attempts [] k
      = ((attempts k).present && (attempts k).mounts) := by
  have hempty : stackAt share attempts [] k = [] := by
    induction k with
    | zero => rfl
    | succ k ih =>
        rw [stackAt, ih]
        split <;> rfl
  rw [found, mountedAt, hempty]
  cases (attempts k).mounts <;> rfl

end Attempts

/-- The `[Yy]*` answers in front of the first `[Nn]*`. -/
def yesBeforeNo (answers : List Text) : Nat :=
  (answers.takeWhile (fun yn => !isNo yn)).countP isYes

/-- The call returns on the first `n` answers, and on no fewer. -/
def ReadsUpTo (result : List Text → System) (answers : List Text) (n : Nat) :
    Prop :=
  (result (answers.take n)).waiting = false
    ∧ ∀ m < n, (result (answers.take m)).waiting = true

/-- What a call adds to the log, where retrying really retries: the copy is
    made iff some attempt finds the file that is no later than the first
    `[Nn]*`, it is made once, and each `[Yy]*` that is read makes one more
    attempt. -/
def Retried (share : Share) (attempts : Nat → Attempt) (answers : List Text)
    (st : System) (result : List Text → System) : Prop :=
  ∃ added, (result answers).events = st.events ++ added
    ∧ (.copied share ∈ added
      ↔ ∃ k ≤ yesBeforeNo answers, found share attempts st.stack k = true)
    ∧ added.count (.copied share) ≤ 1
    ∧ ∃ n, ReadsUpTo result answers n
      ∧ added.count (.attempted share) = 1 + (answers.take n).countP isYes

/-! ## Answers -/

theorem yesBeforeNo_yes {yn : Text} (h : isYes yn = true)
    (answers : List Text) :
    yesBeforeNo (yn :: answers) = yesBeforeNo answers + 1 := by
  rw [yesBeforeNo, List.takeWhile_cons, isNo_of_isYes h, if_pos (by decide),
    List.countP_cons_of_pos h, yesBeforeNo]

theorem yesBeforeNo_no {yn : Text} (h : isNo yn = true)
    (answers : List Text) : yesBeforeNo (yn :: answers) = 0 := by
  rw [yesBeforeNo, List.takeWhile_cons, h, if_neg (by decide), List.countP_nil]

theorem yesBeforeNo_other {yn : Text} (hyes : ¬ isYes yn = true)
    (hno : ¬ isNo yn = true) (answers : List Text) :
    yesBeforeNo (yn :: answers) = yesBeforeNo answers := by
  rw [yesBeforeNo, List.takeWhile_cons, Bool.eq_false_iff.mpr hno,
    if_pos (by decide), List.countP_cons_of_neg hyes, yesBeforeNo]

/-- How many answers a call reads is determined. -/
theorem ReadsUpTo.unique {result : List Text → System} {answers : List Text}
    {m n : Nat} (hm : ReadsUpTo result answers m)
    (hn : ReadsUpTo result answers n) : m = n := by
  rcases Nat.lt_trichotomy m n with hlt | heq | hlt
  · have := hn.2 m hlt
    rw [hm.1] at this
    exact absurd this Bool.false_ne_true
  · exact heq
  · have := hm.2 n hlt
    rw [hn.1] at this
    exact absurd this Bool.false_ne_true

/-- A call that waits for an answer and goes on as another call. -/
theorem ReadsUpTo.cons {result next : List Text → System} {yn : Text}
    {answers : List Text} {n : Nat} (hnil : (result []).waiting = true)
    (hcons : ∀ answers, result (yn :: answers) = next answers)
    (h : ReadsUpTo next answers n) :
    ReadsUpTo result (yn :: answers) (n + 1) := by
  refine ⟨?_, ?_⟩
  · rw [List.take_succ_cons, hcons]
    exact h.1
  · intro m hm
    cases m with
    | zero => exact hnil
    | succ m =>
        rw [List.take_succ_cons, hcons]
        exact h.2 m (Nat.lt_of_succ_lt_succ hm)

/-- A call that waits for no answer. -/
theorem readsUpTo_zero {result : List Text → System} {answers : List Text}
    (h : (result []).waiting = false) : ReadsUpTo result answers 0 :=
  ⟨h, fun m hm => absurd hm (Nat.not_lt_zero m)⟩

/-! ## One attempt -/

section Dialogue

variable {p : Procedure} {attempts : Nat → Attempt} {start : List Share}
  {k : Nat} {st : System}

/-- The mount of attempt `k`. -/
def mounted (p : Procedure) (attempts : Nat → Attempt) (k : Nat)
    (st : System) : System :=
  mountShare p.share (attempts k).mounts st

theorem mounted_stack (hst : st.stack = stackAt p.share attempts start k) :
    (mounted p attempts k st).stack = mountedAt p.share attempts start k := by
  rw [mounted, mountShare, mountedAt, ← hst]
  split <;> rfl

theorem mounted_events : (mounted p attempts k st).events
    = st.events ++ [.attempted p.share] := by
  rw [mounted, mountShare]
  split <;> rfl

theorem mounted_waiting : (mounted p attempts k st).waiting = st.waiting := by
  rw [mounted, mountShare]
  split <;> rfl

/-- A retry takes the share off, removes the directory and mounts again. -/
theorem remounted_events : (mounted p attempts k (removeDir (unmount st))).events
    = st.events ++ [.removed st.stack.tail, .attempted p.share] := by
  rw [mounted_events]
  exact List.append_assoc st.events _ _

/-- The copy, and the removal after it. -/
def copied (share : Share) (st : System) : System :=
  removeDir (unmount (st.log (.copied share)))

theorem copied_events (share : Share) : (copied share st).events
    = st.events ++ [.copied share, .removed st.stack.tail] :=
  List.append_assoc st.events _ _

/-- The file is there: it is copied and the share taken off. -/
theorem arrive_found (hst : st.stack = stackAt p.share attempts start k)
    (hfound : found p.share attempts start k = true)
    (notFound : System → System) :
    arrive p (attempts k) st notFound
      = copied p.share (mounted p attempts k st) := by
  rw [found, Bool.and_eq_true, ← mounted_stack hst, Bool.not_eq_true',
    List.isEmpty_eq_false_iff] at hfound
  exact if_pos hfound

/-- It is not: the questions start. -/
theorem arrive_not_found (hst : st.stack = stackAt p.share attempts start k)
    (hfound : ¬ found p.share attempts start k = true)
    (notFound : System → System) :
    arrive p (attempts k) st notFound
      = notFound (mounted p attempts k st) := by
  rw [found, Bool.and_eq_true, ← mounted_stack hst, Bool.not_eq_true',
    List.isEmpty_eq_false_iff] at hfound
  exact if_neg hfound

/-! ## The dialogue -/

/-- What a finished dialogue adds, `next j` telling whether the attempt after
    the `j`-th further `[Yy]*` finds the file. -/
structure Asked (share : Share) (result : List Text → System)
    (answers : List Text) (next : Nat → Bool) (added : List Event) : Prop where
  copied : .copied share ∈ added ↔ ∃ j < yesBeforeNo answers, next j = true
  once : added.count (.copied share) ≤ 1
  reads : ∃ n, ReadsUpTo result answers n
    ∧ added.count (.attempted share) = (answers.take n).countP isYes

section Rules

variable {share : Share} {result result' : List Text → System} {yn : Text}
  {answers : List Text} {next : Nat → Bool} {added : List Event}

/-- A yes, and the file is there. -/
theorem Asked.yes_found (hyes : isYes yn = true)
    (hnil : (result []).waiting = true)
    (hcons : ∀ answers, result (yn :: answers) = result' answers)
    (hreturns : (result' []).waiting = false) (hfirst : next 0 = true)
    (before after : List Share) :
    Asked share result (yn :: answers) next
      [.removed before, .attempted share, .copied share, .removed after] where
  copied := by
    refine iff_of_true (by simp) ⟨0, ?_, hfirst⟩
    rw [yesBeforeNo_yes hyes]
    exact Nat.succ_pos _
  once := by simp
  reads := by
    refine ⟨1, (readsUpTo_zero hreturns).cons hnil hcons, ?_⟩
    rw [List.take_succ_cons, List.take_zero, List.countP_cons_of_pos hyes]
    simp

/-- A yes, and the questions go on. -/
theorem Asked.yes_more (hyes : isYes yn = true)
    (hnil : (result []).waiting = true)
    (hcons : ∀ answers, result (yn :: answers) = result' answers)
    (hfirst : ¬ next 0 = true)
    (h : Asked share result' answers (fun j => next (j + 1)) added)
    (before : List Share) :
    Asked share result (yn :: answers) next
      (.removed before :: .attempted share :: added) where
  copied := by
    have hmem : .copied share ∈ Event.removed before :: .attempted share :: added
        ↔ .copied share ∈ added := by simp
    rw [hmem, h.copied, yesBeforeNo_yes hyes]
    constructor
    · rintro ⟨j, hj, hnext⟩
      exact ⟨j + 1, Nat.succ_lt_succ hj, hnext⟩
    · rintro ⟨j, hj, hnext⟩
      cases j with
      | zero => exact absurd hnext hfirst
      | succ j => exact ⟨j, Nat.lt_of_succ_lt_succ hj, hnext⟩
  once := by simpa using h.once
  reads := by
    obtain ⟨n, hn, hcount⟩ := h.reads
    refine ⟨n + 1, hn.cons hnil hcons, ?_⟩
    rw [List.take_succ_cons, List.countP_cons_of_pos hyes, ← hcount]
    simp

/-- A no. -/
theorem Asked.no (hno : isNo yn = true) (hnil : (result []).waiting = true)
    (hcons : ∀ answers, result (yn :: answers) = result' answers)
    (hreturns : (result' []).waiting = false) (left : List Share) :
    Asked share result (yn :: answers) next [.abandoned left] where
  copied := by
    rw [yesBeforeNo_no hno]
    refine iff_of_false (by simp) ?_
    rintro ⟨j, hj, -⟩
    exact absurd hj (Nat.not_lt_zero j)
  once := by simp
  reads := by
    have hyes : ¬ isYes yn = true := by
      intro hyes
      rw [isNo_of_isYes hyes] at hno
      exact Bool.false_ne_true hno
    refine ⟨1, (readsUpTo_zero hreturns).cons hnil hcons, ?_⟩
    rw [List.take_succ_cons, List.take_zero, List.countP_cons_of_neg hyes]
    simp

/-- Neither: the question is put again. -/
theorem Asked.other (hyes : ¬ isYes yn = true) (hno : ¬ isNo yn = true)
    (hnil : (result []).waiting = true)
    (hcons : ∀ answers, result (yn :: answers) = result' answers)
    (h : Asked share result' answers next added) :
    Asked share result (yn :: answers) next added where
  copied := by
    rw [yesBeforeNo_other hyes hno]
    exact h.copied
  once := h.once
  reads := by
    obtain ⟨n, hn, hcount⟩ := h.reads
    refine ⟨n + 1, hn.cons hnil hcons, ?_⟩
    rw [List.take_succ_cons, List.countP_cons_of_neg hyes, hcount]

end Rules

/-- **THE DIALOGUE**: a procedure that calls itself makes one more attempt for
    each `[Yy]*`, until one finds the file or the operator gives up. -/
theorem asked (hretries : p.retries = true) :
    ∀ (answers : List Text) (k : Nat) (st : System),
      st.stack = mountedAt p.share attempts start k → st.waiting = false →
      (askAgain p attempts k answers st).waiting = false →
      ∃ added, (askAgain p attempts k answers st).events = st.events ++ added
        ∧ Asked p.share (fun answers => askAgain p attempts k answers st)
          answers (fun j => found p.share attempts start (k + 1 + j)) added := by
  intro answers
  induction answers with
  | nil =>
      intro k st _ _ hreturns
      exact absurd hreturns (by simp [askAgain])
  | cons yn answers ih =>
      intro k st hst hwaiting hreturns
      by_cases hyes : isYes yn = true
      · -- the share comes off, and the next attempt begins where it began
        have hoff : (removeDir (unmount st)).stack
            = stackAt p.share attempts start (k + 1) := by
          rw [stackAt_succ, ← hst]
          rfl
        by_cases hfound : found p.share attempts start (k + 1) = true
        · have hcons : ∀ answers, askAgain p attempts k (yn :: answers) st
              = copied p.share
                (mounted p attempts (k + 1) (removeDir (unmount st))) := by
            intro answers
            rw [askAgain_yes hyes, if_pos hretries]
            exact arrive_found hoff hfound _
          have hback : (copied p.share (mounted p attempts (k + 1)
              (removeDir (unmount st)))).waiting = false := by
            show (mounted p attempts (k + 1) _).waiting = false
            rw [mounted_waiting]
            exact hwaiting
          refine ⟨_, ?_, Asked.yes_found hyes rfl hcons hback hfound
            st.stack.tail (mountedAt p.share attempts start (k + 1)).tail⟩
          rw [hcons, copied_events, remounted_events, mounted_stack hoff,
            List.append_assoc]
          rfl
        · have hcons : ∀ answers, askAgain p attempts k (yn :: answers) st
              = askAgain p attempts (k + 1) answers
                (mounted p attempts (k + 1) (removeDir (unmount st))) := by
            intro answers
            rw [askAgain_yes hyes, if_pos hretries]
            exact arrive_not_found hoff hfound _
          rw [hcons] at hreturns
          obtain ⟨added, hadded, hasked⟩ := ih (k + 1) _ (mounted_stack hoff)
            (by rw [mounted_waiting]; exact hwaiting) hreturns
          have hshift : (fun j => found p.share attempts start (k + 1 + 1 + j))
              = fun j => found p.share attempts start (k + 1 + (j + 1)) :=
            funext (fun j => by rw [Nat.add_assoc (k + 1), Nat.add_comm 1])
          rw [hshift] at hasked
          refine ⟨_, ?_, Asked.yes_more hyes rfl hcons hfound hasked
            st.stack.tail⟩
          rw [hcons, hadded, remounted_events, List.append_assoc]
          rfl
      · by_cases hno : isNo yn = true
        · refine ⟨_, ?_, Asked.no hno rfl
            (fun answers => askAgain_no hno answers st) hwaiting st.stack⟩
          rw [askAgain_no hno]
          rfl
        · rw [askAgain_other hyes hno] at hreturns ⊢
          obtain ⟨added, hadded, hasked⟩ := ih k st hst hwaiting hreturns
          exact ⟨added, hadded, hasked.other hyes hno rfl
            (fun answers => askAgain_other hyes hno answers st)⟩

/-- **WITHOUT A RETRY**: the dialogue makes no attempt and no copy, and it has
    read a `[Yy]*` iff one comes before the first `[Nn]*`. -/
theorem asked_once (hretries : p.retries = false) :
    ∀ (answers : List Text) (k : Nat) (st : System), st.waiting = false →
      (askAgain p attempts k answers st).waiting = false →
      ∃ added n, (askAgain p attempts k answers st).events = st.events ++ added
        ∧ .copied p.share ∉ added ∧ .attempted p.share ∉ added
        ∧ ReadsUpTo (fun answers => askAgain p attempts k answers st) answers n
        ∧ ((answers.take n).countP isYes = 0 ↔ yesBeforeNo answers = 0) := by
  intro answers
  induction answers with
  | nil =>
      intro k st _ hreturns
      exact absurd hreturns (by simp [askAgain])
  | cons yn answers ih =>
      intro k st hwaiting hreturns
      by_cases hyes : isYes yn = true
      · -- the call of a missing function comes back at once
        have hcons : ∀ answers, askAgain p attempts k (yn :: answers) st
            = removeDir (unmount st) := by
          intro answers
          rw [askAgain_yes hyes, if_neg (Bool.eq_false_iff.mp hretries)]
        refine ⟨[.removed st.stack.tail], 1, ?_, by simp, by simp,
          (readsUpTo_zero hwaiting).cons rfl hcons, ?_⟩
        · rw [hcons]
          rfl
        · rw [List.take_succ_cons, List.take_zero,
            List.countP_cons_of_pos hyes, yesBeforeNo_yes hyes]
          exact iff_of_false (Nat.succ_ne_zero _) (Nat.succ_ne_zero _)
      · by_cases hno : isNo yn = true
        · refine ⟨[.abandoned st.stack], 1, ?_, by simp, by simp,
            (readsUpTo_zero hwaiting).cons rfl
              (fun answers => askAgain_no hno answers st), ?_⟩
          · rw [askAgain_no hno]
            rfl
          · rw [List.take_succ_cons, List.take_zero,
              List.countP_cons_of_neg hyes, yesBeforeNo_no hno]
            exact iff_of_true List.countP_nil rfl
        · rw [askAgain_other hyes hno] at hreturns ⊢
          obtain ⟨added, n, hadded, hcopied, hattempted, hn, hcount⟩ :=
            ih k st hwaiting hreturns
          refine ⟨added, n + 1, hadded, hcopied, hattempted,
            hn.cons rfl (fun answers => askAgain_other hyes hno answers st), ?_⟩
          rw [List.take_succ_cons, List.countP_cons_of_neg hyes,
            yesBeforeNo_other hyes hno]
          exact hcount

/-! ## A call -/

/-- The file is there at once. -/
theorem retried_of_found (hfound : found p.share attempts st.stack 0 = true)
    (hwaiting : st.waiting = false) (answers : List Text) :
    Retried p.share attempts answers st
      (fun answers => copyFrom p attempts answers st) := by
  have hcopy : ∀ answers, copyFrom p attempts answers st
      = copied p.share (mounted p attempts 0 st) :=
    fun answers => arrive_found rfl hfound _
  have hback : (copied p.share (mounted p attempts 0 st)).waiting = false := by
    show (mounted p attempts 0 st).waiting = false
    rw [mounted_waiting]
    exact hwaiting
  refine ⟨[.attempted p.share, .copied p.share,
    .removed (mounted p attempts 0 st).stack.tail], ?_, ?_, by simp, 0, ?_, ?_⟩
  · show (copyFrom p attempts answers st).events = _
    rw [hcopy, copied_events, mounted_events, List.append_assoc]
    rfl
  · exact iff_of_true (by simp) ⟨0, Nat.zero_le _, hfound⟩
  · refine readsUpTo_zero ?_
    show (copyFrom p attempts [] st).waiting = false
    rw [hcopy]
    exact hback
  · simp

/-- It is not: the dialogue decides. -/
theorem copyFrom_not_found
    (hfound : ¬ found p.share attempts st.stack 0 = true)
    (answers : List Text) :
    copyFrom p attempts answers st
      = askAgain p attempts 0 answers (mounted p attempts 0 st) :=
  arrive_not_found rfl hfound _

/-- A procedure that calls itself retries. -/
theorem retried_copyFrom (hretries : p.retries = true)
    (hwaiting : st.waiting = false) {answers : List Text}
    (hreturns : (copyFrom p attempts answers st).waiting = false) :
    Retried p.share attempts answers st
      (fun answers => copyFrom p attempts answers st) := by
  by_cases hfound : found p.share attempts st.stack 0 = true
  · exact retried_of_found hfound hwaiting answers
  · rw [copyFrom_not_found hfound] at hreturns
    obtain ⟨added, hadded, hasked⟩ := asked hretries answers 0 _
      (mounted_stack rfl) (by rw [mounted_waiting]; exact hwaiting) hreturns
    obtain ⟨n, hn, hcount⟩ := hasked.reads
    have hdialogue : (fun answers => copyFrom p attempts answers st)
        = fun answers => askAgain p attempts 0 answers (mounted p attempts 0 st)
      := funext (copyFrom_not_found hfound)
    rw [hdialogue]
    refine ⟨.attempted p.share :: added, ?_, ?_, ?_, n, hn, ?_⟩
    · show (askAgain p attempts 0 answers _).events = _
      rw [hadded, mounted_events, List.append_assoc]
      rfl
    · rw [List.mem_cons, or_iff_right (by simp), hasked.copied]
      constructor
      · rintro ⟨j, hj, hnext⟩
        exact ⟨0 + 1 + j, by omega, hnext⟩
      · rintro ⟨k, hk, hnext⟩
        cases k with
        | zero => exact absurd hnext hfound
        | succ j =>
            refine ⟨j, hk, ?_⟩
            rw [Nat.zero_add, Nat.add_comm 1]
            exact hnext
    · simpa using hasked.once
    · rw [List.count_cons_self, hcount, Nat.add_comm]

/-- One that does not retries where it is not asked to. -/
theorem retried_copyFrom_once (hretries : p.retries = false)
    (hwaiting : st.waiting = false) {answers : List Text}
    (hreturns : (copyFrom p attempts answers st).waiting = false) :
    Retried p.share attempts answers st
        (fun answers => copyFrom p attempts answers st)
      ↔ found p.share attempts st.stack 0 = true ∨ yesBeforeNo answers = 0 := by
  by_cases hfound : found p.share attempts st.stack 0 = true
  · exact iff_of_true (retried_of_found hfound hwaiting answers)
      (Or.inl hfound)
  · rw [or_iff_right hfound]
    rw [copyFrom_not_found hfound] at hreturns
    obtain ⟨added, n, hadded, hcopied, hattempted, hn, hcount⟩ :=
      asked_once hretries answers 0 _
        (by rw [mounted_waiting]; exact hwaiting) hreturns
    have hdialogue : (fun answers => copyFrom p attempts answers st)
        = fun answers => askAgain p attempts 0 answers (mounted p attempts 0 st)
      := funext (copyFrom_not_found hfound)
    have hevents : (askAgain p attempts 0 answers
        (mounted p attempts 0 st)).events
        = st.events ++ .attempted p.share :: added := by
      rw [hadded, mounted_events, List.append_assoc]
      rfl
    have hone : (Event.attempted p.share :: added).count (.attempted p.share)
        = 1 := by
      rw [List.count_cons_self, List.count_eq_zero_of_not_mem hattempted]
    rw [hdialogue, ← hcount]
    constructor
    · -- the one attempt there is leaves no `[Yy]*` to be answered
      rintro ⟨added', hadded', -, -, m, hm, hcount'⟩
      have hsame : added' = .attempted p.share :: added :=
        List.append_cancel_left (hadded'.symm.trans hevents)
      rw [hsame, hone, hm.unique hn] at hcount'
      omega
    · intro hzero
      refine ⟨.attempted p.share :: added, hevents, ?_, ?_, n, hn, ?_⟩
      · refine iff_of_false (by simp [hcopied]) ?_
        rintro ⟨k, hk, hnext⟩
        rw [hcount.mp hzero, Nat.le_zero] at hk
        exact hfound (hk ▸ hnext)
      · rw [List.count_cons_of_ne (by simp),
          List.count_eq_zero_of_not_mem hcopied]
        exact Nat.zero_le 1
      · rw [hone, hzero]

end Dialogue

/-- **THE RETRY**: on every sequence of attempts and answers on which it
    returns, each procedure retries, but for `_ai_assets_full` where its first
    attempt fails and a `[Yy]*` comes before the first `[Nn]*`. -/
theorem retried_iff (site : Site) (c : Copier) (attempts : Nat → Attempt)
    (answers : List Text) (st : System) (hmeets : c.meets site = true)
    (hwaiting : st.waiting = false)
    (hreturns : (call site attempts answers st c).waiting = false) :
    Retried c.share attempts answers st
        (fun answers => call site attempts answers st c)
      ↔ c ≠ .aiAssetsFull
        ∨ found c.share attempts st.stack 0 = true
        ∨ yesBeforeNo answers = 0 := by
  rw [call_eq hmeets] at hreturns
  have hcall : (fun answers => call site attempts answers st c)
      = fun answers => copyFrom ⟨c.share, c.retries⟩ attempts answers st :=
    funext (fun answers => call_eq hmeets attempts answers st)
  rw [hcall]
  cases c with
  | vizAssets =>
      refine iff_of_true ?_ (Or.inl (by decide))
      exact retried_copyFrom (p := ⟨.vizgen, true⟩) rfl hwaiting hreturns
  | aiAssetsSmall =>
      refine iff_of_true ?_ (Or.inl (by decide))
      exact retried_copyFrom (p := ⟨.don, true⟩) rfl hwaiting hreturns
  | aiAssetsFull =>
      rw [or_iff_right (fun h => h rfl)]
      exact retried_copyFrom_once (p := ⟨.don, false⟩) rfl hwaiting hreturns

/-- A machine and an order for the benchmark with four GPUs. -/
def fullSite : Site where
  gpus := 4
  order := ["Intel Xeon W790 5U".toList, "\"ai server\"".toList]

/-- The first mount fails, every later one works, and the file is there. -/
def secondTime (k : Nat) : Attempt := ⟨k != 0, true⟩

/-- A machine and an order for the benchmark with two GPUs. -/
def smallSite : Site := { fullSite with gpus := 2 }

/-- What the operator answers to a failed mount: first something else. -/
def onceMore : List Text := ["what".toList, "Y".toList]

/-- The sibling of `_ai_assets_full` asks again and copies at the second
    attempt. -/
theorem retried_secondTime :
    Retried .don secondTime onceMore System.boot
      (fun answers => call smallSite secondTime answers System.boot
        .aiAssetsSmall) :=
  (retried_iff smallSite .aiAssetsSmall secondTime onceMore System.boot
    rfl rfl rfl).mpr (Or.inl (by decide))

/-- A `Y` after a failed mount copies nothing, although the share is there the
    second time. -/
theorem not_retried :
    ¬ ∀ (site : Site) (c : Copier) (attempts : Nat → Attempt)
        (answers : List Text) (st : System), c.meets site = true →
        st.waiting = false →
        (call site attempts answers st c).waiting = false →
        Retried c.share attempts answers st
          (fun answers => call site attempts answers st c) := by
  intro hall
  have h := hall fullSite .aiAssetsFull secondTime ["Y".toList] System.boot
    rfl rfl rfl
  have hcopy : Retried .don secondTime ["Y".toList] System.boot
      (fun answers => copyFrom ⟨.don, false⟩ secondTime answers System.boot) := h
  rw [retried_copyFrom_once (p := ⟨.don, false⟩) rfl rfl rfl] at hcopy
  rcases hcopy with hfound | hyes
  · exact Bool.false_ne_true hfound
  · exact absurd hyes (by decide)

end SetupShareRetry
