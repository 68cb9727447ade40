import InstallLinux.ShellEditsProofs
import InstallLinux.ShellTextProofs

/-! # Literal `sed` — replacements that leave nothing to replace

    `s/pat/rep/` and `s/pat/rep/g` for literal texts, cut at the first match:
    a text is either free of the pattern or a free text, the pattern and a
    rest (`exists_firstMatch`).  What a replacement can do to another pattern
    is then a question about the two literals alone.

    * `not_infix_insert`: a text put between two others makes no pattern with
      which it does not overlap (`inert`);
    * `absent_replaceAll`: replacing by such a text brings no
      pattern in;
    * `replaceFirst_clears`, `replaceAll_clears`: one that does not overlap
      its own pattern leaves none of it;
    * `redo_edits`: so edits that write nothing one of them looks for stay
      done, whatever cuts their script off.

    `sedLine` replaces a line addressed by its number, by a text in which `&`
    stands for the old line. -/

namespace ShellSed

open ShellText ShellRun ShellEdits

/-! ## Replacing every match -/

/-- `s/pat/rep/g`, with some characters of a match still to be passed over. -/
def replaceFrom (pat rep : Text) : Nat → Text → Text
  | _, [] => []
  | 0, c :: cs =>
      if pat <+: c :: cs then rep ++ replaceFrom pat rep (pat.length - 1) cs
      else c :: replaceFrom pat rep 0 cs
  | k + 1, _ :: cs => replaceFrom pat rep k cs

/-- `s/pat/rep/g` for a literal pattern. -/
def replaceAll (pat rep s : Text) : Text :=
  replaceFrom pat rep 0 s

/-- `sed 's/pat/rep/g'` for a fixed string, on every line. -/
def sedReplaceAll (pat rep : Text) (lines : List Text) : List Text :=
  lines.map (replaceAll pat rep)

variable {pat rep : Text}

/-- The replacement goes on behind the match. -/
theorem replaceFrom_eq_drop (k : Nat) (s : Text) :
    replaceFrom pat rep k s = replaceAll pat rep (s.drop k) := by
  induction s generalizing k with
  | nil => cases k <;> simp [replaceFrom, replaceAll]
  | cons c cs ih =>
      cases k with
      | zero => rfl
      | succ k => rw [replaceFrom, ih, List.drop_succ_cons]

theorem replaceAll_of_absent {s : Text} (h : ¬ pat <:+: s) :
    replaceAll pat rep s = s := by
  induction s with
  | nil => rfl
  | cons c cs ih =>
      rw [List.infix_cons_iff, not_or] at h
      rw [replaceAll, replaceFrom, if_neg h.1]
      exact congrArg _ (ih h.2)

/-- A match at the front is replaced. -/
theorem replaceAll_append (hpat : pat ≠ []) (b : Text) :
    replaceAll pat rep (pat ++ b) = rep ++ replaceAll pat rep b := by
  cases pat with
  | nil => exact absurd rfl hpat
  | cons p ps =>
      have hself : p :: ps <+: p :: (ps ++ b) := List.prefix_append (p :: ps) b
      rw [replaceAll, List.cons_append, replaceFrom, if_pos hself,
        replaceFrom_eq_drop]
      simp

/-! ## The first match -/

/-- A text that holds the pattern is a text before its first match, the
    pattern, and a rest. -/
theorem exists_firstMatch (hpat : pat ≠ []) {s : Text} (h : pat <:+: s) :
    ∃ a b, s = a ++ (pat ++ b) ∧ ¬ pat <:+: a ++ pat.dropLast := by
  induction s with
  | nil => exact absurd (List.infix_nil.mp h) hpat
  | cons c cs ih =>
      by_cases hp : pat <+: c :: cs
      · obtain ⟨b, hb⟩ := hp
        refine ⟨[], b, hb.symm, ?_⟩
        intro hin
        have hle := hin.length_le
        have hpos := List.length_pos_iff.mpr hpat
        rw [List.nil_append, List.length_dropLast] at hle
        omega
      · obtain ⟨a, b, rfl, hfree⟩ :=
          ih ((List.infix_cons_iff.mp h).resolve_left hp)
        refine ⟨c :: a, b, rfl, ?_⟩
        rw [List.cons_append, List.infix_cons_iff, not_or]
        refine ⟨?_, hfree⟩
        -- a match that begins here would have been found
        intro hin
        refine hp (hin.trans ?_)
        rw [List.cons_prefix_cons, List.prefix_append_right_inj]
        exact ⟨rfl, (List.dropLast_prefix pat).trans (List.prefix_append _ _)⟩

theorem not_infix_before {a : Text} (h : ¬ pat <:+: a ++ pat.dropLast) :
    ¬ pat <:+: a :=
  fun hin => h (hin.trans (List.prefix_append _ _).isInfix)

/-- No match begins before the first one. -/
theorem not_prefix_before (hpat : pat ≠ []) {c : Char} {a : Text}
    (h : ¬ pat <:+: c :: a ++ pat.dropLast) (b : Text) :
    ¬ pat <+: c :: (a ++ (pat ++ b)) := by
  intro hp
  have hpre : c :: a ++ pat.dropLast <+: c :: (a ++ (pat ++ b)) := by
    rw [List.cons_append, List.cons_prefix_cons, List.prefix_append_right_inj]
    exact ⟨rfl, (List.dropLast_prefix pat).trans (List.prefix_append _ _)⟩
  have hlen : pat.length ≤ (c :: a ++ pat.dropLast).length := by
    have hpos := List.length_pos_iff.mpr hpat
    simp only [List.length_append, List.length_cons, List.length_dropLast]
    omega
  exact h (List.prefix_of_prefix_length_le hp hpre hlen).isInfix

/-- The first match is replaced where it is. -/
theorem replaceFirst_match (hpat : pat ≠ []) {a : Text}
    (h : ¬ pat <:+: a ++ pat.dropLast) (b : Text) :
    replaceFirst pat rep (a ++ (pat ++ b)) = a ++ (rep ++ b) := by
  induction a with
  | nil =>
      cases pat with
      | nil => exact absurd rfl hpat
      | cons p ps =>
          have hself : p :: ps <+: p :: (ps ++ b) :=
            List.prefix_append (p :: ps) b
          rw [List.nil_append, List.cons_append, replaceFirst, if_pos hself]
          simp
  | cons c a ih =>
      have hno := not_prefix_before hpat h b
      rw [List.cons_append, List.infix_cons_iff, not_or] at h
      rw [List.cons_append, replaceFirst, if_neg hno, ih h.2]
      rfl

/-- The first match is replaced, and the rest is gone through. -/
theorem replaceAll_match (hpat : pat ≠ []) {a : Text}
    (h : ¬ pat <:+: a ++ pat.dropLast) (b : Text) :
    replaceAll pat rep (a ++ (pat ++ b))
      = a ++ (rep ++ replaceAll pat rep b) := by
  induction a with
  | nil => exact replaceAll_append hpat b
  | cons c a ih =>
      have hno := not_prefix_before hpat h b
      rw [List.cons_append, List.infix_cons_iff, not_or] at h
      rw [List.cons_append, replaceAll, replaceFrom, if_neg hno]
      exact congrArg _ (ih h.2)

/-- **MATCH BY MATCH**: what holds of free texts, and passes from the rest to
    the text cut at its first match, holds of every global replacement. -/
theorem replaceAll_induction (hpat : pat ≠ []) {P : Text → Text → Prop}
    (hfree : ∀ s, ¬ pat <:+: s → P s s)
    (hmatch : ∀ a b, ¬ pat <:+: a ++ pat.dropLast →
      P b (replaceAll pat rep b) →
      P (a ++ (pat ++ b)) (a ++ (rep ++ replaceAll pat rep b))) :
    ∀ s, P s (replaceAll pat rep s) := by
  intro s
  induction hn : s.length using Nat.strong_induction_on generalizing s with
  | _ n ih =>
      by_cases h : pat <:+: s
      · obtain ⟨a, b, rfl, hbefore⟩ := exists_firstMatch hpat h
        rw [replaceAll_match hpat hbefore]
        refine hmatch a b hbefore (ih b.length ?_ b rfl)
        have hpos := List.length_pos_iff.mpr hpat
        rw [← hn]
        simp only [List.length_append]
        omega
      · rw [replaceAll_of_absent h]
        exact hfree s h

/-! ## Overlaps -/

/-- Neither text is inside the other, and no end of one is a beginning of the
    other. -/
def inert (q rep : Text) : Bool :=
  !decide (q <:+: rep) && !decide (rep <:+: q)
    && q.tails.all (fun t => t.isEmpty || !t.isPrefixOf rep)
    && q.inits.all (fun t => t.isEmpty || !t.isSuffixOf rep)

/-- What the test tells: no new match can reach into the replacement. -/
theorem inert_spec {q rep : Text} (h : inert q rep = true) :
    ¬ q <:+: rep ∧ ¬ rep <:+: q
      ∧ (∀ t, t ≠ [] → t <:+ q → ¬ t <+: rep)
      ∧ ∀ t, t ≠ [] → t <+: q → ¬ t <:+ rep := by
  simp only [inert, Bool.and_eq_true, Bool.not_eq_true',
    decide_eq_false_iff_not, List.all_eq_true, Bool.or_eq_true,
    List.isEmpty_iff] at h
  obtain ⟨⟨⟨hin, hin'⟩, htails⟩, hinits⟩ := h
  refine ⟨hin, hin', ?_, ?_⟩
  · intro t hne ht hpre
    have hno := (htails t ((List.mem_tails t q).mpr ht)).resolve_left hne
    rw [List.isPrefixOf_iff_prefix.mpr hpre] at hno
    exact Bool.noConfusion hno
  · intro t hne ht hsuf
    have hno := (hinits t ((List.mem_inits t q).mpr ht)).resolve_left hne
    rw [List.isSuffixOf_iff_suffix.mpr hsuf] at hno
    exact Bool.noConfusion hno

/-- **NO NEW MATCH**: between two texts without `q` an inert text makes
    none. -/
theorem not_infix_insert {q a b : Text} (h : inert q rep = true)
    (ha : ¬ q <:+: a) (hb : ¬ q <:+: b) : ¬ q <:+: a ++ (rep ++ b) := by
  obtain ⟨hin, hin', htails, hinits⟩ := inert_spec h
  have hrest : ¬ q <:+: rep ++ b := by
    rw [List.infix_append_iff_ne_nil]
    rintro (hq | hq | ⟨q1, q2, hne, -, rfl, hsuf, -⟩)
    · exact hin hq
    · exact hb hq
    · exact hinits q1 hne (List.prefix_append _ _) hsuf
  rw [List.infix_append_iff_ne_nil]
  rintro (hq | hq | ⟨q1, q2, -, hne, rfl, -, hpre⟩)
  · exact ha hq
  · exact hrest hq
  · -- the rest of `q` stops inside `rep`, or runs through it
    rcases List.prefix_or_prefix_of_prefix hpre (List.prefix_append rep b)
      with hq2 | hrep
    · exact htails q2 hne (List.suffix_append _ _) hq2
    · exact hin' (hrep.isInfix.trans (List.suffix_append _ _).isInfix)

/-- A replacement that is inert for a text does not make it. -/
theorem absent_replaceAll (hpat : pat ≠ []) {q : Text}
    (h : inert q rep = true) (s : Text) (hq : ¬ q <:+: s) :
    ¬ q <:+: replaceAll pat rep s := by
  revert hq
  refine replaceAll_induction
    (P := fun s r => ¬ q <:+: s → ¬ q <:+: r) hpat (fun s _ hq => hq) ?_ s
  intro a b _ ih hq
  refine not_infix_insert h ?_ (ih ?_)
  · exact fun hin => hq (hin.trans (List.prefix_append _ _).isInfix)
  · exact fun hin => hq (hin.trans
      ((List.suffix_append pat b).trans (List.suffix_append a _)).isInfix)

/-- A global replacement clears its own pattern. -/
theorem replaceAll_clears (hpat : pat ≠ []) (h : inert pat rep = true)
    (s : Text) : ¬ pat <:+: replaceAll pat rep s :=
  replaceAll_induction (P := fun _ r => ¬ pat <:+: r) hpat (fun _ hs => hs)
    (fun _ _ hbefore ih => not_infix_insert h (not_infix_before hbefore) ih) s

/-! ## How often a pattern occurs -/

/-- The places where a match of the pattern begins. -/
def occurrences (pat : Text) : Text → Nat
  | [] => 0
  | c :: cs => (if pat <+: c :: cs then 1 else 0) + occurrences pat cs

theorem occurrences_eq_zero (hpat : pat ≠ []) {s : Text} :
    occurrences pat s = 0 ↔ ¬ pat <:+: s := by
  induction s with
  | nil => simp [occurrences, hpat]
  | cons c cs ih =>
      rw [occurrences, Nat.add_eq_zero_iff, ih, List.infix_cons_iff, not_or]
      refine and_congr_left' ?_
      by_cases hp : pat <+: c :: cs <;> simp [hp]

theorem occurrences_append_le (a b : Text) :
    occurrences pat b ≤ occurrences pat (a ++ b) := by
  induction a with
  | nil => exact le_refl _
  | cons c cs ih =>
      rw [List.cons_append, occurrences]
      omega

/-- Behind the only match there is no other. -/
theorem absent_behind (hpat : pat ≠ []) {a b : Text}
    (h : occurrences pat (a ++ (pat ++ b)) ≤ 1) : ¬ pat <:+: b := by
  have hle := @occurrences_append_le pat a (pat ++ b)
  cases pat with
  | nil => exact absurd rfl hpat
  | cons p ps =>
      rw [← occurrences_eq_zero hpat]
      have hrest := @occurrences_append_le (p :: ps) ps b
      have hfirst : occurrences (p :: ps) (p :: ps ++ b)
          = 1 + occurrences (p :: ps) (ps ++ b) := by
        have hself : p :: ps <+: p :: (ps ++ b) :=
          List.prefix_append (p :: ps) b
        rw [List.cons_append, occurrences, if_pos hself]
      omega

/-- A replacement of the only match clears the pattern. -/
theorem replaceFirst_clears (hpat : pat ≠ []) (h : inert pat rep = true)
    {s : Text} (hone : occurrences pat s ≤ 1) :
    ¬ pat <:+: replaceFirst pat rep s := by
  by_cases hp : pat <:+: s
  · obtain ⟨a, b, rfl, hbefore⟩ := exists_firstMatch hpat hp
    rw [replaceFirst_match hpat hbefore]
    exact not_infix_insert h (not_infix_before hbefore)
      (absent_behind hpat hone)
  · rw [replaceFirst_of_absent hp]
    exact hp

theorem absent_replaceFirst (hpat : pat ≠ []) {q : Text}
    (h : inert q rep = true) {s : Text} (hq : ¬ q <:+: s) :
    ¬ q <:+: replaceFirst pat rep s := by
  by_cases hp : pat <:+: s
  · obtain ⟨a, b, rfl, hbefore⟩ := exists_firstMatch hpat hp
    rw [replaceFirst_match hpat hbefore]
    refine not_infix_insert h ?_ ?_
    · exact fun hin => hq (hin.trans (List.prefix_append _ _).isInfix)
    · exact fun hin => hq (hin.trans
        ((List.suffix_append pat b).trans (List.suffix_append a _)).isInfix)
  · rw [replaceFirst_of_absent hp]
    exact hq

/-! ## Lists of edits -/

/-- A `sed -i` command for a literal text. -/
structure Edit where
  /-- with `g` behind it -/
  global : Bool
  pat : Text
  rep : Text

def Edit.line (e : Edit) (line : Text) : Text :=
  if e.global then replaceAll e.pat e.rep line
  else replaceFirst e.pat e.rep line

/-- The edit of a file. -/
def Edit.lines (e : Edit) (lines : List Text) : List Text :=
  lines.map e.line

/-- An edit leaves a line without its pattern alone. -/
theorem Edit.line_of_absent {e : Edit} {line : Text} (h : ¬ e.pat <:+: line) :
    e.line line = line := by
  rw [Edit.line, replaceAll_of_absent h, replaceFirst_of_absent h, ite_self]

/-- The edit leaves nothing to do for itself. -/
def Edit.Clears (e : Edit) (line : Text) : Prop :=
  e.global = true ∨ occurrences e.pat line ≤ 1

/-- An inert edit makes no pattern of another one. -/
theorem Edit.absent_line {e e' : Edit} (hpat : e'.pat ≠ [])
    (h : inert e.pat e'.rep = true) {line : Text} (hq : ¬ e.pat <:+: line) :
    ¬ e.pat <:+: e'.line line := by
  rw [Edit.line]
  split
  · exact absent_replaceAll hpat h line hq
  · exact absent_replaceFirst hpat h hq

/-- An edit that is inert for itself leaves none of its pattern. -/
theorem Edit.line_clears {e : Edit} (hpat : e.pat ≠ [])
    (h : inert e.pat e.rep = true) {line : Text} (hone : e.Clears line) :
    ¬ e.pat <:+: e.line line := by
  rw [Edit.line]
  split
  · exact replaceAll_clears hpat h line
  · next hglobal =>
      exact replaceFirst_clears hpat h (hone.resolve_left hglobal)

/-- **EDITS STAY DONE**: edits none of which writes what another one, or it
    itself, looks for. -/
theorem redo_edits {es : List Edit} (hpat : ∀ e ∈ es, e.pat ≠ [])
    (h : ∀ e ∈ es, ∀ e' ∈ es, inert e.pat e'.rep = true) {line : Text}
    (hone : AllSteps (fun l (e : Edit) => e.line l) (fun l e => e.Clears l)
      line es) :
    Redo (fun l (e : Edit) => e.line l) line es := by
  refine redo_of_gone (fun e l => ¬ e.pat <:+: l) ?_ ?_ ?_
  · exact fun e _ l hl => Edit.line_of_absent hl
  · exact fun e he e' he' l hl =>
      Edit.absent_line (hpat e' he') (h e he e' he') hl
  · intro v hv
    have he := mem_of_mem_visits es line hv
    exact Edit.line_clears (hpat v.2 he) (h v.2 he v.2 he) (hone v hv)

/-! ## A whole line -/

/-- What replaces a match: each `&` of the replacement stands for it. -/
def expandMatch (rep matched : Text) : Text :=
  rep.flatMap (fun c => if c = '&' then matched else [c])

/-- A character that ends the replacement or escapes something in it. -/
def endsReplacement (c : Char) : Bool :=
  c == '/' || c == '\\' || c == '\n'

/-- `sed "<n + 1>s/.*/<rep>/"`.  With a character in `rep` that ends the
    replacement or escapes something, it is another script: `other` is what
    that one does. -/
def sedLine (other : List Text → List Text) (n : Nat) (rep : Text)
    (lines : List Text) : List Text :=
  if rep.any endsReplacement then other lines
  else lines.modify n (expandMatch rep)

/-- Without `&` it is the text itself. -/
theorem expandMatch_of_absent {rep : Text} (h : '&' ∉ rep) (matched : Text) :
    expandMatch rep matched = rep := by
  induction rep with
  | nil => rfl
  | cons c cs ih =>
      rw [List.mem_cons, not_or] at h
      rw [expandMatch, List.flatMap_cons, if_neg (Ne.symm h.1)]
      exact congrArg (c :: ·) (ih h.2)

/-- With one the match is put in behind the text in front of the first. -/
theorem expandMatch_of_mem {rep : Text} (h : '&' ∈ rep) (matched : Text) :
    ∃ front back, front <+: rep
      ∧ expandMatch rep matched = front ++ (matched ++ back) := by
  induction rep with
  | nil => exact absurd h List.not_mem_nil
  | cons c cs ih =>
      by_cases hc : c = '&'
      · refine ⟨[], expandMatch cs matched, List.nil_prefix, ?_⟩
        rw [expandMatch, List.flatMap_cons, if_pos hc]
        rfl
      · obtain ⟨front, back, hfront, heq⟩ :=
          ih ((List.mem_cons.mp h).resolve_left (Ne.symm hc))
        refine ⟨c :: front, back, List.cons_prefix_cons.mpr ⟨rfl, hfront⟩, ?_⟩
        rw [expandMatch, List.flatMap_cons, if_neg hc]
        exact congrArg (c :: ·) heq

end ShellSed
