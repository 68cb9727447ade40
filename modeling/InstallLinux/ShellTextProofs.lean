import Mathlib.Data.List.DropRight
import Mathlib.Data.List.Infix

/-! # Shell text — words, literal matches and the edits built on them

    The scripts work on text through a handful of shell primitives: literal
    `sed` and `${s/pat/}` replacement of a first match, word splitting of an
    unquoted expansion, `grep -q` for a fixed string, `sed '/pat/d'`, and
    `case` patterns that look at a first letter.  This file states them over
    `List Char` and proves the few laws the models use:

    * a text without the pattern is left alone, a text with it loses exactly
      the pattern's length (`deleteFirst_length`);
    * splitting a text of separated words gives the words back
      (`splitWords_word`, `splitWords_blank`). -/

namespace ShellText

/-- A shell string. -/
abbrev Text := List Char

/-! ## Literal replacement -/

/-- `s/pat/rep/` and `${s/pat/rep}` for a literal pattern: the leftmost match
    is replaced. -/
def replaceFirst (pat rep : Text) : Text → Text
  | [] => []
  | c :: cs =>
      if pat <+: c :: cs then rep ++ (c :: cs).drop pat.length
      else c :: replaceFirst pat rep cs

/-- `${s/pat/}`: the leftmost match is cut out. -/
def deleteFirst (pat s : Text) : Text :=
  replaceFirst pat [] s

theorem replaceFirst_of_absent {pat rep s : Text} (h : ¬ pat <:+: s) :
    replaceFirst pat rep s = s := by
  induction s with
  | nil => rfl
  | cons c cs ih =>
      rw [List.infix_cons_iff, not_or] at h
      rw [replaceFirst, if_neg h.1, ih h.2]

@[simp] theorem deleteFirst_nil (pat : Text) : deleteFirst pat [] = [] := rfl

theorem deleteFirst_of_absent {pat s : Text} (h : ¬ pat <:+: s) :
    deleteFirst pat s = s :=
  replaceFirst_of_absent h

@[simp] theorem deleteFirst_self (s : Text) : deleteFirst s s = [] := by
  cases s with
  | nil => rfl
  | cons c cs =>
      rw [deleteFirst, replaceFirst, if_pos List.prefix_rfl]
      simp

/-- A match costs exactly its own length. -/
theorem deleteFirst_length {pat s : Text} (h : pat <:+: s) :
    (deleteFirst pat s).length + pat.length = s.length := by
  induction s with
  | nil => simp [List.infix_nil.mp h]
  | cons c cs ih =>
      by_cases hp : pat <+: c :: cs
      · have hle : pat.length ≤ (c :: cs).length := hp.length_le
        rw [deleteFirst, replaceFirst, if_pos hp]
        simp only [List.nil_append, List.length_drop]
        omega
      · -- the match lies further right, and so does the cut
        have hcs : pat <:+: cs := (List.infix_cons_iff.mp h).resolve_left hp
        have hlen := ih hcs
        rw [deleteFirst] at hlen
        rw [deleteFirst, replaceFirst, if_neg hp]
        simp only [List.length_cons]
        omega

/-- What is left is not longer. -/
theorem deleteFirst_length_le (pat s : Text) :
    (deleteFirst pat s).length ≤ s.length := by
  by_cases h : pat <:+: s
  · have := deleteFirst_length h
    omega
  · rw [deleteFirst_of_absent h]

/-- Deleting never brings in a new character. -/
theorem mem_of_mem_deleteFirst {pat s : Text} {x : Char}
    (h : x ∈ deleteFirst pat s) : x ∈ s := by
  induction s with
  | nil => exact h
  | cons c cs ih =>
      rw [deleteFirst, replaceFirst] at h
      by_cases hp : pat <+: c :: cs
      · rw [if_pos hp] at h
        exact List.mem_of_mem_drop h
      · rw [if_neg hp] at h
        rcases List.mem_cons.mp h with heq | hmem
        · exact heq ▸ List.mem_cons_self
        · exact List.mem_cons_of_mem _ (ih hmem)

/-! ## Word splitting -/

/-- The default `IFS`. -/
def isBlank (c : Char) : Bool :=
  c == ' ' || c == '\t' || c == '\n'

/-- A class of characters that leaves out the blanks. -/
theorem isBlank_eq_false {p : Char → Bool}
    (hp : p ' ' = false ∧ p '\t' = false ∧ p '\n' = false) {c : Char}
    (hc : p c = true) : isBlank c = false := by
  obtain ⟨hspace, htab, hnewline⟩ := hp
  by_contra hblank
  rw [Bool.not_eq_false, isBlank, Bool.or_eq_true, Bool.or_eq_true,
    beq_iff_eq, beq_iff_eq, beq_iff_eq] at hblank
  rcases hblank with (rfl | rfl) | rfl
  · exact Bool.false_ne_true (hspace.symm.trans hc)
  · exact Bool.false_ne_true (htab.symm.trans hc)
  · exact Bool.false_ne_true (hnewline.symm.trans hc)

/-- The words of an unquoted expansion; empty words vanish. -/
def splitWords : Text → List Text
  | [] => []
  | c :: cs =>
      if isBlank c then splitWords cs
      else
        match cs with
        | [] => [[c]]
        | d :: _ =>
            if isBlank d then [c] :: splitWords cs
            else (splitWords cs).modifyHead (c :: ·)

/-- A text that word splitting leaves in one piece. -/
def IsWord (w : Text) : Prop :=
  w ≠ [] ∧ ∀ c ∈ w, isBlank c = false

/-- Text after which a word ends. -/
def EndsWord (rest : Text) : Prop :=
  ∀ c, rest.head? = some c → isBlank c = true

@[simp] theorem splitWords_nil : splitWords [] = [] := rfl

theorem splitWords_blank {c : Char} (hc : isBlank c = true) (rest : Text) :
    splitWords (c :: rest) = splitWords rest := by
  rw [splitWords.eq_def]
  simp [hc]

/-- **SPLITTING**: a leading word is split off whole. -/
theorem splitWords_word {w rest : Text} (hw : IsWord w) (hr : EndsWord rest) :
    splitWords (w ++ rest) = w :: splitWords rest := by
  obtain ⟨hne, hall⟩ := hw
  induction w with
  | nil => exact absurd rfl hne
  | cons c cs ih =>
      have hc : isBlank c = false := hall c List.mem_cons_self
      cases cs with
      | nil =>
          cases rest with
          | nil => simp [splitWords, hc]
          | cons d ds =>
              have hd : isBlank d = true := hr d rfl
              show splitWords (c :: d :: ds) = [c] :: splitWords (d :: ds)
              rw [splitWords, if_neg (by simp [hc])]
              simp [hd]
      | cons d ds =>
          -- the word goes on: its first letter joins the word split off
          have hd : isBlank d = false := hall d (by simp)
          have hrec : splitWords ((d :: ds) ++ rest)
              = (d :: ds) :: splitWords rest :=
            ih (by simp) (fun x hx => hall x (List.mem_cons_of_mem _ hx))
          show splitWords (c :: d :: (ds ++ rest)) = _
          rw [splitWords, if_neg (by simp [hc])]
          have hrec' : splitWords (d :: (ds ++ rest))
              = (d :: ds) :: splitWords rest := hrec
          simp [hd, hrec']

/-- A text that begins with a letter has a first word. -/
theorem splitWords_ne_nil {c : Char} (hc : isBlank c = false) (rest : Text) :
    splitWords (c :: rest) ≠ [] := by
  induction rest generalizing c with
  | nil => simp [splitWords, hc]
  | cons d ds ih =>
      rw [splitWords, if_neg (by simp [hc])]
      cases hd : isBlank d with
      | true => simp
      | false => simpa [hd] using ih hd

/-- The first word begins with that letter and goes on with the text behind it;
    the other words are words of the rest. -/
theorem splitWords_cons {c : Char} (hc : isBlank c = false) (rest : Text) :
    ∃ word words, splitWords (c :: rest) = (c :: word) :: words
      ∧ word <+: rest ∧ ∀ w ∈ words, w ∈ splitWords rest := by
  induction rest generalizing c with
  | nil =>
      exact ⟨[], [], by simp [splitWords, hc], List.prefix_rfl,
        fun _ hw => absurd hw List.not_mem_nil⟩
  | cons d ds ih =>
      rw [splitWords, if_neg (by simp [hc])]
      cases hd : isBlank d with
      | true => exact ⟨[], _, rfl, List.nil_prefix, fun _ hw => hw⟩
      | false =>
          -- the letter joins the first word of the rest
          obtain ⟨word, words, hwords, hfirst, -⟩ := ih hd
          refine ⟨d :: word, words, by simp [hwords],
            List.cons_prefix_cons.mpr ⟨rfl, hfirst⟩, ?_⟩
          rw [hwords]
          exact fun w hw => List.mem_cons_of_mem _ hw

/-- Words do not go on behind a blank. -/
theorem splitWords_append_blank {c : Char} (hc : isBlank c = true)
    (a b : Text) :
    splitWords (a ++ c :: b) = splitWords a ++ splitWords b := by
  induction a with
  | nil => exact splitWords_blank hc b
  | cons d ds ih =>
      rw [List.cons_append]
      by_cases hd : isBlank d = true
      · rw [splitWords_blank hd, splitWords_blank hd, ih]
      · cases ds with
        | nil =>
            rw [splitWords, if_neg hd]
            simp [hc, splitWords_blank hc, splitWords, hd]
        | cons e es =>
            rw [List.cons_append] at ih ⊢
            rw [splitWords, if_neg hd, splitWords, if_neg hd, ih]
            by_cases he : isBlank e = true
            · simp [he]
            · -- the letter joins the first word, which is one of `a`
              obtain ⟨w, ws, hws⟩ := List.exists_cons_of_ne_nil
                (splitWords_ne_nil (Bool.eq_false_iff.mpr he) es)
              simp [he, hws]

/-- Only blanks have no words. -/
theorem splitWords_eq_nil_iff {s : Text} :
    splitWords s = [] ↔ ∀ c ∈ s, isBlank c = true := by
  induction s with
  | nil => simp
  | cons c cs ih =>
      by_cases hc : isBlank c = true
      · rw [splitWords_blank hc, ih, List.forall_mem_cons]
        exact (and_iff_right hc).symm
      · refine iff_of_false ?_ (fun h => hc (h c List.mem_cons_self))
        exact splitWords_ne_nil (Bool.eq_false_iff.mpr hc) cs

/-- Words are made of characters of the text. -/
theorem mem_of_mem_splitWords {s w : Text} (hw : w ∈ splitWords s) {x : Char}
    (hx : x ∈ w) : x ∈ s := by
  induction s generalizing w with
  | nil => exact absurd hw List.not_mem_nil
  | cons c cs ih =>
      by_cases hc : isBlank c = true
      · rw [splitWords_blank hc] at hw
        exact List.mem_cons_of_mem _ (ih hw hx)
      · cases cs with
        | nil =>
            rw [splitWords, if_neg hc, List.mem_singleton] at hw
            exact hw ▸ hx
        | cons d ds =>
            rw [splitWords, if_neg hc] at hw
            by_cases hd : isBlank d = true
            · simp only [hd, if_true] at hw
              rcases List.mem_cons.mp hw with rfl | hw
              · exact List.mem_singleton.mp hx ▸ List.mem_cons_self
              · exact List.mem_cons_of_mem _ (ih hw hx)
            · -- the letter joins the first word of the rest
              obtain ⟨v, vs, hvs⟩ := List.exists_cons_of_ne_nil
                (splitWords_ne_nil (Bool.eq_false_iff.mpr hd) ds)
              simp only [hd, Bool.false_eq_true, if_false, hvs,
                List.modifyHead_cons] at hw
              rw [hvs] at ih
              rcases List.mem_cons.mp hw with rfl | hw
              · rcases List.mem_cons.mp hx with rfl | hx
                · exact List.mem_cons_self
                · exact List.mem_cons_of_mem _ (ih List.mem_cons_self hx)
              · exact List.mem_cons_of_mem _
                  (ih (List.mem_cons_of_mem _ hw) hx)

/-- No word has a blank in it. -/
theorem isBlank_of_mem_splitWords {s w : Text} (hw : w ∈ splitWords s) :
    ∀ x ∈ w, isBlank x = false := by
  induction s generalizing w with
  | nil => exact absurd hw List.not_mem_nil
  | cons c cs ih =>
      by_cases hc : isBlank c = true
      · rw [splitWords_blank hc] at hw
        exact ih hw
      · have hplain : isBlank c = false := Bool.eq_false_iff.mpr hc
        cases cs with
        | nil =>
            rw [splitWords, if_neg hc, List.mem_singleton] at hw
            rw [hw]
            exact List.forall_mem_singleton.mpr hplain
        | cons d ds =>
            rw [splitWords, if_neg hc] at hw
            by_cases hd : isBlank d = true
            · simp only [hd, if_true] at hw
              rcases List.mem_cons.mp hw with rfl | hw
              · exact List.forall_mem_singleton.mpr hplain
              · exact ih hw
            · -- the letter joins the first word of the rest
              obtain ⟨v, vs, hvs⟩ := List.exists_cons_of_ne_nil
                (splitWords_ne_nil (Bool.eq_false_iff.mpr hd) ds)
              simp only [hd, Bool.false_eq_true, if_false, hvs,
                List.modifyHead_cons] at hw
              rw [hvs] at ih
              rcases List.mem_cons.mp hw with rfl | hw
              · exact List.forall_mem_cons.mpr ⟨hplain, ih List.mem_cons_self⟩
              · exact ih (List.mem_cons_of_mem _ hw)

/-- The words hold every character that is no blank, in order. -/
theorem flatten_splitWords (s : Text) :
    (splitWords s).flatten = s.filter (fun c => !isBlank c) := by
  induction s with
  | nil => rfl
  | cons c cs ih =>
      by_cases hc : isBlank c = true
      · rw [splitWords_blank hc, ih, List.filter_cons_of_neg (by simp [hc])]
      · rw [List.filter_cons_of_pos (by simp [hc]), ← ih]
        cases cs with
        | nil => simp [splitWords, hc]
        | cons d ds =>
            rw [splitWords, if_neg hc]
            by_cases hd : isBlank d = true
            · simp [hd]
            · -- the letter joins the first word of the rest
              obtain ⟨v, vs, hvs⟩ := List.exists_cons_of_ne_nil
                (splitWords_ne_nil (Bool.eq_false_iff.mpr hd) ds)
              simp [hd, hvs]

/-- Between two words there is a blank. -/
theorem exists_blank_between {s : Text} (h : 2 ≤ (splitWords s).length) :
    ∃ u c v, s = u ++ c :: v ∧ isBlank c = true
      ∧ splitWords u ≠ [] ∧ splitWords v ≠ [] := by
  induction s with
  | nil => exact absurd h (by simp)
  | cons c cs ih =>
      by_cases hc : isBlank c = true
      · rw [splitWords_blank hc] at h
        obtain ⟨u, d, v, hs, hd, hu, hv⟩ := ih h
        refine ⟨c :: u, d, v, by rw [hs, List.cons_append], hd, ?_, hv⟩
        rw [splitWords_blank hc]
        exact hu
      · have hone := fun rest => splitWords_ne_nil (Bool.eq_false_iff.mpr hc) rest
        cases cs with
        | nil =>
            rw [splitWords, if_neg hc] at h
            exact absurd h (by simp)
        | cons d ds =>
            rw [splitWords, if_neg hc] at h
            by_cases hd : isBlank d = true
            · -- the first word ends here
              refine ⟨[c], d, ds, rfl, hd, hone [], ?_⟩
              intro hnil
              rw [splitWords_blank hd, hnil] at h
              simp [hd] at h
            · simp only [hd, Bool.false_eq_true, if_false,
                List.length_modifyHead] at h
              obtain ⟨u, e, v, hs, he, -, hv⟩ := ih h
              exact ⟨c :: u, e, v, by rw [hs, List.cons_append], he,
                hone u, hv⟩

/-- Splitting blank-free text. -/
theorem splitWords_of_no_blank {s : Text} (h : ∀ c ∈ s, isBlank c = false) :
    splitWords s = if s = [] then [] else [s] := by
  by_cases hs : s = []
  · simp [hs]
  · have hend : EndsWord [] := fun c hc => nomatch hc
    have hw := splitWords_word ⟨hs, h⟩ hend
    rw [List.append_nil] at hw
    rw [hw, if_neg hs, splitWords_nil]

/-- Every word stands in the text. -/
theorem infix_of_mem_splitWords {s w : Text} (h : w ∈ splitWords s) :
    w <:+: s := by
  induction s with
  | nil => exact absurd h List.not_mem_nil
  | cons c cs ih =>
      by_cases hc : isBlank c = true
      · rw [splitWords_blank hc] at h
        exact List.infix_cons (ih h)
      · obtain ⟨word, words, hwords, hfirst, hrest⟩ :=
          splitWords_cons (Bool.eq_false_iff.mpr hc) cs
        rw [hwords] at h
        rcases List.mem_cons.mp h with rfl | h
        · exact (List.cons_prefix_cons.mpr ⟨rfl, hfirst⟩).isInfix
        · exact List.infix_cons (ih (hrest w h))

/-- The line starts a script: the script is its command, or what it hands to a
    new terminal.  A comment that names the script starts nothing, and neither
    does any other text around it. -/
def startsCall (call line : Text) : Bool :=
  decide ((splitWords line).head? = some call)
    || decide ((splitWords line).take 3
      = ["gnome-terminal".toList, "--".toList, call])

/-- A line that starts a script names it. -/
theorem infix_of_startsCall {call line : Text}
    (h : startsCall call line = true) : call <:+: line := by
  refine infix_of_mem_splitWords ?_
  rw [startsCall, Bool.or_eq_true, decide_eq_true_eq, decide_eq_true_eq] at h
  rcases h with h | h
  · exact List.mem_of_head? h
  · refine List.mem_of_mem_take (i := 3) ?_
    rw [h]
    exact List.mem_cons_of_mem _ (List.mem_cons_of_mem _ List.mem_cons_self)

/-! ## Lines -/

/-- The lines of a file's text; a newline at its end begins no further line. -/
def fileLines : Text → List Text
  | [] => []
  | c :: cs =>
      if c = '\n' then [] :: fileLines cs
      else (c :: (fileLines cs).headD []) :: (fileLines cs).tail

/-- `grep -q 'pat'` for a fixed string, over the lines of a file. -/
def grep (pat : Text) (lines : List Text) : Bool :=
  lines.any (fun l => decide (pat <:+: l))

/-- `sed '/pat/d'` for a fixed string. -/
def sedDelete (pat : Text) (lines : List Text) : List Text :=
  lines.filter (fun l => !decide (pat <:+: l))

/-- `sed 's/pat/rep/'` for a fixed string, on every line. -/
def sedReplace (pat rep : Text) (lines : List Text) : List Text :=
  lines.map (replaceFirst pat rep)

/-- `pat` at the start of a text, each of its dots standing for any one
    character. -/
def dotPrefix : Text → Text → Bool
  | [], _ => true
  | _ :: _, [] => false
  | p :: ps, c :: cs => (p == '.' || p == c) && dotPrefix ps cs

/-- `grep -q pat` for a pattern whose only special character is the dot. -/
def grepDots (pat : Text) (lines : List Text) : Bool :=
  lines.any (fun l => l.tails.any (dotPrefix pat))

/-- `grep -q` finds a text iff some line holds it. -/
theorem grep_eq_true {pat : Text} {lines : List Text} :
    grep pat lines = true ↔ ∃ l ∈ lines, pat <:+: l := by
  simp [grep]

theorem grep_eq_false {pat : Text} {lines : List Text} :
    grep pat lines = false ↔ ∀ l ∈ lines, ¬ pat <:+: l := by
  simp [grep]

/-- The first line ends at the first newline. -/
theorem headD_fileLines (t : Text) :
    (fileLines t).headD [] = t.takeWhile (· != '\n') := by
  induction t with
  | nil => rfl
  | cons c cs ih =>
      rw [fileLines]
      by_cases hc : c = '\n'
      · simp [hc]
      · simp [hc, ← ih]

/-- Behind a newline a new line begins. -/
theorem fileLines_append_newline (a b : Text) :
    fileLines (a ++ '\n' :: b) = fileLines (a ++ ['\n']) ++ fileLines b := by
  induction a with
  | nil => rfl
  | cons c cs ih =>
      rw [List.cons_append, List.cons_append, fileLines, fileLines, ih]
      by_cases hc : c = '\n'
      · rw [if_pos hc, if_pos hc, List.cons_append]
      · -- the newline ends some line, whose first character is in front of `b`
        have hne : fileLines (cs ++ ['\n']) ≠ [] := by
          cases cs with
          | nil => exact List.cons_ne_nil _ _
          | cons d ds =>
              rw [List.cons_append, fileLines]
              split <;> exact List.cons_ne_nil _ _
        obtain ⟨l, ls, hl⟩ := List.exists_cons_of_ne_nil hne
        rw [if_neg hc, if_neg hc, hl]
        rfl

/-- A text without a newline is one line. -/
theorem fileLines_of_line {l : Text} (hne : l ≠ []) (hnl : '\n' ∉ l) :
    fileLines l = [l] := by
  induction l with
  | nil => exact absurd rfl hne
  | cons c cs ih =>
      rw [List.mem_cons, not_or] at hnl
      rw [fileLines, if_neg (Ne.symm hnl.1)]
      by_cases hcs : cs = []
      · rw [hcs]
        rfl
      · rw [ih hcs hnl.2]
        rfl

/-- So is one with a newline behind it. -/
theorem fileLines_terminated {l : Text} (hnl : '\n' ∉ l) :
    fileLines (l ++ ['\n']) = [l] := by
  induction l with
  | nil => rfl
  | cons c cs ih =>
      rw [List.mem_cons, not_or] at hnl
      rw [List.cons_append, fileLines, if_neg (Ne.symm hnl.1), ih hnl.2]
      rfl

/-- No line has a newline in it. -/
theorem newline_not_mem_fileLines (t : Text) : ∀ l ∈ fileLines t, '\n' ∉ l := by
  induction t with
  | nil => exact fun l hl => absurd hl List.not_mem_nil
  | cons c cs ih =>
      intro l hl
      rw [fileLines] at hl
      split at hl
      · rcases List.mem_cons.mp hl with rfl | hl
        · exact List.not_mem_nil
        · exact ih l hl
      · next hc =>
          rcases List.mem_cons.mp hl with rfl | hl
          · rw [List.mem_cons, not_or]
            refine ⟨Ne.symm hc, ?_⟩
            cases hlines : fileLines cs with
            | nil => exact List.not_mem_nil
            | cons first rest => exact ih first (hlines ▸ List.mem_cons_self)
          · exact ih l (List.mem_of_mem_tail hl)

/-- The text of some lines, each with its newline. -/
def unlines (lines : List Text) : Text := lines.flatMap (· ++ ['\n'])

/-- Lines that are written are the lines that are read. -/
theorem fileLines_unlines {lines : List Text} (h : ∀ l ∈ lines, '\n' ∉ l) :
    fileLines (unlines lines) = lines := by
  induction lines with
  | nil => rfl
  | cons l rest ih =>
      rw [List.forall_mem_cons] at h
      rw [unlines, List.flatMap_cons, List.append_assoc,
        List.singleton_append, fileLines_append_newline,
        fileLines_terminated h.1]
      exact congrArg (l :: ·) (ih h.2)

/-- A text whose last line is finished: what is appended is a new line. -/
def Complete (t : Text) : Prop := t = [] ∨ ∃ front, t = front ++ ['\n']

theorem complete_append_unlines {t : Text} (ht : Complete t)
    (lines : List Text) : Complete (t ++ unlines lines) := by
  induction lines using List.reverseRecOn with
  | nil =>
      rw [show unlines [] = [] from rfl, List.append_nil]
      exact ht
  | append_singleton front line _ =>
      refine Or.inr ⟨t ++ (unlines front ++ line), ?_⟩
      rw [unlines, List.flatMap_append, List.flatMap_singleton, unlines]
      simp only [List.append_assoc]

theorem complete_unlines (lines : List Text) : Complete (unlines lines) :=
  complete_append_unlines (Or.inl rfl) lines

/-- Two texts of whole lines are one. -/
theorem complete_append {a b : Text} (ha : Complete a) (hb : Complete b) :
    Complete (a ++ b) := by
  rcases hb with rfl | ⟨front, rfl⟩
  · rw [List.append_nil]
    exact ha
  · exact Or.inr ⟨a ++ front, (List.append_assoc _ _ _).symm⟩

/-- Behind whole lines the lines add up. -/
theorem fileLines_append {t : Text} (ht : Complete t) (b : Text) :
    fileLines (t ++ b) = fileLines t ++ fileLines b := by
  rcases ht with rfl | ⟨front, rfl⟩
  · rfl
  · rw [List.append_assoc, List.singleton_append, fileLines_append_newline]

/-- A text whose last line is not finished is that line, behind a text whose
    last line is. -/
theorem exists_open_line {t : Text} (h : ¬ Complete t) :
    ∃ front last, t = front ++ last ∧ Complete front ∧ last ≠ []
      ∧ '\n' ∉ last := by
  induction t with
  | nil => exact absurd (Or.inl rfl) h
  | cons c cs ih =>
      by_cases hcs : Complete cs
      · rcases hcs with rfl | ⟨front, rfl⟩
        · refine ⟨[], [c], rfl, Or.inl rfl, List.cons_ne_nil _ _, ?_⟩
          rw [List.mem_singleton]
          rintro rfl
          exact h (Or.inr ⟨[], rfl⟩)
        · exact absurd (Or.inr ⟨c :: front, rfl⟩) h
      · obtain ⟨front, last, rfl, hfront, hne, hnl⟩ := ih hcs
        rcases hfront with rfl | ⟨front, rfl⟩
        · by_cases hc : c = '\n'
          · exact ⟨[c], last, rfl, Or.inr ⟨[], by rw [hc]; rfl⟩, hne, hnl⟩
          · refine ⟨[], c :: last, rfl, Or.inl rfl, List.cons_ne_nil _ _, ?_⟩
            rw [List.mem_cons, not_or]
            exact ⟨Ne.symm hc, hnl⟩
        · exact ⟨c :: (front ++ ['\n']), last, rfl, Or.inr ⟨c :: front, rfl⟩,
            hne, hnl⟩

/-- Text without a newline begins a text iff it begins its first line. -/
theorem prefix_takeWhile_line {pat : Text} (hnl : '\n' ∉ pat) (t : Text) :
    pat <+: t.takeWhile (· != '\n') ↔ pat <+: t := by
  induction pat generalizing t with
  | nil => simp
  | cons p ps ih =>
      rw [List.mem_cons, not_or] at hnl
      cases t with
      | nil => simp
      | cons c cs =>
          by_cases hc : c = '\n'
          · -- the pattern's first character is no newline
            simp only [hc, List.takeWhile_cons, bne_self_eq_false,
              Bool.false_eq_true, if_false, List.prefix_nil,
              List.cons_prefix_cons]
            exact iff_of_false (by simp) (fun h => hnl.1 h.1.symm)
          · rw [List.takeWhile_cons, if_pos (by simp [hc]),
              List.cons_prefix_cons, List.cons_prefix_cons, ih hnl.2 cs]

/-- **LINE BY LINE**: text without a newline stands in a file iff it stands in
    one of its lines. -/
theorem grep_fileLines {pat : Text} (hne : pat ≠ []) (hnl : '\n' ∉ pat)
    (t : Text) : grep pat (fileLines t) = true ↔ pat <:+: t := by
  rw [grep_eq_true]
  induction t with
  | nil => simp [fileLines, hne]
  | cons c cs ih =>
      rw [fileLines, List.infix_cons_iff, ← ih]
      by_cases hc : c = '\n'
      · have hno : ¬ pat <+: c :: cs := by
          intro h
          rw [← prefix_takeWhile_line hnl, List.takeWhile_cons,
            if_neg (by simp [hc]), List.prefix_nil] at h
          exact hne h
        rw [if_pos hc, List.exists_mem_cons_iff, or_iff_right hno,
          or_iff_right (fun h => hne (List.infix_nil.mp h))]
      · -- the first line grows by one character, the others stay
        have hline : pat <+: c :: (fileLines cs).headD [] ↔ pat <+: c :: cs := by
          rw [headD_fileLines, ← prefix_takeWhile_line hnl (c :: cs),
            List.takeWhile_cons, if_pos (by simp [hc])]
        rw [if_neg hc, List.exists_mem_cons_iff, List.infix_cons_iff, hline]
        cases fileLines cs with
        | nil => simp [hne]
        | cons l ls =>
            rw [List.headD_cons, List.tail_cons, List.exists_mem_cons_iff,
              or_assoc]

/-- Text without a newline begins a line iff it begins it without the lines
    that follow. -/
theorem prefix_append_newline {pat : Text} (hnl : '\n' ∉ pat) (a b : Text) :
    pat <+: a ++ '\n' :: b ↔ pat <+: a := by
  have hline : (a ++ '\n' :: b).takeWhile (· != '\n')
      = a.takeWhile (· != '\n') := by
    rw [List.takeWhile_append]
    split
    · rename_i h
      rw [List.takeWhile_cons, if_neg (by simp), List.append_nil]
      exact ((List.takeWhile_sublist _).eq_of_length h).symm
    · rfl
  rw [← prefix_takeWhile_line hnl, hline, prefix_takeWhile_line hnl]

/-- Text without a newline does not reach over one. -/
theorem line_infix_append_iff {pat : Text} (hne : pat ≠ []) (hnl : '\n' ∉ pat)
    (a b : Text) : pat <:+: a ++ '\n' :: b ↔ pat <:+: a ∨ pat <:+: b := by
  induction a with
  | nil =>
      have hno : ¬ pat <+: '\n' :: b := by
        rw [← List.nil_append ('\n' :: b), prefix_append_newline hnl,
          List.prefix_nil]
        exact hne
      rw [List.nil_append, List.infix_cons_iff, List.infix_nil]
      exact or_congr (iff_of_false hno hne) Iff.rfl
  | cons c cs ih =>
      rw [List.cons_append, List.infix_cons_iff, List.infix_cons_iff,
        ← List.cons_append, prefix_append_newline hnl, ih, or_assoc]

/-- The lines that stay are those without the text. -/
theorem mem_sedDelete {pat l : Text} {lines : List Text} :
    l ∈ sedDelete pat lines ↔ l ∈ lines ∧ ¬ pat <:+: l := by
  simp [sedDelete]

/-- Nothing that mentions the pattern survives the deletion. -/
theorem grep_sedDelete (pat : Text) (lines : List Text) :
    grep pat (sedDelete pat lines) = false := by
  rw [grep_eq_false]
  intro l hl
  exact (mem_sedDelete.mp hl).2

/-! ## Command output -/

/-- `$(...)` of a command that prints the lines: newlines at the end vanish. -/
def capture (lines : List Text) : Text :=
  (List.intercalate ['\n'] lines).rdropWhile (· == '\n')

/-- What `echo` prints of an unquoted expansion. -/
def echoed (s : Text) : Text :=
  List.intercalate [' '] (splitWords s)

theorem capture_singleton (line : Text) :
    capture [line] = line.rdropWhile (· == '\n') := by
  rw [capture, List.intercalate_singleton]

/-- A line is captured as it is. -/
theorem capture_line {line : Text} (hnl : '\n' ∉ line) :
    capture [line] = line := by
  rw [capture_singleton, List.rdropWhile_eq_self_iff]
  intro hne hlast
  exact hnl (beq_iff_eq.mp hlast ▸ List.getLast_mem hne)

/-- Text in front that ends in no newline is kept. -/
theorem capture_append {front : Text} {c : Char} (hc : c ≠ '\n') (rest : Text) :
    capture [front ++ c :: rest] = front ++ c :: capture [rest] := by
  rw [capture_singleton, capture_singleton]
  induction rest using List.reverseRecOn with
  | nil =>
      rw [List.rdropWhile_nil]
      exact List.rdropWhile_concat_neg _ _ _ (by simpa using hc)
  | append_singleton rest d ih =>
      by_cases hd : d = '\n'
      · rw [← List.cons_append, ← List.append_assoc,
          List.rdropWhile_concat_pos _ _ _ (by simpa using hd),
          List.rdropWhile_concat_pos _ _ _ (by simpa using hd), ih]
      · rw [← List.cons_append, ← List.append_assoc,
          List.rdropWhile_concat_neg _ _ _ (by simpa using hd),
          List.rdropWhile_concat_neg _ _ _ (by simpa using hd)]
        simp

/-- Newlines at the end belong to no word. -/
theorem splitWords_rdropWhile (s : Text) :
    splitWords (s.rdropWhile (· == '\n')) = splitWords s := by
  induction s using List.reverseRecOn with
  | nil => rfl
  | append_singleton front c ih =>
      by_cases hc : c = '\n'
      · subst hc
        rw [List.rdropWhile_concat_pos _ _ _ rfl, ih,
          splitWords_append_blank rfl, splitWords_nil, List.append_nil]
      · rw [List.rdropWhile_concat_neg _ _ _ (by simpa using hc)]

/-- **OUTPUT AS WORDS**: an unquoted `$(...)` gives the words of the lines. -/
theorem splitWords_capture (lines : List Text) :
    splitWords (capture lines) = lines.flatMap splitWords := by
  rw [capture, splitWords_rdropWhile]
  induction lines with
  | nil => rfl
  | cons line rest ih =>
      cases rest with
      | nil => rw [List.intercalate_singleton, List.flatMap_singleton]
      | cons next rest =>
          rw [List.intercalate_cons_cons, List.append_assoc,
            List.singleton_append, splitWords_append_blank rfl, ih,
            List.flatMap_cons (x := line)]

/-- **OUTPUT SEARCHED**: text without a newline stands in an output iff it
    stands in one of its lines. -/
theorem grep_capture {pat : Text} (hne : pat ≠ []) (hnl : '\n' ∉ pat)
    (lines : List Text) :
    pat <:+: capture lines ↔ grep pat lines = true := by
  have hdrop : ∀ s : Text,
      pat <:+: s.rdropWhile (· == '\n') ↔ pat <:+: s := by
    intro s
    induction s using List.reverseRecOn with
    | nil => rw [List.rdropWhile_nil]
    | append_singleton front c ih =>
        by_cases hc : c = '\n'
        · rw [hc, List.rdropWhile_concat_pos _ _ _ rfl, ih,
            line_infix_append_iff hne hnl,
            or_iff_left (fun h => hne (List.infix_nil.mp h))]
        · rw [List.rdropWhile_concat_neg _ _ _ (by simpa using hc)]
  rw [capture, hdrop, grep_eq_true]
  induction lines with
  | nil => simpa using hne
  | cons line rest ih =>
      cases rest with
      | nil => simp
      | cons next rest =>
          rw [List.intercalate_cons_cons, List.append_assoc,
            List.singleton_append, line_infix_append_iff hne hnl,
            List.exists_mem_cons_iff]
          exact or_congr Iff.rfl ih

/-! ## Numbers -/

/-- Numbers are printed in different ways. -/
theorem toDigits_injective {m n : Nat}
    (h : Nat.toDigits 10 m = Nat.toDigits 10 n) : m = n := by
  rw [← Nat.ofDigitChars_ten_toDigits (n := m), h,
    Nat.ofDigitChars_ten_toDigits]

/-! ## Prompts -/

/-- The `case` pattern `[Yy]*`. -/
def isYes (answer : Text) : Bool :=
  answer.head? == some 'Y' || answer.head? == some 'y'

/-- The `case` pattern `[Nn]*`. -/
def isNo (answer : Text) : Bool :=
  answer.head? == some 'N' || answer.head? == some 'n'

theorem isNo_of_isYes {answer : Text} (h : isYes answer = true) :
    isNo answer = false := by
  rw [isYes] at h
  rw [isNo]
  cases answer with
  | nil => simp at h
  | cons c cs =>
      simp only [List.head?_cons, Bool.or_eq_true, beq_iff_eq,
        Option.some.injEq] at h
      rcases h with rfl | rfl <;> rfl

end ShellText
