import InstallLinux.JsonTextProofs

/-! # JSON as text — what a free search can see

    The searches of `JsonTextProofs` are for a member, key and value together.
    A free one is for some words alone, or for words between quotes.  Words
    stand in no number, literal or punctuation, so they are found in the
    strings of a document; but an escape may end in one of their letters, and
    a string that ends in a quote and the words ends like a string of them.

    * `occursIn_words`: a term whose first character no escape contains is
      found iff some string, a value or a key, holds it;
    * `occursIn_quoted`: between quotes it is found iff some string is it, or
      ends in a quote and it. -/

namespace JsonText

/-! ## Terms -/

/-- Letters, digits, blanks, dashes and parentheses. -/
def isText (c : Char) : Bool :=
  isPlain c || c == '-' || c == '(' || c == ')'

/-- The characters of an escape in a JSON string. -/
def isEscChar (c : Char) : Bool :=
  c.isDigit || "abcdefABCDEFnrtu/\\\"".toList.contains c

/-- The characters of a document outside its strings. -/
def isOutside (c : Char) : Bool :=
  isNumChar c || "nulltruefalse[]\x7b\x7d,: \"".toList.contains c

/-- What JSON leaves to a serializer: a character is printed as it is, as text
    is, or as an escape. -/
structure Escaping.Standard (E : Escaping) : Prop where
  escapes : ∀ c, E.esc c = [c] ∨ ∀ d ∈ E.esc c, isEscChar d = true
  text : ∀ c, isText c = true → E.esc c = [c]

/-- Some text that begins like no escape and like nothing outside a string. -/
structure IsTerm (w : List Char) : Prop where
  text : ∀ c ∈ w, isText c = true
  start : ∃ c ∈ w.head?, isEscChar c = false ∧ isOutside c = false

theorem IsTerm.ne_nil {w : List Char} (hw : IsTerm w) : w ≠ [] := by
  rintro rfl
  obtain ⟨c, hc, -⟩ := hw.start
  exact nomatch hc

/-- A term fits on a line. -/
theorem IsTerm.no_newline {w : List Char} (hw : IsTerm w) : '\n' ∉ w :=
  fun hmem => absurd (hw.text _ hmem) (by decide)

mutual
/-- Some string, a value or a key, passes the test. -/
def hasString (p : List Char → Bool) : Json → Bool
  | .null => false
  | .bool _ => false
  | .num _ => false
  | .str s => p s
  | .arr elems => elemsString p elems
  | .obj members => membersString p members

def elemsString (p : List Char → Bool) : List Json → Bool
  | [] => false
  | j :: rest => hasString p j || elemsString p rest

def membersString (p : List Char → Bool) : List (List Char × Json) → Bool
  | [] => false
  | (key, j) :: rest => p key || (hasString p j || membersString p rest)
end

/-- The string holds the words. -/
def holds (w s : List Char) : Bool := decide (w <:+: s)

theorem isText_ne_quote {c : Char} (h : isText c = true) : c ≠ '"' := by
  rintro rfl
  exact absurd h (by decide)

/-- Text without its first character holds no pattern. -/
theorem not_occursIn_of_head {c : Char} {cs : List Char} :
    ∀ {a : List Char} (rest : List Char), c ∉ a →
      ¬ occursIn (c :: cs) a rest := by
  intro a
  induction a with
  | nil => intro rest _ h; exact h
  | cons d ds ih =>
      intro rest hc h
      rw [List.mem_cons, not_or] at hc
      rcases h with hprefix | hin
      · exact hc.1 (List.cons_prefix_cons.mp hprefix).1
      · exact ih rest hc.2 hin

/-- Nothing outside the strings is the start of a term. -/
theorem words_not_outside {w : List Char} (hw : IsTerm w) {a : List Char}
    (ha : ∀ c ∈ a, isOutside c = true) (rest : List Char) :
    ¬ occursIn w a rest := by
  obtain ⟨c, hc, -, hout⟩ := hw.start
  obtain ⟨cs, rfl⟩ := List.head?_eq_some_iff.mp hc
  refine not_occursIn_of_head rest ?_
  exact fun hmem => Bool.false_ne_true (hout.symm.trans (ha c hmem))

/-- What separates two values is outside the strings. -/
theorem separator_outside {g : Gaps}
    (hg : ∀ c ∈ g.colon ++ g.comma, isOutside c = true) (first : Bool) :
    ∀ c ∈ g.separator first, isOutside c = true := by
  intro c hc
  cases first with
  | true => exact absurd hc List.not_mem_nil
  | false =>
      rcases List.mem_cons.mp hc with rfl | hc
      · decide
      · exact hg c (List.mem_append_right _ hc)

theorem colon_outside {g : Gaps}
    (hg : ∀ c ∈ g.colon ++ g.comma, isOutside c = true) :
    ∀ c ∈ ':' :: g.colon, isOutside c = true := by
  intro c hc
  rcases List.mem_cons.mp hc with rfl | hc
  · decide
  · exact hg c (List.mem_append_left _ hc)

section Words

variable {E : Escaping} (hE : E.Standard)

include hE

/-! ## Words in a string -/

/-- Words begin the body of a token iff they begin the string. -/
theorem words_prefix_escape_iff {w : List Char}
    (hw : ∀ c ∈ w, isText c = true) (s rest : List Char) :
    w <+: escape E s ++ '"' :: rest ↔ w <+: s := by
  induction w generalizing s with
  | nil => exact iff_of_true List.nil_prefix List.nil_prefix
  | cons c cs ih =>
      rw [List.forall_mem_cons] at hw
      cases s with
      | nil =>
          refine iff_of_false ?_ (fun h => nomatch List.prefix_nil.mp h)
          intro h
          exact isText_ne_quote hw.1 (List.cons_prefix_cons.mp h).1
      | cons d ds =>
          show (c :: cs) <+: (E.esc d ++ escape E ds) ++ '"' :: rest ↔ _
          rw [List.append_assoc, List.cons_prefix_cons]
          by_cases hd : E.esc d = [d]
          · rw [hd, List.singleton_append, List.cons_prefix_cons,
              ih hw.2 ds]
          · -- an escaped character is no text, and its escape begins like none
            obtain ⟨t, ht⟩ := (E.shape d).resolve_left hd
            refine iff_of_false ?_ ?_
            · rw [ht, List.cons_append, List.cons_prefix_cons]
              rintro ⟨rfl, -⟩
              exact absurd hw.1 (by decide)
            · rintro ⟨rfl, -⟩
              exact hd (hE.text _ hw.1)

/-- **IN A STRING**: a term begins somewhere in the body of a token iff the
    string holds it. -/
theorem words_occursIn_escape {w : List Char} (hw : IsTerm w)
    (s rest : List Char) :
    occursIn w (escape E s) ('"' :: rest) ↔ w <:+: s := by
  obtain ⟨c, hc, hesc, -⟩ := hw.start
  obtain ⟨cs, rfl⟩ := List.head?_eq_some_iff.mp hc
  induction s with
  | nil => exact iff_of_false id (fun h => nomatch List.infix_nil.mp h)
  | cons d ds ih =>
      have hcons : escape E (d :: ds) = E.esc d ++ escape E ds := rfl
      have hprefix := words_prefix_escape_iff hE hw.text (d :: ds) rest
      rw [hcons, List.append_assoc] at hprefix
      rw [hcons, occursIn_append, ih, List.infix_cons_iff, ← hprefix]
      refine or_congr_left' (fun _ => ?_)
      rcases hE.escapes d with hd | hd
      · rw [hd]
        exact or_iff_left id
      · -- no escape contains the first character
        have hnot : c ∉ E.esc d := by
          intro hmem
          exact Bool.false_ne_true (hesc.symm.trans (hd c hmem))
        refine iff_of_false (not_occursIn_of_head _ hnot) ?_
        intro h
        obtain ⟨x, t, ht⟩ : ∃ x t, E.esc d = x :: t := by
          rcases E.shape d with hshape | ⟨t, hshape⟩
          · exact ⟨_, _, hshape⟩
          · exact ⟨_, _, hshape⟩
        rw [ht, List.cons_append, List.cons_prefix_cons] at h
        exact hnot (ht ▸ h.1 ▸ List.mem_cons_self)

/-- A term is found in a token iff the string holds it. -/
theorem words_occursIn_strTok {w : List Char} (hw : IsTerm w)
    (s rest : List Char) :
    occursIn w (strTok E s) rest ↔ holds w s = true := by
  obtain ⟨c, hc, -, hout⟩ := hw.start
  obtain ⟨cs, rfl⟩ := List.head?_eq_some_iff.mp hc
  have hquote : c ∉ ['"'] := by
    intro hmem
    rw [List.mem_singleton.mp hmem] at hout
    exact absurd hout (by decide)
  have hsplit : strTok E s = ['"'] ++ (escape E s ++ ['"']) := rfl
  rw [holds, decide_eq_true_iff, ← words_occursIn_escape hE hw s rest, hsplit,
    occursIn_append, occursIn_append,
    or_iff_right (not_occursIn_of_head _ hquote),
    or_iff_left (not_occursIn_of_head _ hquote), List.singleton_append]

end Words

/-! ## Words in a document -/

variable {E : Escaping} {g : Gaps} {w : List Char}

mutual
/-- **A TERM**: it is found in a document iff some string holds it. -/
theorem occursIn_words (hE : E.Standard)
    (hg : ∀ c ∈ g.colon ++ g.comma, isOutside c = true) (hw : IsTerm w) :
    ∀ (j : Json) (rest : List Char),
      occursIn w (textWith E g j) rest ↔ hasString (holds w) j = true
  | .null, rest => by
      rw [textWith, hasString]
      exact iff_of_false (words_not_outside hw (List.all_eq_true.mp rfl) rest)
        Bool.false_ne_true
  | .bool true, rest => by
      rw [textWith, hasString]
      exact iff_of_false (words_not_outside hw (List.all_eq_true.mp rfl) rest)
        Bool.false_ne_true
  | .bool false, rest => by
      rw [textWith, hasString]
      exact iff_of_false (words_not_outside hw (List.all_eq_true.mp rfl) rest)
        Bool.false_ne_true
  | .num n, rest => by
      rw [textWith, hasString]
      refine iff_of_false (words_not_outside hw ?_ rest) Bool.false_ne_true
      intro c hc
      rw [isOutside, n.lexical c hc, Bool.true_or]
  | .str s, rest => by
      rw [textWith, hasString, words_occursIn_strTok hE hw]
  | .arr elems, rest => by
      have hopen := words_not_outside hw (a := ['['])
        (List.all_eq_true.mp rfl) (elemsWith E g true elems ++ rest)
      rw [textWith, hasString, ← List.singleton_append, occursIn_append,
        or_iff_right hopen, occursIn_words_elems hE hg hw true elems rest]
  | .obj members, rest => by
      have hopen := words_not_outside hw (a := ['\x7b'])
        (List.all_eq_true.mp rfl) (membersWith E g true members ++ rest)
      rw [textWith, hasString, ← List.singleton_append, occursIn_append,
        or_iff_right hopen, occursIn_words_members hE hg hw true members rest]

theorem occursIn_words_elems (hE : E.Standard)
    (hg : ∀ c ∈ g.colon ++ g.comma, isOutside c = true) (hw : IsTerm w) :
    ∀ (first : Bool) (elems : List Json) (rest : List Char),
      occursIn w (elemsWith E g first elems) rest
        ↔ elemsString (holds w) elems = true
  | first, [], rest => by
      rw [elemsWith, elemsString]
      exact iff_of_false (words_not_outside hw (List.all_eq_true.mp rfl) rest)
        Bool.false_ne_true
  | first, j :: js, rest => by
      rw [elemsWith, elemsString, occursIn_append, occursIn_append,
        or_iff_right (words_not_outside hw (separator_outside hg first) _),
        occursIn_words hE hg hw j, occursIn_words_elems hE hg hw false js,
        Bool.or_eq_true]

theorem occursIn_words_members (hE : E.Standard)
    (hg : ∀ c ∈ g.colon ++ g.comma, isOutside c = true) (hw : IsTerm w) :
    ∀ (first : Bool) (members : List (List Char × Json)) (rest : List Char),
      occursIn w (membersWith E g first members) rest
        ↔ membersString (holds w) members = true
  | first, [], rest => by
      rw [membersWith, membersString]
      exact iff_of_false (words_not_outside hw (List.all_eq_true.mp rfl) rest)
        Bool.false_ne_true
  | first, (key, j) :: ms, rest => by
      rw [membersWith, membersString, occursIn_append, occursIn_append,
        or_iff_right (words_not_outside hw (separator_outside hg first) _),
        words_occursIn_strTok hE hw, ← List.cons_append, occursIn_append,
        or_iff_right (words_not_outside hw (colon_outside hg) _),
        occursIn_append, occursIn_words hE hg hw j,
        occursIn_words_members hE hg hw false ms, Bool.or_eq_true, Bool.or_eq_true]
end

/-! ## Words between quotes -/

/-- The search text `"words"`. -/
def quotedPat (words : List Char) : List Char := '"' :: (words ++ ['"'])

section Quoted

variable {words : List Char} (hne : words ≠ [])
  (hplain : ∀ c ∈ words, isPlain c = true)

include hplain

/-- Inside a token the pattern can only begin at an escaped quote. -/
theorem quoted_occursIn_escape (s rest : List Char) :
    occursIn (quotedPat words) (escape E s) ('"' :: rest)
      ↔ '"' :: words <:+ s := by
  induction s with
  | nil => exact iff_of_false id (fun h => nomatch List.suffix_nil.mp h)
  | cons c cs ih =>
      rw [show escape E (c :: cs) = E.esc c ++ escape E cs from rfl,
        occursIn_append, ih, List.suffix_cons_iff]
      refine or_congr_left' (fun _ => ?_)
      by_cases hc : c = '"'
      · subst hc
        -- behind the backslash the quote opens the pattern
        have hstart : quotedPat words <+: '"' :: (escape E cs ++ '"' :: rest)
            ↔ cs = words := by
          rw [quotedPat, List.cons_prefix_cons, prefix_escape_iff E hplain]
          simp
        have hslash : ¬ quotedPat words
            <+: '\\' :: '"' :: (escape E cs ++ '"' :: rest) := by
          rw [quotedPat, List.cons_prefix_cons]
          exact fun h => absurd h.1 (by decide)
        rw [E.quote, List.cons.injEq, and_iff_right rfl, ← hstart.trans eq_comm]
        show _ ∨ _ ∨ False ↔ _
        rw [or_false]
        exact or_iff_right hslash
      · refine iff_of_false (not_occursIn_of_no_quote _ (E.hides c hc)) ?_
        exact fun h => hc (List.cons.inj h).1.symm

include hne

/-- **ONE TOKEN**: the words between quotes are found in a string token iff
    the string looks like them. -/
theorem quoted_occursIn_strTok (s : List Char) {rest : List Char}
    (hrest : Stops rest ∨ ∃ t, rest = ':' :: t) :
    occursIn (quotedPat words) (strTok E s) rest ↔ looksLike words s = true := by
  -- behind the closing quote there is a colon or punctuation, no word
  have hclose : ¬ occursIn (quotedPat words) ['"'] rest := by
    rintro (h | h)
    · rw [quotedPat, List.nil_append, List.cons_prefix_cons] at h
      rcases hrest with hstop | ⟨t, rfl⟩
      · exact hstop.not_key hne hplain h.2
      · obtain ⟨c, cs, rfl⟩ := List.exists_cons_of_ne_nil hne
        rw [List.cons_append, List.cons_prefix_cons] at h
        have hc := hplain c List.mem_cons_self
        rw [h.2.1] at hc
        exact absurd hc (by decide)
    · exact h
  have hopen : quotedPat words <+: '"' :: ((escape E s ++ ['"']) ++ rest)
      ↔ s = words := by
    rw [quotedPat, List.cons_prefix_cons, List.append_assoc,
      List.singleton_append, prefix_escape_iff E hplain]
    simp
  rw [strTok, occursIn, hopen, occursIn_append, List.singleton_append,
    quoted_occursIn_escape hplain, or_iff_left hclose, looksLike,
    Bool.or_eq_true, decide_eq_true_iff, decide_eq_true_iff]

end Quoted

/-- No quoted words are found between two values. -/
theorem quoted_not_separator {words : List Char} (first : Bool)
    (rest : List Char) :
    ¬ occursIn (quotedPat words) (g.separator first) rest := by
  refine not_occursIn_of_no_quote rest ?_
  cases first with
  | true => exact List.not_mem_nil
  | false =>
      rw [Gaps.separator, List.mem_cons, not_or]
      exact ⟨by decide, g.comma_no_quote⟩

mutual
/-- **BETWEEN QUOTES**: the words are found in a document iff some string is
    them, or ends in a quote and them. -/
theorem occursIn_quoted {words : List Char} (hne : words ≠ [])
    (hplain : ∀ c ∈ words, isPlain c = true) :
    ∀ (j : Json) (rest : List Char), Stops rest →
      (occursIn (quotedPat words) (textWith E g j) rest
        ↔ hasString (looksLike words) j = true)
  | .null, rest, _ => by
      rw [textWith, hasString]
      exact iff_of_false (not_occursIn_of_no_quote rest (by decide))
        Bool.false_ne_true
  | .bool true, rest, _ => by
      rw [textWith, hasString]
      exact iff_of_false (not_occursIn_of_no_quote rest (by decide))
        Bool.false_ne_true
  | .bool false, rest, _ => by
      rw [textWith, hasString]
      exact iff_of_false (not_occursIn_of_no_quote rest (by decide))
        Bool.false_ne_true
  | .num n, rest, _ => by
      rw [textWith, hasString]
      exact iff_of_false (not_occursIn_of_no_quote rest (numLit_no_quote n))
        Bool.false_ne_true
  | .str s, rest, hrest => by
      rw [textWith, hasString,
        quoted_occursIn_strTok hne hplain s (Or.inl hrest)]
  | .arr elems, rest, hrest => by
      rw [textWith, hasString, ← List.singleton_append, occursIn_append,
        occursIn_quoted_elems hne hplain true elems rest hrest]
      exact or_iff_right (not_occursIn_of_no_quote _ (by decide))
  | .obj members, rest, hrest => by
      rw [textWith, hasString, ← List.singleton_append, occursIn_append,
        occursIn_quoted_members hne hplain true members rest hrest]
      exact or_iff_right (not_occursIn_of_no_quote _ (by decide))

theorem occursIn_quoted_elems {words : List Char} (hne : words ≠ [])
    (hplain : ∀ c ∈ words, isPlain c = true) :
    ∀ (first : Bool) (elems : List Json) (rest : List Char), Stops rest →
      (occursIn (quotedPat words) (elemsWith E g first elems) rest
        ↔ elemsString (looksLike words) elems = true)
  | first, [], rest, _ => by
      rw [elemsWith, elemsString]
      exact iff_of_false (not_occursIn_of_no_quote rest (by decide))
        Bool.false_ne_true
  | first, j :: js, rest, hrest => by
      rw [elemsWith, elemsString, occursIn_append, occursIn_append,
        occursIn_quoted hne hplain j _ (stops_elemsWith E g js rest),
        occursIn_quoted_elems hne hplain false js rest hrest,
        or_iff_right (quoted_not_separator first _), Bool.or_eq_true]

theorem occursIn_quoted_members {words : List Char} (hne : words ≠ [])
    (hplain : ∀ c ∈ words, isPlain c = true) :
    ∀ (first : Bool) (members : List (List Char × Json)) (rest : List Char),
      Stops rest →
      (occursIn (quotedPat words) (membersWith E g first members) rest
        ↔ membersString (looksLike words) members = true)
  | first, [], rest, _ => by
      rw [membersWith, membersString]
      exact iff_of_false (not_occursIn_of_no_quote rest (by decide))
        Bool.false_ne_true
  | first, (key, j) :: ms, rest, hrest => by
      -- neither the colon nor the gap behind it opens a pattern
      have hcolon : ¬ occursIn (quotedPat words) (':' :: g.colon)
          ((textWith E g j ++ membersWith E g false ms) ++ rest) := by
        refine not_occursIn_of_no_quote _ ?_
        rw [List.mem_cons, not_or]
        exact ⟨by decide, g.colon_no_quote⟩
      have hkey : occursIn (quotedPat words) (strTok E key)
          (':' :: (g.colon ++ (textWith E g j ++ membersWith E g false ms))
            ++ rest) ↔ looksLike words key = true :=
        quoted_occursIn_strTok hne hplain key (Or.inr ⟨_, rfl⟩)
      rw [membersWith, membersString, occursIn_append, occursIn_append,
        or_iff_right (quoted_not_separator first _), hkey,
        ← List.cons_append, occursIn_append, or_iff_right hcolon,
        occursIn_append,
        occursIn_quoted hne hplain j _ (stops_membersWith E g ms rest),
        occursIn_quoted_members hne hplain false ms rest hrest,
        Bool.or_eq_true, Bool.or_eq_true]
end

/-! ## The plain serializer -/

theorem hex2_escChar {n : Nat} (h : n < 32) :
    ∀ d ∈ hex2 n, isEscChar d = true := by
  have hall : ∀ k : Fin 32, (hex2 k.val).all isEscChar = true := by decide
  exact List.all_eq_true.mp (hall ⟨n, h⟩)

theorem isText_toNat {c : Char} (h : isText c = true) :
    32 ≤ c.toNat ∧ c ≠ '"' ∧ c ≠ '\\' := by
  refine ⟨?_, isText_ne_quote h, ?_⟩
  · by_contra hlt
    have hall : ∀ k : Fin 32, isText (Char.ofNat k.val) = false := by decide
    have hnot := hall ⟨c.toNat, by omega⟩
    rw [Char.ofNat_toNat, h] at hnot
    exact absurd hnot (by decide)
  · rintro rfl
    exact absurd h (by decide)

/-- The escaping of the examples is one that JSON allows. -/
theorem plainEscaping_standard : plainEscaping.Standard where
  escapes := by
    intro c
    show plainEsc c = [c] ∨ ∀ d ∈ plainEsc c, isEscChar d = true
    rw [plainEsc]
    split
    · exact Or.inr (List.all_eq_true.mp rfl)
    · split
      · exact Or.inr (List.all_eq_true.mp rfl)
      · split
        · next h =>
            refine Or.inr ?_
            have hhex := hex2_escChar h
            simp only [List.forall_mem_cons]
            exact ⟨rfl, rfl, rfl, rfl, hhex⟩
        · exact Or.inl rfl
  text := by
    intro c hc
    obtain ⟨hlow, hquote, hslash⟩ := isText_toNat hc
    show plainEsc c = [c]
    rw [plainEsc, if_neg hquote, if_neg hslash, if_neg (by omega)]

end JsonText
