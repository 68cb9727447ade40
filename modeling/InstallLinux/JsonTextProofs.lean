import Mathlib.Data.List.Infix

/-! # JSON as text — what a raw text search can see

    A document, its serialization, and the question a `grep` for `"key":value`
    really answers.  The serializer is any one whose escaping hides quotes and
    leaves plain words alone (`Escaping`); it prints a document compactly
    (`text`), or with the same gap after every colon and after every comma
    (`textWith`).

    The text of a document is searched compositionally: `occursIn pat a rest`
    says that `pat` begins somewhere inside `a` when `rest` follows.  Each
    syntactic form then contributes on its own, literals and punctuation
    nothing at all, a string only through its opening quote and its escaped
    quotes.  The result is `occursIn_textWith`: the pattern is found iff some
    member, at any depth, has the value and a key that is the pattern's key OR
    ends in an escaped quote and that key; `occursIn_text` is its compact
    case. -/

namespace JsonText

/-- Characters of a JSON number. -/
def isNumChar (c : Char) : Bool :=
  c.isDigit || c == '-' || c == '+' || c == '.' || c == 'e' || c == 'E'

/-- The lexical form of a JSON number. -/
structure NumLit where
  digits : List Char
  nonempty : digits ≠ []
  lexical : ∀ c ∈ digits, isNumChar c = true

/-- A JSON document; strings are held decoded. -/
inductive Json where
  | null
  | bool (b : Bool)
  | num (n : NumLit)
  | str (s : List Char)
  | arr (elems : List Json)
  | obj (members : List (List Char × Json))

/-- Characters every serializer prints as they are. -/
def isPlain (c : Char) : Bool :=
  c.isAlphanum || c == '_' || c == ' '

/-- How a serializer escapes the characters of a string. -/
structure Escaping where
  esc : Char → List Char
  quote : esc '"' = ['\\', '"']
  hides : ∀ c, c ≠ '"' → '"' ∉ esc c
  shape : ∀ c, esc c = [c] ∨ ∃ t, esc c = '\\' :: t
  plain : ∀ c, isPlain c = true → esc c = [c]

/-! ## Compact serialization -/

section Text

variable (E : Escaping)

/-- The body of a string token. -/
def escape (s : List Char) : List Char := s.flatMap E.esc

/-- A string token. -/
def strTok (s : List Char) : List Char := '"' :: (escape E s ++ ['"'])

/-- The separator in front of an element. -/
def comma : Bool → List Char
  | true => []
  | false => [',']

mutual
/-- Compact text of a document. -/
def text : Json → List Char
  | .null => "null".toList
  | .bool true => "true".toList
  | .bool false => "false".toList
  | .num n => n.digits
  | .str s => strTok E s
  | .arr elems => '[' :: elemsText true elems
  | .obj members => '{' :: membersText true members

/-- The elements still to print, and the closing bracket. -/
def elemsText : Bool → List Json → List Char
  | _, [] => [']']
  | first, j :: rest => comma first ++ (text j ++ elemsText false rest)

/-- The members still to print, and the closing brace. -/
def membersText : Bool → List (List Char × Json) → List Char
  | _, [] => ['}']
  | first, (key, j) :: rest =>
      comma first ++ (strTok E key ++ ':' :: (text j ++ membersText false rest))
end

/-! ## Serialization with gaps -/

/-- What is printed behind a colon and behind a comma. -/
structure Gaps where
  colon : List Char
  comma : List Char
  colon_no_quote : '"' ∉ colon
  comma_no_quote : '"' ∉ comma

theorem quote_not_mem_nil : '"' ∉ ([] : List Char) :=
  List.not_mem_nil

theorem quote_not_mem_blank : '"' ∉ [' '] := by
  decide

/-- Nothing. -/
def Gaps.compact : Gaps := ⟨[], [], quote_not_mem_nil, quote_not_mem_nil⟩

/-- A blank behind each colon, and behind each comma or not. -/
def Gaps.blanks : Bool → Gaps
  | false => ⟨[' '], [], quote_not_mem_blank, quote_not_mem_nil⟩
  | true => ⟨[' '], [' '], quote_not_mem_blank, quote_not_mem_blank⟩

variable (g : Gaps)

/-- The separator in front of an element, with its gap. -/
def Gaps.separator : Bool → List Char
  | true => []
  | false => ',' :: g.comma

mutual
/-- Text of a document. -/
def textWith : Json → List Char
  | .null => "null".toList
  | .bool true => "true".toList
  | .bool false => "false".toList
  | .num n => n.digits
  | .str s => strTok E s
  | .arr elems => '[' :: elemsWith true elems
  | .obj members => '{' :: membersWith true members

def elemsWith : Bool → List Json → List Char
  | _, [] => [']']
  | first, j :: rest => g.separator first ++ (textWith j ++ elemsWith false rest)

def membersWith : Bool → List (List Char × Json) → List Char
  | _, [] => ['}']
  | first, (key, j) :: rest =>
      g.separator first
        ++ (strTok E key
          ++ ':' :: (g.colon ++ (textWith j ++ membersWith false rest)))
end

/-- Compact text separates by commas only. -/
theorem separator_compact (first : Bool) :
    Gaps.compact.separator first = comma first := by
  cases first <;> rfl

mutual
/-- Without gaps it is the compact text. -/
theorem textWith_compact : ∀ j : Json, textWith E .compact j = text E j
  | .null => rfl
  | .bool true => rfl
  | .bool false => rfl
  | .num _ => rfl
  | .str _ => rfl
  | .arr elems => congrArg ('[' :: ·) (elemsWith_compact true elems)
  | .obj members => congrArg (List.cons _) (membersWith_compact true members)

/-- The same for the elements of an array. -/
theorem elemsWith_compact : ∀ (first : Bool) (elems : List Json),
    elemsWith E .compact first elems = elemsText E first elems
  | _, [] => rfl
  | first, j :: rest => by
      rw [elemsWith, elemsText, separator_compact, textWith_compact j,
        elemsWith_compact false rest]

/-- The same for the members of an object. -/
theorem membersWith_compact :
    ∀ (first : Bool) (members : List (List Char × Json)),
      membersWith E .compact first members = membersText E first members
  | _, [] => rfl
  | first, (key, j) :: rest => by
      rw [membersWith, membersText, separator_compact, textWith_compact j,
        membersWith_compact false rest]
      rfl
end

end Text

mutual
/-- Some member at any depth satisfies the test. -/
def hasMember (p : List Char → Json → Bool) : Json → Bool
  | .null => false
  | .bool _ => false
  | .num _ => false
  | .str _ => false
  | .arr elems => elemsHave p elems
  | .obj members => membersHave p members

def elemsHave (p : List Char → Json → Bool) : List Json → Bool
  | [] => false
  | j :: rest => hasMember p j || elemsHave p rest

def membersHave (p : List Char → Json → Bool) :
    List (List Char × Json) → Bool
  | [] => false
  | (key, j) :: rest => p key j || hasMember p j || membersHave p rest
end

mutual
/-- A weaker test is passed by at least the same documents. -/
theorem hasMember_mono {p q : List Char → Json → Bool}
    (h : ∀ name j, p name j = true → q name j = true) :
    ∀ j : Json, hasMember p j = true → hasMember q j = true
  | .null, hj => hj
  | .bool _, hj => hj
  | .num _, hj => hj
  | .str _, hj => hj
  | .arr elems, hj => elemsHave_mono h elems hj
  | .obj members, hj => membersHave_mono h members hj

/-- The same for the elements of an array. -/
theorem elemsHave_mono {p q : List Char → Json → Bool}
    (h : ∀ name j, p name j = true → q name j = true) :
    ∀ elems : List Json, elemsHave p elems = true → elemsHave q elems = true
  | [], hj => hj
  | j :: rest, hj => by
      rw [elemsHave, Bool.or_eq_true] at hj ⊢
      exact hj.imp (hasMember_mono h j) (elemsHave_mono h rest)

/-- The same for the members of an object. -/
theorem membersHave_mono {p q : List Char → Json → Bool}
    (h : ∀ name j, p name j = true → q name j = true) :
    ∀ members : List (List Char × Json),
      membersHave p members = true → membersHave q members = true
  | [], hj => hj
  | (name, j) :: rest, hj => by
      rw [membersHave, Bool.or_eq_true, Bool.or_eq_true] at hj ⊢
      exact hj.imp (Or.imp (h name j) (hasMember_mono h j))
        (membersHave_mono h rest)
end

mutual
/-- A disjunction of tests is found iff one of them is. -/
theorem hasMember_or (p q : List Char → Json → Bool) :
    ∀ j : Json, hasMember (fun name v => p name v || q name v) j
      = (hasMember p j || hasMember q j)
  | .null => rfl
  | .bool _ => rfl
  | .num _ => rfl
  | .str _ => rfl
  | .arr elems => elemsHave_or p q elems
  | .obj members => membersHave_or p q members

/-- The same for the elements of an array. -/
theorem elemsHave_or (p q : List Char → Json → Bool) :
    ∀ elems : List Json, elemsHave (fun name v => p name v || q name v) elems
      = (elemsHave p elems || elemsHave q elems)
  | [] => rfl
  | j :: rest => by
      rw [elemsHave, elemsHave, elemsHave, hasMember_or p q j,
        elemsHave_or p q rest]
      simp only [Bool.or_assoc, Bool.or_left_comm]

/-- The same for the members of an object. -/
theorem membersHave_or (p q : List Char → Json → Bool) :
    ∀ members : List (List Char × Json),
      membersHave (fun name v => p name v || q name v) members
        = (membersHave p members || membersHave q members)
  | [] => rfl
  | (name, j) :: rest => by
      rw [membersHave, membersHave, membersHave, hasMember_or p q j,
        membersHave_or p q rest]
      simp only [Bool.or_assoc, Bool.or_left_comm]
end

mutual
/-- A test that nothing passes finds nothing. -/
theorem hasMember_never : ∀ j : Json, hasMember (fun _ _ => false) j = false
  | .null => rfl
  | .bool _ => rfl
  | .num _ => rfl
  | .str _ => rfl
  | .arr elems => elemsHave_never elems
  | .obj members => membersHave_never members

/-- The same for the elements of an array. -/
theorem elemsHave_never :
    ∀ elems : List Json, elemsHave (fun _ _ => false) elems = false
  | [] => rfl
  | j :: rest => by
      rw [elemsHave, hasMember_never j, elemsHave_never rest, Bool.or_false]

/-- The same for the members of an object. -/
theorem membersHave_never : ∀ members : List (List Char × Json),
    membersHave (fun _ _ => false) members = false
  | [] => rfl
  | (_, j) :: rest => by
      rw [membersHave, hasMember_never j, membersHave_never rest,
        Bool.or_false, Bool.or_false]
end

/-- A member is among the first ones or among the others. -/
theorem membersHave_append (p : List Char → Json → Bool)
    (front back : List (List Char × Json)) :
    membersHave p (front ++ back)
      = (membersHave p front || membersHave p back) := by
  induction front with
  | nil => rfl
  | cons m rest ih =>
      obtain ⟨name, j⟩ := m
      rw [List.cons_append, membersHave, membersHave, ih]
      simp only [Bool.or_assoc]

/-! ## Where a pattern begins -/

/-- `pat` begins inside `a`, with `rest` following. -/
def occursIn (pat : List Char) : List Char → List Char → Prop
  | [], _ => False
  | c :: cs, rest => pat <+: c :: (cs ++ rest) ∨ occursIn pat cs rest

/-- An occurrence begins in the first part or in the second. -/
theorem occursIn_append (pat a b rest : List Char) :
    occursIn pat (a ++ b) rest
      ↔ occursIn pat a (b ++ rest) ∨ occursIn pat b rest := by
  induction a with
  | nil => simp [occursIn]
  | cons c cs ih =>
      simp only [List.cons_append, occursIn, ih, List.append_assoc, or_assoc]

/-- Searching a whole text is the infix relation. -/
theorem occursIn_nil {pat : List Char} (hpat : pat ≠ []) (a : List Char) :
    occursIn pat a [] ↔ pat <:+: a := by
  induction a with
  | nil => simp [occursIn, hpat]
  | cons c cs ih =>
      rw [List.infix_cons_iff, occursIn, ih, List.append_nil]

/-- Text without a quote holds no pattern that starts with one. -/
theorem not_occursIn_of_no_quote {p : List Char} :
    ∀ {a : List Char} (rest : List Char), '"' ∉ a →
      ¬ occursIn ('"' :: p) a rest := by
  intro a
  induction a with
  | nil => intro rest _ h; exact h
  | cons c cs ih =>
      intro rest hq h
      rcases h with hp | hcs
      · rw [List.cons_prefix_cons] at hp
        exact hq (hp.1 ▸ List.mem_cons_self)
      · exact ih rest (fun hm => hq (List.mem_cons_of_mem _ hm)) hcs

/-! ## Strings -/

/-- The search text `"key":value`. -/
def memberPat (key value : List Char) : List Char :=
  '"' :: (key ++ '"' :: ':' :: value)

/-- The keys a raw search takes for `key`: the key itself, and any name that
    ends in a quote character and that key. -/
def looksLike (key name : List Char) : Bool :=
  decide (name = key) || decide ('"' :: key <:+ name)

/-- What may follow a value, and a key. -/
def Stops (rest : List Char) : Prop :=
  ∀ c, rest.head? = some c → c ∈ [',', ']', '}', '{']

theorem stops_nil : Stops [] := by
  intro c hc
  exact absurd hc (by simp)

/-- What ends a value is no colon. -/
theorem Stops.not_colon {rest v : List Char} (h : Stops rest) :
    ¬ (':' :: v) <+: rest := by
  rintro ⟨t, rfl⟩
  exact absurd (h ':' rfl) (by decide)

/-- What ends a value begins no key. -/
theorem Stops.not_key {rest key tail : List Char} (h : Stops rest)
    (hne : key ≠ []) (hkey : ∀ c ∈ key, isPlain c = true) :
    ¬ (key ++ tail) <+: rest := by
  rintro ⟨t, rfl⟩
  cases key with
  | nil => exact hne rfl
  | cons c cs =>
      have hc := hkey c List.mem_cons_self
      have hmem := h c rfl
      simp only [List.mem_cons, List.not_mem_nil, or_false] at hmem
      rcases hmem with rfl | rfl | rfl | rfl <;> exact absurd hc (by decide)

section Search

variable (E : Escaping)

theorem isPlain_ne_quote {c : Char} (h : isPlain c = true) : c ≠ '"' := by
  rintro rfl
  exact absurd h (by decide)

theorem isPlain_ne_backslash {c : Char} (h : isPlain c = true) :
    c ≠ '\\' := by
  rintro rfl
  exact absurd h (by decide)

/-- Plain text needs no escapes. -/
theorem escape_plain {w : List Char} (h : ∀ c ∈ w, isPlain c = true) :
    escape E w = w := by
  induction w with
  | nil => rfl
  | cons c cs ih =>
      show E.esc c ++ escape E cs = c :: cs
      rw [E.plain c (h c List.mem_cons_self),
        ih (fun x hx => h x (List.mem_cons_of_mem _ hx))]
      rfl

/-- No escape begins with a quote, so a quote in front closes the token. -/
theorem quote_prefix_escape_iff (tail s rest : List Char) :
    ('"' :: tail) <+: escape E s ++ '"' :: rest ↔ s = [] ∧ tail <+: rest := by
  cases s with
  | nil =>
      show ('"' :: tail) <+: ('"' :: rest) ↔ _
      rw [List.cons_prefix_cons]
      simp
  | cons c cs =>
      refine iff_of_false ?_ (fun h => nomatch h.1)
      show ¬ ('"' :: tail) <+: (E.esc c ++ escape E cs) ++ '"' :: rest
      rcases E.shape c with hc | ⟨t, hc⟩
      · -- the quote itself is not printed as it is
        rw [hc, List.append_assoc, List.singleton_append,
          List.cons_prefix_cons]
        rintro ⟨rfl, -⟩
        have hq := E.quote
        rw [hc] at hq
        exact absurd (congrArg List.length hq) (by simp)
      · rw [hc, List.append_assoc, List.cons_append, List.cons_prefix_cons]
        rintro ⟨h, -⟩
        exact absurd h (by decide)

/-- A plain word closed by a quote is the whole body of the token it opens. -/
theorem prefix_escape_iff {key tail : List Char}
    (hkey : ∀ c ∈ key, isPlain c = true) (s rest : List Char) :
    (key ++ '"' :: tail) <+: escape E s ++ '"' :: rest
      ↔ s = key ∧ tail <+: rest := by
  induction key generalizing s with
  | nil => exact quote_prefix_escape_iff E tail s rest
  | cons k ks ih =>
      have hk := hkey k List.mem_cons_self
      have hks : ∀ c ∈ ks, isPlain c = true :=
        fun x hx => hkey x (List.mem_cons_of_mem _ hx)
      cases s with
      | nil =>
          show (k :: (ks ++ '"' :: tail)) <+: ('"' :: rest) ↔ _
          rw [List.cons_prefix_cons]
          constructor
          · rintro ⟨h, -⟩
            exact absurd h (isPlain_ne_quote hk)
          · rintro ⟨h, -⟩
            exact nomatch h
      | cons c cs =>
          show (k :: (ks ++ '"' :: tail))
            <+: (E.esc c ++ escape E cs) ++ '"' :: rest ↔ _
          rw [List.append_assoc]
          -- a plain character is matched by itself, never by an escape
          rcases E.shape c with hc | ⟨t, hc⟩
          · rw [hc, List.singleton_append, List.cons_prefix_cons,
              ih hks cs]
            constructor
            · rintro ⟨rfl, rfl, h⟩
              exact ⟨rfl, h⟩
            · rintro ⟨heq, h⟩
              obtain ⟨rfl, rfl⟩ := List.cons.inj heq
              exact ⟨rfl, rfl, h⟩
          · rw [hc, List.cons_append, List.cons_prefix_cons]
            constructor
            · rintro ⟨h, -⟩
              exact absurd h (isPlain_ne_backslash hk)
            · rintro ⟨heq, -⟩
              obtain ⟨rfl, -⟩ := List.cons.inj heq
              rw [E.plain c hk] at hc
              obtain ⟨hb, -⟩ := List.cons.inj hc
              exact absurd hb (isPlain_ne_backslash hk)

/-- Inside a token the pattern can only begin at an escaped quote. -/
theorem occursIn_escape {key value : List Char}
    (hkey : ∀ c ∈ key, isPlain c = true) (s rest : List Char) :
    occursIn (memberPat key value) (escape E s) ('"' :: rest)
      ↔ ('"' :: key) <:+ s ∧ (':' :: value) <+: rest := by
  induction s with
  | nil =>
      constructor
      · intro h
        exact absurd h id
      · rintro ⟨h, -⟩
        exact absurd (List.suffix_nil.mp h) (by simp)
  | cons c cs ih =>
      rw [show escape E (c :: cs) = E.esc c ++ escape E cs from rfl,
        occursIn_append, ih, List.suffix_cons_iff]
      by_cases hc : c = '"'
      · subst hc
        -- behind the backslash the quote opens the pattern
        have hstart : occursIn (memberPat key value) ['\\', '"']
            (escape E cs ++ '"' :: rest)
            ↔ cs = key ∧ (':' :: value) <+: rest := by
          rw [← prefix_escape_iff E hkey cs rest]
          simp [occursIn, memberPat]
        rw [E.quote, hstart]
        constructor
        · rintro (⟨rfl, h⟩ | ⟨h, hv⟩)
          · exact ⟨Or.inl rfl, h⟩
          · exact ⟨Or.inr h, hv⟩
        · rintro ⟨heq | h, hv⟩
          · exact Or.inl ⟨(List.cons.inj heq).2.symm, hv⟩
          · exact Or.inr ⟨h, hv⟩
      · have hno := not_occursIn_of_no_quote
          (p := key ++ '"' :: ':' :: value) (escape E cs ++ '"' :: rest)
          (E.hides c hc)
        constructor
        · rintro (h | ⟨h, hv⟩)
          · exact absurd h hno
          · exact ⟨Or.inr h, hv⟩
        · rintro ⟨heq | h, hv⟩
          · exact absurd (List.cons.inj heq).1.symm hc
          · exact Or.inr ⟨h, hv⟩

/-- **ONE TOKEN**: the pattern begins in a string token iff the string looks
    like the key and the value follows. -/
theorem occursIn_strTok {key value : List Char} (hne : key ≠ [])
    (hkey : ∀ c ∈ key, isPlain c = true) (s : List Char) {rest : List Char}
    (hrest : Stops rest ∨ ∃ t, rest = ':' :: t) :
    occursIn (memberPat key value) (strTok E s) rest
      ↔ looksLike key s = true ∧ (':' :: value) <+: rest := by
  -- behind the closing quote there is a colon or punctuation, no key
  have hclose : ¬ occursIn (memberPat key value) ['"'] rest := by
    rintro (h | h)
    · rw [memberPat, List.nil_append, List.cons_prefix_cons] at h
      rcases hrest with hstop | ⟨t, rfl⟩
      · exact hstop.not_key hne hkey h.2
      · cases key with
        | nil => exact hne rfl
        | cons k ks =>
            rw [List.cons_append, List.cons_prefix_cons] at h
            have hk := hkey k List.mem_cons_self
            rw [h.2.1] at hk
            exact absurd hk (by decide)
    · exact h
  have hopen : memberPat key value <+: '"' :: ((escape E s ++ ['"']) ++ rest)
      ↔ s = key ∧ (':' :: value) <+: rest := by
    rw [memberPat, List.cons_prefix_cons, List.append_assoc,
      List.singleton_append, prefix_escape_iff E hkey]
    simp
  have hinside := @occursIn_escape E key value hkey s rest
  rw [strTok, occursIn, hopen, occursIn_append, List.singleton_append,
    hinside]
  simp only [looksLike, Bool.or_eq_true, decide_eq_true_eq]
  constructor
  · rintro (⟨h, hv⟩ | ⟨h, hv⟩ | h)
    · exact ⟨Or.inl h, hv⟩
    · exact ⟨Or.inr h, hv⟩
    · exact absurd h hclose
  · rintro ⟨h | h, hv⟩
    · exact Or.inl ⟨h, hv⟩
    · exact Or.inr (Or.inl ⟨h, hv⟩)

/-! ## Documents -/

variable (g : Gaps)

/-- Further elements begin with what ends a value. -/
theorem stops_elemsWith (elems : List Json) (rest : List Char) :
    Stops (elemsWith E g false elems ++ rest) := by
  intro c hc
  cases elems with
  | nil =>
      have : ']' = c := Option.some.inj hc
      exact this ▸ by decide
  | cons j js =>
      have : ',' = c := Option.some.inj hc
      exact this ▸ by decide

/-- Further members begin with what ends a value. -/
theorem stops_membersWith (members : List (List Char × Json))
    (rest : List Char) : Stops (membersWith E g false members ++ rest) := by
  intro c hc
  cases members with
  | nil =>
      have : '}' = c := Option.some.inj hc
      exact this ▸ by decide
  | cons m ms =>
      have : ',' = c := Option.some.inj hc
      exact this ▸ by decide

/-- No member is found between two values. -/
theorem not_occursIn_separator {key value : List Char} (first : Bool)
    (rest : List Char) :
    ¬ occursIn (memberPat key value) (g.separator first) rest := by
  refine not_occursIn_of_no_quote rest ?_
  cases first with
  | true => exact List.not_mem_nil
  | false =>
      rw [Gaps.separator, List.mem_cons, not_or]
      exact ⟨by decide, g.comma_no_quote⟩

/-- A number has no quote in it. -/
theorem numLit_no_quote (n : NumLit) : '"' ∉ n.digits := by
  intro h
  exact absurd (n.lexical _ h) (by decide)

variable {key value : List Char} {is : Json → Bool}

/-- A member test for the search: the name looks like the key, the value
    prints as the searched value. -/
def memberTest (key : List Char) (is : Json → Bool) :
    List Char → Json → Bool :=
  fun name j => looksLike key name && is j

/-- The null literal. -/
def isNull : Json → Bool
  | .null => true
  | .bool _ => false
  | .num _ => false
  | .str _ => false
  | .arr _ => false
  | .obj _ => false

/-- A value prints as `null` iff it is null. -/
theorem null_prefix_text (j : Json) (rest : List Char) :
    "null".toList <+: text E j ++ rest ↔ isNull j = true := by
  cases j with
  | null => exact iff_of_true (by rw [text]; exact List.prefix_append _ _) rfl
  | bool b =>
      refine iff_of_false ?_ (by simp [isNull])
      cases b <;> (rw [text]; simp)
  | num n =>
      refine iff_of_false ?_ (by simp [isNull])
      rw [text]
      rintro ⟨t, ht⟩
      obtain ⟨digits, hne, hlex⟩ := n
      cases digits with
      | nil => exact hne rfl
      | cons c cs =>
          have hc : 'n' = c := (List.cons.inj ht).1
          have := hlex c List.mem_cons_self
          rw [← hc] at this
          exact absurd this (by decide)
  | str s =>
      refine iff_of_false ?_ (by simp [isNull])
      rw [text, strTok]
      simp
  | arr elems =>
      refine iff_of_false ?_ (by simp [isNull])
      rw [text]
      simp
  | obj members =>
      refine iff_of_false ?_ (by simp [isNull])
      rw [text]
      simp

mutual
/-- **THE SEARCH**: `"key":value` is found in a document iff some member at
    any depth passes the member test. -/
theorem occursIn_textWith (hne : key ≠ [])
    (hkey : ∀ c ∈ key, isPlain c = true)
    (hvalue : ∀ j rest, Stops rest →
      (value <+: g.colon ++ (textWith E g j ++ rest) ↔ is j = true)) :
    ∀ (j : Json) (rest : List Char), Stops rest →
      (occursIn (memberPat key value) (textWith E g j) rest
        ↔ hasMember (memberTest key is) j = true)
  | .null, rest, _ => by
      rw [textWith, hasMember]
      exact iff_of_false (not_occursIn_of_no_quote rest (by decide)) (by simp)
  | .bool true, rest, _ => by
      rw [textWith, hasMember]
      exact iff_of_false (not_occursIn_of_no_quote rest (by decide)) (by simp)
  | .bool false, rest, _ => by
      rw [textWith, hasMember]
      exact iff_of_false (not_occursIn_of_no_quote rest (by decide)) (by simp)
  | .num n, rest, _ => by
      rw [textWith, hasMember]
      exact iff_of_false (not_occursIn_of_no_quote rest (numLit_no_quote n))
        (by simp)
  | .str s, rest, hrest => by
      rw [textWith, hasMember, occursIn_strTok E hne hkey s (Or.inl hrest)]
      exact iff_of_false (fun h => hrest.not_colon h.2) (by simp)
  | .arr elems, rest, hrest => by
      rw [textWith, hasMember, ← List.singleton_append, occursIn_append,
        occursIn_elemsWith hne hkey hvalue true elems rest hrest]
      exact or_iff_right (not_occursIn_of_no_quote _ (by decide))
  | .obj members, rest, hrest => by
      rw [textWith, hasMember, ← List.singleton_append, occursIn_append,
        occursIn_membersWith hne hkey hvalue true members rest hrest]
      exact or_iff_right (not_occursIn_of_no_quote _ (by decide))

/-- The same for the elements of an array. -/
theorem occursIn_elemsWith (hne : key ≠ [])
    (hkey : ∀ c ∈ key, isPlain c = true)
    (hvalue : ∀ j rest, Stops rest →
      (value <+: g.colon ++ (textWith E g j ++ rest) ↔ is j = true)) :
    ∀ (first : Bool) (elems : List Json) (rest : List Char), Stops rest →
      (occursIn (memberPat key value) (elemsWith E g first elems) rest
        ↔ elemsHave (memberTest key is) elems = true)
  | first, [], rest, _ => by
      rw [elemsWith, elemsHave]
      exact iff_of_false (not_occursIn_of_no_quote rest (by decide)) (by simp)
  | first, j :: js, rest, hrest => by
      rw [elemsWith, elemsHave, occursIn_append, occursIn_append,
        occursIn_textWith hne hkey hvalue j _ (stops_elemsWith E g js rest),
        occursIn_elemsWith hne hkey hvalue false js rest hrest,
        or_iff_right (not_occursIn_separator g first _), Bool.or_eq_true]

/-- The same for the members of an object. -/
theorem occursIn_membersWith (hne : key ≠ [])
    (hkey : ∀ c ∈ key, isPlain c = true)
    (hvalue : ∀ j rest, Stops rest →
      (value <+: g.colon ++ (textWith E g j ++ rest) ↔ is j = true)) :
    ∀ (first : Bool) (members : List (List Char × Json)) (rest : List Char),
      Stops rest →
      (occursIn (memberPat key value) (membersWith E g first members) rest
        ↔ membersHave (memberTest key is) members = true)
  | first, [], rest, _ => by
      rw [membersWith, membersHave]
      exact iff_of_false (not_occursIn_of_no_quote rest (by decide)) (by simp)
  | first, (name, j) :: ms, rest, hrest => by
      have hstop := stops_membersWith E g ms rest
      have hname : occursIn (memberPat key value) (strTok E name)
          (':' :: (g.colon ++ (textWith E g j ++ membersWith E g false ms))
            ++ rest)
          ↔ memberTest key is name j = true := by
        rw [List.cons_append,
          occursIn_strTok E hne hkey name (Or.inr ⟨_, rfl⟩),
          List.cons_prefix_cons, List.append_assoc, List.append_assoc,
          hvalue j _ hstop, memberTest, Bool.and_eq_true]
        simp
      -- neither the colon nor the gap behind it opens a pattern
      have hcolon : ¬ occursIn (memberPat key value) (':' :: g.colon)
          ((textWith E g j ++ membersWith E g false ms) ++ rest) := by
        refine not_occursIn_of_no_quote _ ?_
        rw [List.mem_cons, not_or]
        exact ⟨by decide, g.colon_no_quote⟩
      rw [membersWith, membersHave, occursIn_append, occursIn_append, hname,
        or_iff_right (not_occursIn_separator g first _), ← List.cons_append,
        occursIn_append, or_iff_right hcolon, occursIn_append,
        occursIn_textWith hne hkey hvalue j _ hstop,
        occursIn_membersWith hne hkey hvalue false ms rest hrest,
        Bool.or_eq_true, Bool.or_eq_true, or_assoc]
end

/-- **WRONG STYLE**: a value that never follows a colon and its gap is found in
    no document. -/
theorem not_occursIn_textWith (hne : key ≠ [])
    (hkey : ∀ c ∈ key, isPlain c = true)
    (hvalue : ∀ j rest, ¬ value <+: g.colon ++ (textWith E g j ++ rest))
    (j : Json) {rest : List Char} (hrest : Stops rest) :
    ¬ occursIn (memberPat key value) (textWith E g j) rest := by
  rw [occursIn_textWith E g hne hkey
    (fun j rest _ => iff_of_false (hvalue j rest) Bool.false_ne_true)
    j rest hrest]
  have hnone : memberTest key (fun _ => false) = fun _ _ => false :=
    funext (fun _ => funext (fun _ => Bool.and_false _))
  rw [hnone, hasMember_never]
  exact Bool.false_ne_true

/-- The text of a document begins with no blank. -/
theorem not_blank_prefix_textWith (v : List Char) (j : Json)
    (rest : List Char) : ¬ (' ' :: v) <+: textWith E g j ++ rest := by
  cases j with
  | null =>
      rw [textWith]
      simp
  | bool b => cases b <;> (rw [textWith]; simp)
  | num n =>
      rw [textWith]
      intro h
      obtain ⟨digits, hne, hlex⟩ := n
      cases digits with
      | nil => exact absurd rfl hne
      | cons c cs =>
          rw [List.cons_append, List.cons_prefix_cons] at h
          have hc := hlex c List.mem_cons_self
          rw [← h.1] at hc
          exact absurd hc (by decide)
  | str s =>
      rw [textWith, strTok]
      simp
  | arr elems =>
      rw [textWith]
      simp
  | obj members =>
      rw [textWith]
      simp

/-- The search in compact text. -/
theorem occursIn_text (hne : key ≠ []) (hkey : ∀ c ∈ key, isPlain c = true)
    (hvalue : ∀ j rest, Stops rest →
      (value <+: text E j ++ rest ↔ is j = true))
    (j : Json) (rest : List Char) (hrest : Stops rest) :
    occursIn (memberPat key value) (text E j) rest
      ↔ hasMember (memberTest key is) j = true := by
  rw [← textWith_compact]
  refine occursIn_textWith E .compact hne hkey ?_ j rest hrest
  intro j rest hrest
  rw [textWith_compact]
  exact hvalue j rest hrest

end Search

/-! ## The plain serializer -/

/-- Two hexadecimal digits. -/
def hex2 (n : Nat) : List Char :=
  [Nat.digitChar (n / 16), Nat.digitChar (n % 16)]

/-- Quotes, backslashes and control characters are escaped, nothing else. -/
def plainEsc (c : Char) : List Char :=
  if c = '"' then ['\\', '"']
  else if c = '\\' then ['\\', '\\']
  else if c.toNat < 32 then '\\' :: 'u' :: '0' :: '0' :: hex2 c.toNat
  else [c]

/-- An escape's digits have no quote among them. -/
theorem hex2_no_quote {n : Nat} (h : n < 32) : '"' ∉ hex2 n := by
  have hall : ∀ k : Fin 32, '"' ∉ hex2 k.val := by decide
  exact hall ⟨n, h⟩

theorem plain_toNat {c : Char} (h : isPlain c = true) : 32 ≤ c.toNat := by
  by_contra hlt
  have hall : ∀ k : Fin 32, isPlain (Char.ofNat k.val) = false := by decide
  have := hall ⟨c.toNat, by omega⟩
  rw [Char.ofNat_toNat, h] at this
  exact absurd this (by decide)

/-- The serializer that escapes no more than it has to. -/
def plainEscaping : Escaping where
  esc := plainEsc
  quote := rfl
  hides := by
    intro c hc
    rw [plainEsc]
    rw [if_neg hc]
    split
    · decide
    · split
      · rename_i h
        have := hex2_no_quote h
        simp only [List.mem_cons, not_or]
        exact ⟨by decide, by decide, by decide, by decide, this⟩
      · simp [Ne.symm hc]
  shape := by
    intro c
    rw [plainEsc]
    split
    · exact Or.inr ⟨_, rfl⟩
    · split
      · exact Or.inr ⟨_, rfl⟩
      · split
        · exact Or.inr ⟨_, rfl⟩
        · exact Or.inl rfl
  plain := by
    intro c hc
    have := plain_toNat hc
    rw [plainEsc]
    rw [if_neg (isPlain_ne_quote hc), if_neg (isPlain_ne_backslash hc),
      if_neg (by omega)]

end JsonText
