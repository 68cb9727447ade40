import InstallLinux.ShellTextProofs
import Mathlib.Logic.Function.Basic

/-! # Quoted text — what a shell prints of an array, and reads back

    `declare -p` prints an associative array as the command that makes it:
    `declare -A name=([key]="value" )`, each value in double quotes with a
    backslash in front of the four characters that stay special there.  A value
    with a character the locale cannot print stands in dollar quotes instead,
    where such a character is a letter or three octal digits behind a
    backslash.  The shell reads such a line with `source`.

    * `readQuoted_escape`: a text comes back from its double quotes, whatever
      it holds, and so does what stands behind them;
    * `readDollar_print`: so does one from its dollar quotes, if what cannot be
      printed in it is ASCII;
    * `readArray_printArray`: an array comes back entry by entry;
    * `foldl_entries`: an array has no order, and where every entry changes the
      place of its key only, none is needed. -/

namespace ShellQuote

open ShellText

/-! ## Double quotes -/

/-- The backtick. -/
def backtick : Char := Char.ofNat 96

/-- The characters that are special inside double quotes. -/
def isActive (c : Char) : Bool :=
  c == '"' || c == '\\' || c == '$' || c == backtick

def escape (t : Text) : Text :=
  t.flatMap (fun c => if isActive c then ['\\', c] else [c])

def quote (t : Text) : Text := '"' :: (escape t ++ ['"'])

/-- Behind the opening quote, or behind a backslash there: the text up to the
    closing quote, and what follows; nothing when it is not closed or holds an
    expansion. -/
def readFrom : Bool → Text → Option (Text × Text)
  | _, [] => none
  | true, c :: rest =>
      -- in front of other characters the backslash stays
      (readFrom false rest).map (fun p =>
        ((if isActive c then [c] else if c = '\n' then [] else ['\\', c])
          ++ p.1, p.2))
  | false, c :: rest =>
      if c = '"' then some ([], rest)
      else if c = '\\' then readFrom true rest
      else if isActive c then none
      else (readFrom false rest).map (fun p => (c :: p.1, p.2))

def readQuoted (t : Text) : Option (Text × Text) := readFrom false t

theorem escape_cons (c : Char) (t : Text) :
    escape (c :: t) = (if isActive c then ['\\', c] else [c]) ++ escape t :=
  rfl

/-- **QUOTES**: a text comes back from them. -/
theorem readQuoted_escape (t rest : Text) :
    readQuoted (escape t ++ '"' :: rest) = some (t, rest) := by
  induction t with
  | nil => rfl
  | cons c cs ih =>
      rw [readQuoted] at ih
      rw [readQuoted, escape_cons, List.append_assoc]
      by_cases hc : isActive c = true
      · rw [if_pos hc]
        show readFrom true (c :: (escape cs ++ '"' :: rest)) = _
        rw [readFrom, ih, if_pos hc]
        rfl
      · have hquote : c ≠ '"' := fun h => hc (h ▸ rfl)
        have hbackslash : c ≠ '\\' := fun h => hc (h ▸ rfl)
        rw [if_neg hc]
        show readFrom false (c :: (escape cs ++ '"' :: rest)) = _
        rw [readFrom, if_neg hquote, if_neg hbackslash, if_neg hc, ih]
        rfl

/-! ## Dollar quotes -/

/-- What the shell prints as it is. -/
structure CharLocale where
  printable : Char → Bool
  ascii : ∀ c, c.toNat < 128 →
    (printable c = true ↔ 32 ≤ c.toNat ∧ c.toNat < 127)

def apostrophe : Char := Char.ofNat 39

/-- The characters with a letter of their own behind the backslash. -/
def letters : List (Nat × Char) :=
  [(7, 'a'), (8, 'b'), (9, 't'), (10, 'n'), (11, 'v'), (12, 'f'), (13, 'r'),
    (27, 'E'), (39, apostrophe), (92, '\\')]

def octalDigit (n : Nat) : Char := Char.ofNat (48 + n % 8)

/-- A byte behind a backslash. -/
def octal (byte : Nat) : Text :=
  ['\\', octalDigit (byte / 64), octalDigit (byte / 8), octalDigit byte]

/-- A character between dollar quotes. -/
def dollarChar (locale : CharLocale) (c : Char) : Text :=
  match letters.find? (fun e => e.1 = c.toNat) with
  | some e => ['\\', e.2]
  | none =>
      if locale.printable c then [c]
      else (String.utf8EncodeChar c).flatMap (fun byte => octal byte.toNat)

def dollarQuote (locale : CharLocale) (t : Text) : Text :=
  '$' :: apostrophe :: (t.flatMap (dollarChar locale) ++ [apostrophe])

/-- A value as `declare -p` prints it. -/
def printValue (locale : CharLocale) (t : Text) : Text :=
  if t.all locale.printable then quote t else dollarQuote locale t

def octalValue (c : Char) : Option Nat :=
  if 48 ≤ c.toNat ∧ c.toNat < 56 then some (c.toNat - 48) else none

def readOctal : Text → Option (Nat × Text)
  | a :: b :: d :: rest =>
      match octalValue a, octalValue b, octalValue d with
      | some a, some b, some d => some (a * 64 + b * 8 + d, rest)
      | _, _, _ => none
  | _ => none

def readLetter : Text → Option (Char × Text)
  | [] => none
  | l :: rest =>
      (letters.find? (fun e => e.2 = l)).map (fun e => (Char.ofNat e.1, rest))

/-- One character between dollar quotes, and what stands behind it; nothing for
    a byte that is only a part of one. -/
def readChar (c : Char) (rest : Text) : Option (Char × Text) :=
  if c = '\\' then
    match readOctal rest with
    | some (byte, later) =>
        if byte < 128 then some (Char.ofNat byte, later) else none
    | none => readLetter rest
  else some (c, rest)

/-- The text up to the closing quote; `fuel` bounds its length. -/
def readDollar : Nat → Text → Option (Text × Text)
  | 0, _ => none
  | _ + 1, [] => none
  | fuel + 1, c :: rest =>
      if c = apostrophe then some ([], rest)
      else
        match readChar c rest with
        | none => none
        | some (d, later) =>
            (readDollar fuel later).map (fun p => (d :: p.1, p.2))

/-- A value in either kind of quotes. -/
def readValue : Text → Option (Text × Text)
  | '"' :: rest => readQuoted rest
  | '$' :: c :: rest =>
      if c = apostrophe then readDollar rest.length rest else none
  | _ => none

/-- What cannot be printed is ASCII. -/
def Legible (locale : CharLocale) (t : Text) : Prop :=
  ∀ c ∈ t, locale.printable c = true ∨ c.toNat < 128

theorem octalValue_octalDigit (n : Nat) :
    octalValue (octalDigit n) = some (n % 8) := by
  have hall : ∀ k : Fin 8, octalValue (octalDigit k) = some k.val := by decide
  have hlast := hall ⟨n % 8, Nat.mod_lt n (by decide)⟩
  rwa [octalDigit, Nat.mod_mod] at hlast

/-- Three digits are the byte they were made of. -/
theorem readOctal_octal {byte : Nat} (h : byte < 512) (rest : Text) :
    readOctal (octalDigit (byte / 64) :: octalDigit (byte / 8)
      :: octalDigit byte :: rest) = some (byte, rest) := by
  simp only [readOctal, octalValue_octalDigit, Option.some.injEq,
    Prod.mk.injEq, and_true]
  omega

/-- No letter is a digit, and each is that of one character. -/
theorem letters_spec : ∀ e ∈ letters, octalValue e.2 = none
    ∧ letters.find? (fun e' => e'.2 = e.2) = some e := by decide

/-- A letter is no octal digit. -/
theorem readOctal_letter {l : Char} (h : octalValue l = none) (rest : Text) :
    readOctal (l :: rest) = none := by
  rcases rest with _ | ⟨b, _ | ⟨d, rest⟩⟩
  · rfl
  · rfl
  · rw [readOctal, h]

/-- An ASCII character is one byte. -/
theorem utf8EncodeChar_ascii {c : Char} (h : c.toNat < 128) :
    ∃ byte : UInt8, String.utf8EncodeChar c = [byte] ∧ byte.toNat = c.toNat := by
  have hval : c.val.toNat < 128 := h
  refine ⟨c.val.toUInt8, ?_, ?_⟩
  · rw [String.utf8EncodeChar]
    exact if_pos (by omega)
  · rw [UInt32.toNat_toUInt8]
    exact Nat.mod_eq_of_lt (by omega)

/-- **ONE CHARACTER** comes back, and is no closing quote. -/
theorem readChar_dollarChar (locale : CharLocale) {c : Char}
    (h : locale.printable c = true ∨ c.toNat < 128) (rest : Text) :
    ∃ d ds, dollarChar locale c = d :: ds ∧ d ≠ apostrophe
      ∧ readChar d (ds ++ rest) = some (c, rest) := by
  have hslash : '\\' ≠ apostrophe := by decide
  rw [dollarChar]
  cases hletter : letters.find? (fun e => e.1 = c.toNat) with
  | some e =>
      have hmem := List.mem_of_find?_eq_some hletter
      have hcode : e.1 = c.toNat :=
        by simpa using List.find?_some hletter
      obtain ⟨hdigit, hfind⟩ := letters_spec e hmem
      refine ⟨'\\', [e.2], rfl, hslash, ?_⟩
      show readChar '\\' (e.2 :: rest) = _
      rw [readChar, if_pos rfl, readOctal_letter hdigit]
      simp only [readLetter, hfind, Option.map_some, hcode, Char.ofNat_toNat]
  | none =>
      have hother : ∀ e ∈ letters, e.1 ≠ c.toNat := by
        intro e he
        simpa using List.find?_eq_none.mp hletter e he
      by_cases hprint : locale.printable c = true
      · have hplain : c ≠ '\\' ∧ c ≠ apostrophe := by
          constructor
          · rintro rfl
            exact hother (92, '\\') (by decide) rfl
          · rintro rfl
            exact hother (39, apostrophe) (by decide) rfl
        rw [if_pos hprint]
        refine ⟨c, [], rfl, hplain.2, ?_⟩
        rw [readChar, if_neg hplain.1]
        rfl
      · have hascii := h.resolve_left hprint
        obtain ⟨byte, hbytes, hbyte⟩ := utf8EncodeChar_ascii hascii
        rw [if_neg hprint, hbytes, List.flatMap_singleton, hbyte]
        refine ⟨'\\', _, rfl, hslash, ?_⟩
        show readChar '\\' (octalDigit (c.toNat / 64)
          :: octalDigit (c.toNat / 8) :: octalDigit c.toNat :: rest) = _
        rw [readChar, if_pos rfl, readOctal_octal (by omega)]
        simp only [if_pos hascii, Char.ofNat_toNat]

/-- **DOLLAR QUOTES**: a text comes back from them. -/
theorem readDollar_print (locale : CharLocale) {t : Text} (h : Legible locale t)
    (rest : Text) :
    ∀ fuel, t.length < fuel →
      readDollar fuel (t.flatMap (dollarChar locale) ++ apostrophe :: rest)
        = some (t, rest) := by
  induction t with
  | nil =>
      intro fuel hfuel
      obtain ⟨k, rfl⟩ := Nat.exists_eq_add_of_lt hfuel
      show readDollar (k + 1) (apostrophe :: rest) = _
      rw [readDollar, if_pos rfl]
  | cons c cs ih =>
      intro fuel hfuel
      obtain ⟨hc, hcs⟩ := List.forall_mem_cons.mp h
      obtain ⟨k, rfl⟩ : ∃ k, fuel = k + 1 := ⟨fuel - 1, by omega⟩
      rw [List.length_cons] at hfuel
      obtain ⟨d, ds, hfirst, hne, hread⟩ := readChar_dollarChar locale hc
        (cs.flatMap (dollarChar locale) ++ apostrophe :: rest)
      rw [List.flatMap_cons, List.append_assoc, hfirst, List.cons_append,
        readDollar, if_neg hne, hread]
      simp only [ih hcs k (by omega), Option.map_some]

/-- No character is printed as nothing. -/
theorem length_le_dollar (locale : CharLocale) (t : Text) :
    t.length ≤ (t.flatMap (dollarChar locale)).length := by
  induction t with
  | nil => exact Nat.le_refl _
  | cons c cs ih =>
      have hpos : 0 < (dollarChar locale c).length := by
        rw [dollarChar]
        split
        · exact Nat.succ_pos _
        · split
          · exact Nat.succ_pos _
          · obtain ⟨byte, bytes, hbytes⟩ := List.exists_cons_of_ne_nil
              (String.utf8EncodeChar_ne_nil (c := c))
            rw [hbytes]
            exact Nat.succ_pos _
      rw [List.flatMap_cons, List.length_append, List.length_cons]
      omega

/-- **A VALUE** comes back from the quotes it is printed in. -/
theorem readValue_printValue (locale : CharLocale) {t : Text}
    (h : Legible locale t) (rest : Text) :
    readValue (printValue locale t ++ rest) = some (t, rest) := by
  rw [printValue]
  split
  · show readValue ('"' :: (escape t ++ ['"'] ++ rest)) = _
    rw [List.append_assoc]
    exact readQuoted_escape t rest
  · have hlength := length_le_dollar locale t
    have htext : dollarQuote locale t ++ rest = '$' :: apostrophe
        :: (t.flatMap (dollarChar locale) ++ apostrophe :: rest) := by
      simp [dollarQuote]
    rw [htext, readValue, if_pos rfl]
    refine readDollar_print locale h rest _ ?_
    rw [List.length_append, List.length_cons]
    omega

/-! ## Associative arrays -/

/-- The entries of an array; no two have one key. -/
abbrev Entries := List (Text × Text)

/-- `array[key]=value`. -/
def assign (array : Entries) (key value : Text) : Entries :=
  array.filter (fun e => e.1 ≠ key) ++ [(key, value)]

/-- `[key]="value" `, for a key that needs no quotes. -/
def printEntry (locale : CharLocale) (e : Text × Text) : Text :=
  '[' :: (e.1 ++ ']' :: '=' :: (printValue locale e.2 ++ [' ']))

def declared (name : Text) : Text := "declare -A ".toList ++ name

/-- The line `declare -p` prints. -/
def printArray (locale : CharLocale) (name : Text) (entries : Entries) : Text :=
  declared name
    ++ ((if entries = [] then []
      else '=' :: '(' :: (entries.flatMap (printEntry locale) ++ [')']))
        ++ ['\n'])

/-- The entries up to the closing parenthesis; `fuel` bounds their number. -/
def readEntries : Nat → Text → Option (Entries × Text)
  | 0, _ => none
  | fuel + 1, text =>
      match text with
      | ')' :: rest => some ([], rest)
      | '[' :: rest =>
          match rest.dropWhile (· != ']') with
          | ']' :: '=' :: quoted =>
              match readValue quoted with
              | some (value, ' ' :: later) =>
                  (readEntries fuel later).map (fun p =>
                    ((rest.takeWhile (· != ']'), value) :: p.1, p.2))
              | _ => none
          | _ => none
      | _ => none

/-- The array a file makes, when it is one line of `declare -p`. -/
def readArray (name text : Text) : Option Entries :=
  if declared name <+: text then
    match text.drop (declared name).length with
    | ['\n'] => some []
    | '=' :: '(' :: rest =>
        match readEntries text.length rest with
        | some (entries, ['\n']) => some entries
        | _ => none
    | _ => none
  else none

/-- A key that needs no quotes: a number, say. -/
def IsKey (key : Text) : Prop := key ≠ [] ∧ ∀ c ∈ key, c.isAlphanum = true

theorem IsKey.not_bracket {key : Text} (h : IsKey key) :
    ∀ c ∈ key, (c != ']') = true := by
  intro c hc
  rw [bne_iff_ne]
  rintro rfl
  exact absurd (h.2 ']' hc) (by decide)

/-- An entry that comes back. -/
def IsEntry (locale : CharLocale) (e : Text × Text) : Prop :=
  IsKey e.1 ∧ Legible locale e.2

/-- One entry, and what stands behind it. -/
theorem readEntries_entry {locale : CharLocale} {e : Text × Text}
    (he : IsEntry locale e) (fuel : Nat) (rest : Text) :
    readEntries (fuel + 1) (printEntry locale e ++ rest)
      = (readEntries fuel rest).map (fun p => (e :: p.1, p.2)) := by
  obtain ⟨key, value⟩ := e
  obtain ⟨hkey, hvalue⟩ := he
  have htext : printEntry locale (key, value) ++ rest
      = '[' :: (key ++ ']' :: '='
        :: (printValue locale value ++ ' ' :: rest)) := by
    simp [printEntry]
  have hdrop : (key ++ ']' :: '='
        :: (printValue locale value ++ ' ' :: rest)).dropWhile (· != ']')
      = ']' :: '=' :: (printValue locale value ++ ' ' :: rest) := by
    rw [List.dropWhile_append_of_pos hkey.not_bracket]
    rfl
  have htake : (key ++ ']' :: '='
        :: (printValue locale value ++ ' ' :: rest)).takeWhile (· != ']')
      = key := by
    rw [List.takeWhile_append_of_pos hkey.not_bracket]
    exact List.append_nil key
  rw [htext, readEntries]
  simp only [hdrop, htake, readValue_printValue locale hvalue]

/-- The entries are read one behind the other. -/
theorem readEntries_print {locale : CharLocale} {entries : Entries}
    (h : ∀ e ∈ entries, IsEntry locale e) (rest : Text) :
    ∀ fuel, entries.length < fuel →
      readEntries fuel (entries.flatMap (printEntry locale) ++ ')' :: rest)
        = some (entries, rest) := by
  induction entries with
  | nil =>
      intro fuel hfuel
      obtain ⟨k, rfl⟩ := Nat.exists_eq_add_of_lt hfuel
      rfl
  | cons e later ih =>
      intro fuel hfuel
      rw [List.forall_mem_cons] at h
      obtain ⟨k, rfl⟩ : ∃ k, fuel = k + 1 := ⟨fuel - 1, by omega⟩
      rw [List.length_cons] at hfuel
      rw [List.flatMap_cons, List.append_assoc, readEntries_entry h.1,
        ih h.2 k (by omega)]
      rfl

theorem length_le_flatMap (locale : CharLocale) (entries : Entries) :
    entries.length ≤ (entries.flatMap (printEntry locale)).length := by
  induction entries with
  | nil => exact Nat.le_refl _
  | cons e rest ih =>
      rw [List.flatMap_cons, List.length_append, List.length_cons]
      have hpos : 0 < (printEntry locale e).length := Nat.succ_pos _
      omega

/-- **AN ARRAY**: it comes back from its line. -/
theorem readArray_printArray (locale : CharLocale) (name : Text)
    {entries : Entries} (h : ∀ e ∈ entries, IsEntry locale e) :
    readArray name (printArray locale name entries) = some entries := by
  rw [readArray, printArray, if_pos (List.prefix_append _ _),
    List.drop_left]
  by_cases hnil : entries = []
  · subst hnil
    rfl
  · rw [if_neg hnil, List.cons_append, List.cons_append, List.append_assoc]
    have hread := readEntries_print h ['\n']
      (declared name ++ '=' :: '(' :: (entries.flatMap (printEntry locale)
        ++ ([')'] ++ ['\n']))).length (by
          have hentries := length_le_flatMap locale entries
          simp only [List.length_append, List.length_cons]
          omega)
    show (match readEntries _
        (entries.flatMap (printEntry locale) ++ ')' :: ['\n']) with
      | some (entries, ['\n']) => some entries
      | _ => none) = _
    rw [hread]
    rfl

/-! ## No order -/

theorem assign_new {array : Entries} {key : Text}
    (h : key ∉ array.map Prod.fst) (value : Text) :
    assign array key value = array ++ [(key, value)] := by
  rw [assign, List.filter_eq_self.mpr]
  intro e he
  rw [decide_eq_true_iff]
  rintro rfl
  exact h (List.mem_map_of_mem he)

/-- Keys that are all new are entered one behind the other. -/
theorem foldl_assign {keys : List Text} (hkeys : keys.Nodup)
    (value : Text → Text) {array : Entries}
    (hnew : ∀ k ∈ keys, k ∉ array.map Prod.fst) :
    keys.foldl (fun a k => assign a k (value k)) array
      = array ++ keys.map (fun k => (k, value k)) := by
  induction keys generalizing array with
  | nil => exact (List.append_nil array).symm
  | cons k rest ih =>
      rw [List.forall_mem_cons] at hnew
      obtain ⟨hk, hrest⟩ := List.nodup_cons.mp hkeys
      rw [List.foldl_cons, assign_new hnew.1, ih hrest, List.append_assoc]
      · rfl
      · intro k' hk'
        rw [List.map_append, List.mem_append, not_or]
        refine ⟨hnew.2 k' hk', fun h => hk ?_⟩
        have hsame : k' = k := List.mem_singleton.mp h
        exact hsame ▸ hk'

/-- **ANY ORDER**: where each entry changes the place of its own key only, and
    no two have one key, every place gets what its own entry makes of it. -/
theorem foldl_entries {V : Type} (turn : Text × Text → V → V)
    {entries : Entries} (hkeys : (entries.map Prod.fst).Nodup)
    (s : Text → V) :
    (∀ e ∈ entries,
      entries.foldl (fun s e => Function.update s e.1 (turn e (s e.1))) s e.1
        = turn e (s e.1))
      ∧ ∀ k, k ∉ entries.map Prod.fst →
        entries.foldl (fun s e => Function.update s e.1 (turn e (s e.1))) s k
          = s k := by
  induction entries generalizing s with
  | nil => exact ⟨(fun _ he => nomatch he), fun _ _ => rfl⟩
  | cons e rest ih =>
      obtain ⟨hnew, hrest⟩ := List.nodup_cons.mp hkeys
      obtain ⟨hown, hother⟩ :=
        ih hrest (Function.update s e.1 (turn e (s e.1)))
      constructor
      · intro e' he'
        rcases List.mem_cons.mp he' with rfl | he'
        · rw [List.foldl_cons, hother _ hnew, Function.update_self]
        · have hne : e'.1 ≠ e.1 := fun h => hnew (h ▸ List.mem_map_of_mem he')
          rw [List.foldl_cons, hown e' he', Function.update_of_ne hne]
      · intro k hk
        rw [List.map_cons, List.mem_cons, not_or] at hk
        rw [List.foldl_cons, hother k hk.2, Function.update_of_ne hk.1]

end ShellQuote
