import InstallLinux.ShellSedProofs
import Mathlib.Data.String.Lemmas

/-! # The order number — one column short

    `_hostdata` cuts the two DMI fields out of their report lines at a fixed
    column, 15 for both, but `Serial Number: ` is one letter longer than
    `Product Name: `.  The blank that stays in front of the serial is lost where
    the text is split into words, as in `_hostfix`; `_orderid` counts six
    characters from it.

    * `hostdata_serial`, `hostdata_motherboard`: what the cut leaves;
    * `orderid_host`, `orderid_serial`: the two branches on one label;
    * `orderid_sources`: they never agree. -/

namespace SetupOrderId

open ShellText ShellSed

/-! ## The pattern -/

/-- `[Pp]uget-` at the start of a text. -/
def atPuget (t : Text) : Bool :=
  "Puget-".toList.isPrefixOf t || "puget-".toList.isPrefixOf t

/-- `grep -q '[Pp]uget-'` on one line. -/
def hasPuget (t : Text) : Bool :=
  t.tails.any atPuget

/-- `${x/pat/}` for this pattern: the leftmost match is cut out. -/
def deletePuget : Text → Text
  | [] => []
  | c :: cs =>
      if atPuget (c :: cs) then (c :: cs).drop 6 else c :: deletePuget cs

/-! ## The source functions -/

/-- What a machine says about itself. -/
structure Machine where
  /-- what `hostname` prints -/
  hostname : Text
  /-- the lines of `/etc/hostname` -/
  etcHostname : List Text
  /-- the report of `dmidecode -t 1` -/
  dmiSystem : List Text
  /-- the report of `dmidecode -t 2` -/
  dmiBoard : List Text

/-- `grep -i` for a fixed string. -/
def grepLines (pat : Text) (lines : List Text) : List Text :=
  lines.filter
    (fun l => decide (pat.map Char.toLower <:+: l.map Char.toLower))

/-- `x=$(... | grep -i pat) && x=${x:15}`; without a line nothing is cut, and
    nothing is there to cut. -/
def dmiField (pat : Text) (report : List Text) : Text :=
  (capture (grepLines pat report)).drop 15

/-- The variables `_hostdata` sets. -/
structure HostData where
  host : Text
  serial : Text
  dmiid : Text
  dmilength : Nat
  motherboard : Text

def hostdata (m : Machine) : HostData :=
  let serial := dmiField "Serial Number: ".toList m.dmiSystem
  let dmiid := (serial.drop 6).take 6
  { host := capture [m.hostname]
    serial := serial
    dmiid := dmiid
    dmilength := dmiid.length
    motherboard := dmiField "Product Name: ".toList m.dmiBoard }

/-- `_orderid`: the order number, and the file `flags/orderid` after the call;
    `answer` is what `read` takes from the prompt. -/
def orderid (m : Machine) (flag : Option (List Text)) (answer : Text) :
    Text × Option (List Text) :=
  match flag with
  | some lines => (capture lines, some lines)
  | none =>
      let d := hostdata m
      if m.etcHostname.any hasPuget then ((deletePuget d.host).take 6, none)
      else if (splitWords d.serial).any hasPuget then
        ((deletePuget d.serial).take 6, none)
      else (answer, some [echoed answer])

/-- `$serial` in `_hostfix`, lower-cased. -/
def hostSerial (m : Machine) : Text :=
  (dmiField "Serial Number: ".toList m.dmiSystem).map Char.toLower

/-- What `hostnamectl set-hostname $serial` is given, `glob` being the pathname
    expansion of a word. -/
def hostnameArgs (glob : Text → List Text) (m : Machine) : List Text :=
  (splitWords (hostSerial m)).flatMap glob

/-- `hostnamectl set-hostname`, which takes exactly one name. -/
def setHostname (args : List Text) (m : Machine) : Machine :=
  match args with
  | [name] => { m with hostname := name, etcHostname := [name] }
  | _ => m

/-- The replacement of the second line of `/etc/hosts`. -/
def hostsLine (serial : Text) : Text := "127.0.0.1\t".toList ++ serial

/-- `_hostfix`: the machine with its new name, and the lines of `/etc/hosts`;
    `other` is what `sed` does where the serial makes another script. -/
def hostfix (glob : Text → List Text) (other : Text → List Text → List Text)
    (m : Machine) (hosts : List Text) : Machine × List Text :=
  let line := hostsLine (hostSerial m)
  (setHostname (hostnameArgs glob m) m, sedLine (other line) 1 line hosts)

/-! ## Labels and reports -/

/-- An order number. -/
structure OrderNumber where
  digits : Text
  six : digits.length = 6
  isDigit : digits.all Char.isDigit = true

/-- The label of a machine: the order number, and what follows it. -/
def label (upper : Bool) (n : OrderNumber) (suffix : Text) : Text :=
  (if upper then 'P' else 'p') :: ("uget-".toList ++ (n.digits ++ suffix))

/-- The report has one line with the field, indented by a tab. -/
def Reports (report : List Text) (field value : Text) : Prop :=
  grepLines field report = ['\t' :: (field ++ value)]

instance (report : List Text) (field value : Text) :
    Decidable (Reports report field value) :=
  inferInstanceAs (Decidable (_ = _))

theorem atPuget_label (upper : Bool) (n : OrderNumber) (suffix : Text) :
    atPuget (label upper n suffix) = true := by
  rw [atPuget, Bool.or_eq_true, List.isPrefixOf_iff_prefix,
    List.isPrefixOf_iff_prefix]
  cases upper with
  | true => exact Or.inl ⟨n.digits ++ suffix, rfl⟩
  | false => exact Or.inr ⟨n.digits ++ suffix, rfl⟩

theorem hasPuget_label (upper : Bool) (n : OrderNumber) (suffix : Text) :
    hasPuget (label upper n suffix) = true :=
  List.any_eq_true.mpr
    ⟨_, List.mem_tails _ _ |>.mpr List.suffix_rfl,
      atPuget_label upper n suffix⟩

/-- Cutting the pattern out of a label leaves the number in front. -/
theorem deletePuget_label (upper : Bool) (n : OrderNumber) (suffix : Text) :
    deletePuget (label upper n suffix) = n.digits ++ suffix := by
  have hat := atPuget_label upper n suffix
  rw [label] at hat ⊢
  rw [deletePuget, if_pos hat]
  rfl

/-- Text in front of the suffix is kept when a line is captured. -/
theorem capture_label (front : Text) (upper : Bool) (n : OrderNumber)
    (suffix : Text) :
    capture [front ++ label upper n suffix]
      = front ++ label upper n (capture [suffix]) := by
  -- what is in front of the suffix ends in a digit, which is no newline
  have hne : n.digits ≠ [] := by
    intro h
    have hsix := n.six
    rw [h] at hsix
    exact nomatch hsix
  obtain ⟨init, c, hdigits⟩ := (List.eq_nil_or_concat' n.digits).resolve_left hne
  have hc : c ≠ '\n' := by
    rintro rfl
    have hdigit := List.all_eq_true.mp n.isDigit '\n' (by simp [hdigits])
    exact absurd hdigit (by decide)
  have hsplit : ∀ rest : Text, front ++ label upper n rest
      = (front ++ (if upper then 'P' else 'p') :: ("uget-".toList ++ init))
        ++ c :: rest := by
    intro rest
    rw [label, hdigits]
    simp
  rw [hsplit, hsplit, capture_append hc]

/-- What stays of the serial: the blank behind the colon, and the value. -/
theorem hostdata_serial {m : Machine} {upper : Bool} {n : OrderNumber}
    {suffix : Text}
    (h : Reports m.dmiSystem "Serial Number: ".toList (label upper n suffix)) :
    (hostdata m).serial = ' ' :: label upper n (capture [suffix]) := by
  show dmiField "Serial Number: ".toList m.dmiSystem = _
  rw [dmiField, h, ← List.cons_append, capture_label]
  rfl

/-- The cut fits the board's name. -/
theorem hostdata_motherboard {m : Machine} {board : Text}
    (h : Reports m.dmiBoard "Product Name: ".toList board) :
    (hostdata m).motherboard = capture [board] := by
  show dmiField "Product Name: ".toList m.dmiBoard = _
  have hsplit : '\t' :: ("Product Name: ".toList ++ board)
      = "\tProduct Name:".toList ++ ' ' :: board := rfl
  rw [dmiField, h, hsplit, capture_append (by decide)]
  rfl

/-- A label is a word up to the first blank of its suffix. -/
theorem isWord_label (upper : Bool) (n : OrderNumber) (suffix : Text) :
    IsWord (label upper n (suffix.takeWhile (fun c => !isBlank c))) := by
  refine ⟨by simp [label], ?_⟩
  intro c hc
  rw [label, List.mem_cons, List.mem_append, List.mem_append] at hc
  rcases hc with rfl | hc | hc | hc
  · cases upper <;> decide
  · have hplain : "uget-".toList.all (fun c => !isBlank c) = true := rfl
    simpa using List.all_eq_true.mp hplain c hc
  · exact isBlank_eq_false ⟨rfl, rfl, rfl⟩ (List.all_eq_true.mp n.isDigit c hc)
  · simpa using List.mem_takeWhile_imp hc

/-- It is the first word of its text, whatever follows it. -/
theorem splitWords_label (upper : Bool) (n : OrderNumber) (suffix : Text) :
    ∃ rest, splitWords (label upper n suffix)
      = label upper n (suffix.takeWhile (fun c => !isBlank c)) :: rest := by
  have hend : EndsWord (suffix.dropWhile (fun c => !isBlank c)) := by
    intro c hc
    have := List.head?_dropWhile_not (fun c => !isBlank c) suffix
    rw [hc] at this
    simpa using this
  refine ⟨splitWords (suffix.dropWhile (fun c => !isBlank c)), ?_⟩
  rw [← splitWords_word (isWord_label upper n suffix) hend]
  simp [label]

/-! ## The two branches -/

theorem take_number (n : OrderNumber) (rest : Text) :
    (n.digits ++ rest).take 6 = n.digits :=
  List.take_left' n.six

/-- **THE HOSTNAME BRANCH**: the order number of the label. -/
theorem orderid_host {m : Machine} {upper : Bool} {n : OrderNumber}
    {suffix : Text} (hname : m.hostname = label upper n suffix)
    (hetc : m.etcHostname = [label upper n suffix]) (answer : Text) :
    (orderid m none answer).1 = n.digits := by
  have hgrep : m.etcHostname.any hasPuget = true := by
    rw [hetc, List.any_cons, hasPuget_label, Bool.true_or]
  have hhost : (hostdata m).host = label upper n (capture [suffix]) := by
    show capture [m.hostname] = _
    rw [hname]
    exact capture_label [] upper n suffix
  show (if m.etcHostname.any hasPuget then _ else _ : Text × _).1 = _
  rw [if_pos hgrep, hhost, deletePuget_label, take_number]

/-- **THE SERIAL BRANCH**: a blank and the first five digits. -/
theorem orderid_serial {m : Machine} {upper : Bool} {n : OrderNumber}
    {suffix : Text}
    (hreport : Reports m.dmiSystem "Serial Number: ".toList
      (label upper n suffix))
    (hetc : m.etcHostname.any hasPuget = false) (answer : Text) :
    (orderid m none answer).1 = ' ' :: n.digits.take 5 := by
  have hserial := hostdata_serial hreport
  have hgrep : (splitWords (hostdata m).serial).any hasPuget = true := by
    obtain ⟨rest, hwords⟩ := splitWords_label upper n (capture [suffix])
    rw [hserial, splitWords_blank rfl, hwords, List.any_cons,
      hasPuget_label, Bool.true_or]
  have hblank : atPuget (' ' :: label upper n (capture [suffix])) = false := rfl
  have hcut : deletePuget (' ' :: label upper n (capture [suffix]))
      = ' ' :: (n.digits ++ capture [suffix]) := by
    rw [deletePuget, if_neg (by simp [hblank]), deletePuget_label]
  show (if m.etcHostname.any hasPuget then _
    else if (splitWords (hostdata m).serial).any hasPuget then _
    else _ : Text × _).1 = _
  rw [if_neg (by simp [hetc]), if_pos hgrep, hserial, hcut]
  show ' ' :: (n.digits ++ capture [suffix]).take 5 = _
  rw [List.take_append_of_le_length (by simp [n.six])]

/-- The order number is the same from both sources. -/
def SameOrder (n : OrderNumber) (byHost bySerial : Machine) (answer : Text) :
    Prop :=
  (orderid byHost none answer).1 = n.digits
    ∧ (orderid bySerial none answer).1 = n.digits

/-- **TWO SOURCES**: the hostname gives the order number of a label, the serial
    number gives a blank and five digits of it; so they never agree. -/
theorem orderid_sources (upper : Bool) (n : OrderNumber) (suffix : Text)
    (byHost bySerial : Machine) (answer : Text)
    (hname : byHost.hostname = label upper n suffix)
    (hetc : byHost.etcHostname = [label upper n suffix])
    (hreport : Reports bySerial.dmiSystem "Serial Number: ".toList
      (label upper n suffix))
    (hother : bySerial.etcHostname.any hasPuget = false) :
    (orderid byHost none answer).1 = n.digits
      ∧ (orderid bySerial none answer).1 = ' ' :: n.digits.take 5
      ∧ ¬ SameOrder n byHost bySerial answer := by
  have hserial := orderid_serial hreport hother answer
  refine ⟨orderid_host hname hetc answer, hserial, ?_⟩
  rintro ⟨-, hsame⟩
  -- a blank is no digit
  have hblank : ' ' ∈ n.digits := by
    rw [← hsame, hserial]
    exact List.mem_cons_self
  exact absurd (List.all_eq_true.mp n.isDigit ' ' hblank) (by decide)

theorem toLower_digit {c : Char} (hc : c.isDigit = true) : c.toLower = c := by
  rw [Char.isDigit, Bool.and_eq_true, decide_eq_true_eq,
    decide_eq_true_eq] at hc
  refine dif_neg ?_
  rintro ⟨hle, -⟩
  -- the digits end at 57, the capital letters begin at 65
  have h9 : c.val.toNat ≤ 57 := UInt32.le_iff_toNat_le.mp hc.2
  have hA : 65 ≤ c.val.toNat := UInt32.le_iff_toNat_le.mp hle
  omega

theorem map_toLower_label (upper : Bool) (n : OrderNumber) (suffix : Text) :
    (label upper n suffix).map Char.toLower
      = label false n (suffix.map Char.toLower) := by
  have hdigits : n.digits.map Char.toLower = n.digits := by
    rw [List.map_congr_left
      (fun c hc => toLower_digit (List.all_eq_true.mp n.isDigit c hc))]
    exact List.map_id' _
  rw [label, label, List.map_cons, List.map_append, List.map_append, hdigits]
  cases upper <;> rfl

/-- **AFTER THE RENAMING**: the blank is lost where `_hostfix` splits the
    serial into words, and the hostname branch reads the number of the label
    off the new name. -/
theorem orderid_hostfix {m : Machine} {upper : Bool} {n : OrderNumber}
    {suffix : Text}
    (hreport : Reports m.dmiSystem "Serial Number: ".toList
      (label upper n suffix))
    (hsuffix : ∀ c ∈ suffix.map Char.toLower, isBlank c = false)
    {glob : Text → List Text} (hglob : ∀ w, glob w = [w])
    (other : Text → List Text → List Text) (hosts : List Text)
    (answer : Text) :
    (orderid (hostfix glob other m hosts).1 none answer).1 = n.digits := by
  have hserial : dmiField "Serial Number: ".toList m.dmiSystem
      = ' ' :: label upper n (capture [suffix]) := hostdata_serial hreport
  have hline : capture [suffix] = suffix := by
    refine capture_line ?_
    intro hmem
    have hblank := hsuffix _ (List.mem_map_of_mem hmem)
    exact absurd hblank (by decide)
  have hwords : splitWords (hostSerial m)
      = [label false n (suffix.map Char.toLower)] := by
    have hone : (suffix.map Char.toLower).takeWhile (fun c => !isBlank c)
        = suffix.map Char.toLower := by
      refine List.takeWhile_eq_self_iff.mpr ?_
      intro c hc
      rw [hsuffix c hc]
      rfl
    have hword := isWord_label false n (suffix.map Char.toLower)
    rw [hone] at hword
    rw [hostSerial, hserial, hline, List.map_cons, map_toLower_label]
    show splitWords (' ' :: label false n (suffix.map Char.toLower)) = _
    rw [splitWords_blank rfl, splitWords_of_no_blank hword.2, if_neg hword.1]
  have hnamed : (hostfix glob other m hosts).1
      = { m with
          hostname := label false n (suffix.map Char.toLower)
          etcHostname := [label false n (suffix.map Char.toLower)] } := by
    show setHostname (hostnameArgs glob m) m = _
    rw [hostnameArgs, hwords, List.flatMap_singleton, hglob]
    rfl
  rw [hnamed]
  exact orderid_host rfl rfl answer

/-! ### Order 123456 -/

def order123456 : OrderNumber := ⟨"123456".toList, rfl, rfl⟩

/-- The machine after `_hostfix`, or one that still has its installer's
    name. -/
def machine123456 (fixed : Bool) : Machine where
  hostname := if fixed then "puget-123456".toList else "ubuntu".toList
  etcHostname := [if fixed then "puget-123456".toList else "ubuntu".toList]
  dmiSystem := ["System Information".toList,
    "\tSerial Number: puget-123456".toList]
  dmiBoard := ["\tProduct Name: WRX90 WS EVO".toList]

/-- From the serial comes a blank and five digits. -/
theorem orderid_sources_123456 :
    (orderid (machine123456 true) none []).1 = order123456.digits
      ∧ (orderid (machine123456 false) none []).1
        = ' ' :: order123456.digits.take 5
      ∧ ¬ SameOrder order123456 (machine123456 true) (machine123456 false) [] :=
  orderid_sources false order123456 [] (machine123456 true)
    (machine123456 false) [] rfl rfl rfl rfl

/-- The serial branch asks for the order ` 12345`. -/
theorem orderid_serial_off_by_one :
    ¬ ∀ (upper : Bool) (n : OrderNumber) (suffix : Text)
        (byHost bySerial : Machine) (answer : Text),
        byHost.hostname = label upper n suffix →
        byHost.etcHostname = [label upper n suffix] →
        Reports bySerial.dmiSystem "Serial Number: ".toList
          (label upper n suffix) →
        bySerial.etcHostname.any hasPuget = false →
        SameOrder n byHost bySerial answer := by
  intro hall
  have h := (hall false order123456 [] (machine123456 true)
    (machine123456 false) [] rfl rfl rfl rfl).2
  exact absurd h (by decide)

end SetupOrderId
