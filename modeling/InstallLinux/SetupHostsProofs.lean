import InstallLinux.SetupOrderIdProofs

/-! # The hosts file — a name spliced into a `sed` script

    `_hostfix`, `hostname.sh` and `vizgen_automation.sh` give the machine its
    serial number as a name and write it into the second line of `/etc/hosts`,
    whatever that line is, through a replacement text in which `/`, `\` and `&`
    are active.

    What the line says is read as `hosts(5)` has it (`hostsFields`).  The fix
    is sound (`Sound`) iff the second line is the one to be replaced and the
    serial comes through `sed` and the comment character unharmed, or there is
    nothing to do (`Fits`):

    * `mapsTo_written`: the written line maps the serial iff it has no `#`;
    * `not_mapsTo_spliced`: with an `&` the old entry ends up in the new line;
    * `hostfix_sound_iff` is the law. -/

namespace SetupHosts

open ShellText ShellSed SetupOrderId

/-! ## Lines of `/etc/hosts` -/

/-- The fields of a line: an address and its names, up to a comment. -/
def hostsFields (line : Text) : List Text :=
  splitWords (line.takeWhile (· != '#'))

/-- The line maps 127.0.0.1 to exactly this name. -/
def mapsTo (line name : Text) : Bool :=
  hostsFields line == ["127.0.0.1".toList, name]

def isLoopback (address : Text) : Bool :=
  "127.".toList.isPrefixOf address || address == "::1".toList

/-- The line is a loopback entry of the host. -/
def loopbackEntry (host line : Text) : Bool :=
  match hostsFields line with
  | [] => false
  | address :: names => isLoopback address && names.contains host

/-- The fix keeps the file sound: the name given to `hostnamectl` is the
    lower-cased serial, some line maps it, and only the loopback entry of the
    name before has changed. -/
structure Sound (glob : Text → List Text) (m : Machine)
    (hosts hosts' : List Text) (serial : Text) : Prop where
  named : hostnameArgs glob m = [serial]
  maps : ∃ line ∈ hosts', mapsTo line serial = true
  kept : ∀ (i : Nat) (line : Text), hosts[i]? = some line →
    loopbackEntry m.hostname line = false → hosts'[i]? = some line

/-- What the file and the serial have to be like. -/
def Fits (glob : Text → List Text) (host : Text) (hosts : List Text)
    (serial : Text) : Prop :=
  glob serial = [serial]
    ∧ match hosts[1]? with
      | none => ∃ line ∈ hosts, mapsTo line serial = true
      | some second =>
          ('&' ∉ serial ∧ '#' ∉ serial
              ∧ (loopbackEntry host second = true
                ∨ second = hostsLine (' ' :: serial)))
            ∨ ('&' ∈ serial ∧ loopbackEntry host second = true
              ∧ ∃ (i : Nat) (line : Text), i ≠ 1 ∧ hosts[i]? = some line
                ∧ mapsTo line serial = true)

/-! ## The serial -/

/-- Lower case makes no blank. -/
theorem isBlank_toLower {c : Char} (hc : isBlank c = false) :
    isBlank c.toLower = false := by
  by_cases hupper : c.val ≥ 'A'.val ∧ c.val ≤ 'Z'.val
  · have hval : c.toLower.val = c.val + ('a'.val - 'A'.val) :=
      congrArg Char.val (dif_pos hupper)
    have hlow : 65 ≤ c.val.toNat := UInt32.le_iff_toNat_le.mp hupper.1
    have hhigh : c.val.toNat ≤ 90 := UInt32.le_iff_toNat_le.mp hupper.2
    have hsmall : c.toLower.val.toNat = c.val.toNat + 32 := by
      rw [hval, UInt32.toNat_add]
      show (c.val.toNat + 32) % 2 ^ 32 = _
      omega
    -- the small letters begin at 97, behind every blank
    have hne : ∀ d : Char, d.val.toNat < 97 → c.toLower ≠ d := by
      rintro d hd rfl
      omega
    rw [isBlank, beq_eq_false_iff_ne.mpr (hne ' ' (by decide)),
      beq_eq_false_iff_ne.mpr (hne '\t' (by decide)),
      beq_eq_false_iff_ne.mpr (hne '\n' (by decide))]
    rfl
  · have hsame : c.toLower = c := dif_neg hupper
    rw [hsame]
    exact hc

/-- The blank behind the colon, and the value in small letters. -/
theorem hostSerial_eq {m : Machine} {value : Text}
    (h : Reports m.dmiSystem "Serial Number: ".toList value)
    (hblank : ∀ c ∈ value, isBlank c = false) :
    hostSerial m = ' ' :: value.map Char.toLower := by
  have hnl : '\n' ∉ '\t' :: ("Serial Number: ".toList ++ value) := by
    rw [List.mem_cons, List.mem_append]
    rintro (hmem | hmem | hmem)
    · exact absurd hmem (by decide)
    · exact absurd hmem (by decide)
    · exact absurd (hblank _ hmem) (by decide)
  rw [hostSerial, dmiField, h, capture_line hnl]
  rfl

/-! ## What a line maps -/

variable {serial : Text}

theorem hostsLine_length (text : Text) :
    (hostsLine text).length = 10 + text.length :=
  List.length_append

theorem hostsLine_any (text : Text) :
    (hostsLine text).any endsReplacement = text.any endsReplacement :=
  List.any_append

theorem splitWords_hostsLine (text : Text) :
    splitWords (hostsLine (' ' :: text))
      = "127.0.0.1".toList :: splitWords text := by
  have hplain : "127.0.0.1".toList.all (fun c => !isBlank c) = true := rfl
  have hword : IsWord "127.0.0.1".toList := by
    refine ⟨by decide, ?_⟩
    intro c hc
    simpa using List.all_eq_true.mp hplain c hc
  have hend : EndsWord ('\t' :: ' ' :: text) := by
    intro c hc
    exact Option.some.inj hc ▸ rfl
  show splitWords ("127.0.0.1".toList ++ '\t' :: ' ' :: text) = _
  rw [splitWords_word hword hend, splitWords_blank rfl, splitWords_blank rfl]

/-- The written line has the address, and the words of what follows. -/
theorem hostsFields_hostsLine (text : Text) :
    hostsFields (hostsLine (' ' :: text))
      = "127.0.0.1".toList :: hostsFields text := by
  have hcut : (hostsLine (' ' :: text)).takeWhile (· != '#')
      = hostsLine (' ' :: text.takeWhile (· != '#')) := rfl
  rw [hostsFields, hcut, splitWords_hostsLine, hostsFields]

/-- No line maps a name with the comment character in it. -/
theorem comment_not_mem_of_mapsTo {line : Text}
    (h : mapsTo line serial = true) : '#' ∉ serial := by
  intro hcomment
  rw [mapsTo, beq_iff_eq] at h
  have hword : serial ∈ hostsFields line := by
    rw [h]
    exact List.mem_cons_of_mem _ List.mem_cons_self
  have hkept := List.mem_takeWhile_imp (mem_of_mem_splitWords hword hcomment)
  exact absurd hkept (by decide)

/-- A serial without it comes through as it is. -/
theorem mapsTo_written (hne : serial ≠ [])
    (hblank : ∀ c ∈ serial, isBlank c = false) (hcomment : '#' ∉ serial) :
    mapsTo (hostsLine (' ' :: serial)) serial = true := by
  have hwhole : serial.takeWhile (· != '#') = serial := by
    refine List.takeWhile_eq_self_iff.mpr ?_
    intro c hc
    rw [bne_iff_ne]
    rintro rfl
    exact hcomment hc
  rw [mapsTo, beq_iff_eq, hostsFields_hostsLine, hostsFields, hwhole,
    splitWords_of_no_blank hblank, if_neg hne]

/-- A loopback entry has an address and a name. -/
theorem two_fields {host line : Text} (h : loopbackEntry host line = true) :
    2 ≤ (hostsFields line).length := by
  rw [loopbackEntry] at h
  cases hfields : hostsFields line with
  | nil =>
      rw [hfields] at h
      exact absurd h Bool.false_ne_true
  | cons address names =>
      rw [hfields] at h
      simp only [Bool.and_eq_true, List.contains_iff_mem] at h
      have hnames : 0 < names.length := List.length_pos_of_mem h.2
      rw [List.length_cons]
      omega

/-! ## The spliced line -/

theorem expandMatch_hostsLine (text line : Text) :
    expandMatch (hostsLine (' ' :: text)) line
      = hostsLine (' ' :: expandMatch text line) := rfl

/-- Behind some text and with more behind it, two fields stay two words. -/
theorem two_words_spliced {line : Text} (h : 2 ≤ (hostsFields line).length)
    {front : Text} (hfront : '#' ∉ front) (back : Text) :
    2 ≤ (hostsFields (front ++ (line ++ back))).length := by
  obtain ⟨u, c, v, hline, hc, hu, hv⟩ := exists_blank_between h
  -- the comment of the line, if it has one, cuts off what is behind it
  obtain ⟨rest, hrest⟩ : ∃ rest, (line ++ back).takeWhile (· != '#')
      = line.takeWhile (· != '#') ++ rest := by
    rw [List.takeWhile_append]
    split
    · rename_i hlen
      rw [(List.takeWhile_sublist _).eq_of_length hlen]
      exact ⟨_, rfl⟩
    · exact ⟨[], (List.append_nil _).symm⟩
  have hall : ∀ x ∈ front, (x != '#') = true := by
    intro x hx
    rw [bne_iff_ne]
    rintro rfl
    exact hfront hx
  have hsplit : (front ++ (line ++ back)).takeWhile (· != '#')
      = (front ++ u) ++ c :: (v ++ rest) := by
    rw [List.takeWhile_append_of_pos hall, hrest, hline]
    simp
  have hfirst : splitWords (front ++ u) ≠ [] := by
    intro hnil
    rw [splitWords_eq_nil_iff] at hnil
    exact hu (splitWords_eq_nil_iff.mpr
      (fun x hx => hnil x (List.mem_append_right _ hx)))
  have hsecond : splitWords (v ++ rest) ≠ [] := by
    intro hnil
    rw [splitWords_eq_nil_iff] at hnil
    exact hv (splitWords_eq_nil_iff.mpr
      (fun x hx => hnil x (List.mem_append_left _ hx)))
  rw [hostsFields, hsplit, splitWords_append_blank hc, List.length_append]
  have hone := List.length_pos_iff.mpr hfirst
  have htwo := List.length_pos_iff.mpr hsecond
  omega

/-- **THE SPLICE**: an `&` brings the whole old entry into the new line, which
    then maps more than one name. -/
theorem not_mapsTo_spliced (hamp : '&' ∈ serial) {host line : Text}
    (hentry : loopbackEntry host line = true) :
    mapsTo (expandMatch (hostsLine (' ' :: serial)) line) serial = false := by
  rw [Bool.eq_false_iff]
  intro h
  have hcomment := comment_not_mem_of_mapsTo h
  obtain ⟨front, back, hstart, hexpand⟩ := expandMatch_of_mem hamp line
  have hfront : '#' ∉ front := fun hmem => hcomment (hstart.subset hmem)
  have htwo := two_words_spliced (two_fields hentry) hfront back
  rw [mapsTo, beq_iff_eq, expandMatch_hostsLine, hostsFields_hostsLine,
    hexpand, List.cons.injEq] at h
  rw [h.2, List.length_singleton] at htwo
  exact absurd htwo (by decide)

/-- It is longer than the old one in any case. -/
theorem spliced_ne (hamp : '&' ∈ serial) (line : Text) :
    expandMatch (hostsLine (' ' :: serial)) line ≠ line := by
  intro h
  obtain ⟨front, back, -, hexpand⟩ := expandMatch_of_mem hamp line
  have hlen := congrArg List.length h
  rw [expandMatch_hostsLine, hexpand, hostsLine_length, List.length_cons,
    List.length_append, List.length_append] at hlen
  omega

/-! ## The law -/

section Law

variable {glob : Text → List Text} {other : Text → List Text → List Text}
  {m : Machine} {hosts : List Text}

theorem hostnameArgs_eq (hserial : hostSerial m = ' ' :: serial)
    (hne : serial ≠ []) (hblank : ∀ c ∈ serial, isBlank c = false) :
    hostnameArgs glob m = glob serial := by
  rw [hostnameArgs, hserial, splitWords_blank rfl,
    splitWords_of_no_blank hblank, if_neg hne, List.flatMap_singleton]

/-! ### The file after a fix -/

/-- The file with its second line replaced. -/
def written (serial : Text) (hosts : List Text) : List Text :=
  hosts.modify 1 (expandMatch (hostsLine (' ' :: serial)))

theorem written_other {i : Nat} (hi : i ≠ 1) :
    (written serial hosts)[i]? = hosts[i]? :=
  List.getElem?_modify_ne _ _ hi.symm

/-- The second line is what its replacement makes of it. -/
theorem written_second : (written serial hosts)[1]?
    = hosts[1]?.map (expandMatch (hostsLine (' ' :: serial))) :=
  List.getElem?_modify_eq _ _ _

/-- A file of one line stays as it is. -/
theorem written_of_none (h : hosts[1]? = none) : written serial hosts = hosts := by
  refine List.ext_getElem? ?_
  intro i
  by_cases hi : i = 1
  · rw [hi, written_second, h]
    rfl
  · exact written_other hi

/-- A serial without `&` is written as it is. -/
theorem written_plain {second : Text} (h : hosts[1]? = some second)
    (hamp : '&' ∉ serial) :
    (written serial hosts)[1]? = some (hostsLine (' ' :: serial)) := by
  rw [written_second, h, Option.map_some, expandMatch_hostsLine,
    expandMatch_of_absent hamp]

/-- Where the serial ends no replacement, the second line is replaced. -/
theorem hostfix_hosts (hserial : hostSerial m = ' ' :: serial)
    (hclean : serial.any endsReplacement = false) :
    (hostfix glob other m hosts).2 = written serial hosts := by
  have hline : (hostsLine (' ' :: serial)).any endsReplacement = false := by
    rw [hostsLine_any, List.any_cons, hclean]
    rfl
  show sedLine _ 1 (hostsLine (hostSerial m)) hosts = _
  rw [hserial, sedLine, hline, if_neg Bool.false_ne_true, written]

variable (hargs : hostnameArgs glob m = glob serial)

include hargs

/-- What a sound fix asks of the file. -/
theorem fits_of_sound (h : Sound glob m hosts (written serial hosts) serial) :
    Fits glob m.hostname hosts serial := by
  refine ⟨hargs ▸ h.named, ?_⟩
  obtain ⟨line, hmem, hmaps⟩ := h.maps
  cases hsecond : hosts[1]? with
  | none =>
      rw [written_of_none hsecond] at hmem
      exact ⟨line, hmem, hmaps⟩
  | some second =>
      -- a line that is no entry of the host has to stay as it is
      have hsame : loopbackEntry m.hostname second = false →
          (written serial hosts)[1]? = some second :=
        h.kept 1 second hsecond
      by_cases hamp : '&' ∈ serial
      · have hentry : loopbackEntry m.hostname second = true := by
          rw [← Bool.not_eq_false]
          intro hfalse
          have hget := hsame hfalse
          rw [written_second, hsecond, Option.map_some] at hget
          exact spliced_ne hamp second (Option.some.inj hget)
        -- the new line does not map the serial, so an old one does
        obtain ⟨i, hi⟩ := List.mem_iff_getElem?.mp hmem
        have hi1 : i ≠ 1 := by
          rintro rfl
          rw [written_second, hsecond, Option.map_some] at hi
          rw [← Option.some.inj hi, not_mapsTo_spliced hamp hentry] at hmaps
          exact Bool.false_ne_true hmaps
        rw [written_other hi1] at hi
        exact Or.inr ⟨hamp, hentry, i, line, hi1, hi, hmaps⟩
      · refine Or.inl ⟨hamp, comment_not_mem_of_mapsTo hmaps, ?_⟩
        cases hentry : loopbackEntry m.hostname second with
        | true => exact Or.inl rfl
        | false =>
            have hget := hsame hentry
            rw [written_plain hsecond hamp] at hget
            exact Or.inr (Option.some.inj hget).symm

/-- Where the file fits, the fix is sound. -/
theorem sound_of_fits (hne : serial ≠ [])
    (hblank : ∀ c ∈ serial, isBlank c = false)
    (h : Fits glob m.hostname hosts serial) :
    Sound glob m hosts (written serial hosts) serial := by
  obtain ⟨hglob, hcase⟩ := h
  cases hsecond : hosts[1]? with
  | none =>
      rw [hsecond] at hcase
      rw [written_of_none hsecond]
      exact ⟨hargs.trans hglob, hcase, fun _ _ hget _ => hget⟩
  | some second =>
      rw [hsecond] at hcase
      -- away from the second line nothing changes
      have hkept : (loopbackEntry m.hostname second = false →
          (written serial hosts)[1]? = some second) →
          ∀ (i : Nat) (line : Text), hosts[i]? = some line →
            loopbackEntry m.hostname line = false →
            (written serial hosts)[i]? = some line := by
        intro htwo i line hget hentry
        by_cases hi : i = 1
        · rw [hi, hsecond] at hget
          obtain rfl := Option.some.inj hget
          rw [hi]
          exact htwo hentry
        · rw [written_other hi]
          exact hget
      rcases hcase with ⟨hamp, hcomment, hline⟩ | ⟨-, htrue, i, line, hi, hget, hmaps⟩
      · have hnew := written_plain hsecond hamp
        refine ⟨hargs.trans hglob, ⟨_, List.mem_of_getElem? hnew,
          mapsTo_written hne hblank hcomment⟩, hkept ?_⟩
        intro hentry
        rcases hline with htrue | hsame
        · rw [hentry] at htrue
          exact absurd htrue Bool.false_ne_true
        · rw [hnew, ← hsame]
      · have hold : (written serial hosts)[i]? = some line :=
          (written_other hi).trans hget
        refine ⟨hargs.trans hglob, ⟨line, List.mem_of_getElem? hold, hmaps⟩,
          hkept ?_⟩
        intro hentry
        rw [hentry] at htrue
        exact absurd htrue Bool.false_ne_true

omit hargs

/-- **THE LAW**: for every machine, file and serial without blanks: the fix is
    sound where the serial neither ends the replacement nor escapes anything in
    it and the file fits, and for such a serial nowhere else. -/
theorem hostfix_sound_iff (glob : Text → List Text)
    (other : Text → List Text → List Text) (m : Machine) (hosts : List Text)
    (value : Text)
    (hreport : Reports m.dmiSystem "Serial Number: ".toList value)
    (hne : value ≠ []) (hblank : ∀ c ∈ value, isBlank c = false) :
    ((value.map Char.toLower).any endsReplacement = false
        ∧ Fits glob m.hostname hosts (value.map Char.toLower) →
      Sound glob m hosts (hostfix glob other m hosts).2
        (value.map Char.toLower))
    ∧ (Sound glob m hosts (hostfix glob other m hosts).2
        (value.map Char.toLower) →
      (value.map Char.toLower).any endsReplacement = true
        ∨ Fits glob m.hostname hosts (value.map Char.toLower)) := by
  have hserial := hostSerial_eq hreport hblank
  have hne' : value.map Char.toLower ≠ [] := by
    rw [Ne, List.map_eq_nil_iff]
    exact hne
  have hblank' : ∀ c ∈ value.map Char.toLower, isBlank c = false := by
    intro c hc
    obtain ⟨d, hd, rfl⟩ := List.mem_map.mp hc
    exact isBlank_toLower (hblank d hd)
  have hargs : hostnameArgs glob m = glob (value.map Char.toLower) :=
    hostnameArgs_eq hserial hne' hblank'
  constructor
  · rintro ⟨hclean, hfits⟩
    rw [hostfix_hosts hserial hclean]
    exact sound_of_fits hargs hne' hblank' hfits
  · intro hsound
    by_cases hclean : (value.map Char.toLower).any endsReplacement = true
    · exact Or.inl hclean
    · rw [hostfix_hosts hserial (Bool.eq_false_iff.mpr hclean)] at hsound
      exact Or.inr (fits_of_sound hargs hsound)

end Law

/-! ### The serial puget-123456 -/

/-- A word that is the name of no file. -/
def noFiles (word : Text) : List Text := [word]

theorem reports_123456 : Reports (machine123456 false).dmiSystem
    "Serial Number: ".toList "puget-123456".toList := rfl

theorem noBlank_123456 : ∀ c ∈ "puget-123456".toList, isBlank c = false := by
  have hall : "puget-123456".toList.all (fun c => !isBlank c) = true := rfl
  intro c hc
  simpa using List.all_eq_true.mp hall c hc

/-- A script with an error leaves the file as it is. -/
def scriptError (_ : Text) (lines : List Text) : List Text := lines

/-- The file of a fresh system, where the second line is the one. -/
theorem hostfix_sound_fresh :
    Sound noFiles (machine123456 false)
      ["127.0.0.1 localhost".toList, "127.0.1.1 ubuntu".toList]
      (hostfix noFiles scriptError (machine123456 false)
        ["127.0.0.1 localhost".toList, "127.0.1.1 ubuntu".toList]).2
      ("puget-123456".toList.map Char.toLower) :=
  (hostfix_sound_iff noFiles scriptError _ _ _ reports_123456 (by decide)
    noBlank_123456).1
    ⟨rfl, rfl, Or.inl ⟨by decide, by decide, Or.inl rfl⟩⟩

/-- A file with a line on IPv6 in front of the entry. -/
def ipv6Hosts : List Text :=
  ["127.0.0.1 localhost".toList, "::1 localhost ip6-localhost".toList,
    "127.0.1.1 ubuntu".toList]

/-- That line is lost, and the entry stays. -/
theorem hostfix_not_sound :
    ¬ ∀ (glob : Text → List Text) (other : Text → List Text → List Text)
        (m : Machine) (hosts : List Text) (value : Text),
        Reports m.dmiSystem "Serial Number: ".toList value → value ≠ [] →
        (∀ c ∈ value, isBlank c = false) →
        Sound glob m hosts (hostfix glob other m hosts).2
          (value.map Char.toLower) := by
  intro hall
  have h := hall noFiles scriptError (machine123456 false) ipv6Hosts _
    reports_123456 (by decide) noBlank_123456
  have hserial := hostSerial_eq reports_123456 noBlank_123456
  rw [hostfix_hosts hserial rfl] at h
  have hsecond : ipv6Hosts[1]? = some "::1 localhost ip6-localhost".toList :=
    rfl
  have hget := h.kept 1 _ hsecond rfl
  rw [written_plain hsecond (by decide)] at hget
  -- the written line begins with a digit
  exact absurd (congrArg (Option.map List.head?) hget) (by decide)

end SetupHosts
