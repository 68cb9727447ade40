import InstallLinux.SectionTextProofs
import InstallLinux.SetupDriverProofs
import InstallLinux.SetupOrderIdProofs
import InstallLinux.SetupReviewProofs

/-! # The review report — what is printed can be read back

    `review.sh` and `test.sh` print a report of the machine, section by
    section, each behind the header of `_topbar`, `_titlebar` and `_bottombar`,
    and the outputs of other programs are appended as they come.

    * `ruling` is the reader: a header is a blank line, a bar of 91 columns,
      the title line and a bar;
    * `report_reads`: it finds exactly the sections, with the lines that their
      commands printed, where every output that is appended as it comes ends
      its last line and has no bar in it. -/

namespace SetupReport

open ShellText SectionText SetupOrderId SetupReview SetupTitleBar
open SetupDriver (OsType)

/-! ## The outputs -/

/-- What a program prints that another one reads line by line. -/
structure Lines where
  lines : List Text
  single : ∀ l ∈ lines, '\n' ∉ l

/-- The two scripts. -/
inductive ReportScript where
  | review
  | test
  deriving DecidableEq

/-- What the two scripts ask the machine.  What `finger`, `free`, `nvidia-smi`
    and `cat` print is appended as it comes. -/
structure Tools where
  host : Text
  osversion : Text
  ostype : OsType
  kernelver : Text
  finger : Text
  /-- `dmidecode -t baseboard` -/
  dmiBoard : Lines
  /-- `dmidecode -t bios` -/
  dmiBios : Lines
  lscpu : Lines
  /-- `free -h` -/
  free : Text
  /-- `lspci -v` -/
  lspciV : List Text
  nvidiaSmi : Text
  /-- `lsblk --noheadings` -/
  lsblk : Lines
  /-- `lspci -q` -/
  lspciQ : Lines
  /-- `cat /etc/netplan/01-*` -/
  netplan : Text
  orderdata : List Text
  isFile : Text → Bool

/-! ## The scripts -/

/-- `echo` with these arguments. -/
def echo (args : List Text) : Text := List.intercalate [' '] args ++ ['\n']

/-- `awk '$1 == key { print$1" "$2" "$3" "$4" "$5" "$6" "$7}'`. -/
def awkSeven (key : Text) (lines : List Text) : List Text :=
  (lines.filter (fun l => (splitWords l).headD [] == key)).map (fun l =>
    List.intercalate [' ']
      ((List.range 7).map (fun i => (splitWords l).getD i [])))

/-- `awk '$1 !~ "loop" && $1 != "sr0"'`. -/
def awkDisks (lines : List Text) : List Text :=
  lines.filter (fun l =>
    let first := (splitWords l).headD []
    !decide ("loop".toList <:+: first) && first != "sr0".toList)

/-- The searches in the output of `lscpu`. -/
def cpuSearches : List Text :=
  ["Model Name:".toList, "Socket(s):".toList, "Core(s) per socket:".toList,
    "Thread(s) per core:".toList, "CPU max MHz:".toList,
    "CPU min MHz:".toList, "BogoMIPS:".toList]

def ostypeWord : OsType → Text
  | .server => "Server".toList
  | .desktop => "Desktop".toList

/-- A title, and what the commands behind its header append. -/
structure Part where
  title : Text
  out : Text

/-- The sections up to the one on courtesy software. -/
def parts (script : ReportScript) (t : Tools) : List Part :=
  [⟨"User/Host Name".toList,
      echo ("Hostname:".toList :: splitWords t.host)
        ++ ((if script = .review then echo [" ".toList] else [])
          ++ t.finger)⟩,
   ⟨"OS Information".toList,
      echo ("Distro:".toList :: (splitWords t.osversion ++ [ostypeWord t.ostype]))
        ++ echo ("Kernel:".toList :: splitWords t.kernelver)⟩,
   ⟨"Motherboard Information".toList,
      unlines (awkSeven "Manufacturer:".toList t.dmiBoard.lines
        ++ awkSeven "Product".toList t.dmiBoard.lines)⟩,
   ⟨"BIOS Information".toList,
      unlines (awkSeven "Vendor:".toList t.dmiBios.lines
        ++ (awkSeven "Version:".toList t.dmiBios.lines
          ++ awkSeven "Release".toList t.dmiBios.lines))⟩,
   ⟨"Processor Information".toList,
      unlines (cpuSearches.flatMap (grepLines · t.lscpu.lines))⟩,
   ⟨"RAM Information".toList, t.free⟩]
  ++ (if grep "NVIDIA".toList t.lspciV then
      [⟨"Display Information".toList, t.nvidiaSmi⟩] else [])
  ++ [⟨"Disk/Mount Information".toList, unlines (awkDisks t.lsblk.lines)⟩,
    ⟨"Detected Network Controllers".toList,
      unlines (grepLines "net".toList t.lspciQ.lines)⟩,
    ⟨"Netplan Configuration".toList, t.netplan⟩]

/-- `title=…`, the three calls, and the commands behind them. -/
def addPart (reviewdata : Text) (p : Part) : Text :=
  header p.title reviewdata ++ p.out

/-- `sed -i '$ d'`. -/
def dropLastLine (reviewdata : Text) : Text :=
  unlines (fileLines reviewdata).dropLast

/-- The report: what is shown, and what is left in the file. -/
structure Report where
  shown : Text
  left : Text

/-- The two scripts, which begin a new file. -/
def report (script : ReportScript) (t : Tools) : Report :=
  let reviewdata := (parts script t).foldl addPart []
  let reviewdata := courtesySection t.orderdata t.isFile reviewdata
  match t.ostype with
  | .server =>
      let shown := reviewdata ++ echo [] ++ echo []
        ++ echo ["Press \"q\" to exit back to prompt".toList]
      ⟨shown, dropLastLine shown⟩
  | .desktop => ⟨reviewdata, reviewdata⟩

/-! ## The reader -/

/-- The title line without its bars. -/
def unmark (line : Text) : Text :=
  (line.dropWhile (· == '=')).rdropWhile (· == '=')

def ruling : Ruling Text Text where
  blank := []
  rule := bar 91
  mark := fun title => bar ((91 - title.length) / 2) ++ title
    ++ bar ((92 - title.length) / 2)
  unmark := unmark

theorem header_ruling (title : Text) : ruling.header title = headerLines title :=
  rfl

/-- The section on courtesy software, if there is one. -/
def courtesyParts (t : Tools) : List Part :=
  if grep courtesyCategory t.orderdata then
    [⟨"Courtesy Software".toList, unlines (productLines t.isFile)⟩] else []

/-- An output that ends its last line and has no bar in it. -/
structure Tidy (out : Text) : Prop where
  complete : Complete out
  no_bar : bar 91 ∉ fileLines out

/-- The outputs that reach the report as they are. -/
structure Tools.Tidy (t : Tools) : Prop where
  finger : SetupReport.Tidy t.finger
  free : SetupReport.Tidy t.free
  nvidiaSmi : SetupReport.Tidy t.nvidiaSmi
  netplan : SetupReport.Tidy t.netplan
  lsblk : bar 91 ∉ t.lsblk.lines

/-- A title and the lines that were printed. -/
def Part.section (p : Part) : Section Text Text := ⟨p.title, fileLines p.out⟩

/-- The sections of the report. -/
def sections (script : ReportScript) (t : Tools) : List (Section Text Text) :=
  (parts script t ++ courtesyParts t).map Part.section

/-- On a server the last section ends with two empty lines. -/
def ending : OsType → List Text
  | .server => [[], []]
  | .desktop => []

theorem mem_intercalate {sep : Text} {xs : List Text} {c : Char}
    (h : c ∈ List.intercalate sep xs) : c ∈ sep ∨ ∃ x ∈ xs, c ∈ x := by
  induction xs with
  | nil => exact absurd h List.not_mem_nil
  | cons x rest ih =>
      cases rest with
      | nil =>
          rw [List.intercalate_singleton] at h
          exact Or.inr ⟨x, List.mem_cons_self, h⟩
      | cons y rest =>
          rw [List.intercalate_cons_cons, List.mem_append, List.mem_append] at h
          rcases h with (h | h) | h
          · exact Or.inr ⟨x, List.mem_cons_self, h⟩
          · exact Or.inl h
          · refine (ih h).imp id ?_
            exact fun ⟨z, hz, hc⟩ => ⟨z, List.mem_cons_of_mem _ hz, hc⟩

/-- A line with any other character in it is not the bar. -/
theorem ne_bar {l : Text} {c : Char} (hc : c ∈ l) (hne : c ≠ '=') :
    l ≠ bar 91 := by
  rintro rfl
  exact hne (List.eq_of_mem_replicate hc)

/-! ## Parts that can be read -/

structure Part.Good (p : Part) : Prop where
  short : p.title.length ≤ 91
  chars : ∀ c ∈ p.title, isTitleChar c = true
  complete : Complete p.out
  no_bar : bar 91 ∉ fileLines p.out

theorem good_output {title : Text} (hshort : title.length ≤ 91)
    (hchars : title.all isTitleChar = true) {out : Text} (hout : Tidy out) :
    (Part.mk title out).Good :=
  ⟨hshort, List.all_eq_true.mp hchars, hout.complete, hout.no_bar⟩

theorem good_lines {title : Text} (hshort : title.length ≤ 91)
    (hchars : title.all isTitleChar = true) {lines : List Text}
    (h : ∀ l ∈ lines, '\n' ∉ l ∧ l ≠ bar 91) :
    (Part.mk title (unlines lines)).Good where
  short := hshort
  chars := List.all_eq_true.mp hchars
  complete := complete_unlines lines
  no_bar := by
    rw [fileLines_unlines (fun l hl => (h l hl).1)]
    exact fun hmem => (h _ hmem).2 rfl

/-- Lines that are printed in front of a program's output. -/
theorem good_lines_output {title : Text} (hshort : title.length ≤ 91)
    (hchars : title.all isTitleChar = true) {lines : List Text}
    (h : ∀ l ∈ lines, '\n' ∉ l ∧ l ≠ bar 91) {out : Text} (hout : Tidy out) :
    (Part.mk title (unlines lines ++ out)).Good where
  short := hshort
  chars := List.all_eq_true.mp hchars
  complete := complete_append (complete_unlines lines) hout.complete
  no_bar := by
    rw [fileLines_append (complete_unlines lines),
      fileLines_unlines (fun l hl => (h l hl).1), List.mem_append, not_or]
    exact ⟨fun hmem => (h _ hmem).2 rfl, hout.no_bar⟩

theorem newline_not_mem_words {s w : Text} (hw : w ∈ splitWords s) :
    '\n' ∉ w :=
  fun hnl => Bool.noConfusion (isBlank_of_mem_splitWords hw _ hnl)

theorem unlines_append (front back : List Text) :
    unlines (front ++ back) = unlines front ++ unlines back :=
  List.flatMap_append

theorem echo_eq (args : List Text) :
    echo args = unlines [List.intercalate [' '] args] := by
  rw [unlines, List.flatMap_singleton, echo]

/-- `echo` with a word that is no bar, and words that are split. -/
theorem good_echo {c : Char} (word : Text) (args : List Text) (hc : c ∈ word)
    (hne : c ≠ '=') (hnl : '\n' ∉ word) (hargs : ∀ w ∈ args, '\n' ∉ w) :
    '\n' ∉ List.intercalate [' '] (word :: args)
      ∧ List.intercalate [' '] (word :: args) ≠ bar 91 := by
  constructor
  · intro h
    rcases mem_intercalate h with hblank | ⟨w, hw, hmem⟩
    · exact absurd hblank (by decide)
    · rcases List.mem_cons.mp hw with rfl | hw
      · exact hnl hmem
      · exact hargs w hw hmem
  · refine ne_bar (c := c) ?_ hne
    cases args with
    | nil =>
        rw [List.intercalate_singleton]
        exact hc
    | cons w rest =>
        rw [List.intercalate_cons_cons, List.append_assoc]
        exact List.mem_append_left _ hc

/-- Seven fields have blanks between them. -/
theorem good_awkSeven (key : Text) (lines : List Text) :
    ∀ l ∈ awkSeven key lines, '\n' ∉ l ∧ l ≠ bar 91 := by
  intro l hl
  obtain ⟨line, -, rfl⟩ := List.mem_map.mp hl
  constructor
  · intro h
    rcases mem_intercalate h with h | ⟨w, hw, h⟩
    · exact absurd h (by decide)
    · obtain ⟨i, -, rfl⟩ := List.mem_map.mp hw
      rw [List.getD_eq_getElem?_getD] at h
      cases hfield : (splitWords line)[i]? with
      | none =>
          rw [hfield] at h
          exact absurd h List.not_mem_nil
      | some field =>
          rw [hfield] at h
          exact newline_not_mem_words (List.mem_of_getElem? hfield) h
  · refine ne_bar (c := ' ') ?_ (by decide)
    rw [show List.range 7 = [0, 1, 2, 3, 4, 5, 6] from rfl, List.map_cons,
      List.map_cons, List.intercalate_cons_cons]
    exact List.mem_append_left _ (List.mem_append_right _ List.mem_cons_self)

/-- What a search for some letter finds is no bar. -/
theorem good_grepLines {pat : Text} {c : Char} (hc : c ∈ pat)
    (hne : c.toLower ≠ '=') (t : Lines) :
    ∀ l ∈ grepLines pat t.lines, '\n' ∉ l ∧ l ≠ bar 91 := by
  intro l hl
  obtain ⟨hmem, hfound⟩ := List.mem_filter.mp hl
  refine ⟨t.single l hmem, ?_⟩
  rintro rfl
  have hinfix := of_decide_eq_true hfound
  have hbar : c.toLower ∈ (bar 91).map Char.toLower :=
    hinfix.subset (List.mem_map_of_mem hc)
  obtain ⟨d, hd, heq⟩ := List.mem_map.mp hbar
  rw [List.eq_of_mem_replicate hd] at heq
  exact hne heq.symm

theorem good_cpu (t : Lines) :
    ∀ l ∈ cpuSearches.flatMap (grepLines · t.lines),
      '\n' ∉ l ∧ l ≠ bar 91 := by
  intro l hl
  obtain ⟨pat, hpat, hl⟩ := List.mem_flatMap.mp hl
  have hcolon : cpuSearches.all (fun pat => pat.contains ':') = true := rfl
  have hmem := List.all_eq_true.mp hcolon pat hpat
  exact good_grepLines (List.contains_iff_mem.mp hmem) (by decide) t l hl

theorem good_lsblk {t : Tools} (ht : t.Tidy) :
    ∀ l ∈ awkDisks t.lsblk.lines, '\n' ∉ l ∧ l ≠ bar 91 := by
  intro l hl
  have hmem := List.mem_of_mem_filter hl
  exact ⟨t.lsblk.single l hmem, fun h => ht.lsblk (h ▸ hmem)⟩

theorem good_productLines (isFile : Text → Bool) :
    ∀ l ∈ productLines isFile, '\n' ∉ l ∧ l ≠ bar 91 := by
  intro l hl
  obtain ⟨p, -, rfl⟩ := mem_productLines.mp hl
  refine ⟨newline_not_mem_reviewLine p, ne_bar (c := ' ') ?_ (by decide)⟩
  cases p <;> decide

theorem good_userHost (script : ReportScript) {t : Tools} (ht : t.Tidy) :
    (Part.mk "User/Host Name".toList
      (echo ("Hostname:".toList :: splitWords t.host)
        ++ ((if script = .review then echo [" ".toList] else [])
          ++ t.finger))).Good := by
  have hhost := good_echo (c := 'H') "Hostname:".toList (splitWords t.host)
    (by decide) (by decide) (by decide)
    (fun _ hw => newline_not_mem_words hw)
  have hblank := good_echo (c := ' ') " ".toList [] (by decide) (by decide)
    (by decide) (fun _ hw => nomatch hw)
  cases script with
  | review =>
      rw [if_pos rfl, echo_eq, echo_eq, ← List.append_assoc, ← unlines_append]
      refine good_lines_output (by decide) rfl ?_ ht.finger
      exact List.forall_mem_cons.mpr ⟨hhost, List.forall_mem_singleton.mpr hblank⟩
  | test =>
      rw [if_neg (by decide), echo_eq, List.nil_append]
      exact good_lines_output (by decide) rfl
        (List.forall_mem_singleton.mpr hhost) ht.finger

theorem good_osInformation (t : Tools) :
    (Part.mk "OS Information".toList
      (echo ("Distro:".toList :: (splitWords t.osversion ++ [ostypeWord t.ostype]))
        ++ echo ("Kernel:".toList :: splitWords t.kernelver))).Good := by
  have hostype : '\n' ∉ ostypeWord t.ostype := by
    cases t.ostype <;> decide
  have hdistro := good_echo (c := 'D') "Distro:".toList
    (splitWords t.osversion ++ [ostypeWord t.ostype]) (by decide) (by decide)
    (by decide) (by
      intro w hw
      rcases List.mem_append.mp hw with hw | hw
      · exact newline_not_mem_words hw
      · exact List.mem_singleton.mp hw ▸ hostype)
  have hkernel := good_echo (c := 'K') "Kernel:".toList (splitWords t.kernelver)
    (by decide) (by decide) (by decide)
    (fun _ hw => newline_not_mem_words hw)
  rw [echo_eq, echo_eq, ← unlines_append]
  exact good_lines (by decide) rfl (List.forall_mem_cons.mpr
    ⟨hdistro, List.forall_mem_singleton.mpr hkernel⟩)

/-- **THE PARTS**: every one can be read back. -/
theorem good_parts (script : ReportScript) {t : Tools} (ht : t.Tidy) :
    ∀ p ∈ parts script t ++ courtesyParts t, p.Good := by
  intro p hp
  simp only [parts, List.mem_append, List.mem_cons, List.not_mem_nil,
    or_false] at hp
  rcases hp with (((rfl | rfl | rfl | rfl | rfl | rfl) | hp)
    | (rfl | rfl | rfl)) | hp
  · exact good_userHost script ht
  · exact good_osInformation t
  · exact good_lines (by decide) rfl (List.forall_mem_append.mpr
      ⟨good_awkSeven _ _, good_awkSeven _ _⟩)
  · exact good_lines (by decide) rfl (List.forall_mem_append.mpr
      ⟨good_awkSeven _ _, List.forall_mem_append.mpr
        ⟨good_awkSeven _ _, good_awkSeven _ _⟩⟩)
  · exact good_lines (by decide) rfl (good_cpu t.lscpu)
  · exact good_output (by decide) rfl ht.free
  · -- the section is there where `lspci` names the vendor
    split at hp
    · rw [List.mem_singleton.mp hp]
      exact good_output (by decide) rfl ht.nvidiaSmi
    · exact absurd hp List.not_mem_nil
  · exact good_lines (by decide) rfl (good_lsblk ht)
  · exact good_lines (by decide) rfl
      (good_grepLines (c := 'n') (by decide) (by decide) t.lspciQ)
  · exact good_output (by decide) rfl ht.netplan
  · rw [courtesyParts] at hp
    split at hp
    · rw [List.mem_singleton.mp hp]
      exact good_lines (by decide) rfl (good_productLines t.isFile)
    · exact absurd hp List.not_mem_nil

/-! ## The report -/

/-- **ONE SECTION**: a part adds its header and its lines. -/
theorem addPart_eq {reviewdata : Text} (hr : Complete reviewdata) {p : Part}
    (hp : p.Good) :
    Complete (addPart reviewdata p)
      ∧ fileLines (addPart reviewdata p)
        = fileLines reviewdata ++ (headerLines p.title ++ fileLines p.out) := by
  have hheader := header_eq hr hp.short hp.chars
  have hlines : ∀ l ∈ headerLines p.title, '\n' ∉ l :=
    fun l hl => (headerLines_spec hp.short hp.chars l hl).1
  have hcomplete := complete_append_unlines hr (headerLines p.title)
  rw [addPart, hheader]
  refine ⟨complete_append hcomplete hp.complete, ?_⟩
  rw [fileLines_append hcomplete, fileLines_append hr, fileLines_unlines hlines,
    List.append_assoc]

/-- **THE PARTS**: behind whole lines they are printed as sections. -/
theorem foldl_addPart {ps : List Part} (hps : ∀ p ∈ ps, p.Good) :
    ∀ {reviewdata : Text}, Complete reviewdata →
      Complete (ps.foldl addPart reviewdata)
        ∧ fileLines (ps.foldl addPart reviewdata)
          = fileLines reviewdata ++ ruling.print (ps.map Part.section) := by
  induction ps with
  | nil =>
      intro reviewdata hr
      exact ⟨hr, (List.append_nil _).symm⟩
  | cons p rest ih =>
      intro reviewdata hr
      rw [List.forall_mem_cons] at hps
      obtain ⟨hcomplete, hlines⟩ := addPart_eq hr hps.1
      obtain ⟨hend, hrest⟩ := ih hps.2 hcomplete
      rw [List.foldl_cons, hrest, hlines, List.map_cons, print_cons,
        Part.section, header_ruling, List.append_assoc, List.append_assoc]
      exact ⟨hend, rfl⟩

/-- The courtesy section is one more part. -/
theorem courtesySection_parts (t : Tools) (reviewdata : Text) :
    courtesySection t.orderdata t.isFile reviewdata
      = (courtesyParts t).foldl addPart reviewdata := by
  rw [courtesyParts]
  by_cases h : grep courtesyCategory t.orderdata = true
  · rw [courtesySection_eq h, if_pos h]
    rfl
  · rw [courtesySection, if_neg h, if_neg h]
    rfl

/-- The title between its bars. -/
theorem unmark_mark {title : Text} (h : '=' ∉ title) :
    ruling.unmark (ruling.mark title) = title := by
  have hbar : ∀ n, ∀ c ∈ bar n, (c == '=') = true :=
    fun n c hc => beq_iff_eq.mpr (List.eq_of_mem_replicate hc)
  have hplain : ∀ c ∈ title, ¬ (c == '=') = true := by
    intro c hc heq
    exact h (beq_iff_eq.mp heq ▸ hc)
  have hright : ∀ n, (title ++ bar n).rdropWhile (· == '=') = title := by
    intro n
    rw [List.rdropWhile, List.reverse_append, List.dropWhile_append_of_pos
      (fun c hc => hbar n c (List.mem_reverse.mp hc))]
    rw [← List.rdropWhile_reverse, List.reverse_reverse,
      List.rdropWhile_eq_self_iff]
    exact fun hne => hplain _ (List.getLast_mem hne)
  show List.rdropWhile _ (List.dropWhile _ (bar _ ++ title ++ bar _)) = title
  rw [List.append_assoc, List.dropWhile_append_of_pos (hbar _)]
  cases htitle : title with
  | nil =>
      have hnil : List.dropWhile (· == '=') (bar ((92 - 0) / 2)) = [] :=
        List.dropWhile_eq_nil_iff.mpr (hbar _)
      exact (congrArg (List.rdropWhile (· == '=')) hnil).trans
        (List.rdropWhile_nil _)
  | cons c cs =>
      have hfirst := hplain c (htitle ▸ List.mem_cons_self)
      rw [List.cons_append, List.dropWhile_cons, if_neg hfirst,
        ← List.cons_append, ← htitle, hright]

/-- The text behind all sections. -/
theorem report_lines (script : ReportScript) {t : Tools} (ht : t.Tidy) :
    fileLines (report script t).left
      = ruling.print (sections script t) ++ ending t.ostype := by
  obtain ⟨hcomplete, hlines⟩ := foldl_addPart (good_parts script ht) (Or.inl rfl)
  rw [show fileLines [] = [] from rfl, List.nil_append] at hlines
  have hall : courtesySection t.orderdata t.isFile
      ((parts script t).foldl addPart [])
      = (parts script t ++ courtesyParts t).foldl addPart [] := by
    rw [courtesySection_parts, List.foldl_append]
  rw [report, hall]
  generalize (parts script t ++ courtesyParts t).foldl addPart [] = reviewdata
    at hcomplete hlines
  cases t.ostype with
  | desktop => exact hlines.trans (List.append_nil _).symm
  | server =>
      have hprompt : reviewdata ++ echo [] ++ echo []
          ++ echo ["Press \"q\" to exit back to prompt".toList]
          = reviewdata ++ unlines [[], [],
              "Press \"q\" to exit back to prompt".toList] := by
        simp [echo, unlines]
      have hshown : fileLines (reviewdata ++ unlines [[], [],
            "Press \"q\" to exit back to prompt".toList])
          = (ruling.print (sections script t) ++ [[], []])
            ++ ["Press \"q\" to exit back to prompt".toList] := by
        rw [fileLines_append hcomplete, hlines, fileLines_unlines (by decide),
          List.append_assoc, sections]
        rfl
      show fileLines (dropLastLine (reviewdata ++ echo [] ++ echo []
        ++ echo ["Press \"q\" to exit back to prompt".toList])) = _
      rw [hprompt, dropLastLine, hshown, List.dropLast_concat]
      refine fileLines_unlines ?_
      intro l hl
      exact newline_not_mem_fileLines _ l (hshown ▸ List.mem_append_left _ hl)

/-- **THE REPORT**: where no output leaves its last line open or has a bar in
    it, the report read back is the sections, each with the lines its commands
    printed, in the order of the script. -/
theorem report_reads (script : ReportScript) {t : Tools} (ht : t.Tidy) :
    ruling.read (fileLines (report script t).left)
      = ([], (sections script t).modifyLast
          (fun s => { s with body := s.body ++ ending t.ostype })) := by
  have hgood := good_parts script ht
  have hsection : ∀ s ∈ sections script t,
      ruling.unmark (ruling.mark s.title) = s.title
        ∧ bar 91 ∉ s.body := by
    intro s hs
    obtain ⟨p, hp, rfl⟩ := List.mem_map.mp hs
    refine ⟨unmark_mark ?_, (hgood p hp).no_bar⟩
    exact fun h => absurd ((hgood p hp).chars _ h) (by decide)
  obtain ⟨front, last, hlast⟩ := (List.eq_nil_or_concat
    (sections script t)).resolve_left (List.cons_ne_nil _ _)
  rw [List.concat_eq_append] at hlast
  have hplain : ∀ lines : List Text, bar 91 ∉ lines → ruling.Plain lines := by
    intro lines hno hin
    exact hno (hin.subset (List.mem_cons_of_mem _ List.mem_cons_self))
  have hbody : ∀ s ∈ (sections script t).modifyLast
      (fun s => { s with body := s.body ++ ending t.ostype }),
      ruling.unmark (ruling.mark s.title) = s.title
        ∧ ruling.Plain s.body := by
    intro s hs
    rw [hlast, List.modifyLast_concat, List.mem_append,
      List.mem_singleton] at hs
    rw [hlast, List.forall_mem_append, List.forall_mem_singleton] at hsection
    rcases hs with hs | rfl
    · obtain ⟨htitle, hno⟩ := hsection.1 s hs
      exact ⟨htitle, hplain _ hno⟩
    · obtain ⟨htitle, hno⟩ := hsection.2
      refine ⟨htitle, hplain _ ?_⟩
      rw [List.mem_append, not_or]
      refine ⟨hno, ?_⟩
      cases t.ostype <;> decide
  have hrule : ruling.rule ≠ ruling.blank := by decide
  have hne : sections script t ≠ [] := List.cons_ne_nil _ _
  rw [report_lines script ht, ← print_modifyLast hne, ← List.nil_append (ruling.print _)]
  exact read_print hrule (hplain [] List.not_mem_nil)
    (fun s hs => (hbody s hs).1) (fun s hs => (hbody s hs).2)

/-! ### A server -/

def noLines : Lines := ⟨[], fun _ h => absurd h List.not_mem_nil⟩

/-- A server on which `free` prints two lines, and the network file is there. -/
def fileServer : Tools where
  host := "puget-123456".toList
  osversion := "22.04".toList
  ostype := .server
  kernelver := "5.15.0".toList
  finger := []
  dmiBoard := noLines
  dmiBios := noLines
  lscpu := noLines
  free := unlines ["       total".toList, "Mem:   31Gi".toList]
  lspciV := []
  nvidiaSmi := []
  lsblk := noLines
  lspciQ := noLines
  netplan := unlines ["network:".toList, "  version: 2".toList]
  orderdata := []
  isFile _ := false

theorem tidy_nil : Tidy [] := ⟨Or.inl rfl, List.not_mem_nil⟩

theorem tidy_fileServer : fileServer.Tidy where
  finger := tidy_nil
  free := ⟨complete_unlines _, by decide⟩
  nvidiaSmi := tidy_nil
  netplan := ⟨complete_unlines _, by decide⟩
  lsblk := List.not_mem_nil

/-- A file server, whose report ends with the closing prompt. -/
theorem report_reads_fileServer :
    ruling.read (fileLines (report .review fileServer).left)
      = ([], (sections .review fileServer).modifyLast
          (fun s => { s with body := s.body ++ ending fileServer.ostype })) :=
  report_reads .review tidy_fileServer

/-- Without a section on displays or courtesy software. -/
example : (sections .review fileServer).map Section.title
    = ["User/Host Name", "OS Information", "Motherboard Information",
      "BIOS Information", "Processor Information", "RAM Information",
      "Disk/Mount Information", "Detected Network Controllers",
      "Netplan Configuration"].map String.toList := rfl

end SetupReport
