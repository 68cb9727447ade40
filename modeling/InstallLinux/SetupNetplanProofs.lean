import InstallLinux.IndentTextProofs
import InstallLinux.SetupDriverProofs

/-! # The network file — an entry for each interface

    `_netman` and `vizgen_automation.sh` write `/etc/netplan/01-netcfg.yaml`
    line by line from the first column of `ip --brief address show`.  For a
    plain interface the column is its name; for a stacked one the link below
    follows behind an `@`, and the scripts take that along.

    * `linesOf_generate`: whatever the file was, it becomes the printed
      document of the columns;
    * `read_generate`: read back, it is that document;
    * `netplan_exact_iff`: its keys are the names iff nothing is stacked. -/

namespace SetupNetplan

open ShellText ShellFiles IndentText
open SetupDriver (OsType)

/-! ## The interfaces -/

/-- Letters, digits, dots and dashes. -/
def nameChar (c : Char) : Bool :=
  c.isAlphanum || c == '.' || c == '-'

def IsName (n : Text) : Prop :=
  n ≠ [] ∧ ∀ c ∈ n, nameChar c = true

/-- An interface as `ip --brief address show` lists it. -/
structure Interface where
  name : Text
  /-- the link it is stacked on -/
  link : Option Text
  /-- the line behind the first column -/
  rest : Text
  name_ok : IsName name
  link_ok : ∀ l ∈ link, IsName l
  rest_ok : EndsWord rest

/-- The first column. -/
def Interface.column (i : Interface) : Text :=
  match i.link with
  | none => i.name
  | some l => i.name ++ '@' :: l

/-- `ip --brief address show`. -/
def ipBrief (ifs : List Interface) : List Text :=
  ifs.map (fun i => i.column ++ i.rest)

/-! ## The generation step -/

/-- The files the step touches. -/
inductive Path where
  /-- `/etc/netplan/01-netcfg.yaml` -/
  | netcfg
  /-- `/etc/cloud/cloud-init.disabled` -/
  | cloudInit
  deriving DecidableEq

/-- `awk '$1 != "lo" { print $1 }'`. -/
def awkNotLo (lines : List Text) : List Text :=
  (lines.map (fun line => (splitWords line).headD [])).filter
    (· != "lo".toList)

/-- `nics_array=($nics)`. -/
def nicsArray (ip : List Text) : List Text :=
  splitWords (capture (awkNotLo ip))

/-- The two files before the first line is written. -/
def clearNetcfg (f : Files Path) : Files Path :=
  let f := if isFile f .cloudInit then f else touch f .cloudInit
  if isFile f .netcfg then touch (removeFile f .netcfg) .netcfg else f

/-- `echo line | sudo tee -a /etc/netplan/01-netcfg.yaml`. -/
def tee (f : Files Path) (line : Text) : Files Path :=
  appendLine f .netcfg line

/-- One turn of `for nicnum in "${nics_array[@]}"`. -/
def addNic (f : Files Path) (nicnum : Text) : Files Path :=
  let length := nicnum.length
  let f := tee f ("    ".toList ++ (nicnum ++ ":".toList))
  let f := if length ≤ 10 then tee f "      dhcp4: true".toList
    else tee f "      dhcp4: false".toList
  tee f "      optional: true".toList

/-- The step, with the lines in front of the first interface. -/
def generate (header ip : List Text) (f : Files Path) : Files Path :=
  (nicsArray ip).foldl addNic (header.foldl tee (clearNetcfg f))

def netmanHeader : List Text :=
  ["network:".toList, "  version: 2".toList, "  ethernets:".toList]

/-- `_netman`. -/
def netman (ostype : OsType) (ip : List Text) (f : Files Path) : Files Path :=
  if ostype = .server then generate netmanHeader ip f else f

def networkFixHeader : List Text :=
  ["network:".toList, "  version: 2".toList, "  renderer: networkd".toList,
    "  ethernets:".toList]

/-- `###Network fix` of `vizgen_automation.sh`. -/
def networkFix (ip : List Text) (f : Files Path) : Files Path :=
  generate networkFixHeader ip f

/-! ## The network document -/

/-- What an interface's entry should say. -/
def entry (name : Text) : Node :=
  .mk name []
    [.mk "dhcp4".toList
        (if name.length ≤ 10 then "true".toList else "false".toList) [],
      .mk "optional".toList "true".toList []]

/-- The document with an entry for each name. -/
def document (settings : List Node) (names : List Text) : Node :=
  .mk "network".toList []
    (.mk "version".toList "2".toList [] :: (settings
      ++ [.mk "ethernets".toList [] (names.map entry)]))

/-- The one setting that only `vizgen_automation.sh` writes. -/
def renderer : Node :=
  .mk "renderer".toList "networkd".toList []

/-- The names of the interfaces other than `lo`, in the listed order. -/
def names (ifs : List Interface) : List Text :=
  (ifs.map Interface.name).filter (· != "lo".toList)

/-- The network file, read back, is the document of the interfaces. -/
def Covers (settings : List Node) (ifs : List Interface) (f : Files Path) :
    Prop :=
  IndentText.read (linesOf f .netcfg) = [document settings (names ifs)]

/-- An entry tells its interface. -/
theorem entry_injective : Function.Injective entry := by
  intro a b h
  exact (Node.mk.inj h).1

/-- A document tells its interfaces. -/
theorem document_injective (settings : List Node) :
    Function.Injective (document settings) := by
  intro a b h
  have hchildren := (List.cons.inj (Node.mk.inj h).2.2).2
  have hlast := (List.cons.inj (List.append_cancel_left hchildren)).1
  exact entry_injective.list_map (Node.mk.inj hlast).2.2

/-! ## The columns -/

theorem nameChar_word {c : Char} (hc : nameChar c = true) :
    isBlank c = false :=
  isBlank_eq_false (p := nameChar) ⟨rfl, rfl, rfl⟩ hc

/-- No name holds an `@`. -/
theorem IsName.at_not_mem {n : Text} (hn : IsName n) : '@' ∉ n :=
  fun h => Bool.false_ne_true (hn.2 _ h)

/-- An interface of its own is listed by its name. -/
theorem Interface.column_plain {i : Interface} (h : i.link = none) :
    i.column = i.name := by
  rw [Interface.column, h]

/-- One on another is listed by both names. -/
theorem Interface.column_stacked {i : Interface} {l : Text}
    (h : i.link = some l) : i.column = i.name ++ '@' :: l := by
  rw [Interface.column, h]

/-- What can stand in a column. -/
theorem Interface.column_char (i : Interface) {c : Char}
    (hc : c ∈ i.column) : nameChar c = true ∨ c = '@' := by
  cases hl : i.link with
  | none =>
      rw [i.column_plain hl] at hc
      exact .inl (i.name_ok.2 c hc)
  | some l =>
      rw [i.column_stacked hl, List.mem_append, List.mem_cons] at hc
      rcases hc with hname | hat | hlink
      · exact .inl (i.name_ok.2 c hname)
      · exact .inr hat
      · exact .inl ((i.link_ok l hl).2 c hlink)

/-- The column is never empty. -/
theorem Interface.column_ne_nil (i : Interface) : i.column ≠ [] := by
  cases hl : i.link with
  | none =>
      rw [i.column_plain hl]
      exact i.name_ok.1
  | some l =>
      rw [i.column_stacked hl]
      exact List.append_ne_nil_of_left_ne_nil i.name_ok.1 _

/-- The column is one word. -/
theorem Interface.column_word (i : Interface) : IsWord i.column := by
  refine ⟨i.column_ne_nil, fun c hc => ?_⟩
  rcases i.column_char hc with hname | rfl
  · exact nameChar_word hname
  · rfl

/-- **THE ARRAY**: the scripts loop over the columns other than `lo`. -/
theorem nicsArray_ipBrief (ifs : List Interface) :
    nicsArray (ipBrief ifs)
      = (ifs.map Interface.column).filter (· != "lo".toList) := by
  have hfirst : (ipBrief ifs).map (fun line => (splitWords line).headD [])
      = ifs.map Interface.column := by
    rw [ipBrief, List.map_map]
    refine List.map_congr_left (fun i _ => ?_)
    show (splitWords (i.column ++ i.rest)).headD [] = i.column
    rw [splitWords_word i.column_word i.rest_ok, List.headD_cons]
  rw [nicsArray, splitWords_capture, awkNotLo, hfirst]
  -- every column is one word
  have hwords : ∀ w ∈ (ifs.map Interface.column).filter (· != "lo".toList),
      splitWords w = [w] := by
    intro w hw
    obtain ⟨i, -, rfl⟩ := List.mem_map.mp (List.mem_of_mem_filter hw)
    rw [splitWords_of_no_blank i.column_word.2, if_neg i.column_ne_nil]
  rw [List.flatMap_congr hwords, List.flatMap_singleton']

/-! ## What is in the file -/

/-- A line more, in a file that ends in a newline. -/
theorem linesOf_tee (f : Files Path) (line : Text) (h : Ended f .netcfg) :
    Ended (tee f line) .netcfg
      ∧ linesOf (tee f line) .netcfg = linesOf f .netcfg ++ [line] :=
  ⟨ended_appendLine_self f .netcfg line, h.linesOf_appendLine line⟩

/-- Nothing of the earlier content is left, not even an unended line. -/
theorem linesOf_clearNetcfg (f : Files Path) :
    Ended (clearNetcfg f) .netcfg ∧ linesOf (clearNetcfg f) .netcfg = [] := by
  rw [clearNetcfg]
  generalize (if isFile f .cloudInit then f else touch f .cloudInit) = g
  by_cases hfile : isFile g .netcfg = true
  · rw [if_pos hfile]
    refine ⟨(ended_removeFile_self g .netcfg).touch _, ?_⟩
    simp [linesOf, contentsOf, touch, removeFile]
  · rw [if_neg hfile]
    rw [isFile, Bool.not_eq_true, Option.isSome_eq_false_iff,
      Option.isNone_iff_eq_none] at hfile
    rw [Ended, linesOf, contentsOf, hfile]
    exact ⟨rfl, rfl⟩

/-- A turn of the loop prints the entry of the column. -/
theorem linesOf_addNic (f : Files Path) (nicnum : Text)
    (h : Ended f .netcfg) :
    Ended (addNic f nicnum) .netcfg
      ∧ linesOf (addNic f nicnum) .netcfg
        = linesOf f .netcfg ++ printNode 2 4 (entry nicnum) := by
  obtain ⟨hkey, hlines⟩ := linesOf_tee f ("    ".toList ++ (nicnum ++ ":".toList)) h
  by_cases hlength : nicnum.length ≤ 10
  · obtain ⟨hdhcp, hlines'⟩ := linesOf_tee _ "      dhcp4: true".toList hkey
    obtain ⟨hlast, hlines''⟩ := linesOf_tee _ "      optional: true".toList hdhcp
    simp only [addNic, entry, if_pos hlength]
    refine ⟨hlast, ?_⟩
    rw [hlines'', hlines', hlines]
    simp only [List.append_assoc]
    rfl
  · obtain ⟨hdhcp, hlines'⟩ := linesOf_tee _ "      dhcp4: false".toList hkey
    obtain ⟨hlast, hlines''⟩ := linesOf_tee _ "      optional: true".toList hdhcp
    simp only [addNic, entry, if_neg hlength]
    refine ⟨hlast, ?_⟩
    rw [hlines'', hlines', hlines]
    simp only [List.append_assoc]
    rfl

/-- The lines of the document in front of its first entry. -/
def headerLines (settings : List Node) : List Text :=
  printLine 0 "network".toList [] :: printLine 2 "version".toList "2".toList
    :: (printNodes 2 2 settings ++ [printLine 2 "ethernets".toList []])

/-- `_netman` writes no renderer. -/
theorem netmanHeader_eq : netmanHeader = headerLines [] := rfl

/-- The unattended script writes one. -/
theorem networkFixHeader_eq : networkFixHeader = headerLines [renderer] := rfl

/-- Nodes are printed one behind the other. -/
theorem printNodes_eq_flatMap (step indent : Nat) (nodes : List Node) :
    printNodes step indent nodes = nodes.flatMap (printNode step indent) := by
  induction nodes with
  | nil => rw [printNodes, List.flatMap_nil]
  | cons n rest ih => rw [printNodes, ih, List.flatMap_cons]

/-- The text of a document: its header, and three lines for each interface. -/
theorem printNodes_document (settings : List Node) (keys : List Text) :
    printNodes 2 0 [document settings keys]
      = headerLines settings
        ++ keys.flatMap (fun key => printNode 2 4 (entry key)) := by
  have hentries : printNodes 2 4 (keys.map entry)
      = keys.flatMap (fun key => printNode 2 4 (entry key)) := by
    rw [printNodes_eq_flatMap, List.flatMap_map]
  rw [← hentries, headerLines]
  simp only [printNodes_eq_flatMap, document, printNode, List.flatMap_cons,
    List.flatMap_nil, List.flatMap_append, List.append_nil, List.cons_append,
    List.append_assoc, List.nil_append]

/-- **WHAT IS WRITTEN**: the printed document of the columns, whatever the
    file was. -/
theorem linesOf_generate {header : List Text} {settings : List Node}
    (hheader : header = headerLines settings) (ip : List Text)
    (f : Files Path) :
    linesOf (generate header ip f) .netcfg
      = printNodes 2 0 [document settings (nicsArray ip)] := by
  obtain ⟨hcleared, hnone⟩ := linesOf_clearNetcfg f
  obtain ⟨hheaded, hlines⟩ := linesOf_foldl linesOf_tee header hcleared
  rw [generate, (linesOf_foldl linesOf_addNic (nicsArray ip) hheaded).2, hlines,
    hnone, List.nil_append, List.flatMap_singleton', printNodes_document,
    hheader]

/-! ## Reading it back -/

/-- A key without a colon and blanks is read back as it is. -/
theorem plainKey_of_noColon {key : Text} (hcolon : ':' ∉ key)
    (hblank : ∀ c ∈ key, isBlank c = false) : plainKey key = true := by
  have hhead : (key.head? != some ' ') = true := by
    rw [bne_iff_ne]
    intro h
    exact Bool.noConfusion (hblank ' ' (List.mem_of_head? h))
  rw [plainKey, hhead, Bool.and_true, Bool.not_eq_true',
    ← Bool.not_eq_true, List.contains_iff_mem]
  exact hcolon

/-- The column can stand as a key. -/
theorem Interface.column_plainKey (i : Interface) :
    plainKey i.column = true := by
  refine plainKey_of_noColon (fun h => ?_) i.column_word.2
  rcases i.column_char h with hname | hat
  · exact Bool.noConfusion hname
  · exact absurd hat (by decide)

/-- So can the entry of such a key. -/
theorem plainNode_entry {key : Text} (hkey : plainKey key = true) :
    plainNode (entry key) = true := by
  by_cases hlength : key.length ≤ 10
  · rw [entry, if_pos hlength, plainNode, hkey]
    rfl
  · rw [entry, if_neg hlength, plainNode, hkey]
    rfl

/-- Nodes can be read back iff each of them can. -/
theorem plainNodes_eq_all (nodes : List Node) :
    plainNodes nodes = nodes.all plainNode := by
  induction nodes with
  | nil => rw [plainNodes, List.all_nil]
  | cons n rest ih => rw [plainNodes, ih, List.all_cons]

/-- The document can be read back. -/
theorem plainNodes_document {settings : List Node} {keys : List Text}
    (hsettings : plainNodes settings = true)
    (hkeys : ∀ key ∈ keys, plainKey key = true) :
    plainNodes [document settings keys] = true := by
  have hentries : (keys.map entry).all plainNode = true := by
    rw [List.all_map, List.all_eq_true]
    exact fun key hkey => plainNode_entry (hkeys key hkey)
  rw [plainNodes_eq_all] at hsettings
  simp only [plainNodes_eq_all, document, plainNode, List.all_cons,
    List.all_nil, List.all_append, hsettings, hentries]
  rfl

/-- **READ BACK**: the document of the columns. -/
theorem read_generate {header : List Text} {settings : List Node}
    (hheader : header = headerLines settings)
    (hsettings : plainNodes settings = true) (ifs : List Interface)
    (f : Files Path) :
    IndentText.read (linesOf (generate header (ipBrief ifs) f) .netcfg)
      = [document settings
          ((ifs.map Interface.column).filter (· != "lo".toList))] := by
  rw [linesOf_generate hheader, nicsArray_ipBrief]
  refine read_print (by decide) _ (plainNodes_document hsettings ?_)
  intro key hkey
  obtain ⟨i, -, rfl⟩ := List.mem_map.mp (List.mem_of_mem_filter hkey)
  exact i.column_plainKey

/-! ## When the keys are the names -/

/-- The columns are the names iff no interface is stacked on another. -/
theorem columns_eq_names_iff (ifs : List Interface) :
    (ifs.map Interface.column).filter (· != "lo".toList) = names ifs
      ↔ ∀ i ∈ ifs, i.link = none := by
  constructor
  · intro h i hi
    cases hl : i.link with
    | none => rfl
    | some l =>
        -- a column with an `@` in it passes the filter and is no name
        have hat : '@' ∈ i.column := by
          rw [i.column_stacked hl]
          exact List.mem_append_right _ List.mem_cons_self
        have hne : (i.column != "lo".toList) = true := by
          rw [bne_iff_ne]
          intro heq
          exact absurd (heq ▸ hat) (by decide)
        have hmem : i.column ∈ names ifs := by
          rw [← h]
          exact List.mem_filter.mpr ⟨List.mem_map_of_mem hi, hne⟩
        obtain ⟨j, -, hj⟩ := List.mem_map.mp (List.mem_of_mem_filter hmem)
        exact absurd (hj ▸ hat) j.name_ok.at_not_mem
  · intro h
    rw [names, List.map_congr_left (fun i hi => i.column_plain (h i hi))]

/-- **ONE CALL**: the file covers the interfaces iff none is stacked on another.
    -/
theorem covers_generate_iff {header : List Text} {settings : List Node}
    (hheader : header = headerLines settings)
    (hsettings : plainNodes settings = true) (ifs : List Interface)
    (f : Files Path) :
    Covers settings ifs (generate header (ipBrief ifs) f)
      ↔ ∀ i ∈ ifs, i.link = none := by
  rw [Covers, read_generate hheader hsettings, ← columns_eq_names_iff,
    List.singleton_inj]
  exact (document_injective settings).eq_iff

/-- **EXACTLY THE INTERFACES**: from every earlier state of the files either
    script leaves one document with an entry for each interface, under its
    name, iff no interface is stacked on another. -/
theorem netplan_exact_iff (ifs : List Interface) (f : Files Path) :
    (Covers [] ifs (netman .server (ipBrief ifs) f)
        ↔ ∀ i ∈ ifs, i.link = none)
      ∧ (Covers [renderer] ifs (networkFix (ipBrief ifs) f)
        ↔ ∀ i ∈ ifs, i.link = none) := by
  rw [netman, if_pos rfl, networkFix]
  exact ⟨covers_generate_iff netmanHeader_eq rfl ifs f,
    covers_generate_iff networkFixHeader_eq rfl ifs f⟩

/-! ## A VLAN -/

/-- `lo`, `eth0` and the VLAN `eth0.5` on `eth0`. -/
def vlanMachine : List Interface :=
  [⟨"lo".toList, none, " UNKNOWN 127.0.0.1/8".toList,
      ⟨by decide, List.all_eq_true.mp rfl⟩, fun _ h => absurd h (by simp),
      fun c h => by rw [← Option.some.inj h]; rfl⟩,
    ⟨"eth0".toList, none, " UP 10.0.0.2/24".toList,
      ⟨by decide, List.all_eq_true.mp rfl⟩, fun _ h => absurd h (by simp),
      fun c h => by rw [← Option.some.inj h]; rfl⟩,
    ⟨"eth0.5".toList, some "eth0".toList, " UP 10.0.5.2/24".toList,
      ⟨by decide, List.all_eq_true.mp rfl⟩,
      fun l h => by
        rw [← Option.some.inj h]
        exact ⟨by decide, List.all_eq_true.mp rfl⟩,
      fun c h => by rw [← Option.some.inj h]; rfl⟩]

/-- The VLAN's key is `eth0.5@eth0`, a name no interface has. -/
theorem netplan_vlan_key :
    IndentText.read (linesOf (netman .server (ipBrief vlanMachine)
        (fun _ => none)) .netcfg)
      = [document [] ["eth0".toList, "eth0.5@eth0".toList]]
      ∧ ¬ Covers [] vlanMachine (netman .server (ipBrief vlanMachine)
        (fun _ => none)) := by
  have hread : IndentText.read (linesOf (netman .server (ipBrief vlanMachine)
        (fun _ => none)) .netcfg)
      = [document [] ["eth0".toList, "eth0.5@eth0".toList]] :=
    read_generate netmanHeader_eq rfl vlanMachine (fun _ => none)
  refine ⟨hread, ?_⟩
  rw [Covers, hread, List.singleton_inj, (document_injective []).eq_iff]
  decide

end SetupNetplan
