import InstallLinux.JsonSearchProofs
import InstallLinux.SetupAutorunProofs
import InstallLinux.SetupShareRetryProofs
import InstallLinux.SetupSoftwareProofs

/-! # What the order decides — the whole order and nothing else

    Everything optional hangs on a `grep` in the merged order file: the
    courtesy software, the Gnome desktop of a server, the driver of the
    HighPoint 7505, the benchmark of an AI platform.  The file is put together
    by `_orderdata`, which may have been cut off before, and the searches know
    nothing of documents, members or strings.

    * `merged_content`: with names free of quotes the last complete call has
      left the parent and its children, whatever came before it;
    * `grep_term` and `grep_quoted`: a free search of that file finds what some
      string of some document holds, or what some string looks like;
    * `order_decides` puts the two together for each of these decisions. -/

namespace SetupOrderSearch

open ShellText ShellRun JsonText SetupOrderData SetupSoftware

/-! ## The order -/

/-- An order: the parent document and those of the child orders, no member
    name of which holds a quote. -/
structure Order where
  parent : Parent
  child : Text → OrderDoc
  names : hasMember (fun name _ => name.contains '"') parent.json = false

def Order.parentDoc (o : Order) : OrderDoc where
  members := o.parent.before ++ (childOrders, idsJson o.parent.ids)
    :: o.parent.after
  names := o.names

/-- All its documents. -/
def Order.docs (o : Order) : List OrderDoc :=
  o.parentDoc :: o.parent.children.map o.child

/-- Some document has a member `name` with that value. -/
def Order.Names (o : Order) (product : Text) : Prop :=
  ∃ d ∈ o.docs, hasMember (isNamed product) d.json = true

/-- Some string of some document, a value or a key, holds the words. -/
def Order.Mentions (o : Order) (words : Text) : Prop :=
  ∃ d ∈ o.docs, hasString (holds words) d.json = true

/-- Some string of some document is the words, or ends in a quote and the
    words. -/
def Order.Says (o : Order) (words : Text) : Prop :=
  ∃ d ∈ o.docs, hasString (looksLike words) d.json = true

/-- The shop's server and `jq` answer for the order. -/
structure Serves (E : Escaping) (call : Call) (o : Order) : Prop where
  parent : call.wget call.orderid = text E o.parent.json
  child : ∀ id ∈ o.parent.children, call.wget id = text E (o.child id).json
  jq : call.jq (text E o.parent.json) = jqPrint E o.parent.ids

/-- The lines of the file the scripts search. -/
def mergedLines (f : Folder) : List Text :=
  fileLines ((content f orderdataFile).getD [])

/-- The names of an order hide no null `child_orders`. -/
theorem Order.no_lookalike (o : Order) :
    hasMember lookalike o.parent.json = false := by
  by_contra h
  rw [Bool.not_eq_false] at h
  have hquote : hasMember (fun name _ => name.contains '"') o.parent.json
      = true := by
    refine hasMember_mono ?_ o.parent.json h
    intro name j hname
    rw [lookalike, Bool.and_eq_true, decide_eq_true_iff] at hname
    rw [List.contains_iff_mem]
    exact hname.1.subset List.mem_cons_self
  rw [o.names] at hquote
  exact Bool.false_ne_true hquote

/-- **THE MERGED FILE**: a complete call leaves all documents of the order,
    whatever a call that was cut off has left. -/
theorem merged_content (C : Collation) {E : Escaping} {call : Call}
    {o : Order} (hserves : Serves E call o) {f : Folder} (hf : Leftover f) :
    content (orderdata C call f) orderdataFile = some (docsText E o.docs) := by
  have hexact := (fetch_exact_iff E call o.parent (clean_noOrderFiles C hf)
    hserves.parent hserves.jq).mpr (Or.inr o.no_lookalike)
  have hchildren : o.parent.children.flatMap call.wget
      = docsText E (o.parent.children.map o.child) := by
    rw [docsText, List.map_map, List.flatMap_def,
      List.map_congr_left hserves.child]
    rfl
  rw [orderdata, orderdataStates, finalState_append, hexact.1, hchildren]
  rfl

/-! ## A search of the merged file -/

section Searches

variable {E : Escaping}

/-- A search that goes through each document goes through the file. -/
theorem grep_docsText {pat : Text} {finds : OrderDoc → Prop} (hne : pat ≠ [])
    (hnl : '\n' ∉ pat)
    (hdoc : ∀ (d : OrderDoc) (rest : Text), Stops rest →
      (occursIn pat (text E d.json) rest ↔ finds d)) (docs : List OrderDoc) :
    grep pat (fileLines (docsText E docs)) = true ↔ ∃ d ∈ docs, finds d := by
  rw [grep_fileLines hne hnl, ← occursIn_nil hne]
  induction docs with
  | nil => simp [docsText, occursIn]
  | cons d ds ih =>
      have hsplit : docsText E (d :: ds) = text E d.json ++ docsText E ds := by
        rw [docsText, List.map_cons, List.flatten_cons, docsText]
      rw [hsplit, occursIn_append, List.append_nil,
        hdoc d _ (stops_docsText E ds), ih, List.exists_mem_cons_iff]

/-- A free term. -/
theorem grep_term (hE : E.Standard) {w : Text} (hw : IsTerm w)
    (docs : List OrderDoc) :
    grep w (fileLines (docsText E docs)) = true
      ↔ ∃ d ∈ docs, hasString (holds w) d.json = true := by
  refine grep_docsText hw.ne_nil hw.no_newline ?_ docs
  intro d rest _
  rw [← textWith_compact]
  exact occursIn_words hE (List.all_eq_true.mp rfl) hw d.json rest

/-- Words between quotes. -/
theorem grep_quoted {words : Text} (hne : words ≠ [])
    (hplain : ∀ c ∈ words, isPlain c = true) (docs : List OrderDoc) :
    grep (quotedPat words) (fileLines (docsText E docs)) = true
      ↔ ∃ d ∈ docs, hasString (looksLike words) d.json = true := by
  have hnl : '\n' ∉ quotedPat words := by
    rw [quotedPat, List.mem_cons, List.mem_append, List.mem_singleton]
    rintro (h | h | h)
    · exact absurd h (by decide)
    · exact absurd (hplain _ h) (by decide)
    · exact absurd h (by decide)
  refine grep_docsText (List.cons_ne_nil _ _) hnl ?_ docs
  intro d rest hrest
  rw [← textWith_compact]
  exact occursIn_quoted hne hplain d.json rest hrest

end Searches

/-! ## The decisions -/

def gnomeWords : Text := "Gnome Desktop Installation".toList

def raidWords : Text := "RAID Setup (Add-In Controller)".toList

def platformWords : Text := "Intel Xeon W790 5U".toList

def aiServerWords : Text := "ai server".toList

def machineLearningWords : Text := "machine learning".toList

/-- What the installers, the driver stage and the copies decide by the lines of
    the order file, they decide by the documents of the order. -/
structure Decides (o : Order) (lines : List Text) : Prop where
  /-- `_soft_virtualbox`, `_soft_chrome`, `_soft_reader`, `_soft_vlc` -/
  software : ∀ p : Product, p.soft lines ≠ [] ↔ o.Names p.name
  /-- `_gnome` -/
  desktop : ∀ i : SetupAutorun.Install, i.site.order = lines →
    (SetupAutorun.gnomeOrder i = true ↔ o.Mentions gnomeWords)
  /-- `_hp7505` -/
  driver : ∀ site : SetupDriver.Site, site.order = lines →
    (SetupDriver.detected site SetupDriver.hp7505 = true
      ↔ (∃ l ∈ site.lspci, "7505".toList <:+: l ∨ "SSD7505".toList <:+: l)
        ∧ o.Mentions raidWords)
  /-- `_ai_assets_full` -/
  full : ∀ site : SetupShare.Site, site.order = lines →
    (SetupShareRetry.Copier.meets site .aiAssetsFull = true
      ↔ 4 ≤ site.gpus ∧ o.Mentions platformWords
        ∧ (o.Says aiServerWords ∨ o.Says machineLearningWords))
  /-- `_ai_assets_small` -/
  small : ∀ site : SetupShare.Site, site.order = lines →
    (SetupShareRetry.Copier.meets site .aiAssetsSmall = true
      ↔ site.gpus < 4 ∧ o.Mentions platformWords ∧ o.Says aiServerWords)

theorem isTerm_gnome : IsTerm gnomeWords where
  text := List.all_eq_true.mp rfl
  start := ⟨'G', rfl, rfl, rfl⟩

theorem isTerm_raid : IsTerm raidWords where
  text := List.all_eq_true.mp rfl
  start := ⟨'R', rfl, rfl, rfl⟩

theorem isTerm_platform : IsTerm platformWords where
  text := List.all_eq_true.mp rfl
  start := ⟨'I', rfl, rfl, rfl⟩

/-- The quoted words are looked for in the strings of the documents. -/
theorem grep_aiServer {E : Escaping} (docs : List OrderDoc) :
    grep "\"ai server\"".toList (fileLines (docsText E docs)) = true
      ↔ ∃ d ∈ docs, hasString (looksLike aiServerWords) d.json = true := by
  have hplain : ∀ c ∈ aiServerWords, isPlain c = true :=
    List.all_eq_true.mp rfl
  exact grep_quoted (List.cons_ne_nil _ _) hplain docs

theorem grep_machineLearning {E : Escaping} (docs : List OrderDoc) :
    grep "\"machine learning\"".toList (fileLines (docsText E docs)) = true
      ↔ ∃ d ∈ docs, hasString (looksLike machineLearningWords) d.json = true := by
  have hplain : ∀ c ∈ machineLearningWords, isPlain c = true :=
    List.all_eq_true.mp rfl
  exact grep_quoted (List.cons_ne_nil _ _) hplain docs

/-- Two alternatives are looked for line by line. -/
theorem detected_hp7505 (site : SetupDriver.Site) :
    SetupDriver.detected site SetupDriver.hp7505 = true
      ↔ (∃ l ∈ site.lspci, "7505".toList <:+: l ∨ "SSD7505".toList <:+: l)
        ∧ grep raidWords site.order = true := by
  have hpatterns : SetupDriver.hp7505.patterns.any
      (fun pat => grep pat site.lspci) = true
      ↔ ∃ l ∈ site.lspci, "7505".toList <:+: l ∨ "SSD7505".toList <:+: l := by
    show (grep "7505".toList site.lspci
      || (grep "SSD7505".toList site.lspci || false)) = true ↔ _
    rw [Bool.or_false, Bool.or_eq_true, grep_eq_true, grep_eq_true,
      ← exists_or]
    simp only [← and_or_left]
  rw [SetupDriver.detected, Bool.and_eq_true, hpatterns]
  rfl

/-- The file with all documents of the order is as good as the order. -/
theorem decides_docsText {E : Escaping} (hE : E.Standard) (o : Order) :
    Decides o (fileLines (docsText E o.docs)) where
  software p := by
    have hfile : docsText E o.docs
        = orderFile (o.docs.map (fun d => text E d.json)) :=
      (orderFile_eq _).symm
    rw [soft_ne_nil_iff, hfile]
    exact guard_orderFile E p o.docs
  desktop i hlines := by
    rw [SetupAutorun.gnomeOrder, hlines]
    exact grep_term hE isTerm_gnome o.docs
  driver site hlines := by
    rw [detected_hp7505, hlines]
    exact and_congr_right (fun _ => grep_term hE isTerm_raid o.docs)
  full site hlines := by
    rw [SetupShareRetry.Copier.meets, SetupShare.aiPlatform, hlines,
      Bool.and_eq_true, Bool.and_eq_true, Bool.or_eq_true, decide_eq_true_iff,
      and_assoc]
    refine and_congr_right (fun _ => and_congr ?_ (or_congr ?_ ?_))
    · exact grep_term hE isTerm_platform o.docs
    · exact grep_aiServer o.docs
    · exact grep_machineLearning o.docs
  small site hlines := by
    rw [SetupShareRetry.Copier.meets, SetupShare.aiPlatform, hlines,
      Bool.and_eq_true, Bool.and_eq_true, decide_eq_true_iff, and_assoc]
    refine and_congr_right (fun _ => and_congr ?_ ?_)
    · exact grep_term hE isTerm_platform o.docs
    · exact grep_aiServer o.docs

/-- A parent with a note, whose child asks for VLC. -/
def childVlc : Order where
  parent :=
    { plainParent with
      before := [("note".toList, .str gnomeWords)]
      topOnly := rfl }
  child _ := ⟨[("name".toList, .str "VLC".toList)], rfl⟩
  names := rfl

/-- Order `2` is the parent, every other order its child. -/
def callVlc : Call where
  orderid := ['2']
  wget id :=
    if id = ['2'] then text plainEscaping childVlc.parent.json
    else text plainEscaping (childVlc.child id).json
  jq _ := jqPrint plainEscaping childVlc.parent.ids

theorem serves_vlc : Serves plainEscaping callVlc childVlc where
  parent := rfl
  child := List.forall_mem_singleton.mpr rfl
  jq := rfl

end SetupOrderSearch
