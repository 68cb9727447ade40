import InstallLinux.JsonTextProofs
import InstallLinux.ShellRunProofs
import InstallLinux.ShellTextProofs
import Mathlib.Data.Char
import Mathlib.Data.List.Lex
import Mathlib.Data.List.Nodup

/-! # The order data — append-only files behind one clean-up test

    `_orderdata` fetches the parent document into `orderdata` and every child
    into a file of its own, all with `>>`, and clears the folder only when the
    file `orderdata` is there.  What makes that sound after a call that was cut
    off anywhere is an invariant the code never states: a child file exists
    only while `orderdata` exists.  It survives the `rm` because ids sort
    before `orderdata` (`leftover_rmStates`), and everything else because the
    parent is fetched first (`leftover_orderdata`).

    The other half is textual: the ids go through `jq`, `tr` and word splitting
    and come back unchanged (`children_jqPrint`), and the guard is a raw search
    for `"child_orders":null`, which also matches a null member whose NAME ends
    in a quote and `child_orders`.  `orderdata_exact_iff` is the exact law. -/

namespace SetupOrderData

open ShellText ShellRun JsonText

/-! ## The folder -/

/-- The folder `~/install/orderdata`: file names with their contents. -/
abbrev Folder := List (Text × Text)

/-- The file the scripts call `orderdata`. -/
def orderdataFile : Text := "orderdata".toList

/-- An order number. -/
def IsOrderId (id : Text) : Prop :=
  id ≠ [] ∧ ∀ c ∈ id, c.isDigit = true

def content (f : Folder) (name : Text) : Option Text := f.lookup name

def remove (f : Folder) (name : Text) : Folder :=
  f.filter (fun entry => entry.1 ≠ name)

/-- `>> name`: the file is created when missing. -/
def appendTo (f : Folder) (name t : Text) : Folder :=
  (name, (content f name).getD [] ++ t) :: remove f name

theorem content_remove (f : Folder) (name other : Text) :
    content (remove f name) other
      = if other = name then none else content f other := by
  simp only [content, remove]
  induction f with
  | nil => simp
  | cons entry rest ih =>
      obtain ⟨key, t⟩ := entry
      by_cases hkey : key = name
      · subst hkey
        rw [List.filter_cons_of_neg (by simp), ih]
        by_cases ho : other = key
        · simp [ho]
        · have hne : (other == key) = false := beq_eq_false_iff_ne.mpr ho
          simp [ho, List.lookup_cons, hne]
      · rw [List.filter_cons_of_pos (by simp [hkey]), List.lookup_cons, ih]
        by_cases ho : other = name
        · subst ho
          have hne : (other == key) = false :=
            beq_eq_false_iff_ne.mpr (Ne.symm hkey)
          simp [hne]
        · simp [ho, List.lookup_cons]

@[simp] theorem content_appendTo_self (f : Folder) (name t : Text) :
    content (appendTo f name t) name
      = some ((content f name).getD [] ++ t) := by
  simp [content, appendTo]

theorem content_appendTo_ne {f : Folder} {name other t : Text}
    (h : other ≠ name) :
    content (appendTo f name t) other = content f other := by
  have hcons : content (appendTo f name t) other
      = content (remove f name) other := by
    have hne : (other == name) = false := beq_eq_false_iff_ne.mpr h
    simp [content, appendTo, List.lookup_cons, hne]
  rw [hcons, content_remove, if_neg h]

/-- The order in which the shell sorts file names; digits come before
    letters in every locale. -/
structure Collation where
  le : Text → Text → Bool
  trans : ∀ a b c, le a b = true → le b c = true → le a c = true
  total : ∀ a b, (le a b || le b a) = true
  digits_first : ∀ id, IsOrderId id → le orderdataFile id = false

/-- The order of the C locale. -/
def cLocale : Collation where
  le a b := decide (a ≤ b)
  trans := by
    intro a b c hab hbc
    rw [decide_eq_true_eq] at hab hbc ⊢
    exact le_trans hab hbc
  total := by
    intro a b
    rw [Bool.or_eq_true, decide_eq_true_eq, decide_eq_true_eq]
    exact le_total a b
  digits_first := by
    rintro id ⟨hne, hdigits⟩
    cases id with
    | nil => exact absurd rfl hne
    | cons c cs =>
        have hc := hdigits c List.mem_cons_self
        have hlt : c < 'o' := by
          simp only [Char.isDigit, Bool.and_eq_true, decide_eq_true_eq] at hc
          have h9 : '9' < 'o' := by decide
          exact lt_of_le_of_lt hc.2 h9
        rw [decide_eq_false_iff_not, not_le]
        exact List.cons_lt_cons_iff.mpr (Or.inl hlt)

/-- The expansion of `orderdata/*`: the names that are not hidden, sorted. -/
def glob (C : Collation) (f : Folder) : List Text :=
  ((f.map Prod.fst).filter (fun n => n.head? != some '.')).mergeSort C.le

/-! ## The source function, state after state -/

/-- What one call of `_orderdata` meets outside the script. -/
structure Call where
  orderid : Text
  /-- what `wget -q -O -` prints for an order id -/
  wget : Text → Text
  /-- what `jq '.child_orders'` prints for a text -/
  jq : Text → Text

/-- `rm` takes the names one after the other. -/
def rmStates : Folder → List Text → List Folder
  | _, [] => []
  | f, n :: ns => remove f n :: rmStates (remove f n) ns

/-- `grep -q '"child_orders":null'`; no newline in it, so some line holds it
    iff the text does. -/
def nullChildren : Text := "\"child_orders\":null".toList

/-- `jq '.child_orders' … | tr -d '"[],'`, split into words. -/
def children (jq : Text → Text) (doc : Text) : List Text :=
  splitWords ((jq doc).filter
    (fun c => !(c == '"' || c == '[' || c == ']' || c == ',')))

/-- `cat $i >> orderdata`; `cat` refuses to copy a file onto itself. -/
def catInto (f : Folder) (i : Text) : Folder :=
  if i = orderdataFile then f
  else appendTo f orderdataFile ((content f i).getD [])

/-- The loop over the child orders. -/
def childStates (call : Call) : Folder → List Text → List Folder
  | _, [] => []
  | f, i :: is =>
      let f1 := appendTo f i (call.wget i)
      let f2 := catInto f1 i
      f1 :: f2 :: childStates call f2 is

/-- The clean-up in front of the fetch. -/
def cleanStates (C : Collation) (f : Folder) : List Folder :=
  if (content f orderdataFile).isSome then rmStates f (glob C f) else []

/-- The states from the first fetch on. -/
def fetchStates (call : Call) (f : Folder) : List Folder :=
  let f1 := appendTo f orderdataFile (call.wget call.orderid)
  let doc := (content f1 orderdataFile).getD []
  f1 :: if nullChildren <:+: doc then []
    else childStates call f1 (children call.jq doc)

/-- `_orderdata`: the folder after each of its commands. -/
def orderdataStates (C : Collation) (call : Call) (f : Folder) :
    List Folder :=
  cleanStates C f ++ fetchStates call (finalState f (cleanStates C f))

/-- A complete call. -/
def orderdata (C : Collation) (call : Call) (f : Folder) : Folder :=
  finalState f (orderdataStates C call f)

/-- A call cut off after its first `n` commands. -/
def orderdataCut (C : Collation) (f : Folder) (cut : Call × Nat) : Folder :=
  finalState f ((orderdataStates C cut.1 f).take cut.2)

/-! ## The hidden invariant -/

/-- A child file exists only while the file `orderdata` exists. -/
def Leftover (f : Folder) : Prop :=
  ∀ id, IsOrderId id → content f id ≠ none →
    content f orderdataFile ≠ none

/-- A folder without order files. -/
def NoOrderFiles (f : Folder) : Prop :=
  content f orderdataFile = none ∧ ∀ id, IsOrderId id → content f id = none

theorem IsOrderId.ne_orderdata {id : Text} (h : IsOrderId id) :
    id ≠ orderdataFile := by
  rintro rfl
  exact absurd (h.2 'o' (by decide)) (by decide)

/-- The glob `*` takes every number. -/
theorem IsOrderId.not_hidden {id : Text} (h : IsOrderId id) :
    (id.head? != some '.') = true := by
  obtain ⟨hne, hall⟩ := h
  cases id with
  | nil => exact absurd rfl hne
  | cons c cs =>
      have hc := hall c List.mem_cons_self
      rw [List.head?_cons, bne_iff_ne]
      intro heq
      rw [Option.some.inj heq] at hc
      exact absurd hc (by decide)

/-- The glob takes all files but the hidden ones. -/
theorem mem_glob (C : Collation) (f : Folder) (n : Text) :
    n ∈ glob C f ↔ content f n ≠ none ∧ (n.head? != some '.') = true := by
  have hlookup : content f n ≠ none ↔ n ∈ f.map Prod.fst := by
    rw [content, ne_eq, List.lookup_eq_none_iff, List.mem_map]
    constructor
    · intro h
      by_contra hno
      refine h ?_
      intro p hp
      rw [bne_iff_ne]
      rintro rfl
      exact hno ⟨p, hp, rfl⟩
    · rintro ⟨p, hp, rfl⟩ h
      have := h p hp
      simp at this
  rw [glob, List.mem_mergeSort, List.mem_filter, hlookup]

theorem glob_sorted (C : Collation) (f : Folder) :
    (glob C f).Pairwise (fun a b => C.le a b = true) :=
  List.pairwise_mergeSort C.trans C.total _

/-- After `rm` has taken some names, exactly those are gone. -/
theorem rmStates_content :
    ∀ (names : List Text) (f g : Folder), g ∈ rmStates f names →
      ∃ done rest, names = done ++ rest ∧
        ∀ n, content g n = if n ∈ done then none else content f n := by
  intro names
  induction names with
  | nil => intro f g hg; exact nomatch hg
  | cons first names ih =>
      intro f g hg
      rcases List.mem_cons.mp hg with rfl | hg
      · refine ⟨[first], names, rfl, ?_⟩
        intro n
        rw [content_remove]
        simp
      · obtain ⟨done, rest, rfl, hcontent⟩ := ih (remove f first) g hg
        refine ⟨first :: done, rest, rfl, ?_⟩
        intro n
        rw [hcontent n, content_remove]
        by_cases hd : n ∈ done
        · simp [hd]
        · by_cases hf : n = first <;> simp [hf, hd]

/-- The last state of the `rm` has lost every name. -/
theorem rmStates_final :
    ∀ (names : List Text) (f : Folder) (n : Text),
      content (finalState f (rmStates f names)) n
        = if n ∈ names then none else content f n := by
  intro names
  induction names with
  | nil => intro f n; simp [rmStates, finalState]
  | cons first names ih =>
      intro f n
      have hlast : finalState f (rmStates f (first :: names))
          = finalState (remove f first) (rmStates (remove f first) names) := by
        rw [rmStates, finalState, List.getLastD_cons, finalState]
      rw [hlast, ih (remove f first) n, content_remove]
      by_cases hd : n ∈ names
      · simp [hd]
      · by_cases hf : n = first <;> simp [hf, hd]

/-- **SORTED REMOVAL**: an interrupted `rm` takes the children first. -/
theorem leftover_rmStates (C : Collation) {f g : Folder}
    (hf : Leftover f) (hg : g ∈ rmStates f (glob C f)) : Leftover g := by
  obtain ⟨done, rest, hsplit, hcontent⟩ := rmStates_content _ _ _ hg
  intro id hid hsome hnone
  rw [hcontent] at hsome hnone
  by_cases hidone : id ∈ done
  · exact hsome (if_pos hidone)
  · rw [if_neg hidone] at hsome
    -- `orderdata` is gone and the child is not: it would have gone first
    have hod : orderdataFile ∈ done := by
      by_contra hno
      rw [if_neg hno] at hnone
      exact hf id hid hsome hnone
    have hmem : id ∈ done ++ rest :=
      hsplit ▸ (mem_glob C f id).mpr ⟨hsome, hid.not_hidden⟩
    have hrest : id ∈ rest :=
      (List.mem_append.mp hmem).resolve_left hidone
    have hsorted := glob_sorted C f
    rw [hsplit, List.pairwise_append] at hsorted
    have hle := hsorted.2.2 orderdataFile hod id hrest
    rw [C.digits_first id hid] at hle
    exact absurd hle (by decide)

/-- With the order file there, the next call cleans up. -/
theorem leftover_of_orderdata {f : Folder}
    (h : content f orderdataFile ≠ none) : Leftover f :=
  fun _ _ _ => h

/-- No append takes the order file away. -/
theorem orderdata_kept_appendTo {f : Folder} (name t : Text)
    (h : content f orderdataFile ≠ none) :
    content (appendTo f name t) orderdataFile ≠ none := by
  by_cases hn : orderdataFile = name
  · subst hn
    rw [content_appendTo_self]
    simp
  · rw [content_appendTo_ne hn]
    exact h

theorem orderdata_kept_catInto {f : Folder} (i : Text)
    (h : content f orderdataFile ≠ none) :
    content (catInto f i) orderdataFile ≠ none := by
  rw [catInto]
  split
  · exact h
  · exact orderdata_kept_appendTo _ _ h

theorem orderdata_kept_childStates (call : Call) :
    ∀ (ids : List Text) (f : Folder), content f orderdataFile ≠ none →
      ∀ g ∈ childStates call f ids, content g orderdataFile ≠ none := by
  intro ids
  induction ids with
  | nil => intro f _ g hg; exact nomatch hg
  | cons i is ih =>
      intro f hf g hg
      have h1 := orderdata_kept_appendTo i (call.wget i) hf
      have h2 := orderdata_kept_catInto i h1
      rcases List.mem_cons.mp hg with rfl | hg
      · exact h1
      · rcases List.mem_cons.mp hg with rfl | hg
        · exact h2
        · exact ih _ h2 g hg

/-- The order file is there from the first fetch on. -/
theorem orderdata_kept_fetchStates (call : Call) (f : Folder) :
    ∀ g ∈ fetchStates call f, content g orderdataFile ≠ none := by
  intro g hg
  have h1 : content (appendTo f orderdataFile (call.wget call.orderid))
      orderdataFile ≠ none := by
    rw [content_appendTo_self]
    simp
  rcases List.mem_cons.mp hg with rfl | hg
  · exact h1
  · by_cases hnull : nullChildren <:+:
        (content (appendTo f orderdataFile (call.wget call.orderid))
          orderdataFile).getD []
    · rw [if_pos hnull] at hg
      exact nomatch hg
    · rw [if_neg hnull] at hg
      exact orderdata_kept_childStates call _ _ h1 g hg

/-- The clean-up can be cut off anywhere: the order file goes last. -/
theorem leftover_cleanStates (C : Collation) {f : Folder} (hf : Leftover f) :
    ∀ g ∈ cleanStates C f, Leftover g := by
  intro g hg
  rw [cleanStates] at hg
  split at hg
  · exact leftover_rmStates C hf hg
  · exact nomatch hg

/-- **STEP INVARIANT**: every command of a call keeps the invariant. -/
theorem leftover_orderdata (C : Collation) (call : Call) {f : Folder}
    (hf : Leftover f) : ∀ g ∈ orderdataStates C call f, Leftover g := by
  intro g hg
  rcases List.mem_append.mp hg with hclean | hfetch
  · exact leftover_cleanStates C hf g hclean
  · exact leftover_of_orderdata (orderdata_kept_fetchStates call _ g hfetch)

/-- **ONE CALL**: wherever it is cut off, the next one can clean up. -/
theorem leftover_orderdataCut (C : Collation) (f : Folder)
    (cut : Call × Nat) (hf : Leftover f) : Leftover (orderdataCut C f cut) := by
  rcases List.mem_cons.mp
    (finalState_mem f ((orderdataStates C cut.1 f).take cut.2)) with heq | hmem
  · rw [orderdataCut, heq]
    exact hf
  · exact leftover_orderdata C cut.1 hf _ (List.mem_of_mem_take hmem)

/-- **RUN INVARIANT**: it holds after any sequence of calls, each complete or
    cut off anywhere. -/
theorem leftover_run (C : Collation) {f : Folder} (hf : NoOrderFiles f)
    (earlier : List (Call × Nat)) :
    Leftover (run (orderdataCut C) f earlier) := by
  refine run_invariant Leftover (leftover_orderdataCut C) earlier f ?_
  intro id hid hsome
  exact absurd (hf.2 id hid) hsome

/-- The clean-up leaves no order file behind. -/
theorem clean_noOrderFiles (C : Collation) {f : Folder} (hf : Leftover f) :
    NoOrderFiles (finalState f (cleanStates C f)) := by
  rw [cleanStates]
  cases hod : content f orderdataFile with
  | none =>
      -- nothing is cleared, and by the invariant nothing is there
      rw [if_neg (by simp)]
      refine ⟨hod, ?_⟩
      intro id hid
      by_contra hsome
      exact hf id hid hsome hod
  | some doc =>
      rw [if_pos (by simp)]
      have hgone : ∀ n, (n.head? != some '.') = true →
          content (finalState f (rmStates f (glob C f))) n = none := by
        intro n hn
        rw [rmStates_final]
        by_cases hmem : n ∈ glob C f
        · rw [if_pos hmem]
        · rw [if_neg hmem]
          by_contra hsome
          exact hmem ((mem_glob C f n).mpr ⟨hsome, hn⟩)
      exact ⟨hgone _ rfl, fun id hid => hgone id hid.not_hidden⟩

/-! ## The parent document -/

/-- The key the scripts ask for. -/
def childOrders : Text := "child_orders".toList

/-- A child order id as the document spells it: a string or a number. -/
structure ChildId where
  digits : Text
  isId : IsOrderId digits
  quoted : Bool

/-- The lexical form of an id given as a number. -/
def ChildId.num (i : ChildId) : NumLit where
  digits := i.digits
  nonempty := i.isId.1
  lexical := by
    intro c hc
    simp [isNumChar, i.isId.2 c hc]

def ChildId.json (i : ChildId) : Json :=
  if i.quoted then .str i.digits else .num i.num

/-- A parent document: `child_orders` is a key at the top level and nowhere
    else, its value null or an array of distinct ids. -/
structure Parent where
  before : List (Text × Json)
  after : List (Text × Json)
  ids : Option (List ChildId)
  topOnly : membersHave (fun name _ => decide (name = childOrders))
    (before ++ after) = false
  distinct : ((ids.getD []).map ChildId.digits).Nodup

/-- The value of `child_orders`. -/
def idsJson : Option (List ChildId) → Json
  | none => .null
  | some ids => .arr (ids.map ChildId.json)

def Parent.json (P : Parent) : Json :=
  .obj (P.before ++ (childOrders, idsJson P.ids) :: P.after)

/-- The ids in array order. -/
def Parent.children (P : Parent) : List Text :=
  (P.ids.getD []).map ChildId.digits

/-- One element on an indented line of its own. -/
def jqLine (E : Escaping) (last : Bool) (i : ChildId) : Text :=
  ' ' :: ' ' :: (text E i.json ++ (if last then ['\n'] else [',', '\n']))

def jqLines (E : Escaping) : List ChildId → Text
  | [] => []
  | i :: is => jqLine E is.isEmpty i ++ jqLines E is

/-- How `jq` prints the value of `child_orders`. -/
def jqPrint (E : Escaping) : Option (List ChildId) → Text
  | none => "null\n".toList
  | some [] => "[]\n".toList
  | some (i :: is) => "[\n".toList ++ jqLines E (i :: is) ++ "]\n".toList

/-- The characters `tr -d` lets through. -/
def trKeeps (c : Char) : Bool :=
  !(c == '"' || c == '[' || c == ']' || c == ',')

theorem IsOrderId.isWord {id : Text} (h : IsOrderId id) : IsWord id :=
  ⟨h.1, fun c hc => isBlank_eq_false ⟨rfl, rfl, rfl⟩ (h.2 c hc)⟩

theorem IsOrderId.isPlain {id : Text} (h : IsOrderId id) :
    ∀ c ∈ id, isPlain c = true := by
  intro c hc
  have hd := h.2 c hc
  simp [JsonText.isPlain, Char.isAlphanum, hd]

theorem IsOrderId.trKeeps {id : Text} (h : IsOrderId id) :
    id.filter trKeeps = id := by
  rw [List.filter_eq_self]
  intro c hc
  have hd := h.2 c hc
  rw [SetupOrderData.trKeeps]
  cases hb : (c == '"' || c == '[' || c == ']' || c == ',') with
  | false => rfl
  | true =>
      simp only [Bool.or_eq_true, beq_iff_eq] at hb
      rcases hb with ((rfl | rfl) | rfl) | rfl <;> exact absurd hd (by decide)

/-- `tr` reduces an element to its digits. -/
theorem filter_text_json (E : Escaping) (i : ChildId) :
    (text E i.json).filter trKeeps = i.digits := by
  have hid := i.isId.trKeeps
  rw [ChildId.json]
  cases i.quoted with
  | false =>
      rw [if_neg (by decide), text]
      exact hid
  | true =>
      rw [if_pos rfl, text, strTok, escape_plain E i.isId.isPlain]
      have hq : trKeeps '"' = false := rfl
      simp [hq, hid]

/-- The printed ids come back as words. -/
theorem splitWords_jqLines (E : Escaping) (rest : Text) :
    ∀ ids : List ChildId,
      splitWords ((jqLines E ids).filter trKeeps ++ '\n' :: rest)
        = ids.map ChildId.digits ++ splitWords rest := by
  intro ids
  induction ids with
  | nil => exact splitWords_blank rfl rest
  | cons i is ih =>
      -- `tr` leaves two blanks, the digits and the newline of each line
      have hblank : trKeeps ' ' = true := rfl
      have hend : (if is.isEmpty then ['\n'] else [',', '\n']).filter trKeeps
          = ['\n'] := by
        cases is <;> rfl
      have hline : (jqLines E (i :: is)).filter trKeeps
          = ' ' :: ' ' :: (i.digits
              ++ '\n' :: (jqLines E is).filter trKeeps) := by
        rw [jqLines, jqLine, List.filter_append, List.filter_cons,
          List.filter_cons, List.filter_append, filter_text_json, hend]
        simp [hblank]
      rw [hline, List.cons_append, List.cons_append,
        splitWords_blank rfl, splitWords_blank rfl,
        List.append_assoc, splitWords_word i.isId.isWord (by
          intro c hc
          rw [← Option.some.inj hc]
          decide),
        List.cons_append, splitWords_blank rfl, ih]
      rfl

/-- **THE IDS SURVIVE**: printed by `jq`, stripped by `tr` and split into
    words, they are the ids of the document. -/
theorem children_jqPrint (E : Escaping) {jq : Text → Text} {doc : Text}
    (P : Parent) (hids : P.ids ≠ none) (hjq : jq doc = jqPrint E P.ids) :
    SetupOrderData.children jq doc = P.children := by
  rw [SetupOrderData.children, Parent.children]
  rw [hjq]
  change splitWords ((jqPrint E P.ids).filter trKeeps) = _
  cases hcase : P.ids with
  | none => exact absurd hcase hids
  | some ids =>
      cases ids with
      | nil =>
          show splitWords (("[]\n".toList).filter trKeeps) = []
          rfl
      | cons i is =>
          have hopen : ("[\n".toList).filter trKeeps = ['\n'] := rfl
          have hclose : ("]\n".toList).filter trKeeps = ['\n'] := rfl
          rw [jqPrint, List.filter_append, List.filter_append, hopen, hclose,
            List.append_assoc, List.singleton_append,
            splitWords_blank rfl,
            splitWords_jqLines E [] (i :: is)]
          simp

/-! ## What the guard finds -/

/-- A null member whose name only ends in `child_orders`, after a quote. -/
def lookalike (name : Text) (j : Json) : Bool :=
  decide ('"' :: childOrders <:+ name) && isNull j

theorem nullChildren_eq :
    nullChildren = memberPat childOrders "null".toList := by
  rfl

/-- The ids are no members. -/
theorem idsJson_no_member (p : Text → Json → Bool)
    (ids : Option (List ChildId)) : hasMember p (idsJson ids) = false := by
  cases ids with
  | none => rfl
  | some ids =>
      rw [idsJson, hasMember]
      induction ids with
      | nil => rfl
      | cons i is ih =>
          rw [List.map_cons, elemsHave, ih, ChildId.json]
          cases i.quoted <;> rfl

/-- Away from the top-level key a member passes the search only as a
    lookalike. -/
theorem membersHave_lookalike {members : List (Text × Json)}
    (hother : membersHave (fun name _ => decide (name = childOrders)) members
      = false) :
    membersHave (memberTest childOrders isNull) members
      = membersHave lookalike members := by
  have hto : membersHave (memberTest childOrders isNull) members = true →
      membersHave (fun name j => decide (name = childOrders)
        || lookalike name j) members = true := by
    refine membersHave_mono ?_ members
    intro name j h
    simp only [memberTest, looksLike, lookalike, Bool.and_eq_true,
      Bool.or_eq_true, decide_eq_true_eq] at h ⊢
    exact h.1.imp id (fun hs => ⟨hs, h.2⟩)
  have hback : membersHave lookalike members = true →
      membersHave (memberTest childOrders isNull) members = true := by
    refine membersHave_mono ?_ members
    intro name j h
    simp only [memberTest, looksLike, lookalike, Bool.and_eq_true,
      Bool.or_eq_true, decide_eq_true_eq] at h ⊢
    exact ⟨Or.inr h.1, h.2⟩
  rw [Bool.eq_iff_iff]
  constructor
  · intro h
    have hor := hto h
    rw [membersHave_or, hother, Bool.false_or] at hor
    exact hor
  · exact hback

/-- **THE GUARD**: the search succeeds iff `child_orders` is null or the
    document has a lookalike. -/
theorem nullChildren_infix_iff (E : Escaping) (P : Parent) :
    nullChildren <:+: text E P.json
      ↔ P.ids = none ∨ hasMember lookalike P.json = true := by
  have hother := P.topOnly
  rw [membersHave_append, Bool.or_eq_false_iff] at hother
  have hsearch := @occursIn_text E childOrders "null".toList isNull
    (by decide) (List.all_eq_true.mp rfl)
    (fun j rest _ => null_prefix_text E j rest) P.json [] stops_nil
  rw [occursIn_nil (by simp [memberPat])] at hsearch
  rw [nullChildren_eq, hsearch, Parent.json, hasMember, hasMember,
    membersHave_append, membersHave_append, membersHave, membersHave,
    membersHave_lookalike hother.1, membersHave_lookalike hother.2,
    idsJson_no_member, idsJson_no_member]
  have hkey : memberTest childOrders isNull childOrders (idsJson P.ids)
      = isNull (idsJson P.ids) := by
    simp [memberTest, looksLike]
  have hlook : lookalike childOrders (idsJson P.ids) = false := by
    have : decide ('"' :: childOrders <:+ childOrders) = false := rfl
    rw [lookalike, this, Bool.false_and]
  have hnull : isNull (idsJson P.ids) = true ↔ P.ids = none := by
    cases P.ids <;> simp [idsJson, isNull]
  rw [hkey, hlook]
  simp only [Bool.or_false, Bool.false_or, Bool.or_eq_true, hnull]
  tauto

/-! ## The complete call -/

/-- **ONE PASS** of the child loop: one more document in `orderdata`, one more
    file, nothing else. -/
theorem childPass_content (call : Call) {f : Folder} {i doc : Text}
    (hi : IsOrderId i) (hod : content f orderdataFile = some doc)
    (hnone : content f i = none) :
    content (catInto (appendTo f i (call.wget i)) i) orderdataFile
        = some (doc ++ call.wget i)
      ∧ content (catInto (appendTo f i (call.wget i)) i) i
        = some (call.wget i)
      ∧ ∀ n, n ≠ orderdataFile → n ≠ i →
        content (catInto (appendTo f i (call.wget i)) i) n = content f n := by
  have hne := hi.ne_orderdata
  have hcat : catInto (appendTo f i (call.wget i)) i
      = appendTo (appendTo f i (call.wget i)) orderdataFile
          (call.wget i) := by
    rw [catInto, if_neg hne, content_appendTo_self, hnone]
    rfl
  rw [hcat]
  refine ⟨?_, ?_, ?_⟩
  · rw [content_appendTo_self, content_appendTo_ne (Ne.symm hne), hod]
    rfl
  · rw [content_appendTo_ne hne, content_appendTo_self, hnone]
    rfl
  · intro n hno hni
    rw [content_appendTo_ne hno, content_appendTo_ne hni]

/-- The child loop appends every document and leaves one file for each id. -/
theorem childStates_final (call : Call) :
    ∀ (ids : List Text) (f : Folder) (doc : Text),
      (∀ id ∈ ids, IsOrderId id) → ids.Nodup →
      content f orderdataFile = some doc →
      (∀ id ∈ ids, content f id = none) →
      content (finalState f (childStates call f ids)) orderdataFile
          = some (doc ++ ids.flatMap call.wget)
        ∧ (∀ id ∈ ids, content (finalState f (childStates call f ids)) id
            = some (call.wget id))
        ∧ ∀ n, n ∉ ids → n ≠ orderdataFile →
            content (finalState f (childStates call f ids)) n
              = content f n := by
  intro ids
  induction ids with
  | nil =>
      intro f doc _ _ hod _
      refine ⟨?_, ?_, ?_⟩
      · simp [childStates, finalState, hod]
      · intro id hid
        exact absurd hid List.not_mem_nil
      · intro n _ _
        rfl
  | cons i is ih =>
      intro f doc hids hnodup hod hnone
      obtain ⟨hnot, hnodup'⟩ := List.nodup_cons.mp hnodup
      have hi := hids i List.mem_cons_self
      obtain ⟨hod', hi', hrest⟩ :=
        childPass_content call hi hod (hnone i List.mem_cons_self)
      have hlast : finalState f (childStates call f (i :: is))
          = finalState (catInto (appendTo f i (call.wget i)) i)
              (childStates call (catInto (appendTo f i (call.wget i)) i)
                is) := by
        rw [childStates, finalState, List.getLastD_cons, List.getLastD_cons,
          finalState]
      have hids' : ∀ id ∈ is, IsOrderId id :=
        fun id hid => hids id (List.mem_cons_of_mem _ hid)
      -- the files of the later ids are still missing
      have hnone' : ∀ id ∈ is,
          content (catInto (appendTo f i (call.wget i)) i) id = none := by
        intro id hid
        have hne : id ≠ i := by
          rintro rfl
          exact hnot hid
        rw [hrest id (hids' id hid).ne_orderdata hne]
        exact hnone id (List.mem_cons_of_mem _ hid)
      obtain ⟨h1, h2, h3⟩ := ih _ _ hids' hnodup' hod' hnone'
      rw [hlast]
      refine ⟨?_, ?_, ?_⟩
      · rw [h1, List.flatMap_cons, List.append_assoc]
      · intro id hid
        rcases List.mem_cons.mp hid with rfl | hmem
        · rw [h3 id hnot hi.ne_orderdata, hi']
        · exact h2 id hmem
      · intro n hn hno
        rw [List.mem_cons, not_or] at hn
        rw [h3 n hn.2 hno, hrest n hno hn.1]

/-- The merged file and the child files are exactly the fetched documents. -/
def Exact (call : Call) (parent : Text) (ids : List Text) (f : Folder) :
    Prop :=
  content f orderdataFile = some (parent ++ ids.flatMap call.wget)
    ∧ ∀ id ∈ ids, content f id = some (call.wget id)

/-- Every child has an order number. -/
theorem Parent.children_isId (P : Parent) :
    ∀ id ∈ P.children, IsOrderId id := by
  intro id hid
  obtain ⟨i, -, rfl⟩ := List.mem_map.mp hid
  exact i.isId

/-- A fetch that the guard cuts short is exact only without children. -/
theorem exact_parent_iff (call : Call) {doc : Text} {ids : List Text}
    {f : Folder} (hod : content f orderdataFile = some doc)
    (hnone : ∀ id ∈ ids, content f id = none) :
    Exact call doc ids f ↔ ids = [] := by
  constructor
  · rintro ⟨-, hfiles⟩
    cases ids with
    | nil => rfl
    | cons id rest =>
        have hmissing := hnone id List.mem_cons_self
        rw [hfiles id List.mem_cons_self] at hmissing
        exact nomatch hmissing
  · rintro rfl
    refine ⟨?_, ?_⟩
    · rw [hod]
      simp
    · intro id hid
      exact absurd hid List.not_mem_nil

/-- The fetch, from a folder without order files. -/
theorem fetch_exact_iff (E : Escaping) (call : Call) (P : Parent)
    {f : Folder} (hf : NoOrderFiles f)
    (hparent : call.wget call.orderid = text E P.json)
    (hjq : call.jq (text E P.json) = jqPrint E P.ids) :
    Exact call (text E P.json) P.children
        (finalState f (fetchStates call f))
      ↔ P.children = [] ∨ hasMember lookalike P.json = false := by
  have hod : content (appendTo f orderdataFile (call.wget call.orderid))
      orderdataFile = some (text E P.json) := by
    rw [content_appendTo_self, hf.1, hparent]
    rfl
  have hnone : ∀ id ∈ P.children,
      content (appendTo f orderdataFile (call.wget call.orderid)) id
        = none := by
    intro id hid
    have hid' := P.children_isId id hid
    rw [content_appendTo_ne hid'.ne_orderdata]
    exact hf.2 id hid'
  have hguard := nullChildren_infix_iff E P
  have hstates : finalState f (fetchStates call f)
      = finalState (appendTo f orderdataFile (call.wget call.orderid))
          (if nullChildren <:+: text E P.json then []
            else childStates call
              (appendTo f orderdataFile (call.wget call.orderid))
              (SetupOrderData.children call.jq (text E P.json))) := by
    rw [fetchStates, finalState, List.getLastD_cons, finalState, hod]
    rfl
  rw [hstates]
  by_cases hfound : nullChildren <:+: text E P.json
  · -- no child is fetched
    rw [if_pos hfound]
    refine (exact_parent_iff call hod hnone).trans ⟨Or.inl, ?_⟩
    rintro (hempty | hlook)
    · exact hempty
    · rcases hguard.mp hfound with hids | hlook'
      · simp [Parent.children, hids]
      · exact absurd (hlook.symm.trans hlook') (by decide)
  · -- all children are fetched
    rw [if_neg hfound]
    obtain ⟨hids, hlook⟩ := not_or.mp (mt hguard.mpr hfound)
    rw [children_jqPrint E P hids hjq]
    obtain ⟨h1, h2, -⟩ := childStates_final call P.children
      (appendTo f orderdataFile (call.wget call.orderid)) (text E P.json)
      P.children_isId P.distinct hod hnone
    exact iff_of_true ⟨h1, h2⟩ (Or.inr (Bool.eq_false_iff.mpr hlook))

/-- **THE MERGED ORDER FILE**: after any calls before it, complete or cut off
    anywhere, a complete call leaves exactly the parent and its children iff
    the document has no children or no lookalike of a null `child_orders`. -/
theorem orderdata_exact_iff (C : Collation) (E : Escaping) (call : Call)
    (P : Parent) (f : Folder) (earlier : List (Call × Nat))
    (hf : NoOrderFiles f)
    (hparent : call.wget call.orderid = text E P.json)
    (hjq : call.jq (text E P.json) = jqPrint E P.ids) :
    Exact call (text E P.json) P.children
        (orderdata C call (run (orderdataCut C) f earlier))
      ↔ P.children = [] ∨ hasMember lookalike P.json = false := by
  have hleft := leftover_run C hf earlier
  rw [orderdata, orderdataStates, finalState_append]
  exact fetch_exact_iff E call P (clean_noOrderFiles C hleft) hparent hjq

/-! ### A parent with one child -/

/-- The child order `1`, spelled as a string. -/
def childOne : ChildId where
  digits := ['1']
  isId := ⟨by decide, List.all_eq_true.mp rfl⟩
  quoted := true

/-- `{"child_orders":["1"]}`. -/
def plainParent : Parent where
  before := []
  after := []
  ids := some [childOne]
  topOnly := rfl
  distinct := by decide

/-- `{"x\"child_orders":null,"child_orders":["1"]}`. -/
def lookalikeParent : Parent where
  before := [("x\"child_orders".toList, .null)]
  after := []
  ids := some [childOne]
  topOnly := rfl
  distinct := by decide

/-- Order `2` is the given parent, every other order an empty document. -/
def callFor (P : Parent) : Call where
  orderid := ['2']
  wget id := if id = ['2'] then text plainEscaping P.json else "\x7b\x7d".toList
  jq _ := jqPrint plainEscaping P.ids

/-- The law at a call cut off after its second command, followed by a
    complete one. -/
theorem orderdata_exact_plain :
    Exact (callFor plainParent) (text plainEscaping plainParent.json)
        plainParent.children
        (orderdata cLocale (callFor plainParent)
          (run (orderdataCut cLocale) [] [(callFor plainParent, 2)]))
      ↔ plainParent.children = []
        ∨ hasMember lookalike plainParent.json = false :=
  orderdata_exact_iff cLocale plainEscaping (callFor plainParent) plainParent
    [] [(callFor plainParent, 2)] ⟨rfl, fun _ _ => rfl⟩ rfl rfl

/-- The guard takes the null member for `child_orders`, and the child is
    never fetched. -/
theorem orderdata_lookalike_missed :
    ¬ ∀ (C : Collation) (E : Escaping) (call : Call) (P : Parent)
        (f : Folder) (earlier : List (Call × Nat)), NoOrderFiles f →
        call.wget call.orderid = text E P.json →
        call.jq (text E P.json) = jqPrint E P.ids →
        Exact call (text E P.json) P.children
          (orderdata C call (run (orderdataCut C) f earlier)) := by
  intro hall
  have h := (hall cLocale plainEscaping (callFor lookalikeParent)
    lookalikeParent [] [] ⟨rfl, fun _ _ => rfl⟩ rfl rfl).2 ['1'] (by decide)
  exact absurd h (by decide)

end SetupOrderData
