import InstallLinux.SetupOrderDataProofs

/-! # The courtesy software — four installers behind one kind of search

    Each installer asks the merged order file whether the order names its
    product, by a `grep` for `"name":"<product>"`.  The file is every order
    document in compact form, one behind the other without a separator.

    * `occursIn_docs`: the search goes through the documents one by one, a
      border between two of them adds nothing, since a document begins with a
      brace;
    * `guard_orderFile`: with names free of quotes the search answers the JSON
      question exactly. -/

namespace SetupSoftware

open ShellText ShellRun JsonText SetupOrderData

/-! ## The installers -/

/-- What an installer runs behind its guard. -/
def installIf (pat : Text) (commands : List String) (lines : List Text) :
    List String :=
  if grep pat lines then commands else []

def virtualboxName : Text := "\"name\":\"VirtualBox\"".toList

def chromeName : Text := "\"name\":\"Chrome\"".toList

def readerName : Text := "\"name\":\"Acrobat Reader\"".toList

def vlcName : Text := "\"name\":\"VLC\"".toList

def softVirtualbox : List Text → List String :=
  installIf virtualboxName
    ["sudo DEBIAN_FRONTEND=nointeractive apt install virtualbox -y"]

def softChrome : List Text → List String :=
  installIf chromeName
    ["wget https://dl.google.com/linux/direct/google-chrome-stable_current_amd64.deb",
     "sudo dpkg -i google-chrome-stable_current_amd64.deb",
     "sudo rm -r google-chrome-stable*"]

def softReader : List Text → List String :=
  installIf readerName
    ["sudo dpkg --add-architecture i386",
     "sudo sudo DEBIAN_FRONTEND=nointeractive apt install libxml2:i386 libcanberra-gtk-module:i386 gtk2-engines-murrine:i386 libatk-adaptor:i386 libgdk-pixbuf-xlib-2.0-0:i386 -y",
     "wget -P ~/install ftp://ftp.adobe.com/pub/adobe/reader/unix/9.x/9.5.5/enu/AdbeRdr9.5.5-1_i386linux_enu.deb",
     "sudo dpkg -i ~/install/AdbeRdr9.5.5-1_i386linux_enu.deb",
     "sudo rm -r ~/install/AdbeRdr9.5.5-1_i386linux_enu.deb"]

def softVlc : List Text → List String :=
  installIf vlcName
    ["sudo DEBIAN_FRONTEND=nointeractive apt install vlc -y"]

/-- The courtesy products. -/
inductive Product where
  | virtualbox
  | chrome
  | reader
  | vlc

/-- A product as the order spells it. -/
def Product.name : Product → Text
  | .virtualbox => "VirtualBox".toList
  | .chrome => "Chrome".toList
  | .reader => "Acrobat Reader".toList
  | .vlc => "VLC".toList

/-- The text its guard searches for. -/
def Product.guard : Product → Text
  | .virtualbox => virtualboxName
  | .chrome => chromeName
  | .reader => readerName
  | .vlc => vlcName

/-- Its installer. -/
def Product.soft : Product → List Text → List String
  | .virtualbox => softVirtualbox
  | .chrome => softChrome
  | .reader => softReader
  | .vlc => softVlc

/-- What the installer runs behind its guard. -/
def Product.commands (p : Product) : List String := p.soft [p.guard]

/-! ## The merged file -/

/-- An order document: an object, no member name of which holds a quote. -/
structure OrderDoc where
  members : List (Text × Json)
  names : membersHave (fun name _ => name.contains '"') members = false

def OrderDoc.json (d : OrderDoc) : Json := .obj d.members

/-- The file `orderdata` after the documents have been appended in turn. -/
def orderFile (docs : List Text) : Text :=
  (content (run (fun f doc => appendTo f orderdataFile doc) [] docs)
    orderdataFile).getD []

/-- Documents are written one behind the other. -/
theorem content_run_appendTo (docs : List Text) (f : Folder) :
    (content (run (fun f doc => appendTo f orderdataFile doc) f docs)
        orderdataFile).getD []
      = (content f orderdataFile).getD [] ++ docs.flatten := by
  induction docs generalizing f with
  | nil => simp
  | cons doc rest ih =>
      rw [run_cons, ih, content_appendTo_self]
      simp

/-- Appending is plain concatenation. -/
theorem orderFile_eq (docs : List Text) : orderFile docs = docs.flatten :=
  content_run_appendTo docs []

/-- A complete call leaves that file, the parent in front. -/
theorem orderFile_of_exact {call : Call} {parent : Text} {ids : List Text}
    {f : Folder} (h : Exact call parent ids f) :
    content f orderdataFile = some (orderFile (parent :: ids.map call.wget)) := by
  rw [h.1, orderFile_eq, List.flatten_cons, List.flatMap_def]

/-! ## The search -/

/-- The value is exactly that string. -/
def isString (p : Text) : Json → Bool
  | .str s => s == p
  | .null => false
  | .bool _ => false
  | .num _ => false
  | .arr _ => false
  | .obj _ => false

/-- The member the question asks for: key `name`, value the product. -/
def isNamed (p name : Text) (j : Json) : Bool :=
  name == "name".toList && isString p j

theorem Product.guard_eq (p : Product) :
    p.guard = memberPat "name".toList ('"' :: (p.name ++ ['"'])) := by
  cases p <;> decide

theorem Product.guard_line (p : Product) :
    p.guard ≠ [] ∧ '\n' ∉ p.guard := by
  cases p <;> decide

theorem Product.name_plain (p : Product) :
    ∀ c ∈ p.name, isPlain c = true := by
  cases p <;> exact List.all_eq_true.mp rfl

section Search

variable (E : Escaping)

/-- A value prints as the quoted product iff it is that string. -/
theorem string_prefix_text {p : Text} (hp : ∀ c ∈ p, isPlain c = true)
    (j : Json) (rest : Text) :
    ('"' :: (p ++ ['"'])) <+: text E j ++ rest ↔ isString p j = true := by
  cases j with
  | str s =>
      rw [text, strTok, List.cons_append, List.cons_prefix_cons,
        List.append_assoc, List.singleton_append, prefix_escape_iff E hp]
      simp [isString]
  | null =>
      refine iff_of_false ?_ (by simp [isString])
      rw [text]
      simp
  | bool b =>
      refine iff_of_false ?_ (by simp [isString])
      cases b <;> (rw [text]; simp)
  | num n =>
      refine iff_of_false ?_ (by simp [isString])
      rw [text]
      intro h
      -- a number begins with a digit or a sign, and is not empty
      have hquote : '"' ∈ n.digits := by
        obtain ⟨digits, hne, hlex⟩ := n
        cases digits with
        | nil => exact absurd rfl hne
        | cons c cs =>
            rw [List.cons_append, List.cons_prefix_cons] at h
            exact h.1 ▸ List.mem_cons_self
      exact numLit_no_quote n hquote
  | arr elems =>
      refine iff_of_false ?_ (by simp [isString])
      rw [text]
      simp
  | obj members =>
      refine iff_of_false ?_ (by simp [isString])
      rw [text]
      simp

/-- Without quotes in the names only the key itself looks like the key. -/
theorem hasMember_isNamed (p : Text) (d : OrderDoc) :
    hasMember (memberTest "name".toList (isString p)) d.json
      = hasMember (isNamed p) d.json := by
  have hto : hasMember (memberTest "name".toList (isString p)) d.json = true →
      hasMember (fun name j => name.contains '"' || isNamed p name j) d.json
        = true := by
    refine hasMember_mono ?_ d.json
    intro name j h
    simp only [memberTest, looksLike, isNamed, Bool.and_eq_true,
      Bool.or_eq_true, decide_eq_true_eq, beq_iff_eq,
      List.contains_iff_mem] at h ⊢
    obtain ⟨heq | hsuffix, hj⟩ := h
    · exact Or.inr ⟨heq, hj⟩
    · exact Or.inl (hsuffix.subset List.mem_cons_self)
  have hback : hasMember (isNamed p) d.json = true →
      hasMember (memberTest "name".toList (isString p)) d.json = true := by
    refine hasMember_mono ?_ d.json
    intro name j h
    simp only [memberTest, looksLike, isNamed, Bool.and_eq_true,
      Bool.or_eq_true, decide_eq_true_eq, beq_iff_eq] at h ⊢
    exact ⟨Or.inl h.1, h.2⟩
  have hnames : hasMember (fun name _ => name.contains '"') d.json = false :=
    d.names
  rw [Bool.eq_iff_iff]
  constructor
  · intro h
    have hor := hto h
    rw [hasMember_or, hnames, Bool.false_or] at hor
    exact hor
  · exact hback

/-- The text of the documents, one behind the other. -/
def docsText (docs : List OrderDoc) : Text :=
  (docs.map (fun d => text E d.json)).flatten

/-- Behind a document comes the brace of the next one, or nothing. -/
theorem stops_docsText (docs : List OrderDoc) : Stops (docsText E docs) := by
  intro c hc
  cases docs with
  | nil => exact absurd hc (by simp [docsText])
  | cons d ds =>
      have hhead : (docsText E (d :: ds)).head? = some '\x7b' := by
        rw [docsText, List.map_cons, List.flatten_cons, OrderDoc.json, text]
        rfl
      rw [hhead] at hc
      exact Option.some.inj hc ▸ by decide

/-- **DOCUMENT BY DOCUMENT**: the search finds the product iff it finds it in
    one of the documents. -/
theorem occursIn_docs (p : Product) (docs : List OrderDoc) :
    occursIn p.guard (docsText E docs) []
      ↔ ∃ d ∈ docs, hasMember (isNamed p.name) d.json = true := by
  induction docs with
  | nil => simp [docsText, occursIn]
  | cons d ds ih =>
      have hfirst : occursIn p.guard (text E d.json) (docsText E ds)
          ↔ hasMember (isNamed p.name) d.json = true := by
        rw [p.guard_eq, occursIn_text E (by decide)
          (List.all_eq_true.mp rfl)
          (fun j rest _ => string_prefix_text E p.name_plain j rest)
          d.json _ (stops_docsText E ds), hasMember_isNamed]
      have hsplit : docsText E (d :: ds) = text E d.json ++ docsText E ds := by
        rw [docsText, List.map_cons, List.flatten_cons, docsText]
      rw [hsplit, occursIn_append, List.append_nil, hfirst, ih,
        List.exists_mem_cons_iff]

/-- The guard on the merged file. -/
theorem guard_orderFile (p : Product) (docs : List OrderDoc) :
    grep p.guard (fileLines (orderFile (docs.map (fun d => text E d.json))))
        = true
      ↔ ∃ d ∈ docs, hasMember (isNamed p.name) d.json = true := by
  obtain ⟨hne, hnl⟩ := p.guard_line
  rw [grep_fileLines hne hnl, orderFile_eq, ← occursIn_nil hne]
  exact occursIn_docs E p docs

/-- An installer is its guard and its commands. -/
theorem soft_eq (p : Product) (lines : List Text) :
    p.soft lines = if grep p.guard lines then p.commands else [] := by
  cases p <;> rfl

/-- An installer runs iff its guard finds the product. -/
theorem soft_ne_nil_iff (p : Product) (lines : List Text) :
    p.soft lines ≠ [] ↔ grep p.guard lines = true := by
  have hcommands : p.commands ≠ [] := by
    cases p <;> decide
  rw [soft_eq]
  by_cases h : grep p.guard lines = true
  · rw [if_pos h]
    exact iff_of_true hcommands h
  · rw [if_neg h]
    exact iff_of_false (fun hne => hne rfl) h

/-- **THE COURTESY SOFTWARE**: on the merged file of any order documents the
    guard matches, and the installer runs, iff some document has, at any depth,
    a member `name` whose value is the product. -/
theorem soft_exact (p : Product) (docs : List OrderDoc) :
    (grep p.guard (fileLines (orderFile (docs.map (fun d => text E d.json))))
        = true
      ↔ ∃ d ∈ docs, hasMember (isNamed p.name) d.json = true)
    ∧ (p.soft (fileLines (orderFile (docs.map (fun d => text E d.json)))) ≠ []
      ↔ ∃ d ∈ docs, hasMember (isNamed p.name) d.json = true) := by
  have hguard := guard_orderFile E p docs
  exact ⟨hguard, (soft_ne_nil_iff p _).trans hguard⟩

end Search

/-- The product's name inside a string value, and behind a border, is no
    match. -/
example : softVlc (fileLines (orderFile
    ["\x7b\"note\":\"a \\\"name\\\":\\\"VLC\\\"\"\x7d".toList,
     "\x7b\"name\":\"VLC player\"\x7d".toList])) = [] := rfl

end SetupSoftware
