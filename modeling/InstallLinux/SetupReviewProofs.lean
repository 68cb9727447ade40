import InstallLinux.SetupSoftwareProofs
import InstallLinux.SetupTitleBarProofs

/-! # Courtesy software in the review — two searches, two styles

    The installers of `software.sh` look for `"name":"<product>"`, without a
    blank, as every other search of the order file does.  `review.sh` opens its
    section on courtesy software on `"category": "Software: Courtesy Install",`
    with a blank behind the colon.

    * `section_reports`: where the section is written, it names exactly the
      products whose path is there;
    * a compact document never opens it (`category_not_compact`), a document
      with blanks never installs anything (`guard_not_spaced`);
    * `review_agrees_iff`: so the two agree only where nothing is installed. -/

namespace SetupReview

open ShellText JsonText SetupSoftware SetupTitleBar

/-! ## The section of `review.sh` -/

/-- What `review.sh` searches the order file for. -/
def courtesyCategory : Text :=
  "\"category\": \"Software: Courtesy Install\",".toList

/-- The path that is tested for a product. -/
def reviewPath : Product → Text
  | .reader => "/opt/Adobe/Reader9/bin/acroread".toList
  | .chrome => "/opt/google/chrome/chrome".toList
  | .virtualbox => "/usr/lib/VirtualBox".toList
  | .vlc => "/usr/bin/vlc".toList

/-- The line that reports it. -/
def reviewLine : Product → Text
  | .reader => "Adobe Reader is installed".toList
  | .chrome => "Google Chrome is installed".toList
  | .virtualbox => "Oracle VirtualBox is installed".toList
  | .vlc => "VLC is installed".toList

/-- `if test -f <path>; then echo "<line>" >>~/install/reviewdata; fi`. -/
def reviewProduct (isFile : Text → Bool) (p : Product) (reviewdata : Text) :
    Text :=
  if isFile (reviewPath p) then reviewdata ++ (reviewLine p ++ ['\n'])
  else reviewdata

/-- The section, on the lines of the order file. -/
def courtesySection (orderdata : List Text) (isFile : Text → Bool)
    (reviewdata : Text) : Text :=
  if grep courtesyCategory orderdata then
    let reviewdata := header "Courtesy Software".toList reviewdata
    let reviewdata := reviewProduct isFile .reader reviewdata
    let reviewdata := reviewProduct isFile .chrome reviewdata
    let reviewdata := reviewProduct isFile .virtualbox reviewdata
    reviewProduct isFile .vlc reviewdata
  else reviewdata

/-! ## The installers before it -/

/-- The installers in the order of `master.sh`. -/
def products : List Product := [.virtualbox, .chrome, .reader, .vlc]

/-- The files once the installers have run, each of which puts its path in
    place. -/
def filesAfter (orderdata : List Text) (isFile : Text → Bool) (file : Text) :
    Bool :=
  isFile file
    || products.any (fun p => !(p.soft orderdata).isEmpty && reviewPath p == file)

/-- The review adds the product's line to the report. -/
def Reported (p : Product) (orderdata : List Text) (isFile : Text → Bool)
    (reviewdata : Text) : Prop :=
  ∃ added, courtesySection orderdata isFile reviewdata = reviewdata ++ added
    ∧ reviewLine p ∈ fileLines added

/-- Every product that is installed for the order is reported afterwards. -/
def Agrees (orderdata : List Text) (isFile : Text → Bool) (reviewdata : Text) :
    Prop :=
  ∀ p : Product, p.soft orderdata ≠ [] →
    Reported p orderdata (filesAfter orderdata isFile) reviewdata

/-! ## What the section says -/

/-- The line on a product, if it is there. -/
def productLine (isFile : Text → Bool) (p : Product) : List Text :=
  if isFile (reviewPath p) then [reviewLine p] else []

/-- The lines on the products. -/
def productLines (isFile : Text → Bool) : List Text :=
  [.reader, .chrome, .virtualbox, .vlc].flatMap (productLine isFile)

/-- One product adds its line, if its file is there. -/
theorem reviewProduct_eq (isFile : Text → Bool) (p : Product)
    (reviewdata : Text) :
    reviewProduct isFile p reviewdata
      = reviewdata ++ unlines (productLine isFile p) := by
  rw [reviewProduct, productLine]
  by_cases h : isFile (reviewPath p) = true
  · rw [if_pos h, if_pos h, unlines, List.flatMap_singleton]
  · rw [if_neg h, if_neg h, unlines, List.flatMap_nil, List.append_nil]

/-- A line stands for a product whose file is there. -/
theorem mem_productLines {isFile : Text → Bool} {line : Text} :
    line ∈ productLines isFile
      ↔ ∃ p, isFile (reviewPath p) = true ∧ line = reviewLine p := by
  rw [productLines, List.mem_flatMap]
  constructor
  · rintro ⟨p, -, hline⟩
    rw [productLine] at hline
    by_cases h : isFile (reviewPath p) = true
    · rw [if_pos h, List.mem_singleton] at hline
      exact ⟨p, h, hline⟩
    · rw [if_neg h] at hline
      exact absurd hline List.not_mem_nil
  · rintro ⟨p, h, rfl⟩
    refine ⟨p, by cases p <;> simp, ?_⟩
    rw [productLine, if_pos h]
    exact List.mem_singleton_self _

/-- The section is the header and a line for each product that is there. -/
theorem courtesySection_eq {orderdata : List Text}
    (h : grep courtesyCategory orderdata = true) (isFile : Text → Bool)
    (reviewdata : Text) :
    courtesySection orderdata isFile reviewdata
      = header "Courtesy Software".toList reviewdata
        ++ unlines (productLines isFile) := by
  rw [courtesySection, if_pos h]
  simp only [reviewProduct_eq, productLines, unlines]
  simp

theorem newline_not_mem_reviewLine (p : Product) : '\n' ∉ reviewLine p := by
  cases p <;> decide

theorem reviewLine_injective {p q : Product}
    (h : reviewLine p = reviewLine q) : p = q := by
  cases p <;> cases q <;> first | rfl | exact absurd h (by decide)

theorem courtesyTitle_chars :
    ∀ c ∈ "Courtesy Software".toList, isTitleChar c = true :=
  List.all_eq_true.mp rfl

/-- **THE SECTION**: where it is written, a product is reported iff its path is
    a file. -/
theorem section_reports {orderdata : List Text} {reviewdata : Text}
    (h : grep courtesyCategory orderdata = true) (hr : Complete reviewdata)
    (isFile : Text → Bool) (p : Product) :
    Reported p orderdata isFile reviewdata ↔ isFile (reviewPath p) = true := by
  have hheader := headerLines_spec (by decide) courtesyTitle_chars
  have hsection : courtesySection orderdata isFile reviewdata
      = reviewdata ++ unlines
          (headerLines "Courtesy Software".toList ++ productLines isFile) := by
    rw [courtesySection_eq h, header_eq hr (by decide) courtesyTitle_chars,
      List.append_assoc, unlines, unlines, unlines, ← List.flatMap_append]
  have hlines : fileLines (unlines
        (headerLines "Courtesy Software".toList ++ productLines isFile))
      = headerLines "Courtesy Software".toList ++ productLines isFile := by
    refine fileLines_unlines ?_
    intro l hl
    rcases List.mem_append.mp hl with hl | hl
    · exact (hheader l hl).1
    · obtain ⟨q, -, rfl⟩ := mem_productLines.mp hl
      exact newline_not_mem_reviewLine q
  -- no line of the header is as long as a product's line
  have hno : reviewLine p ∉ headerLines "Courtesy Software".toList := by
    intro hmem
    have hshort : (reviewLine p).length ≠ 0 ∧ (reviewLine p).length ≠ 91 := by
      cases p <;> decide
    rcases (hheader _ hmem).2 with hlen | hlen
    · exact hshort.1 hlen
    · exact hshort.2 hlen
  constructor
  · rintro ⟨added, hadded, hmem⟩
    rw [hsection, List.append_cancel_left_eq] at hadded
    rw [← hadded, hlines, List.mem_append, or_iff_right hno,
      mem_productLines] at hmem
    obtain ⟨q, hq, heq⟩ := hmem
    exact reviewLine_injective heq ▸ hq
  · intro hp
    refine ⟨_, hsection, ?_⟩
    rw [hlines]
    exact List.mem_append_right _ (mem_productLines.mpr ⟨p, hp, rfl⟩)

/-! ## The two styles -/

/-- How an order document is serialized: compactly, or with a blank behind each
    colon, and behind each comma too or not. -/
inductive Style where
  | compact
  | spaced (commas : Bool)
  deriving DecidableEq

def Style.gaps : Style → Gaps
  | .compact => .compact
  | .spaced commas => .blanks commas

/-- The lines of the order file. -/
def orderLines (E : Escaping) (style : Style) (doc : Json) : List Text :=
  fileLines (textWith E style.gaps doc)

section Styles

variable (E : Escaping)

/-- **COMPACT**: the review's search finds nothing, whatever the order. -/
theorem category_not_compact (doc : Json) :
    grep courtesyCategory (orderLines E .compact doc) = false := by
  have hpat : courtesyCategory = memberPat "category".toList
      (' ' :: "\"Software: Courtesy Install\",".toList) := rfl
  rw [Bool.eq_false_iff, Ne, orderLines,
    grep_fileLines (by decide) (by decide), ← occursIn_nil (by decide), hpat]
  exact not_occursIn_textWith E .compact (by decide) (List.all_eq_true.mp rfl)
    (fun j rest => not_blank_prefix_textWith E .compact _ j rest) doc stops_nil

/-- **SPACED**: the installers' searches find nothing, whatever the order. -/
theorem guard_not_spaced (commas : Bool) (p : Product) (doc : Json) :
    grep p.guard (orderLines E (.spaced commas) doc) = false := by
  obtain ⟨hne, hnl⟩ := p.guard_line
  -- behind the colon there is a blank, no quote
  have hgap : ∀ (j : Json) (rest : Text), ¬ ('"' :: (p.name ++ ['"']))
      <+: (Style.spaced commas).gaps.colon
        ++ (textWith E (Style.spaced commas).gaps j ++ rest) := by
    intro j rest h
    have hblank : (Style.spaced commas).gaps.colon = [' '] := by
      cases commas <;> rfl
    rw [hblank, List.singleton_append, List.cons_prefix_cons] at h
    exact absurd h.1 (by decide)
  rw [Bool.eq_false_iff, Ne, orderLines, grep_fileLines hne hnl,
    ← occursIn_nil hne, p.guard_eq]
  exact not_occursIn_textWith E _ (by decide) (List.all_eq_true.mp rfl) hgap
    doc stops_nil

/-- In a compact document they find the members. -/
theorem guard_compact (p : Product) (doc : Json) :
    grep p.guard (orderLines E .compact doc) = true
      ↔ hasMember (memberTest "name".toList (isString p.name)) doc = true := by
  obtain ⟨hne, hnl⟩ := p.guard_line
  have htext : textWith E Style.compact.gaps doc = text E doc :=
    textWith_compact E doc
  rw [orderLines, htext, grep_fileLines hne hnl, ← occursIn_nil hne,
    p.guard_eq]
  exact occursIn_text E (by decide) (List.all_eq_true.mp rfl)
    (fun j rest _ => string_prefix_text E p.name_plain j rest) doc [] stops_nil

/-- Some member says `"category"` with the courtesy value, and another member
    follows it. -/
def hasCategory : List (Text × Json) → Bool
  | [] => false
  | (key, j) :: rest =>
      (key == "category".toList
          && isString "Software: Courtesy Install".toList j && !rest.isEmpty)
        || hasCategory rest

/-- Some member names a courtesy product. -/
def namesProduct (members : List (Text × Json)) : Bool :=
  members.any (fun m =>
    m.1 == "name".toList && products.any (fun p => isString p.name m.2))

mutual
/-- Every object that names a courtesy product has the courtesy category. -/
def isCourtesyOrder : Json → Bool
  | .null => true
  | .bool _ => true
  | .num _ => true
  | .str _ => true
  | .arr elems => elemsCourtesy elems
  | .obj members =>
      (!namesProduct members || hasCategory members) && membersCourtesy members

def elemsCourtesy : List Json → Bool
  | [] => true
  | j :: rest => isCourtesyOrder j && elemsCourtesy rest

def membersCourtesy : List (Text × Json) → Bool
  | [] => true
  | (_, j) :: rest => isCourtesyOrder j && membersCourtesy rest
end

/-- **AGREEMENT**: the review reports what was installed iff nothing is: the
    document has blanks, or no member, at any depth, that a search takes for
    `name` has a product's name as its value. -/
theorem review_agrees_iff (style : Style) (doc : Json) (isFile : Text → Bool)
    (reviewdata : Text) :
    Agrees (orderLines E style doc) isFile reviewdata
      ↔ style ≠ .compact ∨ ∀ p : Product,
          hasMember (memberTest "name".toList (isString p.name)) doc
            = false := by
  cases style with
  | spaced commas =>
      refine iff_of_true ?_ (Or.inl (by decide +revert))
      intro p hp
      rw [soft_ne_nil_iff, guard_not_spaced] at hp
      exact absurd hp Bool.false_ne_true
  | compact =>
      rw [or_iff_right (fun h => h rfl)]
      -- the report stays as it is, whatever has been installed
      have hsection : ∀ isFile, courtesySection (orderLines E .compact doc)
          isFile reviewdata = reviewdata := by
        intro isFile
        rw [courtesySection, category_not_compact, if_neg Bool.false_ne_true]
      have hnot : ∀ (p : Product) (isFile : Text → Bool),
          ¬ Reported p (orderLines E .compact doc) isFile reviewdata := by
        rintro p isFile ⟨added, hadded, hmem⟩
        rw [hsection, List.self_eq_append_right] at hadded
        rw [hadded] at hmem
        exact List.not_mem_nil hmem
      constructor
      · intro h p
        rw [Bool.eq_false_iff, Ne, ← guard_compact E p doc, ← soft_ne_nil_iff]
        intro hp
        exact hnot p _ (h p hp)
      · intro h p hp
        rw [soft_ne_nil_iff, guard_compact, h p] at hp
        exact absurd hp Bool.false_ne_true

end Styles

/-- An order for VLC. -/
def vlcOrder : Json :=
  .arr [.obj [("name".toList, .str "VLC".toList),
    ("category".toList, .str "Software: Courtesy Install".toList),
    ("qty".toList, .num ⟨['1'], by decide, List.all_eq_true.mp rfl⟩)]]

/-- VLC is installed for it, and the review does not say so. -/
theorem vlc_not_reported :
    isCourtesyOrder vlcOrder = true
      ∧ Product.vlc.soft (orderLines plainEscaping .compact vlcOrder) ≠ []
      ∧ ¬ Agrees (orderLines plainEscaping .compact vlcOrder) (fun _ => false)
        [] := by
  have hsoft : Product.vlc.soft (orderLines plainEscaping .compact vlcOrder)
      ≠ [] := by
    rw [soft_ne_nil_iff, guard_compact]
    rfl
  refine ⟨rfl, hsoft, ?_⟩
  intro h
  obtain ⟨added, hadded, hmem⟩ := h .vlc hsoft
  rw [courtesySection, category_not_compact, if_neg Bool.false_ne_true,
    List.self_eq_append_right] at hadded
  rw [hadded] at hmem
  exact List.not_mem_nil hmem

end SetupReview
