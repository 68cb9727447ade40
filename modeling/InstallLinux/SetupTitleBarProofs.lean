import InstallLinux.ShellTextProofs

/-! # Title bars — a width that is read back

    `_topbar`, `_titlebar` and `_bottombar` write a section header of the
    review report with `=` characters, one `printf` each.  `_titlebar` halves
    what the title leaves of 91 columns, rounds down, and makes up for the
    lost column twice: after either half it reads the last line of the report
    back and adds a `=` if that line has 90 characters.

    * the first correction never does anything (`padLast_left`): the line read
      back is the left half, or the bar above when the half is empty;
    * the second one adds exactly the lost column (`padLast_right`);
    * `header_exact` is the header, whatever the report held before. -/

namespace SetupTitleBar

open ShellText

/-! ## The functions of `global.sh` -/

/-- `printf` without arguments, for a format whose only directive is `%.0s`:
    that one prints nothing. -/
def printf : Text → Text
  | [] => []
  | '%' :: '.' :: '0' :: 's' :: rest => printf rest
  | c :: rest => c :: printf rest

/-- `for i in $(seq 1 $x); do printf '=%.0s' >>~/install/reviewdata; done`. -/
def printBars (x : Int) (reviewdata : Text) : Text :=
  (List.range x.toNat).foldl
    (fun reviewdata _ => reviewdata ++ printf "=%.0s".toList) reviewdata

/-- `test=$(tail -n 1 ~/install/reviewdata)`. -/
def lastLine (reviewdata : Text) : Text :=
  capture [(fileLines reviewdata).getLastD []]

/-- `if [ ${#test} == 90 ]; then printf '='; fi`. -/
def padLast (reviewdata : Text) : Text :=
  if (lastLine reviewdata).length = 90 then reviewdata ++ printf ['=']
  else reviewdata

/-- `echo "" >>~/install/reviewdata`. -/
def newline (reviewdata : Text) : Text := reviewdata ++ ['\n']

/-- `_topbar`. -/
def topbar (reviewdata : Text) : Text :=
  newline (printBars 91 (newline reviewdata))

/-- `_bottombar`. -/
def bottombar (reviewdata : Text) : Text :=
  newline (printBars 91 reviewdata)

/-- `_titlebar`. -/
def titlebar (title reviewdata : Text) : Text :=
  let x : Int := (91 - (title.length : Int)).tdiv 2
  let left := padLast (printBars x reviewdata)
  newline (padLast (printBars x (left ++ printf title)))

/-- A section header: the three calls in a row. -/
def header (title reviewdata : Text) : Text :=
  bottombar (titlebar title (topbar reviewdata))

/-! ## Bars -/

/-- A row of `=` characters. -/
def bar (n : Nat) : Text := List.replicate n '='

theorem printBars_eq (x : Int) (reviewdata : Text) :
    printBars x reviewdata = reviewdata ++ bar x.toNat := by
  rw [printBars]
  induction x.toNat with
  | zero => exact (List.append_nil _).symm
  | succ n ih =>
      rw [List.range_succ, List.foldl_append, ih,
        show bar (n + 1) = bar n ++ ['='] from List.replicate_succ',
        ← List.append_assoc]
      rfl

theorem newline_not_mem_bar (n : Nat) : '\n' ∉ bar n := by
  intro h
  exact absurd (List.eq_of_mem_replicate h) (by decide)

theorem bar_length (n : Nat) : (bar n).length = n := List.length_replicate

/-- Letters, digits, blanks and slashes. -/
def isTitleChar (c : Char) : Bool :=
  c.isAlphanum || c == ' ' || c == '\t' || c == '/'

/-- Such a title is printed as it is. -/
theorem printf_title {title : Text} (h : ∀ c ∈ title, isTitleChar c = true) :
    printf title = title := by
  induction title with
  | nil => rfl
  | cons c cs ih =>
      rw [List.forall_mem_cons] at h
      have hc : c ≠ '%' := by
        rintro rfl
        exact absurd h.1 (by decide)
      rw [printf, ih h.2]
      rintro rest rfl
      exact absurd rfl hc

theorem newline_not_mem_title {title : Text}
    (h : ∀ c ∈ title, isTitleChar c = true) : '\n' ∉ title := by
  intro hmem
  exact absurd (h _ hmem) (by decide)

/-! ## The two corrections -/

/-- The line read back is the unfinished one. -/
theorem lastLine_append {reviewdata line : Text} (hr : Complete reviewdata)
    (hne : line ≠ []) (hnl : '\n' ∉ line) :
    lastLine (reviewdata ++ line) = line := by
  rw [lastLine, fileLines_append hr, fileLines_of_line hne hnl,
    List.getLastD_concat, capture_line hnl]

/-- Behind a finished bar it is the bar. -/
theorem lastLine_bar {reviewdata : Text} (hr : Complete reviewdata) (n : Nat) :
    lastLine (reviewdata ++ unlines [[], bar n]) = bar n := by
  have hlines : fileLines (unlines [[], bar n]) = [[]] ++ [bar n] :=
    fileLines_unlines (by simp [newline_not_mem_bar])
  rw [lastLine, fileLines_append hr, hlines, ← List.append_assoc,
    List.getLastD_concat, capture_line (newline_not_mem_bar n)]

/-- **FIRST CORRECTION**: behind the left half there is nothing to correct. -/
theorem padLast_left {reviewdata : Text} (hr : Complete reviewdata)
    (hlast : (lastLine reviewdata).length ≠ 90) {n : Nat} (hn : n < 90) :
    padLast (reviewdata ++ bar n) = reviewdata ++ bar n := by
  have hlen : (lastLine (reviewdata ++ bar n)).length ≠ 90 := by
    by_cases hzero : n = 0
    · -- an empty half leaves the line above as the last one
      rw [hzero, show bar 0 = [] from rfl, List.append_nil]
      exact hlast
    · have hne : bar n ≠ [] := by
        rw [bar, Ne, List.replicate_eq_nil_iff]
        exact hzero
      rw [lastLine_append hr hne (newline_not_mem_bar n), bar_length]
      omega
  rw [padLast, if_neg hlen]

/-- **SECOND CORRECTION**: a line that lacks one column gets it. -/
theorem padLast_right {reviewdata line : Text} (hr : Complete reviewdata)
    (hnl : '\n' ∉ line) (hlow : 90 ≤ line.length) (hhigh : line.length ≤ 91) :
    padLast (reviewdata ++ line)
      = reviewdata ++ (line ++ bar (91 - line.length)) := by
  have hne : line ≠ [] := by
    rintro rfl
    exact absurd hlow (by decide)
  rw [padLast, lastLine_append hr hne hnl]
  by_cases hlen : line.length = 90
  · rw [if_pos hlen, hlen, List.append_assoc]
    rfl
  · have hfull : 91 - line.length = 0 := by omega
    rw [if_neg hlen, hfull, show bar 0 = [] from rfl, List.append_nil]

/-! ## The header -/

theorem topbar_eq (reviewdata : Text) :
    topbar reviewdata = reviewdata ++ unlines [[], bar 91] := by
  rw [topbar, printBars_eq, newline, newline, unlines]
  simp

theorem bottombar_eq (reviewdata : Text) :
    bottombar reviewdata = reviewdata ++ unlines [bar 91] := by
  rw [bottombar, printBars_eq, newline, unlines]
  simp

/-- What `x=$((x / 2))` leaves. -/
theorem half_toNat {len : Nat} (h : len ≤ 91) :
    ((91 - (len : Int)).tdiv 2).toNat = (91 - len) / 2 := by
  rw [Int.tdiv_eq_ediv_of_nonneg (by omega)]
  omega

/-- The title line, behind a finished line that has not 90 characters. -/
theorem titlebar_eq {title reviewdata : Text} (hr : Complete reviewdata)
    (hlast : (lastLine reviewdata).length ≠ 90) (hlen : title.length ≤ 91)
    (htitle : ∀ c ∈ title, isTitleChar c = true) :
    titlebar title reviewdata = reviewdata ++ unlines
      [bar ((91 - title.length) / 2) ++ title
        ++ bar ((92 - title.length) / 2)] := by
  have hleft : (91 - title.length) / 2 < 90 := by omega
  -- the line as it is read back: both halves and the title
  have hnl : '\n' ∉ bar ((91 - title.length) / 2) ++ title
      ++ bar ((91 - title.length) / 2) := by
    simp [newline_not_mem_bar, newline_not_mem_title htitle]
  have hcols : (bar ((91 - title.length) / 2) ++ title
      ++ bar ((91 - title.length) / 2)).length
      = 2 * ((91 - title.length) / 2) + title.length := by
    rw [List.length_append, List.length_append, bar_length]
    omega
  have hright : bar ((91 - title.length) / 2)
      ++ bar (91 - (2 * ((91 - title.length) / 2) + title.length))
      = bar ((92 - title.length) / 2) := by
    rw [bar, bar, List.replicate_append_replicate, bar]
    congr 1
    omega
  rw [titlebar]
  simp only [printBars_eq, half_toNat hlen]
  rw [padLast_left hr hlast hleft, printf_title htitle,
    List.append_assoc reviewdata, List.append_assoc reviewdata,
    padLast_right hr hnl (by omega) (by omega), hcols, newline, unlines,
    List.append_assoc _ (bar ((91 - title.length) / 2)), hright]
  simp

/-- The lines of the header. -/
def headerLines (title : Text) : List Text :=
  [[], bar 91,
    bar ((91 - title.length) / 2) ++ title ++ bar ((92 - title.length) / 2),
    bar 91]

/-- The lines of a header are empty or as wide as the bar. -/
theorem headerLines_spec {title : Text} (hlen : title.length ≤ 91)
    (htitle : ∀ c ∈ title, isTitleChar c = true) :
    ∀ l ∈ headerLines title, '\n' ∉ l ∧ (l.length = 0 ∨ l.length = 91) := by
  intro l hl
  simp only [headerLines, List.mem_cons, List.not_mem_nil, or_false] at hl
  have hbar : '\n' ∉ bar 91 ∧ ((bar 91).length = 0 ∨ (bar 91).length = 91) :=
    ⟨newline_not_mem_bar 91, Or.inr (bar_length 91)⟩
  rcases hl with rfl | rfl | rfl | rfl
  · exact ⟨List.not_mem_nil, Or.inl rfl⟩
  · exact hbar
  · refine ⟨by simp [newline_not_mem_bar, newline_not_mem_title htitle],
      Or.inr ?_⟩
    rw [List.length_append, List.length_append, bar_length, bar_length]
    omega
  · exact hbar

/-- The three calls append these lines and nothing else. -/
theorem header_eq {title reviewdata : Text} (hr : Complete reviewdata)
    (hlen : title.length ≤ 91)
    (htitle : ∀ c ∈ title, isTitleChar c = true) :
    header title reviewdata = reviewdata ++ unlines (headerLines title) := by
  have htop : Complete (topbar reviewdata) := by
    rw [topbar_eq]
    exact complete_append_unlines hr _
  have hlast : (lastLine (topbar reviewdata)).length ≠ 90 := by
    rw [topbar_eq, lastLine_bar hr, bar_length]
    decide
  rw [header, titlebar_eq htop hlast hlen htitle, bottombar_eq, topbar_eq]
  simp [unlines, headerLines]

/-- **THE HEADER**: whatever finished lines the report holds, the three calls
    append an empty line, a bar, the title centred in 91 columns with the odd
    column on its right, and a bar. -/
theorem header_exact (title reviewdata : Text)
    (hr : Complete reviewdata) (hlen : title.length ≤ 91)
    (htitle : ∀ c ∈ title, isTitleChar c = true) :
    ∃ left right, left + title.length + right = 91
      ∧ left ≤ right ∧ right ≤ left + 1
      ∧ header title reviewdata = reviewdata ++ unlines
          [[], bar 91, bar left ++ title ++ bar right, bar 91]
      ∧ fileLines (header title reviewdata) = fileLines reviewdata
          ++ [[], bar 91, bar left ++ title ++ bar right, bar 91] := by
  have heq := header_eq hr hlen htitle
  refine ⟨(91 - title.length) / 2, (92 - title.length) / 2, by omega, by omega,
    by omega, heq, ?_⟩
  rw [heq, fileLines_append hr,
    fileLines_unlines (fun l hl => (headerLines_spec hlen htitle l hl).1)]
  rfl

/-- A title of even length, behind the first lines of a report. -/
theorem header_osInformation : ∃ left right,
    left + "OS Information".toList.length + right = 91
      ∧ left ≤ right ∧ right ≤ left + 1
      ∧ header "OS Information".toList "Hostname: ubuntu\n \n".toList
        = "Hostname: ubuntu\n \n".toList ++ unlines
          [[], bar 91, bar left ++ "OS Information".toList ++ bar right,
            bar 91]
      ∧ fileLines
          (header "OS Information".toList "Hostname: ubuntu\n \n".toList)
        = fileLines "Hostname: ubuntu\n \n".toList
          ++ [[], bar 91, bar left ++ "OS Information".toList ++ bar right,
            bar 91] :=
  header_exact _ _ (Or.inr ⟨"Hostname: ubuntu\n ".toList, rfl⟩) (by decide)
    (List.all_eq_true.mp rfl)

end SetupTitleBar
