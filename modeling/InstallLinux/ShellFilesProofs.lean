import InstallLinux.ShellTextProofs
import Mathlib.Logic.Function.Basic

/-! # Shell files — appends, removals and edits in place

    A file system for scripts that handle files line by line: a path has a
    text or no file.  `>>` creates a missing file, `rm` and `sed -i` leave a
    missing one missing.  A text may lack the newline at its end, and what is
    appended to it then joins its last line.  Every operation changes its own
    path only. -/

namespace ShellFiles

open ShellText

/-- A text, line by line. -/
structure Contents where
  lines : List Text
  /-- the last line ends in a newline, as every other one does -/
  ended : Bool
  deriving DecidableEq

/-- The texts of the files, by path. -/
abbrev Files (P : Type) := P → Option Contents

/-- The lines whose newline is there. -/
def Contents.closed (c : Contents) : List Text :=
  if c.ended then c.lines else c.lines.dropLast

/-- What stands behind the last newline. -/
def Contents.tail (c : Contents) : Text :=
  if c.ended then [] else c.lines.getLastD []

variable {P : Type} [DecidableEq P]

/-- The text of a file; none when it is missing. -/
def contentsOf (f : Files P) (p : P) : Contents := (f p).getD ⟨[], true⟩

/-- The lines of a file, as `grep` and `sed` read them. -/
def linesOf (f : Files P) (p : P) : List Text := (contentsOf f p).lines

/-- What stands behind the last newline of a file. -/
def tailOf (f : Files P) (p : P) : Text := (contentsOf f p).tail

/-- Nothing does: the text ends in a newline, or there is none. -/
def Ended (f : Files P) (p : P) : Prop := (contentsOf f p).ended = true

/-- A shell that reads the file starts the script. -/
def startedBy (f : Files P) (p : P) (call : Text) : Bool :=
  (linesOf f p).any (startsCall call)

/-- `[ -f p ]`. -/
def isFile (f : Files P) (p : P) : Bool := (f p).isSome

/-- `touch p`. -/
def touch (f : Files P) (p : P) : Files P :=
  Function.update f p (some (contentsOf f p))

/-- `rm p`. -/
def removeFile (f : Files P) (p : P) : Files P :=
  Function.update f p none

/-- `echo line >> p`, and `tee -a`: the line is written behind whatever is
    there. -/
def appendLine (f : Files P) (p : P) (line : Text) : Files P :=
  Function.update f p
    (some ⟨(contentsOf f p).closed ++ [(contentsOf f p).tail ++ line], true⟩)

/-- `echo line | tee p`: the file is written anew. -/
def writeLine (f : Files P) (p : P) (line : Text) : Files P :=
  Function.update f p (some ⟨[line], true⟩)

/-- `sed -i` with a script that looks at one line at a time.  A missing newline
    stays missing, unless the line it is missing from is deleted. -/
def editFile (f : Files P) (p : P) (edit : List Text → List Text) : Files P :=
  Function.update f p ((f p).map fun c =>
    ⟨edit c.lines, c.ended || (edit [c.lines.getLastD []]).isEmpty⟩)

/-! ## The path of the operation -/

/-- The text is its closed lines and what stands behind them. -/
theorem Contents.lines_eq (c : Contents) :
    c.lines = c.closed ++ (if c.ended ∨ c.lines = [] then [] else [c.tail]) := by
  rw [Contents.closed, Contents.tail]
  cases hended : c.ended with
  | true => simp
  | false =>
      rcases List.eq_nil_or_concat c.lines with hnil | ⟨front, last, hlines⟩
      · simp [hnil]
      · simp [hlines]

section Own

variable (f : Files P) (p : P)

/-- What is touched is there. -/
@[simp] theorem isFile_touch_self : isFile (touch f p) p = true := by
  simp [isFile, touch]

/-- What is removed is not. -/
@[simp] theorem isFile_removeFile_self : isFile (removeFile f p) p = false := by
  simp [isFile, removeFile]

/-- It has no lines. -/
@[simp] theorem linesOf_removeFile_self : linesOf (removeFile f p) p = [] := by
  simp [linesOf, contentsOf, removeFile]

/-- It starts nothing. -/
@[simp] theorem startedBy_removeFile_self (call : Text) :
    startedBy (removeFile f p) p call = false := by
  rw [startedBy, linesOf_removeFile_self, List.any_nil]

/-- **AN APPEND**: what stood behind the last newline is the beginning of the
    new line. -/
theorem linesOf_appendLine_self (line : Text) :
    linesOf (appendLine f p line) p
      = (contentsOf f p).closed ++ [tailOf f p ++ line] := by
  simp [linesOf, contentsOf, appendLine, tailOf]

/-- Behind an append the file ends in a newline. -/
theorem ended_appendLine_self (line : Text) : Ended (appendLine f p line) p := by
  simp [Ended, contentsOf, appendLine]

/-- A file that is removed leaves no line open. -/
theorem ended_removeFile_self : Ended (removeFile f p) p := by
  simp [Ended, contentsOf, removeFile]

end Own

section Ended

variable {f : Files P} {p : P}

omit [DecidableEq P] in
/-- In a file that ends in a newline every line is closed. -/
theorem Ended.closed (h : Ended f p) : (contentsOf f p).closed = linesOf f p := by
  rw [Contents.closed]
  exact if_pos h

omit [DecidableEq P] in
/-- No text stands behind its last newline. -/
theorem Ended.tail (h : Ended f p) : tailOf f p = [] := by
  rw [tailOf, Contents.tail]
  exact if_pos h

/-- There the line that is appended is a line of its own. -/
theorem Ended.linesOf_appendLine (h : Ended f p) (line : Text) :
    linesOf (appendLine f p line) p = linesOf f p ++ [line] := by
  rw [linesOf_appendLine_self, h.closed, h.tail, List.nil_append]

/-- The line that is appended starts what it says. -/
theorem Ended.startedBy_appendLine (h : Ended f p) (line call : Text) :
    startedBy (appendLine f p line) p call
      = (startedBy f p call || startsCall call line) := by
  rw [startedBy, h.linesOf_appendLine, List.any_append, List.any_cons,
    List.any_nil, Bool.or_false, startedBy]

end Ended

/-- What is in a line that is appended to is in the line that comes of it. -/
theorem grep_appendLine {f : Files P} {p : P} {pat line : Text}
    (h : grep pat (linesOf f p) = true ∨ pat <:+: line) :
    grep pat (linesOf (appendLine f p line) p) = true := by
  rw [linesOf_appendLine_self, grep_eq_true]
  have hlast : tailOf f p ++ line
      ∈ (contentsOf f p).closed ++ [tailOf f p ++ line] :=
    List.mem_append_right _ List.mem_cons_self
  rcases h with h | h
  · obtain ⟨l, hl, hin⟩ := grep_eq_true.mp h
    rw [linesOf, Contents.lines_eq] at hl
    rcases List.mem_append.mp hl with hl | hl
    · exact ⟨l, List.mem_append_left _ hl, hin⟩
    · split at hl
      · exact absurd hl List.not_mem_nil
      · rw [List.mem_singleton.mp hl] at hin
        exact ⟨_, hlast, hin.trans (List.prefix_append _ _).isInfix⟩
  · exact ⟨_, hlast, h.trans (List.suffix_append _ _).isInfix⟩

omit [DecidableEq P] in
/-- A loop that only appends: a file that ends in a newline gets the lines of
    every turn. -/
theorem linesOf_foldl {A : Type} {p : P} {turn : Files P → A → Files P}
    {lines : A → List Text}
    (hturn : ∀ f a, Ended f p → Ended (turn f a) p
      ∧ linesOf (turn f a) p = linesOf f p ++ lines a)
    (l : List A) {f : Files P} (hf : Ended f p) :
    Ended (l.foldl turn f) p
      ∧ linesOf (l.foldl turn f) p = linesOf f p ++ l.flatMap lines := by
  induction l generalizing f with
  | nil => exact ⟨hf, by rw [List.foldl_nil, List.flatMap_nil, List.append_nil]⟩
  | cons a rest ih =>
      obtain ⟨hended, hlines⟩ := hturn f a hf
      obtain ⟨hlast, hall⟩ := ih hended
      refine ⟨hlast, ?_⟩
      rw [List.foldl_cons, hall, hlines, List.flatMap_cons, List.append_assoc]

/-- An edit that makes no lines edits the lines of the file. -/
theorem linesOf_editFile_self (f : Files P) (p : P)
    {edit : List Text → List Text} (hedit : edit [] = []) :
    linesOf (editFile f p edit) p = edit (linesOf f p) := by
  simp only [linesOf, contentsOf, editFile]
  rw [Function.update_self]
  cases f p with
  | none => exact hedit.symm
  | some c => rfl

/-! ## Every other path -/

section Other

variable {f g : Files P} {p q : P}

omit [DecidableEq P] in
/-- The lines are read off the file. -/
theorem linesOf_congr (h : f q = g q) : linesOf f q = linesOf g q := by
  rw [linesOf, linesOf, contentsOf, contentsOf, h]

omit [DecidableEq P] in
/-- So is what it starts. -/
theorem startedBy_congr (h : f q = g q) (call : Text) :
    startedBy f q call = startedBy g q call := by
  rw [startedBy, startedBy, linesOf_congr h]

omit [DecidableEq P] in
/-- So is whether its last line is ended. -/
theorem Ended.congr (hended : Ended g q) (h : f q = g q) : Ended f q := by
  rw [Ended, contentsOf, h]
  exact hended

/-- An append reads no other file. -/
theorem appendLine_congr (h : f p = g p) (line : Text) :
    appendLine f p line p = appendLine g p line p := by
  simp [appendLine, contentsOf, h]

/-- Neither does an edit. -/
theorem editFile_congr (h : f p = g p) (edit : List Text → List Text) :
    editFile f p edit p = editFile g p edit p := by
  simp [editFile, h]

variable (h : q ≠ p)

include h

/-- Touching a file leaves the others alone. -/
theorem touch_ne : touch f p q = f q := Function.update_of_ne h _ _

theorem writeLine_ne (line : Text) : writeLine f p line q = f q :=
  Function.update_of_ne h _ _

/-- So does removing it. -/
theorem removeFile_ne : removeFile f p q = f q := Function.update_of_ne h _ _

/-- So does writing behind it. -/
theorem appendLine_ne (line : Text) : appendLine f p line q = f q :=
  Function.update_of_ne h _ _

/-- So does editing it. -/
theorem editFile_ne (edit : List Text → List Text) : editFile f p edit q = f q :=
  Function.update_of_ne h _ _

/-- The same for the lines of another file, and for its being there. -/
theorem linesOf_touch_ne : linesOf (touch f p) q = linesOf f q :=
  linesOf_congr (touch_ne h)

theorem isFile_touch_ne : isFile (touch f p) q = isFile f q := by
  simp [isFile, touch, h]

theorem isFile_writeLine_ne (line : Text) :
    isFile (writeLine f p line) q = isFile f q := by
  simp [isFile, writeLine, h]

theorem isFile_removeFile_ne : isFile (removeFile f p) q = isFile f q := by
  simp [isFile, removeFile, h]

theorem linesOf_removeFile_ne : linesOf (removeFile f p) q = linesOf f q :=
  linesOf_congr (removeFile_ne h)

theorem isFile_appendLine_ne (line : Text) :
    isFile (appendLine f p line) q = isFile f q := by
  simp [isFile, appendLine, h]

theorem linesOf_appendLine_ne (line : Text) :
    linesOf (appendLine f p line) q = linesOf f q :=
  linesOf_congr (appendLine_ne h line)

theorem isFile_editFile_ne (edit : List Text → List Text) :
    isFile (editFile f p edit) q = isFile f q := by
  simp [isFile, editFile, h]

theorem linesOf_editFile_ne (edit : List Text → List Text) :
    linesOf (editFile f p edit) q = linesOf f q :=
  linesOf_congr (editFile_ne h edit)

end Other

/-! ## Every path -/

section Every

variable {f : Files P} {q : P} (h : Ended f q) (p : P)

include h

/-- No operation takes the newline at the end of a file away. -/
theorem Ended.appendLine (line : Text) : Ended (appendLine f p line) q := by
  by_cases hq : q = p
  · subst hq
    exact ended_appendLine_self f q line
  · exact h.congr (appendLine_ne hq line)

/-- Writing a file anew ends its line. -/
theorem Ended.writeLine (line : Text) : Ended (writeLine f p line) q := by
  by_cases hq : q = p
  · subst hq
    simp [Ended, contentsOf, ShellFiles.writeLine]
  · exact h.congr (writeLine_ne hq line)

/-- Removing a file leaves no line open. -/
theorem Ended.removeFile : Ended (removeFile f p) q := by
  by_cases hq : q = p
  · subst hq
    exact ended_removeFile_self f q
  · exact h.congr (removeFile_ne hq)

/-- Touching one leaves it as it is. -/
theorem Ended.touch : Ended (touch f p) q := by
  by_cases hq : q = p
  · subst hq
    rw [Ended, contentsOf, ShellFiles.touch, Function.update_self]
    exact h
  · exact h.congr (touch_ne hq)

/-- `sed -i` keeps the newline at the end. -/
theorem Ended.editFile (edit : List Text → List Text) :
    Ended (editFile f p edit) q := by
  by_cases hq : q = p
  · subst hq
    rw [Ended, contentsOf] at h
    rw [Ended, contentsOf, ShellFiles.editFile, Function.update_self]
    cases hf : f q with
    | none => rfl
    | some c =>
        rw [hf, Option.getD_some] at h
        simp [h]
  · exact h.congr (editFile_ne hq edit)

end Every

end ShellFiles
