import Mathlib.Data.List.ModifyLast

/-! # Ruled sections — a flat list of lines that is read back

    A report is a list of lines: some lines in front, and then sections, each
    behind a header of a blank line, a rule, a title line and a rule.  The
    reader knows a header by these four lines and takes everything up to the
    next one for the body.

    * `read_print`: what was printed is read back, where no body holds a blank
      line with a rule behind it;
    * `print_modifyLast`: lines that are added at the end belong to the last
      section. -/

namespace SectionText

variable {L T : Type*}

/-- How a header is ruled off. -/
structure Ruling (L T : Type*) where
  blank : L
  rule : L
  /-- the title line -/
  mark : T → L
  /-- the title of a title line -/
  unmark : L → T

structure Section (L T : Type*) where
  title : T
  body : List L

def Ruling.header (R : Ruling L T) (title : T) : List L :=
  [R.blank, R.rule, R.mark title, R.rule]

def Ruling.print (R : Ruling L T) (secs : List (Section L T)) : List L :=
  secs.flatMap (fun s => R.header s.title ++ s.body)

/-- The lines in front of the first header, and the sections. -/
def Ruling.read [DecidableEq L] (R : Ruling L T) :
    List L → List L × List (Section L T)
  | [] => ([], [])
  | l :: rest =>
      match rest with
      | r :: t :: r' :: behind =>
          if l = R.blank ∧ r = R.rule ∧ r' = R.rule then
            let (body, secs) := R.read behind
            ([], ⟨R.unmark t, body⟩ :: secs)
          else
            let (front, secs) := R.read (r :: t :: r' :: behind)
            (l :: front, secs)
      | short =>
          let (front, secs) := R.read short
          (l :: front, secs)

/-- No header begins within the lines. -/
def Ruling.Plain (R : Ruling L T) (lines : List L) : Prop :=
  ¬ [R.blank, R.rule] <:+: lines

/-- The first section stands in front of the others. -/
theorem print_cons (R : Ruling L T) (s : Section L T)
    (rest : List (Section L T)) :
    R.print (s :: rest) = R.header s.title ++ (s.body ++ R.print rest) := by
  rw [Ruling.print, List.flatMap_cons, List.append_assoc]
  rfl

variable [DecidableEq L] {R : Ruling L T}

theorem read_nil : R.read [] = ([], []) := rfl

/-- A header ends the section in front and begins one. -/
theorem read_header (title : T) (rest : List L) :
    R.read (R.header title ++ rest)
      = ([], ⟨R.unmark (R.mark title), (R.read rest).1⟩ :: (R.read rest).2) := by
  show R.read (R.blank :: R.rule :: R.mark title :: R.rule :: rest) = _
  rw [Ruling.read, if_pos ⟨rfl, rfl, rfl⟩]

/-- A line that is not the blank of a header. -/
theorem read_cons {l : L} {rest : List L}
    (h : ¬ [R.blank, R.rule] <+: l :: rest) :
    R.read (l :: rest) = (l :: (R.read rest).1, (R.read rest).2) := by
  rcases rest with _ | ⟨r, _ | ⟨t, _ | ⟨r', behind⟩⟩⟩
  · rfl
  · rfl
  · rfl
  · have hno : ¬ (l = R.blank ∧ r = R.rule ∧ r' = R.rule) := by
      rintro ⟨rfl, rfl, -⟩
      exact h ⟨_, rfl⟩
    rw [Ruling.read, if_neg hno]

/-- **BODIES**: lines without a header are read as they are, in front of
    anything that does not begin with a rule. -/
theorem read_append {body rest : List L} (hbody : R.Plain body)
    (hrest : ∀ l ∈ rest.head?, l ≠ R.rule) :
    R.read (body ++ rest) = (body ++ (R.read rest).1, (R.read rest).2) := by
  induction body with
  | nil => rfl
  | cons l body ih =>
      have hplain : R.Plain body := by
        intro h
        exact hbody (h.trans (List.suffix_cons l body).isInfix)
      have hfirst : ¬ [R.blank, R.rule] <+: l :: (body ++ rest) := by
        cases body with
        | nil =>
            rintro ⟨behind, hbehind⟩
            obtain ⟨-, hrule⟩ := List.cons.inj hbehind
            refine hrest R.rule ?_ rfl
            rw [← List.nil_append rest, ← hrule]
            rfl
        | cons r body =>
            rintro ⟨behind, hbehind⟩
            obtain ⟨hblank, hrule⟩ := List.cons.inj hbehind
            obtain ⟨hrule, -⟩ := List.cons.inj hrule
            refine hbody ⟨[], body, ?_⟩
            rw [hblank, hrule]
            rfl
      rw [List.cons_append, read_cons hfirst, ih hplain, List.cons_append]

omit [DecidableEq L] in
/-- Printed sections do not begin with a rule. -/
theorem head_print (hrule : R.rule ≠ R.blank) (secs : List (Section L T)) :
    ∀ l ∈ (R.print secs).head?, l ≠ R.rule := by
  intro l hl
  cases secs with
  | nil => exact nomatch hl
  | cons s rest => exact Option.some.inj hl ▸ hrule.symm

/-- **ROUND TRIP**: what was printed is read back. -/
theorem read_print (hrule : R.rule ≠ R.blank) {front : List L}
    (hfront : R.Plain front) {secs : List (Section L T)}
    (htitle : ∀ s ∈ secs, R.unmark (R.mark s.title) = s.title)
    (hbody : ∀ s ∈ secs, R.Plain s.body) :
    R.read (front ++ R.print secs) = (front, secs) := by
  induction secs generalizing front with
  | nil =>
      rw [read_append hfront (head_print hrule []), show R.print [] = [] from rfl,
        read_nil, List.append_nil]
  | cons s rest ih =>
      rw [List.forall_mem_cons] at htitle hbody
      rw [read_append hfront (head_print hrule _), print_cons, read_header,
        ih hbody.1 htitle.2 hbody.2, htitle.1, List.append_nil]

omit [DecidableEq L] in
/-- Lines added at the end are the end of the last body. -/
theorem print_modifyLast {secs : List (Section L T)} (hne : secs ≠ [])
    (lines : List L) :
    R.print (secs.modifyLast (fun s => { s with body := s.body ++ lines }))
      = R.print secs ++ lines := by
  obtain ⟨front, s, rfl⟩ := (List.eq_nil_or_concat secs).resolve_left hne
  rw [List.concat_eq_append, List.modifyLast_concat]
  simp [Ruling.print]

end SectionText
