import Mathlib.Data.List.TakeWhile

/-! # Indented text — keys and values nested by their columns

    A line is a key, a colon and possibly a value, behind some blanks; a line
    further in belongs to the nearest line above that is further out.  The
    reader goes through the lines from the last to the first and keeps the
    nodes read so far with their columns: a line takes the deeper ones at the
    front as its children (`attach`).

    * `readLine_printLine`: one line read back;
    * `foldr_printNode`, `foldr_printNodes`: a printed tree in front of nodes
      no deeper than itself is read back as one node;
    * `read_print`: the round trip. -/

namespace IndentText

/-- A key with its value and what is nested under it. -/
inductive Node where
  | mk (key value : List Char) (children : List Node)

/-! ## Reading -/

/-- A line taken apart. -/
structure Line where
  indent : Nat
  key : List Char
  value : List Char

def readLine (line : List Char) : Line :=
  let body := line.dropWhile (· == ' ')
  { indent := (line.takeWhile (· == ' ')).length
    key := body.takeWhile (· != ':')
    value := ((body.dropWhile (· != ':')).drop 1).dropWhile (· == ' ') }

/-- A line in front of the nodes read so far: the deeper ones come under
    it. -/
def attach (line : Line) (later : List (Nat × Node)) : List (Nat × Node) :=
  (line.indent, .mk line.key line.value
      ((later.takeWhile (fun p => decide (line.indent < p.1))).map Prod.snd))
    :: later.dropWhile (fun p => decide (line.indent < p.1))

def read (lines : List (List Char)) : List Node :=
  ((lines.map readLine).foldr attach []).map Prod.snd

/-! ## Printing -/

def printLine (indent : Nat) (key value : List Char) : List Char :=
  List.replicate indent ' '
    ++ (key ++ ':' :: (if value = [] then [] else ' ' :: value))

section Print

variable (step : Nat)

mutual
/-- The lines of a node, its children `step` columns further in. -/
def printNode (indent : Nat) : Node → List (List Char)
  | .mk key value children =>
      printLine indent key value :: printNodes (indent + step) children

def printNodes (indent : Nat) : List Node → List (List Char)
  | [] => []
  | n :: rest => printNode indent n ++ printNodes indent rest
end

end Print

/-! ## Texts that can be read back -/

/-- No colon in it, and no blank in front. -/
def plainKey (key : List Char) : Bool :=
  !key.contains ':' && key.head? != some ' '

def plainValue (value : List Char) : Bool :=
  value.head? != some ' '

mutual
/-- Every key and every value can be read back. -/
def plainNode : Node → Bool
  | .mk key value children =>
      plainKey key && plainValue value && plainNodes children

def plainNodes : List Node → Bool
  | [] => true
  | n :: rest => plainNode n && plainNodes rest
end

/-- Dropping blanks from a text that does not begin with one. -/
theorem dropWhile_blank {t : List Char} (h : (t.head? != some ' ') = true) :
    t.dropWhile (· == ' ') = t := by
  cases t with
  | nil => rfl
  | cons c cs =>
      rw [List.head?_cons, bne_iff_ne] at h
      rw [List.dropWhile_cons_of_neg]
      simpa using fun heq => h (congrArg some heq)

/-- A text that begins with no blank has no indentation. -/
theorem takeWhile_blank {t : List Char} (h : (t.head? != some ' ') = true) :
    t.takeWhile (· == ' ') = [] := by
  cases t with
  | nil => rfl
  | cons c cs =>
      rw [List.head?_cons, bne_iff_ne] at h
      rw [List.takeWhile_cons_of_neg]
      simpa using fun heq => h (congrArg some heq)

/-- **ONE LINE**: it is read back with its column. -/
theorem readLine_printLine (indent : Nat) {key value : List Char}
    (hkey : plainKey key = true) (hvalue : plainValue value = true) :
    readLine (printLine indent key value) = ⟨indent, key, value⟩ := by
  rw [plainKey, Bool.and_eq_true, Bool.not_eq_true'] at hkey
  obtain ⟨hcolon, hhead⟩ := hkey
  have hblanks : ∀ c ∈ List.replicate indent ' ', (c == ' ') = true := by
    intro c hc
    rw [List.eq_of_mem_replicate hc]
    rfl
  have hletters : ∀ c ∈ key, (c != ':') = true := by
    intro c hc
    rw [bne_iff_ne]
    rintro rfl
    rw [List.contains_iff_mem.mpr hc] at hcolon
    exact Bool.noConfusion hcolon
  have hbody : ∀ tail : List Char,
      ((key ++ ':' :: tail).head? != some ' ') = true := by
    intro tail
    cases key with
    | nil => rfl
    | cons c cs => exact hhead
  have htail : (if value = [] then [] else ' ' :: value).dropWhile (· == ' ')
      = value := by
    by_cases hnil : value = []
    · rw [if_pos hnil, hnil]
      rfl
    · rw [if_neg hnil, List.dropWhile_cons_of_pos rfl]
      exact dropWhile_blank hvalue
  rw [readLine, printLine, List.takeWhile_append_of_pos hblanks,
    List.dropWhile_append_of_pos hblanks, takeWhile_blank (hbody _),
    dropWhile_blank (hbody _), List.append_nil, List.length_replicate,
    List.takeWhile_append_of_pos hletters,
    List.dropWhile_append_of_pos hletters,
    List.takeWhile_cons_of_neg (by decide),
    List.dropWhile_cons_of_neg (by decide), List.append_nil,
    List.drop_one, List.tail_cons, htail]

/-! ## The round trip -/

/-- The first of the nodes is no deeper than the column. -/
def NoDeeper (indent : Nat) (later : List (Nat × Node)) : Prop :=
  ∀ p, later.head? = some p → p.1 ≤ indent

theorem NoDeeper.cons {indent : Nat} {n : Node} {later : List (Nat × Node)} :
    NoDeeper indent ((indent, n) :: later) := by
  intro p hp
  rw [← Option.some.inj hp]

/-- A line takes the nodes that were printed under it. -/
theorem attach_children {indent deeper : Nat} (hdeeper : indent < deeper)
    (key value : List Char) (children : List Node)
    {later : List (Nat × Node)} (hlater : NoDeeper indent later) :
    attach ⟨indent, key, value⟩
        (children.map (fun n => (deeper, n)) ++ later)
      = (indent, .mk key value children) :: later := by
  have hin : ∀ p ∈ children.map (fun n => (deeper, n)),
      decide (indent < p.1) = true := by
    intro p hp
    obtain ⟨n, -, rfl⟩ := List.mem_map.mp hp
    exact decide_eq_true hdeeper
  have hstop : later.takeWhile (fun p => decide (indent < p.1)) = []
      ∧ later.dropWhile (fun p => decide (indent < p.1)) = later := by
    cases later with
    | nil => exact ⟨rfl, rfl⟩
    | cons p rest =>
        have hp : ¬ decide (indent < p.1) = true := by
          have hle := hlater p rfl
          simpa using hle
        exact ⟨List.takeWhile_cons_of_neg hp, List.dropWhile_cons_of_neg hp⟩
  have hsnd : (children.map (fun n => (deeper, n))).map Prod.snd
      = children := by
    rw [List.map_map]
    exact List.map_id _
  rw [attach, List.takeWhile_append_of_pos hin,
    List.dropWhile_append_of_pos hin, hstop.1, hstop.2, List.append_nil, hsnd]

section RoundTrip

variable {step : Nat}

mutual
/-- **A TREE**: in front of nodes no deeper than itself it is read back as one
    node. -/
theorem foldr_printNode (hstep : 0 < step) : ∀ (n : Node) (indent : Nat)
    (later : List (Nat × Node)), plainNode n = true → NoDeeper indent later →
    ((printNode step indent n).map readLine).foldr attach later
      = (indent, n) :: later
  | .mk key value children, indent, later, hplain, hlater => by
      rw [plainNode, Bool.and_eq_true, Bool.and_eq_true] at hplain
      obtain ⟨⟨hkey, hvalue⟩, hchildren⟩ := hplain
      have hdeeper : NoDeeper (indent + step) later :=
        fun p hp => (hlater p hp).trans (Nat.le_add_right _ _)
      rw [printNode, List.map_cons, List.foldr_cons,
        foldr_printNodes hstep children (indent + step) later hchildren hdeeper,
        readLine_printLine indent hkey hvalue]
      exact attach_children (by omega) key value children hlater

theorem foldr_printNodes (hstep : 0 < step) : ∀ (nodes : List Node)
    (indent : Nat) (later : List (Nat × Node)), plainNodes nodes = true →
    NoDeeper indent later →
    ((printNodes step indent nodes).map readLine).foldr attach later
      = nodes.map (fun n => (indent, n)) ++ later
  | [], indent, later, _, _ => by
      rw [printNodes]
      rfl
  | n :: rest, indent, later, hplain, hlater => by
      rw [plainNodes, Bool.and_eq_true] at hplain
      obtain ⟨hn, hrest⟩ := hplain
      -- the node is read in front of its later siblings
      have hsiblings : NoDeeper indent
          (rest.map (fun n => (indent, n)) ++ later) := by
        cases rest with
        | nil => exact hlater
        | cons m ms => exact NoDeeper.cons
      rw [printNodes, List.map_append, List.foldr_append,
        foldr_printNodes hstep rest indent later hrest hlater,
        foldr_printNode hstep n indent _ hn hsiblings]
      rfl
end

/-- **THE ROUND TRIP**: printed nodes are read back. -/
theorem read_print (hstep : 0 < step) (nodes : List Node)
    (hplain : plainNodes nodes = true) :
    read (printNodes step 0 nodes) = nodes := by
  have hnone : NoDeeper 0 [] := by
    intro p hp
    exact absurd hp.symm (Option.some_ne_none p)
  rw [read, foldr_printNodes hstep nodes 0 [] hplain hnone, List.append_nil,
    List.map_map]
  exact List.map_id _

end RoundTrip

end IndentText
