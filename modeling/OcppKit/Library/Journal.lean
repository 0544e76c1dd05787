import Mathlib.Data.List.Basic
import Mathlib.Data.List.Infix

/-!
# Append-only journals

A journal is a file to which records are only ever appended, one line each. This
file is about what a reader finds in such a file when the appends did not all go
well, over any alphabet `B`, any type of records `R` and any format
(`Journal.Format`) that writes a record on one line.

The reader (`Journal.readAll`) takes the file line by line, steps over blank lines,
and stops at the first line it cannot read. Three situations are told apart.

* All records are there: `Journal.readAll_text`.
* The last append stopped at some position, so the file ends with a part of a line:
  `Journal.readAll_cut`. The record counts as soon as its text is there, with or
  without the end of its line.
* Something was appended after such a part, so a line is made of several pieces
  *glued* together: `Journal.readAll_glued`. Such a line cannot be read, and with it
  everything after it is out of reach, whatever is appended (`Journal.Glued.append`).
-/

namespace Journal

/-- What a reader makes of one line. -/
inductive Line (R : Type) where
  /-- A line without any text. -/
  | blank
  /-- A line that is not a record. -/
  | unreadable
  /-- A record. -/
  | record (r : R)

/-- **A format of records**: the letter that ends a line, how a record is written
and what is read off a line. -/
class Format (B R : Type) where
  /-- The end of a line. -/
  newline : B
  /-- The text of a record. -/
  write : R → List B
  /-- What a line says. -/
  read : List B → Line R

section Reading

variable {B : Type} (R : Type) [DecidableEq B] [Format B R]

/-- The lines of a text, after the letters `acc` of the current one; a text that
ends with its last line's end has no further, empty line. -/
def linesFrom (acc : List B) : List B → List (List B)
  | [] => if acc = [] then [] else [acc]
  | c :: cs =>
    if c = Format.newline R then acc :: linesFrom [] cs else linesFrom (acc ++ [c]) cs

/-- The lines of a text. -/
def lines (cs : List B) : List (List B) := linesFrom R [] cs

theorem linesFrom_append {acc w : List B} (h : Format.newline R ∉ w) (cs : List B) :
    linesFrom R acc (w ++ cs) = linesFrom R (acc ++ w) cs := by
  induction w generalizing acc with
  | nil => rw [List.nil_append, List.append_nil]
  | cons c w ih =>
      obtain ⟨hc, hw⟩ := not_or.mp (fun h' => h (List.mem_cons.mpr h'))
      rw [List.cons_append, linesFrom, if_neg fun he => hc he.symm, ih hw, List.append_assoc,
        List.singleton_append]

/-- A first line that is complete is the first of the lines. -/
theorem lines_newline {w : List B} (h : Format.newline R ∉ w) (cs : List B) :
    lines R (w ++ Format.newline R :: cs) = w :: lines R cs := by
  rw [lines, linesFrom_append R h, linesFrom, if_pos rfl, List.nil_append, lines]

/-- A text without the end of a line is one line, if it is anything. -/
theorem lines_of_not_mem {w : List B} (h : Format.newline R ∉ w) :
    lines R w = if w = [] then [] else [w] := by
  have hlines : linesFrom R [] (w ++ []) = linesFrom R ([] ++ w) [] := linesFrom_append R h []
  rwa [List.append_nil, List.nil_append, linesFrom] at hlines

variable {R}

/-- The records up to the first line that cannot be read. -/
def recordsOf : List (List B) → List R
  | [] => []
  | line :: rest =>
    match (Format.read line : Line R) with
    | .blank => recordsOf rest
    | .unreadable => []
    | .record r => r :: recordsOf rest

/-- **What a reader finds in a file.** -/
def readAll (cs : List B) : List R := recordsOf (lines R cs)

/-- The line of a record. -/
def line (r : R) : List B := Format.write r ++ [Format.newline R]

/-- The text of a list of records. -/
def text (rs : List R) : List B := rs.flatMap line

omit [DecidableEq B] in
@[simp] theorem text_nil : text (B := B) ([] : List R) = [] := rfl

omit [DecidableEq B] in
@[simp] theorem text_append (rs rs' : List R) :
    text (B := B) (rs ++ rs') = text rs ++ text rs' :=
  List.flatMap_append

omit [DecidableEq B] in
@[simp] theorem text_singleton (r : R) : text (B := B) [r] = line r := List.flatMap_singleton ..

end Reading

/-! ### A format whose records fit on a line -/

/-- **One line for each record**: no record has an end of line in its text, a record
reads back as itself, and a part of its text does not read as a record. -/
class LawfulFormat (B R : Type) [Format B R] : Prop where
  /-- The text of a record is one line. -/
  newline_not_mem : ∀ r : R, (Format.newline R : B) ∉ (Format.write r : List B)
  /-- A record reads back as itself. -/
  read_write : ∀ r : R, Format.read (Format.write r : List B) = .record r
  /-- No proper prefix of a record reads as a record. -/
  read_prefix : ∀ (r : R) (p : List B), p ≠ [] → p <+: Format.write r → p ≠ Format.write r →
    ∀ r' : R, Format.read p ≠ .record r'

section Lawful

variable {B R : Type} [DecidableEq B] [Format B R] [LawfulFormat B R]

omit [DecidableEq B] in
theorem newline_not_mem_of_initial {r : R} {p : List B} (h : p <+: Format.write r) :
    Format.newline R ∉ p :=
  fun hmem => LawfulFormat.newline_not_mem r (h.subset hmem)

/-- **Whole lines are read whatever comes after them.** -/
theorem readAll_text_append (rs : List R) (cs : List B) :
    (readAll (text rs ++ cs) : List R) = rs ++ readAll cs := by
  induction rs with
  | nil => rfl
  | cons r rs ih =>
      have hlines : lines R (text (r :: rs) ++ cs) =
          (Format.write r : List B) :: lines R (text rs ++ cs) := by
        rw [← lines_newline R (LawfulFormat.newline_not_mem r)]
        simp [text, line]
      rw [readAll, hlines, recordsOf, LawfulFormat.read_write, List.cons_append, ← ih]
      rfl

/-- **All records are there.** -/
theorem readAll_text (rs : List R) : (readAll (text rs : List B) : List R) = rs := by
  have h := readAll_text_append rs ([] : List B)
  rwa [List.append_nil, show (readAll ([] : List B) : List R) = [] from rfl,
    List.append_nil] at h

omit [DecidableEq B] [LawfulFormat B R] in
/-- A prefix of a line is a part of the record's text, or the line. -/
theorem prefix_line {r : R} {p : List B} (h : p <+: line r) :
    p <+: Format.write r ∨ p = line r := by
  rcases List.prefix_concat_iff.mp h with h | h
  · exact Or.inr h
  · exact Or.inl h

/-- What is read of a part of a record's text: the record if the text is all there,
and nothing otherwise. -/
theorem readAll_of_initial {r : R} {p : List B} (h : p <+: Format.write r) (hne : p ≠ []) :
    (readAll p : List R) = if p = Format.write r then [r] else [] := by
  rw [readAll, lines_of_not_mem R (newline_not_mem_of_initial h), if_neg hne, recordsOf, recordsOf]
  by_cases hp : p = Format.write r
  · rw [if_pos hp, hp, LawfulFormat.read_write]
  · rw [if_neg hp]
    have hread := LawfulFormat.read_prefix r p hne h hp
    rcases hline : (Format.read p : Line R) with _ | _ | r'
    · rfl
    · rfl
    · exact absurd hline (hread r')

/-- **The last append stopped somewhere**: the record counts if its text is all
there, and leaves no trace otherwise. -/
theorem readAll_cut (rs : List R) {r : R} {p : List B} (h : p <+: line r) :
    (readAll (text rs ++ p) : List R) = rs ∨ (readAll (text rs ++ p) : List R) = rs ++ [r] := by
  rw [readAll_text_append]
  rcases prefix_line h with h | rfl
  · rcases eq_or_ne p [] with rfl | hne
    · exact Or.inl (List.append_nil rs)
    · rw [readAll_of_initial h hne]
      split
      · exact Or.inr rfl
      · exact Or.inl (List.append_nil rs)
  · rw [← text_singleton, readAll_text]
    exact Or.inr rfl

end Lawful

/-! ### Pieces glued together -/

/-- **Nothing is read of pieces**: two or more parts of records, one after the other
on a line, never read as a record, and are not blank. -/
class GluedUnreadable (B R : Type) [Format B R] : Prop where
  /-- A record is some text. -/
  write_ne_nil : ∀ r : R, Format.write r ≠ ([] : List B)
  /-- A line of several pieces cannot be read. -/
  read_glued : ∀ pieces : List (List B), 2 ≤ pieces.length →
    (∀ p ∈ pieces, p ≠ [] ∧ ∃ r : R, p <+: Format.write r) →
    Format.read pieces.flatten = (Line.unreadable : Line R)

/-- **A text whose first line is glued together**: several pieces, and after their
line's end anything at all. -/
def Glued (R : Type) {B : Type} [Format B R] (cs : List B) : Prop :=
  ∃ (pieces : List (List B)) (rest : List B), 2 ≤ pieces.length ∧
    (∀ p ∈ pieces, p ≠ [] ∧ ∃ r : R, p <+: Format.write r) ∧
    (rest = [] ∨ ∃ rest', rest = Format.newline R :: rest') ∧ cs = pieces.flatten ++ rest

section Glued

variable {B R : Type} [Format B R] [GluedUnreadable B R]

/-- Appending to a part of a record that is not a whole line glues. -/
theorem glued_of_append {r r' : R} {p q : List B} (hp : p <+: Format.write r) (hp0 : p ≠ [])
    (hq : q <+: line r') (hq0 : q ≠ []) : Glued R (p ++ q) := by
  have hw : Format.write r' ≠ ([] : List B) := GluedUnreadable.write_ne_nil r'
  rcases prefix_line hq with hq | rfl
  · refine ⟨[p, q], [], le_rfl, ?_, Or.inl rfl, by simp⟩
    rintro x hx
    rcases List.mem_pair.mp hx with rfl | rfl
    · exact ⟨hp0, r, hp⟩
    · exact ⟨hq0, r', hq⟩
  · refine ⟨[p, Format.write r'], [Format.newline R], le_rfl, ?_, Or.inr ⟨[], rfl⟩,
      by simp [line]⟩
    rintro x hx
    rcases List.mem_pair.mp hx with rfl | rfl
    · exact ⟨hp0, r, hp⟩
    · exact ⟨hw, r', List.prefix_rfl⟩

/-- **Once glued, always glued**: whatever part of a line is appended. -/
theorem Glued.append {cs : List B} (h : Glued R cs) {r : R} {q : List B} (hq : q <+: line r) :
    Glued R (cs ++ q) := by
  have hw : Format.write r ≠ ([] : List B) := GluedUnreadable.write_ne_nil r
  obtain ⟨pieces, rest, hlen, hpieces, hrest, rfl⟩ := h
  rcases eq_or_ne q [] with rfl | hq0
  · exact ⟨pieces, rest, hlen, hpieces, hrest, by simp⟩
  rcases hrest with rfl | ⟨rest', rfl⟩
  · -- the line is still open, so what is appended is one more piece of it
    have hmore : ∀ {p : List B}, p ≠ [] → p <+: Format.write r →
        ∀ x ∈ pieces ++ [p], x ≠ [] ∧ ∃ r : R, x <+: Format.write r := by
      intro p hp0 hp x hx
      rcases List.mem_append.mp hx with hx | hx
      · exact hpieces x hx
      · obtain rfl := List.mem_singleton.mp hx
        exact ⟨hp0, r, hp⟩
    have hlen' : ∀ p : List B, 2 ≤ (pieces ++ [p]).length := by
      intro p
      rw [List.length_append]
      omega
    rcases prefix_line hq with hq | rfl
    · exact ⟨pieces ++ [q], [], hlen' q, hmore hq0 hq, Or.inl rfl, by simp⟩
    · exact ⟨pieces ++ [Format.write r], [Format.newline R], hlen' _, hmore hw List.prefix_rfl,
        Or.inr ⟨[], rfl⟩, by simp [line]⟩
  · exact ⟨pieces, Format.newline R :: (rest' ++ q), hlen, hpieces, Or.inr ⟨_, rfl⟩, by simp⟩

/-- **Nothing is read of a glued line, nor after it.** -/
theorem readAll_glued [DecidableEq B] [LawfulFormat B R] (rs : List R) {cs : List B}
    (h : Glued R cs) : (readAll (text rs ++ cs) : List R) = rs := by
  obtain ⟨pieces, rest, hlen, hpieces, hrest, rfl⟩ := h
  have hno : Format.newline R ∉ pieces.flatten := by
    rintro hmem
    obtain ⟨p, hp, hmem⟩ := List.mem_flatten.mp hmem
    obtain ⟨-, r, hr⟩ := hpieces p hp
    exact newline_not_mem_of_initial hr hmem
  have hne : pieces.flatten ≠ [] := by
    intro h
    obtain ⟨p, hp⟩ := List.exists_mem_of_length_pos (show 0 < pieces.length by omega)
    exact (hpieces p hp).1 (List.flatten_eq_nil_iff.mp h p hp)
  have hread := GluedUnreadable.read_glued pieces hlen hpieces
  have hall : (readAll (pieces.flatten ++ rest) : List R) = [] := by
    rcases hrest with rfl | ⟨rest', rfl⟩
    · rw [List.append_nil, readAll, lines_of_not_mem R hno, if_neg hne, recordsOf, hread]
    · rw [readAll, lines_newline R hno, recordsOf, hread]
  rw [readAll_text_append, hall, List.append_nil]

end Glued

end Journal
