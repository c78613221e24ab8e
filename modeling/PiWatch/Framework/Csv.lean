import Mathlib.Data.List.Basic

/-!
# Comma separated values

Rows of texts, one line for each row. A field is quoted where it must be, and a reader finds the
rows again.
-/

namespace PiWatch

namespace Csv

abbrev Text := List Char

/-- A character that ends a field or a row, or opens a quotation. -/
def isSpecial (c : Char) : Bool := c = ',' || c = '"' || c = '\r' || c = '\n'

/-- A field between quotes, the quotes in it doubled. -/
def quote (field : Text) : Text :=
  '"' :: ((field.flatMap fun c => if c = '"' then ['"', '"'] else [c]) ++ ['"'])

/-- `csv.QUOTE_MINIMAL`. -/
def fieldText (field : Text) : Text := if field.any isSpecial then quote field else field

/-- `csv.writer.writerow`. -/
def rowText : List Text → Text
  | [] => ['\r', '\n']
  | [[]] => ['"', '"', '\r', '\n']
  | row => List.intercalate [','] (row.map fieldText) ++ ['\r', '\n']

def text (rows : List (List Text)) : Text := rows.flatMap rowText

/-- Where a reader stands: before a row, before another field of it, in a field, between
quotes, after a quote there, or after a carriage return. -/
inductive Place
  | row
  | field
  | plain
  | quoted
  | quote
  | feed
  deriving DecidableEq

/-- The rows of a text, after the fields and the part of a field that are read already. -/
def readFrom (place : Place) (field : Text) (row : List Text) : Text → List (List Text)
  | [] => if place = .row ∨ place = .feed then [] else [row ++ [field]]
  | c :: cs =>
    if place = .quoted then
      if c = '"' then readFrom .quote field row cs else readFrom .quoted (field ++ [c]) row cs
    else if c = '"' ∧ place = .quote then readFrom .quoted (field ++ [c]) row cs
    else if c = '"' ∧ place ≠ .plain then readFrom .quoted field row cs
    else if c = ',' then readFrom .field [] (row ++ [field]) cs
    else if c = '\r' then (row ++ [field]) :: readFrom .feed [] [] cs
    else if c = '\n' ∧ place = .feed then readFrom .row [] [] cs
    else if c = '\n' then (row ++ [field]) :: readFrom .row [] [] cs
    else readFrom .plain (field ++ [c]) row cs

def read : Text → List (List Text) := readFrom .row [] []

/-! ## Reading what was written -/

variable {row : List Text} {rest : Text}

/-- Before a field of a row. -/
def Place.Opens (place : Place) : Prop := place = .row ∨ place = .field

theorem readFrom_plain {place : Place} (hplace : place.Opens ∨ place = .plain) {cs : Text}
    (hcs : ¬ cs.any isSpecial) (hne : cs ≠ []) (field : Text) :
    readFrom place field row (cs ++ rest) = readFrom .plain (field ++ cs) row rest := by
  induction cs generalizing place field with
  | nil => exact absurd rfl hne
  | cons c cs ih =>
    simp only [List.any_cons, isSpecial, Bool.or_eq_true, decide_eq_true_eq, not_or] at hcs
    obtain ⟨⟨⟨⟨hcomma, hquote⟩, hreturn⟩, hfeed⟩, hrest⟩ := hcs
    have hquoted : place ≠ .quoted := by
      rintro rfl
      simp [Place.Opens] at hplace
    have hstep : readFrom place field row (c :: (cs ++ rest)) =
        readFrom .plain (field ++ [c]) row (cs ++ rest) := by
      simp only [readFrom, hquoted, hcomma, hquote, hreturn, hfeed, false_and, if_false]
    rw [List.cons_append, hstep]
    cases cs with
    | nil => rfl
    | cons d cs =>
      rw [ih (Or.inr rfl) (by simpa using hrest) (by simp), List.append_assoc]
      rfl

theorem readFrom_doubled (cs field : Text) :
    readFrom .quoted field row
        ((cs.flatMap fun c => if c = '"' then ['"', '"'] else [c]) ++ '"' :: rest) =
      readFrom .quote (field ++ cs) row rest := by
  induction cs generalizing field with
  | nil =>
    rw [List.flatMap_nil, List.nil_append, List.append_nil]
    rfl
  | cons c cs ih =>
    rw [List.flatMap_cons, List.append_assoc]
    by_cases hquote : c = '"'
    · subst hquote
      exact (ih (field ++ ['"'])).trans (by rw [List.append_assoc, List.singleton_append])
    · have hstep : ∀ more, readFrom .quoted field row (c :: more) =
          readFrom .quoted (field ++ [c]) row more := by
        intro more
        rw [readFrom, if_pos rfl, if_neg hquote]
      rw [if_neg hquote, List.singleton_append, hstep, ih, List.append_assoc,
        List.singleton_append]

/-- After a written field the reader holds it, and is not between quotes. -/
theorem readFrom_fieldText {place : Place} (hplace : place.Opens) (field : Text) :
    ∃ after, after ≠ .quoted ∧ ∀ row rest,
      readFrom place [] row (fieldText field ++ rest) = readFrom after field row rest := by
  by_cases hspecial : field.any isSpecial
  · refine ⟨.quote, by simp, fun row rest => ?_⟩
    have hopen : ∀ more, readFrom place [] row ('"' :: more) = readFrom .quoted [] row more := by
      intro more
      rcases hplace with rfl | rfl <;> rfl
    rw [fieldText, if_pos hspecial, quote, List.cons_append, List.append_assoc,
      List.singleton_append, hopen, readFrom_doubled, List.nil_append]
  · cases field with
    | nil =>
      refine ⟨place, ?_, fun row rest => rfl⟩
      rcases hplace with rfl | rfl <;> simp
    | cons c cs =>
      refine ⟨.plain, by simp, fun row rest => ?_⟩
      rw [fieldText, if_neg hspecial, readFrom_plain (Or.inl hplace) hspecial (by simp),
        List.nil_append]

theorem readFrom_comma {place : Place} (h : place ≠ .quoted) (field : Text) :
    readFrom place field row (',' :: rest) = readFrom .field [] (row ++ [field]) rest := by
  rw [readFrom, if_neg h]
  simp

theorem readFrom_newline {place : Place} (h : place ≠ .quoted) (field : Text) :
    readFrom place field row ('\r' :: '\n' :: rest) =
      (row ++ [field]) :: readFrom .row [] [] rest := by
  have hfeed : readFrom .feed [] [] ('\n' :: rest) = readFrom .row [] [] rest := by
    rw [readFrom]
    simp
  rw [readFrom, if_neg h]
  simp [hfeed]

theorem readFrom_fields {place : Place} (hplace : place.Opens) {fields : List Text}
    (hne : fields ≠ []) :
    readFrom place [] row (List.intercalate [','] (fields.map fieldText) ++
        '\r' :: '\n' :: rest) = (row ++ fields) :: readFrom .row [] [] rest := by
  induction fields generalizing place row with
  | nil => exact absurd rfl hne
  | cons field fields ih =>
    obtain ⟨after, hafter, hread⟩ := readFrom_fieldText hplace field
    cases fields with
    | nil =>
      rw [List.map_cons, List.map_nil, List.intercalate_singleton, hread,
        readFrom_newline hafter]
    | cons next fields =>
      rw [List.map_cons, List.map_cons, List.intercalate_cons_cons, List.append_assoc,
        List.append_assoc, hread, List.singleton_append, readFrom_comma hafter, ← List.map_cons,
        ih (Or.inr rfl) (by simp), List.append_assoc, List.singleton_append]

theorem readFrom_rowText (hne : row ≠ []) :
    readFrom .row [] [] (rowText row ++ rest) = row :: readFrom .row [] [] rest := by
  unfold rowText
  split
  · exact absurd rfl hne
  · exact readFrom_newline (show Place.quote ≠ .quoted by simp) []
  · rw [List.append_assoc]
    exact readFrom_fields (Or.inl rfl) hne

/-- The rows of a written text are found again, if every row has a field. -/
theorem read_text {rows : List (List Text)} (h : ∀ row ∈ rows, row ≠ []) :
    read (text rows) = rows := by
  induction rows with
  | nil => rfl
  | cons row rows ih =>
    rw [text, List.flatMap_cons, read, readFrom_rowText (h row List.mem_cons_self)]
    exact congrArg _ (ih fun row' hrow' => h row' (List.mem_cons_of_mem _ hrow'))

end Csv

end PiWatch
