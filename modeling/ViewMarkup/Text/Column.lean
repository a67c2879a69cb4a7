/-! # Blanks, paddings and columns

`blanks` is any number of spaces. A `padding` is a run of spaces that is added to a text at once,
and it cannot be longer than a text can be. A `column` is a run of spaces requested as the width of
a formatted field, and such a width is limited further. A request beyond the limit is an error
rather than a text.
-/

namespace ViewMarkup.Text

/-- A run of spaces. -/
def blanks (count : Nat) : String :=
  "".pushn ' ' count

/-- The most bytes that a text can have. -/
def maxBytes : Nat := 9223372036854775807

/-- The request for more spaces at once than a text can have bytes. -/
structure CapacityError where
deriving DecidableEq, Repr, Inhabited

/-- The wording of a capacity error. -/
def CapacityError.message (_ : CapacityError) : String :=
  "capacity overflow"

/-- Spaces to be added to a text at once. -/
def padding (count : Nat) : Except CapacityError String :=
  if count ≤ maxBytes then .ok (blanks count) else .error {}

/-- The widest formatted field. -/
def maxWidth : Nat := 65535

/-- The request for a formatted field wider than `maxWidth`. -/
structure WidthError where
  width : Nat
deriving DecidableEq, Repr, Inhabited

/-- The wording of a width error, which does not name the width. -/
def WidthError.message (_ : WidthError) : String :=
  "Formatting argument out of range"

/-- An empty field of the given width. -/
def column (width : Nat) : Except WidthError String :=
  if width ≤ maxWidth then .ok (blanks width) else .error ⟨width⟩

private theorem toList_pushn (text : String) (c : Char) (count : Nat) :
    (text.pushn c count).toList = text.toList ++ List.replicate count c := by
  induction count with
  | zero => simp [String.pushn, Nat.repeat]
  | succ count ih =>
    have step : text.pushn c (count + 1) = (text.pushn c count).push c := rfl
    rw [step, String.toList_push, ih, List.append_assoc, List.replicate_succ']

@[simp] theorem toList_blanks (count : Nat) : (blanks count).toList = List.replicate count ' ' := by
  simp [blanks, toList_pushn]

theorem blanks_eq (count : Nat) : blanks count = String.ofList (List.replicate count ' ') := by
  rw [← toList_blanks, String.ofList_toList]

@[simp] theorem utf8ByteSize_blanks (count : Nat) : (blanks count).utf8ByteSize = count := by
  induction count with
  | zero => rfl
  | succ count ih =>
    have step : blanks (count + 1) = (blanks count).push ' ' := rfl
    rw [step, String.utf8ByteSize_push, ih]
    rfl

theorem padding_of_le {count : Nat} (fits : count ≤ maxBytes) :
    padding count = .ok (blanks count) :=
  if_pos fits

theorem padding_of_lt {count : Nat} (long : maxBytes < count) : padding count = .error {} :=
  if_neg (Nat.not_le.mpr long)

theorem column_of_le {width : Nat} (fits : width ≤ maxWidth) : column width = .ok (blanks width) :=
  if_pos fits

theorem column_of_lt {width : Nat} (wide : maxWidth < width) : column width = .error ⟨width⟩ :=
  if_neg (Nat.not_le.mpr wide)

end ViewMarkup.Text
