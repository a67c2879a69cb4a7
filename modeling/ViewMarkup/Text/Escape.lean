/-! # Entity escaping

Text that stands in a body or in an attribute value must not be read as a tag or as the end of the
value. Four characters are replaced by entities; every other character stands for itself.
`escape` returns a text without any of the four as it is, and otherwise replaces them one by one.
-/

namespace ViewMarkup.Text

/-- The entity that stands for a character, when the character has one. -/
def entity? : Char → Option String
  | '&' => some "&amp;"
  | '<' => some "&lt;"
  | '>' => some "&gt;"
  | '"' => some "&quot;"
  | _ => none

/-- Whether a character is replaced by an entity. -/
def isSpecial (c : Char) : Bool :=
  (entity? c).isSome

/-- The written form of one character. -/
def escapeChar (c : Char) : List Char :=
  match entity? c with
  | some entity => entity.toList
  | none => [c]

/-- The written form of a list of characters, one after the other. -/
def escapeChars (chars : List Char) : List Char :=
  chars.flatMap escapeChar

/-- Text made safe for a body or an attribute value. -/
def escape (text : String) : String :=
  if text.toList.any isSpecial then String.ofList (escapeChars text.toList) else text

theorem escapeChars_cons (c : Char) (rest : List Char) :
    escapeChars (c :: rest) = escapeChar c ++ escapeChars rest := by
  simp [escapeChars]

theorem escapeChars_append (first second : List Char) :
    escapeChars (first ++ second) = escapeChars first ++ escapeChars second := by
  simp [escapeChars]

theorem escapeChar_of_not_special {c : Char} (plain : isSpecial c = false) :
    escapeChar c = [c] := by
  unfold isSpecial at plain
  unfold escapeChar
  cases found : entity? c with
  | none => rfl
  | some entity => simp [found] at plain

theorem escapeChars_of_not_special {chars : List Char} (plain : chars.any isSpecial = false) :
    escapeChars chars = chars := by
  induction chars with
  | nil => rfl
  | cons c rest ih =>
    simp only [List.any_cons, Bool.or_eq_false_iff] at plain
    rw [escapeChars_cons, escapeChar_of_not_special plain.1, ih plain.2, List.singleton_append]

/-- The early return of `escape` does not show. -/
@[simp] theorem toList_escape (text : String) :
    (escape text).toList = escapeChars text.toList := by
  unfold escape
  split
  · exact String.toList_ofList
  · rename_i plain
    exact (escapeChars_of_not_special (Bool.eq_false_iff.mpr plain)).symm

end ViewMarkup.Text
