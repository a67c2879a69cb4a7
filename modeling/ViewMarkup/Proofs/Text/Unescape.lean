import ViewMarkup.Text.Escape

/-! # Reading entities back

`unescape` replaces the four entities by their characters in one pass from left to right, and leaves
every other character as it is. It undoes escaping, whatever entities the text itself holds, so
different texts are escaped differently. Escaping writes one character after the other, so texts may
be escaped part by part, and a text without special characters stays as it is. An escaped text holds
no character that could end a value or start a tag. An ampersand stands in it only where one of the
four entities begins, so what the pass reads is never what an earlier part of it wrote.
-/

namespace ViewMarkup.Text

/-- Replaces entities by the characters they stand for. -/
def unescape : List Char → List Char
  | '&' :: 'a' :: 'm' :: 'p' :: ';' :: rest => '&' :: unescape rest
  | '&' :: 'l' :: 't' :: ';' :: rest => '<' :: unescape rest
  | '&' :: 'g' :: 't' :: ';' :: rest => '>' :: unescape rest
  | '&' :: 'q' :: 'u' :: 'o' :: 't' :: ';' :: rest => '"' :: unescape rest
  | c :: rest => c :: unescape rest
  | [] => []

/-- Only an ampersand starts an entity. -/
theorem unescape_cons_of_ne {c : Char} (plain : c ≠ '&') (rest : List Char) :
    unescape (c :: rest) = c :: unescape rest := by
  rw [unescape] <;> intros <;> contradiction

theorem unescape_escapeChar_append (c : Char) (rest : List Char) :
    unescape (escapeChar c ++ rest) = c :: unescape rest := by
  rw [escapeChar]
  fun_cases entity? c with
  | case1 | case2 | case3 | case4 => rfl
  | case5 _ plain => exact unescape_cons_of_ne plain rest

/-- Escaping loses nothing. -/
theorem unescape_escapeChars (chars : List Char) : unescape (escapeChars chars) = chars := by
  induction chars with
  | nil => rfl
  | cons c rest ih => rw [escapeChars_cons, unescape_escapeChar_append, ih]

/-- Whether a character neither ends a value nor starts or ends a tag. -/
def isSafe (c : Char) : Bool :=
  c != '<' && c != '>' && c != '"'

theorem all_isSafe_escapeChar (c : Char) : (escapeChar c).all isSafe := by
  rw [escapeChar]
  fun_cases entity? c with
  | case1 | case2 | case3 | case4 => rfl
  | case5 _ _ less greater quote =>
    have safe : isSafe c := by simpa [isSafe] using ⟨⟨less, greater⟩, quote⟩
    simp [safe]

/-- An escaped text is safe to stand in a value or between tags. -/
theorem all_isSafe_escapeChars (chars : List Char) : (escapeChars chars).all isSafe := by
  rw [escapeChars, List.all_flatMap]
  simp [all_isSafe_escapeChar]

theorem not_mem_escapeChars {c : Char} (special : isSafe c = false) (chars : List Char) :
    c ∉ escapeChars chars := by
  intro member
  rw [List.all_eq_true.mp (all_isSafe_escapeChars chars) c member] at special
  contradiction

/-! ## Where entities begin -/

/-- The four entities. -/
def entities : List String :=
  ["&amp;", "&lt;", "&gt;", "&quot;"]

/-- No ampersand stands inside an entity. -/
theorem exists_name_of_entity? {c : Char} {entity : String} (found : entity? c = some entity) :
    entity ∈ entities ∧ ∃ name, entity.toList = '&' :: name ∧ '&' ∉ name := by
  revert found
  fun_cases entity? c with
  | case1 | case2 | case3 | case4 =>
    rintro ⟨⟩
    exact ⟨by decide, _, rfl, by decide⟩
  | case5 => exact nofun

theorem escapeChar_of_entity? {c : Char} {entity : String} (found : entity? c = some entity) :
    escapeChar c = entity.toList := by
  rw [escapeChar, found]

/-- Where no entity begins, a character stands for itself. -/
theorem unescape_cons_of_not_prefix {c : Char} {rest : List Char}
    (plain : ∀ entity ∈ entities, ¬ entity.toList <+: c :: rest) :
    unescape (c :: rest) = c :: unescape rest := by
  rw [unescape]
  · rintro tail rfl rfl
    exact plain "&amp;" (by decide) ⟨tail, rfl⟩
  · rintro tail rfl rfl
    exact plain "&lt;" (by decide) ⟨tail, rfl⟩
  · rintro tail rfl rfl
    exact plain "&gt;" (by decide) ⟨tail, rfl⟩
  · rintro tail rfl rfl
    exact plain "&quot;" (by decide) ⟨tail, rfl⟩

theorem suffix_of_suffix_append {c : Char} {front rest after : List Char} (absent : c ∉ front)
    (ends : c :: after <:+ front ++ rest) : c :: after <:+ rest := by
  induction front with
  | nil => exact ends
  | cons first front ih =>
    rw [List.mem_cons, not_or] at absent
    rw [List.cons_append, List.suffix_cons_iff] at ends
    rcases ends with whole | later
    · exact absurd (List.cons.inj whole).1 absent.1
    · exact ih absent.2 later

/-- Every ampersand of an escaped text begins an entity. -/
theorem exists_entity_of_suffix {chars after : List Char}
    (ends : '&' :: after <:+ escapeChars chars) :
    ∃ entity ∈ entities, entity.toList <+: '&' :: after := by
  induction chars with
  | nil => exact absurd (List.suffix_nil.mp ends) (List.cons_ne_nil _ _)
  | cons c chars ih =>
    rw [escapeChars_cons] at ends
    cases found : entity? c with
    | none =>
      rw [escapeChar, found] at ends
      refine ih (suffix_of_suffix_append ?_ ends)
      rw [List.mem_singleton]
      rintro rfl
      contradiction
    | some entity =>
      obtain ⟨listed, name, written, inside⟩ := exists_name_of_entity? found
      rw [escapeChar_of_entity? found, written, List.cons_append, List.suffix_cons_iff] at ends
      -- The ampersand is the one that begins the entity, or it stands behind it.
      rcases ends with whole | later
      · refine ⟨entity, listed, escapeChars chars, ?_⟩
        rw [written, whole, List.cons_append]
      · exact ih (suffix_of_suffix_append inside later)

/-! ## Escaped text -/

/-- The early return of `escape` does not show. -/
theorem escape_eq (text : String) : escape text = String.ofList (escapeChars text.toList) := by
  rw [← toList_escape, String.ofList_toList]

theorem escape_append (first second : String) :
    escape (first ++ second) = escape first ++ escape second := by
  rw [escape_eq, escape_eq, escape_eq, String.toList_append, escapeChars_append,
    String.ofList_append]

theorem unescape_escape (text : String) : String.ofList (unescape (escape text).toList) = text := by
  rw [toList_escape, unescape_escapeChars, String.ofList_toList]

theorem isSpecial_of_ne {c : Char} (plain : c ≠ '&' ∧ c ≠ '<' ∧ c ≠ '>' ∧ c ≠ '"') :
    isSpecial c = false := by
  obtain ⟨ampersand, less, greater, quote⟩ := plain
  rw [isSpecial]
  fun_cases entity? c with
  | case1 | case2 | case3 | case4 => contradiction
  | case5 => rfl

/-- Text without any of the four characters is written as it is. -/
theorem escapeChars_of_ne {chars : List Char}
    (plain : ∀ c ∈ chars, c ≠ '&' ∧ c ≠ '<' ∧ c ≠ '>' ∧ c ≠ '"') : escapeChars chars = chars := by
  apply escapeChars_of_not_special
  rw [List.any_eq_false]
  intro c member
  rw [isSpecial_of_ne (plain c member)]
  exact Bool.false_ne_true

/-- Escaping can be read back, and an escaped text holds no angle bracket, no quote and no ampersand but
those that begin entities. -/
theorem escape_lossless (text other : String) :
    escape text = String.ofList (escapeChars text.toList) ∧
    ((∀ c ∈ text.toList, c ≠ '&' ∧ c ≠ '<' ∧ c ≠ '>' ∧ c ≠ '"') →
      escape text = text ∧ String.ofList (escapeChars text.toList) = text) ∧
    (∀ c entity rest, entity? c = some entity →
      unescape (entity.toList ++ rest) = c :: unescape rest) ∧
    (∀ c rest, (∀ entity ∈ entities, ¬ entity.toList <+: c :: rest) →
      unescape (c :: rest) = c :: unescape rest) ∧
    unescape [] = [] ∧
    String.ofList (unescape (escape text).toList) = text ∧
    (escape text = escape other → text = other) ∧
    (∀ c ∈ (escape text).toList, c ≠ '<' ∧ c ≠ '>' ∧ c ≠ '"') ∧
    (∀ after, '&' :: after <:+ (escape text).toList →
      ∃ entity ∈ entities, entity.toList <+: '&' :: after) ∧
    escape (text ++ other) = escape text ++ escape other := by
  refine ⟨escape_eq text, ?_, ?_, fun c rest => unescape_cons_of_not_prefix, rfl,
    unescape_escape text, ?_, ?_, ?_, escape_append text other⟩
  · intro plain
    have written : String.ofList (escapeChars text.toList) = text := by
      rw [escapeChars_of_ne plain, String.ofList_toList]
    exact ⟨(escape_eq text).trans written, written⟩
  · intro c entity rest found
    rw [← escapeChar_of_entity? found, unescape_escapeChar_append]
  · intro same
    rw [← unescape_escape text, same, unescape_escape]
  · intro c member
    rw [toList_escape] at member
    have safe := List.all_eq_true.mp (all_isSafe_escapeChars text.toList) c member
    simpa [isSafe, and_assoc] using safe
  · intro after ends
    rw [toList_escape] at ends
    exact exists_entity_of_suffix ends

/-- Text that already holds entities, one of them cut short by the end of the text: reading it back
once does not read what it has just written. -/
theorem escape_lossless_entities :
    let text := "&amp;lt;&gt"
    escape text = "&amp;amp;lt;&amp;gt" ∧ String.ofList (unescape (escape text).toList) = text ∧
      escape (text ++ ";") = escape text ++ escape ";" ∧ escape text ≠ escape "&lt;>" ∧
      ∃ entity ∈ entities, entity.toList <+: "&amp;gt".toList := by
  intro text
  obtain ⟨_, _, _, _, _, read, _, _, ampersands, parts⟩ := escape_lossless text ";"
  obtain ⟨_, _, _, _, _, _, injective, _⟩ := escape_lossless text "&lt;>"
  refine ⟨by decide, read, parts, mt injective (by decide), ampersands "amp;gt".toList ?_⟩
  exact ⟨"&amp;amp;lt;".toList, by decide⟩

end ViewMarkup.Text
