import ViewMarkup.Text.Quoted

/-! # Reading quoted text back

`unquote` reads the written forms of characters from left to right and gives the characters. It
undoes quoting for any text, so different texts are quoted differently. A quoted text holds no line
break.
-/

namespace ViewMarkup.Text

/-! ## Hexadecimal numbers -/

/-- The value of a hexadecimal digit. -/
def hexDigit (c : Char) : Nat :=
  if c.isDigit then c.toNat - '0'.toNat else c.toNat - 'a'.toNat + 10

/-- The number that hexadecimal digits write. -/
def hexNumber (digits : List Char) : Nat :=
  digits.foldl (fun number digit => 16 * number + hexDigit digit) 0

theorem hexDigit_digitChar : ∀ digit < 16, hexDigit (Nat.digitChar digit) = digit := by
  decide

theorem hexNumber_toDigits (number : Nat) : hexNumber (Nat.toDigits 16 number) = number := by
  induction number using Nat.strongRecOn with
  | ind number ih =>
    rw [Nat.toDigits_eq_if (by decide)]
    split
    · next small => simp [hexNumber, hexDigit_digitChar number small]
    · next large =>
      have front := ih (number / 16) (by omega)
      have last := hexDigit_digitChar (number % 16) (Nat.mod_lt _ (by decide))
      rw [hexNumber] at front ⊢
      rw [List.foldl_append, front, List.foldl_cons, List.foldl_nil, last]
      omega

theorem not_mem_toDigits {c : Char} (other : ∀ digit < 16, c ≠ Nat.digitChar digit) (number : Nat) :
    c ∉ Nat.toDigits 16 number := by
  induction number using Nat.strongRecOn with
  | ind number ih =>
    rw [Nat.toDigits_eq_if (by decide)]
    split
    · next small => simpa using other number small
    · next large =>
      rw [List.mem_append, List.mem_singleton]
      rintro (front | last)
      · exact ih (number / 16) (by omega) front
      · exact other (number % 16) (Nat.mod_lt _ (by decide)) last

/-! ## Quoted characters -/

/-- Replaces the written forms of characters by the characters. -/
def unquote : List Char → List Char
  | '\\' :: 'u' :: '\x7b' :: rest =>
    Char.ofNat (hexNumber (rest.takeWhile (· != '\x7d'))) ::
      unquote ((rest.dropWhile (· != '\x7d')).drop 1)
  | '\\' :: 't' :: rest => '\t' :: unquote rest
  | '\\' :: 'n' :: rest => '\n' :: unquote rest
  | '\\' :: 'r' :: rest => '\r' :: unquote rest
  | '\\' :: '0' :: rest => '\x00' :: unquote rest
  | '\\' :: c :: rest => c :: unquote rest
  | c :: rest => c :: unquote rest
  | [] => []
termination_by chars => chars.length
decreasing_by
  all_goals simp only [List.length_cons, List.length_drop]
  · have shorter := (List.dropWhile_sublist (· != '\x7d') (l := rest)).length_le
    omega
  all_goals omega

/-- A backslash stands before every special form. -/
theorem unquote_cons_of_ne {c : Char} (plain : c ≠ '\\') (rest : List Char) :
    unquote (c :: rest) = c :: unquote rest := by
  rw [unquote] <;> intros <;> contradiction

theorem unquote_codeEscape_append (code : Nat) (rest : List Char) :
    unquote (codeEscape code ++ rest) = Char.ofNat code :: unquote rest := by
  have inside : ∀ digit ∈ Nat.toDigits 16 code, (digit != '\x7d') = true := by
    intro digit member
    rw [bne_iff_ne]
    rintro rfl
    exact not_mem_toDigits (by decide) code member
  have written : codeEscape code ++ rest =
      '\\' :: 'u' :: '\x7b' :: (Nat.toDigits 16 code ++ '\x7d' :: rest) := by
    simp [codeEscape]
  rw [written, unquote, List.takeWhile_append_of_pos inside, List.dropWhile_append_of_pos inside,
    List.takeWhile_cons_of_neg (by decide), List.dropWhile_cons_of_neg (by decide), List.append_nil,
    hexNumber_toDigits]
  rfl

theorem unquote_quoteChar_append (c : Char) (rest : List Char) :
    unquote (quoteChar c ++ rest) = c :: unquote rest := by
  fun_cases quoteChar c with
  | case1 | case2 => rw [List.cons_append, List.cons_append, unquote] <;> simp
  | case3 | case4 | case5 | case6 => rw [List.cons_append, List.cons_append, unquote]; rfl
  | case7 => rw [unquote_codeEscape_append, Char.ofNat_toNat]
  | case8 _ _ backslash => exact unquote_cons_of_ne backslash rest

theorem unquote_flatMap_quoteChar (chars : List Char) :
    unquote (chars.flatMap quoteChar) = chars := by
  induction chars with
  | nil => rw [List.flatMap_nil, unquote]
  | cons c rest ih => rw [List.flatMap_cons, unquote_quoteChar_append, ih]

/-- No character is written with a line break. -/
theorem newline_not_mem_quoteChar (c : Char) : '\n' ∉ quoteChar c := by
  fun_cases quoteChar c with
  | case1 | case2 | case3 | case4 | case5 | case6 => decide
  | case7 =>
    have digits := not_mem_toDigits (c := '\n') (by decide) c.toNat
    simpa [codeEscape] using digits
  | case8 _ _ _ _ newline => simpa using Ne.symm newline

/-! ## Quoted text -/

/-- The text inside the quotes. -/
def unquoted (quoted : List Char) : String :=
  String.ofList (unquote quoted.tail.dropLast)

/-- Quoting loses nothing, whatever the text holds. -/
theorem unquoted_quote (text : String) : unquoted (quote text).toList = text := by
  rw [unquoted, quote, String.toList_ofList, List.tail_cons, List.dropLast_concat,
    unquote_flatMap_quoteChar, String.ofList_toList]

/-- A quoted text stands on one line. -/
theorem newline_not_mem_quote (text : String) : '\n' ∉ (quote text).toList := by
  rw [quote, String.toList_ofList, List.mem_cons, List.mem_append, List.mem_flatMap]
  rintro (start | ⟨c, _, inside⟩ | close)
  · contradiction
  · exact newline_not_mem_quoteChar c inside
  · exact absurd close (by decide)

end ViewMarkup.Text
