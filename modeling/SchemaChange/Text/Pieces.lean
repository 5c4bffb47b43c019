import SchemaChange.Text.CharClass

/-!
# Trimming, splitting and searching
-/

namespace SchemaChange.Text

/-- The characters without the blanks at both ends. -/
def trimChars (s : List Char) : List Char :=
  ((s.dropWhile isBlank).reverse.dropWhile isBlank).reverse

theorem isBlank_of_head?_dropWhile {s : List Char} {c : Char}
    (h : (s.dropWhile isBlank).head? = some c) : isBlank c = false := by
  have := List.head?_dropWhile_not isBlank s
  simpa [h] using this

/-- Trimming takes nothing but blanks, from the two ends. -/
theorem exists_eq_append_trimChars (s : List Char) :
    ∃ before behind, s = before ++ trimChars s ++ behind ∧
      before.all isBlank ∧ behind.all isBlank := by
  refine ⟨s.takeWhile isBlank, ((s.dropWhile isBlank).reverse.takeWhile isBlank).reverse, ?_, ?_, ?_⟩
  · have h := congrArg List.reverse
      (List.takeWhile_append_dropWhile (p := isBlank) (l := (s.dropWhile isBlank).reverse))
    simp only [List.reverse_append, List.reverse_reverse] at h
    rw [trimChars, List.append_assoc, h, List.takeWhile_append_dropWhile]
  · exact List.all_takeWhile
  · simp [List.all_takeWhile]

/-- A trimmed text does not begin with a blank. -/
theorem isBlank_of_head?_trimChars {s : List Char} {c : Char}
    (h : (trimChars s).head? = some c) : isBlank c = false := by
  obtain ⟨tail, htail⟩ : trimChars s <+: s.dropWhile isBlank := by
    simpa [trimChars] using
      (List.dropWhile_suffix isBlank (l := (s.dropWhile isBlank).reverse)).reverse
  apply isBlank_of_head?_dropWhile (s := s)
  rw [← htail, List.head?_append, h]
  rfl

/-- A trimmed text does not end with a blank. -/
theorem isBlank_of_getLast?_trimChars {s : List Char} {c : Char}
    (h : (trimChars s).getLast? = some c) : isBlank c = false := by
  rw [trimChars, List.getLast?_reverse] at h
  exact isBlank_of_head?_dropWhile h

/-- The text without the blanks at both ends. -/
def trim (s : String) : String :=
  String.ofList (trimChars s.toList)

/-- Whether a text occurs inside another. -/
def occursIn (part : List Char) : List Char → Bool
  | [] => part.isEmpty
  | c :: s => part.isPrefixOf (c :: s) || occursIn part s

/-- The items between the commas of a list, each trimmed. -/
def listItems (s : List Char) : List String :=
  (s.splitOn ',').map fun item => String.ofList (trimChars item)

end SchemaChange.Text
