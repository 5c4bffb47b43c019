import SchemaChange.Proofs.Quoted

/-!
# Where a value list is split

A value list can be understood without reading it from the left. Whether a comma separates two
values follows from what stands before it: the run of backslashes at its front, and the number of
quotes that none of those takes. The tokens are the pieces between the separators.
-/

namespace SchemaChange.ValueList

open SchemaChange.Text

variable {s : List Char} {i n : Nat} {c mark : Char} {positions : List (List Nat)}

/-- How many backslashes stand in a row directly before a position. -/
def backslashesBefore (s : List Char) (i : Nat) : Nat :=
  ((s.take i).reverse.takeWhile (· == '\\')).length

/-- A backslash takes the next character, and two of them are one that is taken. So a position is
escaped if the backslashes before it are odd in number. -/
def isEscaped (s : List Char) (i : Nat) : Bool :=
  backslashesBefore s i % 2 == 1

/-- Whether a character stands at a position and counts as a mark there. -/
def marks (mark : Char) (s : List Char) (i : Nat) : Bool :=
  s[i]? == some mark && !isEscaped s i

/-- How many quotes before a position are not escaped. -/
def quotesBefore (s : List Char) (i : Nat) : Nat :=
  (List.range i).countP (marks '\'' s)

/-- A comma separates two values where it is not escaped and all quotes before it are closed. -/
def separates (s : List Char) (i : Nat) : Bool :=
  marks ',' s i && quotesBefore s i % 2 == 0

/-- The positions of a text in pieces, from one separator to the next. -/
def pieces (s : List Char) : List (List Nat) :=
  (List.range s.length).splitOnP (separates s)

/-- The characters at some positions, without the backslashes and the quotes that are marks. -/
def kept (s : List Char) (piece : List Nat) : List Char :=
  (piece.filter fun i => !(marks '\\' s i || marks '\'' s i)).filterMap fun i => s[i]?

/-- The tokens of a value list by the positions of its characters. -/
def tokensByPosition (raw : String) : List String :=
  let s := trimChars raw.toList
  let tokens := (pieces s).map fun piece => trimChars (kept s piece)
  (tokens.dropLast ++ tokens.getLast?.toList.filter (· ≠ [])).map String.ofList

/-! ## From one position to the next -/

/-- One more turns odd to even and even to odd. -/
theorem odd_succ (n : Nat) : ((n + 1) % 2 == 1) = !(n % 2 == 1) := by
  rw [Bool.eq_iff_iff]
  simp only [beq_iff_eq, Bool.not_eq_true', beq_eq_false_iff_ne]
  omega

@[simp] theorem isEscaped_zero : isEscaped s 0 = false := by
  simp [isEscaped, backslashesBefore]

@[simp] theorem quotesBefore_zero : quotesBefore s 0 = 0 := by
  simp [quotesBefore]

theorem isEscaped_succ (h : s[i]? = some c) :
    isEscaped s (i + 1) = (c == '\\' && !isEscaped s i) := by
  have hrun : backslashesBefore s (i + 1) =
      if c = '\\' then backslashesBefore s i + 1 else 0 := by
    unfold backslashesBefore
    rw [List.take_add_one, h, Option.toList_some, List.reverse_append, List.reverse_singleton,
      List.singleton_append, List.takeWhile_cons]
    by_cases hc : c = '\\'
    · simp [hc]
    · simp [hc]
  unfold isEscaped
  rw [hrun]
  by_cases hc : c = '\\'
  · rw [if_pos hc, beq_iff_eq.mpr hc, Bool.true_and, odd_succ]
  · rw [if_neg hc, beq_false_of_ne hc]
    rfl

/-- Whether a position stands inside quotes. -/
def isQuoted (s : List Char) (i : Nat) : Bool :=
  quotesBefore s i % 2 == 1

theorem isQuoted_succ : isQuoted s (i + 1) = (isQuoted s i ^^ marks '\'' s i) := by
  have hcount : quotesBefore s (i + 1) = quotesBefore s i + if marks '\'' s i then 1 else 0 := by
    unfold quotesBefore
    rw [List.range_succ, List.countP_append, List.countP_singleton]
  unfold isQuoted
  rw [hcount]
  cases marks '\'' s i with
  | false => simp
  | true => rw [if_pos rfl, Bool.xor_true, odd_succ]

theorem marks_eq (h : s[i]? = some c) : marks mark s i = (c == mark && !isEscaped s i) := by
  rw [marks, h]
  rfl

theorem separates_eq (h : s[i]? = some c) :
    separates s i = (c == ',' && !isEscaped s i && !isQuoted s i) := by
  have hparity : (quotesBefore s i % 2 == 0) = !isQuoted s i := by
    unfold isQuoted
    rw [Bool.eq_iff_iff]
    simp only [beq_iff_eq, Bool.not_eq_true', beq_eq_false_iff_ne]
    omega
  rw [separates, marks_eq h, hparity]

theorem kept_cons (h : s[i]? = some c) (piece : List Nat) :
    kept s (i :: piece) =
      if !isEscaped s i && (c == '\\' || c == '\'') then kept s piece else c :: kept s piece := by
  have hmarks : (marks '\\' s i || marks '\'' s i) =
      (!isEscaped s i && (c == '\\' || c == '\'')) := by
    rw [marks_eq h, marks_eq h, ← Bool.and_or_distrib_right, Bool.and_comm]
  unfold kept
  rw [List.filter_cons, hmarks]
  cases !isEscaped s i && (c == '\\' || c == '\'') with
  | true => rfl
  | false => simp [h]

/-! ## The pieces of a text -/

/-- What a reading does with one character: it notes a mark and goes on, and then it ends the token,
leaves the character out, or puts it into the token. -/
theorem rawTokens_cons (quoted escaped : Bool) (c : Char) (rest : List Char) :
    rawTokens quoted escaped (c :: rest) =
      let behind := rawTokens (quoted ^^ (c == '\'' && !escaped)) (c == '\\' && !escaped) rest
      if c == ',' && !escaped && !quoted then [] :: behind
      else if !escaped && (c == '\\' || c == '\'') then behind
      else rawTokens.extend c behind := by
  rw [rawTokens]
  cases escaped with
  | true => simp
  | false =>
    by_cases hbackslash : c = '\\'
    · simp [hbackslash]
    · by_cases hquote : c = '\''
      · simp [hquote]
      · simp [hbackslash, hquote, beq_false_of_ne hbackslash, beq_false_of_ne hquote]

/-- A piece without its first position, where the character there is a mark; or else the character
and then the rest of the piece. -/
theorem map_kept_modifyHead (h : s[i]? = some c) (hne : positions ≠ []) :
    (positions.modifyHead (List.cons i)).map (kept s) =
      if !isEscaped s i && (c == '\\' || c == '\'') then positions.map (kept s)
      else rawTokens.extend c (positions.map (kept s)) := by
  obtain ⟨piece, more, rfl⟩ := List.exists_cons_of_ne_nil hne
  rw [List.modifyHead_cons, List.map_cons, kept_cons h, List.map_cons]
  split
  · rfl
  · rfl

/-- From any position on, the tokens are those of the pieces behind it: what a reading has noted so
far is told by the position alone. -/
theorem rawTokens_drop (s : List Char) (n : Nat) : ∀ i, i + n = s.length →
    rawTokens (isQuoted s i) (isEscaped s i) (s.drop i) =
      ((List.range' i n).splitOnP (separates s)).map (kept s) := by
  induction n with
  | zero =>
    intro i hi
    rw [List.drop_eq_nil_of_le (by omega)]
    simp [rawTokens, kept]
  | succ n ih =>
    intro i hi
    have hlt : i < s.length := by omega
    have hc : s[i]? = some s[i] := List.getElem?_eq_getElem hlt
    have hbehind := ih (i + 1) (by omega)
    rw [isQuoted_succ, isEscaped_succ hc, marks_eq hc] at hbehind
    rw [List.drop_eq_getElem_cons hlt, rawTokens_cons, hbehind, List.range'_succ,
      List.splitOnP_cons_eq_if_modifyHead, separates_eq hc]
    simp only
    split
    · simp [kept]
    · exact (map_kept_modifyHead hc (List.splitOnP_ne_nil _ _)).symm

/-- The tokens before trimming are the pieces of the text. -/
theorem rawTokens_eq_pieces (s : List Char) :
    rawTokens false false s = (pieces s).map (kept s) := by
  have hall := rawTokens_drop s s.length 0 (Nat.zero_add _)
  rwa [isEscaped_zero, List.drop_zero, ← List.range_eq_range', isQuoted, quotesBefore_zero] at hall

/-- There is at most one token for each comma, and one more. -/
theorem length_rawTokens_le (quoted escaped : Bool) (s : List Char) :
    (rawTokens quoted escaped s).length ≤ s.count ',' + 1 := by
  induction s generalizing quoted escaped with
  | nil => simp [rawTokens]
  | cons c s ih =>
    have hbehind := ih (quoted ^^ (c == '\'' && !escaped)) (c == '\\' && !escaped)
    have hcount : s.count ',' ≤ (c :: s).count ',' := List.count_le_count_cons
    rw [rawTokens_cons]
    simp only
    split
    · rename_i hcomma
      simp only [Bool.and_eq_true, beq_iff_eq] at hcomma
      obtain ⟨⟨rfl, -⟩, -⟩ := hcomma
      rw [List.count_cons_self, List.length_cons]
      exact Nat.succ_le_succ hbehind
    · split
      · omega
      · rw [length_extend_rawTokens]
        omega

/-- Leaving out an empty token at the end leaves the tokens before it and, unless it is empty, the
last one. -/
theorem dropEmptyEnd_eq {tokens : List (List Char)} (hne : tokens ≠ []) :
    dropEmptyEnd tokens = tokens.dropLast ++ tokens.getLast?.toList.filter (· ≠ []) := by
  obtain ⟨before, last, rfl⟩ := (List.eq_nil_or_concat tokens).resolve_left hne
  rw [List.concat_eq_append, dropEmptyEnd_concat, List.dropLast_concat, List.getLast?_concat]
  by_cases hlast : last = []
  · simp [hlast]
  · simp [hlast]

/-- Reading a value list from the left gives the tokens that the positions of its characters tell,
one for each comma and one more at most. -/
theorem tokens_eq_tokensByPosition (raw : String) :
    tokens raw = tokensByPosition raw ∧ (tokens raw).length ≤ raw.toList.count ',' + 1 := by
  have hne : (rawTokens false false (trimChars raw.toList)).map trimChars ≠ [] := by
    simp [rawTokens_ne_nil]
  refine ⟨?_, ?_⟩
  · rw [tokens, dropEmptyEnd_eq hne, rawTokens_eq_pieces, List.map_map]
    rfl
  · calc (tokens raw).length
        ≤ (trimmedTokens raw.toList).length := by
          have hle := length_tokens_le raw.toList
          rwa [String.ofList_toList] at hle
      _ = (rawTokens false false raw.toList).length := List.length_map _
      _ ≤ raw.toList.count ',' + 1 := length_rawTokens_le false false raw.toList

end SchemaChange.ValueList
