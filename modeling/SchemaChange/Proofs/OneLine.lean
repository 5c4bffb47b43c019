import SchemaChange.CommandLine.Report

/-!
# Requests, one on each line

The compact form of a JSON value holds no control character: whatever a text in it holds is escaped.
So a request stays on its line, and the printed plan splits at its line ends into the requests.
-/

namespace SchemaChange

open SchemaChange.Number

/-- A text without the control characters in front of the space, the line end among them. -/
def ControlFree (s : List Char) : Prop :=
  ∀ c ∈ s, 0x20 ≤ c.toNat

section

variable {c : Char} {s t : List Char} {texts : List (List Char)}

@[simp] theorem controlFree_nil : ControlFree [] := by
  simp [ControlFree]

@[simp] theorem controlFree_cons : ControlFree (c :: s) ↔ 0x20 ≤ c.toNat ∧ ControlFree s := by
  simp [ControlFree]

@[simp] theorem controlFree_append :
    ControlFree (s ++ t) ↔ ControlFree s ∧ ControlFree t := by
  simp only [ControlFree, List.forall_mem_append]

theorem newline_not_mem (h : ControlFree s) : '\n' ∉ s := by
  intro hmem
  have := h '\n' hmem
  revert this
  decide

theorem controlFree_replicate (n : Nat) (hc : 0x20 ≤ c.toNat) :
    ControlFree (List.replicate n c) := by
  intro d hd
  obtain ⟨-, rfl⟩ := List.mem_replicate.mp hd
  exact hc

theorem controlFree_take (n : Nat) (h : ControlFree s) : ControlFree (s.take n) :=
  fun c hc => h c (List.mem_of_mem_take hc)

theorem controlFree_drop (n : Nat) (h : ControlFree s) : ControlFree (s.drop n) :=
  fun c hc => h c (List.mem_of_mem_drop hc)

theorem controlFree_intercalate (hs : ControlFree s) (h : ∀ text ∈ texts, ControlFree text) :
    ControlFree (s.intercalate texts) := by
  induction texts with
  | nil => simp
  | cons text more ih =>
    obtain ⟨htext, hmore⟩ := List.forall_mem_cons.mp h
    cases more with
    | nil => simpa using htext
    | cons next more =>
      rw [List.intercalate_cons_cons, controlFree_append, controlFree_append]
      exact ⟨⟨htext, hs⟩, ih hmore⟩

end

/-! ## Numbers -/

theorem controlFree_toDigits (n : Nat) : ControlFree (Nat.toDigits 10 n) := by
  intro c hc
  have hdigit := Nat.isDigit_of_mem_toDigits (by decide) (by decide) hc
  simp only [Char.isDigit, Bool.and_eq_true, decide_eq_true_eq, ge_iff_le, UInt32.le_iff_toNat_le]
    at hdigit
  have hzero : '0'.val.toNat = 0x30 := rfl
  have hval : c.toNat = c.val.toNat := rfl
  omega

namespace Number

variable {digits wholeMark : List Char}

theorem controlFree_positionalText (point : Int) (hmark : ControlFree wholeMark)
    (h : ControlFree digits) : ControlFree (positionalText wholeMark digits point) := by
  unfold positionalText
  split
  · simp [h, controlFree_replicate]
  · split
    · simp [h, hmark, controlFree_replicate]
    · simp [controlFree_take _ h, controlFree_drop _ h]

theorem controlFree_exponentText (power : Int) (h : ControlFree digits) :
    ControlFree (exponentText digits power) := by
  have hmark : ControlFree (if power < 0 then ['e', '-'] else ['e', '+']) := by
    split
    · simp
    · simp
  unfold exponentText
  simp only [controlFree_append]
  refine ⟨⟨?_, hmark⟩, controlFree_toDigits _⟩
  split
  · simpa using h
  · exact h

theorem controlFree_write (x : Binary64) : ControlFree (Layout.json.write x) := by
  have hmagnitude (d : Decimal) : ControlFree (Layout.json.magnitude d) := by
    have hdigits := controlFree_toDigits d.digits
    simp only [Layout.magnitude, Layout.json]
    split
    · exact controlFree_positionalText _ (by simp) hdigits
    · exact controlFree_exponentText _ hdigits
  cases x with
  | infinite negative => cases negative <;> simp [Layout.write, Layout.json]
  | finite negative significand exponent =>
    cases negative with
    | false => simpa [Layout.write] using hmagnitude _
    | true => simpa [Layout.write] using hmagnitude _

end Number

/-! ## Values -/

namespace Json

/-- A character inside quotes is escaped if it is a control character. -/
theorem controlFree_escaped (c : Char) : ControlFree (escaped c) := by
  have hdigit : ∀ n < 0x20, 0x20 ≤ (Nat.digitChar (n / 16)).toNat ∧
      0x20 ≤ (Nat.digitChar (n % 16)).toNat := by decide
  unfold escaped
  split
  case h_8 =>
    split
    · rename_i hcontrol
      simpa using hdigit c.toNat hcontrol
    · rename_i hcontrol
      simpa using hcontrol
  all_goals simp

theorem controlFree_quoted (s : String) : ControlFree (quoted s) := by
  have hinner : ControlFree (s.toList.flatMap escaped) := by
    intro c hc
    obtain ⟨d, -, hd⟩ := List.mem_flatMap.mp hc
    exact controlFree_escaped d c hd
  simp [quoted, hinner]

theorem controlFree_intText (n : Int) : ControlFree (intText n) := by
  unfold intText
  split
  · simp [controlFree_toDigits]
  · exact controlFree_toDigits _

mutual

/-- The compact form of a value holds no control character. -/
theorem controlFree_compactChars : ∀ value : Json, ControlFree (compactChars value)
  | .null => by simp [compactChars]
  | .bool true => by simp [compactChars]
  | .bool false => by simp [compactChars]
  | .int n => by
    rw [compactChars]
    exact controlFree_intText n
  | .real x => by
    rw [compactChars]
    exact controlFree_write x
  | .text s => by
    rw [compactChars]
    exact controlFree_quoted s
  | .array items => by
    have hitems := controlFree_intercalate (s := [',']) (by simp) (controlFree_compactItems items)
    simp [compactChars, hitems]
  | .object members => by
    have hmembers :=
      controlFree_intercalate (s := [',']) (by simp) (controlFree_compactMembers members)
    simp [compactChars, hmembers]

theorem controlFree_compactItems : ∀ items : List Json,
    ∀ text ∈ compactItems items, ControlFree text
  | [] => by simp [compactItems]
  | item :: rest => by
    rw [compactItems, List.forall_mem_cons]
    exact ⟨controlFree_compactChars item, controlFree_compactItems rest⟩

theorem controlFree_compactMembers : ∀ members : List (String × Json),
    ∀ text ∈ compactMembers members, ControlFree text
  | [] => by simp [compactMembers]
  | (name, value) :: rest => by
    rw [compactMembers, List.forall_mem_cons]
    refine ⟨?_, controlFree_compactMembers rest⟩
    simp [controlFree_quoted, controlFree_compactChars value]

end

/-- A value in its compact form is one line. -/
theorem newline_not_mem_compact (value : Json) : '\n' ∉ (compact value).toList := by
  rw [compact, String.toList_ofList]
  exact newline_not_mem (controlFree_compactChars value)

end Json

/-! ## Plans -/

/-- Lines that each end with a line end are found again where the text is split at them. -/
theorem splitOn_lines (lines : List String) (h : ∀ line ∈ lines, '\n' ∉ line.toList) :
    (String.join (lines.map (· ++ "\n"))).toList.splitOn '\n' =
      lines.map String.toList ++ [[]] := by
  induction lines with
  | nil => rfl
  | cons line more ih =>
    obtain ⟨hline, hmore⟩ := List.forall_mem_cons.mp h
    have hfirst : (String.join ((line :: more).map (· ++ "\n"))).toList =
        line.toList ++ '\n' :: (String.join (more.map (· ++ "\n"))).toList := by
      simp [String.toList_join]
    rw [hfirst, List.splitOn_append_cons_self_of_not_mem hline, ih hmore]
    rfl

/-- The request of a step as it is printed. -/
def Step.requestText (step : Step) : String :=
  Json.compact (Dispatch.ofStep step).toJson

theorem Step.newline_not_mem_requestText (step : Step) : '\n' ∉ step.requestText.toList :=
  Json.newline_not_mem_compact _

/-- A printed plan has a line for each step, its request. -/
theorem CommandLine.splitOn_planText (batch : Batch) :
    (planText batch).toList.splitOn '\n' =
      batch.steps.map (fun step => step.requestText.toList) ++ [[]] := by
  have hlines : planText batch =
      String.join ((batch.steps.map Step.requestText).map (· ++ "\n")) := by
    rw [planText, List.map_map]
    rfl
  rw [hlines, splitOn_lines]
  · rw [List.map_map]
    rfl
  · intro line hline
    obtain ⟨step, -, rfl⟩ := List.mem_map.mp hline
    exact step.newline_not_mem_requestText

end SchemaChange
