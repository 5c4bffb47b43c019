import SchemaChange.Proofs.Reserved

/-!
# Lists with commas

The items of a list stand between commas, with any blanks around them. What an item does not hold
the list does not hold either, and splitting the list at its commas gives the items back.
-/

namespace SchemaChange.Form

open SchemaChange.Text

/-- Texts of the given forms, with a comma and blanks between each two of them. -/
def separated : List (Language Char) → Language Char
  | [] => 1
  | [item] => item
  | item :: next :: more => item * (space * ({[',']} * (space * separated (next :: more))))

/-- A list between blanks. -/
def listing (items : List (Language Char)) : Language Char :=
  space * (separated items * space)

section

variable {c : Char} {u v w x gap gap' : List Char} {item next : Language Char}
  {items more : List (Language Char)}

theorem mem_separated_cons :
    w ∈ separated (item :: next :: more) ↔ ∃ v ∈ item, ∃ gap ∈ space, ∃ gap' ∈ space,
      ∃ rest ∈ separated (next :: more), w = v ++ (gap ++ ',' :: (gap' ++ rest)) := by
  constructor
  · intro hw
    obtain ⟨v, hv, _, hw₁, rfl⟩ := Language.mem_mul.mp hw
    obtain ⟨gap, hgap, _, hw₂, rfl⟩ := Language.mem_mul.mp hw₁
    obtain ⟨_, rfl, _, hw₃, rfl⟩ := Language.mem_mul.mp hw₂
    obtain ⟨gap', hgap', rest, hrest, rfl⟩ := Language.mem_mul.mp hw₃
    exact ⟨v, hv, gap, hgap, gap', hgap', rest, hrest, rfl⟩
  · rintro ⟨v, hv, gap, hgap, gap', hgap', rest, hrest, rfl⟩
    refine Language.append_mem_mul hv (Language.append_mem_mul hgap ?_)
    exact Language.append_mem_mul (a := [',']) rfl (Language.append_mem_mul hgap' hrest)

theorem mem_listing :
    w ∈ listing items ↔
      ∃ gap ∈ space, ∃ v ∈ separated items, ∃ gap' ∈ space, w = gap ++ (v ++ gap') := by
  constructor
  · intro hw
    obtain ⟨gap, hgap, _, hrest, rfl⟩ := Language.mem_mul.mp hw
    obtain ⟨v, hv, gap', hgap', rfl⟩ := Language.mem_mul.mp hrest
    exact ⟨gap, hgap, v, hv, gap', hgap', rfl⟩
  · rintro ⟨gap, hgap, v, hv, gap', hgap', rfl⟩
    exact Language.append_mem_mul hgap (Language.append_mem_mul hv hgap')

/-- The usual way to write a list. -/
theorem intercalate_mem_separated {α : Type} {list : List α} {f : α → List Char}
    {form : α → Language Char} (h : ∀ a ∈ list, f a ∈ form a) :
    [',', ' '].intercalate (list.map f) ∈ separated (list.map form) := by
  induction list with
  | nil => rfl
  | cons a more ih =>
    rw [List.forall_mem_cons] at h
    cases more with
    | nil =>
      rw [List.map_singleton, List.map_singleton, List.intercalate_singleton]
      exact h.1
    | cons b more =>
      have hmore := ih h.2
      simp only [List.map_cons, List.intercalate_cons_cons] at hmore ⊢
      exact mem_separated_cons.mpr
        ⟨f a, h.1, [], nil_mem_space, [' '], by decide, _, hmore, by simp⟩

theorem intercalate_mem_listing {α : Type} {list : List α} {f : α → List Char}
    {form : α → Language Char} (h : ∀ a ∈ list, f a ∈ form a) :
    [',', ' '].intercalate (list.map f) ∈ listing (list.map form) :=
  mem_listing.mpr
    ⟨[], nil_mem_space, _, intercalate_mem_separated h, [], nil_mem_space, by simp⟩

/-- What holds of the texts that are listed holds of all items, if each has one text. -/
theorem forall_mem_singletons {α : Type} {list : List α} {f : α → List Char}
    {P : List Char → Prop} (h : ∀ a ∈ list, P (f a)) :
    ∀ item ∈ list.map fun a => ({f a} : Language Char), ∀ v ∈ item, P v := by
  intro item hitem v hv
  obtain ⟨a, ha, rfl⟩ := List.mem_map.mp hitem
  obtain rfl : v = f a := hv
  exact h a ha

/-! ## Fragments of a list -/

theorem infix_of_infix_space_append (hne : x ≠ []) (hx : ∀ c ∈ x, isBlank c = false)
    (hgap : gap ∈ space) (h : x <:+: gap ++ v) : x <:+: v := by
  obtain ⟨c, x, rfl⟩ := List.exists_cons_of_ne_nil hne
  have hmem : c ∉ gap := by
    intro hmem
    have := hgap c hmem
    rw [hx c (by simp)] at this
    cases this
  exact infix_of_infix_append hmem h

theorem infix_of_infix_append_space (hne : x ≠ []) (hx : ∀ c ∈ x, isBlank c = false)
    (hgap : gap ∈ space) (h : x <:+: u ++ gap) : x <:+: u := by
  cases gap with
  | nil => simpa using h
  | cons b gap =>
    obtain ⟨hb, hgap⟩ := List.forall_mem_cons.mp hgap
    have hmem : b ∉ x := by
      intro hmem
      rw [hx b hmem] at hb
      cases hb
    obtain h | h := (infix_append_cons_iff hmem).mp h
    · exact h
    · have := infix_of_infix_space_append (v := []) hne hx hgap (by simpa using h)
      exact absurd (List.eq_nil_of_infix_nil this) hne

/-- A fragment without blanks and commas lies inside an item. -/
theorem exists_item_of_infix (hne : x ≠ []) (hblank : ∀ c ∈ x, isBlank c = false) (hcomma : ',' ∉ x)
    (hw : w ∈ separated items) (h : x <:+: w) : ∃ item ∈ items, ∃ v ∈ item, x <:+: v := by
  induction items generalizing w with
  | nil =>
    obtain rfl : w = [] := hw
    exact absurd (List.eq_nil_of_infix_nil h) hne
  | cons item more ih =>
    cases more with
    | nil => exact ⟨item, by simp, w, hw, h⟩
    | cons next more =>
      obtain ⟨v, hv, gap, hgap, gap', hgap', rest, hrest, rfl⟩ := mem_separated_cons.mp hw
      rw [← List.append_assoc, infix_append_cons_iff hcomma] at h
      obtain h | h := h
      · exact ⟨item, by simp, v, hv, infix_of_infix_append_space hne hblank hgap h⟩
      · obtain ⟨other, hmem, hother⟩ :=
          ih hrest (infix_of_infix_space_append hne hblank hgap' h)
        exact ⟨other, List.mem_cons_of_mem item hmem, hother⟩

theorem exists_item_of_infix_listing (hne : x ≠ []) (hblank : ∀ c ∈ x, isBlank c = false)
    (hcomma : ',' ∉ x) (hw : w ∈ listing items) (h : x <:+: w) :
    ∃ item ∈ items, ∃ v ∈ item, x <:+: v := by
  obtain ⟨gap, hgap, v, hv, gap', hgap', rfl⟩ := mem_listing.mp hw
  exact exists_item_of_infix hne hblank hcomma hv (infix_of_infix_append_space hne hblank hgap'
    (infix_of_infix_space_append hne hblank hgap h))

theorem not_mem_listing (hblank : isBlank c = false) (hcomma : c ≠ ',')
    (hitems : ∀ item ∈ items, ∀ v ∈ item, c ∉ v) (hw : w ∈ listing items) : c ∉ w := by
  intro hmem
  obtain ⟨front, behind, heq⟩ := List.append_of_mem hmem
  have hinside : [c] <:+: w := ⟨front, behind, by simp [heq]⟩
  obtain ⟨item, hitem, v, hv, hin⟩ := exists_item_of_infix_listing (by simp)
    (by simpa using hblank) (by simpa using Ne.symm hcomma) hw hinside
  exact hitems item hitem v hv (hin.mem (by simp))

theorem clean_listing (hitems : ∀ item ∈ items, ∀ v ∈ item, Clean v) (hw : w ∈ listing items) :
    Clean w := by
  intro x hx hin
  have hblank : ∀ c ∈ x, isBlank c = false := by
    intro c hmem
    cases hc : isBlank c
    · rfl
    · exact absurd hmem (not_mem_of_reserved hx (isDelimiter_of_isBlank hc))
  obtain ⟨item, hitem, v, hv, hin⟩ := exists_item_of_infix_listing (ne_nil_of_reserved hx) hblank
    (not_mem_of_reserved hx ⟨isWord_of_isPunctuation (by decide), by decide⟩) hw hin
  exact hitems item hitem v hv x hx hin

end

end SchemaChange.Form

namespace SchemaChange.Text

open Form (space separated listing)

variable {v w gap gap' : List Char}

/-- The items of a list are those that were put into it. -/
theorem lists_of_separated {columns : List String} (hne : columns ≠ [])
    (hcomma : ∀ column ∈ columns, ',' ∉ column.toList)
    (htrim : ∀ column ∈ columns, trimChars column.toList = column.toList)
    (hw : w ∈ separated (columns.map fun column => {column.toList})) (hgap : gap ∈ space)
    (hgap' : gap' ∈ space) : Lists (gap ++ (w ++ gap')) columns := by
  have hspace {gap : List Char} (hgap : gap ∈ space) : ',' ∉ gap := by
    intro hmem
    exact absurd (hgap ',' hmem) (by decide)
  induction columns generalizing w gap with
  | nil => exact absurd rfl hne
  | cons column more ih =>
    rw [List.forall_mem_cons] at hcomma htrim
    have hsingle {gap gap' : List Char} (hgap : gap ∈ space) (hgap' : gap' ∈ space) :
        ',' ∉ gap ++ (column.toList ++ gap') := by
      simp [hspace hgap, hspace hgap', hcomma.1]
    have htrims {gap gap' : List Char} (hgap : gap ∈ space) (hgap' : gap' ∈ space) :
        Trims (gap ++ (column.toList ++ gap')) column.toList := by
      rw [trims_iff, trimChars_space_append hgap hgap', htrim.1]
    cases more with
    | nil =>
      obtain rfl : w = column.toList := hw
      have hlast := Lists.last (hsingle hgap hgap') (htrims hgap hgap')
      rwa [String.ofList_toList] at hlast
    | cons next more =>
      obtain ⟨_, rfl, before, hbefore, behind, hbehind, rest, hrest, rfl⟩ :=
        Form.mem_separated_cons.mp hw
      have hmore := ih (by simp) hcomma.2 htrim.2 hrest hbehind
      have hnext := Lists.next (hsingle hgap hbefore) (htrims hgap hbefore) hmore
      rw [String.ofList_toList] at hnext
      simpa using hnext

theorem listItems_of_listing {columns : List String} (hne : columns ≠ [])
    (hcomma : ∀ column ∈ columns, ',' ∉ column.toList)
    (htrim : ∀ column ∈ columns, trimChars column.toList = column.toList)
    (hw : w ∈ listing (columns.map fun column => {column.toList})) : listItems w = columns := by
  obtain ⟨gap, hgap, v, hv, gap', hgap', rfl⟩ := Form.mem_listing.mp hw
  exact lists_iff.mp (lists_of_separated hne hcomma htrim hv hgap hgap')

section

variable {columns : List String} (hne : columns ≠ [])
  (hwords : ∀ column ∈ columns, column.toList ∈ Form.word)
  (hw : w ∈ listing (columns.map fun column => {column.toList}))

include hne hwords hw

theorem listItems_of_words : listItems w = columns :=
  listItems_of_listing hne
    (fun column hcolumn => Form.not_mem_of_wording (Form.wording_of_word (hwords column hcolumn))
      (by decide) (by decide))
    (fun column hcolumn => trimChars_of_word (hwords column hcolumn)) hw

theorem without_of_words : w ∈ Form.without ')' := by
  refine ⟨?_, Form.not_mem_listing (by decide) (by decide) (Form.forall_mem_singletons
    fun column hcolumn => Form.not_mem_of_wording (Form.wording_of_word (hwords column hcolumn))
      (by decide) (by decide)) hw⟩
  rintro rfl
  have hempty : [""] = columns := listItems_of_words hne hwords hw
  exact (hwords "" (by simp [← hempty])).1 rfl

end

end SchemaChange.Text
