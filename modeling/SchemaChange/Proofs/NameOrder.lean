import SchemaChange.Migration

/-!
# The order of names

Names are compared code point by code point. That is the order of the bytes in which they are
written, since UTF-8 keeps the order of code points.
-/

namespace SchemaChange.Text

/-- The bytes in which a text is written. -/
def bytes (s : String) : List UInt8 :=
  s.toUTF8.data.toList

theorem bytes_eq_flatMap (s : String) : bytes s = s.toList.flatMap String.utf8EncodeChar := by
  rw [bytes, String.toUTF8_eq_toByteArray, ← String.utf8Encode_toList, List.utf8Encode,
    List.toList_data_toByteArray]

theorem cons_lt_cons_of_le {a b : UInt8} {s t : List UInt8} (hle : a.toNat ≤ b.toNat)
    (h : a.toNat = b.toNat → s < t) : a :: s < b :: t := by
  rw [List.cons_lt_cons_iff]
  obtain hlt | heq := Nat.lt_or_eq_of_le hle
  · exact Or.inl (UInt8.lt_iff_toNat_lt.mpr hlt)
  · exact Or.inr ⟨UInt8.toNat_inj.mp heq, h heq⟩

/-- The first byte in which two characters differ decides, whatever follows them. -/
theorem utf8EncodeChar_append_lt {c d : Char} (s t : List UInt8) (h : c < d) :
    String.utf8EncodeChar c ++ s < String.utf8EncodeChar d ++ t := by
  have hlt : c.val.toNat < d.val.toNat := h
  have hc : c.val.toNat < 0x110000 := by
    have := c.valid
    simp only [UInt32.isValidChar, Nat.isValidChar] at this
    omega
  have hd : d.val.toNat < 0x110000 := by
    have := d.valid
    simp only [UInt32.isValidChar, Nat.isValidChar] at this
    omega
  have hsplit (k : Nat) : k / 4096 = k / 64 / 64 ∧ k / 262144 = k / 64 / 64 / 64 := by
    simp only [Nat.div_div_eq_div_mul, and_self]
  simp only [String.utf8EncodeChar, hsplit]
  generalize c.val.toNat = m at *
  generalize d.val.toNat = n at *
  repeat' split
  -- The number of bytes does not shrink.
  any_goals omega
  all_goals
    repeat' refine cons_lt_cons_of_le ?_ fun _ => ?_
    all_goals
      simp only [UInt8.toNat_ofNat'] at *
      omega

theorem flatMap_utf8EncodeChar_lt {s t : List Char} (h : s < t) :
    s.flatMap String.utf8EncodeChar < t.flatMap String.utf8EncodeChar := by
  induction t generalizing s with
  | nil => exact absurd h (List.not_lt_nil s)
  | cons d t ih =>
    cases s with
    | nil =>
      obtain ⟨b, more, hd⟩ := List.exists_cons_of_ne_nil (String.utf8EncodeChar_ne_nil (c := d))
      rw [List.flatMap_nil, List.flatMap_cons, hd]
      exact List.nil_lt_cons b _
    | cons c s =>
      rw [List.flatMap_cons, List.flatMap_cons]
      obtain hlt | ⟨rfl, hlt⟩ := List.cons_lt_cons_iff.mp h
      · exact utf8EncodeChar_append_lt _ _ hlt
      · exact List.append_left_lt (ih hlt)

/-- Comparing names by their code points is comparing them by their bytes. -/
theorem bytes_lt_iff {a b : String} : bytes a < bytes b ↔ a < b := by
  rw [bytes_eq_flatMap, bytes_eq_flatMap, String.lt_iff]
  refine ⟨fun h => ?_, flatMap_utf8EncodeChar_lt⟩
  obtain hlt | heq | hgt := Std.lt_trichotomy a.toList b.toList
  · exact hlt
  · rw [heq] at h
    exact absurd h (List.lt_irrefl _)
  · exact absurd h (List.lt_asymm (flatMap_utf8EncodeChar_lt hgt))

end SchemaChange.Text

namespace SchemaChange

variable {α : Type} {name : α → String} {xs ys : List α}

/-- Values in the order of their names. Those of one name keep their order. -/
def inNameOrder (name : α → String) (xs : List α) : List α :=
  xs.mergeSort fun a b => decide (name a ≤ name b)

theorem inNameOrder_perm (name : α → String) (xs : List α) : (inNameOrder name xs).Perm xs :=
  List.mergeSort_perm xs _

theorem nameLe_trans (name : α → String) (a b c : α) (hab : decide (name a ≤ name b) = true)
    (hbc : decide (name b ≤ name c) = true) : decide (name a ≤ name c) = true :=
  decide_eq_true (String.le_trans (of_decide_eq_true hab) (of_decide_eq_true hbc))

theorem nameLe_total (name : α → String) (a b : α) :
    (decide (name a ≤ name b) || decide (name b ≤ name a)) = true := by
  simpa using String.le_total (name a) (name b)

theorem pairwise_inNameOrder (name : α → String) (xs : List α) :
    (inNameOrder name xs).Pairwise fun a b => name a ≤ name b := by
  have hsorted : (inNameOrder name xs).Pairwise fun a b => decide (name a ≤ name b) = true :=
    List.pairwise_mergeSort (nameLe_trans name) (nameLe_total name) xs
  exact hsorted.imp of_decide_eq_true

/-- The values of one name. -/
def named (name : α → String) (key : String) (xs : List α) : List α :=
  xs.filter fun x => name x = key

theorem mem_named {key : String} {x : α} : x ∈ named name key xs ↔ x ∈ xs ∧ name x = key := by
  simp [named]

/-- Where the names ascend, each is that of one value. -/
theorem named_eq_singleton (h : xs.Pairwise fun a b => name a < name b) {x : α} (hx : x ∈ xs) :
    named name (name x) xs = [x] := by
  induction xs with
  | nil => cases hx
  | cons y ys ih =>
    obtain ⟨hfirst, hmore⟩ := List.pairwise_cons.mp h
    rw [named, List.filter_cons]
    obtain rfl | hin := List.mem_cons.mp hx
    · have hnone : named name (name x) ys = [] := by
        rw [named, List.filter_eq_nil_iff]
        intro z hz
        simpa using (Std.ne_of_lt (hfirst z hz)).symm
      rw [if_pos (by simp), ← named, hnone]
    · have hne : name y ≠ name x := Std.ne_of_lt (hfirst x hin)
      rw [if_neg (by simpa using hne), ← named, ih hmore hin]

/-- Putting values in order keeps the order of those of one name. -/
theorem named_inNameOrder (name : α → String) (key : String) (xs : List α) :
    named name key (inNameOrder name xs) = named name key xs := by
  have hsorted : (named name key xs).Pairwise fun a b => decide (name a ≤ name b) = true := by
    refine List.pairwise_of_forall_mem_list ?_
    intro a ha b hb
    rw [(mem_named.mp ha).2, (mem_named.mp hb).2]
    exact decide_eq_true (String.le_refl key)
  have hsub : (named name key xs).Sublist (inNameOrder name xs) :=
    List.sublist_mergeSort (nameLe_trans name) (nameLe_total name) hsorted List.filter_sublist
  have hself : named name key (named name key xs) = named name key xs := by
    simp [named]
  have hagain : (named name key xs).Sublist (named name key (inNameOrder name xs)) := by
    have := hsub.filter fun x => name x = key
    rwa [← named, ← named, hself] at this
  refine (hagain.eq_of_length ?_).symm
  exact (((inNameOrder_perm name xs).filter fun x => name x = key).length_eq).symm

/-- What is in order is determined by the values of each name. -/
theorem eq_of_named_eq (hxs : xs.Pairwise fun a b => name a ≤ name b)
    (hys : ys.Pairwise fun a b => name a ≤ name b)
    (h : ∀ key, named name key xs = named name key ys) : xs = ys := by
  induction xs generalizing ys with
  | nil =>
    cases ys with
    | nil => rfl
    | cons y ys =>
      have := h (name y)
      simp [named] at this
  | cons x xs ih =>
    cases ys with
    | nil =>
      have := h (name x)
      simp [named] at this
    | cons y ys =>
      have hmem {key : String} {z : α} :
          z ∈ x :: xs ∧ name z = key ↔ z ∈ y :: ys ∧ name z = key := by
        rw [← mem_named, ← mem_named, h]
      obtain ⟨hx, hmore⟩ := List.pairwise_cons.mp hxs
      obtain ⟨hy, hmore'⟩ := List.pairwise_cons.mp hys
      -- Each of the two first values comes again in the other list, so neither name is greater.
      have hname : name x = name y := by
        have hxy : name x ≤ name y := by
          obtain rfl | hin := List.mem_cons.mp (hmem.mpr ⟨List.mem_cons_self, rfl⟩).1
          · exact String.le_refl _
          · exact hx y hin
        have hyx : name y ≤ name x := by
          obtain rfl | hin := List.mem_cons.mp (hmem.mp ⟨List.mem_cons_self, rfl⟩).1
          · exact String.le_refl _
          · exact hy x hin
        exact String.le_antisymm hxy hyx
      have hfirst := h (name x)
      simp only [named, List.filter_cons, hname, decide_true, ite_true] at hfirst
      obtain ⟨rfl, -⟩ := List.cons.inj hfirst
      refine congrArg (List.cons x) (ih hmore hmore' ?_)
      intro key
      have hkey := h key
      simp only [named, List.filter_cons] at hkey ⊢
      split at hkey
      · exact (List.cons.inj hkey).2
      · exact hkey

/-- Leaving values out and putting the rest in order can be done in either order. -/
theorem filter_inNameOrder (name : α → String) (p : α → Bool) (xs : List α) :
    (inNameOrder name xs).filter p = inNameOrder name (xs.filter p) := by
  refine eq_of_named_eq ((pairwise_inNameOrder name xs).filter p) (pairwise_inNameOrder name _) ?_
  intro key
  have hcomm (zs : List α) : named name key (zs.filter p) = (named name key zs).filter p := by
    simp only [named, List.filter_filter, Bool.and_comm]
  rw [named_inNameOrder, hcomm, hcomm, named_inNameOrder]

/-- Where the names are all different, they ascend strictly. -/
theorem pairwise_lt_inNameOrder (h : (xs.map name).Nodup) :
    (inNameOrder name xs).Pairwise fun a b => name a < name b := by
  have hnodup := (((inNameOrder_perm name xs).map name).nodup_iff.mpr h)
  rw [List.Nodup, List.pairwise_map] at hnodup
  refine (pairwise_inNameOrder name xs).imp₂ (fun a b hle hne => ?_) hnodup
  exact Std.lt_of_le_of_ne hle hne

/-- There is one way to put values of different names in order. -/
theorem eq_of_perm_of_pairwise_lt (hperm : xs.Perm ys)
    (hxs : xs.Pairwise fun a b => name a < name b) (hys : ys.Pairwise fun a b => name a < name b) :
    xs = ys :=
  hperm.eq_of_pairwise (fun _ _ _ _ hab hba => absurd hba (Std.not_gt_of_lt hab)) hxs hys

end SchemaChange
