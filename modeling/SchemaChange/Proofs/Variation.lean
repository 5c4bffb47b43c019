import Mathlib.Data.List.Forall2
import Mathlib.Data.List.DropRight
import SchemaChange.Proofs.Parts

/-!
# Texts that differ in unimportant ways

Two spellings of one text may differ in the case of letters, or in how their lines end. A part of a
reader that asks for no more than what both have in common does the same on both: it takes
corresponding parts of them and leaves corresponding rests.
-/

namespace SchemaChange.Text

/-- How two texts may differ: in characters that stand for each other, which are the same up to the
case of ASCII letters, and perhaps in returns before the ends of their lines. -/
structure Variation where
  like : Char → Char → Prop
  returns : Prop
  refl : ∀ c, like c c
  folds : ∀ {c d}, like c d → c.toLower = d.toLower

/-- A text and a variant of it, character by character. A line end of the variant may have a return
in front of it. -/
inductive Alike (v : Variation) : List Char → List Char → Prop where
  | nil : Alike v [] []
  | char {c d : Char} {s t : List Char} (hlike : v.like c d) (rest : Alike v s t) :
      Alike v (c :: s) (d :: t)
  | line {s t : List Char} (hreturns : v.returns) (rest : Alike v s t) :
      Alike v ('\n' :: s) ('\r' :: '\n' :: t)

/-- Two texts with what is left of them behind corresponding places. -/
def Cut (v : Variation) (s t s' t' : List Char) : Prop :=
  ∃ a b, s = a ++ s' ∧ t = b ++ t' ∧ Alike v a b ∧ Alike v s' t'

/-- What is left of two texts when a reader has been at them. -/
structure Rests (v : Variation) (s t s' t' : List Char) : Prop where
  alike : Alike v s' t'
  left : s' <:+ s
  right : t' <:+ t

/-- What a reader found in two texts: related values, and rests that are alike. -/
def Found {α β : Type} (v : Variation) (r : α → β → Prop) (s t : List Char) (x : α × List Char)
    (y : β × List Char) : Prop :=
  r x.1 y.1 ∧ Rests v s t x.2 y.2

variable {v : Variation} {p : Char → Bool} {c d x : Char} {s t s' t' : List Char}

/-! ## Classes of characters -/

/-- A class of characters that tells neither letters apart nor the characters of a line end. -/
structure Uniform (p : Char → Bool) : Prop where
  letters : ∀ {c d}, c.isAlpha = true → d.isAlpha = true → p c = p d
  lines : p '\r' = p '\n'

theorem Uniform.like (hp : Uniform p) (h : v.like c d) : p c = p d := by
  obtain rfl | ⟨hc, hd⟩ := eq_or_isAlpha_of_toLower_eq (v.folds h)
  · rfl
  · exact hp.letters hc hd

/-- A character that is neither a letter nor part of a line end. -/
def IsMark (x : Char) : Prop :=
  x.isAlpha = false ∧ x ≠ '\r' ∧ x ≠ '\n'

instance (x : Char) : Decidable (IsMark x) :=
  inferInstanceAs (Decidable (_ ∧ _))

theorem ne_of_isAlpha (hx : x.isAlpha = false) (hc : c.isAlpha = true) : c ≠ x := by
  rintro rfl
  rw [hx] at hc
  cases hc

theorem eq_iff_of_toLower_eq (hx : x.isAlpha = false) (h : c.toLower = d.toLower) :
    c = x ↔ d = x := by
  obtain rfl | ⟨hc, hd⟩ := eq_or_isAlpha_of_toLower_eq h
  · rfl
  · exact iff_of_false (ne_of_isAlpha hx hc) (ne_of_isAlpha hx hd)

theorem IsMark.eq_iff (hx : IsMark x) (h : v.like c d) : c = x ↔ d = x :=
  eq_iff_of_toLower_eq hx.1 (v.folds h)

theorem IsMark.uniform_bne (hx : IsMark x) : Uniform (· != x) where
  letters hc hd := by
    rw [bne_iff_ne.mpr (ne_of_isAlpha hx.1 hc), bne_iff_ne.mpr (ne_of_isAlpha hx.1 hd)]
  lines := by rw [bne_iff_ne.mpr hx.2.1.symm, bne_iff_ne.mpr hx.2.2.symm]

theorem uniform_isWord : Uniform isWord where
  letters hc hd := by rw [isWord_of_isAlpha hc, isWord_of_isAlpha hd]
  lines := by decide +kernel

theorem uniform_isBlank : Uniform isBlank where
  letters hc hd := by
    rw [isBlank_of_isWord (isWord_of_isAlpha hc), isBlank_of_isWord (isWord_of_isAlpha hd)]
  lines := by decide +kernel

theorem Uniform.not (hp : Uniform p) : Uniform fun c => !p c where
  letters hc hd := by rw [hp.letters hc hd]
  lines := by rw [hp.lines]

theorem Uniform.and {q : Char → Bool} (hp : Uniform p) (hq : Uniform q) :
    Uniform fun c => p c && q c where
  letters hc hd := by rw [hp.letters hc hd, hq.letters hc hd]
  lines := by rw [hp.lines, hq.lines]

theorem standsFor_like (letter : Char) (h : v.like c d) : standsFor letter c = standsFor letter d := by
  have hletter {c : Char} (hc : c.isAlpha = true) :
      standsFor letter c = (c.toLower == letter.toLower) := by
    have hlong : c ≠ 'ſ' := ne_of_isAlpha (by decide) hc
    have hkelvin : c ≠ '\u212a' := ne_of_isAlpha (by decide) hc
    simp only [standsFor, beq_false_of_ne hlong, beq_false_of_ne hkelvin, Bool.and_false,
      Bool.or_false]
  obtain rfl | ⟨hc, hd⟩ := eq_or_isAlpha_of_toLower_eq (v.folds h)
  · rfl
  · rw [hletter hc, hletter hd, v.folds h]

theorem standsFor_eq_false {letter : Char} (hletter : letter.toLower.isAlpha = true)
    (hc : isWord c = false) : standsFor letter c = false := by
  cases hstands : standsFor letter c with
  | false => rfl
  | true => rw [isWord_of_standsFor hletter hstands] at hc; cases hc

/-! ## Corresponding parts -/

namespace Alike

theorem append (h : Alike v s t) (h' : Alike v s' t') : Alike v (s ++ s') (t ++ t') := by
  induction h with
  | nil => exact h'
  | char hlike _ ih => exact char hlike ih
  | line hreturns _ ih => exact line hreturns ih

theorem eq_nil_iff (h : Alike v s t) : s = [] ↔ t = [] := by
  cases h <;> simp

theorem isEmpty_eq (h : Alike v s t) : s.isEmpty = t.isEmpty := by
  cases h <;> rfl

theorem head?_eq_iff (hx : IsMark x) (h : Alike v s t) :
    s.head? = some x ↔ t.head? = some x := by
  cases h with
  | nil => rfl
  | char hlike => simpa using hx.eq_iff hlike
  | line => simp [hx.2.1.symm, hx.2.2.symm]

theorem any_head? (hp : Uniform p) (h : Alike v s t) : s.head?.any p = t.head?.any p := by
  cases h with
  | nil => rfl
  | char hlike => exact hp.like hlike
  | line => exact hp.lines.symm

/-- A text and its variant are both longer than one character, unless a return makes the difference. -/
theorem one_lt_length_iff (h : Alike v s t) :
    (1 < s.length ↔ 1 < t.length) ∨ v.returns ∧ t = ['\r', '\n'] := by
  cases h with
  | nil => exact Or.inl Iff.rfl
  | char _ rest =>
    left
    simp only [List.length_cons, Nat.lt_add_left_iff_pos, List.length_pos_iff, ne_eq,
      rest.eq_nil_iff]
  | @line s t hreturns rest =>
    by_cases hs : s = []
    · exact Or.inr ⟨hreturns, by rw [rest.eq_nil_iff.mp hs]⟩
    · left
      simp [List.length_pos_iff, hs]

theorem takeWhile (hp : Uniform p) (h : Alike v s t) : Alike v (s.takeWhile p) (t.takeWhile p) := by
  induction h with
  | nil => exact nil
  | @char c d s t hlike _ ih =>
    rw [List.takeWhile_cons, List.takeWhile_cons, hp.like hlike]
    split
    · exact char hlike ih
    · exact nil
  | line hreturns _ ih =>
    simp only [List.takeWhile_cons, hp.lines]
    split
    · exact line hreturns ih
    · exact nil

theorem dropWhile (hp : Uniform p) (h : Alike v s t) : Alike v (s.dropWhile p) (t.dropWhile p) := by
  induction h with
  | nil => exact nil
  | @char c d s t hlike rest ih =>
    rw [List.dropWhile_cons, List.dropWhile_cons, hp.like hlike]
    split
    · exact ih
    · exact char hlike rest
  | line hreturns rest ih =>
    simp only [List.dropWhile_cons, hp.lines]
    split
    · exact ih
    · exact line hreturns rest

theorem all (hp : Uniform p) (h : Alike v s t) : s.all p = t.all p := by
  induction h with
  | nil => rfl
  | char hlike _ ih => rw [List.all_cons, List.all_cons, hp.like hlike, ih]
  | line _ _ ih => simp [hp.lines, ih]

/-- What is alike to two texts after each other falls into two parts as they do, unless their border
is between a return and its line end. -/
theorem exists_append {t₁ t₂ : List Char} (h : Alike v s (t₁ ++ t₂)) (ht : t₂.head? ≠ some '\n') :
    ∃ s₁ s₂, s = s₁ ++ s₂ ∧ Alike v s₁ t₁ ∧ Alike v s₂ t₂ := by
  generalize heq : t₁ ++ t₂ = t at h
  induction h generalizing t₁ with
  | nil =>
    obtain ⟨rfl, rfl⟩ := List.append_eq_nil_iff.mp heq
    exact ⟨[], [], rfl, nil, nil⟩
  | @char c d s t hlike rest ih =>
    cases t₁ with
    | nil =>
      rw [List.nil_append] at heq
      exact ⟨[], c :: s, rfl, nil, heq ▸ char hlike rest⟩
    | cons e t₁ =>
      simp only [List.cons_append, List.cons.injEq] at heq
      obtain ⟨rfl, heq⟩ := heq
      obtain ⟨s₁, s₂, rfl, hfirst, hsecond⟩ := ih heq
      exact ⟨c :: s₁, s₂, rfl, char hlike hfirst, hsecond⟩
  | @line s t hreturns rest ih =>
    match t₁ with
    | [] =>
      rw [List.nil_append] at heq
      exact ⟨[], '\n' :: s, rfl, nil, heq ▸ line hreturns rest⟩
    | [e] =>
      obtain ⟨-, rfl⟩ := List.cons.inj heq
      exact absurd rfl ht
    | e :: e' :: t₁ =>
      simp only [List.cons_append, List.cons.injEq] at heq
      obtain ⟨rfl, rfl, heq⟩ := heq
      obtain ⟨s₁, s₂, rfl, hfirst, hsecond⟩ := ih heq
      exact ⟨'\n' :: s₁, s₂, rfl, line hreturns hfirst, hsecond⟩

/-- Within a line there is nothing but the case of letters in which the two may differ. -/
theorem map_toLower (h : Alike v s t) (hs : '\n' ∉ s) :
    s.map Char.toLower = t.map Char.toLower := by
  induction h with
  | nil => rfl
  | char hlike _ ih =>
    rw [List.mem_cons, not_or] at hs
    rw [List.map_cons, List.map_cons, v.folds hlike, ih hs.2]
  | line => simp at hs

end Alike

namespace Cut

theorem refl (h : Alike v s t) : Cut v s t s t :=
  ⟨[], [], rfl, rfl, .nil, h⟩

theorem rest (h : Cut v s t s' t') : Alike v s' t' := by
  obtain ⟨-, -, -, -, -, h⟩ := h
  exact h

theorem trans {s₁ t₁ s₂ t₂ : List Char} (h : Cut v s t s₁ t₁) (h' : Cut v s₁ t₁ s₂ t₂) :
    Cut v s t s₂ t₂ := by
  obtain ⟨a, b, rfl, rfl, hfront, -⟩ := h
  obtain ⟨a', b', rfl, rfl, hmore, hrest⟩ := h'
  exact ⟨a ++ a', b ++ b', by simp, by simp, hfront.append hmore, hrest⟩

theorem char (hlike : v.like c d) (h : Cut v s t s' t') : Cut v (c :: s) (d :: t) s' t' := by
  obtain ⟨a, b, rfl, rfl, hfront, hrest⟩ := h
  exact ⟨c :: a, d :: b, rfl, rfl, .char hlike hfront, hrest⟩

theorem line (hreturns : v.returns) (h : Cut v s t s' t') :
    Cut v ('\n' :: s) ('\r' :: '\n' :: t) s' t' := by
  obtain ⟨a, b, rfl, rfl, hfront, hrest⟩ := h
  exact ⟨'\n' :: a, '\r' :: '\n' :: b, rfl, rfl, .line hreturns hfront, hrest⟩

theorem dropWhile (hp : Uniform p) (h : Alike v s t) :
    Cut v s t (s.dropWhile p) (t.dropWhile p) :=
  ⟨s.takeWhile p, t.takeWhile p, List.takeWhile_append_dropWhile.symm,
    List.takeWhile_append_dropWhile.symm, h.takeWhile hp, h.dropWhile hp⟩

theorem rests (h : Cut v s t s' t') : Rests v s t s' t' := by
  obtain ⟨a, b, rfl, rfl, -, hrest⟩ := h
  exact ⟨hrest, List.suffix_append a s', List.suffix_append b t'⟩

end Cut

namespace Rests

variable {s₀ t₀ : List Char}

theorem mono (h : Rests v s t s' t') (hs : s <:+ s₀) (ht : t <:+ t₀) : Rests v s₀ t₀ s' t' :=
  ⟨h.alike, h.left.trans hs, h.right.trans ht⟩

theorem trans (h : Rests v s₀ t₀ s t) (h' : Rests v s t s' t') : Rests v s₀ t₀ s' t' :=
  h'.mono h.left h.right

theorem cons (h : Rests v s t s' t') : Rests v (c :: s) (d :: t) s' t' :=
  h.mono (List.suffix_cons c s) (List.suffix_cons d t)

end Rests

/-! ## Two runs of a reader -/

section

variable {α β γ δ : Type} {r : α → β → Prop} {q : γ → δ → Prop}

theorem rel_imp {r' : α → β → Prop} {x : Option α} {y : Option β} (h : Option.Rel r x y)
    (hr : ∀ a b, r a b → r' a b) : Option.Rel r' x y := by
  cases h with
  | none => exact .none
  | some h => exact .some (hr _ _ h)

theorem rel_cases {x : Option α} {y : Option β} (h : Option.Rel r x y) :
    (x = none ∧ y = none) ∨ ∃ a b, x = some a ∧ y = some b ∧ r a b := by
  cases h with
  | none => exact Or.inl ⟨rfl, rfl⟩
  | some h => exact Or.inr ⟨_, _, rfl, rfl, h⟩

theorem rel_bind {x : Option α} {y : Option β} {f : α → Option γ} {g : β → Option δ}
    (h : Option.Rel r x y) (hf : ∀ a b, r a b → Option.Rel q (f a) (g b)) :
    Option.Rel q (x.bind f) (y.bind g) := by
  cases h with
  | none => exact .none
  | some h => exact hf _ _ h

/-- A bind that may go wrong in the part behind it. -/
theorem rel_bind_or {e : Prop} {x : Option α} {y : Option β} {f : α → Option γ} {g : β → Option δ}
    (h : Option.Rel r x y)
    (hf : ∀ a b, y = some b → r a b → Option.Rel q (f a) (g b) ∨ e) :
    Option.Rel q (x.bind f) (y.bind g) ∨ e := by
  cases h with
  | none => exact Or.inl .none
  | some h => exact hf _ _ rfl h

theorem rel_map {x : Option α} {y : Option β} {f : α → γ} {g : β → δ} (h : Option.Rel r x y)
    (hf : ∀ a b, r a b → q (f a) (g b)) : Option.Rel q (x.map f) (y.map g) := by
  cases h with
  | none => exact .none
  | some h => exact .some (hf _ _ h)

theorem rel_orElse {x x' : Option α} {y y' : Option β} (h : Option.Rel r x y)
    (h' : Option.Rel r x' y') : Option.Rel r (x <|> x') (y <|> y') := by
  cases h with
  | none => exact h'
  | some h => exact .some h

/-- The second run may have one alternative more, if that one is like the last of the first run. -/
theorem rel_orElse_again {x x' : Option α} {y y₁ y₂ : Option β} (h : Option.Rel r x y)
    (h₁ : Option.Rel r x' y₁) (h₂ : Option.Rel r x' y₂) :
    Option.Rel r (x <|> x') ((y <|> y₁) <|> y₂) := by
  cases h with
  | some h => exact .some h
  | none =>
    cases h₁ with
    | none => exact h₂
    | some h₁ => exact .some h₁

end

variable {letters : String} {keywords : List String}

theorem afterKeyword_alike (hplain : Form.IsPlain letters) (h : Alike v s t) :
    Option.Rel (Cut v s t) (afterKeyword letters.toList s) (afterKeyword letters.toList t) := by
  have hletters := hplain.2
  generalize letters.toList = letters at hletters
  induction letters generalizing s t with
  | nil => exact .some (.refl h)
  | cons letter letters ih =>
    rw [List.forall_mem_cons] at hletters
    cases h with
    | nil => exact .none
    | char hlike rest =>
      rw [afterKeyword, afterKeyword, standsFor_like letter hlike]
      split
      · exact rel_imp (ih rest hletters.2) fun _ _ => Cut.char hlike
      · exact .none
    | line =>
      rw [afterKeyword, afterKeyword,
        standsFor_eq_false hletters.1 (isWord_of_isPunctuation (by decide)),
        standsFor_eq_false hletters.1 (isWord_of_isPunctuation (by decide))]
      exact .none

theorem afterBlanks_alike (h : Alike v s t) :
    Option.Rel (Cut v s t) (afterBlanks s) (afterBlanks t) := by
  cases h with
  | nil => exact .none
  | char hlike rest =>
    rw [afterBlanks, afterBlanks, uniform_isBlank.like hlike]
    split
    · exact .some (Cut.char hlike (Cut.dropWhile uniform_isBlank rest))
    · exact .none
  | line hreturns rest => exact .some (Cut.line hreturns (Cut.dropWhile uniform_isBlank rest))

theorem afterPhrase_alike (hplain : ∀ letters ∈ keywords, Form.IsPlain letters)
    (h : Alike v s t) :
    Option.Rel (Cut v s t) (afterPhrase keywords s) (afterPhrase keywords t) := by
  induction keywords generalizing s t with
  | nil => exact .some (.refl h)
  | cons letters more ih =>
    rw [List.forall_mem_cons] at hplain
    refine rel_bind (afterKeyword_alike hplain.1 h) fun s₁ t₁ hkey => ?_
    refine rel_bind (afterBlanks_alike hkey.rest) fun s₂ t₂ hgap => ?_
    exact rel_imp (ih hplain.2 hgap.rest) fun _ _ hmore => hkey.trans (hgap.trans hmore)

theorem skipPhrase_alike (keywords : List String)
    (hplain : ∀ letters ∈ keywords, Form.IsPlain letters) (h : Alike v s t) :
    Cut v s t (skipPhrase keywords s) (skipPhrase keywords t) := by
  have hphrase := afterPhrase_alike hplain h
  unfold skipPhrase
  generalize afterPhrase keywords s = found at hphrase
  generalize afterPhrase keywords t = found' at hphrase
  cases hphrase with
  | none => exact .refl h
  | some hcut => exact hcut

theorem afterChar_alike (hx : IsMark x) (h : Alike v s t) :
    Option.Rel (Cut v s t) (afterChar x s) (afterChar x t) := by
  cases h with
  | nil => exact .none
  | char hlike rest =>
    simp only [afterChar, hx.eq_iff hlike]
    split
    · exact .some (Cut.char hlike (.refl rest))
    · exact .none
  | line =>
    rw [afterChar, afterChar, if_neg hx.2.2.symm, if_neg hx.2.1.symm]
    exact .none

/-- Two words, as they begin two texts that are alike. The rests lie behind the first character. -/
theorem word_cons_alike (hlike : v.like c d) (h : Alike v s t) :
    Option.Rel (Found v (fun a b => eqIgnoringAsciiCase a b = true) s t) (word (c :: s))
      (word (d :: t)) := by
  have hletters := h.takeWhile uniform_isWord
  have hline : '\n' ∉ s.takeWhile isWord := fun hmem =>
    not_isWord (by decide) (mem_takeWhile _ hmem)
  simp only [word, List.takeWhile_cons, List.dropWhile_cons, uniform_isWord.like hlike]
  cases isWord d with
  | false => exact .none
  | true =>
    refine .some ⟨?_, (Cut.dropWhile uniform_isWord h).rests⟩
    simp [eqIgnoringAsciiCase, v.folds hlike, hletters.map_toLower hline]

theorem word_alike (h : Alike v s t) :
    Option.Rel (Found v (fun a b => eqIgnoringAsciiCase a b = true) s t) (word s) (word t) := by
  cases h with
  | nil => exact .none
  | char hlike rest =>
    exact rel_imp (word_cons_alike hlike rest) fun _ _ hfound =>
      ⟨hfound.1, (Cut.char hlike (.refl rest)).rests.trans hfound.2⟩
  | line =>
    have hline : isWord '\n' = false ∧ isWord '\r' = false :=
      ⟨isWord_of_isPunctuation (by decide), isWord_of_isPunctuation (by decide)⟩
    simp only [word, List.takeWhile_cons, hline, Bool.false_eq_true, if_false]
    exact .none

/-! ## Lists of items -/

theorem rdropWhile_cons (p : Char → Bool) (c : Char) (s : List Char) :
    (c :: s).rdropWhile p =
      if (s.rdropWhile p).isEmpty then (if p c then [] else [c]) else c :: s.rdropWhile p := by
  rw [List.rdropWhile, List.reverse_cons, List.dropWhile_append, List.rdropWhile,
    List.isEmpty_reverse]
  split
  · rw [List.dropWhile_cons, List.dropWhile_nil]
    split <;> rfl
  · rw [List.reverse_append, List.reverse_singleton, List.singleton_append]

theorem Alike.rdropWhile (hp : Uniform p) (h : Alike v s t) :
    Alike v (s.rdropWhile p) (t.rdropWhile p) := by
  induction h with
  | nil => exact .nil
  | char hlike rest ih =>
    rw [rdropWhile_cons, rdropWhile_cons, hp.like hlike, ih.isEmpty_eq]
    split
    · split
      · exact .nil
      · exact .char hlike .nil
    · exact .char hlike ih
  | @line s t hreturns rest ih =>
    rw [rdropWhile_cons, rdropWhile_cons, rdropWhile_cons, hp.lines, ih.isEmpty_eq]
    split
    · split
      · exact .nil
      · exact .line hreturns .nil
    · exact .line hreturns ih

theorem Alike.trimChars (h : Alike v s t) : Alike v (trimChars s) (trimChars t) :=
  (h.dropWhile uniform_isBlank).rdropWhile uniform_isBlank

theorem forall₂_modifyHead {f g : List Char → List Char} {parts parts' : List (List Char)}
    (h : List.Forall₂ (Alike v) parts parts') (hf : ∀ a b, Alike v a b → Alike v (f a) (g b)) :
    List.Forall₂ (Alike v) (parts.modifyHead f) (parts'.modifyHead g) := by
  cases h with
  | nil => exact .nil
  | cons hfirst hmore => exact .cons (hf _ _ hfirst) hmore

theorem Alike.splitOn (hx : IsMark x) (h : Alike v s t) :
    List.Forall₂ (Alike v) (s.splitOn x) (t.splitOn x) := by
  induction h with
  | nil => exact .cons .nil .nil
  | char hlike rest ih =>
    simp only [List.splitOn_cons_eq_if_modifyHead, beq_iff_eq, hx.eq_iff hlike]
    split
    · exact .cons .nil ih
    · exact forall₂_modifyHead ih fun _ _ => .char hlike
  | line hreturns rest ih =>
    simp only [List.splitOn_cons_eq_if_modifyHead, beq_iff_eq, if_neg hx.2.1.symm,
      if_neg hx.2.2.symm, List.modifyHead_modifyHead]
    exact forall₂_modifyHead ih fun _ _ => .line hreturns

/-- The items of two lists. -/
theorem listItems_alike (h : Alike v s t) :
    List.Forall₂ (fun a b => Alike v a.toList b.toList) (listItems s) (listItems t) := by
  rw [listItems, listItems, List.forall₂_map_left_iff, List.forall₂_map_right_iff]
  refine (h.splitOn (by decide)).imp fun a b hitem => ?_
  simpa using hitem.trimChars

/-! ## Two searches -/

section

variable {α : Type} {read : Reader α} {r : α → α → Prop}

/-- A reader that returns each value with the text from which it was taken. -/
def withText (read : Reader α) : Reader (α × List Char) := fun s =>
  (read s).map fun (a, rest) => ((a, s.take (s.length - rest.length)), rest)

theorem occurrences_withText_of_none (h : read (c :: s) = none) :
    occurrences (withText read) (c :: s) = occurrences (withText read) s :=
  occurrences_of_none (by rw [withText, h, Option.map_none])

theorem occurrences_withText_of_some {a : α} {rest : List Char}
    (h : read (c :: s) = some (a, rest)) (hrest : rest <:+ s) :
    occurrences (withText read) (c :: s) =
      (a, (c :: s).take ((c :: s).length - rest.length)) :: occurrences (withText read) rest :=
  occurrences_of_some (by rw [withText, h, Option.map_some]) hrest

/-- Two searches find the same, value by value, if none of the texts that are taken in the second one
is an exception to it. Nothing is found at a character that is no part of a word. -/
theorem occurrences_alike_of_not (bare : List Char → Prop)
    (hword : ∀ c s, isWord c = false → read (c :: s) = none)
    (hread : ∀ c d s t, v.like c d → Alike v s t →
      Option.Rel (Found v r s t) (read (c :: s)) (read (d :: t)) ∨
        ∃ a w rest, read (d :: t) = some (a, rest) ∧ d :: t = w ++ rest ∧ w ≠ [] ∧ bare w)
    (h : Alike v s t) (hnot : ∀ found ∈ occurrences (withText read) t, ¬ bare found.2) :
    List.Forall₂ r (occurrences read s) (occurrences read t) := by
  induction hn : s.length using Nat.strongRecOn generalizing s t with
  | ind n ih =>
    cases h with
    | nil => exact .nil
    | @line s t hreturns rest =>
      have hline (u : List Char) : read ('\n' :: u) = none :=
        hword _ _ (isWord_of_isPunctuation (by decide))
      have hreturn (u : List Char) : read ('\r' :: u) = none :=
        hword _ _ (isWord_of_isPunctuation (by decide))
      rw [occurrences_withText_of_none (hreturn _), occurrences_withText_of_none (hline _)] at hnot
      rw [occurrences_of_none (hline _), occurrences_of_none (hreturn _),
        occurrences_of_none (hline _)]
      exact ih s.length (by simp [← hn]) rest hnot rfl
    | @char c d s t hlike rest =>
      obtain hfound | ⟨a, w, left, hfound, heq, hne, hbare⟩ := hread c d s t hlike rest
      · obtain ⟨hs, ht⟩ | ⟨⟨a, s'⟩, ⟨b, t'⟩, hs, ht, hvalue, hrests⟩ := rel_cases hfound
        · rw [occurrences_withText_of_none ht] at hnot
          rw [occurrences_of_none hs, occurrences_of_none ht]
          exact ih s.length (by simp [← hn]) rest hnot rfl
        · rw [occurrences_withText_of_some ht hrests.right] at hnot
          rw [occurrences_of_some hs hrests.left, occurrences_of_some ht hrests.right]
          have hlength : s'.length ≤ s.length := hrests.left.length_le
          refine .cons hvalue (ih s'.length ?_ hrests.alike (List.forall_mem_cons.mp hnot).2 rfl)
          rw [← hn, List.length_cons]
          omega
      · -- The text of an exception would be among those that are taken.
        exfalso
        obtain ⟨e, w, rfl⟩ := List.exists_cons_of_ne_nil hne
        obtain ⟨rfl, rfl⟩ := List.cons.inj heq
        rw [occurrences_withText_of_some hfound (List.suffix_append w left)] at hnot
        have htext : (d :: w ++ left).take ((d :: w ++ left).length - left.length) = d :: w :=
          List.take_left' (by rw [List.length_append, Nat.add_sub_cancel])
        exact (List.forall_mem_cons.mp hnot).1 (htext.symm ▸ hbare)

/-- Two searches find the same, value by value, if the reader does so at each place. -/
theorem occurrences_alike (hword : ∀ c s, isWord c = false → read (c :: s) = none)
    (hread : ∀ c d s t, v.like c d → Alike v s t →
      Option.Rel (Found v r s t) (read (c :: s)) (read (d :: t)))
    (h : Alike v s t) : List.Forall₂ r (occurrences read s) (occurrences read t) :=
  occurrences_alike_of_not (fun _ => False) hword
    (fun c d s t hlike rest => Or.inl (hread c d s t hlike rest)) h fun _ _ => not_false

end

end SchemaChange.Text
