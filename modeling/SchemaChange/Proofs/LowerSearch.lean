import SchemaChange.Proofs.Fragment
import SchemaChange.Proofs.UpperCase
import SchemaChange.Text.Pieces

/-!
# Searching a text in lower case

Two characters beyond ASCII have letters of ASCII in their lower-case forms: the kelvin sign becomes
the letter k, and the dotted I the letter i with a combining dot. A fragment of ASCII that neither of
them can be part of is found in the lower-case form of a text exactly where it stands in the text
itself, but for the case of the letters of ASCII.
-/

namespace SchemaChange.Text

open Unicode (lowerExpansions)

variable {c : Char} {s v w x : List Char}

theorem occursIn_iff : occursIn x s = true ↔ x <:+: s := by
  induction s with
  | nil => rw [occursIn, List.isEmpty_iff, List.infix_nil]
  | cons c s ih =>
    rw [occursIn, Bool.or_eq_true, List.isPrefixOf_iff_prefix, ih, List.infix_cons_iff]

/-- A fragment of ASCII that no form of a character beyond ASCII is part of. -/
structure IsSteady (x : List Char) : Prop where
  ascii : ∀ c ∈ x, c.toNat < 128 ∧ c ≠ 'k'
  last : x.getLast? ≠ some 'i'

/-- A lower-case form of a character beyond ASCII: it ends in a character of no such fragment, with
at most the letter i in front of it. -/
def IsForm (w : List Char) : Prop :=
  ∃ u d, w = u ++ [d] ∧ (u = [] ∨ u = ['i']) ∧ (128 ≤ d.toNat ∨ d = 'k')

theorem isForm_singleton {d : Char} (hd : 128 ≤ d.toNat ∨ d = 'k') : IsForm [d] :=
  ⟨[], d, rfl, Or.inl rfl, hd⟩

theorem lowerChar_of_ascii (hc : c.toNat < 128) : lowerChar c = [c.toLower] :=
  of_ascii (p := fun c => lowerChar c = [c.toLower]) (by decide +kernel) hc

theorem toLower_of_beyond (hc : 128 ≤ c.toNat) : c.toLower = c := by
  have hval : c.val.toNat = c.toNat := rfl
  apply dif_neg
  rintro ⟨-, hlast⟩
  have hle : c.val.toNat ≤ 90 := UInt32.le_iff_toNat_le.mp hlast
  omega

theorem isForm_lowerChar (hc : 128 ≤ c.toNat) : IsForm (lowerChar c) := by
  obtain ⟨run, hrun, k, hk, -, heqc, d, heq, hd⟩ | ⟨expansion, hexpansion, heqc, -⟩ | hself :=
    settled_lower.mapCase_cases c
  · obtain hascii | ⟨hsingle, hspecial⟩ | ⟨-, himage, -⟩ := lowerRuns_beyond run hrun
    · omega
    · have hcode : c.toNat = run.first := by omega
      rw [← Char.ofNat_toNat c, hcode]
      obtain hfirst | hfirst := hspecial
      · rw [hfirst]
        have hsharp : lowerChar (Char.ofNat 0x1E9E) = ['ß'] := by decide +kernel
        rw [hsharp]
        exact isForm_singleton (Or.inl (by decide))
      · rw [hfirst]
        have hkelvin : lowerChar (Char.ofNat 0x212A) = ['k'] := by decide +kernel
        rw [hkelvin]
        exact isForm_singleton (Or.inr rfl)
    · rw [lowerChar, heq]
      exact isForm_singleton (Or.inl (by omega))
  · have honly : ∀ expansion ∈ lowerExpansions, expansion.1 = 0x130 := by decide
    rw [← Char.ofNat_toNat c, heqc, honly expansion hexpansion]
    exact ⟨['i'], '\u0307', by decide +kernel, Or.inr rfl, Or.inl (by decide)⟩
  · rw [lowerChar, hself]
    exact isForm_singleton (Or.inl hc)

/-- The first character of a text gives one character of ASCII if it is of ASCII itself, and such a
form otherwise. -/
theorem lowerFrom_cons_cases (afterCased : Bool) (c : Char) (s : List Char) :
    ∃ after,
      (c.toNat < 128 ∧ lowerFrom afterCased (c :: s) = c.toLower :: lowerFrom after s) ∨
      (128 ≤ c.toNat ∧ ∃ w, IsForm w ∧ lowerFrom afterCased (c :: s) = w ++ lowerFrom after s) := by
  obtain ⟨image, after, heq, himage⟩ := exists_lowerFrom_cons afterCased c s
  refine ⟨after, ?_⟩
  by_cases hc : c.toNat < 128
  · have hsigma : c ≠ 'Σ' := by
      rintro rfl
      exact absurd hc (by decide)
    obtain rfl : image = lowerChar c := himage.resolve_right fun h => hsigma h.1
    rw [lowerChar_of_ascii hc] at heq
    exact Or.inl ⟨hc, heq⟩
  · have hbeyond : 128 ≤ c.toNat := by omega
    refine Or.inr ⟨hbeyond, image, ?_, heq⟩
    obtain rfl | ⟨-, rfl⟩ := himage
    · exact isForm_lowerChar hbeyond
    · exact isForm_singleton (Or.inl (by decide))

namespace IsSteady

theorem tail (h : IsSteady (c :: x)) : IsSteady x where
  ascii := (List.forall_mem_cons.mp h.ascii).2
  last := by
    intro hlast
    apply h.last
    rw [List.getLast?_cons, hlast]
    rfl

theorem not_mem (h : IsSteady x) {d : Char} (hd : 128 ≤ d.toNat ∨ d = 'k') : d ∉ x := by
  intro hmem
  obtain ⟨hascii, hk⟩ := h.ascii d hmem
  obtain hbeyond | rfl := hd
  · omega
  · exact hk rfl

/-- The letter i by itself holds no part of a fragment that does not end in it. -/
theorem eq_nil_of_infix {u : List Char} (h : IsSteady x) (hu : u = [] ∨ u = ['i'])
    (hin : x <:+: u) : x = [] := by
  obtain rfl | rfl := hu
  · exact List.eq_nil_of_infix_nil hin
  · obtain rfl | rfl := List.sublist_singleton.mp hin.sublist
    · rfl
    · exact absurd rfl h.last

theorem eq_nil_of_prefix_form (h : IsSteady x) (hw : IsForm w) (hfirst : x <+: w ++ v) :
    x = [] := by
  obtain ⟨u, d, rfl, hu, hd⟩ := hw
  rw [List.append_assoc, List.singleton_append] at hfirst
  have hprefix := prefix_of_prefix_append_cons (h.not_mem hd) hfirst
  exact h.eq_nil_of_infix hu hprefix.isInfix

theorem infix_form_append_iff (h : IsSteady x) (hw : IsForm w) : x <:+: w ++ v ↔ x <:+: v := by
  obtain ⟨u, d, rfl, hu, hd⟩ := hw
  rw [List.append_assoc, List.singleton_append, infix_append_cons_iff (h.not_mem hd)]
  constructor
  · rintro (hin | hin)
    · rw [h.eq_nil_of_infix hu hin]
      exact List.nil_infix
    · exact hin
  · exact Or.inr

/-- A character beyond ASCII is in the way of the fragment, and so is its lower-case form. -/
theorem prefix_lowerFrom_iff (h : IsSteady x) (afterCased : Bool) (s : List Char) :
    x <+: lowerFrom afterCased s ↔ x <+: s.map Char.toLower := by
  induction s generalizing x afterCased with
  | nil => rfl
  | cons c s ih =>
    by_cases hx : x = []
    · rw [hx]
      simp
    · obtain ⟨after, ⟨-, heq⟩ | ⟨hbeyond, w, hw, heq⟩⟩ := lowerFrom_cons_cases afterCased c s
      · obtain ⟨d, y, rfl⟩ := List.exists_cons_of_ne_nil hx
        rw [heq, List.map_cons, List.cons_prefix_cons, List.cons_prefix_cons, ih h.tail]
      · rw [heq, List.map_cons, toLower_of_beyond hbeyond]
        constructor
        · intro hfirst
          exact absurd (h.eq_nil_of_prefix_form hw hfirst) hx
        · intro hfirst
          exact absurd (h.eq_nil_of_prefix_form (isForm_singleton (Or.inl hbeyond)) hfirst) hx

theorem infix_lowerFrom_iff (h : IsSteady x) (afterCased : Bool) (s : List Char) :
    x <:+: lowerFrom afterCased s ↔ x <:+: s.map Char.toLower := by
  induction s generalizing afterCased with
  | nil => rfl
  | cons c s ih =>
    have hfirst := h.prefix_lowerFrom_iff afterCased (c :: s)
    obtain ⟨after, ⟨-, heq⟩ | ⟨hbeyond, w, hw, heq⟩⟩ := lowerFrom_cons_cases afterCased c s
    · rw [heq] at hfirst
      rw [heq, List.infix_cons_iff, hfirst, ih after, List.map_cons, List.infix_cons_iff]
    · have hself : IsForm [c] := isForm_singleton (Or.inl hbeyond)
      rw [heq, h.infix_form_append_iff hw, ih after, List.map_cons, toLower_of_beyond hbeyond,
        ← List.singleton_append, h.infix_form_append_iff hself]

/-- The fragment occurs in the text in lower case exactly where a part of the text spells it, but for
the case of the letters of ASCII. -/
theorem occursIn_lower_iff (h : IsSteady x) (text : String) :
    occursIn x (lower text).toList = true ↔
      ∃ part, part <:+: text.toList ∧ part.map Char.toLower = x := by
  rw [occursIn_iff, lower, String.toList_ofList, h.infix_lowerFrom_iff, List.infix_map_iff]
  constructor
  · rintro ⟨part, hpart, rfl⟩
    exact ⟨part, hpart, rfl⟩
  · rintro ⟨part, hpart, rfl⟩
    exact ⟨part, hpart, rfl⟩

end IsSteady

end SchemaChange.Text
