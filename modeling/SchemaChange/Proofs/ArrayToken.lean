import Mathlib
import SchemaChange.Datum
import SchemaChange.Proofs.JsonReading

/-!
# Tokens that are arrays

A token that is itself the text of a JSON array is classified as the array that it denotes, if there
is no single quote in it and its numbers in floating point are scaled to what they denote, as short
ones are. Other numbers may come out beside what they denote, and where one is not scaled at all the
token is a text. A single quote counts as a double one, so the token denotes another array then, or
none, and a string with a single quote is never kept.
-/

namespace SchemaChange

open SchemaChange.Number (Binary64 Numeral)
open SchemaChange.Text (stops_nil stops_cons)

variable {c : Char} {cs u v w : List Char} {json : Json} {items : List Json} {token : String}
  {real : Numeral → Binary64 → Prop}

namespace Json

/-- A text in the value, or a name in it, holds the character. -/
inductive Holds (c : Char) : Json → Prop
  | text {value : String} (h : c ∈ value.toList) : Holds c (.text value)
  | item {item : Json} {items : List Json} (hitem : item ∈ items) (h : Holds c item) :
      Holds c (.array items)
  | name {name : String} {value : Json} {members : List (String × Json)}
      (hmember : (name, value) ∈ members) (h : c ∈ name.toList) : Holds c (.object members)
  | member {name : String} {value : Json} {members : List (String × Json)}
      (hmember : (name, value) ∈ members) (h : Holds c value) : Holds c (.object members)

/-- The escape that stands for a single quote. -/
def quoteEscape : List Char :=
  ['\\', 'u', '0', '0', '2', '7']

/-- There is no single quote, and none is written as an escape. -/
def Quiet (w : List Char) : Prop :=
  '\'' ∉ w ∧ ¬ quoteEscape <:+: w

theorem Quiet.of_infix (h : Quiet w) (hv : v <:+: w) : Quiet v :=
  ⟨fun hmem => h.1 (hv.mem hmem), fun hin => h.2 (hin.trans hv)⟩

theorem eq_toNat_of_ofNat {n : Nat} (h : Char.ofNat n = c) (hc : c ≠ '\x00') : n = c.toNat := by
  subst h
  unfold Char.ofNat at hc ⊢
  split
  · rfl
  · rename_i hinvalid
    rw [dif_neg hinvalid] at hc
    exact absurd rfl hc

/-- A hexadecimal digit, and the character that it is below ten. -/
theorem hexDigit_spec {n : Nat} (h : hexDigit? c = some n) :
    n < 16 ∧ (n < 10 → c = Char.ofNat (48 + n)) := by
  have hle {c d : Char} (h : c ≤ d) : c.toNat ≤ d.toNat := h
  unfold hexDigit? at h
  split at h
  · rename_i hc
    cases h
    have hlow : 48 ≤ c.toNat := hle hc.1
    have hhigh : c.toNat ≤ 57 := hle hc.2
    have hzero : '0'.toNat = 48 := rfl
    refine ⟨by omega, fun _ => ?_⟩
    rw [hzero, Nat.add_sub_cancel' hlow, Char.ofNat_toNat]
  · split at h
    · rename_i hc
      cases h
      have hhigh : c.toNat ≤ 102 := hle hc.2
      have ha : 'a'.toNat = 97 := rfl
      omega
    · split at h
      · rename_i hc
        cases h
        have hhigh : c.toNat ≤ 70 := hle hc.2
        have ha : 'A'.toNat = 65 := rfl
        omega
      · cases h

/-- Four digits that denote a single quote are those of the escape. -/
theorem eq_of_isUnit_quote {digits : List Char} (h : IsUnit 39 digits) :
    digits = ['0', '0', '2', '7'] := by
  obtain ⟨a, b, c, d, i, j, k, l, rfl, ha, hb, hc, hd, hu⟩ := h
  obtain ⟨hi, ha⟩ := hexDigit_spec ha
  obtain ⟨hj, hb⟩ := hexDigit_spec hb
  obtain ⟨hk, hc⟩ := hexDigit_spec hc
  obtain ⟨hl, hd⟩ := hexDigit_spec hd
  obtain ⟨rfl, rfl, rfl, rfl⟩ : i = 0 ∧ j = 0 ∧ k = 2 ∧ l = 7 := by omega
  rw [ha (by decide), hb (by decide), hc (by decide), hd (by decide)]

theorem CharacterText.ne_quote (h : CharacterText c w) (hw : Quiet w) : c ≠ '\'' := by
  cases h with
  | plain => exact fun hc => hw.1 (by simp [hc])
  | letter h =>
    rintro rfl
    unfold letterEscape? at h
    split at h
    all_goals simp at h
  | unit h =>
    intro hc
    have hu := eq_toNat_of_ofNat hc (by decide)
    rw [hu] at h
    exact hw.2 (by rw [eq_of_isUnit_quote h]; exact List.infix_rfl)
  | pair =>
    intro hc
    have hu := eq_toNat_of_ofNat hc (by decide)
    have : '\''.toNat = 39 := rfl
    omega

theorem CharactersText.quote_not_mem (h : CharactersText cs w) (hw : Quiet w) : '\'' ∉ cs := by
  induction h with
  | nil => simp
  | @cons c cs u v hc hcs ih =>
    rw [List.mem_cons, not_or]
    exact ⟨(hc.ne_quote (hw.of_infix (List.prefix_append u v).isInfix)).symm,
      ih (hw.of_infix (List.suffix_append u v).isInfix)⟩

theorem quote_not_mem_of_stringTexts {value : String} (h : w ∈ stringTexts value) (hw : Quiet w) :
    '\'' ∉ value.toList := by
  obtain ⟨v, hv, rfl⟩ := h
  exact hv.quote_not_mem (hw.of_infix ⟨['"'], ['"'], by simp⟩)

/-- Every item of a sequence stands in it. -/
theorem exists_infix_of_commaTexts {items : List (Language Char)} (hw : w ∈ commaTexts items)
    {item : Language Char} (hitem : item ∈ items) : ∃ v ∈ item, v <:+: w := by
  induction items generalizing w with
  | nil => cases hitem
  | cons first more ih =>
    cases more with
    | nil =>
      obtain rfl := List.mem_singleton.mp hitem
      obtain ⟨gap, -, _, h₁, rfl⟩ := Language.mem_mul.mp hw
      obtain ⟨v, hv, gap', -, rfl⟩ := Language.mem_mul.mp h₁
      exact ⟨v, hv, gap, gap', by simp⟩
    | cons next more =>
      obtain ⟨gap, -, _, h₁, rfl⟩ := Language.mem_mul.mp hw
      obtain ⟨v, hv, _, h₂, rfl⟩ := Language.mem_mul.mp h₁
      obtain ⟨gap', -, _, h₃, rfl⟩ := Language.mem_mul.mp h₂
      obtain ⟨_, rfl, w', hw', rfl⟩ := Language.mem_mul.mp h₃
      obtain rfl | hitem := List.mem_cons.mp hitem
      · exact ⟨v, hv, gap, _, List.append_assoc ..⟩
      · obtain ⟨u, hu, hin⟩ := ih hw' hitem
        exact ⟨u, hu, hin.trans ⟨gap ++ (v ++ (gap' ++ [','])), [], by simp⟩⟩

theorem not_holds_of_quiet_scalar (h : w ∈ scalarTexts real json) (hw : Quiet w) :
    ¬ Holds '\'' json := by
  rintro (hmem | _ | _ | _)
  · exact quote_not_mem_of_stringTexts h hw hmem
  all_goals cases h

/-- A text without a single quote denotes no value that holds one. -/
theorem not_holds_of_quiet {depth : Nat} (h : w ∈ texts real depth json) (hw : Quiet w) :
    ¬ Holds '\'' json := by
  induction depth generalizing json w with
  | zero => exact not_holds_of_quiet_scalar h hw
  | succ depth ih =>
    obtain h | h := h
    · exact not_holds_of_quiet_scalar h hw
    · cases json with
      | array items =>
        obtain ⟨_, rfl, _, h₁, rfl⟩ := Language.mem_mul.mp h
        obtain ⟨v, hv, _, rfl, rfl⟩ := Language.mem_mul.mp h₁
        rintro (_ | ⟨hitem, hholds⟩ | _ | _)
        obtain ⟨u, hu, hin⟩ := exists_infix_of_commaTexts hv (List.mem_map_of_mem hitem)
        exact ih hu (hw.of_infix (hin.trans ⟨['['], [']'], by simp⟩)) hholds
      | object members =>
        obtain ⟨pairs, rfl, hpairs⟩ := h
        obtain ⟨_, rfl, _, h₁, rfl⟩ := Language.mem_mul.mp hpairs
        obtain ⟨v, hv, _, rfl, rfl⟩ := Language.mem_mul.mp h₁
        have hparts {name : String} {value : Json}
            (hmember : (name, value) ∈ Members.ofPairs pairs) :
            '\'' ∉ name.toList ∧ ¬ Holds '\'' value := by
          obtain ⟨u, hu, hin⟩ := exists_infix_of_commaTexts hv
            (List.mem_map_of_mem (Members.mem_of_mem_ofPairs hmember))
          have hquiet := hw.of_infix (hin.trans ⟨['\x7b'], ['\x7d'], by simp⟩)
          obtain ⟨n, hn, _, h₂, rfl⟩ := Language.mem_mul.mp hu
          obtain ⟨gap, -, _, h₃, rfl⟩ := Language.mem_mul.mp h₂
          obtain ⟨_, rfl, _, h₄, rfl⟩ := Language.mem_mul.mp h₃
          obtain ⟨gap', -, t, ht, rfl⟩ := Language.mem_mul.mp h₄
          exact ⟨quote_not_mem_of_stringTexts hn (hquiet.of_infix (List.prefix_append ..).isInfix),
            ih ht (hquiet.of_infix ⟨n ++ (gap ++ ([':'] ++ gap')), [], by simp⟩)⟩
        rintro (_ | _ | ⟨hmember, hname⟩ | ⟨hmember, hholds⟩)
        · exact (hparts hmember).1 hname
        · exact (hparts hmember).2 hholds
      | _ => cases h

end Json

namespace Datum

open SchemaChange.Json (texts greatestDepth)

/-- The text in which every single quote counts as a double one. -/
def doubled (s : List Char) : List Char :=
  s.map fun c => if c = '\'' then '"' else c

theorem quote_not_mem_doubled (s : List Char) : '\'' ∉ doubled s := by
  intro h
  obtain ⟨c, -, hc⟩ := List.mem_map.mp h
  split at hc
  · cases hc
  · contradiction

theorem doubled_of_quote_not_mem (h : '\'' ∉ w) : doubled w = w := by
  unfold doubled
  conv_rhs => rw [← List.map_id w]
  refine List.map_congr_left fun c hc => if_neg ?_
  rintro rfl
  exact h hc

/-- Doubling makes no escape of a single quote. -/
theorem quoteEscape_infix_of_doubled (h : Json.quoteEscape <:+: doubled w) :
    Json.quoteEscape <:+: w := by
  obtain ⟨v, hv, heq⟩ := List.infix_map_iff.mp h
  have hquote : '\'' ∉ v := by
    intro hmem
    have hdouble : '"' ∈ Json.quoteEscape := heq ▸ List.mem_map.mpr ⟨_, hmem, by simp⟩
    exact absurd hdouble (by decide)
  rwa [heq, ← doubled, doubled_of_quote_not_mem hquote]

/-- The text of an array stands in brackets. -/
theorem exists_brackets {depth : Nat} (h : w ∈ texts real depth (.array items)) :
    ∃ v, w = '[' :: (v ++ [']']) := by
  cases depth with
  | zero => cases h
  | succ depth =>
    obtain h | h := h
    · cases h
    · obtain ⟨_, rfl, _, h₁, rfl⟩ := Language.mem_mul.mp h
      obtain ⟨v, -, _, rfl, rfl⟩ := Language.mem_mul.mp h₁
      exact ⟨v, rfl⟩

/-- A text in brackets has no white space around it. -/
theorem mem_white_mul_iff {L : Language Char} (h : w = '[' :: (v ++ [']'])) :
    w ∈ Json.white * (L * Json.white) ↔ w ∈ L := by
  constructor
  · intro hw
    obtain ⟨gap, hgap, _, h₁, heq⟩ := Language.mem_mul.mp hw
    obtain ⟨t, ht, after, hafter, rfl⟩ := Language.mem_mul.mp h₁
    have hfront : gap = [] := by
      cases gap with
      | nil => rfl
      | cons c gap =>
        rw [h] at heq
        obtain ⟨rfl, -⟩ := List.cons.inj heq
        exact absurd (hgap '[' (by simp)) (by decide)
    have hbehind : after = [] := by
      obtain rfl | ⟨front, c, rfl⟩ := List.eq_nil_or_concat after
      · rfl
      · have hlast := congrArg List.getLast? heq
        rw [h] at hlast
        obtain rfl : c = ']' := by simpa [List.getLast?_append, List.getLast?_cons] using hlast
        exact absurd (hafter ']' (by simp)) (by decide)
    rw [hfront, hbehind, List.nil_append, List.append_nil] at heq
    exact heq ▸ ht
  · intro hw
    have := Language.append_mem_mul (a := []) Json.nil_mem_white
      (Language.append_mem_mul hw (b := []) Json.nil_mem_white)
    simpa using this

theorem arrayItems?_eq_some_iff (h : w = '[' :: (v ++ [']'])) :
    arrayItems? w = some items ↔
      doubled w ∈ texts Numeral.ScalesTo greatestDepth (.array items) := by
  have hdoubled : doubled w = '[' :: (doubled v ++ [']']) := by
    simp [h, doubled]
  rw [← mem_white_mul_iff hdoubled, ← Json.ofChars?_eq_some_iff, arrayItems?, ← doubled]
  split
  · rename_i heq
    rw [heq]
    simp
  · rename_i hne
    simpa using hne items

theorem ofToken_of_brackets (h : token.toList = '[' :: (v ++ [']'])) :
    ofToken token = match arrayItems? token.toList with
      | some items => .array items
      | none => .text token := by
  have hbracketed : isBracketed token.toList = true := by
    simp [isBracketed, h, List.getLast?_append, List.getLast?_cons]
  rw [ofToken, ofKeyword?_eq_none h (by decide), hbracketed]
  rfl

theorem ofToken_eq_text (h : token.toList = '[' :: (v ++ [']']))
    (hnone : ∀ others, doubled token.toList ∉ texts Numeral.ScalesTo greatestDepth (.array others)) :
    ofToken token = .text token := by
  rw [ofToken_of_brackets h]
  cases hitems : arrayItems? token.toList with
  | none => rfl
  | some others => exact absurd ((arrayItems?_eq_some_iff h).mp hitems) (hnone others)

theorem ofToken_eq_array_iff (h : token.toList = '[' :: (v ++ [']'])) :
    ofToken token = .array items ↔
      doubled token.toList ∈ texts Numeral.ScalesTo greatestDepth (.array items) := by
  rw [ofToken_of_brackets h, ← arrayItems?_eq_some_iff h]
  cases arrayItems? token.toList with
  | none => simp
  | some others => simp

/-- A token that is the text of a JSON array, with numbers in floating point that denote what `real`
says, is classified as the array that it denotes once every single quote counts as a double one and
such numbers are scaled, or as a text where it denotes none then. So without a single quote it keeps
its value where its numbers are short, or scaled to what they denote, and all but these numbers where
they are scaled at all. It loses its value where a string holds a single quote that is written as
such. -/
theorem ofToken_of_arrayText (h : token.toList ∈ texts real greatestDepth (.array items)) :
    ('\'' ∉ token.toList → (∀ n x, real n x → n.ScalesTo x ∨ n.IsShort ∧ n.RoundsTo x) →
      ofToken token = .array items) ∧
    ('\'' ∉ token.toList → (∀ n x, real n x → ∃ y, n.ScalesTo y) →
      ∃ others, ofToken token = .array others ∧ List.Forall₂ Json.Alike items others) ∧
    (∀ others, ofToken token = .array others ↔
      doubled token.toList ∈ texts Numeral.ScalesTo greatestDepth (.array others)) ∧
    ((∀ others, doubled token.toList ∉ texts Numeral.ScalesTo greatestDepth (.array others)) →
      ofToken token = .text token) ∧
    (Json.Holds '\'' (.array items) → ¬ Json.quoteEscape <:+: token.toList →
      ofToken token ≠ .array items) := by
  obtain ⟨v, hv⟩ := exists_brackets h
  have hkeeps {others : List Json} (hquote : '\'' ∉ token.toList)
      (hothers : token.toList ∈ texts Numeral.ScalesTo greatestDepth (.array others)) :
      ofToken token = .array others := by
    rwa [ofToken_eq_array_iff hv, doubled_of_quote_not_mem hquote]
  refine ⟨?_, ?_, fun others => ofToken_eq_array_iff hv, ofToken_eq_text hv, ?_⟩
  · intro hquote hreal
    refine hkeeps hquote (Json.texts_mono (fun n x hx => ?_) h)
    exact (hreal n x hx).elim id fun hshort => hshort.2.scalesTo hshort.1
  · intro hquote hreal
    obtain ⟨_, halike, hothers⟩ := Json.exists_alike hreal h
    cases halike with
    | array hitems => exact ⟨_, hkeeps hquote hothers, hitems⟩
  · intro hholds hescape hkept
    have hquiet : Json.Quiet (doubled token.toList) :=
      ⟨quote_not_mem_doubled _, fun hin => hescape (quoteEscape_infix_of_doubled hin)⟩
    exact Json.not_holds_of_quiet ((ofToken_eq_array_iff hv).mp hkept) hquiet hholds

theorem doubled_not_mem_texts (h : (Json.value greatestDepth (doubled w)).isNone = true) :
    doubled w ∉ texts Numeral.ScalesTo greatestDepth (.array items) := by
  intro hmem
  have hread : Json.value greatestDepth (doubled w ++ []) = some (.array items, []) :=
    Json.value_append hmem stops_nil
  rw [List.append_nil] at hread
  rw [hread] at h
  cases h

/-! ## Tokens in full -/

theorem textItem_mem_texts {s : List Char} {value : String} (h : Json.string s = some (value, [])) :
    '[' :: ('"' :: s ++ [']']) ∈ texts real greatestDepth (.array [.text value]) :=
  Json.array_mem_texts (Json.singleton_mem_commaTexts (Json.text_mem_texts h))

theorem realItem_mem_texts {n : Numeral} {x : Binary64} (hw : w ∈ Json.numeralTexts n)
    (hnot : ¬ Json.KeepsInteger n) (hx : real n x) :
    '[' :: (w ++ [']']) ∈ texts real greatestDepth (.array [.real x]) :=
  Json.array_mem_texts (Json.singleton_mem_commaTexts (Json.real_mem_texts hw hnot hx))

/-- One half. -/
def half : Numeral :=
  ⟨false, ['0'], some ['5'], none⟩

theorem half_mem_texts : "[0.5,\x7b\"k\":[\"x\"]\x7d]".toList ∈
    texts (fun n x => n.IsShort ∧ n.RoundsTo x) greatestDepth
      (.array [.real (.finite false 4503599627370496 (-53)),
        .object [("k", .array [.text "x"])]]) := by
  have hshort : half.IsShort ∧ half.RoundsTo (.finite false 4503599627370496 (-53)) :=
    ⟨⟨by decide, by decide⟩, Numeral.roundsTo_of_ofNumeral (by decide +kernel)⟩
  have hnot : ¬ Json.KeepsInteger half := fun h => by cases h.1
  have hn : "0.5".toList ∈ Json.numeralTexts half := Json.mem_numeralTexts (by decide) (by decide)
  have heq : "[0.5,\x7b\"k\":[\"x\"]\x7d]".toList = '[' :: ("0.5".toList ++ ',' ::
      '\x7b' :: ('"' :: "k\"".toList ++ ':' :: '[' :: ('"' :: "x\"".toList ++ [']']) ++ ['\x7d']) ++
        [']']) := by
    decide
  rw [heq]
  exact Json.array_mem_texts (Json.cons_mem_commaTexts (Json.real_mem_texts hn hnot hshort)
    (Json.singleton_mem_commaTexts (Json.object_mem_texts [("k", _)]
      (Json.singleton_mem_commaTexts (Json.member_mem_memberTexts (by decide)
        (Json.array_mem_texts (Json.singleton_mem_commaTexts (Json.text_mem_texts (by decide)))))))))

theorem electronCharge_mem_texts {x : Binary64} (hx : real Numeral.electronCharge x) :
    "[1.602176634e-19]".toList ∈ texts real greatestDepth (.array [.real x]) := by
  have hn : "1.602176634e-19".toList ∈ Json.numeralTexts Numeral.electronCharge :=
    Json.mem_numeralTexts (by decide) (by decide)
  have hnot : ¬ Json.KeepsInteger Numeral.electronCharge := fun h => by cases h.1
  have heq : "[1.602176634e-19]".toList = '[' :: ("1.602176634e-19".toList ++ [']']) := by decide
  rw [heq]
  exact realItem_mem_texts hn hnot hx

theorem aboveGreatest_mem_texts {x : Binary64} (hx : real Numeral.aboveGreatest x) :
    "[1.7976931348623158e308]".toList ∈ texts real greatestDepth (.array [.real x]) := by
  have hn : "1.7976931348623158e308".toList ∈ Json.numeralTexts Numeral.aboveGreatest :=
    Json.mem_numeralTexts (by decide) (by decide)
  have hnot : ¬ Json.KeepsInteger Numeral.aboveGreatest := fun h => by cases h.1
  have heq : "[1.7976931348623158e308]".toList =
      '[' :: ("1.7976931348623158e308".toList ++ [']']) := by
    decide
  rw [heq]
  exact realItem_mem_texts hn hnot hx

theorem quotedText_mem_texts :
    "[\"it's\"]".toList ∈ texts real greatestDepth (.array [.text "it's"]) := by
  have heq : "[\"it's\"]".toList = '[' :: ('"' :: "it's\"".toList ++ [']']) := by decide
  rw [heq]
  exact textItem_mem_texts (by decide)

theorem partedText_mem_texts :
    "[\"a', 'b\"]".toList ∈ texts real greatestDepth (.array [.text "a', 'b"]) := by
  have heq : "[\"a', 'b\"]".toList = '[' :: ('"' :: "a', 'b\"".toList ++ [']']) := by decide
  rw [heq]
  exact textItem_mem_texts (by decide)

/-- A short number beside nested values, a number that is scaled to another one, a quote that parts a
string in two, and one that leaves no array. -/
theorem ofToken_of_arrayText_nested :
    ofToken "[0.5,\x7b\"k\":[\"x\"]\x7d]" =
      .array [.real (.finite false 4503599627370496 (-53)), .object [("k", .array [.text "x"])]] ∧
    (∃ others, ofToken "[1.602176634e-19]" = .array others ∧
      List.Forall₂ Json.Alike [.real (.finite false 6655181362828883 (-115))] others) ∧
    ofToken "[\"a', 'b\"]" = .array [.text "a", .text "b"] ∧
    ofToken "[\"it's\"]" = .text "[\"it's\"]" ∧
    ofToken "[\"it's\"]" ≠ .array [.text "it's"] := by
  have hcharge : "[1.602176634e-19]".toList ∈
      texts (fun n x => n = Numeral.electronCharge ∧ n.RoundsTo x) greatestDepth
        (.array [.real (.finite false 6655181362828883 (-115))]) :=
    electronCharge_mem_texts ⟨rfl, Numeral.electronCharge_roundsTo⟩
  have hholds : Json.Holds '\'' (.array [.text "it's"]) :=
    .item (List.mem_singleton.mpr rfl) (.text (by decide))
  obtain ⟨hkept, -⟩ := ofToken_of_arrayText half_mem_texts
  obtain ⟨-, hscaled, -⟩ := ofToken_of_arrayText hcharge
  have hparted : "[\"a', 'b\"]".toList ∈
      texts Numeral.RoundsTo greatestDepth (.array [.text "a', 'b"]) := partedText_mem_texts
  have hquoted : "[\"it's\"]".toList ∈
      texts Numeral.RoundsTo greatestDepth (.array [.text "it's"]) := quotedText_mem_texts
  obtain ⟨-, -, hother, -⟩ := ofToken_of_arrayText hparted
  obtain ⟨-, -, -, htext, hnever⟩ := ofToken_of_arrayText hquoted
  refine ⟨hkept (by decide) fun _ _ => .inr, hscaled (by decide) ?_, (hother _).mpr ?_,
    htext fun others => doubled_not_mem_texts (by decide +kernel), hnever hholds (by decide)⟩
  · rintro _ _ ⟨rfl, -⟩
    exact ⟨_, Numeral.electronCharge_scalesTo⟩
  · exact Json.mem_texts_of_value (by cbv)

/-- An array is not always kept: a string loses a single quote, a number in floating point becomes the
one beside it, and a number next to the greatest finite one makes a text of the token. -/
theorem ofToken_not_keeps_arrays :
    ("[\"it's\"]".toList ∈ texts Numeral.RoundsTo greatestDepth (.array [.text "it's"]) ∧
      ofToken "[\"it's\"]" = .text "[\"it's\"]") ∧
    ("[1.602176634e-19]".toList ∈ texts Numeral.RoundsTo greatestDepth
        (.array [.real (.finite false 6655181362828883 (-115))]) ∧
      ofToken "[1.602176634e-19]" = .array [.real (.finite false 6655181362828884 (-115))]) ∧
    ("[1.7976931348623158e308]".toList ∈ texts Numeral.RoundsTo greatestDepth
        (.array [.real (.finite false 9007199254740991 971)]) ∧
      ofToken "[1.7976931348623158e308]" = .text "[1.7976931348623158e308]") := by
  have hcharge := electronCharge_mem_texts Numeral.electronCharge_scalesTo
  obtain ⟨u, hu⟩ := exists_brackets hcharge
  refine ⟨⟨quotedText_mem_texts, ?_⟩,
    ⟨electronCharge_mem_texts Numeral.electronCharge_roundsTo, ?_⟩,
    aboveGreatest_mem_texts Numeral.aboveGreatest_roundsTo, ?_⟩
  · exact ofToken_eq_text (v := "\"it's\"".toList) (by decide)
      fun others => doubled_not_mem_texts (by decide +kernel)
  · rwa [ofToken_eq_array_iff hu, doubled_of_quote_not_mem (by decide)]
  · exact ofToken_eq_text (v := "1.7976931348623158e308".toList) (by decide)
      fun others => doubled_not_mem_texts (by decide +kernel)

end Datum

end SchemaChange
