import SchemaChange.Proofs.JsonText

/-!
# Readings of numbers

How the texts of JSON values hang on what numbers in floating point denote. Where one reading of
numbers denotes more than another, every text keeps its value. Where it denotes something else, the
text denotes a value that is the same but for such numbers.
-/

namespace SchemaChange.Json

open SchemaChange.Number (Binary64 Numeral)

variable {α : Type} {depth : Nat} {v w : List Char} {json : Json}
  {real real' : Numeral → Binary64 → Prop}

/-- Two values are the same but for numbers in floating point. -/
inductive Alike : Json → Json → Prop
  | null : Alike .null .null
  | bool {value : Bool} : Alike (.bool value) (.bool value)
  | int {value : Int} : Alike (.int value) (.int value)
  | text {value : String} : Alike (.text value) (.text value)
  | real {x y : Binary64} : Alike (.real x) (.real y)
  | array {items items' : List Json} (h : List.Forall₂ Alike items items') :
      Alike (.array items) (.array items')
  | object {members members' : List (String × Json)}
      (hnames : members.map Prod.fst = members'.map Prod.fst)
      (hvalues : List.Forall₂ Alike (members.map Prod.snd) (members'.map Prod.snd)) :
      Alike (.object members) (.object members')

/-- Members with the same names in the same order and related values. -/
def MembersRelated (R : Json → Json → Prop) (a b : String × Json) : Prop :=
  a.1 = b.1 ∧ R a.2 b.2

/-- A relation that arrays and objects inherit from their values. -/
structure Inherited (R : Json → Json → Prop) : Prop where
  array : ∀ items items', List.Forall₂ R items items' → R (.array items) (.array items')
  object : ∀ members members', List.Forall₂ (MembersRelated R) members members' →
    R (.object members) (.object members')

theorem inherited_eq : Inherited (· = ·) where
  array := by
    intro items items' h
    rw [List.forall₂_eq_eq_eq] at h
    rw [h]
  object := by
    intro members members' h
    have heq : members = members' := by
      induction h with
      | nil => rfl
      | cons hmember _ ih => rw [ih, Prod.ext hmember.1 hmember.2]
    rw [heq]

theorem inherited_alike : Inherited Alike where
  array := fun _ _ => .array
  object := by
    intro members members' h
    refine .object ?_ ?_
    · induction h with
      | nil => rfl
      | cons hmember _ ih => rw [List.map_cons, List.map_cons, hmember.1, ih]
    · induction h with
      | nil => exact .nil
      | cons hmember _ ih => exact .cons hmember.2 ih

/-- Setting a name to related values keeps the members related. -/
theorem forall₂_put {R : Json → Json → Prop} {members members' : List (String × Json)}
    {a b : String × Json} (h : List.Forall₂ (MembersRelated R) members members')
    (hab : MembersRelated R a b) :
    List.Forall₂ (MembersRelated R) (Members.put a.1 a.2 members) (Members.put b.1 b.2 members') := by
  induction h with
  | nil => exact .cons hab .nil
  | @cons c d members members' hcd hrest ih =>
    obtain ⟨hname, hvalue⟩ := hcd
    rw [Members.put, Members.put, hname, hab.1]
    split_ifs
    · exact .cons ⟨rfl, hab.2⟩ hrest
    · rw [hab.1] at ih
      exact .cons ⟨rfl, hvalue⟩ ih

theorem forall₂_ofPairs {R : Json → Json → Prop} {pairs pairs' : List (String × Json)}
    (h : List.Forall₂ (MembersRelated R) pairs pairs') :
    List.Forall₂ (MembersRelated R) (Members.ofPairs pairs) (Members.ofPairs pairs') := by
  have hfold {members members' : List (String × Json)}
      (hmembers : List.Forall₂ (MembersRelated R) members members') :
      List.Forall₂ (MembersRelated R)
        (pairs.foldl (fun members pair => Members.put pair.1 pair.2 members) members)
        (pairs'.foldl (fun members pair => Members.put pair.1 pair.2 members) members') := by
    induction h generalizing members members' with
    | nil => exact hmembers
    | cons hab _ ih => exact ih (forall₂_put hmembers hab)
  exact hfold .nil

/-- Where the text of an item is that of a related one, a sequence is one of related items. -/
theorem exists_commaTexts {R : α → α → Prop} {forms forms' : α → Language Char} {items : List α}
    (h : ∀ a ∈ items, ∀ v ∈ forms a, ∃ b, R a b ∧ v ∈ forms' b)
    (hw : w ∈ commaTexts (items.map forms)) :
    ∃ items', List.Forall₂ R items items' ∧ w ∈ commaTexts (items'.map forms') := by
  induction items generalizing w with
  | nil => exact ⟨[], .nil, hw⟩
  | cons a more ih =>
    rw [List.forall_mem_cons] at h
    cases more with
    | nil =>
      obtain ⟨gap, hgap, _, hrest, rfl⟩ := Language.mem_mul.mp hw
      obtain ⟨v, hv, gap', hgap', rfl⟩ := Language.mem_mul.mp hrest
      obtain ⟨b, hb, hv⟩ := h.1 v hv
      exact ⟨[b], .cons hb .nil, Language.append_mem_mul hgap (Language.append_mem_mul hv hgap')⟩
    | cons next more =>
      obtain ⟨gap, hgap, _, h₁, rfl⟩ := Language.mem_mul.mp hw
      obtain ⟨v, hv, _, h₂, rfl⟩ := Language.mem_mul.mp h₁
      obtain ⟨gap', hgap', _, h₃, rfl⟩ := Language.mem_mul.mp h₂
      obtain ⟨_, rfl, w', hw', rfl⟩ := Language.mem_mul.mp h₃
      obtain ⟨b, hb, hv⟩ := h.1 v hv
      obtain ⟨items', hitems, hw'⟩ := ih h.2 hw'
      obtain _ | ⟨hnext, hmore⟩ := hitems
      exact ⟨_, .cons hb (.cons hnext hmore), Language.append_mem_mul hgap
        (Language.append_mem_mul hv (Language.append_mem_mul hgap'
          (Language.append_mem_mul (a := [',']) rfl hw')))⟩

theorem exists_memberTexts {R : Json → Json → Prop} {inner inner' : Json → Language Char}
    {member : String × Json} (h : ∀ v ∈ inner member.2, ∃ json, R member.2 json ∧ v ∈ inner' json)
    (hw : w ∈ memberTexts inner member) :
    ∃ member', MembersRelated R member member' ∧ w ∈ memberTexts inner' member' := by
  obtain ⟨name, hname, _, h₁, rfl⟩ := Language.mem_mul.mp hw
  obtain ⟨gap, hgap, _, h₂, rfl⟩ := Language.mem_mul.mp h₁
  obtain ⟨_, rfl, _, h₃, rfl⟩ := Language.mem_mul.mp h₂
  obtain ⟨gap', hgap', v, hv, rfl⟩ := Language.mem_mul.mp h₃
  obtain ⟨json, hjson, hv⟩ := h v hv
  exact ⟨(member.1, json), ⟨rfl, hjson⟩, Language.append_mem_mul hname
    (Language.append_mem_mul hgap (Language.append_mem_mul (a := [':']) rfl
      (Language.append_mem_mul hgap' hv)))⟩

/-- What holds of the values of scalar texts in two readings holds of the values of all texts, if
arrays and objects inherit it. -/
theorem exists_related {R : Json → Json → Prop} (hR : Inherited R)
    (hscalar : ∀ json, ∀ v ∈ scalarTexts real json,
      ∃ json', R json json' ∧ v ∈ scalarTexts real' json')
    (h : w ∈ texts real depth json) : ∃ json', R json json' ∧ w ∈ texts real' depth json' := by
  induction depth generalizing json w with
  | zero => exact hscalar json w h
  | succ depth ih =>
    obtain h | h := h
    · obtain ⟨json', hjson, hw⟩ := hscalar json w h
      exact ⟨json', hjson, Or.inl hw⟩
    · cases json with
      | array items =>
        obtain ⟨_, rfl, _, h₁, rfl⟩ := Language.mem_mul.mp h
        obtain ⟨v, hv, _, rfl, rfl⟩ := Language.mem_mul.mp h₁
        obtain ⟨items', hitems, hv⟩ := exists_commaTexts (fun _ _ _ => ih) hv
        exact ⟨_, hR.array _ _ hitems, Or.inr (Language.append_mem_mul (a := ['[']) rfl
          (Language.append_mem_mul hv (b := [']']) rfl))⟩
      | object members =>
        obtain ⟨pairs, rfl, hpairs⟩ := h
        obtain ⟨_, rfl, _, h₁, rfl⟩ := Language.mem_mul.mp hpairs
        obtain ⟨v, hv, _, rfl, rfl⟩ := Language.mem_mul.mp h₁
        obtain ⟨pairs', hpairs, hv⟩ :=
          exists_commaTexts (fun _ _ _ => exists_memberTexts fun _ => ih) hv
        exact ⟨_, hR.object _ _ (forall₂_ofPairs hpairs), Or.inr ⟨pairs', rfl,
          Language.append_mem_mul (a := ['\x7b']) rfl
            (Language.append_mem_mul hv (b := ['\x7d']) rfl)⟩⟩
      | _ => cases h

/-- Where more is denoted, every text keeps its value. -/
theorem texts_mono (hreal : ∀ n x, real n x → real' n x) (h : w ∈ texts real depth json) :
    w ∈ texts real' depth json := by
  have hnumber {json : Json} {v : List Char} (hv : v ∈ numberTexts real json) :
      v ∈ numberTexts real' json := by
    obtain ⟨n, hn, hvalue⟩ := hv
    cases hvalue with
    | int hinteger => exact ⟨n, hn, .int hinteger⟩
    | real hnot hx => exact ⟨n, hn, .real hnot (hreal _ _ hx)⟩
  have hscalar : ∀ json, ∀ v ∈ scalarTexts real json,
      ∃ json', json = json' ∧ v ∈ scalarTexts real' json' := by
    intro json v hv
    refine ⟨json, rfl, ?_⟩
    cases json with
    | bool value =>
      cases value with
      | true => exact hv
      | false => exact hv
    | int value => exact hnumber hv
    | real x => exact hnumber hv
    | _ => exact hv
  obtain ⟨_, rfl, hw⟩ := exists_related inherited_eq hscalar h
  exact hw

/-- Where something is denoted in another reading, a text has a value there that is the same but for
numbers in floating point. -/
theorem exists_alike (hreal : ∀ n x, real n x → ∃ y, real' n y) (h : w ∈ texts real depth json) :
    ∃ json', Alike json json' ∧ w ∈ texts real' depth json' := by
  refine exists_related inherited_alike (fun json v hv => ?_) h
  cases json with
  | null => exact ⟨_, .null, hv⟩
  | bool value =>
    cases value with
    | true => exact ⟨_, .bool, hv⟩
    | false => exact ⟨_, .bool, hv⟩
  | int value =>
    obtain ⟨n, hn, hvalue⟩ := hv
    cases hvalue with
    | int hinteger => exact ⟨_, .int, n, hn, .int hinteger⟩
  | real x =>
    obtain ⟨n, hn, hvalue⟩ := hv
    cases hvalue with
    | real hnot hx =>
      obtain ⟨y, hy⟩ := hreal _ _ hx
      exact ⟨.real y, .real, n, hn, .real hnot hy⟩
  | text value => exact ⟨_, .text, hv⟩
  | array items => cases hv
  | object members => cases hv

/-! ## Texts without white space -/

theorem mem_numeralTexts {n : Numeral} (h : Numeral.unsigned false w = some (n, []))
    (hjson : isJsonNumeral n = true) : w ∈ numeralTexts n := by
  obtain ⟨hsign, v, hv, rfl⟩ := exists_text_of_unsigned h hjson
  have hnone : [] ∈ signTexts n.negative := by
    rw [hsign]
    rfl
  rw [List.append_nil]
  exact Language.append_mem_mul hnone hv

theorem real_mem_texts {n : Numeral} {x : Binary64} (hw : w ∈ numeralTexts n)
    (hnot : ¬ KeepsInteger n) (hx : real n x) : w ∈ texts real depth (.real x) :=
  scalarTexts_le_texts ⟨n, hw, .real hnot hx⟩

theorem text_mem_texts {value : String} {s : List Char} (h : string s = some (value, [])) :
    '"' :: s ∈ texts real depth (.text value) := by
  obtain ⟨v, hv, heq⟩ := string_eq_some_iff.mp h
  rw [heq, List.append_nil]
  exact scalarTexts_le_texts hv

theorem singleton_mem_commaTexts {item : Language Char} (hw : w ∈ item) : w ∈ commaTexts [item] := by
  have h := Language.append_mem_mul (a := []) nil_mem_white
    (Language.append_mem_mul hw (b := []) nil_mem_white)
  rwa [List.nil_append, List.append_nil] at h

theorem cons_mem_commaTexts {item next : Language Char} {more : List (Language Char)}
    (hv : v ∈ item) (hw : w ∈ commaTexts (next :: more)) :
    v ++ ',' :: w ∈ commaTexts (item :: next :: more) :=
  Language.append_mem_mul (a := []) nil_mem_white (Language.append_mem_mul hv
    (Language.append_mem_mul (a := []) nil_mem_white
      (Language.append_mem_mul (a := [',']) rfl hw)))

theorem array_mem_texts {items : List Json} (hw : w ∈ commaTexts (items.map (texts real depth))) :
    '[' :: (w ++ [']']) ∈ texts real (depth + 1) (.array items) :=
  Or.inr (Language.append_mem_mul (a := ['[']) rfl (Language.append_mem_mul hw (b := [']']) rfl))

theorem object_mem_texts (pairs : List (String × Json))
    (hw : w ∈ commaTexts (pairs.map (memberTexts (texts real depth)))) :
    '\x7b' :: (w ++ ['\x7d']) ∈ texts real (depth + 1) (.object (Members.ofPairs pairs)) :=
  Or.inr ⟨pairs, rfl, Language.append_mem_mul (a := ['\x7b']) rfl
    (Language.append_mem_mul hw (b := ['\x7d']) rfl)⟩

theorem member_mem_memberTexts {inner : Json → Language Char} {name : String} {s : List Char}
    (hname : string s = some (name, [])) (hw : w ∈ inner json) :
    '"' :: s ++ ':' :: w ∈ memberTexts inner (name, json) := by
  obtain ⟨v, hv, heq⟩ := string_eq_some_iff.mp hname
  rw [heq, List.append_nil]
  exact Language.append_mem_mul hv (Language.append_mem_mul (a := []) nil_mem_white
    (Language.append_mem_mul (a := [':']) rfl (Language.append_mem_mul (a := []) nil_mem_white hw)))

end SchemaChange.Json
