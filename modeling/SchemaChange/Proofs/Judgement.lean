import SchemaChange.Proofs.Account
import SchemaChange.Proofs.JsonReading
import SchemaChange.Proofs.LowerSearch

/-!
# How replies are judged

The verdict on a reply follows from its status, and for a bad request also from the first error that
its body lists. A body that is no JSON text, or one of another shape, lists no error, and neither does
one with a number that is not scaled to a finite one.
-/

namespace SchemaChange

/-! ## Objects that repeat a name -/

namespace Members

variable {α : Type} {name : String} {value : α} {pairs : List (String × α)}

/-- The last value that pairs give to a name. -/
def IsFinal (pairs : List (String × α)) (name : String) (value : α) : Prop :=
  ∃ before behind, pairs = before ++ (name, value) :: behind ∧ name ∉ behind.map Prod.fst

theorem isFinal_iff_lookup :
    IsFinal pairs name value ↔ pairs.reverse.lookup name = some value := by
  rw [List.lookup_eq_some_iff]
  constructor
  · rintro ⟨before, behind, rfl, hlater⟩
    refine ⟨behind.reverse, before.reverse, by simp, ?_⟩
    intro pair hpair
    rw [bne_iff_ne]
    rintro rfl
    exact hlater (List.mem_map_of_mem (List.mem_reverse.mp hpair))
  · rintro ⟨behind, before, heq, hlater⟩
    refine ⟨before.reverse, behind.reverse, ?_, ?_⟩
    · rw [← List.reverse_reverse pairs, heq]
      simp
    · intro hmem
      obtain ⟨pair, hpair, hname⟩ := List.mem_map.mp hmem
      have hne := hlater pair (List.mem_reverse.mp hpair)
      rw [hname, bne_self_eq_false] at hne
      cases hne

theorem get?_ofPairs (name : String) (pairs : List (String × α)) :
    get? name (ofPairs pairs) = pairs.reverse.lookup name := by
  induction pairs using List.reverseRecOn with
  | nil => rfl
  | append_singleton pairs pair ih =>
    have hput : ofPairs (pairs ++ [pair]) = (ofPairs pairs).put pair.1 pair.2 := by
      simp [ofPairs]
    rw [hput, get?_put, ih, List.reverse_append, List.reverse_singleton, List.singleton_append,
      List.lookup_cons]
    by_cases hname : name = pair.1
    · simp [hname]
    · rw [if_neg hname, beq_false_of_ne hname]

/-- Where pairs repeat a name, the value that comes last counts. -/
theorem get?_ofPairs_iff : get? name (ofPairs pairs) = some value ↔ IsFinal pairs name value := by
  rw [get?_ofPairs, isFinal_iff_lookup]

end Members

/-! ## The first error -/

namespace Json

variable {json v : Json} {name content : String}

theorem member?_eq_some_iff : json.member? name = some v ↔
    ∃ members, json = .object members ∧ Members.get? name members = some v := by
  cases json with
  | object members => simp [member?]
  | _ => simp [member?]

theorem first?_eq_some_iff : json.first? = some v ↔ ∃ more, json = .array (v :: more) := by
  cases json with
  | array items =>
    cases items with
    | nil => simp [first?]
    | cons item items => simp [first?]
  | _ => simp [first?]

theorem text?_eq_some_iff : json.text? = some content ↔ json = .text content := by
  cases json with
  | text value => simp [text?]
  | _ => simp [text?]

end Json

namespace Reply

open SchemaChange.Json (texts white greatestDepth)
open SchemaChange.Number (Binary64 Numeral)

variable {reply : Reply} {message reason : String}

/-- The body is one JSON text, where `real` says what numbers in floating point denote. It is an
object whose errors are an array, and the first of them is an object with this message. -/
def Says (real : Numeral → Binary64 → Prop) (body message : String) : Prop :=
  ∃ members first more inner,
    body.toList ∈ white * (texts real greatestDepth (.object members) * white) ∧
    Members.get? "errors" members = some (.array (first :: more)) ∧
    first = .object inner ∧ Members.get? "message" inner = some (.text message)

theorem firstMessage?_eq_some_iff :
    reply.firstMessage? = some message ↔ Says Numeral.ScalesTo reply.body message := by
  simp only [firstMessage?, Option.bind_eq_bind, Option.bind_eq_some_iff,
    Json.ofChars?_eq_some_iff, Json.member?_eq_some_iff, Json.first?_eq_some_iff,
    Json.text?_eq_some_iff]
  constructor
  · rintro ⟨_, hbody, _, ⟨members, rfl, herrors⟩, first, ⟨more, rfl⟩, _, ⟨inner, hfirst, hmessage⟩,
      rfl⟩
    exact ⟨members, first, more, inner, hbody, herrors, hfirst, hmessage⟩
  · rintro ⟨members, first, more, inner, hbody, herrors, hfirst, hmessage⟩
    exact ⟨_, hbody, _, ⟨members, rfl, herrors⟩, first, ⟨more, rfl⟩, _, ⟨inner, hfirst, hmessage⟩,
      rfl⟩

/-- The first error says that the thing to create already exists, in letters of either case. -/
def SaysExisting (real : Numeral → Binary64 → Prop) (body : String) : Prop :=
  ∃ message, Says real body message ∧
    ∃ part, part <:+: message.toList ∧ part.map Char.toLower = "already exists".toList

theorem reportsExisting_iff :
    reply.reportsExisting = true ↔ SaysExisting Numeral.ScalesTo reply.body := by
  have hsteady : Text.IsSteady "already exists".toList := ⟨by decide, by decide⟩
  simp only [SaysExisting, ← firstMessage?_eq_some_iff, reportsExisting]
  cases reply.firstMessage? with
  | none => simp
  | some message =>
    rw [hsteady.occursIn_lower_iff]
    simp

/-! ## Verdicts -/

theorem accepted_iff : reply.accepted = true ↔ reply.status = 200 ∨ reply.status = 201 := by
  rw [accepted, Bool.or_eq_true, beq_iff_eq, beq_iff_eq]

theorem recordVerdict_eq_applied_iff :
    reply.recordVerdict = .applied ↔ reply.status = 200 ∨ reply.status = 201 := by
  rw [← accepted_iff, recordVerdict]
  by_cases haccepted : reply.accepted = true
  · simp [haccepted]
  · simp [haccepted, rejection]

theorem recordVerdict_eq_failed_iff : reply.recordVerdict = .failed reason ↔
    ¬ (reply.status = 200 ∨ reply.status = 201) ∧
      reason = toString reply.status ++ " " ++ reply.body := by
  rw [← accepted_iff, recordVerdict]
  by_cases haccepted : reply.accepted = true
  · simp [haccepted]
  · simp [haccepted, rejection, eq_comm]

/-- The reply to a conflict, or to a bad request whose first error says so, tells that the thing to
create is there already. -/
def TellsPresent (reply : Reply) : Prop :=
  reply.status = 409 ∨ reply.status = 400 ∧ SaysExisting Numeral.ScalesTo reply.body

theorem not_accepted_of_tellsPresent (h : reply.TellsPresent) : ¬ reply.accepted = true := by
  rw [accepted_iff]
  obtain hconflict | ⟨hbad, -⟩ := h
  · omega
  · omega

/-- A field is judged as a record would be, unless it is there already. -/
theorem fieldVerdict_cases (reply : Reply) :
    reply.TellsPresent ∧ reply.fieldVerdict = .alreadyPresent ∨
      ¬ reply.TellsPresent ∧ reply.fieldVerdict = reply.recordVerdict := by
  have hpresent : (decide (reply.status = 409) ||
      decide (reply.status = 400) && reply.reportsExisting) = true ↔ reply.TellsPresent := by
    rw [Bool.or_eq_true, Bool.and_eq_true, decide_eq_true_eq, decide_eq_true_eq,
      reportsExisting_iff, TellsPresent]
  by_cases htells : reply.TellsPresent
  · refine Or.inl ⟨htells, ?_⟩
    rw [fieldVerdict, if_neg (not_accepted_of_tellsPresent htells), if_pos (hpresent.mpr htells)]
  · refine Or.inr ⟨htells, ?_⟩
    rw [fieldVerdict, recordVerdict, if_neg (hpresent.not.mpr htells)]

/-- How a reply is judged. A success applies a field or a record. A field that is there already is
told apart, a record never is. Everything else fails, for the reason that the reply gives. -/
structure Judged (reply : Reply) : Prop where
  fieldApplied : reply.fieldVerdict = .applied ↔ reply.status = 200 ∨ reply.status = 201
  fieldPresent : reply.fieldVerdict = .alreadyPresent ↔ reply.TellsPresent
  fieldFailed : ∀ reason, reply.fieldVerdict = .failed reason ↔
    ¬ (reply.status = 200 ∨ reply.status = 201) ∧ ¬ reply.TellsPresent ∧
      reason = toString reply.status ++ " " ++ reply.body
  recordApplied : reply.recordVerdict = .applied ↔ reply.status = 200 ∨ reply.status = 201
  recordFailed : ∀ reason, reply.recordVerdict = .failed reason ↔
    ¬ (reply.status = 200 ∨ reply.status = 201) ∧
      reason = toString reply.status ++ " " ++ reply.body
  recordPresent : reply.recordVerdict ≠ .alreadyPresent
  skipped : reply.fieldVerdict ≠ .skipped ∧ reply.recordVerdict ≠ .skipped

theorem judged (reply : Reply) : reply.Judged where
  fieldApplied := by
    obtain ⟨htells, hfield⟩ | ⟨-, hfield⟩ := fieldVerdict_cases reply
    · rw [hfield, ← accepted_iff]
      exact iff_of_false (by decide) (not_accepted_of_tellsPresent htells)
    · rw [hfield, recordVerdict_eq_applied_iff]
  fieldPresent := by
    obtain ⟨htells, hfield⟩ | ⟨htells, hfield⟩ := fieldVerdict_cases reply
    · exact iff_of_true hfield htells
    · rw [hfield]
      exact iff_of_false (Delivery.recordVerdict_ne (by decide) rfl reply) htells
  fieldFailed := by
    intro reason
    obtain ⟨htells, hfield⟩ | ⟨htells, hfield⟩ := fieldVerdict_cases reply
    · simp [hfield, htells]
    · rw [hfield, recordVerdict_eq_failed_iff, and_iff_right htells]
  recordApplied := recordVerdict_eq_applied_iff
  recordFailed := fun _ => recordVerdict_eq_failed_iff
  recordPresent := Delivery.recordVerdict_ne (by decide) rfl reply
  skipped := ⟨Delivery.fieldVerdict_ne_skipped reply,
    Delivery.recordVerdict_ne (by decide) rfl reply⟩

/-- A reply is judged as above, and its body is taken at its word: it is one JSON text, in which the
value that comes last counts for a repeated name, and its first error says that the thing exists. -/
theorem judged_by_first_error (reply : Reply) :
    reply.Judged ∧ (reply.reportsExisting = true ↔ SaysExisting Numeral.ScalesTo reply.body) ∧
      ∀ (pairs : List (String × Json)) name value,
        Members.get? name (Members.ofPairs pairs) = some value ↔
          Members.IsFinal pairs name value := by
  refine ⟨judged reply, reportsExisting_iff, ?_⟩
  intro pairs name value
  exact Members.get?_ofPairs_iff

/-- A body whose first error says that the thing exists, behind a number next to the greatest finite
one. -/
def numberAndError : String :=
  "\x7b\"v\":1.7976931348623158e308,\"errors\":[\x7b\"message\":\"already exists\"\x7d]\x7d"

theorem numberAndError_mem_texts {real : Numeral → Binary64 → Prop} {x : Binary64}
    (hx : real Numeral.aboveGreatest x) : numberAndError.toList ∈ texts real greatestDepth (.object
      [("v", .real x), ("errors", .array [.object [("message", .text "already exists")]])]) := by
  have hn : "1.7976931348623158e308".toList ∈ Json.numeralTexts Numeral.aboveGreatest :=
    Json.mem_numeralTexts (by decide) (by decide)
  have hnot : ¬ Json.KeepsInteger Numeral.aboveGreatest := fun h => by cases h.1
  have heq : numberAndError.toList =
      '\x7b' :: ('"' :: "v\"".toList ++ ':' :: "1.7976931348623158e308".toList ++ ',' ::
        ('"' :: "errors\"".toList ++ ':' :: '[' :: ('\x7b' :: ('"' :: "message\"".toList ++ ':' ::
          '"' :: "already exists\"".toList ++ ['\x7d']) ++ [']'])) ++ ['\x7d']) := by
    decide
  rw [heq]
  refine Json.object_mem_texts [("v", _), ("errors", _)] (Json.cons_mem_commaTexts
    (Json.member_mem_memberTexts (by decide) (Json.real_mem_texts hn hnot hx))
    (Json.singleton_mem_commaTexts (Json.member_mem_memberTexts (by decide)
      (Json.array_mem_texts (Json.singleton_mem_commaTexts ?_)))))
  exact Json.object_mem_texts [("message", _)] (Json.singleton_mem_commaTexts
    (Json.member_mem_memberTexts (by decide) (Json.text_mem_texts (by decide))))

/-- A body that tells of what exists is not understood if a number in it is scaled beyond the finite
ones, although the one nearest to what it denotes is finite. -/
theorem reportsExisting_refuses_number :
    SaysExisting Numeral.RoundsTo numberAndError ∧
      reportsExisting ⟨400, numberAndError⟩ = false ∧
      fieldVerdict ⟨400, numberAndError⟩ = .failed ("400 " ++ numberAndError) := by
  have hrefused : reportsExisting ⟨400, numberAndError⟩ = false := by decide +kernel
  refine ⟨⟨"already exists", ?_, _, List.infix_rfl, by decide⟩, hrefused, ?_⟩
  · have hbody := Language.append_mem_mul (a := []) Json.nil_mem_white (Language.append_mem_mul
      (numberAndError_mem_texts Numeral.aboveGreatest_roundsTo) (b := []) Json.nil_mem_white)
    rw [List.nil_append, List.append_nil] at hbody
    exact ⟨_, _, [], _, hbody, rfl, rfl, rfl⟩
  · have hstatus : toString 400 ++ " " = "400 " := by decide
    simp [fieldVerdict, hrefused, accepted, rejection, ← hstatus]

/-- The dotted capital I is not a capital form of the letter i. -/
example :
    reportsExisting
      ⟨400, "\x7b\"errors\":[\x7b\"message\":\"Already EXISTS\"\x7d]\x7d"⟩ = true ∧
    reportsExisting
      ⟨400, "\x7b\"errors\":[\x7b\"message\":\"Already EX\u0130STS\"\x7d]\x7d"⟩ = false := by
  decide +kernel

end Reply

end SchemaChange
