import SchemaChange.Call
import SchemaChange.Proofs.WellFormed

/-!
# Endpoints

The name of a table goes into the endpoint of a call as it stands, without any escape. It is a word
in lower case, so nothing that a migration holds can end the name's part of the path early, lead to
another part, or begin a query.
-/

namespace SchemaChange.Text

open Unicode (CaseRun lowerRuns lowerExpansions)

/-- A character of a word in lower case: no blank, and of ASCII only a small letter, a digit or the
low line. -/
structure IsPlain (c : Char) : Prop where
  unblank : isBlank c = false
  ascii : c.toNat < 128 → c.isLower = true ∨ c.isDigit = true ∨ c = '_'

variable {c d : Char} {s : List Char}

/-- The images of a run are small letters of ASCII, or they lie beyond ASCII and between the spans
of white space. -/
theorem lowerRuns_plain : ∀ run ∈ lowerRuns,
    ('a'.toNat ≤ run.image ∧ run.lastImage ≤ 'z'.toNat) ∨
      (128 ≤ run.image ∧ ∀ span ∈ Unicode.whiteSpace,
        span.2 < run.image ∨ run.lastImage < span.1) := by
  decide +kernel

theorem lowerExpansions_plain : ∀ expansion ∈ lowerExpansions,
    ∀ d ∈ expansion.2.map Char.ofNat,
      isBlank d = false ∧ (d.toNat < 128 → d.isLower = true ∨ d.isDigit = true ∨ d = '_') := by
  decide +kernel

/-- The characters of ASCII that belong to words and are in lower case. -/
theorem isLower_or_isDigit_of_ascii (hascii : c.toNat < 128) (hc : isWord c = true)
    (hself : lowerChar c = [c]) : c.isLower = true ∨ c.isDigit = true ∨ c = '_' :=
  of_ascii (p := fun c => isWord c = true → lowerChar c = [c] →
    c.isLower = true ∨ c.isDigit = true ∨ c = '_') (by decide +kernel) hascii hc hself

theorem isLower_of_toNat (h : 'a'.toNat ≤ c.toNat ∧ c.toNat ≤ 'z'.toNat) : c.isLower = true := by
  change (decide (c.val ≥ 'a'.val) && decide (c.val ≤ 'z'.val)) = true
  rw [Bool.and_eq_true, decide_eq_true_eq, decide_eq_true_eq]
  exact ⟨UInt32.le_iff_toNat_le.mpr h.1, UInt32.le_iff_toNat_le.mpr h.2⟩

/-- A small letter of ASCII is no blank. -/
theorem isPlain_of_isLower (h : c.isLower = true) : IsPlain c := by
  have halpha : c.isAlpha = true := by
    change (c.isUpper || c.isLower) = true
    rw [h, Bool.or_true]
  exact ⟨isBlank_of_isWord (isWord_of_isAlpha halpha), fun _ => Or.inl h⟩

/-- Lower-casing a character of a word gives plain characters only. -/
theorem isPlain_of_mem_lowerChar (hc : isWord c = true) (h : d ∈ lowerChar c) : IsPlain d := by
  obtain ⟨run, hrun, k, hk, -, hd⟩ | ⟨expansion, hexpansion, hmem⟩ | ⟨rfl, hself⟩ :=
    lowerChar_cases h
  · have hlast : d.toNat ≤ run.lastImage := by
      unfold CaseRun.lastImage
      omega
    obtain ⟨hfirst, hbound⟩ | ⟨hbeyond, hblank⟩ := lowerRuns_plain run hrun
    · exact isPlain_of_isLower (isLower_of_toNat ⟨by omega, by omega⟩)
    · refine ⟨?_, fun hascii => by omega⟩
      cases hd' : isBlank d with
      | false => rfl
      | true =>
        obtain ⟨span, hspan, hin⟩ := Unicode.Spans.exists_of_holds hd'
        have := hblank span hspan
        omega
  · obtain ⟨hblank, hascii⟩ := lowerExpansions_plain expansion hexpansion d hmem
    exact ⟨hblank, hascii⟩
  · exact ⟨isBlank_of_isWord hc, fun hascii => isLower_or_isDigit_of_ascii hascii hc hself⟩

/-- So does lower-casing a whole word. Both forms of the small sigma lie beyond ASCII. -/
theorem isPlain_of_mem_lowerFrom {afterCased : Bool} (hs : ∀ c ∈ s, isWord c = true)
    (h : d ∈ lowerFrom afterCased s) : IsPlain d := by
  induction s generalizing afterCased with
  | nil => cases h
  | cons c s ih =>
    obtain ⟨hc, hs⟩ := List.forall_mem_cons.mp hs
    rw [lowerFrom, List.mem_append] at h
    obtain h | h := h
    · split at h
      · split at h
        · obtain rfl := List.mem_singleton.mp h
          exact ⟨by decide, by decide⟩
        · obtain rfl := List.mem_singleton.mp h
          exact ⟨by decide, by decide⟩
      · exact isPlain_of_mem_lowerChar hc h
    · exact ih hs h

end SchemaChange.Text

namespace SchemaChange

open SchemaChange.Text

/-- A name that is one part of a path as it stands. -/
structure IsSegment (name : String) : Prop where
  nonempty : name ≠ ""
  plain : ∀ c ∈ name.toList, IsPlain c

theorem isSegment_lower {name : String} (h : name.toList ∈ Form.word) : IsSegment (lower name) := by
  refine ⟨lower_ne_empty h.1, ?_⟩
  intro c hc
  rw [lower, String.toList_ofList] at hc
  exact isPlain_of_mem_lowerFrom h.2 hc

/-- The names by which a step is known to the target system: its table, and the field it adds. -/
def Step.names (step : Step) : List String :=
  step.table :: (step.effect.field?.map Prod.fst).toList

theorem Step.isSegment_of_mem_names {file name : String} {statement : Statement} {step : Step}
    (hstatement : statement.WellFormed) (hstep : step ∈ ofStatement file statement)
    (hname : name ∈ step.names) : IsSegment name := by
  have hcolumn {table : String} {origin : Shape} {column : Column}
      (htable : table.toList ∈ Form.word) (hcolumn : column.name.toList ∈ Form.word)
      (hname : name ∈ (ofColumn file table origin column).names) : IsSegment name := by
    obtain rfl | hname := List.mem_cons.mp hname
    · exact isSegment_lower htable
    · obtain rfl := List.mem_singleton.mp hname
      exact isSegment_lower hcolumn
  cases hstatement with
  | newTable named columned =>
    obtain ⟨column, hmem, rfl⟩ := List.mem_map.mp hstep
    exact hcolumn named (columned column hmem) hname
  | newColumn tabled named =>
    obtain rfl := List.mem_singleton.mp hstep
    exact hcolumn tabled named hname
  | newIndex named tabled =>
    obtain rfl := List.mem_singleton.mp hstep
    obtain rfl := List.mem_singleton.mp hname
    exact isSegment_lower tabled
  | newRow tabled =>
    simp only [ofStatement] at hstep
    split at hstep
    · obtain rfl := List.mem_singleton.mp hstep
      obtain rfl := List.mem_singleton.mp hname
      exact isSegment_lower tabled
    · cases hstep

namespace Call

/-- What a call makes one more of: the fields of a collection, or its items. -/
def resource : Call → String
  | .createField .. => "fields"
  | .createRecord .. => "items"

/-- The path of a call: its parts, and no character that would end it or be decoded. -/
structure Contained (call : Call) : Prop where
  parts : call.endpoint.toList.splitOn '/' = [[], call.resource.toList, call.collection.toList]
  unmarked : ∀ mark ∈ ['?', '#', '%', '.'], mark ∉ call.endpoint.toList
  unblank : ∀ c ∈ call.endpoint.toList, isBlank c = false

theorem toList_endpoint (call : Call) :
    call.endpoint.toList = '/' :: (call.resource.toList ++ '/' :: call.collection.toList) := by
  cases call with
  | createField => simp [endpoint, fieldEndpoint, resource, collection]
  | createRecord => simp [endpoint, recordEndpoint, resource, collection]

theorem isSegment_resource (call : Call) : IsSegment call.resource := by
  have hlower : call.resource ≠ "" ∧ ∀ c ∈ call.resource.toList, c.isLower = true := by
    have hboth : ∀ resource ∈ ["fields", "items"],
        resource ≠ "" ∧ ∀ c ∈ resource.toList, c.isLower = true := by decide
    cases call with
    | createField => exact hboth "fields" (by decide)
    | createRecord => exact hboth "items" (by decide)
  exact ⟨hlower.1, fun c hc => isPlain_of_isLower (hlower.2 c hc)⟩

/-- Apart from its slashes, the path of a call for such a collection has plain characters only. -/
theorem plain_of_mem_endpoint {call : Call} (h : IsSegment call.collection) {c : Char}
    (hc : c ∈ call.endpoint.toList) : c = '/' ∨ IsPlain c := by
  rw [toList_endpoint, List.mem_cons, List.mem_append, List.mem_cons] at hc
  obtain hslash | hresource | hslash | hcollection := hc
  · exact Or.inl hslash
  · exact Or.inr ((isSegment_resource call).plain c hresource)
  · exact Or.inl hslash
  · exact Or.inr (h.plain c hcollection)

/-- A call for a collection with such a name goes to that collection. -/
theorem contained_of_isSegment {call : Call} (h : IsSegment call.collection) : call.Contained := by
  have hslash {name : String} (hname : IsSegment name) : '/' ∉ name.toList := by
    intro hmem
    exact absurd ((hname.plain '/' hmem).ascii (by decide)) (by decide)
  refine ⟨?_, ?_, ?_⟩
  · have hroot : ('/' : Char) ∉ ([] : List Char) := List.not_mem_nil
    rw [toList_endpoint]
    change ([] ++ '/' :: (call.resource.toList ++ '/' :: call.collection.toList)).splitOn '/' = _
    rw [List.splitOn_append_cons_self_of_not_mem hroot,
      List.splitOn_append_cons_self_of_not_mem (hslash (isSegment_resource call)),
      List.splitOn_eq_singleton (hslash h)]
  · intro mark hmark hmem
    have hnot : mark ≠ '/' ∧ mark.toNat < 128 ∧
        ¬ (mark.isLower = true ∨ mark.isDigit = true ∨ mark = '_') := by
      have hall : ∀ mark ∈ ['?', '#', '%', '.'], mark ≠ '/' ∧ mark.toNat < 128 ∧
          ¬ (mark.isLower = true ∨ mark.isDigit = true ∨ mark = '_') := by decide
      exact hall mark hmark
    obtain heq | hplain := plain_of_mem_endpoint h hmem
    · exact hnot.1 heq
    · exact hnot.2.2 (hplain.ascii hnot.2.1)
  · intro c hmem
    obtain rfl | hplain := plain_of_mem_endpoint h hmem
    · decide
    · exact hplain.unblank

end Call

theorem Dispatch.collection_of_mem_call? {step : Step} {call : Call}
    (h : call ∈ (Dispatch.ofStep step).call?) : call.collection = step.table := by
  unfold Dispatch.ofStep at h
  cases heffect : step.effect with
  | addField name typeText spec =>
    rw [heffect] at h
    obtain rfl := Option.some.inj h
    rfl
  | addRow row =>
    rw [heffect] at h
    obtain rfl := Option.some.inj h
    rfl
  | addIndex name columns =>
    rw [heffect] at h
    cases h

namespace Migration

/-- Whatever a migration holds, the names of its steps are single parts of a path, and each call
goes to the collection of its step's table and nowhere else. -/
theorem endpoints_contained {migration : Migration} {step : Step} (h : step ∈ migration.steps) :
    (∀ name ∈ step.names, IsSegment name) ∧
      ∀ call ∈ (Dispatch.ofStep step).call?, call.collection = step.table ∧ call.Contained := by
  obtain ⟨statement, hstatement, hstep⟩ := List.mem_flatMap.mp h
  have hnames : ∀ name ∈ step.names, IsSegment name := by
    intro name hname
    exact Step.isSegment_of_mem_names (Statement.wellFormed_of_mem_ofText hstatement) hstep hname
  refine ⟨hnames, ?_⟩
  intro call hcall
  have hcollection := Dispatch.collection_of_mem_call? hcall
  refine ⟨hcollection, Call.contained_of_isSegment ?_⟩
  rw [hcollection]
  exact hnames step.table List.mem_cons_self

/-- A migration whose table has the kelvin sign and a dotted capital in its name. Both have a small
letter of ASCII in lower case. -/
def kelvinTable : Migration :=
  ⟨"f.sql", "INSERT INTO \u212a\u0130 (Größe) VALUES (1);"⟩

theorem endpoints_contained_kelvin :
    ∃ step ∈ kelvinTable.steps, IsSegment "ki\u0307" ∧
      ∃ call ∈ (Dispatch.ofStep step).call?, call.endpoint = "/items/ki\u0307" ∧
        call.Contained := by
  have hsteps : kelvinTable.steps.map (fun step =>
      (step.table, (Dispatch.ofStep step).call?.map Call.endpoint)) =
        [("ki\u0307", some "/items/ki\u0307")] := by
    decide +kernel
  have hmem := List.mem_singleton_self ("ki\u0307", some "/items/ki\u0307")
  rw [← hsteps] at hmem
  obtain ⟨step, hstep, heq⟩ := List.mem_map.mp hmem
  obtain ⟨htable, hendpoint⟩ := Prod.mk.inj heq
  obtain ⟨call, hcall, hendpoint⟩ := Option.map_eq_some_iff.mp hendpoint
  obtain ⟨hnames, hcalls⟩ := endpoints_contained hstep
  refine ⟨step, hstep, ?_, call, hcall, hendpoint, (hcalls call hcall).2⟩
  exact hnames "ki\u0307" (htable ▸ List.mem_cons_self)

end Migration

end SchemaChange
