import SchemaChange.Proofs.StepVariation

/-!
# The case of letters

A migration may be written in any mixture of upper and lower case. Its steps are the same, apart
from the types and the index columns, which stay as they were written.
-/

namespace SchemaChange

open SchemaChange.Text

/-- Texts that differ at most in the case of ASCII letters. -/
def Text.Variation.letterCase : Variation where
  like c d := c.toLower = d.toLower
  returns := False
  refl _ := rfl
  folds h := h

theorem Text.alike_letterCase_iff {s t : List Char} :
    Alike .letterCase s t ↔ s.map Char.toLower = t.map Char.toLower := by
  constructor
  · intro h
    induction h with
    | nil => rfl
    | char hlike _ ih => rw [List.map_cons, List.map_cons, ih, show _ = _ from hlike]
    | line hreturns => cases hreturns
  · intro h
    induction s generalizing t with
    | nil =>
      rw [List.map_eq_nil_iff.mp h.symm]
      exact .nil
    | cons c s ih =>
      obtain ⟨d, t, rfl⟩ := List.exists_cons_of_ne_nil (l := t) (by rintro rfl; cases h)
      obtain ⟨hc, h⟩ := List.cons.inj h
      exact .char hc (ih h)

/-- Two texts that differ at most in the case of letters give the same steps, one by one, apart from
the case of what a type or an index column was written with. -/
theorem Migration.steps_of_eqIgnoringAsciiCase (file : String) {text other : String}
    (h : eqIgnoringAsciiCase text other = true) :
    List.Forall₂ (Step.Alike .letterCase) (steps ⟨file, text⟩) (steps ⟨file, other⟩) :=
  steps_alike file (alike_letterCase_iff.mpr (beq_iff_eq.mp h)) fun hreturns => hreturns.elim

/-- A capital sigma in a name keeps its place in the word, whatever the case of the letters around. -/
theorem Migration.steps_of_eqIgnoringAsciiCase_sigma :
    eqIgnoringAsciiCase "create table aΣ (Id Serial, x Text);" "CREATE TABLE AΣ (iD serial, X TEXT);" =
        true ∧
      List.Forall₂ (Step.Alike .letterCase)
        (steps ⟨"f.sql", "create table aΣ (Id Serial, x Text);"⟩)
        (steps ⟨"f.sql", "CREATE TABLE AΣ (iD serial, X TEXT);"⟩) :=
  ⟨by decide, steps_of_eqIgnoringAsciiCase "f.sql" (by decide)⟩

end SchemaChange
