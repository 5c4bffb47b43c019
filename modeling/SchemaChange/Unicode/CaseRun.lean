/-!
# Runs of a case mapping

Letters and their counterparts of the other case mostly stand in parallel runs, either side by side
or alternating. A mapping is written as such runs and a list of exceptions.
-/

namespace SchemaChange.Unicode

/-- The code points `first`, `first + stride`, … up to `last`, of which the first maps to `image`,
the next to `image + stride`, and so on. -/
structure CaseRun where
  first : Nat
  last : Nat
  stride : Nat
  image : Nat

/-- Where a code point goes under a mapping given by its runs in ascending order. -/
def CaseRun.find? (n : Nat) : List CaseRun → Option Nat
  | [] => none
  | run :: rest =>
    if n < run.first then none
    else if n ≤ run.last then
      if (n - run.first) % run.stride = 0 then some (run.image + (n - run.first)) else none
    else find? n rest

/-- The image of a character under a mapping given by its runs and by the code points whose image
has several characters. A character that neither names stays as it is. -/
def mapCase (runs : List CaseRun) (expansions : List (Nat × List Nat)) (c : Char) : List Char :=
  match CaseRun.find? c.toNat runs with
  | some image => [Char.ofNat image]
  | none =>
    match expansions.lookup c.toNat with
    | some images => images.map Char.ofNat
    | none => [c]

end SchemaChange.Unicode
