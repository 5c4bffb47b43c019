import SchemaChange.Proofs.CallSequence

/-!
# What a tally accounts for

A tally is the sum of what the single steps add to it. So it tells of each step once how it ended,
and the tallies of two deliveries, one after the other, add up.
-/

namespace SchemaChange

/-- The reason of a failure. -/
def Verdict.reason? : Verdict → Option String
  | .failed reason => some reason
  | _ => none

namespace Tally

/-- Two tallies as one: the numbers are added, the failures follow each other. -/
instance : Add Tally where
  add first later :=
    ⟨first.applied + later.applied, first.alreadyPresent + later.alreadyPresent,
      first.skipped + later.skipped, first.failed ++ later.failed⟩

theorem add_eq (first later : Tally) :
    first + later =
      ⟨first.applied + later.applied, first.alreadyPresent + later.alreadyPresent,
        first.skipped + later.skipped, first.failed ++ later.failed⟩ := rfl

theorem add_assoc (first second third : Tally) :
    first + second + third = first + (second + third) := by
  simp only [add_eq, Nat.add_assoc, List.append_assoc]

theorem empty_add (tally : Tally) : empty + tally = tally := by
  simp only [add_eq, empty, Nat.zero_add, List.nil_append]

theorem add_empty (tally : Tally) : tally + empty = tally := by
  simp only [add_eq, empty, Nat.add_zero, List.append_nil]

/-- The tally of steps that ended in the given ways. -/
def of (ends : List (Step × Verdict)) : Tally where
  applied := ends.countP fun e => e.2 = .applied
  alreadyPresent := ends.countP fun e => e.2 = .alreadyPresent
  skipped := ends.countP fun e => e.2 = .skipped
  failed := ends.filterMap fun (step, verdict) => verdict.reason?.map fun reason => (step, reason)

theorem record_eq_add (tally : Tally) (step : Step) (verdict : Verdict) :
    tally.record step verdict = tally + of [(step, verdict)] := by
  cases verdict <;> simp [record, add_eq, of, Verdict.reason?]

theorem of_append (first later : List (Step × Verdict)) :
    of (first ++ later) = of first + of later := by
  simp only [of, add_eq, List.countP_append, List.filterMap_append]

theorem of_cons (e : Step × Verdict) (ends : List (Step × Verdict)) :
    of (e :: ends) = of [e] + of ends :=
  of_append [e] ends

theorem count_verdict (ends : List (Step × Verdict)) (verdict : Verdict) :
    (ends.map Prod.snd).count verdict = ends.countP fun e => e.2 = verdict := by
  rw [List.count_eq_countP, List.countP_map]
  exact List.countP_congr fun e _ => by simp

theorem successes_add (first later : Tally) :
    (first + later).successes = first.successes + later.successes := by
  simp only [add_eq, successes]
  omega

theorem successes_of (ends : List (Step × Verdict)) :
    (of ends).successes = ends.countP fun e => e.2.isSuccess := by
  induction ends with
  | nil => rfl
  | cons e ends ih =>
    rw [of_cons, successes_add, ih, List.countP_cons, Nat.add_comm]
    obtain ⟨step, verdict⟩ := e
    cases verdict <;> rfl

theorem length_failed_of (ends : List (Step × Verdict)) :
    (of ends).failed.length = ends.countP fun e => !e.2.isSuccess := by
  induction ends with
  | nil => rfl
  | cons e ends ih =>
    rw [of_cons, add_eq, List.length_append, ih, List.countP_cons, Nat.add_comm]
    obtain ⟨step, verdict⟩ := e
    cases verdict <;> rfl

/-- Every step is counted, as a success or by its failure. -/
theorem size_of (ends : List (Step × Verdict)) : (of ends).size = ends.length := by
  have hsplit := List.length_eq_countP_add_countP (fun e : Step × Verdict => e.2.isSuccess)
    (l := ends)
  rw [size, successes_of, length_failed_of]
  simpa using hsplit.symm

theorem allSucceeded_of (ends : List (Step × Verdict)) :
    (of ends).allSucceeded = true ↔ ∀ e ∈ ends, e.2.isSuccess = true := by
  rw [allSucceeded, List.isEmpty_iff, ← List.length_eq_zero_iff, length_failed_of,
    List.countP_eq_zero]
  simp

end Tally

namespace Delivery

variable {σ : Type}

/-- The steps with their verdicts, where they are sent in order, each in the state that the one
before it left, and the state that the last one leaves. -/
def verdicts (service : Service σ) : List Step → σ → List (Step × Verdict) × σ
  | [], state => ([], state)
  | step :: steps, state =>
    let (verdict, state) := send service step state
    let (later, state) := verdicts service steps state
    ((step, verdict) :: later, state)

theorem map_fst_verdicts (service : Service σ) (steps : List Step) (state : σ) :
    (verdicts service steps state).1.map Prod.fst = steps := by
  induction steps generalizing state with
  | nil => rfl
  | cons step steps ih => exact congrArg (step :: ·) (ih _)

/-- A delivery adds the tally of its own steps to what was there before. -/
theorem runFrom_eq_add (service : Service σ) (tally : Tally) (steps : List Step) (state : σ) :
    runFrom service tally steps state =
      (tally + Tally.of (verdicts service steps state).1, (verdicts service steps state).2) := by
  induction steps generalizing tally state with
  | nil => exact congrArg (·, state) (Tally.add_empty tally).symm
  | cons step steps ih =>
    cases hsend : send service step state with
    | mk verdict next =>
      calc
        runFrom service tally (step :: steps) state
          = runFrom service (tally.record step verdict) steps next := by rw [runFrom, hsend]
        _ = (tally.record step verdict + Tally.of (verdicts service steps next).1,
              (verdicts service steps next).2) := ih _ _
        _ = (tally + Tally.of (verdicts service (step :: steps) state).1,
              (verdicts service (step :: steps) state).2) := by
            rw [verdicts, hsend, Tally.record_eq_add, Tally.add_assoc, ← Tally.of_cons]

theorem run_eq (service : Service σ) (steps : List Step) (state : σ) :
    run service steps state =
      (Tally.of (verdicts service steps state).1, (verdicts service steps state).2) := by
  rw [run, runFrom_eq_add, Tally.empty_add]

/-- Steps in two parts give the sum of two tallies. The second part is sent in the state that the
first one leaves. -/
theorem run_append (service : Service σ) (steps more : List Step) (state : σ) :
    run service (steps ++ more) state =
      ((run service steps state).1 + (run service more (run service steps state).2).1,
        (run service more (run service steps state).2).2) := by
  calc
    run service (steps ++ more) state
      = runFrom service (run service steps state).1 more (run service steps state).2 :=
        runFrom_append service Tally.empty steps more state
    _ = ((run service steps state).1 + (run service more (run service steps state).2).1,
          (run service more (run service steps state).2).2) := by
        rw [runFrom_eq_add, run_eq service more]

/-! ## Verdicts and the kinds of steps -/

theorem fieldVerdict_ne_skipped (reply : Reply) : reply.fieldVerdict ≠ .skipped := by
  unfold Reply.fieldVerdict Reply.rejection
  split
  · simp
  · split <;> simp

theorem recordVerdict_cases (reply : Reply) :
    reply.recordVerdict = .applied ∨ ∃ reason, reply.recordVerdict = .failed reason := by
  unfold Reply.recordVerdict Reply.rejection
  split
  · exact Or.inl rfl
  · exact Or.inr ⟨_, rfl⟩

/-- A success that no reply is judged to be comes from no call, since a call that is lost fails. -/
theorem ofAnswer_ne {judge : Reply → Verdict} {verdict : Verdict}
    (hjudge : ∀ reply, judge reply ≠ verdict) (hlost : verdict.isSuccess = true)
    (answer : Except String Reply) : Verdict.ofAnswer judge answer ≠ verdict := by
  cases answer with
  | ok reply => exact hjudge reply
  | error text =>
    rintro rfl
    cases hlost

theorem recordVerdict_ne {verdict : Verdict} (hnew : verdict ≠ .applied)
    (hlost : verdict.isSuccess = true) (reply : Reply) : reply.recordVerdict ≠ verdict := by
  rintro rfl
  obtain h | ⟨reason, h⟩ := recordVerdict_cases reply
  · exact hnew h
  · rw [h] at hlost
    cases hlost

/-- How a verdict fits the kind of step: an index is skipped and nothing else is, and only a field
can be there already. -/
structure Fits (step : Step) (verdict : Verdict) : Prop where
  skipped : verdict = .skipped ↔ step.effect.isIndex = true
  alreadyPresent : verdict = .alreadyPresent → step.effect.field?.isSome = true

theorem fits_send (service : Service σ) (step : Step) (state : σ) :
    Fits step (send service step state).1 := by
  unfold send
  cases heffect : step.effect with
  | addField name typeText spec =>
    have hskipped := ofAnswer_ne fieldVerdict_ne_skipped rfl
      (service (.createField step.table name spec) state).1
    exact ⟨by simpa [heffect, Effect.isIndex] using hskipped, fun _ => by rw [heffect]; rfl⟩
  | addIndex name columns => exact ⟨by simp [heffect, Effect.isIndex], fun h => by cases h⟩
  | addRow row =>
    have hne (verdict : Verdict) (hnew : verdict ≠ .applied) (hlost : verdict.isSuccess = true) :=
      ofAnswer_ne (recordVerdict_ne hnew hlost) hlost
        (service (.createRecord step.table row) state).1
    have hskipped := hne .skipped (by decide) rfl
    have hpresent := hne .alreadyPresent (by decide) rfl
    exact ⟨by simpa [heffect, Effect.isIndex] using hskipped, fun h => absurd h hpresent⟩

theorem fits_of_mem_verdicts (service : Service σ) (steps : List Step) (state : σ) :
    ∀ e ∈ (verdicts service steps state).1, Fits e.1 e.2 := by
  induction steps generalizing state with
  | nil => exact fun _ hmem => by cases hmem
  | cons step steps ih => exact List.forall_mem_cons.mpr ⟨fits_send service step state, ih _⟩

/-- A delivery tells of every step how it ended, once and in order, whatever the service does: what
the numbers count, which steps failed and why, and that the parts make up the whole. As many steps
are skipped as there are indexes, and no row counts as there already. Two deliveries after each
other give the sum of their tallies. -/
theorem run_accounts (service : Service σ) (steps more : List Step) (state : σ) :
    let ends := (verdicts service steps state).1
    let tally := (run service steps state).1
    let after := (run service steps state).2
    ends.map Prod.fst = steps ∧ after = (verdicts service steps state).2 ∧
    tally.applied = (ends.map Prod.snd).count .applied ∧
    tally.alreadyPresent = (ends.map Prod.snd).count .alreadyPresent ∧
    tally.skipped = (ends.map Prod.snd).count .skipped ∧
    tally.failed = (ends.filterMap fun (step, verdict) =>
      verdict.reason?.map fun reason => (step, reason)) ∧
    tally.size = steps.length ∧
    tally.successes = (ends.map Prod.snd).countP Verdict.isSuccess ∧
    (tally.allSucceeded = true ↔ ∀ verdict ∈ ends.map Prod.snd, verdict.isSuccess = true) ∧
    tally.skipped = (steps.countP fun step => step.effect.isIndex) ∧
    (∀ e ∈ ends, e.2 = .alreadyPresent → e.1.effect.field?.isSome = true) ∧
    run service (steps ++ more) state =
      (tally + (run service more after).1, (run service more after).2) := by
  have hfits := fits_of_mem_verdicts service steps state
  have hsteps := map_fst_verdicts service steps state
  have hrun := run_eq service steps state
  intro ends tally after
  have htally : tally = Tally.of ends := congrArg Prod.fst hrun
  have hsize : tally.size = steps.length := by
    rw [htally, Tally.size_of, ← hsteps, List.length_map]
  have hindexes : tally.skipped = steps.countP fun step => step.effect.isIndex := by
    rw [htally, ← hsteps, List.countP_map]
    exact List.countP_congr fun e he => by simpa using (hfits e he).skipped
  refine ⟨hsteps, congrArg Prod.snd hrun, ?_, ?_, ?_, ?_, hsize, ?_, ?_, hindexes,
    fun e he => (hfits e he).alreadyPresent, run_append service steps more state⟩
  · rw [htally, Tally.count_verdict]
    rfl
  · rw [htally, Tally.count_verdict]
    rfl
  · rw [htally, Tally.count_verdict]
    rfl
  · rw [htally]
    rfl
  · rw [htally, Tally.successes_of, List.countP_map]
    rfl
  · rw [htally, Tally.allSucceeded_of, List.forall_mem_map]

end Delivery

end SchemaChange
