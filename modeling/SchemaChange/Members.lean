/-!
# Named members in order

Values under names, in the order in which the names first came. It is the shape of a JSON object and
of a record to insert.
-/

namespace SchemaChange

/-- Pairs of a name and a value. What `Members.ofPairs` builds has every name once. -/
abbrev Members (α : Type) := List (String × α)

namespace Members

variable {α : Type}

/-- Sets the value of a name: in its place if the name is there, else at the end. -/
def put (name : String) (value : α) : Members α → Members α
  | [] => [(name, value)]
  | (other, old) :: rest =>
    if other = name then (name, value) :: rest else (other, old) :: put name value rest

/-- The members that a list of pairs sets one after the other: each name stands where it came first
and has the value that came last. -/
def ofPairs (pairs : List (String × α)) : Members α :=
  pairs.foldl (fun members pair => members.put pair.1 pair.2) []

/-- The value of a name. -/
def get? (name : String) (members : Members α) : Option α :=
  members.lookup name

/-- Setting a name does not touch the value of another. -/
theorem get?_put (name other : String) (value : α) (members : Members α) :
    (members.put name value).get? other =
      if other = name then some value else members.get? other := by
  induction members with
  | nil =>
    by_cases h : other = name
    · simp [put, get?, h]
    · simp [put, get?, List.lookup_cons, h, beq_false_of_ne h]
  | cons member rest ih =>
    obtain ⟨key, old⟩ := member
    simp only [get?] at ih
    by_cases hkey : key = name
    · subst hkey
      by_cases h : other = key
      · simp [put, get?, h]
      · simp [put, get?, List.lookup_cons, h, beq_false_of_ne h]
    · by_cases h : other = key
      · simp [put, get?, hkey, h]
      · simp [put, get?, List.lookup_cons, hkey, beq_false_of_ne h, ih]

/-- Setting a name that is there keeps all names as they are; a new one is added at the end. -/
theorem map_fst_put (name : String) (value : α) (members : Members α) :
    (members.put name value).map Prod.fst =
      if name ∈ members.map Prod.fst then members.map Prod.fst
      else members.map Prod.fst ++ [name] := by
  induction members with
  | nil => rfl
  | cons member rest ih =>
    obtain ⟨key, old⟩ := member
    by_cases hkey : key = name
    · simp [put, hkey]
    · simp only [put, hkey, if_false, List.map_cons, ih, List.mem_cons, Ne.symm hkey, false_or]
      split <;> simp

/-- Setting a name adds the new member and no other. -/
theorem eq_or_mem_of_mem_put {name : String} {value : α} {members : Members α}
    {member : String × α} (h : member ∈ members.put name value) :
    member = (name, value) ∨ member ∈ members := by
  induction members with
  | nil => exact Or.inl (List.mem_singleton.mp h)
  | cons first rest ih =>
    obtain ⟨key, old⟩ := first
    simp only [put] at h
    split at h
    · obtain h | h := List.mem_cons.mp h
      · exact Or.inl h
      · exact Or.inr (List.mem_cons_of_mem _ h)
    · obtain rfl | h := List.mem_cons.mp h
      · exact Or.inr (List.mem_cons_self ..)
      · exact (ih h).imp id (List.mem_cons_of_mem _)

theorem mem_map_fst_put (name other : String) (value : α) (members : Members α) :
    other ∈ (members.put name value).map Prod.fst ↔
      other = name ∨ other ∈ members.map Prod.fst := by
  rw [map_fst_put]
  split
  · rename_i hmem
    constructor
    · exact Or.inr
    · rintro (rfl | h)
      · exact hmem
      · exact h
  · rw [List.mem_append, List.mem_singleton, or_comm]

theorem nodup_put {members : Members α} (name : String) (value : α)
    (h : (members.map Prod.fst).Nodup) : ((members.put name value).map Prod.fst).Nodup := by
  rw [map_fst_put]
  split
  · exact h
  · rename_i hnot
    refine List.nodup_append.mpr ⟨h, by simp, fun other hother name' hname' => ?_⟩
    obtain rfl := List.mem_singleton.mp hname'
    rintro rfl
    exact hnot hother

/-- Every name of the pairs is there once, and no other name. -/
theorem nodup_ofPairs (pairs : List (String × α)) :
    ((ofPairs pairs).map Prod.fst).Nodup ∧
      ∀ name, name ∈ (ofPairs pairs).map Prod.fst ↔ name ∈ pairs.map Prod.fst := by
  have hfold (pairs : List (String × α)) (members : Members α) (h : (members.map Prod.fst).Nodup) :
      let all := pairs.foldl (fun members pair => members.put pair.1 pair.2) members
      (all.map Prod.fst).Nodup ∧
        ∀ name, name ∈ all.map Prod.fst ↔
          name ∈ members.map Prod.fst ∨ name ∈ pairs.map Prod.fst := by
    induction pairs generalizing members with
    | nil => exact ⟨h, by simp⟩
    | cons pair rest ih =>
      obtain ⟨hnodup, hmem⟩ := ih _ (nodup_put pair.1 pair.2 h)
      refine ⟨hnodup, fun name => (hmem name).trans ?_⟩
      rw [mem_map_fst_put, List.map_cons, List.mem_cons, or_comm (a := name = pair.1), or_assoc]
  obtain ⟨hnodup, hmem⟩ := hfold pairs [] (by simp)
  exact ⟨hnodup, fun name => (hmem name).trans (by simp)⟩

/-- The members are some of the pairs. -/
theorem mem_of_mem_ofPairs {pairs : List (String × α)} {member : String × α}
    (h : member ∈ ofPairs pairs) : member ∈ pairs := by
  have hfold (pairs : List (String × α)) (members : Members α)
      (h : member ∈ pairs.foldl (fun members pair => members.put pair.1 pair.2) members) :
      member ∈ members ∨ member ∈ pairs := by
    induction pairs generalizing members with
    | nil => exact Or.inl h
    | cons pair rest ih =>
      obtain hput | hrest := ih _ h
      · exact (eq_or_mem_of_mem_put hput).symm.imp id fun heq => by simp [heq]
      · exact Or.inr (List.mem_cons_of_mem _ hrest)
  exact (hfold pairs [] h).resolve_left (by simp)

end Members

end SchemaChange
