import QueryPipeline.Proofs.Value.Made
import QueryPipeline.Proofs.Value.Same

/-!
# Fields over fields

`put` sets one field, and `override` sets many, one after the other.  In what comes out a name is
looked up among the new fields first, and names that were different stay so.
-/

namespace QueryPipeline.Value

/-! ## One field -/

section Put

variable (key : String) (value : Value)

theorem lookup_cons_if (rest : List (String × Value)) (k : String) :
    ((key, value) :: rest).lookup k = if k = key then some value else rest.lookup k := by
  rw [List.lookup_cons]
  by_cases hk : k = key
  · rw [if_pos hk, beq_iff_eq.2 hk]
  · rw [if_neg hk, beq_false_of_ne hk]

theorem lookup_put (fields : List (String × Value)) (k : String) :
    (put key value fields).lookup k = if k = key then some value else fields.lookup k := by
  induction fields with
  | nil => exact lookup_cons_if key value [] k
  | cons f rest ih =>
    obtain ⟨name, old⟩ := f
    rw [put]
    by_cases hname : name = key
    · subst hname
      rw [if_pos rfl, lookup_cons_if, lookup_cons_if]
      split <;> rfl
    · rw [if_neg hname, lookup_cons_if, lookup_cons_if, ih]
      by_cases hk : k = name
      · rw [if_pos hk, if_pos hk, if_neg (hk ▸ hname)]
      · rw [if_neg hk, if_neg hk]

theorem mem_put {fields : List (String × Value)} {f : String × Value}
    (h : f ∈ put key value fields) : f = (key, value) ∨ f ∈ fields := by
  induction fields with
  | nil => exact .inl (List.mem_singleton.1 h)
  | cons g rest ih =>
    obtain ⟨name, old⟩ := g
    rw [put] at h
    split at h
    · exact (List.mem_cons.1 h).imp_right (List.mem_cons_of_mem _)
    · rcases List.mem_cons.1 h with rfl | h
      · exact .inr List.mem_cons_self
      · exact (ih h).imp_right (List.mem_cons_of_mem _)

theorem nodup_put {fields : List (String × Value)} (h : (fields.map Prod.fst).Nodup) :
    ((put key value fields).map Prod.fst).Nodup := by
  induction fields with
  | nil => exact List.nodup_cons.2 ⟨List.not_mem_nil, List.nodup_nil⟩
  | cons g rest ih =>
    obtain ⟨name, old⟩ := g
    obtain ⟨hname, hrest⟩ := List.nodup_cons.1 h
    rw [put]
    by_cases hkey : name = key
    · subst hkey
      rw [if_pos rfl]
      exact h
    · rw [if_neg hkey]
      refine List.nodup_cons.2 ⟨fun hmem => ?_, ih hrest⟩
      obtain ⟨f, hf, heq⟩ := List.mem_map.1 hmem
      rcases mem_put key value hf with rfl | hf
      · exact hkey heq.symm
      · exact hname (heq ▸ List.mem_map_of_mem hf)

end Put

/-! ## Many fields -/

/-- **What is new comes first.** -/
theorem lookup_override {base extra : List (String × Value)} (h : (extra.map Prod.fst).Nodup)
    (key : String) : (override base extra).lookup key = (extra.lookup key).or (base.lookup key) := by
  induction extra generalizing base with
  | nil => rfl
  | cons f rest ih =>
    obtain ⟨name, value⟩ := f
    obtain ⟨hname, hrest⟩ := List.nodup_cons.1 h
    have hstep : override base ((name, value) :: rest) = override (put name value base) rest := rfl
    rw [hstep, ih hrest, lookup_put, lookup_cons_if]
    by_cases hkey : key = name
    · subst hkey
      rw [if_pos rfl, if_pos rfl, lookup_eq_none hname]
      rfl
    · rw [if_neg hkey, if_neg hkey]

theorem mem_override {base extra : List (String × Value)} {f : String × Value}
    (h : f ∈ override base extra) : f ∈ base ∨ f ∈ extra := by
  induction extra generalizing base with
  | nil => exact .inl h
  | cons g rest ih =>
    rcases ih h with hput | hrest
    · rcases mem_put g.1 g.2 hput with rfl | hbase
      · exact .inr List.mem_cons_self
      · exact .inl hbase
    · exact .inr (List.mem_cons_of_mem g hrest)

theorem nodup_override {base : List (String × Value)} (h : (base.map Prod.fst).Nodup)
    (extra : List (String × Value)) : ((override base extra).map Prod.fst).Nodup := by
  induction extra generalizing base with
  | nil => exact h
  | cons g rest ih => exact ih (nodup_put g.1 g.2 h)

/-! ## What objects are made of -/

section Made

variable {S : Value → Prop} {base : List (String × Value)} (hnodup : (base.map Prod.fst).Nodup)
  (hbase : ∀ f ∈ base, MadeOf S f.2)
include hnodup hbase

theorem MadeOf.put (key : String) {value : Value} (hvalue : MadeOf S value) :
    MadeOf S (.obj (put key value base)) := by
  refine .obj (nodup_put key value hnodup) fun f hf => ?_
  rcases mem_put key value hf with rfl | hf
  · exact hvalue
  · exact hbase f hf

/-- An object that is put together from fields is made of what they are made of. -/
theorem MadeOf.override {fields : List (String × Value)} (h : ∀ f ∈ fields, MadeOf S f.2) :
    MadeOf S (.obj (override base fields)) :=
  .obj (nodup_override hnodup fields) fun f hf => (mem_override hf).elim (hbase f) (h f)

end Made

end QueryPipeline.Value
