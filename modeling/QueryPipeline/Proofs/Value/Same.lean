import Mathlib.Data.List.Perm.Subperm
import QueryPipeline.Value.Same

/-!
# Equal values, part by part

Two objects are equal if they have the same fields, in any order.  For objects whose names are all
different this means that they agree field by field (`same_fieldOf`), absent fields included, and
that a value is equal to itself (`Plain.same_self`).

The other lemmas take equal lists and options apart, for values that are made from something else by
a function: what the function keeps is then equal, too.
-/

namespace QueryPipeline.Value

/-! ## Fields -/

theorem lookup_eq_some_of_mem {α : Type} {fields : List (String × α)}
    (hnodup : (fields.map Prod.fst).Nodup) {f : String × α} (hf : f ∈ fields) :
    fields.lookup f.1 = some f.2 := by
  induction fields with
  | nil => cases hf
  | cons g rest ih =>
    rw [List.map_cons, List.nodup_cons] at hnodup
    rcases List.mem_cons.mp hf with rfl | hf
    · exact List.lookup_cons_self
    · have hne : f.1 ≠ g.1 := fun heq => hnodup.1 (heq ▸ List.mem_map_of_mem hf)
      rw [List.lookup_cons, beq_false_of_ne hne]
      exact ih hnodup.2 hf

theorem lookup_eq_none {fields : List (String × Value)} {key : String}
    (h : key ∉ fields.map Prod.fst) : fields.lookup key = none := by
  induction fields with
  | nil => rfl
  | cons g rest ih =>
    rw [List.map_cons, List.mem_cons, not_or] at h
    rw [List.lookup_cons, beq_false_of_ne h.1]
    exact ih h.2

/-- Fields that are null might as well be absent. -/
theorem fieldOf_compact {fields : List (String × Value)} (hnodup : (fields.map Prod.fst).Nodup)
    (key : String) : fieldOf key (compact fields) = fieldOf key fields := by
  induction fields with
  | nil => rfl
  | cons f rest ih =>
    obtain ⟨name, value⟩ := f
    rw [List.map_cons, List.nodup_cons] at hnodup
    have hrest : fieldOf key (compact rest) = fieldOf key rest := ih hnodup.2
    by_cases hkey : key = name
    · subst hkey
      by_cases hnull : value = .null
      · -- no other field has this name
        have hnone : fieldOf key rest = .null := by
          rw [fieldOf, lookup_eq_none hnodup.1]
          rfl
        have hcompact : compact ((key, value) :: rest) = compact rest := by
          simp [compact, hnull]
        rw [hcompact, hrest, hnone, hnull, fieldOf, List.lookup_cons_self]
        rfl
      · have hcompact : compact ((key, value) :: rest) = (key, value) :: compact rest := by
          simp [compact, hnull]
        rw [hcompact, fieldOf, fieldOf, List.lookup_cons_self, List.lookup_cons_self]
    · have hskip : ∀ more, fieldOf key ((name, value) :: more) = fieldOf key more := by
        intro more
        rw [fieldOf, List.lookup_cons, beq_false_of_ne hkey]
        rfl
      rw [hskip, ← hrest]
      by_cases hnull : value = .null
      · simp [compact, hnull]
      · have hcompact : compact ((name, value) :: rest) = (name, value) :: compact rest := by
          simp [compact, hnull]
        rw [hcompact, hskip]

/-! ## Objects -/

theorem sameFields_iff {as bs : List (String × Value)} :
    sameFields as bs = true ↔ ∀ f ∈ as, ∃ b, bs.lookup f.1 = some b ∧ f.2.same b = true := by
  induction as with
  | nil => simp [sameFields]
  | cons f rest ih =>
    obtain ⟨key, a⟩ := f
    rw [sameFields, Bool.and_eq_true, ih, List.forall_mem_cons]
    refine and_congr ?_ Iff.rfl
    cases bs.lookup key with
    | none => simp
    | some b => simp

theorem same_obj_iff {as bs : List (String × Value)} :
    (Value.obj as).same (.obj bs) = true ↔
      as.length = bs.length ∧ ∀ f ∈ as, ∃ b, bs.lookup f.1 = some b ∧ f.2.same b = true := by
  rw [same, Bool.and_eq_true, beq_iff_eq, sameFields_iff]

theorem mem_of_lookup_eq_some {fields : List (String × Value)} {key : String} {v : Value}
    (h : fields.lookup key = some v) : key ∈ fields.map Prod.fst := by
  by_contra hkey
  rw [lookup_eq_none hkey] at h
  cases h

/-- **Equal objects agree field by field.** -/
theorem same_fieldOf {as bs : List (String × Value)} (hnodup : (as.map Prod.fst).Nodup)
    (h : (Value.obj as).same (.obj bs) = true) (key : String) :
    (fieldOf key as).same (fieldOf key bs) = true := by
  obtain ⟨hlength, hall⟩ := same_obj_iff.mp h
  cases hkey : as.lookup key with
  | some a =>
    have hmem : (key, a) ∈ as := by
      obtain ⟨f, hf, rfl⟩ := List.mem_map.mp (mem_of_lookup_eq_some hkey)
      rw [lookup_eq_some_of_mem hnodup hf] at hkey
      cases hkey
      exact hf
    obtain ⟨b, hb, hsame⟩ := hall _ hmem
    rw [fieldOf, fieldOf, hkey, hb]
    exact hsame
  | none =>
    -- a field of `bs` that `as` does not have would be one too many
    have hnone : bs.lookup key = none := by
      refine lookup_eq_none fun hbs => ?_
      have has : key ∉ as.map Prod.fst := by
        intro hmem
        obtain ⟨f, hf, rfl⟩ := List.mem_map.mp hmem
        rw [lookup_eq_some_of_mem hnodup hf] at hkey
        cases hkey
      have hsubset : key :: as.map Prod.fst ⊆ bs.map Prod.fst := by
        refine List.cons_subset.mpr ⟨hbs, fun k hk => ?_⟩
        obtain ⟨f, hf, rfl⟩ := List.mem_map.mp hk
        obtain ⟨b, hb, _⟩ := hall f hf
        exact mem_of_lookup_eq_some hb
      have hle := ((List.nodup_cons.mpr ⟨has, hnodup⟩).subperm hsubset).length_le
      simp only [List.length_cons, List.length_map] at hle
      omega
    rw [fieldOf, fieldOf, hkey, hnone]
    rfl

/-! ## Equality with oneself -/

/-- Values without fractions and tokens, in which the fields of an object all have different
names. -/
inductive Plain : Value → Prop
  | null : Plain .null
  | bool {b : Bool} : Plain (.bool b)
  | int {i : Int} : Plain (.int i)
  | str {s : String} : Plain (.str s)
  | arr {items : List Value} : (∀ v ∈ items, Plain v) → Plain (.arr items)
  | obj {fields : List (String × Value)} :
      (fields.map Prod.fst).Nodup → (∀ f ∈ fields, Plain f.2) → Plain (.obj fields)
  | tuple {items : List Value} : (∀ v ∈ items, Plain v) → Plain (.tuple items)
  | node {shape : Shape} {fields : List Value} :
      (∀ v ∈ fields, Plain v) → Plain (.node shape fields)

theorem sameItems_self {items : List Value} (h : ∀ v ∈ items, v.same v = true) :
    sameItems items items = true := by
  induction items with
  | nil => rfl
  | cons v rest ih =>
    rw [List.forall_mem_cons] at h
    rw [sameItems, h.1, ih h.2]
    rfl

theorem Plain.same_self {v : Value} (h : v.Plain) : v.same v = true := by
  induction h with
  | null => rfl
  | bool => rename_i b; cases b <;> rfl
  | int => exact beq_self_eq_true _
  | str => exact beq_self_eq_true _
  | arr _ ih => exact sameItems_self ih
  | obj hnodup _ ih =>
    exact same_obj_iff.mpr ⟨rfl, fun f hf => ⟨f.2, lookup_eq_some_of_mem hnodup hf, ih f hf⟩⟩
  | tuple _ ih => exact sameItems_self ih
  | node _ ih => rw [same, sameItems_self ih, beq_self_eq_true, Bool.and_self]

theorem plain_optional (o : Option String) : (optional o).Plain := by
  cases o with
  | none => exact .null
  | some s => exact .str

theorem Plain.map {α : Type} {f : α → Value} {as : List α} (h : ∀ a ∈ as, (f a).Plain) :
    (Value.arr (as.map f)).Plain :=
  .arr (List.forall_mem_map.mpr h)

theorem Plain.elim {α : Type} {f : α → Value} {o : Option α} (h : ∀ a ∈ o, (f a).Plain) :
    (o.elim .null f).Plain := by
  cases o with
  | none => exact .null
  | some a => exact h a rfl

/-! ## Values made from something else -/

variable {α β : Type} {f : α → Value} {g : α → β}

theorem map_eq_of_sameItems : ∀ {as bs : List α},
    (∀ a ∈ as, ∀ b ∈ bs, (f a).same (f b) = true → g a = g b) →
      sameItems (as.map f) (bs.map f) = true → as.map g = bs.map g
  | [], [], _, _ => rfl
  | a :: as, b :: bs, h, hsame => by
    rw [List.map_cons, List.map_cons, sameItems, Bool.and_eq_true] at hsame
    rw [List.map_cons, List.map_cons, h a (by simp) b (by simp) hsame.1]
    rw [map_eq_of_sameItems (fun a ha b hb => h a (by simp [ha]) b (by simp [hb])) hsame.2]

theorem eq_of_sameItems {as bs : List α}
    (h : ∀ a ∈ as, ∀ b ∈ bs, (f a).same (f b) = true → a = b)
    (hsame : sameItems (as.map f) (bs.map f) = true) : as = bs := by
  simpa using map_eq_of_sameItems (g := id) h hsame

theorem eq_null_of_same {v : Value} (h : v.same .null = true ∨ Value.null.same v = true) :
    v = .null := by
  cases v with
  | null => rfl
  | bool b => cases b <;> rcases h with h | h <;> cases h
  | int | real | str | arr | obj | tuple | token | node => rcases h with h | h <;> cases h

/-- A part that may be absent, when the part itself is never null. -/
theorem map_eq_of_same_elim {o p : Option α} (hnull : ∀ a, f a ≠ .null)
    (h : ∀ a ∈ o, ∀ b ∈ p, (f a).same (f b) = true → g a = g b)
    (hsame : (o.elim .null f).same (p.elim .null f) = true) : o.map g = p.map g := by
  cases o with
  | none =>
    cases p with
    | none => rfl
    | some b => exact absurd (eq_null_of_same (.inr hsame)) (hnull b)
  | some a =>
    cases p with
    | none => exact absurd (eq_null_of_same (.inl hsame)) (hnull a)
    | some b => exact congrArg some (h a rfl b rfl hsame)

theorem eq_of_same_elim {o p : Option α} (hnull : ∀ a, f a ≠ .null)
    (h : ∀ a ∈ o, ∀ b ∈ p, (f a).same (f b) = true → a = b)
    (hsame : (o.elim .null f).same (p.elim .null f) = true) : o = p := by
  simpa using map_eq_of_same_elim (g := id) hnull h hsame

theorem eq_of_same_str {s t : String} (h : (Value.str s).same (.str t) = true) : s = t :=
  beq_iff_eq.mp h

theorem eq_of_same_int {i j : Int} (h : (Value.int i).same (.int j) = true) : i = j :=
  beq_iff_eq.mp h

theorem eq_of_same_bool {a b : Bool} (h : (Value.bool a).same (.bool b) = true) : a = b := by
  cases a <;> cases b <;> trivial

theorem eq_of_same_optional {o p : Option String}
    (h : (Value.optional o).same (.optional p) = true) : o = p := by
  cases o with
  | none =>
    cases p with
    | none => rfl
    | some t => cases h
  | some s =>
    cases p with
    | none => cases h
    | some t => rw [eq_of_same_str h]

end QueryPipeline.Value
