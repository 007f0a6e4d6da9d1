import QueryPipeline.Json.Reader
import QueryPipeline.Proofs.Number
import QueryPipeline.Proofs.Steps
import QueryPipeline.Proofs.Value.Override

/-!
# What is read is JSON

The reader gives JSON values only (`Value.IsJson`): the fields of an object have different names,
because a name that comes again is put over the first one, whole numbers are not too long, and
fractions are rounded.
-/

namespace QueryPipeline.Json

open Value

/-! ## Numbers -/

theorem splitDigits_fst (cs : List Char) : ∀ c ∈ (splitDigits cs).1, c.isDigit = true :=
  fun _ hc => List.mem_takeWhile_imp hc

theorem lt_ten_of_isDigit {c : Char} (h : c.isDigit = true) : c.toNat - '0'.toNat < 10 := by
  simp only [Char.isDigit, Bool.and_eq_true, decide_eq_true_eq] at h
  have hle : c.toNat ≤ 57 := h.2
  change c.toNat - 48 < 10
  omega

/-- Digits that are not too many give a number that is not too long. -/
theorem isShort_digitsValue {ds : List Char} (hds : ∀ c ∈ ds, c.isDigit = true)
    (hlength : ds.length ≤ Integer.digitLimit) (negative : Bool) :
    IsShort (if negative then -(digitsValue ds : Int) else digitsValue ds) := by
  have hbound : (Text.decimal (digitsValue ds)).length ≤
      max 1 (ds.map fun c => c.toNat - '0'.toNat).length := by
    refine Integer.length_decimal_ofDigits ?_
    intro d hd
    obtain ⟨c, hc, rfl⟩ := List.mem_map.1 hd
    exact lt_ten_of_isDigit (hds c hc)
  have hlimit : 1 ≤ Integer.digitLimit := by decide
  rw [List.length_map] at hbound
  have habs : (if negative then -(digitsValue ds : Int) else digitsValue ds).natAbs =
      digitsValue ds := by
    cases negative <;> simp
  rw [IsShort, habs]
  omega

theorem splitWhole_fst (cs : List Char) : ∀ c ∈ (splitWhole cs).1, c.isDigit = true := by
  unfold splitWhole
  split
  · exact List.forall_mem_singleton.2 rfl
  · exact splitDigits_fst _

theorem readNumber_isJson {cs rest : List Char} {v : Value} (h : readNumber cs = .ok (v, rest)) :
    v.IsJson := by
  unfold readNumber at h
  split at h
  split at h
  next body _ _ whole behind hwhole =>
    have hdigits := splitWhole_fst body
    rw [hwhole] at hdigits
    dsimp only at h
    split at h
    · split at h <;> cases h
    split at h
    · split at h
      · cases h
      next hlimit =>
        cases h
        exact .scalar (.whole (.int (isShort_digitsValue hdigits (Nat.le_of_not_lt hlimit) _)))
    · split at h
      next hx =>
        cases h
        exact .scalar (.real (Binary64.isRounded_ofDecimal? hx))
      next => cases h

/-! ## Values -/

/-- With some budget, all that is read is JSON. -/
structure ReadsJson (n : Nat) : Prop where
  value : ∀ {cs rest v}, readValue n cs = .ok (v, rest) → v.IsJson
  items : ∀ {cs rest items}, readItems n cs = .ok (items, rest) → ∀ v ∈ items, v.IsJson
  fields : ∀ {cs rest fields}, readFields n cs = .ok (fields, rest) → ∀ f ∈ fields, f.2.IsJson

namespace ReadsJson

variable {n : Nat} {cs rest : List Char} (ih : ReadsJson n)
include ih

theorem value_succ {v : Value} (h : readValue (n + 1) cs = .ok (v, rest)) : v.IsJson := by
  unfold readValue at h
  split at h
  · obtain ⟨⟨s, left⟩, _, h⟩ := bind_eq_ok.1 h
    cases h
    exact .scalar (.whole (.str s))
  · split at h
    · cases h
      exact .arr (List.forall_mem_nil _)
    · obtain ⟨⟨items, left⟩, hitems, h⟩ := bind_eq_ok.1 h
      cases h
      exact .arr (ih.items hitems)
  · split at h
    · cases h
      exact .obj List.nodup_nil (List.forall_mem_nil _)
    · obtain ⟨⟨fields, left⟩, hfields, h⟩ := bind_eq_ok.1 h
      cases h
      have hnil : (([] : List (String × Value)).map Prod.fst).Nodup := List.nodup_nil
      exact .override hnil (List.forall_mem_nil _) (ih.fields hfields)
  · cases h
    exact .scalar (.whole .null)
  · cases h
    exact .scalar (.whole (.bool true))
  · cases h
    exact .scalar (.whole (.bool false))
  · exact readNumber_isJson h

theorem items_succ {items : List Value} (h : readItems (n + 1) cs = .ok (items, rest)) :
    ∀ v ∈ items, v.IsJson := by
  unfold readItems at h
  obtain ⟨⟨v, behind⟩, hv, h⟩ := bind_eq_ok.1 h
  dsimp only at h
  split at h
  · cases h
    exact List.forall_mem_singleton.2 (ih.value hv)
  · obtain ⟨⟨more, left⟩, hmore, h⟩ := bind_eq_ok.1 h
    cases h
    exact List.forall_mem_cons.2 ⟨ih.value hv, ih.items hmore⟩
  · cases h

theorem fields_succ {fields : List (String × Value)}
    (h : readFields (n + 1) cs = .ok (fields, rest)) : ∀ f ∈ fields, f.2.IsJson := by
  unfold readFields at h
  split at h
  · obtain ⟨⟨key, colon⟩, _, h⟩ := bind_eq_ok.1 h
    dsimp only at h
    split at h
    · obtain ⟨⟨v, behind⟩, hv, h⟩ := bind_eq_ok.1 h
      dsimp only at h
      split at h
      · cases h
        exact List.forall_mem_singleton.2 (ih.value hv)
      · obtain ⟨⟨more, left⟩, hmore, h⟩ := bind_eq_ok.1 h
        cases h
        exact List.forall_mem_cons.2 ⟨ih.value hv, ih.fields hmore⟩
      · cases h
    · cases h
  · cases h

end ReadsJson

theorem readsJson (n : Nat) : ReadsJson n := by
  induction n with
  | zero =>
    constructor
    · intro cs rest v h
      rw [readValue] at h
      cases h
    · intro cs rest items h
      rw [readItems] at h
      cases h
    · intro cs rest fields h
      rw [readFields] at h
      cases h
  | succ n ih => exact ⟨ih.value_succ, ih.items_succ, ih.fields_succ⟩

/-- **A text is read as JSON.** -/
theorem read_isJson {text : String} {v : Value} (h : read text = .ok v) : v.IsJson := by
  rw [read, readChars] at h
  split at h
  · cases h
  obtain ⟨⟨w, rest⟩, hw, h⟩ := bind_eq_ok.1 h
  dsimp only at h
  split at h
  · cases h
    exact (readsJson _).value hw
  · cases h

end QueryPipeline.Json
