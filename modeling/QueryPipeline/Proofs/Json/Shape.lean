import QueryPipeline.Proofs.Json.Quote

/-!
# What a quoted text looks like

`Proofs/Json/Quote` shows that a quoted text is read back.  Here is what one sees of it from
outside.  Between its two quotes stand no control characters, and a quote only behind the backslash
that escapes it (`Escaped`).  So whoever copies the text somewhere else knows where it ends.  And
the reader of whole texts takes it for a string, with nothing left over (`read_quote`).
-/

namespace QueryPipeline

namespace Text

theorem mem_toDigits {b n : Nat} (hb : 1 < b) {c : Char} (h : c ∈ Nat.toDigits b n) :
    ∃ k, k < b ∧ c = k.digitChar := by
  induction n using Nat.strongRecOn with
  | ind n ih =>
    by_cases hn : n < b
    · rw [Nat.toDigits_of_lt_base hn, List.mem_singleton] at h
      exact ⟨n, hn, h⟩
    · rw [Nat.toDigits_of_base_le hb (Nat.le_of_not_lt hn), List.mem_append,
        List.mem_singleton] at h
      rcases h with h | h
      · exact ih (n / b) (Nat.div_lt_self (by omega) hb) h
      · exact ⟨n % b, Nat.mod_lt n (by omega), h⟩

theorem mem_hexadecimal {width n : Nat} {c : Char} (h : c ∈ hexadecimal width n) :
    ∃ k, k < 16 ∧ c = k.digitChar := by
  rw [hexadecimal, List.mem_append] at h
  rcases h with h | h
  · exact ⟨0, by decide, List.eq_of_mem_replicate h⟩
  · exact mem_toDigits (by decide) h

end Text

namespace Json

/-- What may stand between two quotes: no control character, and a quote only behind a backslash of
its own. -/
inductive Escaped : List Char → Prop
  | nil : Escaped []
  | plain {c : Char} {cs : List Char} :
      c ≠ '"' → c ≠ '\\' → 0x20 ≤ c.toNat → Escaped cs → Escaped (c :: cs)
  | escape {c : Char} {cs : List Char} : 0x20 ≤ c.toNat → Escaped cs → Escaped ('\\' :: c :: cs)

theorem Escaped.append {cs ds : List Char} (hcs : Escaped cs) (hds : Escaped ds) :
    Escaped (cs ++ ds) := by
  induction hcs with
  | nil => exact hds
  | plain hquote hslash hc _ ih => exact .plain hquote hslash hc ih
  | escape hc _ ih => exact .escape hc ih

theorem Escaped.flatMap {f : Char → List Char} (hf : ∀ c, Escaped (f c)) (cs : List Char) :
    Escaped (cs.flatMap f) := by
  induction cs with
  | nil => exact .nil
  | cons c cs ih =>
    rw [List.flatMap_cons]
    exact (hf c).append ih

theorem Escaped.not_control {cs : List Char} (h : Escaped cs) : ∀ c ∈ cs, 0x20 ≤ c.toNat := by
  induction h with
  | nil => simp
  | plain _ _ hc _ ih => exact List.forall_mem_cons.2 ⟨hc, ih⟩
  | escape hc _ ih =>
    exact List.forall_mem_cons.2 ⟨by decide, List.forall_mem_cons.2 ⟨hc, ih⟩⟩

/-! ## Written characters -/

/-- A hexadecimal digit is a letter or a digit. -/
theorem digitChar_plain : ∀ {k : Nat}, k < 16 →
    k.digitChar ≠ '"' ∧ k.digitChar ≠ '\\' ∧ 0x20 ≤ k.digitChar.toNat := by
  decide

theorem escaped_of_plain {cs : List Char}
    (h : ∀ c ∈ cs, c ≠ '"' ∧ c ≠ '\\' ∧ 0x20 ≤ c.toNat) : Escaped cs := by
  induction cs with
  | nil => exact .nil
  | cons c cs ih =>
    obtain ⟨⟨hquote, hslash, hc⟩, hcs⟩ := List.forall_mem_cons.1 h
    exact .plain hquote hslash hc (ih hcs)

theorem escaped_unitEscape (n : Nat) : Escaped (unitEscape n) := by
  refine .escape (by decide) (escaped_of_plain fun c hc => ?_)
  obtain ⟨k, hk, rfl⟩ := Text.mem_hexadecimal hc
  exact digitChar_plain hk

theorem escaped_unicodeEscape (c : Char) : Escaped (unicodeEscape c) := by
  rw [unicodeEscape]
  split
  · exact escaped_unitEscape _
  · exact (escaped_unitEscape _).append (escaped_unitEscape _)

/-- The letters of the escapes are no control characters. -/
theorem simpleEscape?_eq_some {e c : Char} (h : simpleEscape? e = some c) : 0x20 ≤ e.toNat := by
  unfold simpleEscape? at h
  split at h
  case h_9 => cases h
  all_goals decide

theorem escaped_writeChar (ascii : Bool) (c : Char) : Escaped (writeChar ascii c) := by
  obtain ⟨e, hwritten, _, he, _⟩ | ⟨hwritten, _⟩ | ⟨hwritten, hquote, hslash, hc, _⟩ :=
    writeChar_cases ascii c
  · rw [hwritten]
    exact .escape (simpleEscape?_eq_some he) .nil
  · rw [hwritten]
    exact escaped_unicodeEscape c
  · rw [hwritten]
    exact .plain hquote hslash hc .nil

/-! ## Quoted texts -/

theorem readValue_string (ascii : Bool) (n : Nat) (cs rest : List Char) :
    readValue (n + 1) ('"' :: (cs.flatMap (writeChar ascii) ++ '"' :: rest)) =
      .ok (.str (String.ofList cs), rest) := by
  rw [readValue, readString_written]
  rfl

/-- The reader of whole texts takes a quoted text for the string that it stands for. -/
theorem read_quote (s : String) : read (quote s) = .ok (.str s) := by
  rw [read, quote, String.toList_ofList, stringChars, readChars]
  have hskip : ∀ cs : List Char, skipBlanks ('"' :: cs) = '"' :: cs := fun cs => rfl
  rw [hskip, readValue_string, String.ofList_toList]
  rfl

/-- A text that may stand in a program for a string: in quotes, with nothing inside that could end
it or break the line, and read as that string. -/
structure Quotes (text s : String) : Prop where
  delimited : ∃ body, text.toList = '"' :: (body ++ ['"']) ∧ (∀ c ∈ body, 0x20 ≤ c.toNat) ∧
    Escaped body
  read_eq : read text = .ok (.str s)

theorem quotes_quote (s : String) : Quotes (quote s) s where
  delimited := by
    have hbody : Escaped (s.toList.flatMap (writeChar false)) :=
      Escaped.flatMap (escaped_writeChar false) s.toList
    refine ⟨s.toList.flatMap (writeChar false), ?_, hbody.not_control, hbody⟩
    rw [quote, String.toList_ofList, stringChars]
  read_eq := read_quote s

/-- A text quotes one string only. -/
theorem Quotes.unique {text s t : String} (hs : Quotes text s) (ht : Quotes text t) : s = t := by
  have h := hs.read_eq.symm.trans ht.read_eq
  cases h
  rfl

end Json
end QueryPipeline
