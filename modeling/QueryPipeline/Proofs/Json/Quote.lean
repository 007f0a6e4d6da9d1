import QueryPipeline.Json.Reader
import QueryPipeline.Json.Writer

/-!
# Quoted texts

A text that is written as a JSON string is read back as it was:

    readString (cs.flatMap (writeChar ascii) ++ '"' :: rest) = ok (ofList cs, rest)

with and without escapes for what is not ASCII.  The reader works in two steps, and so does the
proof.  `readUnits` gives back the code units that a character was written in, one or two of them
(`units`), and `joinSurrogates?` makes the character of them again.  No character is a surrogate, so
what follows a character never takes part in it.

`unquote?` reads a whole text as one string, and `unquote?_quote` says that it inverts `quote`.
-/

namespace QueryPipeline

namespace Text

/-! ## Hexadecimal digits -/

theorem hexadecimal_succ {width : Nat} (hwidth : 0 < width) (n : Nat) :
    hexadecimal (width + 1) n = hexadecimal width (n / 16) ++ [(n % 16).digitChar] := by
  rw [hexadecimal, hexadecimal]
  by_cases hn : n < 16
  · rw [Nat.toDigits_of_lt_base hn, Nat.div_eq_of_lt hn, Nat.mod_eq_of_lt hn, Nat.toDigits_zero]
    obtain ⟨k, rfl⟩ : ∃ k, width = k + 1 := ⟨width - 1, by omega⟩
    show List.replicate (k + 1) '0' ++ [n.digitChar] =
      List.replicate k '0' ++ ['0'] ++ [n.digitChar]
    rw [List.replicate_succ']
  · rw [Nat.toDigits_of_base_le (by decide) (Nat.le_of_not_lt hn), List.length_append,
      ← List.append_assoc]
    show List.replicate (width + 1 - ((Nat.toDigits 16 (n / 16)).length + 1)) '0' ++ _ ++ _ = _
    rw [Nat.add_sub_add_right]

theorem hexadecimal_one {n : Nat} (hn : n < 16) : hexadecimal 1 n = [n.digitChar] := by
  rw [hexadecimal, Nat.toDigits_of_lt_base hn]
  rfl

theorem hexDigit?_digitChar : ∀ {n : Nat}, n < 16 → hexDigit? n.digitChar = some n := by
  decide

end Text

namespace Json

/-- Four digits give back the code unit that they were written for. -/
theorem unitEscape_eq {n : Nat} (hn : n < 0x10000) :
    ∃ a b c d, unitEscape n = ['\\', 'u', a, b, c, d] ∧ hexUnit? a b c d = some n := by
  refine ⟨(n / 16 / 16 / 16).digitChar, (n / 16 / 16 % 16).digitChar, (n / 16 % 16).digitChar,
    (n % 16).digitChar, ?_, ?_⟩
  · rw [unitEscape, Text.hexadecimal_succ (by decide), Text.hexadecimal_succ (by decide),
      Text.hexadecimal_succ (by decide), Text.hexadecimal_one (by omega)]
    rfl
  · rw [hexUnit?, Text.hexDigit?_digitChar (by omega), Text.hexDigit?_digitChar (by omega),
      Text.hexDigit?_digitChar (by omega), Text.hexDigit?_digitChar (by omega)]
    show some (((n / 16 / 16 / 16 * 16 + n / 16 / 16 % 16) * 16 + n / 16 % 16) * 16 + n % 16) =
      some n
    congr 1
    omega

/-! ## Code units -/

/-- The code units that a character is read as: two when it was escaped as a pair of
surrogates. -/
def units (ascii : Bool) (c : Char) : List Nat :=
  if ascii = true ∧ 0x10000 ≤ c.toNat then
    [0xd800 + (c.toNat - 0x10000) / 0x400, 0xdc00 + (c.toNat - 0x10000) % 0x400]
  else [c.toNat]

/-- No character is a surrogate. -/
theorem toNat_range (c : Char) :
    c.toNat < 0xd800 ∨ (0xdfff < c.toNat ∧ c.toNat < 0x110000) :=
  c.valid

theorem units_of_lt {ascii : Bool} {c : Char} (hc : c.toNat < 0x10000) :
    units ascii c = [c.toNat] := by
  rw [units, if_neg (by omega)]

/-- A character is written in one of three ways: by the letter of its escape, by its code units, or
as it is. -/
theorem writeChar_cases (ascii : Bool) (c : Char) :
    (∃ e, writeChar ascii c = ['\\', e] ∧ e ≠ 'u' ∧ simpleEscape? e = some c ∧
      c.toNat < 0x10000) ∨
    (writeChar ascii c = unicodeEscape c ∧ (ascii = true ∨ c.toNat < 0x20)) ∨
    (writeChar ascii c = [c] ∧ c ≠ '"' ∧ c ≠ '\\' ∧ 0x20 ≤ c.toNat ∧
      (ascii = true → c.toNat < 0x7f)) := by
  have hchar : ∀ n, c.toNat = n → c = Char.ofNat n := by
    rintro n rfl
    exact (Char.ofNat_toNat c).symm
  obtain ⟨cs, hcs⟩ : ∃ cs, writeChar ascii c = cs := ⟨_, rfl⟩
  rw [hcs]
  rw [writeChar] at hcs
  split at hcs
  next hc => exact .inl ⟨'"', hcs.symm, by decide, by rw [hc]; rfl, by rw [hc]; decide⟩
  split at hcs
  next hc => exact .inl ⟨'\\', hcs.symm, by decide, by rw [hc]; rfl, by rw [hc]; decide⟩
  split at hcs
  next hc => exact .inl ⟨'n', hcs.symm, by decide, by rw [hc]; rfl, by rw [hc]; decide⟩
  split at hcs
  next hc => exact .inl ⟨'r', hcs.symm, by decide, by rw [hc]; rfl, by rw [hc]; decide⟩
  split at hcs
  next hc => exact .inl ⟨'t', hcs.symm, by decide, by rw [hc]; rfl, by rw [hc]; decide⟩
  split at hcs
  next hc => exact .inl ⟨'b', hcs.symm, by decide, by rw [hchar 8 hc]; rfl, by omega⟩
  split at hcs
  next hc => exact .inl ⟨'f', hcs.symm, by decide, by rw [hchar 12 hc]; rfl, by omega⟩
  split at hcs
  next hc =>
    refine .inr (.inl ⟨hcs.symm, ?_⟩)
    rcases hc with hc | ⟨hascii, _⟩
    · exact .inr hc
    · exact .inl hascii
  next hquote hslash _ _ _ _ _ hplain =>
    refine .inr (.inr ⟨hcs.symm, hquote, hslash, by omega, fun hascii => ?_⟩)
    rw [not_or, not_and] at hplain
    have := hplain.2 hascii
    omega

section Units

variable {opening : Nat} {tail left : List Char} {us : List Nat}

theorem readUnits_simple {e c : Char} (hu : e ≠ 'u') (he : simpleEscape? e = some c)
    (h : readUnits opening tail = .ok (us, left)) :
    readUnits opening ('\\' :: e :: tail) = .ok (c.toNat :: us, left) := by
  rw [readUnits, if_neg hu, he]
  · show (readUnits opening tail >>= _) = _
    rw [h]
    rfl
  · intros
    simp_all

theorem readUnits_unit {n : Nat} (hn : n < 0x10000)
    (h : readUnits opening tail = .ok (us, left)) :
    readUnits opening (unitEscape n ++ tail) = .ok (n :: us, left) := by
  obtain ⟨a, b, c, d, hescape, hunit⟩ := unitEscape_eq hn
  -- something stands behind the escape, since the rest could be read
  obtain ⟨next, rest, rfl⟩ : ∃ next rest, tail = next :: rest := by
    cases tail with
    | nil => cases h
    | cons next rest => exact ⟨next, rest, rfl⟩
  rw [hescape]
  show readUnits opening ('\\' :: 'u' :: a :: b :: c :: d :: next :: rest) = _
  rw [readUnits, hunit]
  show (readUnits opening (next :: rest) >>= _) = _
  rw [h]
  rfl

theorem readUnits_plain {c : Char} (hquote : c ≠ '"') (hslash : c ≠ '\\') (hc : 0x20 ≤ c.toNat)
    (h : readUnits opening tail = .ok (us, left)) :
    readUnits opening (c :: tail) = .ok (c.toNat :: us, left) := by
  rw [readUnits, if_neg hslash, if_neg (by omega)]
  · show (readUnits opening tail >>= _) = _
    rw [h]
    rfl
  all_goals simp_all

/-- A written character is read as its code units. -/
theorem readUnits_writeChar (ascii : Bool) (c : Char)
    (h : readUnits opening tail = .ok (us, left)) :
    readUnits opening (writeChar ascii c ++ tail) = .ok (units ascii c ++ us, left) := by
  obtain ⟨e, hwritten, hu, he, hc⟩ | ⟨hwritten, hreason⟩ | ⟨hwritten, hquote, hslash, hc, hascii⟩ :=
    writeChar_cases ascii c
  · rw [hwritten, units_of_lt hc]
    exact readUnits_simple hu he h
  · rw [hwritten, unicodeEscape]
    by_cases hc : c.toNat < 0x10000
    · rw [if_pos hc, units_of_lt hc]
      exact readUnits_unit hc h
    · have hrange := toNat_range c
      have hascii : ascii = true := by
        rcases hreason with hascii | hlow
        · exact hascii
        · omega
      rw [if_neg hc, units, if_pos ⟨hascii, by omega⟩, List.append_assoc]
      exact readUnits_unit (by omega) (readUnits_unit (by omega) h)
  · have hunits : units ascii c = [c.toNat] := by
      rw [units, if_neg]
      rintro ⟨htrue, hhigh⟩
      have := hascii htrue
      omega
    rw [hwritten, hunits]
    exact readUnits_plain hquote hslash hc h

theorem readUnits_written (ascii : Bool) (cs rest : List Char) :
    readUnits opening (cs.flatMap (writeChar ascii) ++ '"' :: rest) =
      .ok (cs.flatMap (units ascii), rest) := by
  induction cs with
  | nil => rfl
  | cons c cs ih =>
    rw [List.flatMap_cons, List.flatMap_cons, List.append_assoc]
    exact readUnits_writeChar ascii c ih

end Units

/-! ## Characters -/

theorem isSurrogate_iff {n : Nat} : isSurrogate n = true ↔ 0xd800 ≤ n ∧ n < 0xe000 := by
  rw [isSurrogate, Bool.and_eq_true, decide_eq_true_iff, decide_eq_true_iff]

theorem joinSurrogates?_cons {n : Nat} (hn : ¬ (0xd800 ≤ n ∧ n < 0xe000)) (us : List Nat) :
    joinSurrogates? (n :: us) = (joinSurrogates? us).map (Char.ofNat n :: ·) := by
  have hplain : ¬ isSurrogate n = true := mt isSurrogate_iff.1 hn
  cases us with
  | nil => rw [joinSurrogates?, if_neg hplain]; rfl
  | cons low us =>
    rw [joinSurrogates?, if_neg (by omega), if_neg hplain]

/-- The code units of a character make it again, whatever follows. -/
theorem joinSurrogates?_units (ascii : Bool) (c : Char) (us : List Nat) :
    joinSurrogates? (units ascii c ++ us) = (joinSurrogates? us).map (c :: ·) := by
  have hrange := toNat_range c
  rw [units]
  split
  next hpair =>
    show joinSurrogates? (_ :: _ :: us) = _
    rw [joinSurrogates?, if_pos (by omega)]
    have hc : 0x10000 + (0xd800 + (c.toNat - 0x10000) / 0x400 - 0xd800) * 0x400 +
        (0xdc00 + (c.toNat - 0x10000) % 0x400 - 0xdc00) = c.toNat := by
      omega
    rw [hc, Char.ofNat_toNat]
  next =>
    show joinSurrogates? (c.toNat :: us) = _
    rw [joinSurrogates?_cons (by omega), Char.ofNat_toNat]

theorem joinSurrogates?_written (ascii : Bool) (cs : List Char) :
    joinSurrogates? (cs.flatMap (units ascii)) = some cs := by
  induction cs with
  | nil => rfl
  | cons c cs ih =>
    rw [List.flatMap_cons, joinSurrogates?_units, ih]
    rfl

/-- **A written string is read back.** -/
theorem readString_written (ascii : Bool) (cs rest : List Char) :
    readString (cs.flatMap (writeChar ascii) ++ '"' :: rest) = .ok (String.ofList cs, rest) := by
  rw [readString, readUnits_written]
  simp [joinSurrogates?_written, bind, Except.bind, pure, Except.pure]

/-! ## Whole texts -/

/-- The text that a quoted text stands for, if it is one from its first to its last character. -/
def unquote? (text : String) : Option String :=
  match text.toList with
  | '"' :: cs =>
    match readString cs with
    | .ok (s, []) => some s
    | _ => none
  | _ => none

theorem unquote?_quote (s : String) : unquote? (quote s) = some s := by
  rw [unquote?, quote, String.toList_ofList, stringChars]
  show (match readString (s.toList.flatMap (writeChar false) ++ ['"']) with
    | .ok (s, []) => some s
    | _ => none) = _
  rw [readString_written, String.ofList_toList]

end Json
end QueryPipeline
