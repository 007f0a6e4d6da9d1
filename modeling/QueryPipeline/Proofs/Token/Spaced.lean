import Mathlib.Data.List.Forall2
import QueryPipeline.Proofs.Token.Written

/-!
# Tokens with white space between them

Tokens can be written down with any white space between two of them, and scanning gives them back.
Which tokens can be written is said here without the scanner (`Token.Writable`): a keyword in any
letter case, a name without double quotes, a number, a sign or a mark, and any string.

Words need white space between them, and so do numbers, and operators such as `<` in front of `=`.
The layout of the text is built along the way it is written, and a written token is followed by
something that separates.
-/

namespace QueryPipeline

/-! ## Tokens that can be written -/

/-- The letters of a name, each as it is or as a small letter. -/
def Keyword.Spelled (k : Keyword) (cs : List Char) : Prop :=
  List.Forall₂ (fun c d => c = d ∨ c = d.toLower) cs k.name.toList

namespace Keyword

/-- Letters of keywords and their small forms start words, and have the letter as their capital. -/
theorem letters_spelled {k : Keyword} {d : Char} (hd : d ∈ k.name.toList) {c : Char}
    (hc : c = d ∨ c = d.toLower) : Scanner.isWordStart c = true ∧ Text.upperChar c = [d] := by
  -- the letters are checked once, not in each name
  have hnames : all.all (fun k => k.name.toList.all Char.isUpper) = true := by decide +kernel
  have hletters : (List.range' 65 26).all (fun n => [Char.ofNat n, (Char.ofNat n).toLower].all
      fun c => Scanner.isWordStart c && Text.upperChar c == [Char.ofNat n]) = true := by
    decide +kernel
  have hupper := List.all_eq_true.mp (List.all_eq_true.mp hnames k k.mem_all) d hd
  have hcode : d.toNat ∈ List.range' 65 26 := by
    obtain ⟨hfirst, hlast⟩ : 'A'.val ≤ d.val ∧ d.val ≤ 'Z'.val := of_decide_eq_true hupper
    rw [UInt32.le_iff_toNat_le] at hfirst hlast
    exact List.mem_range'_1.mpr ⟨hfirst, Nat.lt_succ_of_le hlast⟩
  have hletter := List.all_eq_true.mp hletters d.toNat hcode
  rw [Char.ofNat_toNat] at hletter
  have hmem : c ∈ [d, d.toLower] := by simpa using hc
  simpa using List.all_eq_true.mp hletter c hmem

theorem Spelled.forall_mem {k : Keyword} {cs : List Char} (h : k.Spelled cs) :
    ∀ c ∈ cs, ∃ d ∈ k.name.toList, c = d ∨ c = d.toLower := by
  intro c hc
  obtain ⟨i, hi, rfl⟩ := List.getElem_of_mem hc
  have hlength := h.length_eq
  exact ⟨_, List.getElem_mem (hlength ▸ hi), h.get hi (hlength ▸ hi)⟩

theorem Spelled.isWord {k : Keyword} {cs : List Char} (h : k.Spelled cs) : Token.IsWord cs := by
  have hstart : ∀ c ∈ cs, Scanner.isWordStart c = true := by
    intro c hc
    obtain ⟨d, hd, hcd⟩ := h.forall_mem c hc
    exact (letters_spelled hd hcd).1
  have hne : ∀ k ∈ all, k.name.toList ≠ [] := by decide +kernel
  refine ⟨fun c hc => hstart c (List.mem_of_mem_head? hc), ?_,
    fun c hc => Scanner.isWordChar_of_isWordStart (hstart c hc)⟩
  rintro rfl
  exact hne k k.mem_all (List.forall₂_nil_left_iff.mp h)

theorem Spelled.upper {k : Keyword} {cs : List Char} (h : k.Spelled cs) :
    Text.upper (String.ofList cs) = k.name := by
  have hupper : ∀ {cs ds : List Char}, List.Forall₂ (fun c d => c = d ∨ c = d.toLower) cs ds →
      (∀ d ∈ ds, d ∈ k.name.toList) → cs.flatMap Text.upperChar = ds := by
    intro cs ds hcs
    induction hcs with
    | nil => exact fun _ => rfl
    | cons hcd _ ih =>
      intro hds
      obtain ⟨hd, hds⟩ := List.forall_mem_cons.mp hds
      rw [List.flatMap_cons, (letters_spelled hd hcd).2, ih hds]
      rfl
  rw [Text.upper, String.toList_ofList, hupper h fun _ hd => hd, String.ofList_toList]

end Keyword

namespace Token

/-- The tokens that can be written down. -/
def Writable (t : Token) : Prop :=
  match t.form with
  | .keyword => ∃ k : Keyword, k.Spelled t.text.toList
  | .identifier => '"' ∉ t.text.toList
  | .number => IsDecimal t.text.toList
  | .string => True
  | .punctuation => (Mark.ofChars? t.text.toList).isSome = true
  | .operator => (Sign.ofChars? t.text.toList).isSome = true
  | .plain => False
  | .eof => False

theorem Writable.legible {t : Token} (h : t.Writable) : t.Legible := by
  obtain ⟨form, text, position⟩ := t
  cases form with
  | keyword =>
    obtain ⟨k, hk⟩ := h
    have hupper := hk.upper
    rw [String.ofList_toList] at hupper
    exact ⟨hk.isWord, Keyword.isSome_ofName?_iff.mpr ⟨k, hupper.symm⟩⟩
  | number => exact isNumber_iff.mpr h
  | identifier => exact h
  | string => exact h
  | punctuation => exact h
  | operator => exact h
  | plain => exact h
  | eof => exact h

/-! ## White space between tokens -/

/-- **Tokens in writing, with some white space between two of them.** -/
inductive Spaced : List Token → List Char → Prop
  | nil : Spaced [] []
  | single (t : Token) : Spaced [t] t.written
  | cons {t u : Token} {ts : List Token} {gap cs : List Char} : gap ≠ [] →
      (∀ c ∈ gap, Text.isBlank c = true) → Spaced (u :: ts) cs →
      Spaced (t :: u :: ts) (t.written ++ (gap ++ cs))

theorem Spans.moved {t : Token} {span rest : List Char} (h : t.Spans span rest) (place : Nat) :
    (t.moved place).Spans span rest := by
  cases h with
  | keyword hword hkey hrest => exact .keyword hword hkey hrest
  | name hword hname hrest => exact .name hword hname hrest
  | number hcs hrest => exact .number hcs hrest
  | quotedName hcs => exact .quotedName hcs
  | string hcs => exact .string hcs
  | mark hcs => exact .mark hcs
  | operator hcs hrest => exact .operator hcs hrest

theorem same_moved (t : Token) (place : Nat) : (t.moved place).same t = true := by
  simp [same, Token.moved]

end Token

namespace Scanner

theorem Laid.blanks {place : Nat} {gap cs : List Char} {ts : List Token}
    (hgap : ∀ c ∈ gap, Text.isBlank c = true) (h : Laid (place + gap.length) cs ts) :
    Laid place (gap ++ cs) ts := by
  induction gap generalizing place with
  | nil => exact h
  | cons c gap ih =>
    obtain ⟨hc, hgap⟩ := List.forall_mem_cons.mp hgap
    refine .blank hc (ih hgap ?_)
    rwa [List.length_cons, Nat.add_comm gap.length, ← Nat.add_assoc] at h

/-- A legible token in front of something that separates. -/
theorem Laid.written {place : Nat} {t : Token} {ds : List Char} {us : List Token}
    (ht : t.Legible) (hds : Text.Separates ds) (h : Laid (place + t.written.length) ds us) :
    Laid place (t.written ++ ds) (t.moved place :: us) :=
  .token ((ht.spans hds).moved place) rfl h

/-- Tokens that are written with white space between them are laid out there. -/
theorem laid_of_spaced {ts : List Token} {cs : List Char} (h : Token.Spaced ts cs)
    (hts : ∀ t ∈ ts, t.Legible) (place : Nat) :
    ∃ us, Laid place cs us ∧
      List.Forall₂ (fun s t => s.same t = true) us (ts ++ [Token.endOfText 0]) := by
  induction h generalizing place with
  | nil => exact ⟨_, .done place, .cons rfl .nil⟩
  | single t =>
    have hlaid := Laid.written (hts t List.mem_cons_self) Text.separates_nil
      (.done (place + t.written.length))
    rw [List.append_nil] at hlaid
    exact ⟨_, hlaid, .cons (t.same_moved place) (.cons rfl .nil)⟩
  | @cons t u ts gap cs hne hgap _ ih =>
    obtain ⟨ht, hts⟩ := List.forall_mem_cons.mp hts
    obtain ⟨us, hlaid, hsame⟩ := ih hts (place + t.written.length + gap.length)
    obtain ⟨c, ds, rfl⟩ := List.exists_cons_of_ne_nil hne
    have hseparates := Text.separates_cons (hgap c List.mem_cons_self) (ds ++ cs)
    exact ⟨_, .written ht hseparates (.blanks hgap hlaid), .cons (t.same_moved place) hsame⟩

end Scanner

/-- **Scanning undoes writing.**  Tokens that can be written, with any white space between them, are
scanned back in form and text, and the end follows them. -/
theorem tokenize_spaced {ts : List Token} {text : String} (hts : ∀ t ∈ ts, t.Writable)
    (h : Token.Spaced ts text.toList) :
    ∃ tokens, tokenize text = .ok tokens ∧
      List.Forall₂ (fun s t => s.same t = true) tokens (ts ++ [Token.endOfText 0]) := by
  obtain ⟨tokens, hlaid, hsame⟩ :=
    Scanner.laid_of_spaced h (fun t ht => (hts t ht).legible) 0
  exact ⟨tokens, tokenize_ok_iff.mpr hlaid, hsame⟩

/-- A name that is spelled like a keyword, a sign that would go on with the next one, and a string
with a quote that ends with a backslash. -/
theorem tokenize_spaced_signs :
    let name : Token := ⟨.identifier, "set 'a'", 0⟩
    let less : Token := ⟨.operator, "<", 0⟩
    let equals : Token := ⟨.operator, "=", 0⟩
    let number : Token := ⟨.number, "1.", 0⟩
    let string : Token := ⟨.string, "it's\\", 0⟩
    let ts : List Token := [⟨.keyword, "seT", 0⟩, name, less, equals, number, string]
    let text := "seT\n\"set 'a'\" < \t= 1. 'it\\'s\\\\'"
    (∀ t ∈ ts, t.Writable) ∧ Token.Spaced ts text.toList ∧
      ∃ tokens, tokenize text = .ok tokens ∧
        List.Forall₂ (fun s t => s.same t = true) tokens (ts ++ [Token.endOfText 0]) := by
  intro name less equals number string ts text
  have hset : Keyword.SET.Spelled "seT".toList :=
    .cons (.inr (by decide)) (.cons (.inr (by decide)) (.cons (.inl rfl) .nil))
  have hname : '"' ∉ name.text.toList := by decide +kernel
  have hnumber : Token.IsDecimal number.text.toList := by
    have hchars : number.text.toList = ['1', '.'] := by decide +kernel
    rw [hchars]
    refine ⟨⟨'1', ['.'], rfl, rfl⟩, ?_, by decide⟩
    exact List.forall_mem_cons.mpr ⟨.inl rfl, List.forall_mem_singleton.mpr (.inr rfl)⟩
  have hless : (Sign.ofChars? less.text.toList).isSome = true := by decide +kernel
  have hequals : (Sign.ofChars? equals.text.toList).isSome = true := by decide +kernel
  have hts : ∀ t ∈ ts, t.Writable := by
    simp only [ts, List.forall_mem_cons]
    exact ⟨⟨.SET, hset⟩, hname, hless, hequals, hnumber, trivial, nofun⟩
  have htext : text.toList = "seT".toList ++ (['\n'] ++ (name.written ++ ([' '] ++ (less.written ++
      ([' ', '\t'] ++ (equals.written ++ ([' '] ++ (number.written ++ ([' '] ++
        string.written))))))))) := by
    decide +kernel
  have hspace : ∀ c ∈ [' '], Text.isBlank c = true := List.forall_mem_singleton.mpr (by decide)
  have hline : ∀ c ∈ ['\n'], Text.isBlank c = true := List.forall_mem_singleton.mpr (by decide)
  have htab : ∀ c ∈ [' ', '\t'], Text.isBlank c = true :=
    List.forall_mem_cons.mpr ⟨by decide, List.forall_mem_singleton.mpr (by decide)⟩
  have hspaced : Token.Spaced ts text.toList := by
    rw [htext]
    refine .cons (List.cons_ne_nil _ _) hline (.cons (List.cons_ne_nil _ _) hspace ?_)
    refine .cons (List.cons_ne_nil _ _) htab (.cons (List.cons_ne_nil _ _) hspace ?_)
    exact .cons (List.cons_ne_nil _ _) hspace (.single string)
  exact ⟨hts, hspaced, tokenize_spaced hts hspaced⟩

end QueryPipeline
