import QueryPipeline.Cursor
import QueryPipeline.Problem
import QueryPipeline.Proofs.Json.Shape
import QueryPipeline.Token.Scanner

/-!
# Messages stay on one line

A text is `Shown` when all its characters are printable.  No line break is, so such a text is one
line.  Texts of a query reach a message only between quotes, where what is not printable is written
as an escape (`shown_quoted`).  What else a message is made of are fixed words and numbers.  Hence
every token and every value is shown by `inspect`, and so is what stands around it in a message.
-/

namespace QueryPipeline

namespace Text

/-- All of some characters are printable. -/
def ArePrintable (cs : List Char) : Prop :=
  ∀ c ∈ cs, isPrintable c = true

/-- All characters of a text are printable. -/
def Shown (s : String) : Prop :=
  ArePrintable s.toList

/-- The characters at which a text is cut into lines. -/
def lineBreaks : List Char :=
  [0x0a, 0x0b, 0x0c, 0x0d, 0x1c, 0x1d, 0x1e, 0x85, 0x2028, 0x2029].map Char.ofNat

theorem not_lineBreak_of_isPrintable {c : Char} (h : isPrintable c = true) : c ∉ lineBreaks := by
  intro hc
  have hbreaks : lineBreaks.all (fun b => !isPrintable b) = true := by decide +kernel
  have hnot := List.all_eq_true.1 hbreaks c hc
  rw [h] at hnot
  cases hnot

/-! ## Texts -/

theorem ArePrintable.nil : ArePrintable [] :=
  List.forall_mem_nil _

theorem ArePrintable.append {cs ds : List Char} (hcs : ArePrintable cs) (hds : ArePrintable ds) :
    ArePrintable (cs ++ ds) :=
  List.forall_mem_append.2 ⟨hcs, hds⟩

theorem ArePrintable.cons {c : Char} {cs : List Char} (hc : isPrintable c = true)
    (hcs : ArePrintable cs) : ArePrintable (c :: cs) :=
  List.forall_mem_cons.2 ⟨hc, hcs⟩

theorem ArePrintable.subset {cs ds : List Char} (hds : ArePrintable ds) (h : cs ⊆ ds) :
    ArePrintable cs :=
  fun c hc => hds c (h hc)

theorem arePrintable_replicate {c : Char} (hc : isPrintable c = true) (n : Nat) :
    ArePrintable (List.replicate n c) := by
  intro d hd
  rw [List.eq_of_mem_replicate hd]
  exact hc

theorem Shown.append {s t : String} (hs : Shown s) (ht : Shown t) : Shown (s ++ t) := by
  rw [Shown, String.toList_append]
  exact ArePrintable.append hs ht

theorem shown_ofList {cs : List Char} (h : ArePrintable cs) : Shown (String.ofList cs) := by
  rwa [Shown, String.toList_ofList]

def isAscii (c : Char) : Bool :=
  decide (0x20 ≤ c.toNat) && decide (c.toNat < 0x7f)

theorem isPrintable_of_isAscii {c : Char} (h : isAscii c = true) : isPrintable c = true := by
  rw [isAscii, Bool.and_eq_true, decide_eq_true_iff, decide_eq_true_iff] at h
  have hall : (unprintableRanges.all fun r => Nat.blt r.2 0x20 || Nat.ble 0x7f r.1) = true := by
    decide +kernel
  rw [isPrintable, Bool.not_eq_true', ← Bool.not_eq_true]
  intro hc
  obtain ⟨r, hr, hlow, hhigh⟩ := exists_of_inRanges hc
  have hout := List.all_eq_true.1 hall r hr
  simp only [Bool.or_eq_true, Nat.blt_eq, Nat.ble_eq] at hout
  omega

theorem shown_of_isAscii {s : String} (h : s.toList.all isAscii = true) : Shown s :=
  fun c hc => isPrintable_of_isAscii (List.all_eq_true.1 h c hc)

/-- The fixed words of messages are shown.  A text between quotes is taken for the list of its
characters, which is faster than to compute that list. -/
theorem shown_words {cs : List Char} (h : cs.all isAscii = true) : Shown (String.ofList cs) :=
  shown_of_isAscii (by rwa [String.toList_ofList])

theorem isPrintable_digitChar : ∀ {k : Nat}, k < 16 → isPrintable k.digitChar = true := by
  decide

theorem arePrintable_decimal (n : Nat) : ArePrintable (decimal n) := by
  intro c hc
  obtain ⟨k, hk, rfl⟩ := mem_toDigits (by decide) hc
  exact isPrintable_digitChar (by omega)

theorem arePrintable_hexadecimal (width n : Nat) : ArePrintable (hexadecimal width n) := by
  intro c hc
  obtain ⟨k, hk, rfl⟩ := mem_hexadecimal hc
  exact isPrintable_digitChar hk

theorem shown_natText (n : Nat) : Shown (natText n) :=
  shown_ofList (arePrintable_decimal n)

theorem shown_intText (i : Int) : Shown (intText i) := by
  refine shown_ofList ?_
  cases i with
  | ofNat n => exact arePrintable_decimal n
  | negSucc n => exact .cons (by decide) (arePrintable_decimal (n + 1))

/-! ## Quoted texts -/

theorem arePrintable_codeEscape (c : Char) : ArePrintable (codeEscape c) := by
  rw [codeEscape]
  split
  · exact .cons (by decide) (.cons (by decide) (arePrintable_hexadecimal 2 _))
  · split
    · exact .cons (by decide) (.cons (by decide) (arePrintable_hexadecimal 4 _))
    · exact .cons (by decide) (.cons (by decide) (arePrintable_hexadecimal 8 _))

theorem isPrintable_quoteMark (cs : List Char) : isPrintable (quoteMark cs) = true := by
  rw [quoteMark]
  split <;> decide

theorem arePrintable_quoteChar {mark : Char} (hmark : isPrintable mark = true) (c : Char) :
    ArePrintable (quoteChar mark c) := by
  rw [quoteChar]
  split
  next hc =>
    refine .cons (by decide) (.cons ?_ .nil)
    rcases hc with rfl | rfl
    · exact hmark
    · decide
  split
  · exact .cons (by decide) (.cons (by decide) .nil)
  split
  · exact .cons (by decide) (.cons (by decide) .nil)
  split
  · exact .cons (by decide) (.cons (by decide) .nil)
  split
  next hc => exact .cons hc .nil
  · exact arePrintable_codeEscape c

/-- **A quoted text is shown**, whatever the text is. -/
theorem shown_quoted (s : String) : Shown (quoted s) := by
  have hmark := isPrintable_quoteMark s.toList
  refine shown_ofList (.cons hmark (.append ?_ (.cons hmark .nil)))
  intro c hc
  obtain ⟨d, _, hd⟩ := List.mem_flatMap.1 hc
  exact arePrintable_quoteChar hmark d c hd

end Text

open Text

/-! ## Numbers -/

namespace Binary64

theorem arePrintable_exponentText (width : Nat) (e : Int) :
    ArePrintable (exponentText width e) := by
  refine .cons ?_ (.append (arePrintable_replicate (by decide) _) (arePrintable_decimal _))
  split <;> decide

theorem arePrintable_arrange (l : Layout) {digits : List Char} (h : ArePrintable digits)
    (point : Int) : ArePrintable (arrange l digits point) := by
  have htake : ∀ n, ArePrintable (digits.take n) := fun n => h.subset (List.take_subset n digits)
  have hdrop : ∀ n, ArePrintable (digits.drop n) := fun n => h.subset (List.drop_subset n digits)
  have hzeros : ∀ n, ArePrintable (List.replicate n '0') := arePrintable_replicate (by decide)
  have hpoint : isPrintable '.' = true := by decide
  rw [arrange]
  split
  · split
    · exact .cons (by decide) (.cons hpoint ((hzeros _).append h))
    · split
      · exact (h.append (hzeros _)).append (.cons hpoint (.cons (by decide) .nil))
      · exact (htake _).append (.cons hpoint (hdrop _))
  · refine ((htake 1).append ?_).append (.cons (by decide) (arePrintable_exponentText _ _))
    split
    · exact .nil
    · exact .cons hpoint (hdrop 1)

theorem arePrintable_dropTrailingZeros {digits : List Char} (h : ArePrintable digits) :
    ArePrintable (dropTrailingZeros digits) := by
  refine h.subset fun c hc => ?_
  rw [dropTrailingZeros, List.mem_reverse] at hc
  exact List.mem_reverse.1 ((List.dropWhile_sublist _).subset hc)

theorem shown_text (x : Binary64) : Shown x.text := by
  refine shown_ofList ?_
  have hbody : ArePrintable (if x.isZero then ['0', '.', '0'] else
      arrange layout (dropTrailingZeros (Text.decimal x.shortest.1))
        ((Text.decimal x.shortest.1).length + x.shortest.2)) := by
    split
    · exact .cons (by decide) (.cons (by decide) (.cons (by decide) .nil))
    · exact arePrintable_arrange layout (arePrintable_dropTrailingZeros (arePrintable_decimal _)) _
  rw [chars]
  dsimp only
  split
  · exact .cons (by decide) hbody
  · exact hbody

end Binary64

/-! ## Tokens and values -/

theorem Token.shown_inspect (t : Token) : Shown t.inspect := by
  have hname : Shown t.form.name := by
    cases t.form <;> exact shown_of_isAscii (by decide +kernel)
  have htext : Shown (if t.form = .eof then "None" else quoted t.text) := by
    split
    · exact shown_words (by rfl)
    · exact shown_quoted t.text
  exact ((hname.append (shown_words (by rfl))).append htext).append (shown_words (by rfl))

theorem shown_joinWith {separator : String} (h : Shown separator) : ∀ {ss : List String},
    (∀ s ∈ ss, Shown s) → Shown (joinWith separator ss)
  | [], _ => (shown_words (by rfl) : Shown "")
  | [s], hss => hss s (List.mem_singleton.2 rfl)
  | s :: t :: rest, hss => by
    obtain ⟨hs, hrest⟩ := List.forall_mem_cons.1 hss
    exact (hs.append h).append (shown_joinWith h hrest)

theorem Shape.shown_fields (shape : Shape) : ∀ name ∈ shape.fields, Shown name := by
  have hfields : ∀ name ∈ shape.fields, name.toList.all isAscii = true := by
    cases shape <;> decide +kernel
  exact fun name hname => shown_of_isAscii (hfields name hname)

theorem Shape.shown_name (shape : Shape) : Shown shape.name := by
  cases shape <;> exact shown_of_isAscii (by decide +kernel)

namespace Value

/-- Texts with commas between them, and something in front and behind. -/
theorem shown_list {opening closing : String} (hopening : Shown opening) (hclosing : Shown closing)
    {ss : List String} (hss : ∀ s ∈ ss, Shown s) : Shown (opening ++ joinWith ", " ss ++ closing) :=
  (hopening.append (shown_joinWith (shown_words (by rfl)) hss)).append hclosing

theorem shown_tupleText {ss : List String} (hss : ∀ s ∈ ss, Shown s) : Shown (tupleText ss) := by
  unfold tupleText
  split
  next s =>
    have hs := hss s (List.mem_singleton.2 rfl)
    exact (Shown.append (shown_words (by rfl)) hs).append (shown_words (by rfl))
  · exact shown_list (shown_words (by rfl)) (shown_words (by rfl)) hss

mutual

/-- **A value is shown by `inspect`.** -/
theorem shown_inspect : ∀ v : Value, Shown v.inspect
  | .null => shown_words (by rfl)
  | .bool true => shown_words (by rfl)
  | .bool false => shown_words (by rfl)
  | .int i => shown_intText i
  | .real x => x.shown_text
  | .str s => shown_quoted s
  | .arr items =>
    shown_list (shown_words (by rfl)) (shown_words (by rfl)) (shown_inspectItems items)
  | .obj fields =>
    shown_list (shown_words (by rfl)) (shown_words (by rfl)) (shown_inspectFields fields)
  | .tuple items => shown_tupleText (shown_inspectItems items)
  | .token t => t.shown_inspect
  | .node shape fields =>
    shown_list (shape.shown_name.append (shown_words (by rfl))) (shown_words (by rfl))
      (shown_inspectParts shape.shown_fields fields)

theorem shown_inspectItems : ∀ vs : List Value, ∀ s ∈ inspectItems vs, Shown s
  | [] => List.forall_mem_nil _
  | v :: rest => List.forall_mem_cons.2 ⟨shown_inspect v, shown_inspectItems rest⟩

theorem shown_inspectFields : ∀ fields : List (String × Value), ∀ s ∈ inspectFields fields, Shown s
  | [] => List.forall_mem_nil _
  | (k, v) :: rest => by
    have hfield : Shown (quoted k ++ ": " ++ inspect v) :=
      ((shown_quoted k).append (shown_words (by rfl))).append (shown_inspect v)
    exact List.forall_mem_cons.2 ⟨hfield, shown_inspectFields rest⟩

theorem shown_inspectParts : ∀ {names : List String}, (∀ name ∈ names, Shown name) →
    ∀ vs : List Value, ∀ s ∈ inspectParts names vs, Shown s
  | [], _, _ => by simp [inspectParts]
  | _ :: _, _, [] => by simp [inspectParts]
  | name :: names, hnames, v :: rest => by
    obtain ⟨hname, hnames⟩ := List.forall_mem_cons.1 hnames
    have hrest := shown_inspectParts hnames rest
    rw [inspectParts]
    split
    · have hpart : Shown (name ++ "=" ++ inspect v) :=
        (hname.append (shown_words (by rfl))).append (shown_inspect v)
      exact List.forall_mem_cons.2 ⟨hpart, hrest⟩
    · exact hrest

end

end Value

/-! ## Messages -/

/-- The place of an error at the end of its message. -/
theorem Text.Shown.place {s : String} (h : Shown s) (p : Int) :
    Shown (s ++ " at position " ++ intText p) :=
  (h.append (shown_words (by rfl))).append (shown_intText p)

theorem LexError.shown_message (e : LexError) : Shown e.message := by
  cases e with
  | unexpectedCharacter c p =>
    exact (Shown.append (shown_words (by rfl)) (shown_quoted c.toString)).place p
  | unterminated q p =>
    refine Shown.place (Shown.append (shown_words (by rfl)) ?_) p
    split <;> exact shown_words (by rfl)
  | unknownOperator o p =>
    exact (Shown.append (shown_words (by rfl)) (shown_quoted o)).place p

theorem ParseError.shown_unexpected (site : Site) (t : Token) {expected : Option Expected}
    (h : ∀ x ∈ expected, Shown x.name) : Shown (unexpected site t expected).message := by
  cases expected with
  | none => exact (Shown.append (shown_words (by rfl)) t.shown_inspect).place t.position
  | some x =>
    have hx : Shown ("Expected " ++ x.name) := Shown.append (shown_words (by rfl)) (h x rfl)
    exact ((hx.append (shown_words (by rfl))).append t.shown_inspect).place t.position

theorem ParseError.shown_statementStart (t : Token) : Shown (statementStart t).message :=
  (Shown.append (shown_words (by rfl)) t.shown_inspect).place t.position

namespace Problem

/-- The values in the message of a problem are shown by `inspect`. -/
def inspects : Problem → Bool
  | notAStatement _ => false
  | noSource _ => false
  | _ => true

theorem shown_text {p : Problem} (h : p.inspects = true) : Shown p.text := by
  cases p with
  | configNotAMap | sinkNotAMap | membershipSubject => exact shown_of_isAscii (by decide +kernel)
  | missingOperand connective =>
    refine Shown.append ?_ (shown_words (by rfl))
    cases connective <;> exact shown_of_isAscii (by decide +kernel)
  | statementCount count => exact Shown.append (shown_words (by rfl)) (shown_natText count)
  | batchSize v | tableName v | columnsNotAList v | columnAlias v | membershipValues v =>
    exact Shown.append (shown_words (by rfl)) v.shown_inspect
  | unsupportedCondition v | unsupportedValue v | missingName _ v =>
    exact Shown.append (shown_words (by rfl)) v.shown_inspect
  | computedColumn v =>
    exact (Shown.append (shown_words (by rfl)) v.shown_inspect).append (shown_words (by rfl))
  | comparisonOperands name | comparisonColumn name =>
    exact (Shown.append (shown_words (by rfl)) (shown_quoted name)).append (shown_words (by rfl))
  | notAStatement | noSource => cases h

theorem shown_message {p : Problem} (h : Shown p.text) : Shown p.message := by
  have hpart : Shown p.part.name := by
    cases p.part <;> exact shown_of_isAscii (by decide +kernel)
  exact (hpart.append (shown_words (by rfl))).append h

end Problem
end QueryPipeline
