import QueryPipeline.Proofs.Json.Number
import QueryPipeline.Proofs.Json.Shape

/-!
# Written values are read back

A value is read back from its text, whether that is on one line or indented, and its objects keep
the order of their fields:

    readValue n (writeChars style level v ++ rest) = ok (v, rest)

The budget `n` is enough if it is as large as the text, since each bracket costs at most one step
for a list and one for each of its items.  What follows must not go on with a number (`Ends`).
-/

namespace QueryPipeline.Json

/-! ## Blanks -/

theorem skipBlanks_cons {c : Char} (h : isJsonBlank c = false) (cs : List Char) :
    skipBlanks (c :: cs) = c :: cs := by
  rw [skipBlanks, List.dropWhile_cons_of_neg (by simp [h])]

theorem skipBlanks_append {blanks : List Char} (h : ∀ c ∈ blanks, isJsonBlank c = true)
    (cs : List Char) : skipBlanks (blanks ++ cs) = skipBlanks cs := by
  rw [skipBlanks, List.dropWhile_append, List.dropWhile_eq_nil_iff.2 h]
  rfl

theorem isBlank_lineBreak (style : Style) (level : Nat) :
    ∀ c ∈ style.lineBreak level, isJsonBlank c = true := by
  rw [Style.lineBreak]
  split
  · exact List.forall_mem_nil _
  · refine List.forall_mem_cons.2 ⟨rfl, fun c hc => ?_⟩
    rw [List.eq_of_mem_replicate hc]
    rfl

/-- A separator is a comma and blanks. -/
theorem separator_eq (style : Style) (level : Nat) :
    ∃ blanks, style.separator level = ',' :: blanks ∧ ∀ c ∈ blanks, isJsonBlank c = true := by
  rw [Style.separator]
  split
  · exact ⟨[' '], rfl, List.forall_mem_singleton.2 rfl⟩
  · exact ⟨style.lineBreak level, rfl, isBlank_lineBreak style level⟩

/-! ## How a value begins -/

/-- How a value may begin: not with a blank, a closing bracket or a byte order mark. -/
def Begins (cs : List Char) : Prop :=
  ∃ c rest, cs = c :: rest ∧ isJsonBlank c = false ∧ c ≠ ']' ∧ c ≠ Char.ofNat 0xfeff

theorem Begins.append {cs : List Char} (h : Begins cs) (ds : List Char) : Begins (cs ++ ds) := by
  obtain ⟨c, rest, rfl, hc⟩ := h
  exact ⟨c, rest ++ ds, rfl, hc⟩

theorem Begins.skipBlanks {cs : List Char} (h : Begins cs) : skipBlanks cs = cs := by
  obtain ⟨c, rest, rfl, hc, _⟩ := h
  exact skipBlanks_cons hc rest

theorem ends_nil : Ends [] :=
  nofun

/-- A text that is read as a number begins like a value. -/
theorem begins_of_readNumber {cs : List Char} {r : Value × List Char} (h : readNumber cs = .ok r) :
    Begins cs := by
  obtain ⟨c, rest, rfl, hlo, hhi⟩ := cons_of_readNumber h
  refine ⟨c, rest, rfl, ?_, ?_, ?_⟩
  · rw [← Bool.not_eq_true]
    intro hblank
    simp only [isJsonBlank, Bool.or_eq_true, beq_iff_eq] at hblank
    rcases hblank with ((rfl | rfl) | rfl) | rfl <;> exact absurd hlo (by decide)
  · rintro rfl
    exact absurd hhi (by decide)
  · rintro rfl
    exact absurd hhi (by decide)

theorem begins_writeChars (style : Style) (level : Nat) {v : Value} (h : v.IsJson) :
    Begins (writeChars style level v) := by
  cases h with
  | scalar h =>
    cases h with
    | real h =>
      have hread := readNumber_chars h ends_nil
      rw [List.append_nil] at hread
      exact begins_of_readNumber hread
    | whole h =>
      cases h with
      | null => exact ⟨_, _, rfl, by decide⟩
      | bool b => cases b <;> exact ⟨_, _, rfl, by decide⟩
      | int h =>
        have hread := readNumber_signedDecimal h ends_nil
        rw [List.append_nil] at hread
        exact begins_of_readNumber hread
      | str s => exact ⟨_, _, rfl, by decide⟩
  | @arr items _ => cases items <;> exact ⟨_, _, rfl, by decide⟩
  | @obj fields _ _ => cases fields <;> exact ⟨_, _, rfl, by decide⟩

/-! ## Steps of the reader -/

section Steps

variable {n : Nat} {cs rest more left : List Char} {v : Value} {key : String}

theorem readItems_last (hv : readValue n cs = .ok (v, rest)) (hskip : skipBlanks rest = ']' :: left) :
    readItems (n + 1) cs = .ok ([v], left) := by
  simp [readItems, hv, hskip, bind, Except.bind, pure, Except.pure]

theorem readItems_more {items : List Value} (hv : readValue n cs = .ok (v, rest))
    (hskip : skipBlanks rest = ',' :: more)
    (hitems : readItems n (skipBlanks more) = .ok (items, left)) :
    readItems (n + 1) cs = .ok (v :: items, left) := by
  simp [readItems, hv, hskip, hitems, bind, Except.bind, pure, Except.pure]

theorem readValue_list {items : List Value} (hcs : Begins (skipBlanks cs))
    (hitems : readItems n (skipBlanks cs) = .ok (items, left)) :
    readValue (n + 1) ('[' :: cs) = .ok (.arr items, left) := by
  obtain ⟨c, body, hbody, _, hc, _⟩ := hcs
  rw [hbody] at hitems
  simp [readValue, hbody, hc, hitems, bind, Except.bind, pure, Except.pure]

/-- A field with its name and value is read off. -/
def ReadsField (n : Nat) (cs : List Char) (key : String) (v : Value) (rest : List Char) : Prop :=
  ∃ body behind value, cs = '"' :: body ∧ readString body = .ok (key, behind) ∧
    skipBlanks behind = ':' :: value ∧ readValue n (skipBlanks value) = .ok (v, rest)

theorem readFields_last (hfield : ReadsField n cs key v rest)
    (hskip : skipBlanks rest = '\x7d' :: left) : readFields (n + 1) cs = .ok ([(key, v)], left) := by
  obtain ⟨body, behind, value, rfl, hkey, hcolon, hv⟩ := hfield
  simp [readFields, hkey, hcolon, hv, hskip, bind, Except.bind, pure, Except.pure]

theorem readFields_more {fields : List (String × Value)} (hfield : ReadsField n cs key v rest)
    (hskip : skipBlanks rest = ',' :: more)
    (hfields : readFields n (skipBlanks more) = .ok (fields, left)) :
    readFields (n + 1) cs = .ok ((key, v) :: fields, left) := by
  obtain ⟨body, behind, value, rfl, hkey, hcolon, hv⟩ := hfield
  simp [readFields, hkey, hcolon, hv, hskip, hfields, bind, Except.bind, pure, Except.pure]

theorem readValue_object {fields : List (String × Value)} {body : List Char}
    (hbody : skipBlanks cs = '"' :: body) (hfields : readFields n ('"' :: body) = .ok (fields, left)) :
    readValue (n + 1) ('\x7b' :: cs) = .ok (.obj (Value.override [] fields), left) := by
  simp [readValue, hbody, hfields, bind, Except.bind, pure, Except.pure]

end Steps

/-! ## Lists and objects -/

/-- A value is read back, whatever follows it. -/
def ReadsBack (style : Style) (v : Value) : Prop :=
  ∀ (level n : Nat) (rest : List Char), (writeChars style level v).length ≤ n → Ends rest →
    readValue n (writeChars style level v ++ rest) = .ok (v, rest)

theorem ends_comma (cs : List Char) : Ends (',' :: cs) := by
  rintro c ⟨⟩
  exact .inl rfl

theorem ends_lineBreak (style : Style) (level : Nat) {cs : List Char} (h : Ends cs) :
    Ends (style.lineBreak level ++ cs) := by
  rw [Style.lineBreak]
  split
  · exact h
  · rintro c ⟨⟩
    simp

theorem readItems_written {style : Style} {items : List Value}
    (h : ∀ w ∈ items, ReadsBack style w ∧ w.IsJson) :
    ∀ {v : Value}, ReadsBack style v → ∀ (level outer n : Nat) (left : List Char),
      (writeChars style level v).length + (writeItems style level items).length < n →
      readItems n (writeChars style level v ++ (writeItems style level items ++
        (style.lineBreak outer ++ ']' :: left))) = .ok (v :: items, left) := by
  induction items with
  | nil =>
    intro v hv level outer n left hn
    obtain ⟨m, rfl⟩ : ∃ m, n = m + 1 := ⟨n - 1, by omega⟩
    have hend : Ends (style.lineBreak outer ++ ']' :: left) :=
      ends_lineBreak style outer (by rintro c ⟨⟩; simp)
    rw [writeItems, List.nil_append]
    refine readItems_last (hv level m _ (by omega) hend) ?_
    rw [skipBlanks_append (isBlank_lineBreak style outer)]
    rfl
  | cons w rest ih =>
    intro v hv level outer n left hn
    obtain ⟨m, rfl⟩ : ∃ m, n = m + 1 := ⟨n - 1, by omega⟩
    obtain ⟨⟨hw, hjson⟩, hrest⟩ := List.forall_mem_cons.1 h
    obtain ⟨blanks, hseparator, hblanks⟩ := separator_eq style level
    rw [writeItems, hseparator] at hn ⊢
    simp only [List.cons_append, List.append_assoc, List.length_cons, List.length_append] at hn ⊢
    refine readItems_more (hv level m _ (by omega) (ends_comma _)) rfl ?_
    rw [skipBlanks_append hblanks, ((begins_writeChars style level hjson).append _).skipBlanks]
    exact ih hrest hw level outer m left (by omega)

theorem readsField_written {style : Style} {v : Value} (hv : ReadsBack style v)
    (hjson : v.IsJson) (key : String) {level n : Nat} {rest : List Char}
    (hn : (writeChars style level v).length ≤ n) (hrest : Ends rest) :
    ReadsField n (stringChars style.ascii key.toList ++
      (':' :: ' ' :: (writeChars style level v ++ rest))) key v rest := by
  refine ⟨key.toList.flatMap (writeChar style.ascii) ++
      '"' :: ':' :: ' ' :: (writeChars style level v ++ rest),
    ':' :: ' ' :: (writeChars style level v ++ rest), ' ' :: (writeChars style level v ++ rest),
    ?_, ?_, rfl, ?_⟩
  · simp [stringChars]
  · rw [readString_written, String.ofList_toList]
  · have hskip : skipBlanks (' ' :: (writeChars style level v ++ rest)) =
        writeChars style level v ++ rest :=
      ((begins_writeChars style level hjson).append rest).skipBlanks
    rw [hskip]
    exact hv level n rest hn hrest

theorem readFields_written {style : Style} {fields : List (String × Value)}
    (h : ∀ f ∈ fields, ReadsBack style f.2 ∧ f.2.IsJson) :
    ∀ {v : Value}, ReadsBack style v → v.IsJson →
    ∀ (key : String) (level outer n : Nat) (left : List Char),
      (writeChars style level v).length + (writeFields style level fields).length < n →
      readFields n (stringChars style.ascii key.toList ++ (':' :: ' ' ::
        (writeChars style level v ++ (writeFields style level fields ++
        (style.lineBreak outer ++ '\x7d' :: left))))) = .ok ((key, v) :: fields, left) := by
  induction fields with
  | nil =>
    intro v hv hjson key level outer n left hn
    obtain ⟨m, rfl⟩ : ∃ m, n = m + 1 := ⟨n - 1, by omega⟩
    have hend : Ends (style.lineBreak outer ++ '\x7d' :: left) :=
      ends_lineBreak style outer (by rintro c ⟨⟩; simp)
    rw [writeFields, List.nil_append]
    refine readFields_last (readsField_written hv hjson key (by omega) hend) ?_
    rw [skipBlanks_append (isBlank_lineBreak style outer)]
    rfl
  | cons f rest ih =>
    intro v hv hjson key level outer n left hn
    obtain ⟨m, rfl⟩ : ∃ m, n = m + 1 := ⟨n - 1, by omega⟩
    obtain ⟨next, w⟩ := f
    obtain ⟨⟨hw, hwjson⟩, hrest⟩ := List.forall_mem_cons.1 h
    obtain ⟨blanks, hseparator, hblanks⟩ := separator_eq style level
    rw [writeFields, hseparator] at hn ⊢
    simp only [List.cons_append, List.nil_append, List.append_assoc, List.length_cons,
      List.length_append] at hn ⊢
    refine readFields_more (readsField_written hv hjson key (by omega) (ends_comma _)) rfl ?_
    rw [skipBlanks_append hblanks]
    exact ih hrest (v := w) hw hwjson next level outer m left (by omega)

/-! ## Values -/

/-- Fields with different names are put down one behind the other. -/
theorem override_eq_append {base extra : List (String × Value)}
    (h : ((base ++ extra).map Prod.fst).Nodup) : Value.override base extra = base ++ extra := by
  have hput : ∀ (fields : List (String × Value)) (key : String) (v : Value),
      key ∉ fields.map Prod.fst → Value.put key v fields = fields ++ [(key, v)] := by
    intro fields key v hkey
    induction fields with
    | nil => rfl
    | cons f rest ih =>
      obtain ⟨name, w⟩ := f
      rw [List.map_cons, List.mem_cons, not_or] at hkey
      rw [Value.put, if_neg (Ne.symm hkey.1), ih hkey.2]
      rfl
  induction extra generalizing base with
  | nil => exact (List.append_nil base).symm
  | cons f rest ih =>
    have hkey : f.1 ∉ base.map Prod.fst := by
      intro hmem
      rw [List.map_append, List.nodup_append] at h
      exact h.2.2 _ hmem _ (List.mem_map_of_mem List.mem_cons_self) rfl
    have hstep : Value.override base (f :: rest) = Value.override (base ++ [f]) rest := by
      rw [Value.override, List.foldl_cons, hput base f.1 f.2 hkey]
      rfl
    rw [hstep, ih (by simpa using h), List.append_assoc, List.singleton_append]

theorem override_nil {fields : List (String × Value)} (h : (fields.map Prod.fst).Nodup) :
    Value.override [] fields = fields :=
  override_eq_append h

theorem readsBack_scalar (style : Style) {v : Value} (h : v.IsScalar) : ReadsBack style v := by
  intro level n rest hn hrest
  obtain ⟨c, body, hbody, _⟩ := begins_writeChars style level (.scalar h)
  obtain ⟨m, rfl⟩ : ∃ m, n = m + 1 := by
    rw [hbody, List.length_cons] at hn
    exact ⟨n - 1, by omega⟩
  cases h with
  | real h => exact readValue_of_readNumber m (readNumber_chars h hrest)
  | whole h =>
    cases h with
    | null => rfl
    | bool b => cases b <;> rfl
    | int h => exact readValue_of_readNumber m (readNumber_signedDecimal h hrest)
    | str s =>
      rw [writeChars, stringChars, List.cons_append, List.append_assoc, List.singleton_append,
        readValue_string, String.ofList_toList]

theorem readsBack_arr {style : Style} {items : List Value}
    (h : ∀ v ∈ items, ReadsBack style v ∧ v.IsJson) : ReadsBack style (.arr items) := by
  intro level n rest hn _
  cases items with
  | nil =>
    obtain ⟨m, rfl⟩ : ∃ m, n = m + 1 := ⟨n - 1, by simp [writeChars] at hn; omega⟩
    rfl
  | cons w more =>
    rw [writeChars] at hn ⊢
    simp only [List.length_cons, List.length_append, List.cons_append, List.nil_append,
      List.append_assoc] at hn ⊢
    obtain ⟨m, rfl⟩ : ∃ m, n = m + 1 := ⟨n - 1, by omega⟩
    obtain ⟨⟨hw, hjson⟩, hmore⟩ := List.forall_mem_cons.1 h
    have hbegins := (begins_writeChars style (level + 1) hjson).append
      (writeItems style (level + 1) more ++ (style.lineBreak level ++ ']' :: rest))
    have hskip := (skipBlanks_append (isBlank_lineBreak style (level + 1)) _).trans
      hbegins.skipBlanks
    refine readValue_list ?_ ?_
    · rw [hskip]
      exact hbegins
    · rw [hskip]
      exact readItems_written hmore hw (level + 1) level m rest (by omega)

theorem readsBack_obj {style : Style} {fields : List (String × Value)}
    (hnodup : (fields.map Prod.fst).Nodup) (h : ∀ f ∈ fields, ReadsBack style f.2 ∧ f.2.IsJson) :
    ReadsBack style (.obj fields) := by
  intro level n rest hn _
  cases fields with
  | nil =>
    obtain ⟨m, rfl⟩ : ∃ m, n = m + 1 := ⟨n - 1, by simp [writeChars] at hn; omega⟩
    rfl
  | cons f more =>
    obtain ⟨key, w⟩ := f
    rw [writeChars] at hn ⊢
    simp only [List.length_cons, List.length_append, List.cons_append, List.nil_append,
      List.append_assoc] at hn ⊢
    obtain ⟨m, rfl⟩ : ∃ m, n = m + 1 := ⟨n - 1, by omega⟩
    obtain ⟨⟨hw, hjson⟩, hmore⟩ := List.forall_mem_cons.1 h
    have hread := readFields_written hmore (v := w) hw hjson key (level + 1) level m rest
      (by omega)
    -- the fields that were read are put together, and no name occurs twice
    rw [← override_nil hnodup]
    exact readValue_object (skipBlanks_append (isBlank_lineBreak style (level + 1)) _) hread

/-- **A written value is read back.** -/
theorem readsBack_json (style : Style) {v : Value} (h : v.IsJson) : ReadsBack style v := by
  induction h with
  | scalar h => exact readsBack_scalar style h
  | arr hitems ih => exact readsBack_arr fun v hv => ⟨ih v hv, hitems v hv⟩
  | obj hnodup hfields ih => exact readsBack_obj hnodup fun f hf => ⟨ih f hf, hfields f hf⟩

/-- A text that holds a written value and a line feed behind it. -/
theorem read_written (style : Style) {v : Value} (h : v.IsJson) :
    read (write style v ++ "\n") = .ok v := by
  have hchars : (write style v ++ "\n").toList = writeChars style 0 v ++ ['\n'] := by
    rw [String.toList_append, write, String.toList_ofList]
    rfl
  have hbegins := (begins_writeChars style 0 h).append ['\n']
  have hend : Ends ['\n'] := by
    rintro c ⟨⟩
    simp
  have hmark : (writeChars style 0 v ++ ['\n']).head? ≠ some (Char.ofNat 0xfeff) := by
    obtain ⟨c, rest, hcs, _, _, hc⟩ := hbegins
    rw [hcs, List.head?_cons]
    exact fun heq => hc (Option.some.inj heq)
  have hvalue := readsBack_json style h 0 (2 * (writeChars style 0 v ++ ['\n']).length + 2) ['\n']
    (by rw [List.length_append]; omega) hend
  rw [read, hchars, readChars, if_neg hmark, hbegins.skipBlanks, hvalue]
  rfl

/-! ## Line ends -/

theorem return_notMem_lineBreak (style : Style) (level : Nat) : '\r' ∉ style.lineBreak level := by
  rw [Style.lineBreak]
  split
  · exact List.not_mem_nil
  · simp

theorem return_notMem_separator (style : Style) (level : Nat) : '\r' ∉ style.separator level := by
  rw [Style.separator]
  split
  · decide
  · simp [return_notMem_lineBreak]

theorem return_notMem_stringChars (ascii : Bool) (cs : List Char) :
    '\r' ∉ stringChars ascii cs := by
  have hbody : '\r' ∉ cs.flatMap (writeChar ascii) := by
    intro hmem
    exact absurd ((Escaped.flatMap (escaped_writeChar ascii) cs).not_control _ hmem) (by decide)
  simp [stringChars, hbody]

theorem return_notMem_signedDecimal (i : Int) : '\r' ∉ Text.signedDecimal i := by
  have hdecimal : ∀ n, '\r' ∉ Text.decimal n :=
    fun n hmem => absurd ((Integer.areDigits_decimal n).2 _ hmem) (by decide)
  cases i with
  | ofNat n => exact hdecimal n
  | negSucc n => simp [Text.signedDecimal, hdecimal]

theorem return_notMem_writeItems {style : Style} {items : List Value}
    (h : ∀ v ∈ items, ∀ level, '\r' ∉ writeChars style level v) (level : Nat) :
    '\r' ∉ writeItems style level items := by
  induction items with
  | nil => exact List.not_mem_nil
  | cons v rest ih =>
    obtain ⟨hv, hrest⟩ := List.forall_mem_cons.1 h
    simp [writeItems, return_notMem_separator, hv, ih hrest]

theorem return_notMem_writeFields {style : Style} {fields : List (String × Value)}
    (h : ∀ f ∈ fields, ∀ level, '\r' ∉ writeChars style level f.2) (level : Nat) :
    '\r' ∉ writeFields style level fields := by
  induction fields with
  | nil => exact List.not_mem_nil
  | cons f rest ih =>
    obtain ⟨hf, hrest⟩ := List.forall_mem_cons.1 h
    simp [writeFields, return_notMem_separator, return_notMem_stringChars, hf, ih hrest]

/-- No line of a written value ends with a carriage return. -/
theorem return_notMem_writeChars (style : Style) {v : Value} (h : v.IsStored) :
    ∀ level, '\r' ∉ writeChars style level v := by
  induction h with
  | scalar h =>
    intro level
    cases h with
    | null => simp [writeChars]
    | bool b => cases b <;> simp [writeChars]
    | int _ => exact return_notMem_signedDecimal _
    | str s => exact return_notMem_stringChars _ _
  | @arr items _ ih =>
    intro level
    cases items with
    | nil => simp [writeChars]
    | cons v rest =>
      obtain ⟨hv, hrest⟩ := List.forall_mem_cons.1 ih
      simp [writeChars, return_notMem_lineBreak, hv, return_notMem_writeItems hrest]
  | @obj fields _ _ ih =>
    intro level
    cases fields with
    | nil => simp [writeChars]
    | cons f rest =>
      obtain ⟨hf, hrest⟩ := List.forall_mem_cons.1 ih
      simp [writeChars, return_notMem_lineBreak, return_notMem_stringChars, hf,
        return_notMem_writeFields hrest]

end QueryPipeline.Json
