import Mathlib.Data.List.Forall2
import QueryPipeline.Proofs.Statement.Complete
import QueryPipeline.Proofs.Statement.Inner
import QueryPipeline.Proofs.Statement.Render
import QueryPipeline.Proofs.Statement.Sound
import QueryPipeline.Tree.OfStatement

/-!
# Scripts are cut at semicolons

A script is a sequence of statements with semicolons between them.  `Script.pieces` cuts tokens at
the semicolons and looks at nothing else, and this file shows that reading does the same: tokens are
a script exactly when each piece, read alone, is one statement.

    ofTokens (body ++ [end]) = ok all  ↔  the pieces of `body`, one by one, are the statements `all`

The proofs go along the pieces: `pieces_induction` takes off what stands in front of the first
semicolon.
-/

namespace QueryPipeline

namespace Script

open Grammar

/-! ## Pieces -/

def isSemicolon (t : Token) : Bool :=
  t.kind? == some (.mark .semicolon)

/-- The tokens between semicolons.  An empty piece behind the last semicolon is left out. -/
def pieces (tokens : List Token) : List (List Token) :=
  let all := tokens.splitOnP isSemicolon
  if all.getLast? = some [] then all.dropLast else all

theorem isSemicolon_iff {t : Token} : isSemicolon t = true ↔ t.kind? = some (.mark .semicolon) :=
  beq_iff_eq

theorem pieces_nil : pieces [] = [] :=
  rfl

theorem pieces_of_none {us : List Token} (hne : us ≠ []) (h : ∀ t ∈ us, isSemicolon t = false) :
    pieces us = [us] := by
  rw [pieces, List.splitOnP_eq_singleton h]
  exact if_neg fun hlast => hne (Option.some.inj hlast)

theorem pieces_append {us : List Token} (h : ∀ t ∈ us, isSemicolon t = false) {q : Token}
    (hq : isSemicolon q = true) (vs : List Token) : pieces (us ++ q :: vs) = us :: pieces vs := by
  have hsplit : (us ++ q :: vs).splitOnP isSemicolon = us :: vs.splitOnP isSemicolon := by
    rw [List.splitOnP_append_cons us vs hq, List.splitOnP_eq_singleton h]
    rfl
  have hne : vs.splitOnP isSemicolon ≠ [] := List.splitOnP_ne_nil _ vs
  rw [pieces, pieces, hsplit, List.getLast?_cons_of_ne_nil hne, List.dropLast_cons_of_ne_nil hne]
  split <;> rfl

/-- Tokens are none at all, or one piece, or one piece with a semicolon and more tokens behind. -/
theorem pieces_induction {motive : List Token → Prop} (nil : motive [])
    (one : ∀ us, us ≠ [] → (∀ t ∈ us, isSemicolon t = false) → motive us)
    (more : ∀ us q vs, (∀ t ∈ us, isSemicolon t = false) → isSemicolon q = true → motive vs →
      motive (us ++ q :: vs)) (tokens : List Token) : motive tokens := by
  induction hn : tokens.length using Nat.strong_induction_on generalizing tokens with
  | _ n ih =>
    have hinner : ∀ t ∈ tokens.takeWhile (!isSemicolon ·), isSemicolon t = false :=
      fun t ht => by simpa using List.mem_takeWhile_imp ht
    have hsplit := List.takeWhile_append_dropWhile (p := (!isSemicolon ·)) (l := tokens)
    cases hdrop : tokens.dropWhile (!isSemicolon ·) with
    | nil =>
      rw [hdrop, List.append_nil] at hsplit
      by_cases hnil : tokens = []
      · rw [hnil]
        exact nil
      · exact one tokens hnil (by rwa [hsplit] at hinner)
    | cons q vs =>
      have hq : isSemicolon q = true := by
        simpa [hdrop] using List.head?_dropWhile_not (!isSemicolon ·) tokens
      rw [hdrop] at hsplit
      have hlength : vs.length < n := by
        rw [← hn, ← hsplit, List.length_append, List.length_cons]
        omega
      rw [← hsplit]
      exact more _ q vs hinner hq (ih vs.length hlength vs rfl)

/-- The pieces are made of the tokens, and no semicolon is left in them. -/
theorem mem_of_mem_pieces (tokens : List Token) :
    ∀ p ∈ pieces tokens, ∀ t ∈ p, t ∈ tokens ∧ isSemicolon t = false := by
  induction tokens using pieces_induction with
  | nil => nofun
  | one us hne hus =>
    rw [pieces_of_none hne hus, List.forall_mem_singleton]
    exact fun t ht => ⟨ht, hus t ht⟩
  | more us q vs hus hq ih =>
    rw [pieces_append hus hq, List.forall_mem_cons]
    refine ⟨fun t ht => ⟨List.mem_append_left _ ht, hus t ht⟩, fun p hp t ht => ?_⟩
    obtain ⟨hmem, hsemicolon⟩ := ih p hp t ht
    exact ⟨List.mem_append_right _ (List.mem_cons_of_mem _ hmem), hsemicolon⟩

theorem pieces_eq_nil {tokens : List Token} (h : pieces tokens = []) : tokens = [] := by
  induction tokens using pieces_induction with
  | nil => rfl
  | one us hne hus =>
    rw [pieces_of_none hne hus] at h
    cases h
  | more us q vs hus hq ih =>
    rw [pieces_append hus hq] at h
    cases h

/-! ## Scripts in pieces -/

theorem not_semicolon_of_statement {next : Option Kind} {us : List Token} {s : Statement}
    (h : StatementPhrase next us s) : ∀ t ∈ us, isSemicolon t = false := by
  intro t ht
  rw [Bool.eq_false_iff, Ne, isSemicolon_iff]
  exact (inner_statement next us s h t ht).1

/-- The phrase of a script falls into pieces, each of which is a statement. -/
theorem forall₂_of_script {us : List Token} {all : List Statement} (h : ScriptPhrase us all) :
    List.Forall₂ (StatementPhrase (some .eof)) (pieces us) all := by
  induction h with
  | last h =>
    rw [pieces_of_none h.begins.ne_nil (not_semicolon_of_statement h)]
    exact .cons h .nil
  | closed h hq =>
    rw [pieces_append (not_semicolon_of_statement h) (isSemicolon_iff.mpr hq), pieces_nil]
    exact .cons (h.ahead rfl) .nil
  | cons h hq _ ih =>
    rw [pieces_append (not_semicolon_of_statement h) (isSemicolon_iff.mpr hq)]
    exact .cons (h.ahead rfl) ih

/-- Pieces that are statements make a script. -/
theorem script_of_forall₂ {us : List Token} {all : List Statement} (hne : pieces us ≠ [])
    (h : List.Forall₂ (StatementPhrase (some .eof)) (pieces us) all) : ScriptPhrase us all := by
  induction us using pieces_induction generalizing all with
  | nil => exact absurd pieces_nil hne
  | one us hus hnone =>
    rw [pieces_of_none hus hnone] at h
    cases h with
    | cons hs hrest =>
      cases hrest
      exact .last hs
  | more us q vs hus hq ih =>
    rw [pieces_append hus hq] at h
    cases h with
    | cons hs hrest =>
      by_cases hvs : pieces vs = []
      · rw [hvs] at hrest
        cases hrest
        rw [pieces_eq_nil hvs]
        exact .closed (hs.ahead rfl) (isSemicolon_iff.mp hq)
      · exact .cons (hs.ahead rfl) (isSemicolon_iff.mp hq) (ih hvs hrest)

/-- What is read from tokens in front of the only end is what the grammar says. -/
theorem ofTokens_iff {body : List Token} (hbody : ∀ t ∈ body, t.kind? ≠ some .eof) {t : Token}
    (ht : t.kind? = some .eof) {all : List Statement} :
    (ofTokens (body ++ [t])).1 = .ok all ↔ ScriptPhrase body all := by
  constructor
  · intro h
    obtain ⟨us, rest, heq, hend, hscript⟩ := ofTokens_sound h
    -- the end is not in `body`, so the script is all of it
    obtain rfl : body = us := by
      rcases List.append_eq_append_iff.mp heq with ⟨vs, hus, hvs⟩ | ⟨vs, hbodyEq, hrest⟩
      · cases vs with
        | nil => simpa using hus.symm
        | cons v vs =>
          have hnil : rest = [] := by
            have := congrArg List.length hvs
            simp only [List.length_append, List.length_cons, List.length_nil] at this
            exact List.eq_nil_of_length_eq_zero (by omega)
          rw [hnil] at hend
          cases hend
      · cases vs with
        | nil => simpa using hbodyEq
        | cons v vs =>
          rw [hrest] at hend
          exact absurd hend (hbody v (by simp [hbodyEq]))
    exact hscript
  · intro h
    exact ofTokens_complete h ht

/-- A piece is read as one statement exactly when it is one. -/
theorem ofTokens_piece_iff {piece : List Token} (hpiece : ∀ t ∈ piece, t.kind? ≠ some .eof)
    (hsemicolon : ∀ t ∈ piece, isSemicolon t = false) {t : Token} (ht : t.kind? = some .eof)
    {s : Statement} :
    (ofTokens (piece ++ [t])).1 = .ok [s] ↔ StatementPhrase (some .eof) piece s := by
  rw [ofTokens_iff hpiece ht]
  constructor
  · intro h
    have hpieces := forall₂_of_script h
    rw [pieces_of_none h.begins.ne_nil hsemicolon] at hpieces
    cases hpieces with
    | cons hs _ => exact hs
  · exact .last

/-- The tokens of a text are the end behind tokens that are not the end. -/
theorem tokenize_body {text : String} {tokens : List Token} (h : tokenize text = .ok tokens) :
    ∃ body stop, tokens = body ++ [stop] ∧ stop.kind? = some .eof ∧
      ∀ t ∈ body, t.kind? ≠ some .eof := by
  obtain ⟨body, stop, heq, hlegible⟩ := Scanner.scan_legible 0 text.toList h
  refine ⟨body, Token.endOfText stop, heq, rfl, fun t ht hend => ?_⟩
  obtain ⟨k, hk, hne⟩ := (hlegible t ht).exists_kind
  exact hne (Option.some.inj (hk.symm.trans hend))

/-- **Statements are cut at semicolons.**  The tokens of a text are read as statements exactly when
no piece is empty and each piece, alone in front of an end, is read as one statement.  A single
statement is then the answer itself, and several are a list in the order of their pieces. -/
theorem ofTokens_segmented {text : String} {tokens : List Token} (h : tokenize text = .ok tokens) :
    ∃ body stop, tokens = body ++ [stop] ∧ stop.kind? = some .eof ∧
      (∀ t ∈ body, t.kind? ≠ some .eof) ∧
      ∀ (last : Token), last.kind? = some .eof → ∀ (all : List Statement),
        ((ofTokens tokens).1 = .ok all ↔
          pieces body ≠ [] ∧ (∀ p ∈ pieces body, p ≠ []) ∧
            List.Forall₂ (fun p s => (ofTokens (p ++ [last])).1 = .ok [s]) (pieces body) all) ∧
        ((ofTokens tokens).1 = .ok all →
          all.length = (pieces body).length ∧
          (∀ s, all = [s] → toTree all = s.toTree) ∧
          (1 < all.length → toTree all = .arr (all.map Statement.toTree))) := by
  obtain ⟨body, stop, rfl, hstop, hbody⟩ := tokenize_body h
  refine ⟨body, stop, rfl, hstop, hbody, fun last hlast all => ?_⟩
  have hread : ∀ p ∈ pieces body, ∀ s, (ofTokens (p ++ [last])).1 = .ok [s] ↔
      StatementPhrase (some .eof) p s := by
    intro p hp s
    have hmem := mem_of_mem_pieces body p hp
    exact ofTokens_piece_iff (fun t ht => hbody t (hmem t ht).1) (fun t ht => (hmem t ht).2) hlast
  rw [ofTokens_iff hbody hstop]
  refine ⟨⟨fun hscript => ?_, fun ⟨hne, _, hall⟩ => ?_⟩, fun hscript => ?_⟩
  · have hall := forall₂_of_script hscript
    have hnone : ∀ p ∈ pieces body, p ≠ [] :=
      ((List.forall₂_and_left _ _).mp (hall.imp fun _ _ hs => ⟨hs.begins.ne_nil, hs⟩)).1
    refine ⟨fun hnil => hscript.begins.ne_nil (pieces_eq_nil hnil), hnone, ?_⟩
    exact ((List.forall₂_and_left _ _).mpr ⟨hread, hall⟩).imp fun _ s hs => (hs.1 s).mpr hs.2
  · refine script_of_forall₂ hne ?_
    exact ((List.forall₂_and_left _ _).mpr ⟨hread, hall⟩).imp fun _ s hs => (hs.1 s).mp hs.2
  · refine ⟨(forall₂_of_script hscript).length_eq.symm, ?_, fun hlength => ?_⟩
    · rintro s rfl
      rfl
    · match all, hlength with
      | _ :: _ :: _, _ => rfl

/-- Two statements, an alias in front of the first semicolon and nothing behind the second. -/
theorem ofTokens_segmented_two :
    let tokens : List Token :=
      [⟨.keyword, "SELECT", 0⟩, ⟨.identifier, "a", 7⟩, ⟨.keyword, "AS", 9⟩, ⟨.identifier, "b", 12⟩,
       ⟨.punctuation, ";", 13⟩, ⟨.keyword, "DELETE", 15⟩, ⟨.keyword, "FROM", 22⟩,
       ⟨.identifier, "t", 27⟩, ⟨.punctuation, ";", 28⟩, ⟨.eof, "", 29⟩]
    tokenize "SELECT a AS b; DELETE FROM t;" = .ok tokens ∧
      ∃ all, (ofTokens tokens).1 = .ok all ∧ toTree all = .arr (all.map Statement.toTree) := by
  intro tokens
  have htokens : tokenize "SELECT a AS b; DELETE FROM t;" = .ok tokens := by decide +kernel
  refine ⟨htokens, ?_⟩
  obtain ⟨body, stop, heq, _, _, hcut⟩ := ofTokens_segmented htokens
  obtain rfl : body = tokens.dropLast := by rw [heq, List.dropLast_concat]
  have hcut := hcut (Token.endOfText 0) rfl
    [.select ⟨[.column ⟨"a", none, some "b"⟩], none, none, [], none, none, none, none, none, false⟩,
     .delete ⟨⟨"t", none, none⟩, none⟩]
  have hall := hcut.1.mpr ⟨by decide, by decide, .cons rfl (.cons rfl .nil)⟩
  exact ⟨_, hall, (hcut.2 hall).2.2 (by decide)⟩

end Script
end QueryPipeline
