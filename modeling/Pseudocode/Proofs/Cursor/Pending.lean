-- What is still to come from a cursor: the tokens in store, and line by line
-- the tokens or the fault of every line that is still to be scanned. This row
-- of findings settles the answer to every request, and each request takes
-- something off its front or takes a fault out of it.
import Pseudocode.Proofs.Scanned
import Pseudocode.Token.Cursor

namespace Pseudocode

/-- What a cursor comes upon: a token, or the fault of a line. -/
abbrev Finding := Except Diagnostic Token

namespace Finding

/-! ## Requests of a row of findings -/

/-- The next finding, or the end token where none is left. -/
def next (endToken : Token) : List Finding → Finding × List Finding
  | [] => (.ok endToken, [])
  | finding :: others => (finding, others)

/-- The token that stands `ahead` places further on. A fault in the way is
given instead of it, and falls out of the row. -/
def look (endToken : Token) : Nat → List Finding → Finding × List Finding
  | _, [] => (.ok endToken, [])
  | _, .error fault :: others => (.error fault, others)
  | 0, .ok token :: others => (.ok token, .ok token :: others)
  | ahead + 1, .ok token :: others =>
    ((look endToken ahead others).1, .ok token :: (look endToken ahead others).2)

/-- All tokens up to the end or up to a fault, and what is left then. -/
def gather : List Finding → Except Diagnostic (List Token) × List Finding
  | [] => (.ok [], [])
  | .error fault :: others => (.error fault, others)
  | .ok token :: others =>
    match gather others with
    | (.ok tokens, left) => (.ok (token :: tokens), left)
    | (.error fault, left) => (.error fault, left)

/-- The tokens of a row. -/
def tokens (row : List Finding) : List Token :=
  row.filterMap Except.toOption

/-- The faults of a row. -/
def faults (row : List Finding) : List Diagnostic :=
  row.filterMap fun
    | .ok _ => none
    | .error fault => some fault

/-- No token of the row is the end of the input. -/
def Proper (row : List Finding) : Prop :=
  ∀ token, .ok token ∈ row → token.kind ≠ .endOfInput

section Row

variable {endToken token : Token} {stored : List Token} {others : List Finding} {wanted : Nat}
  {fault : Diagnostic}

theorem look_stored (h : wanted < stored.length) :
    look endToken wanted (stored.map .ok ++ others) =
      (.ok (stored[wanted]?.getD endToken), stored.map .ok ++ others) := by
  induction stored generalizing wanted with
  | nil => cases h
  | cons token stored ih =>
    cases wanted with
    | zero => rfl
    | succ wanted =>
      have hrest := ih (Nat.lt_of_succ_lt_succ h)
      simp only [List.map_cons, List.cons_append, look, hrest, List.getElem?_cons_succ]

theorem look_fault (h : stored.length ≤ wanted) :
    look endToken wanted (stored.map .ok ++ .error fault :: others) =
      (.error fault, stored.map .ok ++ others) := by
  induction stored generalizing wanted with
  | nil => cases wanted <;> rfl
  | cons token stored ih =>
    cases wanted with
    | zero => cases h
    | succ wanted =>
      have hrest := ih (Nat.le_of_succ_le_succ h)
      simp only [List.map_cons, List.cons_append, look, hrest]

theorem look_end (h : stored.length ≤ wanted) :
    look endToken wanted (stored.map .ok) = (.ok endToken, stored.map .ok) := by
  induction stored generalizing wanted with
  | nil => cases wanted <;> rfl
  | cons token stored ih =>
    cases wanted with
    | zero => cases h
    | succ wanted =>
      have hrest := ih (Nat.le_of_succ_le_succ h)
      simp only [List.map_cons, look, hrest]

@[simp] theorem tokens_nil : tokens [] = [] := rfl

@[simp] theorem tokens_ok : tokens (.ok token :: others) = token :: tokens others := rfl

@[simp] theorem tokens_error : tokens (.error fault :: others) = tokens others := rfl

@[simp] theorem faults_nil : faults [] = [] := rfl

@[simp] theorem faults_ok : faults (.ok token :: others) = faults others := rfl

@[simp] theorem faults_error : faults (.error fault :: others) = fault :: faults others := rfl

@[simp] theorem tokens_append (row others : List Finding) :
    tokens (row ++ others) = tokens row ++ tokens others :=
  List.filterMap_append ..

@[simp] theorem faults_append (row others : List Finding) :
    faults (row ++ others) = faults row ++ faults others :=
  List.filterMap_append ..

@[simp] theorem tokens_map_ok (stored : List Token) : tokens (stored.map .ok) = stored := by
  induction stored with
  | nil => rfl
  | cons token stored ih => rw [List.map_cons, tokens_ok, ih]

@[simp] theorem faults_map_ok (stored : List Token) : faults (stored.map .ok) = [] := by
  induction stored with
  | nil => rfl
  | cons token stored ih => rw [List.map_cons, faults_ok, ih]

theorem Proper.tail {finding : Finding} (h : Proper (finding :: others)) : Proper others :=
  fun token ht => h token (List.mem_cons_of_mem _ ht)

end Row

end Finding

namespace Cursor

open Finding (Proper look next gather)

/-! ## The row of a cursor -/

/-- What a line holds: its tokens, or its fault and nothing else. -/
def findingsOf (line : Nat) (text : String) : List Finding :=
  match Token.scanLine line text with
  | .ok tokens => tokens.map .ok
  | .error fault => [.error fault]

/-- What lines hold that are the last of `total` lines. -/
def findings (total : Nat) : List String → List Finding
  | [] => []
  | text :: texts => findingsOf (total - texts.length) text ++ findings total texts

/-- What is still to come from a cursor. -/
def pending (cursor : Cursor) : List Finding :=
  cursor.buffer.map .ok ++ findings cursor.lines.length cursor.rest

section Filling

variable {total wanted : Nat} {rest rest' : List String} {buffer buffer' : List Token}
  {fault : Diagnostic}

/-- Scanning ahead uses up lines from the front. -/
theorem rest_suffix_fillFrom (total wanted : Nat) (rest : List String) (buffer : List Token) :
    (fillFrom total wanted rest buffer).2.1 <:+ rest := by
  induction rest generalizing buffer with
  | nil => exact List.suffix_rfl
  | cons text texts ih =>
    unfold fillFrom
    split
    · exact List.suffix_rfl
    · split
      · exact (ih _).trans (List.suffix_cons text texts)
      · exact List.suffix_cons text texts

/-- Scanning ahead without a fault changes nothing in the row, and has stored
enough or has come to the end. -/
theorem fillFrom_none (h : fillFrom total wanted rest buffer = (none, rest', buffer')) :
    buffer.map .ok ++ findings total rest = buffer'.map .ok ++ findings total rest' ∧
      (wanted < buffer'.length ∨ rest' = []) := by
  induction rest generalizing buffer with
  | nil =>
    cases h
    exact ⟨rfl, .inr rfl⟩
  | cons text texts ih =>
    unfold fillFrom at h
    split at h
    · rename_i hw
      cases h
      exact ⟨rfl, .inl hw⟩
    · split at h
      · rename_i tokens ht
        obtain ⟨hrow, hstop⟩ := ih h
        refine ⟨?_, hstop⟩
        rw [← hrow, findings, findingsOf, ht]
        simp
      · cases h

/-- The fault of a line says which line it is. -/
theorem line?_of_scanLine {line : Nat} {text : String}
    (h : Token.scanLine line text = .error fault) : fault.line? = some line := by
  unfold Token.scanLine at h
  split at h
  · cases h
  · rename_i found _
    cases h
    cases found <;> rfl

/-- A fault that scanning ahead comes upon falls out of the row, and it is that
of the last line that was scanned. -/
theorem fillFrom_some (h : fillFrom total wanted rest buffer = (some fault, rest', buffer')) :
    buffer.map .ok ++ findings total rest =
        buffer'.map .ok ++ .error fault :: findings total rest' ∧
      buffer'.length ≤ wanted ∧ fault.line? = some (total - rest'.length) := by
  induction rest generalizing buffer with
  | nil => cases h
  | cons text texts ih =>
    unfold fillFrom at h
    split at h
    · cases h
    · rename_i hw
      split at h
      · rename_i tokens ht
        obtain ⟨hrow, hshort⟩ := ih h
        refine ⟨?_, hshort⟩
        rw [← hrow, findings, findingsOf, ht]
        simp
      · rename_i diagnostic ht
        cases h
        refine ⟨?_, Nat.le_of_not_lt hw, line?_of_scanLine ht⟩
        rw [findings, findingsOf, ht]
        rfl

end Filling

/-! ## Every request is one of the row -/

/-- To look ahead from a cursor is to look ahead in its row. -/
theorem peek_eq_look (cursor : Cursor) (ahead : Nat) :
    ((cursor.peek ahead).1, (cursor.peek ahead).2.pending) =
        look cursor.endToken ahead cursor.pending ∧
      (cursor.peek ahead).2.lines = cursor.lines := by
  obtain ⟨lines, rest, buffer⟩ := cursor
  unfold peek fill
  cases hf : fillFrom lines.length ahead rest buffer with
  | mk fault others =>
    obtain ⟨rest', buffer'⟩ := others
    cases fault with
    | some fault =>
      obtain ⟨hrow, hshort, -⟩ := fillFrom_some hf
      refine ⟨?_, rfl⟩
      simp only [pending, hrow, Finding.look_fault hshort]
    | none =>
      obtain ⟨hrow, hstop⟩ := fillFrom_none hf
      refine ⟨?_, rfl⟩
      simp only [pending, hrow]
      by_cases hlt : ahead < buffer'.length
      · rw [Finding.look_stored hlt]
        rfl
      · have hend : rest' = [] := hstop.resolve_left hlt
        have hle : buffer'.length ≤ ahead := Nat.le_of_not_lt hlt
        rw [hend, findings, List.append_nil, Finding.look_end hle,
          List.getElem?_eq_none hle]
        rfl

/-- To advance a cursor is to take the next finding of its row. -/
theorem advance_eq_next (cursor : Cursor) :
    ((cursor.advance).1, (cursor.advance).2.pending) = next cursor.endToken cursor.pending ∧
      (cursor.advance).2.lines = cursor.lines := by
  obtain ⟨lines, rest, buffer⟩ := cursor
  unfold advance fill
  cases hf : fillFrom lines.length 0 rest buffer with
  | mk fault others =>
    obtain ⟨rest', buffer'⟩ := others
    cases fault with
    | some fault =>
      obtain ⟨hrow, hshort, -⟩ := fillFrom_some hf
      have hnil : buffer' = [] := List.eq_nil_of_length_eq_zero (Nat.le_zero.1 hshort)
      refine ⟨?_, rfl⟩
      simp only [pending, hrow, hnil]
      rfl
    | none =>
      obtain ⟨hrow, hstop⟩ := fillFrom_none hf
      simp only [pending, hrow]
      cases buffer' with
      | nil =>
        have hend : rest' = [] := hstop.resolve_left (by simp)
        rw [hend]
        exact ⟨rfl, rfl⟩
      | cons token buffer' => exact ⟨rfl, rfl⟩

section Advancing

variable {cursor left : Cursor} {fault : Diagnostic} {token : Token}

/-- A token that is handed out is the next of the row, or the end where there is none. -/
theorem pending_of_advance_ok (h : cursor.advance = (.ok token, left)) :
    (cursor.pending = [] ∧ token = cursor.endToken ∧ left.pending = []) ∨
      cursor.pending = .ok token :: left.pending := by
  have hnext := (advance_eq_next cursor).1
  rw [h] at hnext
  cases hp : cursor.pending with
  | nil =>
    rw [hp] at hnext
    obtain ⟨htoken, hleft⟩ := Prod.mk.inj hnext
    exact .inl ⟨rfl, Except.ok.inj htoken, hleft⟩
  | cons finding others =>
    rw [hp] at hnext
    obtain ⟨rfl, rfl⟩ := Prod.mk.inj hnext
    exact .inr rfl

/-- A fault that is reported is the next of the row. -/
theorem pending_of_advance_error (h : cursor.advance = (.error fault, left)) :
    cursor.pending = .error fault :: left.pending := by
  have hnext := (advance_eq_next cursor).1
  rw [h] at hnext
  cases hp : cursor.pending with
  | nil =>
    rw [hp] at hnext
    cases (Prod.mk.inj hnext).1
  | cons finding others =>
    rw [hp] at hnext
    obtain ⟨rfl, rfl⟩ := Prod.mk.inj hnext
    rfl

end Advancing

/-- To take all tokens from a cursor is to take all tokens of its row. -/
theorem drain_eq_gather (cursor : Cursor) (h : Proper cursor.pending) :
    ((cursor.drain).1, (cursor.drain).2.pending) = gather cursor.pending ∧
      (cursor.drain).2.lines = cursor.lines := by
  induction cursor using before_wf.induction with
  | _ cursor ih =>
  have hlines := (advance_eq_next cursor).2
  rw [drain]
  split
  · rename_i fault left ha
    rw [ha] at hlines
    rw [pending_of_advance_error ha]
    exact ⟨rfl, hlines⟩
  · rename_i token left ha
    rw [ha] at hlines
    rcases pending_of_advance_ok ha with ⟨hp, rfl, hleft⟩ | hp
    · rw [dif_pos (show cursor.endToken.kind = .endOfInput from rfl), hp, hleft]
      exact ⟨rfl, hlines⟩
    · rw [hp] at h ⊢
      have hkind : token.kind ≠ .endOfInput := h token (by simp)
      obtain ⟨hrest, hlines'⟩ := ih left (before_of_advance ha hkind) h.tail
      rw [dif_neg hkind, gather, ← hrest]
      cases hd : left.drain with
      | mk result last =>
        rw [hd] at hlines'
        cases result with
        | error fault => exact ⟨rfl, hlines'.trans hlines⟩
        | ok tokens => exact ⟨rfl, hlines'.trans hlines⟩

/-! ## Where a request leaves the cursor -/

section Leaving

variable {cursor left : Cursor} {fault : Diagnostic} {token : Token}

theorem rest_suffix_advance (cursor : Cursor) : (cursor.advance).2.rest <:+ cursor.rest := by
  obtain ⟨lines, rest, buffer⟩ := cursor
  have hs := rest_suffix_fillFrom lines.length 0 rest buffer
  unfold advance fill
  cases hf : fillFrom lines.length 0 rest buffer with
  | mk fault others =>
    obtain ⟨rest', buffer'⟩ := others
    rw [hf] at hs
    cases fault with
    | some fault => exact hs
    | none => cases buffer' <;> exact hs

/-- A fault leaves the cursor with nothing in store, behind the line of the fault. -/
theorem advance_error (h : cursor.advance = (.error fault, left)) :
    left.buffer = [] ∧ fault.line? = some (cursor.lines.length - left.rest.length) := by
  obtain ⟨lines, rest, buffer⟩ := cursor
  unfold advance fill at h
  cases hf : fillFrom lines.length 0 rest buffer with
  | mk found others =>
    obtain ⟨rest', buffer'⟩ := others
    rw [hf] at h
    cases found with
    | some found =>
      obtain ⟨-, hshort, hline⟩ := fillFrom_some hf
      cases h
      exact ⟨List.eq_nil_of_length_eq_zero (Nat.le_zero.1 hshort), hline⟩
    | none => cases buffer' <;> cases h

/-- The end is handed out when all lines have been scanned and nothing is left. -/
theorem advance_end (h : cursor.advance = (.ok token, left)) (hp : Proper cursor.pending)
    (hk : token.kind = .endOfInput) : cursor.pending = [] ∧ left.rest = [] := by
  have hnil : cursor.pending = [] := by
    rcases pending_of_advance_ok h with ⟨hrow, -, -⟩ | hrow
    · exact hrow
    · rw [hrow] at hp
      exact absurd hk (hp token (by simp))
  refine ⟨hnil, ?_⟩
  obtain ⟨lines, rest, buffer⟩ := cursor
  unfold advance fill at h
  cases hf : fillFrom lines.length 0 rest buffer with
  | mk found others =>
    obtain ⟨rest', buffer'⟩ := others
    rw [hf] at h
    cases found with
    | some found => cases h
    | none =>
      obtain ⟨hrow, hstop⟩ := fillFrom_none hf
      cases buffer' with
      | nil =>
        cases h
        exact hstop.resolve_left (by simp)
      | cons first buffer' =>
        have hsame : pending ⟨lines, rest, buffer⟩ = _ := hrow
        rw [hnil] at hsame
        cases hsame

theorem drain_error (h : cursor.drain = (.error fault, left)) (hs : cursor.rest <:+ cursor.lines) :
    ∃ line, fault.line? = some line ∧ left = ⟨cursor.lines, cursor.lines.drop line, []⟩ := by
  induction cursor using before_wf.induction with
  | _ cursor ih =>
  obtain ⟨-, hlines⟩ := advance_eq_next cursor
  have hrest := rest_suffix_advance cursor
  rw [drain] at h
  split at h
  · rename_i found following ha
    rw [ha] at hlines hrest
    cases h
    obtain ⟨hbuffer, hline⟩ := advance_error ha
    refine ⟨_, hline, ?_⟩
    rw [← List.suffix_iff_eq_drop.1 (hrest.trans hs)]
    obtain ⟨lines, rest, buffer⟩ := left
    simp only at hlines hbuffer
    rw [hlines, hbuffer]
  · rename_i token following ha
    rw [ha] at hlines hrest
    split at h
    · cases h
    · rename_i hk
      cases hd : following.drain with
      | mk result last =>
        rw [hd] at h
        cases result with
        | ok tokens => cases h
        | error found =>
          cases h
          rw [← hlines] at hs ⊢
          exact ih following (before_of_advance ha hk) hd (hrest.trans hs)

end Leaving

end Cursor

end Pseudocode
