-- The laws of the cursor. However requests follow each other, the tokens that
-- are handed out after a rewind are those of the lines without a fault, in
-- order, and the faults that are reported are those of the other lines.
import Pseudocode.Proofs.Cursor.Pending

namespace Pseudocode

/-! ## Requests -/

/-- A request for a token: to look at the one some places further on, or to
take the next one. -/
inductive Draw where
  | peek (ahead : Nat)
  | advance
  deriving DecidableEq

/-- A request that goes over the program anew. -/
inductive Rewind where
  | restart
  | tokenizeAll
  deriving DecidableEq

/-- Whatever can be asked of a cursor. -/
inductive Request where
  | draw (draw : Draw)
  | rewind (rewind : Rewind)
  deriving DecidableEq

namespace Cursor

/-- The answer to a draw, and the cursor after it. -/
def draw (cursor : Cursor) : Draw → Finding × Cursor
  | .peek ahead => cursor.peek ahead
  | .advance => cursor.advance

/-- The cursor after a rewind. -/
def rewound (cursor : Cursor) : Rewind → Cursor
  | .restart => cursor.restart
  | .tokenizeAll => (cursor.tokenizeAll).2

/-- The cursor after requests of any sort. -/
def after (cursor : Cursor) : List Request → Cursor
  | [] => cursor
  | .draw draw :: requests => (cursor.draw draw).2.after requests
  | .rewind rewind :: requests => (cursor.rewound rewind).after requests

/-- The cursor after draws. -/
def afterDraws (cursor : Cursor) (draws : List Draw) : Cursor := cursor.after (draws.map .draw)

/-- Draws, each with its answer. -/
def transcript (cursor : Cursor) : List Draw → List (Draw × Finding)
  | [] => []
  | draw :: draws => (draw, (cursor.draw draw).1) :: (cursor.draw draw).2.transcript draws

end Cursor

/-- The token that an exchange hands out. The end of the input is none. -/
def tokenOf? : Draw × Finding → Option Token
  | (.advance, .ok token) => if token.kind = .endOfInput then none else some token
  | _ => none

/-- The fault that an exchange reports. -/
def faultOf? : Draw × Finding → Option Diagnostic
  | (_, .error fault) => some fault
  | _ => none

/-- The tokens that a transcript hands out. -/
def handedOut (exchanges : List (Draw × Finding)) : List Token := exchanges.filterMap tokenOf?

/-- The faults that a transcript reports. -/
def reported (exchanges : List (Draw × Finding)) : List Diagnostic := exchanges.filterMap faultOf?

/-! ## What the lines hold -/

namespace Token

/-- The tokens of the lines that have no fault, where `line` lines come before. -/
def readableAfter (line : Nat) : List String → List Token
  | [] => []
  | text :: texts =>
    match scanLine (line + 1) text with
    | .ok tokens => tokens ++ readableAfter (line + 1) texts
    | .error _ => readableAfter (line + 1) texts

/-- The faults of the lines that have one, where `line` lines come before. -/
def faultsAfter (line : Nat) : List String → List Diagnostic
  | [] => []
  | text :: texts =>
    match scanLine (line + 1) text with
    | .ok _ => faultsAfter (line + 1) texts
    | .error fault => fault :: faultsAfter (line + 1) texts

end Token

/-- How many lines are passed over after a rewind: none, or those up to the
fault that taking all tokens has come upon. -/
def rewindPoint (lines : List String) : Rewind → Nat
  | .restart => 0
  | .tokenizeAll =>
    match Token.scan lines with
    | .ok _ => 0
    | .error fault => fault.line?.getD 0

/-! ## The row and the lines -/

section Lines

open Cursor (findings findingsOf)
open Finding (Proper look next gather tokens faults)

variable {line : Nat} {lines texts : List String}

/-- The number of a line, counted from the end and from the start. -/
theorem lineNumber_eq (line : Nat) (text : String) (texts : List String) :
    line + (text :: texts).length - texts.length = line + 1 ∧
      line + (text :: texts).length = line + 1 + texts.length := by
  rw [List.length_cons]
  omega

theorem tokens_findings (line : Nat) (texts : List String) :
    tokens (findings (line + texts.length) texts) = Token.readableAfter line texts ∧
      faults (findings (line + texts.length) texts) = Token.faultsAfter line texts := by
  induction texts generalizing line with
  | nil => exact ⟨rfl, rfl⟩
  | cons text texts ih =>
    obtain ⟨hnumber, htotal⟩ := lineNumber_eq line text texts
    obtain ⟨htokens, hfaults⟩ := ih (line + 1)
    rw [findings, findingsOf, hnumber, htotal, Token.readableAfter, Token.faultsAfter]
    cases Token.scanLine (line + 1) text with
    | ok found => simp [htokens, hfaults]
    | error fault => simp [htokens, hfaults]

theorem gather_append (stored : List Token) (row : List Finding) :
    (gather (stored.map .ok ++ row)).1 = (stored ++ ·) <$> (gather row).1 := by
  induction stored with
  | nil => cases hg : (gather row).1 <;> simp [hg, Functor.map, Except.map]
  | cons token stored ih =>
    rw [List.map_cons, List.cons_append, gather]
    cases hs : gather (stored.map .ok ++ row) with
    | mk result left =>
      rw [hs] at ih
      cases hg : (gather row).1 with
      | ok found =>
        rw [hg] at ih
        cases ih
        rfl
      | error fault =>
        rw [hg] at ih
        cases ih
        rfl

/-- To take all tokens of a row of lines is to scan the lines. -/
theorem gather_findings (line : Nat) (texts : List String) :
    (gather (findings (line + texts.length) texts)).1 = Token.scanAfter line texts := by
  induction texts generalizing line with
  | nil => rfl
  | cons text texts ih =>
    obtain ⟨hnumber, htotal⟩ := lineNumber_eq line text texts
    rw [findings, findingsOf, hnumber, htotal, Token.scanAfter]
    cases Token.scanLine (line + 1) text with
    | error fault => rfl
    | ok found =>
      rw [gather_append, ih]
      rfl

theorem proper_findings (line : Nat) (texts : List String) :
    Proper (findings (line + texts.length) texts) := by
  induction texts generalizing line with
  | nil => intro token ht; cases ht
  | cons text texts ih =>
    obtain ⟨hnumber, htotal⟩ := lineNumber_eq line text texts
    rw [findings, findingsOf, hnumber, htotal]
    intro token ht
    rcases List.mem_append.1 ht with ht | ht
    · cases hs : Token.scanLine (line + 1) text with
      | error fault => rw [hs] at ht; simp at ht
      | ok found =>
        rw [hs] at ht
        exact (Token.classified_of_scanLine hs token (by simpa using ht)).ne_endOfInput
    · exact ih (line + 1) token ht

/-- The lines from some place on are numbered as they are in the whole. -/
theorem length_eq_of_drop (lines : List String) (point : Nat) :
    lines.drop point = [] ∨ lines.length = point + (lines.drop point).length := by
  rw [List.drop_eq_nil_iff, List.length_drop]
  omega

theorem tokens_findings_drop (lines : List String) (point : Nat) :
    tokens (findings lines.length (lines.drop point)) =
        Token.readableAfter point (lines.drop point) ∧
      faults (findings lines.length (lines.drop point)) =
        Token.faultsAfter point (lines.drop point) ∧
      Proper (findings lines.length (lines.drop point)) := by
  rcases length_eq_of_drop lines point with hnil | hlength
  · rw [hnil]
    exact ⟨rfl, rfl, fun token ht => by cases ht⟩
  · rw [hlength]
    have h := tokens_findings point (lines.drop point)
    exact ⟨h.1, h.2, proper_findings point (lines.drop point)⟩

end Lines

/-! ## Draws from a row -/

/-- What a row of findings answers to a draw, and what is left of it. -/
def Finding.drawFrom (endToken : Token) (row : List Finding) : Draw → Finding × List Finding
  | .peek ahead => look endToken ahead row
  | .advance => next endToken row

section Draws

open Finding (Proper look next tokens faults drawFrom)

variable {endToken token : Token} {row : List Finding}

/-- A look ahead that comes upon no fault leaves the row alone, and gives the
token at its place among the tokens of the row. -/
theorem look_ok {ahead : Nat} {left : List Finding}
    (h : look endToken ahead row = (.ok token, left)) :
    left = row ∧ token = (tokens row)[ahead]?.getD endToken := by
  induction row generalizing ahead left with
  | nil =>
    cases ahead <;> cases h <;> exact ⟨rfl, rfl⟩
  | cons finding others ih =>
    cases finding with
    | error fault => cases ahead <;> cases h
    | ok first =>
      cases ahead with
      | zero =>
        cases h
        exact ⟨rfl, rfl⟩
      | succ ahead =>
        cases hl : look endToken ahead others with
        | mk answer left' =>
          rw [look, hl] at h
          obtain ⟨rfl, rfl⟩ : answer = .ok token ∧ .ok first :: left' = left := by simpa using h
          obtain ⟨rfl, ht⟩ := ih hl
          exact ⟨rfl, by simpa using ht⟩

/-- A draw takes from the front of the row what it hands out, and out of the row
what it reports. -/
theorem drawFrom_row (hp : Proper row) (he : endToken.kind = .endOfInput) (draw : Draw) :
    tokens row = (tokenOf? (draw, (drawFrom endToken row draw).1)).toList ++
        tokens (drawFrom endToken row draw).2 ∧
      faults row = (faultOf? (draw, (drawFrom endToken row draw).1)).toList ++
        faults (drawFrom endToken row draw).2 ∧
      Proper (drawFrom endToken row draw).2 := by
  cases draw with
  | advance =>
    cases row with
    | nil =>
      refine ⟨?_, rfl, hp⟩
      simp [drawFrom, next, tokenOf?, he]
    | cons finding others =>
      cases finding with
      | error fault => exact ⟨rfl, rfl, hp.tail⟩
      | ok token =>
        refine ⟨?_, rfl, hp.tail⟩
        have hk : token.kind ≠ .endOfInput := hp token (by simp)
        simp [drawFrom, next, tokenOf?, hk]
  | peek ahead =>
    change tokens row = tokens (look endToken ahead row).2 ∧
      faults row = (faultOf? (.peek ahead, (look endToken ahead row).1)).toList ++
        faults (look endToken ahead row).2 ∧ Proper (look endToken ahead row).2
    induction row generalizing ahead with
    | nil => cases ahead <;> exact ⟨rfl, rfl, hp⟩
    | cons finding others ih =>
      cases finding with
      | error fault => cases ahead <;> exact ⟨rfl, rfl, hp.tail⟩
      | ok first =>
        cases ahead with
        | zero => exact ⟨rfl, rfl, hp⟩
        | succ ahead =>
          obtain ⟨htokens, hfaults, hproper⟩ := ih hp.tail ahead
          refine ⟨?_, ?_, ?_⟩
          · change tokens (.ok first :: others) =
              tokens (.ok first :: (look endToken ahead others).2)
            rw [Finding.tokens_ok, Finding.tokens_ok, ← htokens]
          · rw [Finding.faults_ok, hfaults]
            cases hl : look endToken ahead others with
            | mk answer left => rw [look, hl]; cases answer <;> rfl
          · intro token ht
            rcases List.mem_cons.1 ht with heq | ht
            · exact hp token (by simp [heq])
            · exact hproper token ht

end Draws

namespace Cursor

open Finding (Proper tokens faults drawFrom gather)

variable {cursor other : Cursor}

theorem draw_eq_drawFrom (cursor : Cursor) (draw : Draw) :
    ((cursor.draw draw).1, (cursor.draw draw).2.pending) =
        drawFrom cursor.endToken cursor.pending draw ∧
      (cursor.draw draw).2.lines = cursor.lines := by
  cases draw with
  | peek ahead => exact peek_eq_look cursor ahead
  | advance => exact advance_eq_next cursor

theorem endToken_congr (h : cursor.lines = other.lines) : cursor.endToken = other.endToken := by
  unfold endToken
  rw [h]

/-- Cursors over the same lines that have the same to come answer alike. -/
theorem transcript_congr (hlines : cursor.lines = other.lines)
    (hrow : cursor.pending = other.pending) (draws : List Draw) :
    cursor.transcript draws = other.transcript draws := by
  induction draws generalizing cursor other with
  | nil => rfl
  | cons draw draws ih =>
    obtain ⟨hc, hlc⟩ := draw_eq_drawFrom cursor draw
    obtain ⟨ho, hlo⟩ := draw_eq_drawFrom other draw
    rw [endToken_congr hlines, hrow, ← ho] at hc
    obtain ⟨hanswer, hleft⟩ := Prod.mk.inj hc
    have hrest := ih ((hlc.trans hlines).trans hlo.symm) hleft
    rw [transcript, transcript, hanswer, hrest]

theorem afterDraws_cons (cursor : Cursor) (draw : Draw) (draws : List Draw) :
    cursor.afterDraws (draw :: draws) = (cursor.draw draw).2.afterDraws draws := rfl

/-- What draws hand out and report, and what is to come after them, make up
what was to come before. -/
theorem pending_afterDraws (hp : Proper cursor.pending) (draws : List Draw) :
    tokens cursor.pending =
        handedOut (cursor.transcript draws) ++ tokens (cursor.afterDraws draws).pending ∧
      faults cursor.pending =
        reported (cursor.transcript draws) ++ faults (cursor.afterDraws draws).pending ∧
      Proper (cursor.afterDraws draws).pending ∧
      (cursor.afterDraws draws).lines = cursor.lines := by
  induction draws generalizing cursor with
  | nil => exact ⟨rfl, rfl, hp, rfl⟩
  | cons draw draws ih =>
    obtain ⟨hdraw, hlines⟩ := draw_eq_drawFrom cursor draw
    have hend : cursor.endToken.kind = .endOfInput := rfl
    obtain ⟨htokens, hfaults, hproper⟩ := drawFrom_row hp hend draw
    rw [← hdraw] at htokens hfaults hproper
    obtain ⟨htokens', hfaults', hproper', hlines'⟩ := ih hproper
    rw [afterDraws_cons, transcript]
    refine ⟨?_, ?_, hproper', hlines'.trans hlines⟩
    · rw [htokens, htokens', handedOut, handedOut, List.filterMap_cons]
      cases tokenOf? (draw, (cursor.draw draw).1) <;> rfl
    · rw [hfaults, hfaults', reported, reported, List.filterMap_cons]
      cases faultOf? (draw, (cursor.draw draw).1) <;> rfl

/-- Once nothing is to come, every draw gives the end of the input. -/
theorem transcript_end (h : cursor.pending = []) (draws : List Draw) :
    ∀ exchange ∈ cursor.transcript draws, exchange.2 = .ok cursor.endToken := by
  induction draws generalizing cursor with
  | nil => simp [transcript]
  | cons draw draws ih =>
    obtain ⟨hdraw, hlines⟩ := draw_eq_drawFrom cursor draw
    have hend : drawFrom cursor.endToken [] draw = (.ok cursor.endToken, []) := by
      cases draw with
      | advance => rfl
      | peek ahead => cases ahead <;> rfl
    rw [h, hend] at hdraw
    obtain ⟨hanswer, hleft⟩ := Prod.mk.inj hdraw
    intro exchange hmem
    rw [transcript] at hmem
    rcases List.mem_cons.1 hmem with rfl | hmem
    · exact hanswer
    · rw [← endToken_congr hlines]
      exact ih hleft exchange hmem

/-! ## Rewinds -/

theorem pending_ofLines (lines : List String) :
    (ofLines lines).pending = findings (0 + lines.length) lines := by
  rw [Nat.zero_add]
  rfl

/-- What taking all tokens gives, and where it leaves the cursor. -/
theorem tokenizeAll_eq (cursor : Cursor) :
    (cursor.tokenizeAll).1 = Token.scan cursor.lines ∧
      (cursor.tokenizeAll).2 =
        ⟨cursor.lines, cursor.lines.drop (rewindPoint cursor.lines .tokenizeAll), []⟩ := by
  have hp : Proper (ofLines cursor.lines).pending := by
    rw [pending_ofLines]
    exact proper_findings 0 cursor.lines
  obtain ⟨hgather, hlines⟩ := drain_eq_gather (ofLines cursor.lines) hp
  have hscan : ((ofLines cursor.lines).drain).1 = Token.scan cursor.lines := by
    rw [pending_ofLines] at hgather
    exact (congrArg Prod.fst hgather).trans (gather_findings 0 cursor.lines)
  unfold tokenizeAll restart rewindPoint
  cases hd : (ofLines cursor.lines).drain with
  | mk result last =>
    rw [hd] at hscan hlines
    rw [← hscan]
    cases result with
    | ok tokens =>
      refine ⟨rfl, ?_⟩
      change ofLines last.lines = ofLines cursor.lines
      rw [hlines]
      rfl
    | error fault =>
      obtain ⟨line, hline, hlast⟩ := drain_error hd List.suffix_rfl
      refine ⟨rfl, ?_⟩
      simp only [hline, Option.getD_some]
      exact hlast

theorem lines_rewound (cursor : Cursor) (rewind : Rewind) :
    (cursor.rewound rewind).lines = cursor.lines := by
  cases rewind with
  | restart => rfl
  | tokenizeAll =>
    change (cursor.tokenizeAll).2.lines = cursor.lines
    rw [(tokenizeAll_eq cursor).2]

theorem lines_after (cursor : Cursor) (requests : List Request) :
    (cursor.after requests).lines = cursor.lines := by
  induction requests generalizing cursor with
  | nil => rfl
  | cons request requests ih =>
    cases request with
    | draw draw => exact (ih _).trans (draw_eq_drawFrom cursor draw).2
    | rewind rewind => exact (ih _).trans (lines_rewound cursor rewind)

/-- A rewind forgets everything that was before. -/
theorem rewound_eq (cursor : Cursor) (rewind : Rewind) :
    cursor.rewound rewind =
      ⟨cursor.lines, cursor.lines.drop (rewindPoint cursor.lines rewind), []⟩ := by
  cases rewind with
  | restart => rfl
  | tokenizeAll => exact (tokenizeAll_eq cursor).2

end Cursor

/-! ## The laws -/

/-- Whatever was asked of a cursor before, taking all tokens gives what a scan
of the lines gives, and a rewind leads to the first line or, where taking all
tokens has failed, behind the line that is at fault. From there on draws hand
out the tokens of the lines without a fault, in order, and report the faults of
the others, in order. A look ahead sees the token at its place and changes
nothing that comes later. The end of the input comes when all lines have been
scanned and everything has been handed out and reported, and stays. -/
theorem draws_give_the_tokens_and_the_faults_of_the_lines_in_order (lines : List String)
    (history : List Request) (rewind : Rewind) (draws : List Draw) :
    let before := (Cursor.ofLines lines).after history
    let point := rewindPoint lines rewind
    let readable := Token.readableAfter point (lines.drop point)
    let faulty := Token.faultsAfter point (lines.drop point)
    let exchanges := (before.rewound rewind).transcript draws
    let cursor := (before.rewound rewind).afterDraws draws
    (before.tokenizeAll.1 = Token.scan lines ∧
      before.rewound rewind = ⟨lines, lines.drop point, []⟩) ∧
    handedOut exchanges <+: readable ∧
    reported exchanges <+: faulty ∧
    (∀ ahead token next, cursor.peek ahead = (.ok token, next) →
      token = readable[(handedOut exchanges).length + ahead]?.getD (.endOfInput lines.length) ∧
        ∀ later, next.transcript later = cursor.transcript later) ∧
    (∀ token next, cursor.advance = (.ok token, next) → token.kind = .endOfInput →
      token = .endOfInput lines.length ∧ next.rest = [] ∧ handedOut exchanges = readable ∧
        reported exchanges = faulty ∧
        ∀ later, ∀ exchange ∈ next.transcript later,
          exchange.2 = .ok (.endOfInput lines.length)) := by
  intro before point readable faulty exchanges cursor
  have hbefore : before.lines = lines := Cursor.lines_after _ history
  obtain ⟨hall, -⟩ := Cursor.tokenizeAll_eq before
  have hstart := Cursor.rewound_eq before rewind
  rw [hbefore] at hall hstart
  have hrow : (before.rewound rewind).pending =
      Cursor.findings lines.length (lines.drop point) := by
    rw [hstart]
    rfl
  obtain ⟨hreadable, hfaulty, hproper⟩ := tokens_findings_drop lines point
  rw [← hrow] at hreadable hfaulty hproper
  obtain ⟨htokens, hfaults, hproper', hlines⟩ := Cursor.pending_afterDraws hproper draws
  have hcursor : cursor.lines = lines := by
    rw [hlines, hstart]
  have hendToken : cursor.endToken = .endOfInput lines.length := by
    unfold Cursor.endToken
    rw [hcursor]
  have hreadable' : readable = handedOut exchanges ++ Finding.tokens cursor.pending :=
    hreadable.symm.trans htokens
  have hfaulty' : faulty = reported exchanges ++ Finding.faults cursor.pending :=
    hfaulty.symm.trans hfaults
  refine ⟨⟨hall, hstart⟩, ⟨_, hreadable'.symm⟩, ⟨_, hfaulty'.symm⟩, ?_, ?_⟩
  · intro ahead token next hpeek
    obtain ⟨hlook, hlines'⟩ := Cursor.peek_eq_look cursor ahead
    rw [hpeek] at hlook hlines'
    obtain ⟨hleft, htoken⟩ := look_ok hlook.symm
    refine ⟨?_, fun later => Cursor.transcript_congr hlines' hleft later⟩
    rw [htoken, hendToken, hreadable', List.getElem?_append_right (Nat.le_add_right _ _),
      Nat.add_sub_cancel_left]
  · intro token next hadvance hkind
    obtain ⟨hnil, hrest⟩ := Cursor.advance_end hadvance hproper' hkind
    obtain ⟨hnext, hlines'⟩ := Cursor.advance_eq_next cursor
    rw [hadvance, hnil] at hnext
    rw [hadvance] at hlines'
    obtain ⟨htoken, hleft⟩ := Prod.mk.inj hnext
    rw [hnil] at hreadable' hfaulty'
    refine ⟨?_, hrest, by simpa using hreadable'.symm, by simpa using hfaulty'.symm, ?_⟩
    · rw [← hendToken]
      exact Except.ok.inj htoken
    · intro later exchange hmem
      have hend := Cursor.transcript_end hleft later exchange hmem
      rwa [Cursor.endToken_congr hlines', hendToken] at hend

/-- A look past a line with a string that does not end, in a program whose
tokens have all been asked for before: the fault of the second line has been
passed over, so the next token is the one of the third line. -/
example :
    let cursor := (Cursor.ofLines ["x", "'y", "z"]).rewound .tokenizeAll
    cursor.transcript [.peek 1, .advance, .advance] =
      [(.peek 1, .ok (.endOfInput 3)), (.advance, .ok ⟨.identifier, "z", 3⟩),
        (.advance, .ok (.endOfInput 3))] := by
  cbv

end Pseudocode
