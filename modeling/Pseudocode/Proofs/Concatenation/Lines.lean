-- Lines put behind other lines. They are scanned as they are alone, further down,
-- and a lexical fault in the lines before them hides them.
import Pseudocode.Proofs.Canonical.Pieces
import Pseudocode.Proofs.Layout.Alike

namespace Pseudocode

/-! ## Further down -/

namespace Token

/-- The same token a number of lines further down. -/
def lowered (count : Nat) (token : Token) : Token := token.movedTo (token.line + count)

variable {count line : Nat} {text : String} {texts : List String} {tokens : List Token}

theorem scanLine_lowered (h : scanLine line text = .ok tokens) :
    scanLine (line + count) text = .ok (tokens.map (lowered count)) := by
  unfold scanLine at h ⊢
  cases hs : Lexeme.scan text with
  | error fault =>
    rw [hs] at h
    cases h
  | ok lexemes =>
    rw [hs] at h
    cases h
    rw [List.map_map]
    rfl

/-- Lines without a fault have the same tokens below other lines, further down. -/
theorem scanAfter_lowered (h : scanAfter line texts = .ok tokens) :
    scanAfter (line + count) texts = .ok (tokens.map (lowered count)) := by
  induction texts generalizing line tokens with
  | nil =>
    cases h
    rfl
  | cons text texts ih =>
    obtain ⟨first, others, hf, ho, rfl⟩ := scanAfter_cons_eq_ok.1 h
    have hline : line + 1 + count = line + count + 1 := Nat.add_right_comm line 1 count
    exact scanAfter_cons_eq_ok.2
      ⟨_, _, hline ▸ scanLine_lowered hf, hline ▸ ih ho, List.map_append⟩

theorem nextToken_lowered (last : Nat) (tokens : List Token) :
    Reading.nextToken (last + count) (tokens.map (lowered count)) =
      (Reading.nextToken last tokens).lowered count := by
  cases tokens <;> rfl

/-- What is further down is laid out alike. -/
theorem alike_lowered (count : Nat) (tokens : List Token) :
    Alike tokens (tokens.map (lowered count)) := by
  constructor
  · rw [List.map_map]
    rfl
  · induction tokens with
    | nil => rfl
    | cons first others ih =>
      cases others with
      | nil => rfl
      | cons second others =>
        have hline : decide (second.line = first.line) =
            decide ((second.lowered count).line = (first.lowered count).line) :=
          decide_eq_decide.2 Nat.add_right_cancel_iff.symm
        rw [joins, hline, ih]
        rfl

/-- The tokens of lines that are put behind others. -/
theorem scan_append {lines others : List String} {ts us : List Token} (h : scan lines = .ok ts)
    (h' : scan others = .ok us) :
    scan (lines ++ others) = .ok (ts ++ us.map (lowered lines.length)) :=
  scanAfter_append h (scanAfter_lowered h')

end Token

/-! ## Hidden lines -/

/-- Lines behind a fault are not looked at. -/
theorem TokenStream.after_append_of_fault {line : Nat} {lines : List String} {fault : Diagnostic}
    (h : Token.scanAfter line lines = .error fault) (others : List String) :
    after line (lines ++ others) = after line lines := by
  induction lines generalizing line with
  | nil => cases h
  | cons text texts ih =>
    rw [List.cons_append]
    unfold after
    rcases Token.scanAfter_cons_eq_error.1 h with hfirst | ⟨first, hfirst, hothers⟩
    · rw [hfirst]
    · rw [hfirst, ih hothers]

/-- The stream of lines without a fault goes on with that of the lines behind them. -/
theorem TokenStream.after_append_of_scan {line : Nat} {lines : List String} {ts : List Token}
    (h : Token.scanAfter line lines = .ok ts) (others : List String) :
    after line (lines ++ others) = ⟨ts ++ (after (line + lines.length) others).tokens,
      (after (line + lines.length) others).ending⟩ := by
  induction lines generalizing line ts with
  | nil =>
    cases h
    rfl
  | cons text texts ih =>
    obtain ⟨first, more, hf, hm, rfl⟩ := Token.scanAfter_cons_eq_ok.1 h
    have hlength : line + 1 + texts.length = line + (text :: texts).length := by
      rw [List.length_cons]
      omega
    rw [List.cons_append, after, hf]
    simp only [ih hm, hlength, List.append_assoc]

end Pseudocode
