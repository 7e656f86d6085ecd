-- Where a scan fails: the line is in order up to a place at which a fragment
-- begins that something is wrong with, and the first such place is reported. Of
-- many lines the first that fails is reported.
import Mathlib.Data.Nat.Find
import Pseudocode.Proofs.Token.Cut
import Pseudocode.Proofs.Token.Faults

namespace Pseudocode

open Text
open Fragment (Fault FaultAt)

/-! ## A line in order up to some place -/

/-- The front of a line is made of gaps and of tokens, and each token is as long
as it can be in the whole line. -/
inductive CutBefore (rest : List Char) : List Char → List Lexeme → Prop where
  | gap {gap : List Char} (hgap : IsGap gap) : CutBefore rest gap []
  | token {gap front : List Char} {lexeme : Lexeme} {lexemes : List Lexeme} (hgap : IsGap gap)
      (hsome : lexeme.text ≠ "") (hclass : Fragment.classify? lexeme.text = some lexeme.kind)
      (hlongest : lexeme.Longest (front ++ rest)) (hfront : CutBefore rest front lexemes) :
      CutBefore rest (gap ++ (lexeme.text.toList ++ front)) (lexeme :: lexemes)

/-- The line has a fault behind a front that is scanned by itself. -/
structure FaultBehind (line front rest : List Char) (fault : Fault) : Prop where
  line : line = front ++ rest
  scanned : ∃ lexemes, Lexeme.scanFrom 0 front = .ok lexemes ∧ CutBefore rest front lexemes
  fault : FaultAt rest fault

section Front

variable {c : Char} {line front rest : List Char} {lexemes : List Lexeme} {lexeme : Lexeme}
  {fault : Fault}

/-- A gap in front of a line belongs to its first piece. -/
theorem CutBefore.blank (hc : isBlank c = true) (h : CutBefore rest front lexemes) :
    CutBefore rest (c :: front) lexemes := by
  cases h with
  | gap hgap => exact .gap (isGap_cons hc hgap)
  | token hgap hsome hclass hlongest hfront =>
    exact .token (isGap_cons hc hgap) hsome hclass hlongest hfront

/-- What is the longest token in front of a text is so in front of a part of it. -/
theorem Lexeme.Longest.of_append (h : lexeme.Longest (front ++ rest)) : lexeme.Longest front := by
  cases front with
  | nil =>
    exact ⟨fun _ => rfl, fun _ => rfl, h.real, h.string, fun _ => nofun, fun _ => rfl,
      fun _ => nofun⟩
  | cons c front =>
    refine ⟨h.word, fun hk => ?_, h.real, h.string, h.equal, h.point, h.slash⟩
    have hpoint := h.integer hk
    by_cases hc : c = '.'
    · subst hc
      exact digitNext_of_append hpoint
    · exact pointNext_of_head fun hhead => hc (Option.some.inj hhead)

theorem CutBefore.spells (h : CutBefore rest front lexemes) : Spells front lexemes rest := by
  induction h with
  | gap hgap => exact spells_gap hgap rest
  | token hgap _ hclass hlongest _ ih =>
    exact (spells_gap hgap _).append ((spells_of_longest hclass hlongest).append ih)

theorem CutBefore.segmented (h : CutBefore rest front lexemes) : Segmented front lexemes := by
  induction h with
  | gap hgap => exact .tail (isTail_gap hgap)
  | token hgap hsome hclass hlongest _ ih =>
    exact .token hgap hsome hclass hlongest.of_append ih

theorem Fragment.FaultAt.ne_nil (h : FaultAt rest fault) : rest ≠ [] := by
  cases h with
  | unterminated _ _ => exact List.cons_ne_nil _ _
  | number _ hsome _ _ => simp [hsome]
  | @word word _ hword _ _ =>
    cases word with
    | nil => exact hword.elim
    | cons c cs => exact List.cons_ne_nil _ _
  | exclamation _ => exact List.cons_ne_nil _ _
  | character _ _ _ _ _ _ => exact List.cons_ne_nil _ _

/-- A scan that comes to a fault fails with it. -/
theorem scanFrom_of_faultAt (h : FaultAt rest fault) : Lexeme.scanFrom 0 rest = .error fault := by
  cases rest with
  | nil => exact absurd rfl h.ne_nil
  | cons c cs =>
    obtain ⟨hblank, hcomment, hread⟩ := read_of_faultAt h
    have hslash : (decide (c = '/') && decide (cs.head? = some '/')) = false := by
      simpa using hcomment
    rw [Lexeme.scanFrom, hblank, hslash, if_neg Bool.false_ne_true, if_neg Bool.false_ne_true]
    rcases bind_eq_error.1 hread with hread | ⟨fragment, hread, hlexeme⟩
    · exact bind_eq_error.2 (.inl hread)
    · exact bind_eq_error.2 (.inr ⟨fragment, hread, bind_eq_error.2 (.inl hlexeme)⟩)

theorem scanFrom_of_faultBehind (h : FaultBehind line front rest fault) :
    Lexeme.scanFrom 0 line = .error fault := by
  obtain ⟨lexemes, -, hcut⟩ := h.scanned
  have hspells := hcut.spells
  unfold Spells at hspells
  rw [h.line, hspells, scanFrom_of_faultAt h.fault]
  rfl

/-- A scan that fails comes to a fault, behind the characters that belong to the
fragment before. -/
theorem cutBefore_of_scanFrom {skip : Nat} {cs : List Char}
    (h : Lexeme.scanFrom skip cs = .error fault) : ∃ front rest lexemes,
      cs.drop skip = front ++ rest ∧ CutBefore rest front lexemes ∧ FaultAt rest fault := by
  induction cs generalizing skip with
  | nil => cases h
  | cons c cs ih =>
    cases skip with
    | succ skip => exact ih h
    | zero =>
      unfold Lexeme.scanFrom at h
      split at h
      · rename_i hblank
        obtain ⟨front, rest, lexemes, hcs, hcut, hfault⟩ := ih h
        rw [List.drop_zero] at hcs
        exact ⟨c :: front, rest, lexemes, by rw [List.drop_zero, hcs, List.cons_append],
          hcut.blank hblank, hfault⟩
      · rename_i hblank
        split at h
        · cases h
        · rename_i hcomment
          have hhere : (Fragment.read c cs >>= Lexeme.ofFragment) = .error fault →
              ∃ front rest lexemes, (c :: cs).drop 0 = front ++ rest ∧
                CutBefore rest front lexemes ∧ FaultAt rest fault := by
            intro hread
            exact ⟨[], c :: cs, [], rfl, .gap isGap_nil,
              faultAt_of_read (Bool.not_eq_true _ ▸ hblank) hread⟩
          rcases bind_eq_error.1 h with hread | ⟨fragment, hread, h⟩
          · exact hhere (bind_eq_error.2 (.inl hread))
          rcases bind_eq_error.1 h with hlexeme | ⟨lexeme, hlexeme, h⟩
          · exact hhere (bind_eq_error.2 (.inr ⟨fragment, hread, hlexeme⟩))
          rcases bind_eq_error.1 h with h | ⟨_, _, hend⟩
          · obtain ⟨hsome, hclass, hchars, hlongest⟩ := lexeme_of_read hread hlexeme hcomment
            obtain ⟨front, rest, lexemes, hcs, hcut, hfault⟩ := ih h
            rw [hcs] at hchars hlongest
            refine ⟨lexeme.text.toList ++ front, rest, lexeme :: lexemes, ?_,
              .token isGap_nil hsome hclass hlongest hcut, hfault⟩
            rw [List.drop_zero, hchars, List.append_assoc]
          · cases hend

theorem scanFrom_eq_error_iff : Lexeme.scanFrom 0 line = .error fault ↔
    ∃ front rest, FaultBehind line front rest fault := by
  constructor
  · intro h
    obtain ⟨front, rest, lexemes, hline, hcut, hfault⟩ := cutBefore_of_scanFrom h
    exact ⟨front, rest, hline, ⟨lexemes, scanFrom_of_segmented hcut.segmented, hcut⟩, hfault⟩
  · rintro ⟨front, rest, h⟩
    exact scanFrom_of_faultBehind h

/-- No two faults of a line are reported differently. -/
theorem FaultBehind.unique {front' rest' : List Char} {fault' : Fault}
    (h : FaultBehind line front rest fault) (h' : FaultBehind line front' rest' fault') :
    fault = fault' := by
  have hscan := scanFrom_of_faultBehind h
  rw [scanFrom_of_faultBehind h'] at hscan
  exact (Except.error.inj hscan).symm

end Front

/-! ## The first fault -/

/-- The fault of the line behind the shortest front. -/
structure FirstFault (line front rest : List Char) (fault : Fault) : Prop where
  behind : FaultBehind line front rest fault
  first : ∀ front' rest' fault', FaultBehind line front' rest' fault' → front.length ≤ front'.length

section First

variable {line : List Char} {fault : Fault}

theorem exists_firstFault (h : ∃ front rest fault, FaultBehind line front rest fault) :
    ∃ front rest fault, FirstFault line front rest fault := by
  have hlength : ∃ length front rest fault, FaultBehind line front rest fault ∧
      front.length = length := by
    obtain ⟨front, rest, fault, h⟩ := h
    exact ⟨_, front, rest, fault, h, rfl⟩
  classical
  obtain ⟨front, rest, fault, h, hleast⟩ := Nat.find_spec hlength
  refine ⟨front, rest, fault, h, fun front' rest' fault' h' => ?_⟩
  rw [hleast]
  exact Nat.find_min' hlength ⟨front', rest', fault', h', rfl⟩

theorem scanFrom_eq_error_iff_firstFault : Lexeme.scanFrom 0 line = .error fault ↔
    ∃ front rest, FirstFault line front rest fault := by
  rw [scanFrom_eq_error_iff]
  constructor
  · rintro ⟨front, rest, h⟩
    obtain ⟨front', rest', fault', h'⟩ := exists_firstFault ⟨front, rest, fault, h⟩
    obtain rfl := h.unique h'.behind
    exact ⟨front', rest', h'⟩
  · rintro ⟨front, rest, h⟩
    exact ⟨front, rest, h.behind⟩

end First

/-! ## The scan of lines -/

section Lines

variable {line : Nat} {texts : List String} {problem : Diagnostic}

theorem scanLine_eq_error_iff {text : String} : Token.scanLine line text = .error problem ↔
    ∃ fault, Lexeme.scanFrom 0 text.toList = .error fault ∧ problem = fault.onLine line := by
  unfold Token.scanLine Lexeme.scan
  cases Lexeme.scanFrom 0 text.toList with
  | ok lexemes => simp
  | error fault => simp [eq_comm]

/-- The first line that fails is the one that is reported. -/
theorem scanAfter_eq_error_iff : Token.scanAfter line texts = .error problem ↔
    ∃ before text after tokens, texts = before ++ text :: after ∧
      Token.scanAfter line before = .ok tokens ∧
      Token.scanLine (line + before.length + 1) text = .error problem := by
  induction texts generalizing line with
  | nil => simp [Token.scanAfter]
  | cons first texts ih =>
    rw [Token.scanAfter_cons_eq_error]
    constructor
    · rintro (hfirst | ⟨row, hrow, h⟩)
      · exact ⟨[], first, texts, [], rfl, rfl, hfirst⟩
      · obtain ⟨before, text, after, tokens, rfl, hbefore, htext⟩ := ih.1 h
        refine ⟨first :: before, text, after, row ++ tokens, rfl, ?_, ?_⟩
        · exact Token.scanAfter_cons_eq_ok.2 ⟨row, tokens, hrow, hbefore, rfl⟩
        · rwa [List.length_cons, Nat.add_comm before.length, ← Nat.add_assoc]
    · rintro ⟨before, text, after, tokens, hlines, hbefore, htext⟩
      cases before with
      | nil =>
        obtain ⟨rfl, rfl⟩ := List.cons.inj hlines
        exact .inl htext
      | cons first' before =>
        obtain ⟨rfl, rfl⟩ := List.cons.inj hlines
        obtain ⟨row, others, hrow, hothers, -⟩ := Token.scanAfter_cons_eq_ok.1 hbefore
        rw [List.length_cons, Nat.add_comm before.length, ← Nat.add_assoc] at htext
        exact .inr ⟨row, hrow, ih.2 ⟨before, text, after, others, rfl, hothers, htext⟩⟩

end Lines

/-! ## The law -/

/-- Scanning a line fails exactly when something is wrong with a fragment of it
behind a front that is scanned by itself. What is reported is the first such
fault, with the number of the line. Scanning many lines fails exactly when one
of them fails, and reports the first that does. -/
theorem a_scan_fails_exactly_at_the_first_fault :
    (∀ line text, (∃ problem, Token.scanLine line text = .error problem) ↔
      ∃ front rest fault, FaultBehind text.toList front rest fault) ∧
    (∀ line text problem, Token.scanLine line text = .error problem ↔
      ∃ front rest fault, FirstFault text.toList front rest fault ∧
        problem = fault.onLine line) ∧
    (∀ lines problem, Token.scan lines = .error problem ↔
      ∃ before text after tokens, lines = before ++ text :: after ∧
        Token.scan before = .ok tokens ∧
        Token.scanLine (before.length + 1) text = .error problem) := by
  refine ⟨fun line text => ?_, fun line text problem => ?_, fun lines problem => ?_⟩
  · constructor
    · rintro ⟨problem, h⟩
      obtain ⟨fault, hscan, -⟩ := scanLine_eq_error_iff.1 h
      obtain ⟨front, rest, hfault⟩ := scanFrom_eq_error_iff.1 hscan
      exact ⟨front, rest, fault, hfault⟩
    · rintro ⟨front, rest, fault, hfault⟩
      exact ⟨_, scanLine_eq_error_iff.2 ⟨fault, scanFrom_of_faultBehind hfault, rfl⟩⟩
  · rw [scanLine_eq_error_iff]
    constructor
    · rintro ⟨fault, hscan, rfl⟩
      obtain ⟨front, rest, hfirst⟩ := scanFrom_eq_error_iff_firstFault.1 hscan
      exact ⟨front, rest, fault, hfirst, rfl⟩
    · rintro ⟨front, rest, fault, hfirst, rfl⟩
      exact ⟨fault, scanFrom_eq_error_iff_firstFault.2 ⟨front, rest, hfirst⟩, rfl⟩
  · have hlines : Token.scan lines = .error problem ↔ _ := scanAfter_eq_error_iff
    simp only [Nat.zero_add] at hlines
    exact hlines

-- Of two faults the first is reported, and what stands in a comment is none.
example : Token.scan ["x = 1 // it's", "y = 12ab + 'open"] =
    .error (.invalidNumber "12ab" 2) := by decide +kernel

end Pseudocode
