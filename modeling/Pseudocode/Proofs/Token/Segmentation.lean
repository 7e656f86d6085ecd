-- Nothing of a line is lost when it is scanned: the line is made of its tokens
-- with blanks between them and a comment behind them. Every token is the
-- longest one at its place, so there is one way only to cut a line.
import Mathlib.Data.List.Forall2
import Pseudocode.Proofs.Token.Longest

namespace Pseudocode

open Text

/-! ## A line in pieces -/

/-- Blanks and nothing else. -/
def IsGap (gap : List Char) : Prop := ∀ c ∈ gap, isBlank c = true

instance (gap : List Char) : Decidable (IsGap gap) :=
  decidable_of_iff (gap.all isBlank = true) List.all_eq_true

/-- What may stand behind the last token: blanks, and a comment that goes on to
the end of the line. -/
def IsTail (tail : List Char) : Prop := ∃ gap comment, tail = gap ++ comment ∧ IsGap gap ∧
  (comment = [] ∨ ∃ words, comment = '/' :: '/' :: words)

/-- A line is cut into its tokens, each with its kind and as long as it can be,
and the gaps in front of them. -/
inductive Segmented : List Char → List Lexeme → Prop where
  | tail {tail : List Char} (htail : IsTail tail) : Segmented tail []
  | token {gap rest : List Char} {lexeme : Lexeme} {lexemes : List Lexeme} (hgap : IsGap gap)
      (hsome : lexeme.text ≠ "") (hclass : Fragment.classify? lexeme.text = some lexeme.kind)
      (hlongest : lexeme.Longest rest) (hrest : Segmented rest lexemes) :
      Segmented (gap ++ (lexeme.text.toList ++ rest)) (lexeme :: lexemes)

section Pieces

variable {c : Char} {gap cs : List Char} {lexemes : List Lexeme}

theorem isGap_nil : IsGap [] := by
  unfold IsGap
  simp

theorem isGap_cons (hc : isBlank c = true) (h : IsGap gap) : IsGap (c :: gap) := by
  unfold IsGap
  rw [List.forall_mem_cons]
  exact ⟨hc, h⟩

theorem head_of_gap (h : IsGap gap) : ∀ c ∈ gap.head?, isBlank c = true :=
  fun c hc => h c (List.mem_of_mem_head? hc)

theorem isTail_gap (h : IsGap gap) : IsTail gap :=
  ⟨gap, [], (List.append_nil gap).symm, h, .inl rfl⟩

/-- A gap in front of a line belongs to its first piece. -/
theorem Segmented.blank (hc : isBlank c = true) (h : Segmented cs lexemes) :
    Segmented (c :: cs) lexemes := by
  cases h with
  | tail htail =>
    obtain ⟨gap, comment, rfl, hgap, hcomment⟩ := htail
    exact .tail ⟨c :: gap, comment, rfl, isGap_cons hc hgap, hcomment⟩
  | token hgap hsome hclass hlongest hrest =>
    exact .token (isGap_cons hc hgap) hsome hclass hlongest hrest

/-- A gap spells nothing. -/
theorem spells_gap (h : IsGap gap) (rest : List Char) : Spells gap [] rest := by
  induction gap with
  | nil => exact spells_nil rest
  | cons c gap ih =>
    obtain ⟨hc, hgap⟩ := List.forall_mem_cons.1 h
    exact (spells_blank_char hc (gap ++ rest)).append (ih hgap)

theorem scanFrom_tail {tail : List Char} (h : IsTail tail) : Lexeme.scanFrom 0 tail = .ok [] := by
  obtain ⟨gap, comment, rfl, hgap, hcomment⟩ := h
  have hspells := spells_gap hgap comment
  unfold Spells at hspells
  rw [hspells]
  rcases hcomment with rfl | ⟨words, rfl⟩
  · rfl
  · rfl

end Pieces

/-! ## The scan of a line -/

theorem text_of_ofFragment {fragment : List Char} {lexeme : Lexeme}
    (h : Lexeme.ofFragment fragment = .ok lexeme) : lexeme.text = String.ofList fragment := by
  unfold Lexeme.ofFragment at h
  split at h
  · cases h
    rfl
  · cases h

/-- What is scanned at a character begins with it and is the longest token there,
and the scan goes on behind it. -/
theorem lexeme_of_read {c : Char} {cs fragment : List Char} {lexeme : Lexeme}
    (hread : Fragment.read c cs = .ok fragment) (hlexeme : Lexeme.ofFragment fragment = .ok lexeme)
    (hcomment : ¬(c = '/' && cs.head? = some '/') = true) :
    lexeme.text ≠ "" ∧ Fragment.classify? lexeme.text = some lexeme.kind ∧
      c :: cs = lexeme.text.toList ++ cs.drop (fragment.length - 1) ∧
      lexeme.Longest (cs.drop (fragment.length - 1)) := by
  have hclass := Lexeme.classify?_of_ofFragment hlexeme
  have htext := text_of_ofFragment hlexeme
  obtain ⟨others, rest, rfl, rfl, hlongest⟩ :=
    longest_of_read hread (by simpa using hcomment) (htext ▸ hclass)
  rw [← htext] at hlongest
  have hchars : lexeme.text.toList = c :: others := by rw [htext, String.toList_ofList]
  have hrest : (others ++ rest).drop ((c :: others).length - 1) = rest := by
    rw [List.length_cons, Nat.add_sub_cancel, List.drop_left]
  rw [hrest, hchars]
  refine ⟨?_, hclass, rfl, hlongest⟩
  intro hempty
  rw [hempty] at hchars
  cases hchars

/-- What is cut into tokens is scanned as them. -/
theorem scanFrom_of_segmented {cs : List Char} {lexemes : List Lexeme}
    (h : Segmented cs lexemes) : Lexeme.scanFrom 0 cs = .ok lexemes := by
  induction h with
  | tail htail => exact scanFrom_tail htail
  | @token gap rest lexeme lexemes hgap _ hclass hlongest _ ih =>
    have hspells := (spells_gap hgap _).append (spells_of_longest hclass hlongest)
    unfold Spells at hspells
    rw [List.append_assoc] at hspells
    rw [hspells, ih]
    rfl

/-- What is scanned is cut into tokens, behind the characters that belong to the
fragment before. -/
theorem segmented_of_scanFrom {skip : Nat} {cs : List Char} {lexemes : List Lexeme}
    (h : Lexeme.scanFrom skip cs = .ok lexemes) : Segmented (cs.drop skip) lexemes := by
  induction cs generalizing skip lexemes with
  | nil =>
    cases h
    rw [List.drop_nil]
    exact .tail (isTail_gap isGap_nil)
  | cons c cs ih =>
    cases skip with
    | succ skip => exact ih h
    | zero =>
      unfold Lexeme.scanFrom at h
      split at h
      · rename_i hblank
        exact (ih h).blank hblank
      · split at h
        · rename_i hcomment
          cases h
          rw [Bool.and_eq_true, decide_eq_true_eq, decide_eq_true_eq] at hcomment
          obtain ⟨rfl, hslash⟩ := hcomment
          obtain ⟨words, rfl⟩ := List.head?_eq_some_iff.1 hslash
          exact .tail ⟨[], _, rfl, isGap_nil, .inr ⟨words, rfl⟩⟩
        · rename_i hcomment
          obtain ⟨fragment, hread, h⟩ := bind_eq_ok.1 h
          obtain ⟨lexeme, hlexeme, h⟩ := bind_eq_ok.1 h
          obtain ⟨found, hfound, h⟩ := bind_eq_ok.1 h
          cases h
          obtain ⟨hsome, hclass, hchars, hlongest⟩ := lexeme_of_read hread hlexeme hcomment
          rw [List.drop_zero, hchars]
          exact .token isGap_nil hsome hclass hlongest (ih hfound)

theorem scanFrom_eq_ok_iff {cs : List Char} {lexemes : List Lexeme} :
    Lexeme.scanFrom 0 cs = .ok lexemes ↔ Segmented cs lexemes :=
  ⟨segmented_of_scanFrom, scanFrom_of_segmented⟩

/-! ## The scan of lines -/

section Lines

variable {line : Nat} {tokens : List Token}

theorem scanLine_eq_ok_iff {text : String} : Token.scanLine line text = .ok tokens ↔
    ∃ lexemes, Segmented text.toList lexemes ∧ tokens = lexemes.map (·.onLine line) := by
  unfold Token.scanLine Lexeme.scan
  constructor
  · intro h
    split at h
    · rename_i lexemes hscan
      cases h
      exact ⟨lexemes, scanFrom_eq_ok_iff.1 hscan, rfl⟩
    · cases h
  · rintro ⟨lexemes, hline, rfl⟩
    rw [scanFrom_eq_ok_iff.2 hline]

/-- The tokens of a line of a program, where `line` says how many come before it. -/
def Row (line : String × Nat) (row : List Token) : Prop :=
  Token.scanLine (line.2 + 1) line.1 = .ok row

theorem scanAfter_eq_ok_iff {texts : List String} : Token.scanAfter line texts = .ok tokens ↔
    ∃ rows, List.Forall₂ Row (texts.zipIdx line) rows ∧ tokens = rows.flatten := by
  induction texts generalizing line tokens with
  | nil =>
    constructor
    · intro h
      cases h
      exact ⟨[], .nil, rfl⟩
    · rintro ⟨rows, hrows, rfl⟩
      cases hrows
      rfl
  | cons text texts ih =>
    rw [Token.scanAfter_cons_eq_ok, List.zipIdx_cons]
    constructor
    · rintro ⟨first, others, hfirst, hothers, rfl⟩
      obtain ⟨rows, hrows, rfl⟩ := ih.1 hothers
      exact ⟨first :: rows, .cons hfirst hrows, rfl⟩
    · rintro ⟨rows, hrows, rfl⟩
      cases hrows with
      | cons hfirst hrows =>
        exact ⟨_, _, hfirst, ih.2 ⟨_, hrows, rfl⟩, rfl⟩

theorem exists_row {texts : List (String × Nat)} {rows : List (List Token)} {row : List Token}
    (h : List.Forall₂ Row texts rows) (hrow : row ∈ rows) : ∃ text ∈ texts, Row text row := by
  induction h with
  | nil => cases hrow
  | cons hfirst _ ih =>
    rcases List.mem_cons.1 hrow with rfl | hrow
    · exact ⟨_, List.mem_cons_self, hfirst⟩
    · obtain ⟨text, htext, hrow⟩ := ih hrow
      exact ⟨text, List.mem_cons_of_mem _ htext, hrow⟩

/-- A token of a program is a token of one of its lines. -/
theorem exists_line_of_scan {lines : List String} {token : Token}
    (h : Token.scan lines = .ok tokens) (ht : token ∈ tokens) :
    ∃ text ∈ lines, ∃ number row, Token.scanLine number text = .ok row ∧ token ∈ row := by
  obtain ⟨rows, hrows, rfl⟩ := scanAfter_eq_ok_iff.1 h
  obtain ⟨row, hmem, ht⟩ := List.mem_flatten.1 ht
  obtain ⟨text, htext, hrow⟩ := exists_row hrows hmem
  exact ⟨text.1, List.fst_mem_of_mem_zipIdx htext, _, row, hrow, ht⟩

end Lines

/-! ## The law -/

/-- Scanning a line succeeds exactly when the line is made of gaps and longest
tokens, and gives these with the number of the line. Scanning many lines gives
the tokens of one line after the other. -/
theorem a_scan_cuts_each_line_into_longest_tokens :
    (∀ line text tokens, Token.scanLine line text = .ok tokens ↔
      ∃ lexemes, Segmented text.toList lexemes ∧ tokens = lexemes.map (·.onLine line)) ∧
    (∀ lines tokens, Token.scan lines = .ok tokens ↔
      ∃ rows, List.Forall₂ Row lines.zipIdx rows ∧ tokens = rows.flatten) :=
  ⟨fun _ _ _ => scanLine_eq_ok_iff, fun _ _ => scanAfter_eq_ok_iff⟩

end Pseudocode
