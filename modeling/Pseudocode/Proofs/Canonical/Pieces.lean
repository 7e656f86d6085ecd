-- The pieces that a text is put together from, and what is read from them. A
-- piece says how its tokens stand to the tokens behind it; two pieces in a row
-- say it one after the other.
import Mathlib.Logic.Relation
import Pseudocode.Proofs.Token.Spelling
import Pseudocode.Tree.Canonical

namespace Pseudocode

open Relation (Comp)
open Text

/-- How tokens stand to the last of them, which are what is left. -/
abbrev TokenRel := List Token → List Token → Prop

/-- One token of a sort is in front. -/
def One (p : Token → Prop) : TokenRel := fun ts us => ∃ token, ts = token :: us ∧ p token

/-- A keyword, an operator or a mark is in front. -/
abbrev Word (kind : TokenKind) : TokenRel := One fun token => token.kind = kind

/-- A name is in front. -/
abbrev Name (name : String) : TokenRel :=
  One fun token => token.kind = .identifier ∧ token.text = name

/-! ## Pieces of a line -/

/-- The text is scanned as the same lexemes before every rest that `ends` it,
and on whatever line they stand, their tokens are in the relation to what
comes behind. -/
def ReadsAs (ends : List Char → Prop) (rel : TokenRel) (text : String) : Prop :=
  ∃ lexemes : List Lexeme, (∀ rest, ends rest → Spells text.toList lexemes rest) ∧
    ∀ line us, rel (lexemes.map (·.onLine line) ++ us) us

/-- A piece that no word may go on with. -/
abbrev Open : TokenRel → String → Prop := ReadsAs Breaks

/-- A piece that anything may follow. -/
abbrev Closed : TokenRel → String → Prop := ReadsAs fun _ => True

section Pieces

variable {ends ends' : List Char → Prop} {r s : TokenRel} {a b : String} {kind : TokenKind}

theorem ReadsAs.mono (h : ReadsAs ends r a) (hrel : ∀ ts us, r ts us → s ts us) :
    ReadsAs ends s a := by
  obtain ⟨lexemes, hspells, hr⟩ := h
  exact ⟨lexemes, hspells, fun line us => hrel _ _ (hr line us)⟩

/-- Two pieces in a row, where the second one ends the first. -/
theorem ReadsAs.append (h : ReadsAs ends r a) (h' : ReadsAs ends' s b)
    (hends : ∀ rest, ends' rest → ends (b.toList ++ rest)) :
    ReadsAs ends' (Comp r s) (a ++ b) := by
  obtain ⟨la, hspells, hr⟩ := h
  obtain ⟨lb, hspells', hs⟩ := h'
  refine ⟨la ++ lb, ?_, ?_⟩
  · intro rest hrest
    rw [String.toList_append]
    exact (hspells _ (hends rest hrest)).append (hspells' rest hrest)
  · intro line us
    rw [List.map_append, List.append_assoc]
    exact ⟨_, hr line _, hs line us⟩

theorem Closed.toOpen (h : Closed r a) : Open r a := by
  obtain ⟨lexemes, hspells, hr⟩ := h
  exact ⟨lexemes, fun rest _ => hspells rest trivial, hr⟩

theorem Closed.append (h : Closed r a) (h' : Open s b) : Open (Comp r s) (a ++ b) :=
  ReadsAs.append h h' fun _ _ => trivial

theorem closed_empty : Closed Eq "" :=
  ⟨[], fun rest _ => spells_nil rest, fun _ _ => rfl⟩

/-- A blank behind a piece that may have one. -/
theorem ReadsAs.blank (h : ReadsAs ends r a) (hends : ∀ rest, ends (' ' :: rest)) :
    Closed r (a ++ " ") := by
  have hb : Closed Eq " " := ⟨[], fun rest _ => spells_blank rest, fun _ _ => rfl⟩
  have hab : Closed (Comp r Eq) (a ++ " ") := ReadsAs.append h hb fun rest _ => hends rest
  rwa [Relation.comp_eq] at hab

theorem Open.blank (h : Open r a) : Closed r (a ++ " ") := ReadsAs.blank h breaks_blank

/-! ## Words, marks and signs -/

theorem closed_mark (h : kind ∈ marks) : Closed (Word kind) kind.spelling :=
  ⟨[.spelled kind], fun rest _ => spells_mark h rest, fun _ _ => ⟨_, rfl, rfl⟩⟩

theorem open_keyword (h : kind ∈ keywords) : Open (Word kind) kind.spelling :=
  ⟨[.spelled kind], fun _ => spells_keyword h, fun _ _ => ⟨_, rfl, rfl⟩⟩

theorem open_name {name : String} (h : IsIdentifier name) : Open (Name name) name :=
  ⟨[⟨.identifier, name⟩], fun _ => spells_identifier h, fun _ _ => ⟨_, rfl, rfl, rfl⟩⟩

/-- A mark ends every piece. -/
theorem Open.mark (h : Open r a) (hk : kind ∈ marks) :
    Closed (Comp r (Word kind)) (a ++ kind.spelling) :=
  ReadsAs.append h (closed_mark hk) fun rest _ => breaks_mark hk rest

/-- A sign with blanks around it. -/
theorem Closed.sign (h : Closed r a)
    (hk : ∀ rest, Spells kind.spelling.toList [.spelled kind] (' ' :: rest)) :
    Closed (Comp r (Word kind)) (a ++ kind.spelling ++ " ") := by
  have hs : ReadsAs (fun rest => rest.head? = some ' ') (Word kind) kind.spelling := by
    refine ⟨[.spelled kind], ?_, fun _ _ => ⟨_, rfl, rfl⟩⟩
    intro rest hrest
    obtain ⟨cs, rfl⟩ := List.head?_eq_some_iff.1 hrest
    exact hk cs
  exact ReadsAs.blank (ReadsAs.append h hs fun _ _ => trivial) fun _ => rfl

end Pieces

/-! ## Lines -/

/-- The next token, if there is one, stands below the line. -/
def Below (line : Nat) (ts : List Token) : Prop := ∀ next ∈ ts.head?, line < next.line

/-- Wherever the lines stand, they are scanned, and their tokens are in the
relation to what comes below them. -/
def Covers (rel : TokenRel) (lines : List String) : Prop :=
  ∀ line, ∃ ts, Token.scanAfter line lines = .ok ts ∧
    ∀ us, Below (line + lines.length) us → rel (ts ++ us) us

section Lines

variable {r s : TokenRel} {text : String} {lines others : List String} {ts us : List Token}
  {lexemes : List Lexeme} {line depth : Nat}

theorem scanAfter_append (h : Token.scanAfter line lines = .ok ts)
    (h' : Token.scanAfter (line + lines.length) others = .ok us) :
    Token.scanAfter line (lines ++ others) = .ok (ts ++ us) := by
  induction lines generalizing line ts with
  | nil =>
    cases h
    exact h'
  | cons text texts ih =>
    obtain ⟨first, more, hf, hm, rfl⟩ := Token.scanAfter_cons_eq_ok.1 h
    have hlength : line + 1 + texts.length = line + (text :: texts).length := by
      rw [List.length_cons]
      omega
    rw [← hlength] at h'
    rw [List.cons_append, List.append_assoc]
    exact Token.scanAfter_cons_eq_ok.2 ⟨first, more ++ us, hf, ih hm h', rfl⟩

/-- Tokens stand on the lines that they are scanned from. -/
theorem lt_line_of_scanAfter (h : Token.scanAfter line lines = .ok ts) :
    ∀ token ∈ ts, line < token.line := by
  induction lines generalizing line ts with
  | nil =>
    cases h
    simp
  | cons text texts ih =>
    obtain ⟨first, more, hf, hm, rfl⟩ := Token.scanAfter_cons_eq_ok.1 h
    intro token ht
    rcases List.mem_append.1 ht with ht | ht
    · rw [Token.line_of_scanLine hf token ht]
      exact Nat.lt_succ_self line
    · have := ih hm token ht
      omega

theorem below_append (ht : ∀ token ∈ ts, line < token.line) (hu : Below line us) :
    Below line (ts ++ us) := by
  cases ts with
  | nil => exact hu
  | cons token others =>
    intro next hnext
    cases hnext
    exact ht token (by simp)

theorem Covers.mono (h : Covers r lines) (hrel : ∀ ts us, r ts us → s ts us) :
    Covers s lines := by
  intro line
  obtain ⟨ts, hscan, hr⟩ := h line
  exact ⟨ts, hscan, fun us hus => hrel _ _ (hr us hus)⟩

/-- Lines one after the other. -/
theorem Covers.append (h : Covers r lines) (h' : Covers s others) :
    Covers (Comp r s) (lines ++ others) := by
  intro line
  obtain ⟨ts, hscan, hr⟩ := h line
  obtain ⟨more, hscan', hs⟩ := h' (line + lines.length)
  refine ⟨ts ++ more, scanAfter_append hscan hscan', ?_⟩
  intro us hus
  rw [List.length_append, ← Nat.add_assoc] at hus
  have hmore : Below (line + lines.length) (more ++ us) := by
    refine below_append (lt_line_of_scanAfter hscan') ?_
    intro next hnext
    have := hus next hnext
    omega
  rw [List.append_assoc]
  exact ⟨more ++ us, hr _ hmore, hs us hus⟩

theorem covers_nil : Covers Eq [] := fun _ => ⟨[], rfl, fun _ _ => rfl⟩

theorem spells_blanks (n : Nat) (rest : List Char) : Spells (List.replicate n ' ') [] rest := by
  induction n with
  | zero => exact spells_nil rest
  | succ n ih => exact (spells_blank _).append ih

/-- The blanks in front of a line do not matter. -/
theorem scanAfter_sourceLine (h : Spells text.toList lexemes []) :
    Token.scanAfter line [Node.sourceLine depth text] =
      .ok (lexemes.map (·.onLine (line + 1))) := by
  have hscan : Lexeme.scan (Node.sourceLine depth text) = .ok lexemes := by
    have hs := (spells_blanks (4 * depth) _).append h
    rw [List.nil_append] at hs
    unfold Spells at hs
    unfold Lexeme.scan Node.sourceLine
    rw [String.toList_append, String.toList_ofList]
    rw [List.append_nil] at hs
    rw [hs]
    simp [Lexeme.scanFrom, Functor.map, Except.map]
  have hline : Token.scanLine (line + 1) (Node.sourceLine depth text) =
      .ok (lexemes.map (·.onLine (line + 1))) := by
    unfold Token.scanLine
    rw [hscan]
  exact Token.scanAfter_cons_eq_ok.2 ⟨_, [], hline, rfl, (List.append_nil _).symm⟩

theorem Open.covers (h : Open r text) (depth : Nat) : Covers r [Node.sourceLine depth text] := by
  obtain ⟨lexemes, hspells, hr⟩ := h
  intro line
  exact ⟨_, scanAfter_sourceLine (hspells [] breaks_nil), fun us _ => hr (line + 1) us⟩

end Lines

end Pseudocode
