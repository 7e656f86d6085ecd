-- A line can be cut off behind any of its tokens: a fragment is found from the
-- characters it is made of, and what comes behind them can only make it longer.
import Mathlib.Data.List.Forall2
import Pseudocode.Proofs.Scanned
import Pseudocode.Proofs.Token.Forms

namespace Pseudocode

open Text
open Fragment (digitNext fraction signOf exponent number readNumber readString)

/-! ## Reading the front of a text -/

/-- What is read from a text is read from every front of it that is long enough. -/
def FrontOnly (part : List Char → List Char) : Prop :=
  ∀ front rest, (part (front ++ rest)).length ≤ front.length → part front = part (front ++ rest)

section Parts

variable {front rest : List Char}

theorem frontOnly_takeWhile (p : Char → Bool) : FrontOnly (List.takeWhile p) := by
  intro front rest h
  induction front with
  | nil => exact (List.eq_nil_of_length_eq_zero (Nat.le_zero.1 h)).symm
  | cons c front ih =>
    rw [List.cons_append] at h ⊢
    by_cases hc : p c
    · rw [List.takeWhile_cons_of_pos hc] at h ⊢
      rw [List.takeWhile_cons_of_pos hc, ih (Nat.le_of_succ_le_succ h)]
    · rw [List.takeWhile_cons_of_neg hc, List.takeWhile_cons_of_neg hc]

theorem takeWhile_eq_nil_of_append {p : Char → Bool} (h : (front ++ rest).takeWhile p = []) :
    front.takeWhile p = [] := by
  rw [frontOnly_takeWhile p front rest (by rw [h]; exact Nat.zero_le _), h]

theorem digitNext_of_append (h : digitNext (front ++ rest) = false) : digitNext front = false := by
  cases front with
  | nil => rfl
  | cons c front => exact h

theorem frontOnly_fraction : FrontOnly fraction := by
  intro front rest h
  cases front with
  | nil => exact (List.eq_nil_of_length_eq_zero (Nat.le_zero.1 h)).symm
  | cons c front =>
    rw [List.cons_append] at h ⊢
    by_cases hc : c = '.'
    · subst hc
      rw [fraction] at h
      rw [fraction, fraction]
      cases hd : digitNext (front ++ rest) with
      | false =>
        rw [digitNext_of_append hd]
        rfl
      | true =>
        rw [hd] at h
        have hdigits := frontOnly_takeWhile isDigit front rest (Nat.le_of_succ_le_succ h)
        have hfront : digitNext front = true := by
          cases front with
          | nil => exact absurd hdigits.symm (digitNext_of_takeWhile hd)
          | cons d front => exact hd
        rw [hfront, hdigits]
    · unfold fraction
      split
      · rename_i heq
        cases heq
        exact absurd rfl hc
      · split
        · rename_i heq
          cases heq
          exact absurd rfl hc
        · rfl

theorem signOf_append (c : Char) (front rest : List Char) :
    signOf (c :: front ++ rest) = signOf (c :: front) := by
  unfold signOf
  split <;> split <;> simp_all

/-- An exponent has a mark, and a digit at least. -/
theorem exponent_singleton {e : Char} {cs : List Char} (h : (exponent (e :: cs)).length ≤ 1) :
    exponent (e :: cs) = [] := by
  unfold exponent at h ⊢
  dsimp only at h ⊢
  split
  · rename_i hc
    rw [if_pos hc] at h
    simp only [Bool.and_eq_true, Bool.not_eq_true', List.isEmpty_eq_false_iff] at hc
    have hpos := List.length_pos_iff.2 hc.2
    simp only [List.cons_append, List.length_cons, List.length_append] at h
    omega
  · rfl

theorem frontOnly_exponent : FrontOnly exponent := by
  intro front rest h
  cases front with
  | nil => exact (List.eq_nil_of_length_eq_zero (Nat.le_zero.1 h)).symm
  | cons e front =>
    cases front with
    | nil =>
      have hnone : exponent [e] = [] := by simp [exponent, signOf]
      rw [hnone]
      exact (exponent_singleton h).symm
    | cons s front =>
      have hsign : signOf (s :: front ++ rest) = signOf (s :: front) := signOf_append s front rest
      have hle : (signOf (s :: front)).length ≤ (s :: front).length := by
        unfold signOf
        split <;> simp
      rw [List.cons_append] at h ⊢
      unfold exponent at h ⊢
      dsimp only at h ⊢
      rw [hsign, List.drop_append_of_le_length hle] at h ⊢
      by_cases hmark : (decide (e = 'e') || decide (e = 'E')) = true
      · have hdigits := frontOnly_takeWhile isDigit ((s :: front).drop (signOf (s :: front)).length) rest
        by_cases hnil : (((s :: front).drop (signOf (s :: front)).length) ++ rest).takeWhile isDigit = []
        · rw [hnil, takeWhile_eq_nil_of_append hnil]
        · rw [if_pos (by simp [hmark, hnil])] at h
          rw [hdigits]
          simp only [List.cons_append, List.length_cons, List.length_append, List.length_drop] at h ⊢
          omega
      · rw [Bool.not_eq_true] at hmark
        simp [hmark]

theorem frontOnly_number : FrontOnly number := by
  intro front rest h
  unfold number at h ⊢
  dsimp only at h ⊢
  have hwhole : front.takeWhile isDigit = (front ++ rest).takeWhile isDigit := by
    refine frontOnly_takeWhile isDigit front rest ?_
    rw [List.length_append, List.length_append] at h
    omega
  rw [← hwhole] at h ⊢
  generalize front.takeWhile isDigit = whole at h ⊢
  rw [List.length_append, List.length_append] at h
  rw [List.drop_append_of_le_length (show whole.length ≤ front.length by omega)] at h ⊢
  have hpoint : fraction (front.drop whole.length) = fraction (front.drop whole.length ++ rest) := by
    refine frontOnly_fraction _ rest ?_
    rw [List.length_drop]
    omega
  rw [← hpoint] at h ⊢
  generalize fraction (front.drop whole.length) = point at h ⊢
  rw [List.drop_append_of_le_length (show whole.length + point.length ≤ front.length by omega)]
    at h ⊢
  congr 1
  refine frontOnly_exponent _ rest ?_
  rw [List.length_drop]
  omega

end Parts

/-! ## Fragments -/

section Fragments

variable {c : Char} {cs front rest fragment : List Char}

theorem length_of_readNumber (h : readNumber cs = .ok fragment) : fragment.length ≤ cs.length := by
  unfold readNumber at h
  dsimp only at h
  split at h
  · cases h
    exact (prefix_number cs).length_le
  · cases h

theorem length_of_readString {quote : Char} (h : readString quote cs = .ok fragment) :
    fragment.length ≤ cs.length + 1 := by
  unfold readString at h
  dsimp only at h
  split at h
  · cases h
    simp only [List.cons_append, List.length_cons, List.length_append, List.length_nil]
    omega
  · cases h

/-- A fragment is no longer than the text it is read from. -/
theorem length_of_read (h : Fragment.read c cs = .ok fragment) :
    fragment.length - 1 ≤ cs.length := by
  unfold Fragment.read at h
  split at h
  · cases h
    exact (List.takeWhile_prefix isWordChar).length_le
  · split at h
    · have := length_of_readNumber h
      rw [List.length_cons] at this
      omega
    · split at h
      · have := length_of_readString h
        omega
      · split at h
        · rename_i heq
          cases h
          cases cs with
          | nil => simp at heq
          | cons d cs => simp
        · cases h
          exact Nat.zero_le _

theorem readNumber_front (h : readNumber (front ++ rest) = .ok fragment)
    (hl : fragment.length ≤ front.length) : readNumber front = .ok fragment := by
  unfold readNumber at h ⊢
  dsimp only at h ⊢
  split at h
  · rename_i hword
    cases h
    have hnumber := frontOnly_number front rest hl
    rw [← hnumber] at hl hword ⊢
    rw [List.drop_append_of_le_length hl, List.isEmpty_iff] at hword
    rw [if_pos (List.isEmpty_iff.2 (takeWhile_eq_nil_of_append hword))]
  · cases h

theorem readString_front {quote : Char} (h : readString quote (front ++ rest) = .ok fragment)
    (hl : fragment.length - 1 ≤ front.length) : readString quote front = .ok fragment := by
  unfold readString at h ⊢
  dsimp only at h ⊢
  split at h
  · cases h
    simp only [List.cons_append, List.length_cons, List.length_append, List.length_nil] at hl
    have hinner := frontOnly_takeWhile (fun c => decide (c ≠ quote)) front rest (by omega)
    rw [hinner, if_pos (by omega)]
  · cases h

/-- A number that begins with a point has a digit behind it. -/
theorem length_number_point (h : digitNext cs = true) : 2 ≤ (number ('.' :: cs)).length := by
  have hwhole : ('.' :: cs).takeWhile isDigit = [] := List.takeWhile_cons_of_neg (by decide)
  have hdigits := List.length_pos_iff.2 (digitNext_of_takeWhile h)
  unfold number
  rw [hwhole]
  simp only [List.length_nil, List.drop_zero, List.nil_append, List.length_append, fraction, h,
    if_true, List.length_cons]
  omega

/-- A fragment is read from every front of the text that holds it. -/
theorem read_front (h : Fragment.read c (front ++ rest) = .ok fragment)
    (hl : fragment.length - 1 ≤ front.length) : Fragment.read c front = .ok fragment := by
  unfold Fragment.read at h ⊢
  by_cases hword : isWordStart c = true
  · rw [if_pos hword] at h ⊢
    cases h
    rw [frontOnly_takeWhile isWordChar front rest hl]
  rw [if_neg hword] at h ⊢
  by_cases hnumber : (isDigit c || (decide (c = '.') && digitNext (front ++ rest))) = true
  · rw [if_pos hnumber] at h
    have hfront : (isDigit c || (decide (c = '.') && digitNext front)) = true := by
      cases front with
      | cons d front => exact hnumber
      | nil =>
        cases hd : isDigit c with
        | true => rfl
        | false =>
          rw [hd, Bool.false_or, Bool.and_eq_true, decide_eq_true_eq] at hnumber
          obtain ⟨rfl, hnext⟩ := hnumber
          have htwo := length_number_point hnext
          have hfragment : fragment = number ('.' :: ([] ++ rest)) := by
            unfold readNumber at h
            dsimp only at h
            split at h
            · cases h
              rfl
            · cases h
          rw [hfragment, List.length_nil] at hl
          exact absurd (Nat.le_trans (Nat.sub_le_sub_right htwo 1) hl) (by decide)
    rw [if_pos hfront]
    exact readNumber_front h (by rw [List.length_cons]; omega)
  rw [if_neg hnumber] at h
  have hfront : ¬(isDigit c || (decide (c = '.') && digitNext front)) = true := by
    simp only [Bool.or_eq_true, Bool.and_eq_true, not_or, not_and, Bool.not_eq_true] at hnumber ⊢
    exact ⟨hnumber.1, fun hpoint => digitNext_of_append (hnumber.2 hpoint)⟩
  rw [if_neg hfront]
  by_cases hquote : (decide (c = '"') || decide (c = '\'')) = true
  · rw [if_pos hquote] at h ⊢
    exact readString_front h hl
  rw [if_neg hquote] at h ⊢
  cases front with
  | nil =>
    split at h
    · cases h
      cases hl
    · cases h
      simp
  | cons d front => exact h

end Fragments

/-! ## Lines -/

namespace Lexeme

/-- A line without what comes behind some number of its lexemes. At least as
much is left as the fragment takes that is being passed over. -/
theorem scanFrom_take {skip : Nat} {cs : List Char} {lexemes : List Lexeme}
    (h : scanFrom skip cs = .ok lexemes) (hs : skip ≤ cs.length) (count : Nat) :
    ∃ front, front <+: cs ∧ skip ≤ front.length ∧
      scanFrom skip front = .ok (lexemes.take count) := by
  induction cs generalizing skip lexemes count with
  | nil =>
    cases h
    exact ⟨[], List.prefix_rfl, hs, by rw [List.take_nil]; rfl⟩
  | cons c cs ih =>
    cases skip with
    | succ skip =>
      obtain ⟨front, hfront, hle, hscan⟩ := ih h (Nat.le_of_succ_le_succ hs) count
      exact ⟨c :: front, List.cons_prefix_cons.2 ⟨rfl, hfront⟩, Nat.succ_le_succ hle, hscan⟩
    | zero =>
      cases count with
      | zero => exact ⟨[], List.nil_prefix, Nat.le_refl 0, rfl⟩
      | succ count =>
        unfold scanFrom at h
        split at h
        · rename_i hblank
          obtain ⟨front, hfront, -, hscan⟩ := ih h (Nat.zero_le _) (count + 1)
          refine ⟨c :: front, List.cons_prefix_cons.2 ⟨rfl, hfront⟩, Nat.zero_le _, ?_⟩
          rw [scanFrom, if_pos hblank, hscan]
        · rename_i hblank
          split at h
          · cases h
            exact ⟨[], List.nil_prefix, Nat.le_refl 0, rfl⟩
          · rename_i hcomment
            obtain ⟨fragment, hread, h⟩ := bind_eq_ok.1 h
            obtain ⟨lexeme, hl, h⟩ := bind_eq_ok.1 h
            obtain ⟨others, ho, h⟩ := bind_eq_ok.1 h
            cases h
            obtain ⟨front, ⟨rest, rfl⟩, hle, hscan⟩ := ih ho (length_of_read hread) count
            refine ⟨c :: front, List.cons_prefix_cons.2 ⟨rfl, List.prefix_append _ _⟩,
              Nat.zero_le _, ?_⟩
            have hcomment' : ¬(decide (c = '/') && decide (front.head? = some '/')) = true := by
              cases front with
              | nil => simp
              | cons d front => exact hcomment
            rw [scanFrom, if_neg hblank, if_neg hcomment']
            exact bind_eq_ok.2 ⟨fragment, read_front hread hle,
              bind_eq_ok.2 ⟨lexeme, hl, bind_eq_ok.2 ⟨_, hscan, rfl⟩⟩⟩

end Lexeme

/-- Each line is a front of the line at its place in the other list. -/
def Cut (kept lines : List String) : Prop :=
  List.Forall₂ (fun cut line => cut.toList <+: line.toList) kept lines

namespace Token

theorem scanLine_take {line : Nat} {text : String} {tokens : List Token}
    (h : scanLine line text = .ok tokens) (count : Nat) :
    ∃ cut, cut.toList <+: text.toList ∧ scanLine line cut = .ok (tokens.take count) := by
  unfold scanLine at h
  split at h
  · rename_i lexemes hl
    cases h
    obtain ⟨front, hfront, -, hscan⟩ := Lexeme.scanFrom_take hl (Nat.zero_le _) count
    refine ⟨String.ofList front, by rwa [String.toList_ofList], ?_⟩
    unfold scanLine Lexeme.scan
    rw [String.toList_ofList, hscan]
    simp only [List.map_take]
  · cases h

theorem scanAfter_take {line : Nat} {texts : List String} {tokens : List Token}
    (h : scanAfter line texts = .ok tokens) (count : Nat) :
    ∃ kept, Cut kept texts ∧ scanAfter line kept = .ok (tokens.take count) := by
  induction texts generalizing line tokens count with
  | nil =>
    cases h
    exact ⟨[], .nil, by rw [List.take_nil]; rfl⟩
  | cons text texts ih =>
    obtain ⟨first, others, hf, ho, rfl⟩ := scanAfter_cons_eq_ok.1 h
    obtain ⟨cut, hcut, hscan⟩ := scanLine_take hf count
    obtain ⟨kept, hkept, hrest⟩ := ih ho (count - first.length)
    exact ⟨cut :: kept, .cons hcut hkept,
      scanAfter_cons_eq_ok.2 ⟨_, _, hscan, hrest, List.take_append⟩⟩

end Token

end Pseudocode
