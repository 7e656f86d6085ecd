-- The lines of a text have no line feed. Lines that have none, hold something
-- and do not end in a carriage return are the lines of the text that is made by
-- joining them with line feeds, with or without a line feed at its end.
import Pseudocode.Text.Lines

namespace Pseudocode

namespace Text

variable {text front behind : String} {cs : List Char}

/-! ## Lines of a text -/

theorem not_mem_linesFrom (cs : List Char) {line : List Char} (h : '\n' ∉ line) :
    ∀ found ∈ linesFrom line cs, '\n' ∉ found := by
  induction cs generalizing line with
  | nil =>
    unfold linesFrom
    split
    · simp
    · simpa using h
  | cons c cs ih =>
    unfold linesFrom
    split
    · refine List.forall_mem_cons.2 ⟨fun hmem => ?_, ih List.not_mem_nil⟩
      unfold dropReturn at hmem
      split at hmem
      · exact h (List.mem_reverse.1 (List.dropLast_subset _ hmem))
      · exact h (List.mem_reverse.1 hmem)
    · rename_i hc
      refine ih fun hmem => ?_
      rcases List.mem_cons.1 hmem with hfeed | hmem
      · exact hc hfeed.symm
      · exact h hmem

/-- No line of a text has a line feed. -/
theorem not_mem_lines (text : String) : ∀ line ∈ lines text, '\n' ∉ line.toList := by
  intro line hline
  obtain ⟨found, hfound, rfl⟩ := List.mem_map.1 hline
  rw [String.toList_ofList]
  exact not_mem_linesFrom text.toList List.not_mem_nil found hfound

/-! ## Texts that are single lines -/

/-- A text without a line feed. -/
def NoFeed (text : String) : Prop := '\n' ∉ text.toList

instance (text : String) : Decidable (NoFeed text) := inferInstanceAs (Decidable ('\n' ∉ text.toList))

/-- A text without a line feed that holds something and does not end in a
carriage return. -/
structure IsLine (text : String) : Prop where
  noFeed : NoFeed text
  ending : ∃ c, text.toList.getLast? = some c ∧ c ≠ '\r'

theorem NoFeed.append (h : NoFeed front) (h' : NoFeed behind) :
    NoFeed (front ++ behind) := by
  unfold NoFeed at *
  rw [String.toList_append, List.mem_append]
  rintro (hmem | hmem)
  · exact h hmem
  · exact h' hmem

/-- Only the end of a line decides how the line ends. -/
theorem NoFeed.isLine (h : NoFeed front) (h' : IsLine behind) :
    IsLine (front ++ behind) := by
  obtain ⟨c, hlast, hc⟩ := h'.ending
  refine ⟨h.append h'.noFeed, c, ?_, hc⟩
  rw [String.toList_append, List.getLast?_append, hlast, Option.some_or]

theorem IsLine.not_return (h : IsLine text) :
    text.toList.getLast? ≠ some '\r' := by
  obtain ⟨c, hlast, hc⟩ := h.ending
  rw [hlast]
  exact fun heq => hc (Option.some.inj heq)

theorem IsLine.ne_nil (h : IsLine text) : text.toList ≠ [] := by
  obtain ⟨c, hlast, -⟩ := h.ending
  intro hnil
  rw [hnil] at hlast
  cases hlast

/-! ## Lines joined with line feeds -/

theorem linesFrom_append (h : '\n' ∉ cs) (line rest : List Char) :
    linesFrom line (cs ++ rest) = linesFrom (cs.reverse ++ line) rest := by
  induction cs generalizing line with
  | nil => rfl
  | cons c cs ih =>
    rw [List.mem_cons, not_or] at h
    rw [List.cons_append, linesFrom, if_neg fun hc => h.1 hc.symm, ih h.2, List.reverse_cons,
      List.append_assoc, List.singleton_append]

theorem dropReturn_eq (h : cs.getLast? ≠ some '\r') : dropReturn cs = cs := by
  unfold dropReturn
  rw [if_neg h]

/-- A line feed ends what stands in front of it, and takes a carriage return along. -/
theorem linesFrom_feed (h : '\n' ∉ cs) (rest : List Char) :
    linesFrom [] (cs ++ '\n' :: rest) = dropReturn cs :: linesFrom [] rest := by
  rw [linesFrom_append h, List.append_nil, linesFrom, if_pos rfl, List.reverse_reverse]

theorem IsLine.linesFrom_feed (h : IsLine text) (rest : List Char) :
    linesFrom [] (text.toList ++ '\n' :: rest) = text.toList :: linesFrom [] rest := by
  rw [Text.linesFrom_feed h.noFeed, dropReturn_eq h.not_return]

theorem linesFrom_last (h : IsLine text) : linesFrom [] text.toList = [text.toList] := by
  have hlast := linesFrom_append h.noFeed [] []
  rw [List.append_nil] at hlast
  rw [hlast, linesFrom, if_neg, List.append_nil, List.reverse_reverse]
  simpa using h.ne_nil

/-- Joined lines are taken apart again, whether a line feed ends the last one or
not. -/
theorem lines_intercalate {texts : List String} (h : ∀ text ∈ texts, IsLine text)
    (hsome : texts ≠ []) {final : String} (hfinal : final = "" ∨ final = "\n") :
    lines (String.intercalate "\n" texts ++ final) = texts := by
  have hfeed : "\n".toList = ['\n'] := rfl
  suffices hfound : linesFrom [] (String.intercalate "\n" texts ++ final).toList =
      texts.map String.toList by
    unfold lines
    rw [hfound, List.map_map]
    simp [Function.comp_def]
  induction texts with
  | nil => exact absurd rfl hsome
  | cons text others ih =>
    obtain ⟨htext, hothers⟩ := List.forall_mem_cons.1 h
    cases others with
    | nil =>
      rw [String.intercalate_singleton, String.toList_append]
      rcases hfinal with rfl | rfl
      · rw [String.toList_empty, List.append_nil]
        exact linesFrom_last htext
      · rw [hfeed]
        exact htext.linesFrom_feed []
    | cons next others =>
      have hrest := ih hothers (List.cons_ne_nil next others)
      rw [String.intercalate_cons_cons, String.append_assoc, String.append_assoc,
        String.toList_append, String.toList_append, hfeed, List.singleton_append,
        htext.linesFrom_feed, hrest]
      rfl

/-! ## Lines that line feeds end -/

/-- The text is these lines, each of them with a line feed behind it and none in it. -/
structure Lined (text : String) (texts : List String) : Prop where
  text : text = String.join (texts.map (· ++ "\n"))
  noFeed : ∀ line ∈ texts, NoFeed line

/-- A line without a carriage return at its end. -/
def withoutReturn (line : String) : String := String.ofList (dropReturn line.toList)

/-- The lines of a text are those that line feeds end, less the carriage returns. -/
theorem Lined.lines_eq {texts : List String} (h : Lined text texts) :
    lines text = texts.map withoutReturn := by
  obtain ⟨rfl, hfeed⟩ := h
  have htext : ∀ texts : List String, (String.join (texts.map (· ++ "\n"))).toList =
      texts.flatMap (fun line => line.toList ++ ['\n']) := by
    intro texts
    simp [List.flatMap_map]
  unfold lines
  rw [htext]
  induction texts with
  | nil => rfl
  | cons line texts ih =>
    obtain ⟨hline, htexts⟩ := List.forall_mem_cons.1 hfeed
    rw [List.flatMap_cons, List.append_assoc, List.singleton_append, linesFrom_feed hline,
      List.map_cons, ih htexts]
    rfl

end Text

end Pseudocode
