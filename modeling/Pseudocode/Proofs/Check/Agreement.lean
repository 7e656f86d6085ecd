-- The check of a file says of it what the library says of its text: it ends well
-- exactly when the text is a program, it names the first thing that is wrong, and
-- what it prints on request is what the library makes of the program.
import Pseudocode.Check.Report
import Pseudocode.Proofs.Diagnosis.Quotation
import Pseudocode.Proofs.Number.Numeral

namespace Pseudocode

/-! ## What is printed, as a text -/

/-- Lines as a text, each with its end. -/
def printedText (lines : List String) : String := String.join (lines.map (· ++ "\n"))

namespace Check

/-- What is printed of a program that is in order: the numbers of its lines, tokens
and nodes, its outline and its canonical source, as far as the options ask for them. -/
def announcement (options : Options) (durations : Durations) (lines tokens nodes : Nat)
    (outline : String) (source : List String) : String :=
  (if options.verbose then
    "Read " ++ toString lines ++ " lines from " ++ options.path ++
      "\n✓ Lexical analysis completed in " ++ Durations.seconds durations.lexical ++
      "s\n  Generated " ++ toString tokens ++
      " tokens\n✓ Parsing completed in " ++ Durations.seconds durations.parsing ++
      "s\n  Built " ++ toString nodes ++ " AST nodes\n" else "") ++
  (if options.showTree then "\nAbstract Syntax Tree:\n" ++ outline else "") ++
  (if options.render then printedText source else "") ++
  (if options.timing then
    "\nStatistics:\n  Lexical analysis: " ++
      Durations.padded 8 (Durations.seconds durations.lexical) ++
      "s\n  Parsing:          " ++ Durations.padded 8 (Durations.seconds durations.parsing) ++
      "s\n  Total:            " ++ Durations.padded 8 (Durations.seconds durations.total) ++
      "s\n  Lines:            " ++ toString lines ++
      "\n  Tokens:           " ++ toString tokens ++
      "\n  AST nodes:        " ++ toString nodes ++ "\n" else "") ++
  (if options.verbose then "Syntax check successful!\n" else "")

/-- The outcome is a failure that tells of a problem and of its line, all in one line. -/
def Reports (outcome : Outcome) (problem : Diagnostic) : Prop :=
  outcome.code = 1 ∧ ∃ line, problem.line? = some line ∧
    let report := "Error: line " ++ toString line ++ ": " ++ problem.message
    outcome.failure = some report ∧ Text.NoFeed report

end Check

section Printed

variable {lines others : List String}

theorem printedText_append :
    printedText (lines ++ others) = printedText lines ++ printedText others := by
  unfold printedText
  rw [List.map_append, String.join_append]

theorem printedText_when (wanted : Bool) :
    printedText (Check.when wanted lines) = if wanted then printedText lines else "" := by
  cases wanted <;> rfl

theorem printedText_treeLines (tree : Option Node) : printedText (Check.treeLines tree) =
    "\nAbstract Syntax Tree:\n" ++ tree.elim "  (empty)\n" Node.dump := by
  unfold Check.treeLines
  rw [printedText_append]
  cases tree with
  | none => rfl
  | some tree => rfl

/-- A program that is in order is announced. -/
theorem printedText_report {options : Options} {durations : Durations} {tokens : List Token}
    {tree : Option Node} :
    printedText (Check.report options durations lines (.ok tokens) (.ok tree)).printed =
      Check.announcement options durations lines.length tokens.length (tree.elim 0 Node.count)
        (tree.elim "  (empty)\n" Node.dump) (tree.elim [] Node.render) := by
  have hcount : Check.nodeCount tree = tree.elim 0 Node.count := by cases tree <;> rfl
  have hsource : Check.sourceLines tree = tree.elim [] Node.render := by cases tree <;> rfl
  have hlog : printedText (Check.readLog options lines) ++
      printedText (Check.tokenLog durations tokens) ++ printedText (Check.treeLog durations tree) =
        "Read " ++ toString lines.length ++ " lines from " ++ options.path ++
          "\n✓ Lexical analysis completed in " ++ Durations.seconds durations.lexical ++
          "s\n  Generated " ++ toString tokens.length ++
          " tokens\n✓ Parsing completed in " ++ Durations.seconds durations.parsing ++
          "s\n  Built " ++ toString (tree.elim 0 Node.count) ++ " AST nodes\n" := by
    rw [← String.toList_inj]
    simp [printedText, Check.readLog, Check.tokenLog, Check.treeLog, hcount]
  have hstatistics : printedText (Check.statistics durations lines tokens tree) =
      "\nStatistics:\n  Lexical analysis: " ++
        Durations.padded 8 (Durations.seconds durations.lexical) ++
        "s\n  Parsing:          " ++ Durations.padded 8 (Durations.seconds durations.parsing) ++
        "s\n  Total:            " ++ Durations.padded 8 (Durations.seconds durations.total) ++
        "s\n  Lines:            " ++ toString lines.length ++
        "\n  Tokens:           " ++ toString tokens.length ++
        "\n  AST nodes:        " ++ toString (tree.elim 0 Node.count) ++ "\n" := by
    rw [← String.toList_inj]
    simp [printedText, Check.statistics, hcount]
  unfold Check.report Check.announcement
  simp only [printedText_append, printedText_when, printedText_treeLines, hsource, hstatistics,
    ← hlog]
  cases options.verbose with
  | false => simp
  | true => simp [String.append_assoc, printedText]

end Printed

/-! ## Every problem has a line -/

namespace Reading

/-- Without refusals to come, tokens bring none that is not about the token before. -/
theorem steady_willing : Steady (fun _ => True) Item.Willing :=
  ⟨fun _ h => h, fun _ _ _ h _ hf => willing_of_feed h hf⟩

end Reading

section Lines

variable {lines : List String} {problem : Diagnostic}

theorem line?_of_scan_error (h : Token.scan lines = .error problem) :
    ∃ line, problem.line? = some line := by
  obtain ⟨before, -, hline, -⟩ := Program.parse_of_scan_error h
  exact ⟨_, hline⟩

theorem line?_of_parse_error (h : Program.parse lines = .error problem) :
    ∃ line, problem.line? = some line := by
  cases hscan : Token.scan lines with
  | error fault =>
    obtain ⟨before, -, hline, hp | ⟨d, line, hp, -, -, hd, -⟩⟩ := Program.parse_of_scan_error hscan
    · rw [h] at hp
      cases hp
      exact ⟨_, hline⟩
    · rw [h] at hp
      cases hp
      exact ⟨line, hd⟩
  | ok tokens =>
    unfold Program.parse at h
    rw [TokenStream.ofLines_of_scan hscan, Program.ofStream_eq_error] at h
    have hwilling : Item.Willing (Reading.ofProgram true).agenda := rfl
    obtain ⟨front, rest, next, -, -, -, hdescribes⟩ :=
      Reading.describes_of_run Reading.steady_willing hwilling (fun _ _ => trivial) h
    exact ⟨_, hdescribes.1⟩

end Lines

/-! ## The check of a file -/

theorem fromUTF8?_toUTF8 (text : String) : String.fromUTF8? text.toUTF8 = some text := by
  unfold String.fromUTF8?
  rw [String.toUTF8_eq_toByteArray, dif_pos text.isValidUTF8]
  rfl

section Check

variable {options : Options} {durations : Durations} {text : String} {problem : Diagnostic}

theorem Check.run_file : Check.run options durations (.file text.toUTF8) =
    Check.report options durations (Text.lines text) (Token.scan (Text.lines text))
      (Program.parseText text) := by
  have hlines : (Entry.file text.toUTF8).inputLines options.path = .ok (Text.lines text) := by
    unfold Entry.inputLines Entry.exists?
    rw [if_pos rfl, Entry.readLines, fromUTF8?_toUTF8]
  unfold Check.run
  rw [hlines]
  rfl

theorem noFeed_toString (n : Nat) : Text.NoFeed (toString n) := by
  unfold Text.NoFeed
  rw [Decimal.toList_toString]
  exact fun hmem => absurd (Decimal.isDigit_of_mem_digitsOf hmem) (by decide)

theorem Check.reports_failed {printed : List String} {line : Nat} (h : problem.line? = some line)
    (hquotes : problem.Quotes (StandsIn (Text.lines text))) :
    Check.Reports (Check.failed printed problem) problem := by
  have hmessage : Text.NoFeed problem.message :=
    Diagnostic.noFeed_message (hquotes.mono fun _ hin => hin.noFeed (Text.not_mem_lines text))
  refine ⟨rfl, line, h, ?_, ?_⟩
  · unfold Check.failed Diagnostic.report
    rw [h]
    simp only [String.append_assoc]
    rfl
  · have hline : Text.NoFeed ("Error: line " ++ toString line) :=
      .append (by decide) (noFeed_toString line)
    exact (hline.append (by decide)).append hmessage

end Check

/-! ## The law -/

/-- The check of a file with some text ends with 0 exactly when the text is a
program. If the lines of the text cannot be scanned, the first lexical fault is
reported, and otherwise what is wrong with the program. Of a program the outline,
the canonical source and the numbers are printed that the library has of it. What
is asked for by options changes neither the end nor the report. -/
theorem the_check_of_a_file_agrees_with_the_library (options : Options) (durations : Durations)
    (text : String) :
    let outcome := Check.run options durations (.file text.toUTF8)
    let lines := Text.lines text
    (outcome.code = 0 ↔ ∃ tree, Program.parseText text = .ok tree) ∧
    (∀ problem, Token.scan lines = .error problem → Check.Reports outcome problem) ∧
    (∀ tokens problem, Token.scan lines = .ok tokens →
      Program.parseText text = .error problem → Check.Reports outcome problem) ∧
    (∀ tree, Program.parseText text = .ok tree → ∃ tokens, Token.scan lines = .ok tokens ∧
      outcome.failure = none ∧
      printedText outcome.printed = Check.announcement options durations lines.length
        tokens.length (tree.elim 0 Node.count) (tree.elim "  (empty)\n" Node.dump)
        (tree.elim [] Node.render)) ∧
    ∀ options' durations',
      (Check.run options' durations' (.file text.toUTF8)).code = outcome.code ∧
        (Check.run options' durations' (.file text.toUTF8)).failure = outcome.failure := by
  intro outcome lines
  have houtcome : outcome =
      Check.report options durations lines (Token.scan lines) (Program.parseText text) :=
    Check.run_file
  have hsame : ∀ options' durations',
      (Check.run options' durations' (.file text.toUTF8)).code = outcome.code ∧
        (Check.run options' durations' (.file text.toUTF8)).failure = outcome.failure := by
    intro options' durations'
    rw [houtcome, Check.run_file]
    unfold Check.report
    cases Token.scan lines with
    | error problem => exact ⟨rfl, rfl⟩
    | ok tokens => cases Program.parseText text <;> exact ⟨rfl, rfl⟩
  refine ⟨?_, fun problem hscan => ?_, fun tokens problem hscan hparse => ?_, fun tree hparse => ?_,
    hsame⟩
  · rw [houtcome]
    cases hparse : Program.parseText text with
    | ok tree =>
      obtain ⟨tokens, hscan⟩ := Program.scan_of_parse hparse
      simp [lines, hscan, Check.report]
    | error problem =>
      cases Token.scan lines with
      | ok tokens => simp [Check.report, Check.failed]
      | error fault => simp [Check.report, Check.failed]
  · obtain ⟨line, hline⟩ := line?_of_scan_error hscan
    rw [houtcome, hscan]
    exact Check.reports_failed hline (quotes_of_scan_error hscan)
  · obtain ⟨line, hline⟩ := line?_of_parse_error hparse
    rw [houtcome, hscan, hparse]
    exact Check.reports_failed hline (quotes_of_parse_error hparse)
  · obtain ⟨tokens, hscan⟩ := Program.scan_of_parse hparse
    refine ⟨tokens, hscan, ?_, ?_⟩
    · rw [houtcome, hparse, show Token.scan lines = .ok tokens from hscan]
      rfl
    · rw [houtcome, hparse, show Token.scan lines = .ok tokens from hscan]
      exact printedText_report

end Pseudocode
