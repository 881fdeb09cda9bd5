import Mathlib.Data.List.TakeDrop
import IntScript.Proofs.Reading
import IntScript.Proofs.Report

/-!
# The run command

A run on the console reports what the same run in memory does, when the host in memory offers the
lines that the standard input consists of. The console takes one line at a time from a stream of
bytes; what these lines are is said at once for the whole stream by `Console.lines`.
-/

namespace IntScript

namespace Console

variable {bytes line rest : List UInt8}

/-! ## The lines of a stream -/

/-- The lines of a stream of bytes, cut at its line feeds. A carriage return right before a line
feed belongs to the terminator. What follows the last line feed is a line unless it is empty, and
is kept as it is. -/
def lines (bytes : List UInt8) : List ByteArray :=
  let pieces := bytes.splitOn lineFeed
  let terminated := pieces.dropLast.map dropCarriageReturn
  let last := pieces.getLast?.toList.filter fun piece => !piece.isEmpty
  (terminated ++ last).map List.toByteArray

theorem lines_nil : lines [] = [] := by
  simp [lines]

theorem lines_of_terminated (h : lineFeed ∉ line) (rest : List UInt8) :
    lines (line ++ lineFeed :: rest) = (dropCarriageReturn line).toByteArray :: lines rest := by
  have hne : rest.splitOn lineFeed ≠ [] := List.splitOn_ne_nil _ _
  simp [lines, List.splitOn_append_cons_self_of_not_mem h, List.dropLast_cons_of_ne_nil hne,
    List.getLast?_cons_of_ne_nil hne]

theorem lines_of_unterminated (h : lineFeed ∉ line) (hne : line ≠ []) :
    lines line = [line.toByteArray] := by
  simp [lines, List.splitOn_eq_singleton h, hne]

example : lines [0x61, 0x0D, 0x0D, 0x0A, 0x0A, 0x62, 0x0D] =
    [[0x61, 0x0D].toByteArray, [].toByteArray, [0x62, 0x0D].toByteArray] := by decide +kernel

theorem span_append (h : lineFeed ∉ line) (rest : List UInt8) :
    (line ++ rest).span (fun b => b != lineFeed) =
      (line ++ rest.takeWhile fun b => b != lineFeed, rest.dropWhile fun b => b != lineFeed) := by
  have hline : ∀ b ∈ line, (b != lineFeed) = true := fun b hb =>
    bne_iff_ne.2 (ne_of_mem_of_not_mem hb h)
  rw [List.span_eq_takeWhile_dropWhile, List.takeWhile_append_of_pos hline,
    List.dropWhile_append_of_pos hline]

theorem nextLine?_of_terminated (h : lineFeed ∉ line) (rest : List UInt8) :
    nextLine? (line ++ lineFeed :: rest) = some (dropCarriageReturn line, rest) := by
  unfold nextLine?
  rw [span_append h]
  simp

theorem nextLine?_of_unterminated (h : lineFeed ∉ line) (hne : line ≠ []) :
    nextLine? line = some (line, []) := by
  have hspan := span_append h []
  rw [List.append_nil, List.takeWhile_nil, List.dropWhile_nil, List.append_nil] at hspan
  unfold nextLine?
  rw [hspan]
  simp [hne]

/-- A console reads the lines of its stream one after the other. -/
theorem exists_readLine (c : Console) :
    ∃ rest, c.readLine = (.ok (lines c.unread).head?, { c with unread := rest }) ∧
      lines rest = (lines c.unread).tail := by
  obtain ⟨bytes, written, sleeps⟩ := c
  by_cases hfeed : lineFeed ∈ bytes
  · obtain ⟨line, rest, rfl, hline⟩ := List.eq_append_cons_of_mem hfeed
    refine ⟨rest, ?_, ?_⟩
    · simp [readLine, nextLine?_of_terminated hline, lines_of_terminated hline]
    · simp [lines_of_terminated hline]
  · by_cases hne : bytes = []
    · subst hne
      exact ⟨[], by simp [readLine, nextLine?, lines_nil], by simp [lines_nil]⟩
    · refine ⟨[], ?_, ?_⟩
      · simp [readLine, nextLine?_of_unterminated hfeed hne, lines_of_unterminated hfeed hne]
      · simp [lines_of_unterminated hfeed hne, lines_nil]

/-! ## Consoles and hosts in memory -/

open CommandLine (textOfLines textOfLines_concat)

/-- The host in memory has the lines still to come and the output of the console, and none of its
writes fails. -/
structure Matches (c : Console) (h : MemoryHost) : Prop where
  input : h.input = (lines c.unread).map .line
  output : c.written = textOfLines h.output.toList
  sleeps : c.sleeps = h.sleeps
  writes : h.writeFailure = none

theorem matches_ofLines (bytes : List UInt8) :
    Matches { unread := bytes } (.ofLines (lines bytes)) where
  input := rfl
  output := rfl
  sleeps := rfl
  writes := rfl

variable {c : Console} {h : MemoryHost}

theorem Matches.writeLine (hc : c.Matches h) (line : String) :
    SameAnswer Matches (c.writeLine line) (h.writeLine line) := by
  have hh : h.writeLine line =
      (.ok (), { h with writes := h.writes + 1, output := h.output.push line }) := by
    simp [MemoryHost.writeLine, hc.writes]
  rw [hh]
  refine ⟨rfl, hc.input, ?_, hc.sleeps, hc.writes⟩
  simp [Console.writeLine, hc.output, textOfLines_concat]

theorem Matches.readLine (hc : c.Matches h) : SameAnswer Matches c.readLine h.readLine := by
  obtain ⟨rest, hr, hrest⟩ := c.exists_readLine
  rw [hr, MemoryHost.readLine_of_input hc.input]
  exact ⟨rfl, congrArg (List.map InputItem.line) hrest.symm, hc.output, hc.sleeps, hc.writes⟩

theorem Matches.sleep (hc : c.Matches h) (millis : Nat) :
    (c.sleep millis).Matches (h.sleep millis) where
  input := hc.input
  output := hc.output
  sleeps := congrArg (·.push millis) hc.sleeps
  writes := hc.writes

/-- A machine cannot tell a console from a host in memory that is offered the same lines. -/
theorem simulation_matches : Host.Simulation Matches where
  writeLine := Matches.writeLine
  readLine := Matches.readLine
  sleep := Matches.sleep

end Console

namespace CommandLine

/-! ## Reports of runs -/

/-- The last line of the standard output of a run. A run that fails leaves it out. -/
def statusLine? : Outcome → Option String
  | .finished status => some ("Program finished with status code " ++ Text.decimal status)
  | .failed _ => none

/-- The line on the standard error of a run that fails. -/
def faultLine? : Outcome → Option String
  | .finished _ => none
  | .failed error => some ("runtime error: " ++ error.message)

/-- The report tells how a run ends that has written the given lines. Only a run that finishes with
status zero is a success. -/
structure Report.Tells (report : Report) (outcome : Outcome) (output : List String) : Prop where
  stdout : report.stdout = textOfLines (output ++ (statusLine? outcome).toList)
  stderr : report.stderr = textOfLines (faultLine? outcome).toList
  code_eq_zero_iff : report.code = 0 ↔ outcome = .finished 0
  code_of_failed : ∀ error, outcome = .failed error → report.code = 1
  code_of_dvd : ∀ status, outcome = .finished status → status ≠ 0 → 256 ∣ status.toInt →
    report.code = 255
  code_of_not_dvd : ∀ status, outcome = .finished status → ¬256 ∣ status.toInt →
    (report.code : Int) = status.toInt % 256

theorem exitCode_of_dvd {status : Int64} (h : status ≠ 0) (hdvd : 256 ∣ status.toInt) :
    exitCode status = 255 := by
  simp [exitCode, h, Int.emod_eq_zero_of_dvd hdvd]

theorem exitCode_of_not_dvd {status : Int64} (h : ¬256 ∣ status.toInt) :
    (exitCode status : Int) = status.toInt % 256 := by
  have hne : status ≠ 0 := by
    rintro rfl
    exact h (Int.dvd_zero 256)
  have hmod : status.toInt % 256 ≠ 0 := fun hzero => h (Int.dvd_of_emod_eq_zero hzero)
  simp only [exitCode, hne, hmod, if_false]
  omega

theorem exitCode_eq_zero_iff {status : Int64} : exitCode status = 0 ↔ status = 0 := by
  unfold exitCode
  split
  · simpa
  · split
    · simpa
    · simp only [*, iff_false]
      omega

theorem runReport_tells (outcome : Outcome) (output : List String) :
    (runReport (textOfLines output) outcome).Tells outcome output := by
  cases outcome with
  | finished status =>
    exact {
      stdout := by simp [runReport, statusLine?, textOfLines_concat, String.append_assoc]
      stderr := rfl
      code_eq_zero_iff := by simp [runReport, exitCode_eq_zero_iff]
      code_of_failed := by simp
      code_of_dvd := by
        rintro _ ⟨⟩
        exact exitCode_of_dvd
      code_of_not_dvd := by
        rintro _ ⟨⟩
        exact exitCode_of_not_dvd }
  | failed error =>
    exact {
      stdout := by simp [runReport, statusLine?]
      stderr := by simp [runReport, faultLine?, textOfLines]
      code_eq_zero_iff := by simp [runReport]
      code_of_failed := fun _ _ => rfl
      code_of_dvd := by simp
      code_of_not_dvd := by simp }

/-- A run on the console reports what the run in memory does, also if it takes too long. -/
theorem runProgram_eq (fuel : Nat) (program : Program) (stdin : List UInt8) :
    let (outcome?, m) :=
      program.run fuel { host := MemoryHost.ofLines (Console.lines stdin) }
    runProgram fuel program stdin =
      outcome?.map (runReport (textOfLines m.host.output.toList)) := by
  have hstart : Machine.Alike Console.Matches { host := { unread := stdin } }
      { host := .ofLines (Console.lines stdin) } :=
    ⟨Console.matches_ofLines stdin, rfl, rfl⟩
  obtain ⟨houtcome, halike⟩ := Console.simulation_matches.run hstart program fuel
  simp only [runProgram, houtcome, halike.host.output]

/-- A script file whose run ends on the lines of the standard input is run to the same end by the
command on the standard input itself, and the report tells this end. -/
theorem run_reports_run_in_memory {directory : Directory} {path text : String} {script : Script}
    (htext : directory.HasText path text) (hparse : Script.parse text = .ok script)
    (scopedCalls : Bool) (stdin : List UInt8) {fuel : Nat} {outcome : Outcome}
    {m : Machine MemoryHost}
    (hrun : Program.run { script, config := { scopedCalls } } fuel
      { host := .ofLines (Console.lines stdin) } = (some outcome, m)) :
    ∃ report : Report,
      (∀ limit ≥ fuel, (Command.run path scopedCalls).report limit directory stdin = some report) ∧
      report.Tells outcome m.host.output.toList := by
  refine ⟨_, fun limit hlimit => ?_, runReport_tells outcome m.host.output.toList⟩
  have hreport := runProgram_eq limit { script, config := { scopedCalls } } stdin
  rw [Program.run_of_le hrun hlimit] at hreport
  rw [Command.report, loadScript_of_hasText htext, hparse]
  exact hreport

/-- Prints one line of its input and exits with a status that is a multiple of 256. -/
def echoThenExit : Directory where
  files := [("a.ns", "0 1 0\n12 3 0\n9 2 0\n5 0 -256\n".toUTF8)]

theorem echoThenExit_run_reports_run_in_memory :
    ∃ report : Report,
      (∀ limit ≥ 5, (Command.run "a.ns" false).report limit echoThenExit
        [0x61, 0x0D, 0x0A, 0x62] = some report) ∧
      report.stdout = "a\nProgram finished with status code -256\n" ∧ report.stderr = "" ∧
      report.code = 255 := by
  have htext : echoThenExit.HasText "a.ns" "0 1 0\n12 3 0\n9 2 0\n5 0 -256\n" :=
    Directory.hasText_of_read rfl
  have hparse : Script.parse "0 1 0\n12 3 0\n9 2 0\n5 0 -256\n" =
      .ok (.ofRows [[0, 1, 0], [12, 3, 0], [9, 2, 0], [5, 0, -256]]) := by decide +kernel
  let program : Program := { script := .ofRows [[0, 1, 0], [12, 3, 0], [9, 2, 0], [5, 0, -256]] }
  let m : Machine MemoryHost :=
    { host := .ofLines (Console.lines [0x61, 0x0D, 0x0A, 0x62]) }
  have hrun : program.run 5 m = (some (.finished (-256)), (program.run 5 m).2) := rfl
  have houtput : (program.run 5 m).2.host.output.toList = ["a"] := by decide +kernel
  obtain ⟨report, hreport, htells⟩ := run_reports_run_in_memory htext hparse false _ hrun
  refine ⟨report, hreport, ?_, htells.stderr, ?_⟩
  · rw [htells.stdout, houtput]
    decide +kernel
  · exact htells.code_of_dvd (-256) rfl (by decide) (by decide)

end CommandLine

end IntScript
