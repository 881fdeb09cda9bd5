import IntScript.Proofs.Round
import IntScript.Proofs.Tokens

/-!
# Texts spelled by their codes

A text keeps its identity through every form a script gives it: the codes of its characters, the
numerals of the codes, the tokens of a statement, an object in a slot, the bytes of a line. What is
printed in the end is the text that was spelled.
-/

namespace IntScript

/-! ## Forms of a text -/

theorem Object.text_codes (text : String) :
    Object.text (.array (Text.codes text)) = .ok text := by
  simp [Object.text, Object.text?]

/-- The bytes of a text are read as the text. -/
theorem InputFormat.read?_of_toUTF8 (format : InputFormat) (text : String) :
    format.read? text.toUTF8 = format.readChars? text.toList := by
  have htext : String.fromUTF8? text.toUTF8 = some text := dif_pos text.isValidUTF8
  rw [read?, htext, Option.bind_some]

theorem InputFormat.read?_toUTF8 (text : String) :
    line.read? text.toUTF8 = some (.array (Text.codes text)) :=
  line.read?_of_toUTF8 text

theorem InputFormat.read?_of_not_isValidUTF8 {bytes : ByteArray} (h : ¬ bytes.IsValidUTF8)
    (format : InputFormat) : format.read? bytes = none := by
  have htext : String.fromUTF8? bytes = none := dif_neg h
  simp [read?, htext]

/-- The codes of a text behind the code and the selector of a statement that prints them. -/
theorem Script.parse_spelled (text : String) :
    Script.parse ("9 1 " ++ Text.decimals " " (Text.codes text)) =
      .ok ⟨#[⟨1, 9 :: 1 :: Text.codes text⟩]⟩ :=
  Script.parse_decimals_append [9, 1] (Text.codes text)

/-! ## Runs -/

variable {η : Type} [Host η]

theorem State.print_of_writeLine {text : String} {h h' : η}
    (hw : Host.writeLine text h = (.ok (), h')) (s : State) :
    s.print (.ok text) h = (.ok (.silent s), h') := by
  simp [State.print, hw]

namespace Program

/-- The run of a fresh machine finishes with a status and leaves a host behind. -/
def Finishes (program : Program) (host : η) (status : Int64) (host' : η) : Prop :=
  ∃ fuel m, program.run fuel { host } = (some (.finished status), m) ∧ m.host = host'

/-- A run that has come to a state finishes with a status, whatever has been recorded so far, and
takes the host to another. -/
inductive FinishesFrom (program : Program) : State → η → Int64 → η → Prop where
  | halted {s : State} {host : η} : s.running = false → FinishesFrom program s host s.status host
  | ended {s : State} {host : η} : s.running = true → program.script.statement? s.pc = none →
      FinishesFrom program s host s.status host
  | round {s : State} {host host₁ host' : η} {statement : Statement} {t : Transition}
      {status : Int64} : s.running = true → program.script.statement? s.pc = some statement →
      program.execute statement.tokens s.fetched host = (.ok t, host₁) →
      FinishesFrom program t.state host₁ status host' → FinishesFrom program s host status host'

theorem FinishesFrom.exists_ends {program : Program} {s : State} {host host' : η} {status : Int64}
    (h : program.FinishesFrom s host status host') (journal : Array Event) :
    ∃ m, program.Ends { host, state := s, journal } (.finished status) m ∧ m.host = host' := by
  induction h generalizing journal with
  | halted hr => exact ⟨_, .now (step_of_halted hr), rfl⟩
  | ended hr hs => exact ⟨_, .now (step_of_ended hr hs), rfl⟩
  | round hr hs he _ ih =>
    obtain ⟨m, hends, hm⟩ := ih _
    exact ⟨m, .later (step_of_execute hr hs he) hends, hm⟩

theorem FinishesFrom.finishes {program : Program} {host host' : η} {status : Int64}
    (h : program.FinishesFrom {} host status host') : program.Finishes host status host' := by
  obtain ⟨m, hends, hm⟩ := h.exists_ends #[]
  obtain ⟨fuel, hrun⟩ := ends_iff_exists_run.1 hends
  exact ⟨fuel, m, hrun, hm⟩

/-- The run of a statement that spells a text writes the text and does nothing else. -/
theorem finishes_spelled {text : String} {host host' : η}
    (hw : Host.writeLine text host = (.ok (), host')) (config : Config) :
    Finishes ⟨⟨#[⟨1, 9 :: 1 :: Text.codes text⟩]⟩, config⟩ host Status.noError host' := by
  have hprint : Program.execute ⟨⟨#[⟨1, 9 :: 1 :: Text.codes text⟩]⟩, config⟩
      (9 :: 1 :: Text.codes text) (State.fetched {}) host =
        (.ok (.silent (State.fetched {})), host') := by
    rw [← State.print_of_writeLine hw, ← Object.text_codes text]
    rfl
  exact FinishesFrom.finishes (.round rfl rfl hprint (.ended rfl rfl))

/-- A script that reads a line and prints it as a text. -/
def echoLine (config : Config) : Program where
  script := .ofRows [[0, 1, 0], [12, 3, 0], [9, 2, 0]]
  config

/-- The state of `echoLine` with an array in its slot. -/
def echoState (pc : Nat) (values : List Int64) : State := { pc, stack := #[.array values] }

section Echo

variable {config : Config} {host host₁ host₂ : η} {status : Int64}

/-- The run of `echoLine` comes to the line with an empty array in the slot. -/
theorem finishes_echoLine_of_receive {bytes : ByteArray} {t : Transition}
    (hr : Host.readLine host = (.ok (some bytes), host₁))
    (ht : (echoState 2 []).receive 0 .line (some bytes) = .ok t)
    (h : (echoLine config).FinishesFrom t.state host₁ status host₂) :
    (echoLine config).Finishes host status host₂ := by
  have hdeclare : (echoLine config).execute [0, 1, 0] (State.fetched {}) host =
      (.ok (.silent (echoState 1 [])), host) := rfl
  have hinput : (echoLine config).execute [12, 3, 0] (echoState 2 []) host = (.ok t, host₁) := by
    have hdecode : Instruction.decode [12, 3, 0] = .ok (some (.input 0 .line)) := rfl
    simp [Program.execute, hdecode, Instruction.execute, hr, ht]
  exact FinishesFrom.finishes (.round rfl rfl hdeclare (.round rfl rfl hinput h))

/-- A line that encodes a text is printed as this text. -/
theorem finishes_echoLine {line : String}
    (hr : Host.readLine host = (.ok (some line.toUTF8), host₁))
    (hw : Host.writeLine line host₁ = (.ok (), host₂)) :
    (echoLine config).Finishes host Status.noError host₂ := by
  have hstored : (echoState 2 []).receive 0 .line (some line.toUTF8) =
      .ok (.silent (echoState 2 (Text.codes line))) := by
    rw [State.receive, InputFormat.read?_toUTF8]
    rfl
  have hprint : (echoLine config).execute [9, 2, 0] (echoState 3 (Text.codes line)) host₁ =
      (.ok (.silent (echoState 3 (Text.codes line))), host₂) := by
    rw [← State.print_of_writeLine hw, ← Object.text_codes line]
    rfl
  exact finishes_echoLine_of_receive hr hstored (.round rfl rfl hprint (.ended rfl rfl))

/-- A line that encodes no text halts the machine before anything is printed. -/
theorem finishes_echoLine_of_not_isValidUTF8 {bytes : ByteArray} (h : ¬ bytes.IsValidUTF8)
    (hr : Host.readLine host = (.ok (some bytes), host₁)) :
    (echoLine config).Finishes host Status.invalidInput host₁ := by
  have hhalted : (echoState 2 []).receive 0 .line (some bytes) =
      .ok ((echoState 2 []).halt Status.invalidInput) := by
    rw [State.receive, InputFormat.read?_of_not_isValidUTF8 h]
  exact finishes_echoLine_of_receive hr hhalted (.halted rfl)

end Echo

/-- The codes of a text, written behind the code and the selector of a statement that prints them,
are the source of this one statement. Its run writes the text, once, and does nothing else to the
host.

A script that reads a line and prints it writes the text that the line encodes. A line that encodes
no text halts it with the status of an invalid input, and only the read has an effect on the
host. -/
theorem spelled_text_is_printed (config : Config) (host : η) :
    (∀ text : String, ∃ script,
      Script.parse ("9 1 " ++ Text.decimals " " (Text.codes text)) = .ok script ∧
      script.statements = #[⟨1, 9 :: 1 :: Text.codes text⟩] ∧
      ∀ host', Host.writeLine text host = (.ok (), host') →
        Finishes ⟨script, config⟩ host Status.noError host') ∧
    ∀ bytes host₁, Host.readLine host = (.ok (some bytes), host₁) →
      (bytes.IsValidUTF8 → ∃ line : String, line.toUTF8 = bytes ∧
        ∀ host₂, Host.writeLine line host₁ = (.ok (), host₂) →
          (echoLine config).Finishes host Status.noError host₂) ∧
      (¬ bytes.IsValidUTF8 → (echoLine config).Finishes host Status.invalidInput host₁) := by
  refine ⟨fun text => ?_, fun bytes host₁ hr => ⟨fun hvalid => ?_, fun hinvalid => ?_⟩⟩
  · exact ⟨_, Script.parse_spelled text, rfl, fun host' hw => finishes_spelled hw config⟩
  · obtain ⟨line, rfl⟩ : ∃ line : String, line.toUTF8 = bytes :=
      ⟨String.fromUTF8 bytes hvalid, rfl⟩
    exact ⟨line, rfl, fun host₂ hw => finishes_echoLine hr hw⟩
  · exact finishes_echoLine_of_not_isValidUTF8 hinvalid hr

/-- A character beyond the first plane is printed and echoed, the first of its bytes alone is
refused. -/
theorem echoLine_spelled_text_is_printed :
    let printed : MemoryHost := { output := #["😀"], writes := 1 }
    (∃ script, Script.parse "9 1 128512" = .ok script ∧
      Finishes ⟨script, {}⟩ ({} : MemoryHost) Status.noError printed) ∧
    (echoLine {}).Finishes (MemoryHost.ofLines ["😀".toUTF8]) Status.noError
      { printed with reads := 1 } ∧
    (echoLine {}).Finishes (MemoryHost.ofLines [[0xF0].toByteArray]) Status.invalidInput
      { reads := 1 } := by
  intro printed
  refine ⟨?_, ?_, ?_⟩
  · obtain ⟨script, hparse, -, hrun⟩ :=
      (spelled_text_is_printed {} ({} : MemoryHost)).1 "😀"
    have hsource : "9 1 " ++ Text.decimals " " (Text.codes "😀") = "9 1 128512" := by
      decide +kernel
    exact ⟨script, hsource ▸ hparse, hrun printed rfl⟩
  · obtain ⟨line, hline, hrun⟩ :=
      ((spelled_text_is_printed {} (MemoryHost.ofLines ["😀".toUTF8])).2 _ { reads := 1 } rfl).1
        "😀".isValidUTF8
    obtain rfl : line = "😀" := String.toByteArray_inj.1 hline
    exact hrun _ rfl
  · exact ((spelled_text_is_printed {} (MemoryHost.ofLines [[0xF0].toByteArray])).2 _
      { reads := 1 } rfl).2 (by decide +kernel)

end Program

end IntScript
