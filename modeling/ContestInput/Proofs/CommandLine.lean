import ContestInput.Proofs.Bound.Extract
import ContestInput.Proofs.Folder
import ContestInput.Proofs.Verdict
/-!
# The commands agree

The commands read the same problem and judge it in the same way: where nothing can be decoded each
one ends with exit code 2, and else a check ends as the program for the problem does. What is
printed or written is that program and nothing else, and a command that fails writes nothing.
-/

namespace ContestInput

open Fallible

namespace CommandLine

/-! ## The stages of a command -/

/-- The problem in a file, if the file could be read and holds one. -/
def decoded? (content : Except FileError String) : Option Problem :=
  content.toOption.bind fun text => (Problem.read text).toOption

variable {content : Except FileError String} {file : String} {p : Problem}

private theorem problem_eq_ok (h : decoded? content = some p) : problem file content = .ok p := by
  cases content with
  | error e => exact absurd h (by simp [decoded?, Except.toOption])
  | ok text =>
    rw [decoded?, Except.toOption, Option.bind_some] at h
    rw [problem]
    cases hread : Problem.read text with
    | error fault => exact absurd h (by simp [hread, Except.toOption])
    | ok q =>
      rw [hread] at h
      obtain rfl : q = p := Option.some.inj h
      rfl

private theorem exists_problem_eq_error (file : String) (h : decoded? content = none) :
    ∃ messages, problem file content = .error ⟨2, "", messages⟩ := by
  cases content with
  | error e => exact ⟨_, rfl⟩
  | ok text =>
    rw [decoded?, Except.toOption, Option.bind_some] at h
    rw [problem]
    cases hread : Problem.read text with
    | error fault => exact ⟨_, rfl⟩
    | ok q => exact absurd h (by simp [hread, Except.toOption])

theorem process_eq_ok_iff {q : Problem} : p.process Bound.extract = .ok q ↔
    ∃ text, Program.generate Bound.extract p.definitions p.description = .ok text ∧
      p.addSource ⟨Program.extension, text⟩ = q := by
  rw [Problem.process, bind_eq_ok_iff]
  simp only [pure_eq_ok_iff]
  rfl

theorem getLast?_sources_of_process {q : Problem} (h : p.process Bound.extract = .ok q) :
    ∃ source, q.sources.getLast? = some source ∧
      Program.generate Bound.extract p.definitions p.description = .ok source.text := by
  obtain ⟨text, htext, rfl⟩ := process_eq_ok_iff.1 h
  exact ⟨⟨Program.extension, text⟩, by simp [Problem.addSource], htext⟩

/-- The command for the program never runs out of sources. -/
theorem program_eq (p : Problem) : program p =
    match Program.generate Bound.extract p.definitions p.description with
    | .ok text => .ok text
    | .error fault => .error (invalid (p.id ++ ": " ++ fault.message)) := by
  rw [program]
  cases hprocess : p.process Bound.extract with
  | error fault =>
    have hgenerate : Program.generate Bound.extract p.definitions p.description = .error fault :=
      bind_pure_eq_error_iff.1 hprocess
    rw [hgenerate]
  | ok q =>
    obtain ⟨source, hsource, htext⟩ := getLast?_sources_of_process hprocess
    simp only [hsource, htext]

theorem code_report (quiet json : Bool) (p : Problem) : (report quiet json p).code =
    if (p.check Bound.extract).isValid then 0 else 1 := by
  rw [report]
  cases json with
  | false => rfl
  | true => rfl

theorem code_listConstants (json : Bool) (p : Problem) : (listConstants json p).code =
    match Bound.extract p.description with
    | .ok _ => 0
    | .error _ => 1 := by
  rw [listConstants]
  cases Bound.extract p.description with
  | error fault => rfl
  | ok constants =>
    cases json with
    | false => rfl
    | true => rfl

theorem output_report_of_code_ne_zero {quiet : Bool} (h : (report quiet false p).code ≠ 0) :
    (report quiet false p).output = "" := by
  have hinvalid : (p.check Bound.extract).isValid = false := by
    rw [code_report] at h
    by_contra hvalid
    exact h (if_pos (by simpa using hvalid))
  rw [report]
  simp [hinvalid]

theorem output_listConstants_of_code_ne_zero {json : Bool} (h : (listConstants json p).code ≠ 0) :
    (listConstants json p).output = "" := by
  rw [code_listConstants] at h
  cases hextract : Bound.extract p.description with
  | ok constants =>
    rw [hextract] at h
    exact absurd rfl h
  | error fault =>
    rw [listConstants, hextract]
    rfl

/-! ## Running a command -/

variable {σ : Type}

/-- A command on files that a state holds: how it ends, and the state behind it. -/
def exec (files : Files (StateM σ)) (invocation : Invocation) (s : σ) : Outcome × σ :=
  ((run files invocation).run s).run

def readAt (files : Files (StateM σ)) (path : String) (s : σ) : Except FileError String × σ :=
  ((files.read path).run s).run

def writeAt (files : Files (StateM σ)) (path content : String) (s : σ) :
    Except FileError Unit × σ :=
  ((files.write path content).run s).run

private theorem run_bind_of_run {α β : Type} {x : StateM σ α} {f : α → StateM σ β} {a : α}
    {s s' : σ} (h : (x.run s).run = (a, s')) : ((x >>= f).run s).run = ((f a).run s').run := by
  rw [StateT.run_bind, Id.run_bind, h]

variable {files : Files (StateM σ)} {s s' : σ}

def Command.file? : Command → Option String
  | .generate file _ | .constants file _ | .check file _ => some file
  | .version => none

def Command.plain : Command → Command
  | .constants file _ => .constants file false
  | .check file _ => .check file false
  | command => command

theorem exec_of_undecoded (hread : readAt files file s = (content, s'))
    (hnone : decoded? content = none) (quiet : Bool) {command : Command}
    (hfile : command.file? = some file) :
    ∃ messages, exec files ⟨quiet, command⟩ s = (⟨2, "", messages⟩, s') := by
  obtain ⟨messages, hproblem⟩ := exists_problem_eq_error file hnone
  refine ⟨messages, ?_⟩
  cases command
  case version => exact absurd hfile (by simp [Command.file?])
  all_goals
    obtain rfl := Option.some.inj hfile
    refine (run_bind_of_run hread).trans ?_
    simp only [hproblem]
    rfl

/-- A command reads no file, or one that holds no problem, or it is one of three on a problem. -/
theorem command_cases {motive : Command → Prop} (files : Files (StateM σ)) (s : σ)
    (version : motive .version)
    (undecoded : ∀ {command file content s'}, Command.file? command = some file →
      readAt files file s = (content, s') → decoded? content = none → motive command)
    (constants : ∀ {file content s' p} json,
      readAt files file s = (content, s') → decoded? content = some p →
        motive (.constants file json))
    (check : ∀ {file content s' p} json,
      readAt files file s = (content, s') → decoded? content = some p → motive (.check file json))
    (generate : ∀ {file content s' p} output,
      readAt files file s = (content, s') → decoded? content = some p →
        motive (.generate file output))
    (command : Command) : motive command := by
  cases hfile : command.file? with
  | none =>
    cases command with
    | version => exact version
    | _ => exact absurd hfile (by simp [Command.file?])
  | some file =>
    cases hread : readAt files file s with
    | mk content s' =>
      cases hdecoded : decoded? content with
      | none => exact undecoded hfile hread hdecoded
      | some p =>
        cases command with
        | version => exact version
        | constants file json =>
          obtain rfl := Option.some.inj hfile
          exact constants json hread hdecoded
        | check file json =>
          obtain rfl := Option.some.inj hfile
          exact check json hread hdecoded
        | generate file output =>
          obtain rfl := Option.some.inj hfile
          exact generate output hread hdecoded

section Decoded

variable (hread : readAt files file s = (content, s')) (hp : decoded? content = some p)

include hread hp

theorem exec_check (quiet json : Bool) :
    exec files ⟨quiet, .check file json⟩ s = (report quiet json p, s') := by
  refine (run_bind_of_run hread).trans ?_
  simp only [problem_eq_ok hp]
  rfl

theorem exec_constants (quiet json : Bool) :
    exec files ⟨quiet, .constants file json⟩ s = (listConstants json p, s') := by
  refine (run_bind_of_run hread).trans ?_
  simp only [problem_eq_ok hp]
  rfl

theorem exec_generate_of_error {fault : Fault} (hfault :
      Program.generate Bound.extract p.definitions p.description = .error fault)
    (quiet : Bool) (output : Option String) :
    exec files ⟨quiet, .generate file output⟩ s =
      (invalid (p.id ++ ": " ++ fault.message), s') := by
  have hprogram := program_eq p
  rw [hfault] at hprogram
  refine (run_bind_of_run hread).trans ?_
  simp only [problem_eq_ok hp, hprogram]
  rfl

theorem exec_generate_none {text : String} (htext :
      Program.generate Bound.extract p.definitions p.description = .ok text) (quiet : Bool) :
    exec files ⟨quiet, .generate file none⟩ s = (success text, s') := by
  have hprogram := program_eq p
  rw [htext] at hprogram
  refine (run_bind_of_run hread).trans ?_
  simp only [problem_eq_ok hp, hprogram]
  rfl

theorem exec_generate_some {text : String} (htext :
      Program.generate Bound.extract p.definitions p.description = .ok text) (quiet : Bool)
    {target : String} {result : Except FileError Unit} {s'' : σ}
    (hwrite : writeAt files target text s' = (result, s'')) :
    exec files ⟨quiet, .generate file (some target)⟩ s =
      (written quiet p.id target result, s'') := by
  have hprogram := program_eq p
  rw [htext] at hprogram
  refine (run_bind_of_run hread).trans ?_
  simp only [problem_eq_ok hp, hprogram]
  exact (run_bind_of_run hwrite).trans rfl

end Decoded

/-! ## Exit codes -/

private theorem file?_plain (command : Command) : command.plain.file? = command.file? := by
  cases command <;> rfl

private theorem code_written (quiet : Bool) (id target : String) (result : Except FileError Unit) :
    (written quiet id target result).code = (written false id target result).code := by
  cases result <;> rfl

section Decoded

variable (hread : readAt files file s = (content, s')) (hp : decoded? content = some p)

include hread hp

theorem code_generate_eq (quiet : Bool) (output : Option String) :
    (exec files ⟨quiet, .generate file output⟩ s).1.code =
      (exec files ⟨false, .generate file output⟩ s).1.code := by
  cases hgenerate : Program.generate Bound.extract p.definitions p.description with
  | error fault =>
    rw [exec_generate_of_error hread hp hgenerate, exec_generate_of_error hread hp hgenerate]
  | ok text =>
    cases output with
    | none => rw [exec_generate_none hread hp hgenerate, exec_generate_none hread hp hgenerate]
    | some target =>
      cases hwrite : writeAt files target text s' with
      | mk result s'' =>
        rw [exec_generate_some hread hp hgenerate quiet hwrite,
          exec_generate_some hread hp hgenerate false hwrite]
        exact code_written quiet p.id target result

theorem code_check_iff (quiet json : Bool) :
    ((exec files ⟨quiet, .check file json⟩ s).1.code = 0 ↔
      ∃ text, Program.generate Bound.extract p.definitions p.description = .ok text) ∧
    ((exec files ⟨quiet, .check file json⟩ s).1.code = 1 ↔
      ∃ fault, Program.generate Bound.extract p.definitions p.description = .error fault) := by
  have hvalid : (Report.check Bound.extract p.definitions p.description).isValid = true ↔
      ∃ text, Program.generate Bound.extract p.definitions p.description = .ok text :=
    Report.isValid_check_iff
  rw [exec_check hread hp, code_report, Problem.check]
  cases hgenerate : Program.generate Bound.extract p.definitions p.description with
  | ok text =>
    rw [hvalid.2 ⟨text, hgenerate⟩]
    simp
  | error fault =>
    have hinvalid : ¬ (Report.check Bound.extract p.definitions p.description).isValid = true := by
      rw [hvalid, hgenerate]
      simp
    rw [if_neg hinvalid]
    simp

theorem code_generate_none_iff (quiet : Bool) :
    (exec files ⟨quiet, .generate file none⟩ s).1.code =
      (exec files ⟨false, .check file false⟩ s).1.code := by
  obtain ⟨hzero, hone⟩ := code_check_iff hread hp false false
  cases hgenerate : Program.generate Bound.extract p.definitions p.description with
  | ok text =>
    rw [hzero.2 ⟨text, hgenerate⟩, exec_generate_none hread hp hgenerate]
    rfl
  | error fault =>
    rw [hone.2 ⟨fault, hgenerate⟩, exec_generate_of_error hread hp hgenerate]
    rfl

end Decoded

/-- The flags that say what is printed do not change how a command ends. -/
theorem code_eq_code_plain (files : Files (StateM σ)) (s : σ) (quiet : Bool) (command : Command) :
    (exec files ⟨quiet, command⟩ s).1.code = (exec files ⟨false, command.plain⟩ s).1.code := by
  induction command using command_cases files s with
  | version => rfl
  | undecoded hfile hread hnone =>
    obtain ⟨messages, hexec⟩ := exec_of_undecoded hread hnone quiet hfile
    obtain ⟨messages', hexec'⟩ :=
      exec_of_undecoded hread hnone false ((file?_plain _).trans hfile)
    rw [hexec, hexec']
  | constants json hread hp =>
    rw [Command.plain, exec_constants hread hp, exec_constants hread hp, code_listConstants,
      code_listConstants]
  | check json hread hp =>
    rw [Command.plain, exec_check hread hp, exec_check hread hp, code_report, code_report]
  | generate output hread hp =>
    exact code_generate_eq hread hp quiet output

/-! ## Silence without success -/

private theorem output_written (quiet : Bool) (id target : String)
    (result : Except FileError Unit) : (written quiet id target result).output = "" := by
  cases result <;> rfl

theorem output_generate_of_code_ne_zero (hread : readAt files file s = (content, s'))
    (hp : decoded? content = some p) {quiet : Bool} {output : Option String}
    (hcode : (exec files ⟨quiet, .generate file output⟩ s).1.code ≠ 0) :
    (exec files ⟨quiet, .generate file output⟩ s).1.output = "" := by
  cases hgenerate : Program.generate Bound.extract p.definitions p.description with
  | error fault =>
    rw [exec_generate_of_error hread hp hgenerate]
    rfl
  | ok text =>
    cases output with
    | none =>
      rw [exec_generate_none hread hp hgenerate] at hcode
      exact absurd rfl hcode
    | some target =>
      cases hwrite : writeAt files target text s' with
      | mk result s'' =>
        rw [exec_generate_some hread hp hgenerate quiet hwrite]
        exact output_written quiet p.id target result

/-- A report as JSON is all that a command prints without success. -/
theorem output_of_code_ne_zero (files : Files (StateM σ)) (s : σ) (quiet : Bool)
    (command : Command) (hcode : (exec files ⟨quiet, command⟩ s).1.code ≠ 0)
    (hjson : ∀ file, command ≠ .check file true) :
    (exec files ⟨quiet, command⟩ s).1.output = "" := by
  induction command using command_cases files s with
  | version => exact absurd rfl hcode
  | undecoded hfile hread hnone =>
    obtain ⟨messages, hexec⟩ := exec_of_undecoded hread hnone quiet hfile
    rw [hexec]
  | constants json hread hp =>
    rw [exec_constants hread hp] at hcode ⊢
    exact output_listConstants_of_code_ne_zero hcode
  | check json hread hp =>
    obtain rfl : json = false := by simpa using hjson
    rw [exec_check hread hp] at hcode ⊢
    exact output_report_of_code_ne_zero hcode
  | generate output hread hp =>
    exact output_generate_of_code_ne_zero hread hp hcode

/-! ## The agreement of the commands -/

/-- How the commands end on a file that holds the problem `p`. The state `s'` is the one that
reading the file leaves. -/
structure Consistent (files : Files (StateM σ)) (file : String) (s s' : σ) (p : Problem) :
    Prop where
  check : ∀ quiet json,
    ((exec files ⟨quiet, .check file json⟩ s).1.code = 0 ↔
      ∃ text, Program.generate Bound.extract p.definitions p.description = .ok text) ∧
    ((exec files ⟨quiet, .check file json⟩ s).1.code = 1 ↔
      ∃ fault, Program.generate Bound.extract p.definitions p.description = .error fault)
  generate : ∀ quiet quiet' json, (exec files ⟨quiet, .generate file none⟩ s).1.code =
    (exec files ⟨quiet', .check file json⟩ s).1.code
  constants : ∀ quiet json,
    ((exec files ⟨quiet, .constants file json⟩ s).1.code = 0 ↔
      ∃ constants, Bound.extract p.description = .ok constants) ∧
    ((exec files ⟨quiet, .constants file json⟩ s).1.code = 1 ↔
      ∃ bound, Bound.extract p.description = .error (.constantOverflow bound))
  overflow : ∀ quiet json, (exec files ⟨quiet, .constants file json⟩ s).1.code = 1 →
    (∀ quiet json, (exec files ⟨quiet, .check file json⟩ s).1.code = 1) ∧
      ∀ quiet output, (exec files ⟨quiet, .generate file output⟩ s).1.code = 1
  faulty : ∀ fault, Program.generate Bound.extract p.definitions p.description = .error fault →
    ∀ quiet output, ∃ messages,
      exec files ⟨quiet, .generate file output⟩ s = (⟨1, "", messages⟩, s')
  printed : ∀ text, Program.generate Bound.extract p.definitions p.description = .ok text →
    ∀ quiet, exec files ⟨quiet, .generate file none⟩ s = (⟨0, text, ""⟩, s')
  /-- With a file for its output, the command does nothing but one write of the program to it. -/
  wrote : ∀ text, Program.generate Bound.extract p.definitions p.description = .ok text →
    ∀ quiet target s'', writeAt files target text s' = (.ok (), s'') → ∃ messages,
      exec files ⟨quiet, .generate file (some target)⟩ s = (⟨0, "", messages⟩, s'')
  unwritten : ∀ text, Program.generate Bound.extract p.definitions p.description = .ok text →
    ∀ quiet target e s'', writeAt files target text s' = (.error e, s'') → ∃ messages,
      exec files ⟨quiet, .generate file (some target)⟩ s = (⟨2, "", messages⟩, s'')

theorem consistent (hread : readAt files file s = (content, s')) (hp : decoded? content = some p) :
    Consistent files file s s' p where
  check := code_check_iff hread hp
  generate := by
    intro quiet quiet' json
    rw [code_generate_none_iff hread hp, code_eq_code_plain files s quiet']
    rfl
  constants := by
    intro quiet json
    rw [exec_constants hread hp, code_listConstants]
    cases hextract : Bound.extract p.description with
    | ok constants => simp
    | error fault =>
      obtain ⟨bound, rfl⟩ := Bound.exists_overflow_of_extract hextract
      simp
  overflow := by
    intro quiet json hcode
    rw [exec_constants hread hp, code_listConstants] at hcode
    cases hextract : Bound.extract p.description with
    | ok constants => simp [hextract] at hcode
    | error fault =>
      -- A program needs its constants before anything else, so the same overflow ends it.
      have hgenerate : Program.generate Bound.extract p.definitions p.description =
          .error fault := by
        rw [Program.generate, hextract]
        rfl
      refine ⟨fun quiet json => ?_, fun quiet output => ?_⟩
      · exact (code_check_iff hread hp quiet json).2.2 ⟨fault, hgenerate⟩
      · rw [exec_generate_of_error hread hp hgenerate]
        rfl
  faulty := fun fault hfault quiet output =>
    ⟨_, exec_generate_of_error hread hp hfault quiet output⟩
  printed := fun text htext => exec_generate_none hread hp htext
  wrote := fun text htext quiet target s'' hwrite =>
    ⟨_, exec_generate_some hread hp htext quiet hwrite⟩
  unwritten := fun text htext quiet target e s'' hwrite =>
    ⟨_, exec_generate_some hread hp htext quiet hwrite⟩

/-- What a command for a program leaves in a folder: without success nothing at all, and else the
program, as its output or in the one file that it is written to. -/
structure LeavesOnly (f : Folder) (file : String) (output : Option String) (outcome : Outcome)
    (g : Folder) : Prop where
  failure : outcome.code ≠ 0 → outcome.output = "" ∧ g = f
  success : outcome.code = 0 → ∃ p text, decoded? (f.contentAt file) = some p ∧
    Program.generate Bound.extract p.definitions p.description = .ok text ∧
    (output = none → outcome.output = text ∧ g = f) ∧
    ∀ target, output = some target → outcome.output = "" ∧ g.contentAt target = .ok text ∧
      ∀ spot, f.locate target ≠ .ok spot → g.get? spot = f.get? spot

theorem readAt_place (f : Folder) (file : String) :
    readAt Folder.place file f = (f.contentAt file, f) :=
  rfl

private theorem writeAt_place_of_ok {f g : Folder} {target text : String}
    (h : f.putAt target text = .ok g) : writeAt Folder.place target text f = (.ok (), g) := by
  unfold writeAt Folder.place
  refine (run_bind_of_run (x := get) rfl).trans ?_
  simp only [h]
  rfl

private theorem writeAt_place_of_error {f : Folder} {target text : String} {e : FileError}
    (h : f.putAt target text = .error e) :
    writeAt Folder.place target text f = (.error e, f) := by
  unfold writeAt Folder.place
  refine (run_bind_of_run (x := get) rfl).trans ?_
  simp only [h]
  rfl

private theorem leavesOnly_of_failure {f : Folder} {file : String} {output : Option String}
    {code : Nat} {messages : String} (h : code ≠ 0) :
    LeavesOnly f file output ⟨code, "", messages⟩ f :=
  ⟨fun _ => ⟨rfl, rfl⟩, fun hcode => absurd hcode h⟩

theorem exec_generate_leavesOnly (f : Folder) (file : String) (quiet : Bool)
    (output : Option String) :
    LeavesOnly f file output (exec Folder.place ⟨quiet, .generate file output⟩ f).1
      (exec Folder.place ⟨quiet, .generate file output⟩ f).2 := by
  have hread := readAt_place f file
  cases hdecoded : decoded? (f.contentAt file) with
  | none =>
    have hfile : (Command.generate file output).file? = some file := rfl
    obtain ⟨messages, hexec⟩ := exec_of_undecoded hread hdecoded quiet hfile
    rw [hexec]
    exact leavesOnly_of_failure (by decide)
  | some p =>
    cases hgenerate : Program.generate Bound.extract p.definitions p.description with
    | error fault =>
      rw [exec_generate_of_error hread hdecoded hgenerate]
      exact leavesOnly_of_failure (by decide)
    | ok text =>
      cases output with
      | none =>
        rw [exec_generate_none hread hdecoded hgenerate]
        refine ⟨fun hcode => absurd rfl hcode, fun _ => ⟨p, text, hdecoded, hgenerate, ?_, ?_⟩⟩
        · exact fun _ => ⟨rfl, rfl⟩
        · exact fun target htarget => absurd htarget (by simp)
      | some target =>
        cases hput : f.putAt target text with
        | error e =>
          rw [exec_generate_some hread hdecoded hgenerate quiet (writeAt_place_of_error hput)]
          exact leavesOnly_of_failure (by decide)
        | ok g =>
          rw [exec_generate_some hread hdecoded hgenerate quiet (writeAt_place_of_ok hput)]
          refine ⟨fun hcode => absurd rfl hcode, fun _ => ⟨p, text, hdecoded, hgenerate, ?_, ?_⟩⟩
          · exact fun hnone => absurd hnone (by simp)
          · intro target' htarget
            obtain rfl := Option.some.inj htarget
            exact ⟨rfl, Folder.contentAt_of_putAt hput, fun spot => Folder.get?_of_putAt hput⟩

/-- On whatever place for files, all commands that read a problem file end with exit code 2 and do
no more than read if no problem can be decoded from it, and agree with each other on a problem
otherwise; no flag for what is printed changes an exit code; without success nothing is printed
but a report that was asked for as JSON; a problem whose program was added to it has a last source,
and what is told does not depend on the sources before; and in a folder a command for a program
leaves that program or nothing. -/
theorem commands_agree :
    (∀ (σ : Type) (files : Files (StateM σ)) (file : String) (s s' : σ)
      (content : Except FileError String), readAt files file s = (content, s') →
      (decoded? content = none → ∀ quiet command, Command.file? command = some file →
        ∃ messages, exec files ⟨quiet, command⟩ s = (⟨2, "", messages⟩, s')) ∧
      ∀ p, decoded? content = some p → Consistent files file s s' p) ∧
    (∀ (σ : Type) (files : Files (StateM σ)) (s : σ) quiet command,
      (exec files ⟨quiet, command⟩ s).1.code =
        (exec files ⟨false, Command.plain command⟩ s).1.code) ∧
    (∀ (σ : Type) (files : Files (StateM σ)) (s : σ) quiet command,
      (exec files ⟨quiet, command⟩ s).1.code ≠ 0 → (∀ file, command ≠ .check file true) →
        (exec files ⟨quiet, command⟩ s).1.output = "") ∧
    (∀ p q, Problem.process Bound.extract p = .ok q → q.sources.getLast? ≠ none) ∧
    (∀ p sources, program { p with sources := sources } = program p) ∧
    ∀ f file quiet output,
      LeavesOnly f file output (exec Folder.place ⟨quiet, .generate file output⟩ f).1
        (exec Folder.place ⟨quiet, .generate file output⟩ f).2 := by
  refine ⟨fun σ files file s s' content hread => ⟨fun hnone quiet command => ?_, fun p => ?_⟩,
    fun σ => code_eq_code_plain, fun σ => output_of_code_ne_zero, fun p q h => ?_,
    fun p sources => ?_, exec_generate_leavesOnly⟩
  · exact exec_of_undecoded hread hnone quiet
  · exact consistent hread
  · obtain ⟨source, hsource, -⟩ := getLast?_sources_of_process h
    rw [hsource]
    simp
  · rw [program_eq, program_eq]

/-- In a folder with two problems the commands agree on the one that has a program, on the one that
has a size without a constant, and on a file that is not there. -/
theorem commands_agree_folder :
    let sum : Problem := ⟨"sum", "1 ≤ N ≤ 9", [⟨.single, .number, ["N"], []⟩,
      ⟨.harray, .number, ["A"], [.symbol "N"]⟩], []⟩
    let row : Problem := ⟨"row", "1 ≤ N ≤ 9", [⟨.harray, .number, ["A"], [.symbol "K"]⟩], []⟩
    let f := Folder.ofList [("sum.json", "[\"sum\", \"1 ≤ N ≤ 9\", " ++
        "[[\"single\", \"number\", [\"N\"]], [\"harray\", \"number\", [\"A\"], [\"N\"]]]]"),
      ("row.json", "[\"row\", \"1 ≤ N ≤ 9\", [[\"harray\", \"number\", [\"A\"], [\"K\"]]]]")]
    (Consistent Folder.place "sum.json" f f sum ∧
      (exec Folder.place ⟨true, .check "sum.json" false⟩ f).1.code = 0) ∧
    (Consistent Folder.place "row.json" f f row ∧
      (exec Folder.place ⟨false, .check "row.json" true⟩ f).1.code = 1 ∧
      ∃ messages, exec Folder.place ⟨false, .generate "row.json" (some "row.cxx")⟩ f =
        (⟨1, "", messages⟩, f)) ∧
    ∃ messages, exec Folder.place ⟨true, .check "max.json" true⟩ f = (⟨2, "", messages⟩, f) := by
  intro sum row f
  have hsum : Consistent Folder.place "sum.json" f f sum :=
    (commands_agree.1 Folder Folder.place "sum.json" f f _ rfl).2 _ (by decide +kernel)
  have hrow : Consistent Folder.place "row.json" f f row :=
    (commands_agree.1 Folder Folder.place "row.json" f f _ rfl).2 _ (by decide +kernel)
  have hvalid : ∃ text, Program.generate Bound.extract sum.definitions sum.description = .ok text :=
    Report.isValid_check_iff.1 (by decide +kernel)
  have hfault : Program.generate Bound.extract row.definitions row.description =
      .error (.unresolvedSize "K" "K_MAX") := by decide +kernel
  refine ⟨⟨hsum, (hsum.check true false).1.2 hvalid⟩,
    ⟨hrow, (hrow.check false true).2.2 ⟨_, hfault⟩, hrow.faulty _ hfault false _⟩, ?_⟩
  exact (commands_agree.1 Folder Folder.place "max.json" f f _ rfl).1 (by decide +kernel) true
    (.check "max.json" true) rfl

end CommandLine

end ContestInput
