import Mathlib.Data.List.TakeWhile
import TapeMachine.Proofs.Configured
import TapeMachine.Proofs.Documents
import TapeMachine.Proofs.Foreseen
import TapeMachine.Proofs.Numerals

-- A step limit that is given on the command line, and the same limit in a configuration file.
namespace TapeMachine.CommandLine

open Yaml (Value)

section

variable {α : Type} {options : Options α}

theorem pieceOf?_plain {argument : String} (plain : argument.toList.head? ≠ some '-') :
    pieceOf? options argument = some .operand := by
  simp only [pieceOf?,plain,not_false_eq_true,ne_eq,if_true]

def Unnumbered (options : Options α) : Prop :=
  ∀ entry ∈ options, ∀ c rest, entry.1.toList = '-' :: c :: rest → c.isDigit = false

theorem isNegativeNumber_digits {digits : List Char} (all : ∀ c ∈ digits, c.isDigit = true)
    (any : digits ≠ []) : isNegativeNumber ('-' :: digits) = true := by
  have oneLine : digits.getLast? ≠ some '\n' := by
    intro ends
    exact Text.ne_of_isDigit (all _ (List.mem_of_getLast? ends)) rfl rfl
  have whole : digits.takeWhile (fun c => (Text.digit? c).isSome) = digits := by
    rw [List.takeWhile_eq_self_iff]
    intro c member
    rw [Text.digit?_of_isDigit (all c member)]
    rfl
  simp [isNegativeNumber,oneLine,whole,any]

theorem abbreviated_number (unnumbered : Unnumbered options) {c : Char} {rest : List Char}
    (digit : c.isDigit = true) : abbreviated options ('-' :: c :: rest) = [] := by
  have single : ['-','-'].isPrefixOf ('-' :: c :: rest) = false := by
    have other : '-' ≠ c := (Text.ne_of_isDigit digit rfl).symm
    simp [List.isPrefixOf,other]
  have apart (name : String) (setting : α) (member : (name,setting) ∈ options) (more : List Char) :
      name.toList ≠ '-' :: c :: more :=
    fun named => Bool.noConfusion (digit.symm.trans (unnumbered _ member c more named))
  unfold abbreviated
  simp only [single,Bool.false_eq_true,if_false]
  rw [List.filterMap_eq_nil_iff]
  rintro ⟨name,setting⟩ member
  have short : name.toList ≠ ('-' :: c :: rest).take 2 := apart name setting member []
  have long : ('-' :: c :: rest).isPrefixOf name.toList = false := by
    rw [Bool.eq_false_iff,ne_eq,List.isPrefixOf_iff_prefix]
    rintro ⟨more,named⟩
    exact apart name setting member _ named.symm
  simp only [short,long,if_false,Bool.false_eq_true]

theorem pieceOf?_negative (unnumbered : Unnumbered options) {argument : String} {c : Char}
    {rest : List Char} (spelled : argument.toList = '-' :: c :: rest)
    (all : ∀ d ∈ c :: rest, d.isDigit = true) : pieceOf? options argument = some .operand := by
  have first := all c List.mem_cons_self
  have unknown : options.lookup argument = none := by
    rw [List.lookup_eq_none_iff]
    intro entry member
    rw [bne_iff_ne]
    rintro rfl
    exact Bool.noConfusion (first.symm.trans (unnumbered entry member c rest spelled))
  have whole : ('-' :: c :: rest).takeWhile (fun d => !decide (d = '=')) = '-' :: c :: rest := by
    rw [List.takeWhile_eq_self_iff]
    intro d member
    rcases List.mem_cons.mp member with rfl | digit
    · rfl
    · simp [Text.ne_of_isDigit (all d digit) (d := '=') rfl]
  have negative := isNegativeNumber_digits all (List.cons_ne_nil _ _)
  simp [pieceOf?,spelled,unknown,splitAtEquals,whole,abbreviated_number unnumbered first,negative]

theorem pieceOf?_number (unnumbered : Unnumbered options) (n : Int) :
    pieceOf? options (toString n) = some .operand := by
  cases n with
  | ofNat n =>
    refine pieceOf?_plain ?_
    rw [Int.ofNat_eq_natCast,Text.toList_natural]
    intro dash
    exact Text.ne_of_isDigit (Text.isDigit_of_mem (List.mem_of_head? dash)) rfl rfl
  | negSucc n =>
    obtain ⟨c,rest,digits⟩ := List.exists_cons_of_ne_nil (Nat.toDigits_ne_nil (b := 10) (n := n+1))
    have spelled : (toString (Int.negSucc n)).toList = '-' :: c :: rest := by
      rw [Text.toList_negative,digits]
    refine pieceOf?_negative unnumbered spelled ?_
    rw [← digits]
    exact fun d => Text.isDigit_of_mem

end

def Plain (name : String) : Prop := name.toList.head? ≠ some '-'

theorem Plain.ne_separator {name : String} (plain : Plain name) : name ≠ "--" := by
  rintro rfl
  exact plain rfl

theorem number_ne_separator (n : Int) : toString n ≠ "--" := by
  intro same
  have dashes := congrArg String.toList same
  cases n with
  | ofNat n =>
    rw [Int.ofNat_eq_natCast,Text.toList_natural] at dashes
    have digit : '-' ∈ Nat.toDigits 10 n := dashes ▸ List.mem_cons_self
    exact Bool.noConfusion (Text.isDigit_of_mem digit)
  | negSucc n =>
    rw [Text.toList_negative] at dashes
    have digit : '-' ∈ Nat.toDigits 10 (n+1) := (List.cons.inj dashes).2 ▸ List.mem_cons_self
    exact Bool.noConfusion (Text.isDigit_of_mem digit)

theorem unnumbered_common : Unnumbered commonOptions := by
  simp [Unnumbered,commonOptions,helpOptions]

theorem unnumbered_run : Unnumbered runOptions := by
  simp [Unnumbered,runOptions,helpOptions]

theorem classify?_cons {α : Type} {options : Options α} {argument : String} {piece : Piece α}
    (other : argument ≠ "--") (found : pieceOf? options argument = some piece) (rest : List String) :
    classify? options (argument :: rest) = (classify? options rest).map (⟨argument,piece⟩ :: ·) := by
  rw [classify?,if_neg other,found]
  cases classify? options rest <;> rfl

theorem classify?_flagged {options : Options Setting} {source : String} (plain : Plain source)
    (unnumbered : Unnumbered options) {piece : Piece Setting}
    (found : pieceOf? options "--max-steps" = some piece) (n : Int) :
    classify? options [source,"--max-steps",toString n] =
      some [⟨source,.operand⟩,⟨"--max-steps",piece⟩,⟨toString n,.operand⟩] := by
  rw [classify?_cons plain.ne_separator (pieceOf?_plain plain),
    classify?_cons (by decide) found,
    classify?_cons (number_ne_separator n) (pieceOf?_number unnumbered n)]
  rfl

theorem read_flagged {source : String} (plain : Plain source) (n : Int) :
    Request.read ["run",source,"--max-steps",toString n] =
      if Text.isWritable n then
        .ok ⟨none,none,Path.of source,.run (some (.value n)) false false⟩
      else .error .misuse := by
  have run : pieceOf? commonOptions "run" = some .operand := pieceOf?_plain (by decide)
  have pieces : classify? commonOptions ["run",source,"--max-steps",toString n] = some
      [⟨"run",.operand⟩,⟨source,.operand⟩,⟨"--max-steps",.stranger⟩,⟨toString n,.operand⟩] := by
    rw [classify?_cons (by decide) run,classify?_flagged plain unnumbered_common rfl]
    rfl
  have option : pieceOf? runOptions "--max-steps" = some (.option .maxSteps false none) := rfl
  have arguments := classify?_flagged plain unnumbered_run option n
  have actions : commandActions runOptions false
      [⟨source,.operand⟩,⟨"--max-steps",.option .maxSteps false none⟩,⟨toString n,.operand⟩] =
        [.operand source,.assign .maxSteps (.value (toString n))] := by
    simp [commandActions,withoutSeparator,nextOperand?,takeOption,takeBare,Setting.takesValue]
  unfold Request.read
  simp only [pieces,commonActions,List.map_cons,List.map_nil,bind,Except.bind,Draft.actAll,readActions,
    arguments,actions,Draft.act,Draft.assign,Draft.judged,Text.integer?_toString]
  cases Text.isWritable n <;> rfl

theorem read_filed {config source : String} (named : Plain config) (plain : Plain source) :
    Request.read ["--config",config,"run",source] =
      .ok ⟨some (.value (Path.of config)),none,Path.of source,.run none false false⟩ := by
  have option : pieceOf? commonOptions "--config" = some (.option .config false none) := rfl
  have run : pieceOf? commonOptions "run" = some .operand := pieceOf?_plain (by decide)
  have pieces : classify? commonOptions ["--config",config,"run",source] = some
      [⟨"--config",.option .config false none⟩,⟨config,.operand⟩,⟨"run",.operand⟩,⟨source,.operand⟩] := by
    rw [classify?_cons (by decide) option,classify?_cons named.ne_separator (pieceOf?_plain named),
      classify?_cons (by decide) run,classify?_cons plain.ne_separator (pieceOf?_plain plain)]
    rfl
  have common : commonActions [⟨"--config",.option .config false none⟩,⟨config,.operand⟩,
      ⟨"run",.operand⟩,⟨source,.operand⟩] = ([.assign .config (.value config)],["run",source]) := by
    simp [commonActions,nextOperand?,takeOption,takeBare,Setting.takesValue]
  have arguments : classify? runOptions [source] = some [⟨source,.operand⟩] := by
    rw [classify?_cons plain.ne_separator (pieceOf?_plain plain)]
    rfl
  have actions : commandActions runOptions false [⟨source,.operand⟩] = [.operand source] := by
    simp [commandActions,withoutSeparator]
  unfold Request.read
  simp only [pieces,common,bind,Except.bind,Draft.actAll,readActions,arguments,actions,Draft.act,
    Draft.assign]
  rfl

def limiting (n : Int) : Settings.Entries := [(.text "interpreter",.map [(.text "max_steps",.int n)])]

inductive LimitsTo (n : Int) : Value → Prop where
  | bare : LimitsTo n (.map (limiting n))
  | wrapped : LimitsTo n (.map [(.text "turir",.map (limiting n))])

theorem LimitsTo.ofValue {n : Int} {value : Value} (limits : LimitsTo n value) :
    Settings.ofValue value = if 0 < n then .ok { maxSteps := .int n }
      else .error (SettingsError.told (.notPositive "interpreter.max_steps" (.int n))) := by
  have taken : Settings.ofValue (.map (limiting n)) = if 0 < n then .ok { maxSteps := .int n }
      else .error (SettingsError.told (.notPositive "interpreter.max_steps" (.int n))) := by
    have bare : Settings.unwrapped (limiting n) = limiting n := rfl
    have keys : Settings.checkKeys (limiting n) = .ok () := rfl
    have block : Settings.block "interpreter" (limiting n) = .ok [(.text "max_steps",.int n)] := rfl
    have most : Settings.readMaxSteps [(.text "max_steps",.int n)] =
      (Settings.positive "interpreter.max_steps" (.int n)).map some := rfl
    by_cases above : 0 < n
    · simp only [Settings.ofValue,Settings.ofEntries,bare,keys,block,most,bind,Except.bind,
        Settings.positive,if_pos above]
      rfl
    · simp only [Settings.ofValue,Settings.ofEntries,bare,keys,block,most,bind,Except.bind,
        Settings.positive,if_neg above]
      rfl
  cases limits with
  | bare => exact taken
  | wrapped => rw [Settings.ofValue_wrapped (Settings.bare_of_none rfl),taken]

theorem execute_exhausted (program : Program) {n : Int} (below : n ≤ 0) (patience : Nat) {run : Run}
    (filled : run.tape ≠ []) :
    program.execute (some n) patience run = some ⟨run,[],.limited n run.state⟩ := by
  obtain ⟨fresh,started⟩ := Machine.fresh_of run filled
  have reached : reached? (some n) fresh.steps = some n := by
    rw [reached?_eq_some_iff,started.steps]
    exact ⟨rfl,below⟩
  have ends : fresh.Ends program (some n) (.limited n run.state) := by
    rw [← started.state]
    exact .limited started.running reached
  exact program.execute_of_course started .done ends (fun _ _ => Nat.zero_le _) (Nat.zero_le _)

theorem executeAll_exhausted {program : Program} {n : Int} (below : n ≤ 0) (patience : Nat)
    {run : Run} {runs : List Run} (first : program.runs = run :: runs) (filled : run.tape ≠ []) :
    program.executeAll (some n) patience = some [⟨run,[],.limited n run.state⟩] := by
  rw [Program.executeAll,first,Program.executeAll.go,execute_exhausted program below patience filled]
  rfl

def Request.traced (source : String) (config : Option (Given Path)) (maxSteps : Option (Given Int)) :
    Request := ⟨config,none,Path.of source,.run maxSteps false false⟩

theorem traced_answered {source : String} {config : Option (Given Path)} {maxSteps : Option (Given Int)}
    {reading : Reading} {n : Int}
    (set : (Request.traced source config maxSteps).settings reading = .ok { maxSteps := .int n })
    (patience : Nat) : ∃ report,
      (Request.traced source config maxSteps).answer reading patience = some (.report report) ∧
      ∀ program, (readProgram (Path.of source) reading).2 = .ok program → ∃ executions,
        program.executeAll (some n) patience = some executions ∧
          report.output = String.join (executions.map Execution.trace) ∧
          report.failure = (executions.findSome? (·.ending.error?)).map .run := by
  rcases (Request.traced source config maxSteps).prepared_or reading with
    ⟨report,unprepared⟩ | ⟨settings,severity,program,prepared⟩
  · refine ⟨report,Request.answer_of_unprepared unprepared patience,?_⟩
    intro program parsed
    cases unprepared with
    | settings failed => cases set.symm.trans failed
    | level other failed =>
      cases set.symm.trans other
      cases failed
    | program _ _ failed => cases parsed.symm.trans failed
  · cases set.symm.trans prepared.set
    obtain ⟨executions,executed,_⟩ := program.executeAll_failure n patience program.runs
    have all : program.executeAll (some n) patience = some executions := executed
    have allowance : Settings.allowance { maxSteps := .int n } = (some n,none) := rfl
    refine ⟨⟨String.join (executions.map Execution.trace),
      (readProgram (Path.of source) reading).1 ++ executions.flatMap Execution.log,severity,
      (executions.findSome? (·.ending.error?)).map .run⟩,?_,?_⟩
    · rw [Request.answer_of_prepared prepared]
      simp only [Request.traced,runReport_eq,allowance,all,runFailure_none]
      rfl
    · intro other parsed
      cases prepared.parsed.symm.trans parsed
      exact ⟨executions,all,rfl,rfl⟩

def flagged (source : String) (n : Int) : List String := ["run",source,"--max-steps",toString n]
def filed (config source : String) : List String := ["--config",config,"run",source]

structure LimitsAlike (world : World σ) (config source : String) (n : Int) (state : σ) (patience : Nat) :
    Prop where
  alike : 0 < n → Text.isWritable n = true → ∃ report,
    invoke world (flagged source n) patience state = some (.ok report,state) ∧
      invoke world (filed config source) patience state = some (.ok report,state)
  refused : n ≤ 0 → Text.isWritable n = true → ∃ report,
    invoke world (filed config source) patience state = some (.ok report,state) ∧ report.exitCode = 1 ∧
      report.output = "" ∧ report.errorOutput =
        "'interpreter.max_steps' must be a positive integer, got " ++ toString n ++ ".\n"
  heeded : n ≤ 0 → Text.isWritable n = true → ∃ report,
    invoke world (flagged source n) patience state = some (.ok report,state) ∧ ∀ program,
      (readProgram (Path.of source) (world.reading state)).2 = .ok program →
        (program.runs = [] → report.failure = none ∧ report.output = "") ∧
        ∀ run runs, program.runs = run :: runs → run.tape ≠ [] →
          report.failure = some (.run (.stepLimit n run.state)) ∧ report.output = run.text ++ "\n"
  tooLong : Text.isWritable n = false →
    invoke world (flagged source n) patience state = some (.error .misuse,state)

theorem invoke_flagged {source : String} (plain : Plain source) {n : Int}
    (short : Text.isWritable n = true) (patience : Nat) (world : World σ) (state : σ) :
    invoke world (flagged source n) patience state =
      ((Request.traced source none (some (.value n))).answer (world.reading state) patience).map
        fun answer => (.ok (answer.perform world.toFileSystem state).1,
          (answer.perform world.toFileSystem state).2) := by
  rw [invoke,flagged,read_flagged plain,if_pos short]
  rfl

theorem invoke_filed {config source : String} (named : Plain config) (plain : Plain source)
    (patience : Nat) (world : World σ) (state : σ) :
    invoke world (filed config source) patience state =
      ((Request.traced source (some (.value (Path.of config))) none).answer (world.reading state)
        patience).map fun answer => (.ok (answer.perform world.toFileSystem state).1,
          (answer.perform world.toFileSystem state).2) := by
  rw [invoke,filed,read_filed named plain]
  rfl

theorem settings_flagged (source : String) (n : Int) (reading : Reading) :
    (Request.traced source none (some (.value n))).settings reading = .ok { maxSteps := .int n } := rfl

theorem settings_filed {config : String} {bytes : List UInt8} {value : Value} {n : Int}
    (reading : Reading) (source : String) (there : reading.file (Path.of config) = .ok bytes)
    (holds : reading.document bytes = .ok value) (limits : LimitsTo n value) :
    (Request.traced source (some (.value (Path.of config))) none).settings reading =
      if 0 < n then .ok { maxSteps := .int n }
      else .error (.settings (.settings (SettingsError.told
        (.notPositive "interpreter.max_steps" (.int n))))) := by
  have loaded := Settings.load_of_read (Path.of config).text (Path.of config) holds
  simp only [Request.settings,Request.traced,there,loaded,limits.ofValue]
  by_cases above : 0 < n
  · rw [if_pos above,if_pos above]
    rfl
  · rw [if_neg above,if_neg above]
    rfl

theorem refusal_message (n : Int) :
    (SettingsError.notPositive "interpreter.max_steps" (.int n)).message =
      "'interpreter.max_steps' must be a positive integer, got " ++ toString n ++ "." := by
  have message : (SettingsError.notPositive "interpreter.max_steps" (.int n)).message =
      "'" ++ "interpreter.max_steps" ++ "' must be a positive integer, got " ++
        (Value.int n).shown ++ "." := rfl
  rw [message,Value.shown]
  rfl

theorem limits_alike {world : World σ} {state : σ} {config source : String} {bytes : List UInt8}
    {value : Value} {n : Int} (named : Plain config) (plain : Plain source)
    (there : world.read state (Path.of config) = .ok bytes)
    (holds : world.document bytes = .ok value) (limits : LimitsTo n value) (patience : Nat) :
    LimitsAlike world config source n state patience where
  alike := by
    intro above short
    have filed := settings_filed (world.reading state) source there holds limits
    rw [if_pos above] at filed
    have flagged := settings_flagged source n (world.reading state)
    obtain ⟨report,answered,_⟩ := traced_answered flagged patience
    have same : (Request.traced source (some (.value (Path.of config))) none).answer (world.reading state)
          patience = (Request.traced source none (some (.value n))).answer (world.reading state) patience := by
      unfold Request.answer
      rw [filed,flagged]
      simp only [Request.traced]
    refine ⟨report,?_,?_⟩
    · rw [invoke_flagged plain short,answered]
      rfl
    · rw [invoke_filed named plain,same,answered]
      rfl
  refused := by
    intro below short
    have filed := settings_filed (world.reading state) source there holds limits
    have told : SettingsError.told (.notPositive "interpreter.max_steps" (.int n)) =
        .notPositive "interpreter.max_steps" (.int n) := by
      simp [SettingsError.told,SettingsError.shows,Value.unshown?,short]
    rw [if_neg (Int.not_lt.mpr below),told] at filed
    have answered := Request.answer_of_unprepared (.settings filed) patience
    refine ⟨⟨"",[],usualLevel.severity,some (.settings (.settings
      (.notPositive "interpreter.max_steps" (.int n))))⟩,?_,rfl,rfl,?_⟩
    · rw [invoke_filed named plain,answered]
      rfl
    · have output : Report.errorOutput ⟨"",[],usualLevel.severity,some (.settings (.settings
          (.notPositive "interpreter.max_steps" (.int n))))⟩ = "" ++
            ((SettingsError.notPositive "interpreter.max_steps" (.int n)).message ++ "\n") := rfl
      rw [output,String.empty_append,refusal_message,String.append_assoc]
      rfl
  heeded := by
    intro below short
    obtain ⟨report,answered,comes⟩ := traced_answered (settings_flagged source n (world.reading state)) patience
    refine ⟨report,?_,?_⟩
    · rw [invoke_flagged plain short,answered]
      rfl
    · intro program parsed
      obtain ⟨executions,executed,output,failure⟩ := comes program parsed
      constructor
      · intro none
        have empty : program.executeAll (some n) patience = some [] := by
          rw [Program.executeAll,none]
          rfl
        cases executed.symm.trans empty
        exact ⟨failure,output⟩
      · intro run runs first filled
        cases executed.symm.trans (executeAll_exhausted below patience first filled)
        refine ⟨failure,?_⟩
        rw [output]
        simp [Execution.trace]
  tooLong := by
    intro long
    rw [invoke,flagged,read_flagged plain,long]
    rfl

def endlessLimited (limit : List UInt8) : Disk :=
  ⟨[],[(["c.yaml"],limit),(["a.tur"],Utf8.encode "A 0 0 -> A\n#run [ 0 ] A\n".toList)]⟩

def twoSteps : List UInt8 := Utf8.encode "interpreter:\n  max_steps: 2\n".toList
def noSteps : List UInt8 := Utf8.encode "interpreter: \x7bmax_steps: 0\x7d\n".toList

theorem endlessLimited_read (limit : List UInt8) :
    (endlessLimited limit).read (Path.of "c.yaml") = .ok limit := rfl

theorem plain_names : Plain "c.yaml" ∧ Plain "a.tur" := by simp [Plain]

theorem limits_alike_two : Plain "c.yaml" ∧ Plain "a.tur" ∧
    (endlessLimited twoSteps).read (Path.of "c.yaml") = .ok twoSteps ∧
    Yaml.shallowReader twoSteps = .ok (.map (limiting 2)) ∧ LimitsTo 2 (.map (limiting 2)) ∧
    LimitsAlike shallowWorld "c.yaml" "a.tur" 2 (endlessLimited twoSteps) 0 := by
  obtain ⟨named,plain⟩ := plain_names
  have there := endlessLimited_read twoSteps
  have holds : Yaml.shallowReader twoSteps = .ok (.map (limiting 2)) :=
    Yaml.read_of_describes (by decide +kernel)
  exact ⟨named,plain,there,holds,.bare,limits_alike named plain there holds .bare 0⟩

-- No step at all is a limit for an option, but none for a file.
theorem no_step_apart : ¬ ∀ config source bytes value n disk, Plain config → Plain source →
    disk.read (Path.of config) = .ok bytes → Yaml.shallowReader bytes = .ok value → LimitsTo n value →
    ∀ patience, invoke shallowWorld (flagged source n) patience disk =
      invoke shallowWorld (filed config source) patience disk := by
  intro claim
  have holds : Yaml.shallowReader noSteps = .ok (.map (limiting 0)) :=
    Yaml.read_of_describes (by decide +kernel)
  have same := claim "c.yaml" "a.tur" noSteps _ 0 (endlessLimited noSteps) plain_names.1 plain_names.2
    (endlessLimited_read noSteps) holds .bare 0
  have shown : (invoke shallowWorld (flagged "a.tur" 0) 0 (endlessLimited noSteps)).map
      (·.1.toOption.map Report.output) = some (some "#run [ 0 ] A\n") := by decide +kernel
  have silent : (invoke shallowWorld (filed "c.yaml" "a.tur") 0 (endlessLimited noSteps)).map
      (·.1.toOption.map Report.output) = some (some "") := by decide +kernel
  rw [same,silent] at shown
  simp at shown

end TapeMachine.CommandLine
